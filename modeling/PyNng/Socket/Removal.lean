import PyNng.Socket.Closing
import PyNng.Socket.Observe
/-!
# Socket — a removal is announced

Three paths commit `REMOVED`: `update_pipes` for a pipe it drops from the
list or finds removed, `Pipe.close`, and `Socket.close` for the pipes it
took out of the list. A pipe that was in the list is always with one of
them until its removal is committed, so none is forgotten; and each
transition is committed once, so its callback is called once at most.

`update_pipes` and `Pipe.close` call the callback that the commit returns.
`Socket.close` throws it away.
-/

namespace PyNng

namespace Socket

variable {σ : Type} {cfg : Config σ} {s s' : State σ}

/-! ## A callback is called once -/

/-- The callback that was called. -/
def Invocation.due (i : Invocation) : Due := ⟨i.pipe, i.announced⟩

/-- **Every callback returned is with one thread**, until it has been called. -/
structure Tallied (s : State σ) : Prop where
  nodup : ∀ h, (s.pending h).Nodup
  apart : ∀ h h', h ≠ h' → ∀ d ∈ s.pending h, d ∉ s.pending h'
  called : ∀ i ∈ s.invoked, (⟨i.pipe, i.announced, true⟩ : Commit) ∈ s.commits
  once : (s.invoked.map Invocation.due).Nodup
  left : ∀ h, ∀ d ∈ s.pending h, d ∉ s.invoked.map Invocation.due

/-- What is committed had not been. -/
theorem Paced.fresh {x : Pipe} {new : PipeEv} (hp : Paced s')
    (hcommits : s'.commits = (s.commit x new).commits) (hmoves : (s.objs x.obj).Moves new)
    {callback : Bool} : (⟨x, new, callback⟩ : Commit) ∉ s.commits := by
  intro hin
  have honce := hp.once
  rw [hcommits] at honce
  unfold State.commit at honce
  rw [if_pos hmoves] at honce
  have hlt := (List.pairwise_append.mp honce).2.2 _ hin _ (List.mem_singleton.mpr rfl) rfl
  exact Nat.lt_irrefl _ hlt

namespace Tallied

theorem mem_commits_of_called (h : Tallied s) {d : Due} (hd : d ∈ s.invoked.map Invocation.due) :
    (⟨d.pipe, d.announced, true⟩ : Commit) ∈ s.commits := by
  obtain ⟨i, hi, rfl⟩ := List.mem_map.mp hd
  exact h.called i hi

theorem of_same (h : Tallied s) (hpending : ∀ hd, s'.pending hd = s.pending hd)
    (hinvoked : s'.invoked = s.invoked) (hcommits : ∀ c ∈ s.commits, c ∈ s'.commits) :
    Tallied s' where
  nodup := fun hd => by rw [hpending]; exact h.nodup hd
  apart := fun hd hd' => by rw [hpending, hpending]; exact h.apart hd hd'
  called := by rw [hinvoked]; exact fun i hi => hcommits _ (h.called i hi)
  once := by rw [hinvoked]; exact h.once
  left := fun hd => by rw [hpending, hinvoked]; exact h.left hd

/-- **A callback is returned** that nobody has, and nobody has called. -/
theorem commits (ht : Tallied s) (hc : ∀ h, ∀ d ∈ s.pending h,
    (⟨d.pipe, d.announced, true⟩ : Commit) ∈ s.commits) {h : Hand} {x : Pipe} {new : PipeEv}
    (hcm : Commits s s' h x new) (hp : Paced s') : Tallied s' := by
  have hnew : (s.objs x.obj).Moves new → ∀ h', (⟨x, new⟩ : Due) ∉ s.pending h' :=
    fun hmoves h' hd => hp.fresh hcm.commits hmoves (hc h' _ hd)
  refine ⟨fun h' => ?_, fun h' h'' hne d hd hd' => ?_, fun i hi => ?_, ?_, fun h' d hd hin => ?_⟩
  · by_cases hh : h' = h
    · rw [hh, hcm.mine]
      refine List.nodup_append.mpr ⟨ht.nodup h, ?_, fun a ha b hb hab => ?_⟩
      · unfold State.dueOf
        split <;> simp
      · obtain ⟨rfl, hmoves, -⟩ := mem_dueOf_iff.mp hb
        exact hnew hmoves h (hab ▸ ha)
    · rw [hcm.others h' hh]; exact ht.nodup h'
  · rcases hcm.mem_pending hd with hd | ⟨hh, rfl, hmoves, -⟩
    · rcases hcm.mem_pending hd' with hd' | ⟨-, rfl, hmoves, -⟩
      · exact ht.apart h' h'' hne d hd hd'
      · exact hnew hmoves h' hd
    · rcases hcm.mem_pending hd' with hd' | ⟨hh', -⟩
      · exact hnew hmoves h'' hd'
      · exact hne (hh.trans hh'.symm)
  · rw [hcm.invoked] at hi
    rw [hcm.commits, mem_commits_commit]
    exact Or.inl (ht.called i hi)
  · rw [hcm.invoked]; exact ht.once
  · rw [hcm.invoked] at hin
    rcases hcm.mem_pending hd with hd | ⟨-, rfl, hmoves, -⟩
    · exact ht.left h' d hd hin
    · exact hp.fresh hcm.commits hmoves (ht.mem_commits_of_called hin)

end Tallied

/-- A callback that is called is nobody's any more. -/
theorem Invokes.gone {h : Hand} {d : Due} {rest : List Due} (hi : Invokes s s' h d rest)
    (ht : Tallied s) (h' : Hand) : d ∉ s'.pending h' := by
  have hd : d ∈ s.pending h := by rw [hi.mine]; exact List.mem_cons_self
  intro hd'
  by_cases hh : h' = h
  · have hnd := ht.nodup h
    rw [hi.mine, List.nodup_cons] at hnd
    rw [hh] at hd'
    rcases hi.left with hl | hl <;> rw [hl] at hd'
    · exact hnd.1 hd'
    · exact absurd hd' List.not_mem_nil
  · exact ht.apart h h' (Ne.symm hh) d hd ((hi.sublist h').subset hd')

namespace Tallied

/-- **A callback is called** that had not been. -/
theorem invokes (ht : Tallied s) (hc : ∀ h, ∀ d ∈ s.pending h,
    (⟨d.pipe, d.announced, true⟩ : Commit) ∈ s.commits) {h : Hand} {d : Due} {rest : List Due}
    (hi : Invokes s s' h d rest) : Tallied s' := by
  have hd : d ∈ s.pending h := by rw [hi.mine]; exact List.mem_cons_self
  have hinv : s'.invoked.map Invocation.due = s.invoked.map Invocation.due ++ [d] := by
    rw [hi.invoked, List.map_append]
    rfl
  refine ⟨fun h' => (ht.nodup h').sublist (hi.sublist h'), fun h' h'' hne e he he' =>
    ht.apart h' h'' hne e ((hi.sublist h').subset he) ((hi.sublist h'').subset he'),
    fun i hm => ?_, ?_, fun h' e he hin => ?_⟩
  · rw [hi.commits]
    rw [hi.invoked] at hm
    rcases List.mem_append.mp hm with hm | hm
    · exact ht.called i hm
    · rw [List.mem_singleton.mp hm]
      exact hc h d hd
  · rw [hinv]
    exact List.nodup_append.mpr ⟨ht.once, by simp, fun a ha b hb hab =>
      ht.left h d hd (List.mem_singleton.mp hb ▸ hab ▸ ha)⟩
  · rw [hinv] at hin
    rcases List.mem_append.mp hin with hin | hin
    · exact ht.left h' e ((hi.sublist h').subset he) hin
    · rw [List.mem_singleton.mp hin] at he
      exact hi.gone ht h' he

end Tallied

theorem tallied_of_reach (h : (socket cfg).Reach s) : Tallied s := by
  refine h.invariant ?_ fun s a hr hs _ hen => ?_
  · have hnone : ∀ h, (socket cfg).init.pending h = [] := fun h => by cases h <;> rfl
    exact ⟨fun h => by rw [hnone]; exact List.nodup_nil, fun h _ _ d hd => by
      rw [hnone] at hd; exact absurd hd List.not_mem_nil, fun _ hi => absurd hi List.not_mem_nil,
      List.nodup_nil, fun h d hd => by rw [hnone] at hd; exact absurd hd List.not_mem_nil⟩
  · show Tallied (next cfg s a)
    have hc := committed_of_pending hr
    rcases told_next cfg (paced_of_reach hr) hen with
      hsil | ⟨h, x, new, hcm⟩ | ⟨h, d, rest, hi⟩ | ⟨x, new, hdis⟩
    · exact hs.of_same hsil.pending hsil.invoked (by rw [hsil.commits]; exact fun _ => id)
    · exact hs.commits hc hcm (paced_of_reach (.step hr trivial hen))
    · exact hs.invokes hc hi
    · refine hs.of_same hdis.pending hdis.invoked fun c hin => ?_
      rw [hdis.commits, mem_commits_commit]
      exact Or.inl hin

/-! ## Who has a pipe still to tell -/

/-- `update_pipes` is about to commit `REMOVED` for the pipe. -/
structure Awaits (coll : PipeCollection σ) (call : Call) (x : Pipe) : Prop where
  reading : call.pc = .reading
  todo : x ∈ call.todo
  removed : coll.status x.handle.ref = .remPost
  sampled : ∀ ev, call.sampled = some ev → call.todo.head? = some x → ev = .remPost

/-- The places of `close` at which it has pipes to tell. -/
def ClosePc.carries : ClosePc → Bool
  | .pipesCleared => true
  | pc => pc.cleared

/-- **Where a pipe of the list is** until its removal is committed. -/
inductive Carried (s : State σ) (x : Pipe) : Prop
  /-- Its removal is committed. -/
  | told (h : (s.objs x.obj).lastKnown = .remPost)
  | listed (h : x ∈ s.pipes)
  | awaited (t : ℕ) (h : Awaits s.coll (s.calls t) x)
  | copied (c : Closer) (hc : (s.closing c).pc.carries = true) (h : x ∈ (s.closing c).pipes)

/-- What is removed of the pipe stays so. -/
structure StaysRemoved (s s' : State σ) (x : Pipe) : Prop where
  known : (s.objs x.obj).lastKnown = .remPost → (s'.objs x.obj).lastKnown = .remPost
  status : s.coll.status x.handle.ref = .remPost → s'.coll.status x.handle.ref = .remPost

theorem Advances.staysRemoved (h : Advances s s') {x : Pipe} (hx : x ∈ s.made) :
    StaysRemoved s s' x :=
  ⟨h.removed hx, h.coll.remPost (h.refs x hx)⟩

theorem reading_setCall {t : ℕ} {call : Call} (hcalls : s'.calls = s.calls)
    (hpc : (s.calls t).pc ≠ .reading) (u : ℕ) (hu : (s.calls u).pc = .reading) :
    (State.setCall t call s').calls u = s.calls u := by
  have hut : u ≠ t := by
    rintro rfl
    exact hpc hu
  simp only [State.setCall, Function.update_of_ne hut, hcalls]

theorem carries_setClosing {c : Closer} {run : CloseRun} (hclosing : s'.closing = s.closing)
    (hrun : (s.closing c).pc.carries = true →
      run.pc.carries = true ∧ run.pipes = (s.closing c).pipes)
    (d : Closer) (hd : (s.closing d).pc.carries = true) :
    ((State.setClosing c run s').closing d).pc.carries = true ∧
      ((State.setClosing c run s').closing d).pipes = (s.closing d).pipes := by
  by_cases hdc : d = c
  · subst hdc
    simpa only [State.setClosing, Function.update_self] using hrun hd
  · simp only [State.setClosing, Function.update_of_ne hdc, hclosing]
    exact ⟨hd, trivial⟩

theorem lastKnown_commit_remPost {x : Pipe} :
    ((s.commit x .remPost).objs x.obj).lastKnown = .remPost := by
  rw [objs_commit_self, PipeFields.lastKnown_handleStatusChange]
  split
  · rfl
  · rename_i hmoves
    by_contra hne
    exact hmoves ⟨Ne.symm hne, hne⟩

namespace Carried

variable {x : Pipe}

/-- Neither the list changes, nor a call that is reading, nor what a run of
`close` carries. -/
theorem mono (h : Carried s x) (hstays : StaysRemoved s s' x) (hpipes : s'.pipes = s.pipes)
    (hcalls : ∀ u, (s.calls u).pc = .reading → s'.calls u = s.calls u)
    (hclosing : ∀ c, (s.closing c).pc.carries = true →
      (s'.closing c).pc.carries = true ∧ (s'.closing c).pipes = (s.closing c).pipes) :
    Carried s' x := by
  cases h with
  | told h => exact .told (hstays.known h)
  | listed h => exact .listed (hpipes ▸ h)
  | awaited t h =>
    have hsame := hcalls t h.reading
    exact .awaited t ⟨by rw [hsame]; exact h.reading, by rw [hsame]; exact h.todo,
      hstays.status h.removed, by rw [hsame]; exact h.sampled⟩
  | copied c hc h =>
    obtain ⟨hc', hpipes'⟩ := hclosing c hc
    exact .copied c hc' (hpipes' ▸ h)

/-- A call that may be reading moves on. -/
theorem setCall (h : Carried s x) {t : ℕ} {call : Call}
    (hstays : StaysRemoved s (State.setCall t call s') x) (hpipes : s'.pipes = s.pipes)
    (hcalls : s'.calls = s.calls) (hclosing : s'.closing = s.closing)
    (hcall : Awaits s.coll (s.calls t) x → Carried (State.setCall t call s') x) :
    Carried (State.setCall t call s') x := by
  cases h with
  | told h => exact .told (hstays.known h)
  | listed h => exact .listed (show x ∈ s'.pipes from hpipes ▸ h)
  | awaited u h =>
    by_cases hut : u = t
    · exact hcall (hut ▸ h)
    · have hsame : (State.setCall t call s').calls u = s.calls u := by
        simp only [State.setCall, Function.update_of_ne hut, hcalls]
      exact .awaited u ⟨by rw [hsame]; exact h.reading, by rw [hsame]; exact h.todo,
        hstays.status h.removed, by rw [hsame]; exact h.sampled⟩
  | copied c hc h =>
    have hsame : (State.setCall t call s').closing c = s.closing c := by rw [← hclosing]; rfl
    exact .copied c (by rw [hsame]; exact hc) (by rw [hsame]; exact h)

/-- **The assignment**: a pipe the call has not taken over is removed, and
the call reads it next. -/
theorem assign (h : Carried s x) (hsh : Shadowed s) {t : ℕ} (hpc : (s.calls t).pc = .creating) :
    Carried (next cfg s (.assign t)) x := by
  cases h with
  | told h => exact .told h
  | listed h =>
    have hasm := hsh.assembling t hpc
    have hprev : x ∈ (s.calls t).prev := by rw [hasm.prev]; exact h
    by_cases hstill : x ∈ (s.calls t).still
    · exact .listed (List.mem_append_left _ hstill)
    · refine .awaited t ?_
      simp only [next, State.setCall, Function.update_self]
      exact ⟨rfl, hprev, hasm.dropped x hprev hstill, fun _ hev => by cases hev⟩
  | awaited u h =>
    have hut : u ≠ t := by
      rintro rfl
      have hread := h.reading
      rw [hpc] at hread
      cases hread
    refine .awaited u ?_
    simp only [next, State.setCall, Function.update_of_ne hut]
    exact h
  | copied c hc h => exact .copied c hc h

/-- **The status of the first pipe is read.** -/
theorem sample (h : Carried s x) (t : ℕ) : Carried (next cfg s (.sample t)) x := by
  refine h.setCall ⟨id, id⟩ rfl rfl rfl fun h => .awaited t ?_
  simp only [State.setCall, Function.update_self]
  refine ⟨h.reading, h.todo, h.removed, fun ev hev hhead => ?_⟩
  rw [hhead] at hev
  exact (Option.some.inj hev).symm.trans h.removed

/-- **What was read is committed**: `REMOVED`, of a pipe that is removed. -/
theorem read (h : Carried s x) {t : ℕ} (hstays : StaysRemoved s (next cfg s (.read t)) x) :
    Carried (next cfg s (.read t)) x := by
  cases htodo : (s.calls t).todo with
  | nil => simpa only [next, htodo] using h
  | cons y ys =>
    cases hev : (s.calls t).sampled with
    | none => simpa only [next, htodo, hev] using h
    | some ev =>
      simp only [next, htodo, hev] at hstays ⊢
      refine h.setCall hstays rfl rfl rfl fun h => ?_
      by_cases hxy : x = y
      · subst hxy
        obtain rfl := h.sampled ev hev (by rw [htodo]; rfl)
        exact .told lastKnown_commit_remPost
      · have hx : x ∈ ys := (List.mem_cons.mp (htodo ▸ h.todo)).resolve_left hxy
        refine .awaited t ?_
        simp only [State.setCall, Function.update_self]
        exact ⟨h.reading, hx, h.removed, fun _ hnone => by cases hnone⟩

/-- **`close` tells the pipes it took over one by one.** -/
theorem tell (h : Carried s x) (hp : Paced s) {c : Closer} (hpc : (s.closing c).pc = .closed)
    (hstays : StaysRemoved s (Socket.closeStep s c) x) : Carried (Socket.closeStep s c) x := by
  cases hxs : (s.closing c).pipes with
  | nil =>
    simp only [Socket.closeStep, hpc, hxs] at hstays ⊢
    cases h with
    | told h => exact .told (hstays.known h)
    | listed h => exact .listed h
    | awaited t h => exact .awaited t h
    | copied d hd h =>
      have hdc : d ≠ c := by
        rintro rfl
        rw [hxs] at h
        cases h
      refine .copied d ?_ ?_ <;> simp only [State.setClosing, Function.update_of_ne hdc]
      · exact hd
      · exact h
  | cons y ys =>
    cases hev : (s.closing c).sampled with
    | none =>
      simp only [Socket.closeStep, hpc, hxs, hev] at hstays ⊢
      exact h.mono hstays rfl (fun _ _ => rfl)
        (carries_setClosing rfl fun _ => ⟨by rfl, hxs.symm⟩)
    | some ev =>
      obtain rfl := hp.told c ev hev
      simp only [Socket.closeStep, hpc, hxs, hev] at hstays ⊢
      by_cases hxy : x = y
      · subst hxy
        exact .told lastKnown_commit_remPost
      · cases h with
        | told h => exact .told (hstays.known h)
        | listed h => exact .listed h
        | awaited t h => exact .awaited t h
        | copied d hd h =>
          by_cases hdc : d = c
          · subst hdc
            have hx : x ∈ ys := (List.mem_cons.mp (hxs ▸ h)).resolve_left hxy
            refine .copied d ?_ ?_ <;> simp only [State.setClosing, Function.update_self]
            · rfl
            · exact hx
          · refine .copied d ?_ ?_ <;> simp only [State.setClosing, Function.update_of_ne hdc]
            · exact hd
            · exact h

/-- **`close` takes the list over** when it empties it. -/
theorem takeOver (h : Carried s x) {c : Closer} (hpc : (s.closing c).pc = .locked)
    (hopen : s.isOpen = true) : Carried (Socket.closeStep s c) x := by
  simp only [Socket.closeStep, hpc, hopen, if_true]
  cases h with
  | told h => exact .told h
  | listed h =>
    refine .copied c ?_ ?_ <;> simp only [State.setClosing, Function.update_self]
    · rfl
    · exact h
  | awaited t h => exact .awaited t h
  | copied d hd h =>
    have hdc : d ≠ c := by
      rintro rfl
      rw [hpc] at hd
      cases hd
    refine .copied d ?_ ?_ <;> simp only [State.setClosing, Function.update_of_ne hdc]
    · exact hd
    · exact h

theorem closeStep (h : Carried s x) (hp : Paced s) {c : Closer}
    (hstays : StaysRemoved s (Socket.closeStep s c) x) : Carried (Socket.closeStep s c) x := by
  cases hpc : (s.closing c).pc with
  | locked =>
    cases hopen : s.isOpen with
    | true => exact h.takeOver hpc hopen
    | false =>
      simp only [Socket.closeStep, hpc, hopen, Bool.false_eq_true, if_false] at hstays ⊢
      exact h.mono hstays rfl (fun _ _ => rfl)
        (carries_setClosing rfl fun hc => by rw [hpc] at hc; cases hc)
  | closed => exact h.tell hp hpc hstays
  | unlocked =>
    simp only [Socket.closeStep, hpc] at hstays ⊢
    refine h.mono hstays rfl (fun _ _ => rfl) (carries_setClosing rfl fun _ => ⟨?_, rfl⟩)
    simp only
    split <;> rfl
  | done => simpa only [Socket.closeStep, hpc] using h
  | _ =>
    simp only [Socket.closeStep, hpc] at hstays ⊢
    first
      | exact h.mono hstays rfl (fun _ _ => rfl) (carries_setClosing rfl fun _ => ⟨rfl, rfl⟩)
      | exact h.mono hstays rfl (fun _ _ => rfl)
          (carries_setClosing rfl fun hc => by rw [hpc] at hc; cases hc)

/-- **Each step keeps the pipe carried.** -/
theorem next (h : Carried s x) (hx : x ∈ s.made) (hk : Known s) (hp : Paced s)
    (hsh : Shadowed s) (hh : HooksIdle s) {a : Act} (hen : Enabled s a) :
    Carried (Socket.next cfg s a) x := by
  have hstays : StaysRemoved s (Socket.next cfg s a) x := (Advances.next hk hp hen).staysRemoved hx
  have hsame : ∀ c, (s.closing c).pc.carries = true →
      (s.closing c).pc.carries = true ∧ (s.closing c).pipes = (s.closing c).pipes :=
    fun _ hc => ⟨hc, rfl⟩
  cases a with
  | event p ev =>
    refine h.mono hstays ?_ (fun _ _ => ?_) ?_ <;> simp only [Socket.next] <;> split
    all_goals first | rfl | exact hsame
  | enter t =>
    refine h.mono hstays rfl (reading_setCall rfl ?_) hsame
    rcases CanEnter.resting hen with hpc | hpc | hpc <;> simp [hpc]
  | acquire t => exact h.mono hstays rfl (reading_setCall rfl (by simp [hen.1])) hsame
  | check t =>
    have hpc : (s.calls t).pc ≠ .reading := by
      rw [show (s.calls t).pc = .checking from hen]
      simp
    cases hflag : s.coll.hadEvents.1 <;>
      simp only [Socket.next, hflag, Bool.false_eq_true, if_true, if_false] at hstays ⊢
    · exact h.mono hstays rfl (reading_setCall rfl hpc) hsame
    · exact h.mono hstays rfl (reading_setCall rfl hpc) hsame
  | snapshot t =>
    have hpc : (s.calls t).pc = .snapshotting := hen
    exact h.mono hstays rfl (reading_setCall rfl (by simp [hpc])) hsame
  | create t =>
    cases hh : (s.calls t).handles with
    | nil => simpa only [Socket.next, hh] using h
    | cons y ys =>
      simp only [Socket.next, hh] at hstays ⊢
      exact h.mono hstays rfl (reading_setCall rfl (by simp [hen.1])) hsame
  | assign t => exact h.assign hsh hen.1
  | sample t => exact h.sample t
  | read t => exact h.read hstays
  | unlock t =>
    refine h.setCall hstays rfl rfl rfl fun hw => ?_
    have htodo := hw.todo
    rw [hen.2] at htodo
    cases htodo
  | status t o => exact h.mono hstays rfl (reading_setCall rfl (by simp [hen.1])) hsame
  | hook t =>
    cases hcfg : cfg.closeOnDisconnect <;>
      simp only [Socket.next, hcfg, Bool.false_eq_true, if_true, if_false] at hstays ⊢
    · exact h.mono hstays rfl (reading_setCall rfl (by simp [hen.1])) hsame
    · -- a hook that begins had no run of `close` before it
      have hidle := hh t (by simp [hen.1])
      refine h.mono hstays rfl (reading_setCall rfl (by simp [hen.1])) ?_
      exact @carries_setClosing _ s s _ _ rfl fun hc => by rw [hidle] at hc; cases hc
  | hookDone t =>
    refine h.mono hstays rfl (reading_setCall rfl (by simp [hen.1])) ?_
    exact @carries_setClosing _ s s _ _ rfl fun hc => by rw [hen.2] at hc; cases hc
  | announce t o => exact h.mono hstays rfl (reading_setCall rfl (by simp [hen.1])) hsame
  | ret t => exact h.mono hstays rfl (reading_setCall rfl (by simp [hen.1])) hsame
  | close c => exact h.closeStep hp hstays
  | _ => exact h.mono hstays rfl (fun _ _ => rfl) hsame

end Carried

/-! ## The removal of one pipe -/

/-- The thread a step lets call a status callback. -/
def Act.caller : Act → Option Hand
  | .status t _ => some (.call t)
  | .pipeCallback n => some (.user n)
  | _ => none

/-- **The removal of the pipe is left to those who announce it.** -/
structure LeavesRemoval (x : Pipe) (s : State σ) (a : Act) : Prop where
  /-- The callback stays set. -/
  keeps : a ≠ .setCallback x.obj false
  /-- The pipe is removed when the socket is closed. -/
  gone : ∀ c, a = .close c → (s.closing c).pc = .noRemPost →
    s.coll.status x.handle.ref = .remPost
  /-- `Socket.close` finds the removal committed. -/
  untold : ∀ c xs, a = .close c → (s.closing c).pc = .closed → (s.closing c).pipes = x :: xs →
    (s.closing c).sampled ≠ none → (s.objs x.obj).lastKnown = .remPost
  /-- No callback ends a call that has the removal to announce. -/
  spares : ∀ t, a = .status t .raisesBase → (⟨x, .remPost⟩ : Due) ∉ (s.calls t).due.tail
  /-- The callback of the removal is the last of the pipe to be called. -/
  last : ∀ h rest, a.caller = some h → s.pending h = ⟨x, .remPost⟩ :: rest →
    ∀ h', ∀ d ∈ s.pending h', d.pipe = x → d.announced = .remPost

/-- **The removal is announced**, or is going to be. -/
structure Announces (x : Pipe) (s : State σ) : Prop where
  callback : (s.objs x.obj).callback = true
  committed : (s.objs x.obj).lastKnown = .remPost → (⟨x, .remPost, true⟩ : Commit) ∈ s.commits
  announced : (⟨x, .remPost, true⟩ : Commit) ∈ s.commits →
    ⟨x, .remPost⟩ ∈ s.invoked.map Invocation.due ∨ ∃ h, ⟨x, .remPost⟩ ∈ s.pending h
  after : ⟨x, .remPost⟩ ∈ s.invoked.map Invocation.due → ∀ h, ∀ d ∈ s.pending h, d.pipe ≠ x
  last : s.invoked.Pairwise fun i j => i.pipe = x → j.pipe = x → i.announced ≠ .remPost

/-- Only a commit moves what is known of a pipe. -/
theorem objs_next_of_not_tells (cfg : Config σ) (hk : Known s) {x : Pipe} (hx : x ∈ s.made)
    {a : Act} (ha : a.tells = false) :
    ((next cfg s a).objs x.obj).lastKnown = (s.objs x.obj).lastKnown ∧
      (a ≠ .setCallback x.obj false → (s.objs x.obj).callback = true →
        ((next cfg s a).objs x.obj).callback = true) := by
  have hsame : ∀ {objs : ℕ → PipeFields}, objs x.obj = s.objs x.obj →
      (objs x.obj).lastKnown = (s.objs x.obj).lastKnown ∧
        (a ≠ .setCallback x.obj false → (s.objs x.obj).callback = true →
          (objs x.obj).callback = true) := fun h => by rw [h]; exact ⟨rfl, fun _ hcb => hcb⟩
  cases a with
  | event p ev => simp only [next]; split <;> exact hsame rfl
  | check t => simp only [next]; split <;> exact hsame rfl
  | hook t => simp only [next]; split <;> exact hsame rfl
  | create t =>
    simp only [next]
    split
    · exact hsame rfl
    · exact hsame (Function.update_of_ne (Nat.ne_of_lt (hk.below x hx)) ..)
  | setCallback obj set =>
    by_cases hobj : x.obj = obj
    · subst hobj
      simp only [next, Function.update_self]
      refine ⟨trivial, fun hne _ => ?_⟩
      cases set
      · exact absurd rfl hne
      · rfl
    · exact hsame (Function.update_of_ne hobj ..)
  | closePipe | pipeCallback | read | status | close => cases ha
  | _ => exact hsame rfl

namespace Announces

variable {x : Pipe}

theorem of_silent (h : Announces x s) (hs : Silent s s')
    (hknown : (s'.objs x.obj).lastKnown = (s.objs x.obj).lastKnown)
    (hcb : (s'.objs x.obj).callback = true) : Announces x s' where
  callback := hcb
  committed := by rw [hknown, hs.commits]; exact h.committed
  announced := by
    rw [hs.commits, hs.invoked]
    exact fun hc => (h.announced hc).imp_right fun ⟨hd, hin⟩ => ⟨hd, by rw [hs.pending]; exact hin⟩
  after := by
    rw [hs.invoked]
    exact fun hi hd => by rw [hs.pending]; exact h.after hi hd
  last := by rw [hs.invoked]; exact h.last

/-- What a commit makes of the pipe. -/
theorem commit (h : Announces x s) (hk : Known s) (hx : x ∈ s.made) {y : Pipe} {new : PipeEv}
    (hy : y ∈ s.made) :
    ((s.commit y new).objs x.obj).callback = true ∧
      (((s.commit y new).objs x.obj).lastKnown = .remPost →
        (⟨x, .remPost, true⟩ : Commit) ∈ (s.commit y new).commits) := by
  rw [mem_commits_commit]
  by_cases hyx : y = x
  · subst hyx
    rw [objs_commit_self, PipeFields.callback_handleStatusChange,
      PipeFields.lastKnown_handleStatusChange]
    refine ⟨h.callback, fun hrem => ?_⟩
    split at hrem
    · rename_i hmoves
      have hdue := PipeFields.due_handleStatusChange.mpr ⟨hmoves, h.callback⟩
      exact Or.inr ⟨hmoves, by rw [hdue, hrem]⟩
    · exact Or.inl (h.committed hrem)
  · rw [objs_commit_of_ne fun hobj => hyx (hk.distinct y hy x hx hobj.symm)]
    exact ⟨h.callback, fun hrem => Or.inl (h.committed hrem)⟩

/-- **A commit leaves its callback with a thread.** -/
theorem commits (h : Announces x s) (hk : Known s) (hp : Paced s) (ht : Tallied s)
    (hx : x ∈ s.made) {hd : Hand} {y : Pipe} {new : PipeEv} (hy : y ∈ s.made)
    (hc : Commits s s' hd y new) : Announces x s' := by
  obtain ⟨hcb, hcommitted⟩ := @commit _ _ _ h hk hx y new hy
  have hkeeps : ∀ h', ∀ d ∈ s.pending h', d ∈ s'.pending h' := by
    intro h' d hin
    by_cases hh : h' = hd
    · rw [hh, hc.mine]
      exact List.mem_append_left _ (hh ▸ hin)
    · rw [hc.others h' hh]; exact hin
  refine ⟨by rw [hc.objs]; exact hcb, by rw [hc.objs, hc.commits]; exact hcommitted,
    fun hin => ?_, fun hi h' d hin => ?_, by rw [hc.invoked]; exact h.last⟩
  · rw [hc.invoked]
    rw [hc.commits, mem_commits_commit] at hin
    rcases hin with hin | ⟨hmoves, heq⟩
    · exact (h.announced hin).imp_right fun ⟨h', hin⟩ => ⟨h', hkeeps h' _ hin⟩
    · obtain ⟨rfl, rfl, -⟩ := Commit.mk.inj heq
      refine Or.inr ⟨hd, ?_⟩
      rw [hc.mine]
      exact List.mem_append_right _ (mem_dueOf_iff.mpr ⟨rfl, hmoves, h.callback⟩)
  · rw [hc.invoked] at hi
    rcases hc.mem_pending hin with hin | ⟨-, rfl, hmoves, -⟩
    · exact h.after hi h' d hin
    · -- after its removal the pipe does not move
      rintro rfl
      have hle := (hp.commits _ (ht.mem_commits_of_called hi)).2
      exact hmoves.2 (PipeEv.eq_remPost hle)

/-- **A callback is called**: the removal's, when no other of the pipe is left. -/
theorem invokes (h : Announces x s) (ht : Tallied s) {hd : Hand} {d : Due} {rest : List Due}
    (hi : Invokes s s' hd d rest) (hspares : s'.pending hd = rest ∨ ⟨x, .remPost⟩ ∉ rest)
    (hlast : d = ⟨x, .remPost⟩ → ∀ h', ∀ e ∈ s.pending h', e.pipe = x → e.announced = .remPost) :
    Announces x s' := by
  have hinv : s'.invoked.map Invocation.due = s.invoked.map Invocation.due ++ [d] := by
    rw [hi.invoked, List.map_append]
    rfl
  refine ⟨by rw [hi.objs]; exact h.callback, by rw [hi.objs, hi.commits]; exact h.committed,
    fun hin => ?_, fun hin h' e he hex => ?_, ?_⟩
  · rw [hinv, List.mem_append, List.mem_singleton]
    rw [hi.commits] at hin
    rcases h.announced hin with hin | ⟨h', hin⟩
    · exact Or.inl (Or.inl hin)
    · by_cases hh : h' = hd
      · rw [hh, hi.mine] at hin
        rcases List.mem_cons.mp hin with hin | hin
        · exact Or.inl (Or.inr hin)
        · rcases hspares with hl | hout
          · exact Or.inr ⟨hd, by rw [hl]; exact hin⟩
          · exact absurd hin hout
      · exact Or.inr ⟨h', by rw [hi.others h' hh]; exact hin⟩
  · have he' := (hi.sublist h').subset he
    rw [hinv, List.mem_append, List.mem_singleton] at hin
    rcases hin with hin | hin
    · exact h.after hin h' e he' hex
    · -- what is left of the pipe would be the callback just called
      have hed : e = d := by
        rw [← hin]
        exact congrArg₂ Due.mk hex (hlast hin.symm h' e he' hex)
      exact hi.gone ht h' (hed ▸ he)
  · rw [hi.invoked]
    refine List.pairwise_append.mpr ⟨h.last, List.pairwise_singleton _ _,
      fun i hm j hj hix hjx hrem => ?_⟩
    rw [List.mem_singleton.mp hj] at hjx
    have hmine : d ∈ s.pending hd := by rw [hi.mine]; exact List.mem_cons_self
    refine h.after (List.mem_map.mpr ⟨i, hm, ?_⟩) hd d hmine hjx
    rw [← hix, ← hrem]
    rfl

/-- **A callback thrown away** is another pipe's. -/
theorem discards (h : Announces x s) (hk : Known s) (hx : x ∈ s.made) {y : Pipe} {new : PipeEv}
    (hy : y ∈ s.made) (hd : Discards s s' y new)
    (huntold : y = x → (s.objs x.obj).lastKnown = .remPost) : Announces x s' := by
  obtain ⟨hcb, hcommitted⟩ := @commit _ _ _ h hk hx y new hy
  refine ⟨by rw [hd.objs]; exact hcb, by rw [hd.objs, hd.commits]; exact hcommitted,
    fun hin => ?_, ?_, by rw [hd.invoked]; exact h.last⟩
  · rw [hd.invoked]
    rw [hd.commits, mem_commits_commit] at hin
    rcases hin with hin | ⟨hmoves, heq⟩
    · exact (h.announced hin).imp_right fun ⟨h', hin⟩ => ⟨h', by rw [hd.pending]; exact hin⟩
    · obtain ⟨rfl, -, -⟩ := Commit.mk.inj heq
      exact absurd (huntold rfl) hmoves.2
  · rw [hd.invoked]
    exact fun hi h' => by rw [hd.pending]; exact h.after hi h'

/-- **Each step goes on announcing the removal**, or leaves it to do. -/
theorem next (h : Announces x s) (hk : Known s) (hp : Paced s) (ht : Tallied s) (hx : x ∈ s.made)
    {a : Act} (hok : LeavesRemoval x s a) (hen : Enabled s a) :
    Announces x (Socket.next cfg s a) := by
  by_cases ha : a.tells = false
  · obtain ⟨hknown, hcb⟩ := objs_next_of_not_tells cfg hk hx ha
    exact h.of_silent (silent_next cfg hen ha) hknown (hcb hok.keeps h.callback)
  · cases a with
    | closePipe n y => exact h.commits hk hp ht hx hen.1 (commits_closePipe hen.2)
    | pipeCallback n =>
      obtain ⟨d, rest, hdue⟩ := List.exists_cons_of_ne_nil hen
      have hi : Invokes s (Socket.next cfg s (.pipeCallback n)) (.user n) d rest :=
        invokes_pipeCallback hdue
      refine h.invokes ht hi (Or.inl ?_) fun hdx => hok.last (.user n) rest rfl (hdx ▸ hi.mine)
      simp [Socket.next, State.pending, State.setUserDue, hdue]
    | status t o =>
      obtain ⟨d, rest, hdue⟩ := List.exists_cons_of_ne_nil hen.2
      obtain ⟨hi, hrest⟩ := @invokes_status _ cfg _ t o d rest hen.1 hdue
      refine h.invokes ht hi ?_ fun hdx => hok.last (.call t) rest rfl (hdx ▸ hi.mine)
      by_cases ho : o = .raisesBase
      · have hout := hok.spares t (by rw [ho])
        rw [hdue] at hout
        exact Or.inr hout
      · exact Or.inl (hrest ho)
    | read t =>
      obtain ⟨ev, hev⟩ := Option.ne_none_iff_exists'.mp hen.2
      obtain ⟨-, y, ys, htodo, -⟩ := hp.sampled t ev hev
      have hy : y ∈ s.made := hk.mem_todo (by rw [htodo]; exact List.mem_cons_self)
      exact h.commits hk hp ht hx hy (commits_read hen.1 htodo hev)
    | close c =>
      rcases @told_closeStep _ s c with ⟨hs, hobjs⟩ | ⟨y, ys, ev, hpc, hys, hev, hd⟩
      · have hsame : (Socket.next cfg s (.close c)).objs = s.objs := hobjs
        exact h.of_silent hs (by rw [hsame]) (by rw [hsame]; exact h.callback)
      · refine h.discards hk hx (hk.closing c y (by rw [hys]; exact List.mem_cons_self)) hd ?_
        rintro rfl
        exact hok.untold c ys rfl hpc hys (by rw [hev]; simp)
    | _ => exact absurd rfl ha

end Announces

/-! ## Every removal is announced -/

/-- Nobody is in `update_pipes`, `close` or `Pipe.close`. -/
structure AtRest (s : State σ) : Prop where
  calls : ∀ t, (s.calls t).pc.resting = true
  closing : ∀ c, (s.closing c).pc = .idle ∨ (s.closing c).pc = .done
  due : ∀ n, s.userDue n = []

/-- **The pipe has ended**: its removal is committed, as by `Pipe.close`; or
nng removed it or the socket is closed, and `update_pipes` has run since. -/
def Ended (s : State σ) (x : Pipe) : Prop :=
  (s.objs x.obj).lastKnown = .remPost ∨
    (s.coll.flag = false ∨ Processed s) ∧
      (s.coll.status x.handle.ref = .remPost ∨ s.isOpen = false)

/-- **The removal of the pipe was announced**, once, and nothing after it. -/
structure RemovalAnnounced (s : State σ) (x : Pipe) : Prop where
  once : ((s.callsOf x).filter (·.announced = .remPost)).length = 1
  last : ∀ before i after, s.callsOf x = before ++ i :: after → i.announced = .remPost → after = []

theorem AtRest.pending (h : AtRest s) (hd : Hand) : s.pending hd = [] := by
  cases hd with
  | user n => exact h.due n
  | call t =>
    refine Call.pending_of_not_running ?_
    have hrest := h.calls t
    revert hrest
    cases (s.calls t).pc <;> simp [CallPc.resting, CallPc.running]

/-- **At rest the list is the collection**, once `update_pipes` has run. -/
theorem AtRest.ids (h : AtRest s) (hr : (socket cfg).Reach s)
    (hrun : s.coll.flag = false ∨ Processed s) (hlist : s.pipes ≠ []) : s.ids = s.coll.ids := by
  have hpc : ∀ t, (s.calls t).pc.dirty = false ∧ (s.calls t).pc ≠ .entering ∧
      (s.calls t).pc ≠ .checking := by
    intro t
    have hrest := h.calls t
    revert hrest
    cases (s.calls t).pc <;> simp [CallPc.resting, CallPc.dirty]
  have hflag : s.coll.flag = false := by
    rcases hrun with hflag | ⟨h0, hs0, -⟩
    · exact hflag
    · rcases woken_or_blank hr with hw | hb
      · exact (hw.settled h0 hs0 (hpc 0).2.1 (hpc 0).2.2 (hpc 0).1).1
      · exact absurd hb.pipes hlist
  refine (shadowed_of_reach hr).clean hflag (fun t => (hpc t).1) fun c hc => ?_
  rcases h.closing c with hidle | hdone
  · rw [hidle] at hc; cases hc
  · rw [hdone] at hc; cases hc

/-- **At rest the removal of a pipe that ended is committed.** -/
theorem Carried.committed {x : Pipe} (h : Carried s x) (hr : (socket cfg).Reach s)
    (hclosed : s.isOpen = false → s.coll.status x.handle.ref = .remPost) (hrest : AtRest s)
    (hend : Ended s x) : (s.objs x.obj).lastKnown = .remPost := by
  cases h with
  | told h => exact h
  | listed h =>
    rcases hend with hrem | ⟨hrun, hgone⟩
    · exact hrem
    · -- its handle would be in the collection, and removed
      exfalso
      have hstatus : s.coll.status x.handle.ref = .remPost := hgone.elim id hclosed
      have hid : x.id ∈ s.coll.ids := by
        rw [← hrest.ids hr hrun (List.ne_nil_of_mem h)]
        exact List.mem_map_of_mem h
      rcases (shadowed_of_reach hr).list.inside x.handle (List.mem_map_of_mem h) with hin | hg
      · rcases (known_of_reach hr).tracks.live _ (List.mem_map_of_mem hin) with hl | hl <;>
        · rw [hstatus] at hl
          cases hl
      · exact hg.out hid
  | awaited t h =>
    have hpc := hrest.calls t
    rw [h.reading] at hpc
    cases hpc
  | copied c hc h =>
    rcases hrest.closing c with hidle | hdone
    · rw [hidle] at hc; cases hc
    · rw [hdone] at hc; cases hc

/-- A removal announced, with nothing left to call, was announced once. -/
theorem removalAnnounced {x : Pipe} (h : Announces x s) (ht : Tallied s)
    (hin : ⟨x, .remPost⟩ ∈ s.invoked.map Invocation.due) : RemovalAnnounced s x := by
  refine ⟨?_, fun before i after hsplit hrem => ?_⟩
  · have hcount := List.count_eq_one_of_mem ht.once hin
    rw [List.count, List.countP_map, List.countP_eq_length_filter] at hcount
    rw [← hcount, State.callsOf, List.filter_filter]
    congr 2
    funext i
    rw [Bool.eq_iff_iff]
    simp [Invocation.due, and_comm]
  · have hpair : (s.callsOf x).Pairwise _ := h.last.filter _
    have hmine : ∀ j ∈ s.callsOf x, j.pipe = x := fun j hj =>
      of_decide_eq_true (List.mem_filter.mp hj).2
    rw [hsplit] at hpair hmine
    cases after with
    | nil => rfl
    | cons j after =>
      have hij := (List.pairwise_cons.mp (List.pairwise_append.mp hpair).2.1).1 j List.mem_cons_self
      exact absurd hrem (hij (hmine i (by simp)) (hmine j (by simp)))

/-- **A pipe of the list is watched** until its removal has been announced. -/
structure Watched (x : Pipe) (s : State σ) : Prop where
  made : x ∈ s.made
  carried : Carried s x
  closed : s.isOpen = false → s.coll.status x.handle.ref = .remPost
  announces : Announces x s

/-- A pipe whose removal is not committed has none called or to be called. -/
theorem watched_of_listed (hr : (socket cfg).Reach s) (hopen : s.isOpen = true) {x : Pipe}
    (hx : x ∈ s.pipes) (hcb : (s.objs x.obj).callback = true)
    (hlive : (s.objs x.obj).lastKnown ≠ .remPost) : Watched x s := by
  have hnone : (⟨x, .remPost, true⟩ : Commit) ∉ s.commits := fun hin =>
    hlive (PipeEv.eq_remPost ((paced_of_reach hr).commits _ hin).2)
  have huncalled : (⟨x, .remPost⟩ : Due) ∉ s.invoked.map Invocation.due := fun hin =>
    hnone ((tallied_of_reach hr).mem_commits_of_called hin)
  refine ⟨(known_of_reach hr).pipes x hx, .listed hx, fun hclosed => ?_, hcb,
    fun hrem => absurd hrem hlive, fun hin => absurd hin hnone, fun hin => absurd hin huncalled, ?_⟩
  · rw [hopen] at hclosed
    cases hclosed
  refine List.pairwise_of_forall_mem_list fun i hi j _ hix _ hrem => ?_
  refine huncalled (List.mem_map.mpr ⟨i, hi, ?_⟩)
  rw [← hix, ← hrem]
  rfl

theorem watched_of_run (hr : (socket cfg).Reach s) {x : Pipe} (h : Watched x s) {as : List Act}
    (hv : (socket cfg).Valid s as) (hm : (socket cfg).Meets (LeavesRemoval x) s as) :
    Watched x ((socket cfg).final s as) := by
  refine Machine.Meets.invariant (fun s a hr h hok hen => ?_) hr h hv hm
  have hk := known_of_reach hr
  have hp := paced_of_reach hr
  have hadv : Advances s (next cfg s a) := .next hk hp hen
  refine ⟨hadv.made x h.made,
    h.carried.next h.made hk hp (shadowed_of_reach hr) (hooksIdle_of_reach hr) hen,
    fun hclosed => (hadv.staysRemoved h.made).status ?_,
    h.announces.next hk hp (tallied_of_reach hr) h.made hok hen⟩
  rcases isOpen_next cfg s a with hsame | ⟨⟨c, ha, hpc⟩, -⟩
  · exact h.closed (hsame.symm.trans hclosed)
  · exact hok.gone c ha hpc

/-- **Every removal is announced.** Take any `Pipe` in the list of an open
socket with a callback set and its removal not committed, and any run from
there that leaves its removal to those who announce it. When the run is at
rest and the pipe has ended, the callback was called once for the removal,
and not again afterwards. -/
theorem removal_announced (cfg : Config σ) (hr : (socket cfg).Reach s) (hopen : s.isOpen = true)
    {x : Pipe} (hx : x ∈ s.pipes) (hcb : (s.objs x.obj).callback = true)
    (hlive : (s.objs x.obj).lastKnown ≠ .remPost) {as : List Act} (hv : (socket cfg).Valid s as)
    (hm : (socket cfg).Meets (LeavesRemoval x) s as) (hrest : AtRest ((socket cfg).final s as))
    (hend : Ended ((socket cfg).final s as) x) :
    RemovalAnnounced ((socket cfg).final s as) x := by
  have hr' : (socket cfg).Reach ((socket cfg).final s as) :=
    hr.final hv (Machine.meets_true s as)
  have hw := watched_of_run hr (watched_of_listed hr hopen hx hcb hlive) hv hm
  have hrem := hw.carried.committed hr' hw.closed hrest hend
  refine removalAnnounced hw.announces (tallied_of_reach hr') ?_
  rcases hw.announces.announced (hw.announces.committed hrem) with hin | ⟨h, hin⟩
  · exact hin
  · -- at rest nothing is left to be called
    rw [hrest.pending h] at hin
    cases hin

/-! ## A removal announced, and one thrown away -/

/-- Steps that leave the removal at a glance: no other callback was ever
returned. -/
def LeavesAtSight (x : Pipe) (s : State σ) (a : Act) : Bool :=
  decide (a ≠ .setCallback x.obj false) &&
    (s.commits.all fun c => !c.callback || decide (c.status = .remPost)) &&
      match a with
      | .close c =>
        decide ((s.closing c).pc = .closed → (s.objs x.obj).lastKnown = .remPost) &&
          decide ((s.closing c).pc = .noRemPost → s.coll.status x.handle.ref = .remPost)
      | .status _ .raisesBase => false
      | _ => true

theorem leaves_at_sight (hr : (socket cfg).Reach s) {x : Pipe} {a : Act}
    (h : LeavesAtSight x s a = true) : LeavesRemoval x s a := by
  unfold LeavesAtSight at h
  simp only [Bool.and_eq_true, decide_eq_true_eq] at h
  obtain ⟨⟨hkeeps, hall⟩, hact⟩ := h
  refine ⟨hkeeps, fun c ha hpc => ?_, fun c xs ha hpc _ _ => ?_, fun t ha => ?_,
    fun _ _ _ _ h' d hd _ => ?_⟩
  · subst ha
    exact of_decide_eq_true (Bool.and_eq_true_iff.mp hact).2 hpc
  · subst ha
    exact of_decide_eq_true (Bool.and_eq_true_iff.mp hact).1 hpc
  · subst ha
    cases hact
  · simpa using List.all_eq_true.mp hall _ (committed_of_pending hr h' d hd)

/-- A user thread closes the pipe, and then the socket. -/
def pipeThenSocket : List Act :=
  [.closePipe 0 firstMade, .pipeCallback 0] ++ closeBegins ++ closeEnds

/-- One `close` has run to its end, and nobody else is about. -/
theorem atRest_of_closed {s : State Unit} (h0 : (s.calls 0).pc.resting = true)
    (hcalls : ∀ t, (s.calls (t + 1)).pc = .idle) (hc0 : (s.closing (.user 0)).pc = .done)
    (hclosing : ∀ n, (s.closing (.user (n + 1))).pc = .idle)
    (hhook : ∀ t, (s.closing (.hook t)).pc = .idle) (hdue0 : s.userDue 0 = [])
    (hdue : ∀ n, s.userDue (n + 1) = []) : AtRest s where
  calls
    | 0 => h0
    | t + 1 => by rw [hcalls]; rfl
  closing
    | .user 0 => Or.inr hc0
    | .user (n + 1) => Or.inl (hclosing n)
    | .hook t => Or.inl (hhook t)
  due
    | 0 => hdue0
    | n + 1 => hdue n

/-- `Pipe.close` announces the removal, and `Socket.close` finds it committed. -/
theorem removal_announced_closed :
    RemovalAnnounced ((socket plainListener).final
      ((socket plainListener).final (socket plainListener).init seenAdding) pipeThenSocket)
      firstMade := by
  have hr : (socket plainListener).Reach
      ((socket plainListener).final (socket plainListener).init seenAdding) :=
    Machine.reach_final (by decide)
  have hv : (socket plainListener).Valid
      ((socket plainListener).final (socket plainListener).init seenAdding) pipeThenSocket := by
    decide
  have hsight : (socket plainListener).Meets (fun s a => LeavesAtSight firstMade s a = true)
      ((socket plainListener).final (socket plainListener).init seenAdding) pipeThenSocket := by
    decide
  exact removal_announced plainListener hr (by decide) (by decide) (by decide) (by decide) hv
    (hsight.of_reach (fun _ _ hr h => leaves_at_sight hr h) hr hv)
    (atRest_of_closed (by decide) (fun _ => rfl) (by decide) (fun _ => rfl) (fun _ => rfl)
      (by decide) fun _ => rfl)
    (Or.inl (by decide))

/-- **A removal is not announced.** `Socket.close` commits the removal of
the one pipe there is, and throws its callback away. -/
theorem removal_thrown_away :
    ¬ (∀ s, (socket plainListener).Reach s → s.isOpen = true → ∀ x ∈ s.pipes,
      (s.objs x.obj).callback = true → (s.objs x.obj).lastKnown ≠ .remPost →
      ∀ as, (socket plainListener).Valid s as → (∀ a ∈ as, a ≠ .setCallback x.obj false) →
        AtRest ((socket plainListener).final s as) →
        Ended ((socket plainListener).final s as) x →
        RemovalAnnounced ((socket plainListener).final s as) x) := by
  intro hclaim
  have hann := hclaim ((socket plainListener).final (socket plainListener).init seenAdding)
    (Machine.reach_final (by decide)) (by decide) firstMade (by decide) (by decide) (by decide)
    (closeBegins ++ closeEnds) (by decide) (by decide)
    (atRest_of_closed (by decide) (fun _ => rfl) (by decide) (fun _ => rfl) (fun _ => rfl)
      (by decide) fun _ => rfl)
    (Or.inl (by decide))
  have honce := hann.once
  revert honce
  decide

end Socket

end PyNng
