import PyNng.Socket.Listing
import PyNng.Socket.Removal
/-!
# Socket — why a pipe is `REMOVED`, and what a finished update lists

`_last_known_status` is `REMOVED` by the pipe's `close()`, or since the
handle was found removed. And a call of `update_pipes` that has returned
lists every pipe that was in the collection since the call began: the list
was the collection's at some moment after that.
-/

namespace PyNng

namespace Socket

variable {σ : Type} {cfg : Config σ} {s s' : State σ}

/-! ## Why a pipe is `REMOVED` -/

/-- Pipes are made by `create` only. -/
theorem made_next (cfg : Config σ) {a : Act} (ha : ∀ t, a ≠ .create t) :
    (next cfg s a).made = s.made := by
  cases a with
  | create t => exact absurd rfl (ha t)
  | event p ev => simp only [next]; split <;> rfl
  | check t => simp only [next]; split <;> rfl
  | read t => simp only [next]; split <;> rfl
  | hook t => simp only [next]; split <;> rfl
  | close c => exact (sparesCalls_closeStep s c).made
  | _ => rfl

/-- A pipe that nng was told to close has been told so for good. -/
theorem kicked_next (cfg : Config σ) {a : Act} {p : ℕ} (hp : s.kicked p = true) :
    (next cfg s a).kicked p = true := by
  by_cases ha : ∃ q ev, a = .event q ev
  · obtain ⟨q, ev, rfl⟩ := ha
    simp only [next]
    split
    · by_cases hpq : p = q
      · subst hpq; simp [handle, hp]
      · simpa [handle, hpq] using hp
    · exact hp
  · exact (nothingIn_next fun q ev hev => ha ⟨q, ev, hev⟩).kicked p hp

/-- A commit of `REMOVED` is what makes the pipe known to be removed. -/
theorem removed_of_commit (hk : Known s) {x y : Pipe} {new : PipeEv} (hx : x ∈ s.made)
    (hy : y ∈ s.made) (h : ((s.commit y new).objs x.obj).lastKnown = .remPost) :
    (s.objs x.obj).lastKnown = .remPost ∨ x = y ∧ new = .remPost := by
  by_cases hxy : x = y
  · subst hxy
    rw [objs_commit_self, PipeFields.lastKnown_handleStatusChange] at h
    split at h
    · exact Or.inr ⟨rfl, h⟩
    · exact Or.inl h
  · rw [objs_commit_of_ne fun hobj => hxy (hk.distinct x hx y hy hobj)] at h
    exact Or.inl h

/-- **A pipe is known to be removed** by its `close()`, or for its handle. -/
def Explained (s : State σ) : Prop :=
  ∀ x ∈ s.made, (s.objs x.obj).lastKnown = .remPost →
    s.kicked x.id = true ∨ s.coll.status x.handle.ref = .remPost

theorem Explained.next (h : Explained s) (hk : Known s) (hp : Paced s) {a : Act}
    (hen : Enabled s a) : Explained (next cfg s a) := by
  have hstays : ∀ x ∈ s.made, s.coll.status x.handle.ref = .remPost →
      (Socket.next cfg s a).coll.status x.handle.ref = .remPost := fun x hx =>
    (Advances.next hk hp hen).coll.remPost (hk.refs x hx)
  have hold : ∀ x ∈ s.made, (s.objs x.obj).lastKnown = .remPost →
      (Socket.next cfg s a).kicked x.id = true ∨
        (Socket.next cfg s a).coll.status x.handle.ref = .remPost := fun x hx hrem =>
    (h x hx hrem).imp (kicked_next cfg) (hstays x hx)
  have hquiet : a.tells = false → ∀ x ∈ s.made,
      ((Socket.next cfg s a).objs x.obj).lastKnown = (s.objs x.obj).lastKnown := fun ha x hx =>
    (objs_next_of_not_tells cfg hk hx ha).1
  have hmade : (∀ t, a ≠ .create t) → (Socket.next cfg s a).made = s.made := made_next cfg
  intro x hx hrem
  cases a with
  | create t =>
    cases hh : (s.calls t).handles with
    | nil =>
      simp only [Socket.next, hh] at hx hrem ⊢
      exact h x hx hrem
    | cons y ys =>
      simp only [Socket.next, hh] at hx hrem ⊢
      rcases List.mem_append.mp hx with hx | hx
      · refine h x hx ?_
        simpa [State.setCall, Nat.ne_of_lt (hk.below x hx)] using hrem
      · obtain rfl := List.mem_singleton.mp hx
        exact Or.inr (by simpa [State.setCall] using hrem)
  | closePipe n y =>
    rcases removed_of_commit hk hx hen.1 hrem with hrem | ⟨rfl, -⟩
    · exact hold x hx hrem
    · exact Or.inl (Function.update_self ..)
  | read t =>
    rw [hmade (by simp)] at hx
    obtain ⟨ev, hev⟩ := Option.ne_none_iff_exists'.mp hen.2
    obtain ⟨-, y, ys, htodo, hle, -⟩ := hp.sampled t ev hev
    have hy : y ∈ s.made := hk.mem_todo (by rw [htodo]; exact List.mem_cons_self)
    have hobjs : (Socket.next cfg s (.read t)).objs = (s.commit y ev).objs := by
      simp only [Socket.next, htodo, hev]
      rfl
    rw [hobjs] at hrem
    rcases removed_of_commit hk hx hy hrem with hrem | ⟨rfl, rfl⟩
    · exact hold x hx hrem
    · -- what was read of the handle holds of it still
      exact Or.inr (hstays x hx (PipeEv.eq_remPost hle))
  | close c =>
    rw [hmade (by simp)] at hx
    rcases @told_closeStep _ s c with ⟨-, hobjs⟩ | ⟨y, ys, ev, hpc, hys, hev, hd⟩
    · exact hold x hx (by rw [← hobjs]; exact hrem)
    · have hy : y ∈ (s.closing c).pipes := by rw [hys]; exact List.mem_cons_self
      have hgone := hp.cleared c (by rw [hpc]; rfl) y hy
      rw [show (Socket.next cfg s (.close c)).objs = _ from hd.objs] at hrem
      rcases removed_of_commit hk hx (hk.closing c y hy) hrem with hrem | ⟨rfl, -⟩
      · exact hold x hx hrem
      · exact Or.inr (hstays x hx hgone)
  | pipeCallback n => exact hold x hx hrem
  | status t o => exact hold x hx hrem
  | _ =>
    rw [hmade (by simp)] at hx
    exact hold x hx (by rw [← hquiet rfl x hx]; exact hrem)

theorem explained_of_reach (h : (socket cfg).Reach s) : Explained s :=
  h.invariant (fun _ hx => absurd hx List.not_mem_nil) fun _ _ hr hs _ hen =>
    hs.next (known_of_reach hr) (paced_of_reach hr) hen

/-! ## What a finished update has seen -/

theorem Arrived.next {p : ℕ} (h : Arrived s p) {a : Act} (hen : Enabled s a) :
    Arrived (next cfg s a) p := by
  by_cases ha : ∃ q ev, a = .event q ev
  · obtain ⟨q, ev, rfl⟩ := ha
    unfold Arrived
    rw [stage_event]
    by_cases hpq : p = q
    · subst hpq
      rw [Function.update_self]
      cases ev with
      | none => exact False.elim hen
      | addPre => exact absurd hen h.1
      | addPost => exact ⟨nofun, nofun⟩
      | remPost => exact ⟨nofun, nofun⟩
    · rw [Function.update_of_ne hpq]
      exact h
  · unfold Arrived
    rw [stage_next cfg fun q ev hev => ha ⟨q, ev, hev⟩]
    exact h

/-- A `REM_POST` goes unheard in a `close` only. -/
theorem removed_of_gone (h : (socket cfg).Reach s) :
    ∀ p, s.stage p = .gone → s.removed p = true ∨ s.closeBegun = true := by
  induction h with
  | init => exact fun p hp => Stage.noConfusion hp
  | @step s a hr _ hen ih =>
    intro p hp
    have hp : (next cfg s a).stage p = .gone := hp
    show (next cfg s a).removed p = true ∨ (next cfg s a).closeBegun = true
    by_cases ha : ∃ q ev, a = .event q ev
    · obtain ⟨q, ev, rfl⟩ := ha
      cases hcb : s.closeBegun with
      | true => exact Or.inr (closeBegun_next hcb)
      | false =>
        refine Or.inl ?_
        rw [stage_event] at hp
        rw [next_event_of_notify ((mirrored_of_reach hr hcb).heard ev)]
        by_cases hpq : p = q
        · subst hpq
          rw [Function.update_self] at hp
          cases ev with
          | none => exact False.elim hen
          | addPre =>
            simp only [stageAfter] at hp
            split at hp <;> cases hp
          | addPost => cases hp
          | remPost => simp [handle]
        · rw [Function.update_of_ne hpq] at hp
          exact removed_handle ((ih p hp).resolve_right (by rw [hcb]; exact Bool.false_ne_true))
    · have hn := @nothingIn_next _ cfg s a fun q ev hev => ha ⟨q, ev, hev⟩
      rw [hn.stage] at hp
      rw [hn.removed]
      exact (ih p hp).imp_right closeBegun_next

/-- **A pipe that has come and not gone** is in the collection of a socket
that is not being closed. -/
theorem mem_ids_of_arrived (h : (socket cfg).Reach s) (hcb : s.closeBegun = false) {p : ℕ}
    (harr : Arrived s p) (hrem : s.removed p = false) : p ∈ s.coll.ids := by
  refine ((mirrored_of_reach h hcb).live p).mpr ?_
  cases hst : s.stage p with
  | unborn => exact absurd hst harr.1
  | refused => exact absurd hst harr.2
  | pre => exact Or.inl rfl
  | post => exact Or.inr rfl
  | gone =>
    rcases removed_of_gone h p hst with hgone | hgone
    · rw [hrem] at hgone
      cases hgone
    · rw [hcb] at hgone
      cases hgone

/-- The history gets the collection's ids, whenever it gets anything. -/
theorem log_next (cfg : Config σ) (a : Act) :
    (next cfg s a).log = s.log ∨ (next cfg s a).log = s.log ++ [(next cfg s a).coll.ids] := by
  cases a with
  | event p ev =>
    simp only [next]
    split
    · exact Or.inr rfl
    · exact Or.inl rfl
  | check t => simp only [next]; split <;> exact Or.inl rfl
  | create t => simp only [next]; split <;> exact Or.inl rfl
  | read t => simp only [next]; split <;> exact Or.inl rfl
  | hook t => simp only [next]; split <;> exact Or.inl rfl
  | close c =>
    cases hpc : (s.closing c).pc <;> simp only [next, closeStep, hpc]
    case locked => split <;> exact Or.inl rfl
    case closed => split <;> exact Or.inl rfl
    case pipesCleared => exact Or.inr rfl
    case done => exact Or.inl trivial
    all_goals exact Or.inl rfl
  | _ => exact Or.inl rfl

theorem since_setCall {t u : ℕ} {call : Call} (hcall : call.since = (s.calls u).since)
    (hcalls : s'.calls = s.calls) :
    ((State.setCall u call s').calls t).since = (s.calls t).since := by
  by_cases htu : t = u
  · subst htu
    simpa only [State.setCall, Function.update_self] using hcall
  · simp only [State.setCall, Function.update_of_ne htu, hcalls]

/-- When a call began is settled as it enters. -/
theorem since_next (cfg : Config σ) {t : ℕ} {a : Act} (ha : a ≠ .enter t) :
    ((next cfg s a).calls t).since = (s.calls t).since := by
  cases a with
  | event p ev => simp only [next]; split <;> rfl
  | enter u =>
    have htu : t ≠ u := fun htu => ha (by rw [htu])
    simp only [next, State.setCall, Function.update_of_ne htu]
  | acquire u => exact since_setCall rfl rfl
  | check u => simp only [next]; split <;> exact since_setCall rfl rfl
  | snapshot u => exact since_setCall rfl rfl
  | create u =>
    simp only [next]
    split
    · rfl
    · exact since_setCall rfl rfl
  | assign u => exact since_setCall rfl rfl
  | sample u => exact since_setCall rfl rfl
  | read u =>
    simp only [next]
    split
    · exact since_setCall rfl rfl
    · rfl
  | unlock u => exact since_setCall rfl rfl
  | status u o => exact since_setCall rfl rfl
  | hook u => simp only [next]; split <;> exact since_setCall rfl rfl
  | hookDone u => exact since_setCall rfl rfl
  | announce u o => exact since_setCall rfl rfl
  | ret u => exact since_setCall rfl rfl
  | close c =>
    show ((closeStep s c).calls t).since = (s.calls t).since
    rw [(sparesCalls_closeStep s c).calls]
  | _ => rfl

/-- **The pipe has been in the collection since the moment `k`**, unless it is
removed by now or the socket is being closed. -/
def PresentSince (s : State σ) (p k : ℕ) : Prop :=
  s.closeBegun = false → s.removed p = false → ∀ j l, k ≤ j → s.log[j]? = some l → p ∈ l

theorem presentSince_last (h : (socket cfg).Reach s) {p : ℕ} (harr : Arrived s p) :
    PresentSince s p (s.log.length - 1) := by
  intro hcb hrem j l hj hl
  have hm := mirrored_of_reach h hcb
  have hlast := hm.getElem?_last
  have hlt : j < s.log.length := List.getElem?_eq_some_iff.mp hl |>.1
  obtain rfl : j = s.log.length - 1 := by omega
  rw [hlast] at hl
  rw [← Option.some.inj hl]
  exact mem_ids_of_arrived h hcb harr hrem

theorem PresentSince.next {p k : ℕ} (h : PresentSince s p k) (hr : (socket cfg).Reach s)
    (harr : Arrived s p) {a : Act} (hen : Enabled s a) : PresentSince (next cfg s a) p k := by
  intro hcb hrem j l hj hl
  have hcb' := closeBegun_of_next hcb
  have hrem' : s.removed p = false := by
    by_contra hgone
    rw [Bool.not_eq_false] at hgone
    by_cases ha : ∃ q ev, a = .event q ev
    · obtain ⟨q, ev, rfl⟩ := ha
      simp only [Socket.next] at hrem
      split at hrem
      · rw [removed_handle hgone] at hrem
        cases hrem
      · rw [show State.removed _ p = s.removed p from rfl, hgone] at hrem
        cases hrem
    · rw [(nothingIn_next fun q ev hev => ha ⟨q, ev, hev⟩).removed, hgone] at hrem
      cases hrem
  rcases @log_next _ s cfg a with hlog | hlog
  · rw [hlog] at hl
    exact h hcb' hrem' j l hj hl
  · -- what is added is the collection as it is now
    rw [hlog] at hl
    rcases Nat.lt_or_ge j s.log.length with hlt | hge
    · rw [List.getElem?_append_left hlt] at hl
      exact h hcb' hrem' j l hj hl
    · rw [List.getElem?_append_right hge] at hl
      rw [List.mem_singleton.mp (List.mem_of_getElem? hl)]
      exact mem_ids_of_arrived (hr.step trivial hen) hcb (harr.next hen) hrem

/-- **A finished update lists the pipe** that was there since it began. -/
theorem exists_listed (h : (socket cfg).Reach s) (hcb : s.closeBegun = false) {p t : ℕ}
    (harr : Arrived s p) (hrem : s.removed p = false) (hpc : (s.calls t).pc = .returned)
    (hp : PresentSince s p (s.calls t).since) :
    ∃ x ∈ s.pipes, x.id = p ∧ x.handle ∈ s.coll.pipes := by
  obtain ⟨k, hk, hset⟩ := (mirrored_of_reach h hcb).seen
  have hsince := hset t (by rw [hpc]; rfl)
  obtain ⟨x, hx, rfl⟩ := List.mem_map.mp (hp hcb hrem k _ hsince hk)
  refine ⟨x, hx, rfl, ?_⟩
  rcases (shadowed_of_reach h).list.inside x.handle (List.mem_map_of_mem hx) with hin | hg
  · exact hin
  · exact absurd (mem_ids_of_arrived h hcb harr hrem) hg.out

end Socket

end PyNng
