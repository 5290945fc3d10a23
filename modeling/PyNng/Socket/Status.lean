import PyNng.Socket.Lock
import PyNng.Pipe.Status
/-!
# Socket — the status of a pipe only advances

A status is kept in two places: the handle's, written by the collection,
and `_last_known_status`, committed under `_status_mutex` from a value that
was read before the mutex was taken. The value committed may be stale, and
`REMOVED` may be committed ahead of the handle.

Neither does harm. The commits of `update_pipes` are all made under
`_pipe_mutex`, so none overtakes another; every other commit is of
`REMOVED`, after which nothing is committed; and a value once read is
behind the handle for good.
-/

namespace PyNng

/-- The first status is not ahead of the second, unless it is `REMOVED`. -/
def PipeEv.Behind (a b : PipeEv) : Prop := a = .remPost ∨ a.rank ≤ b.rank

theorem PipeEv.behind_refl (a : PipeEv) : a.Behind a := Or.inr (Nat.le_refl _)

theorem PipeEv.Behind.trans_le {a b c : PipeEv} (h : a.Behind b) (hbc : b.rank ≤ c.rank) :
    a.Behind c :=
  h.imp_right fun hab => Nat.le_trans hab hbc

namespace PipeFields

variable {x : PipeFields} {new : PipeEv}

theorem handleStatusChange_of_moves (h : x.Moves new) :
    x.handleStatusChange new = ({ x with lastKnown := new }, x.callback) :=
  if_pos h

theorem handleStatusChange_of_not_moves (h : ¬ x.Moves new) :
    x.handleStatusChange new = (x, false) :=
  if_neg h

theorem lastKnown_handleStatusChange :
    (x.handleStatusChange new).1.lastKnown = if x.Moves new then new else x.lastKnown := by
  split
  · rename_i h; rw [handleStatusChange_of_moves h]
  · rename_i h; rw [handleStatusChange_of_not_moves h]

theorem callback_handleStatusChange : (x.handleStatusChange new).1.callback = x.callback := by
  by_cases h : x.Moves new
  · rw [handleStatusChange_of_moves h]
  · rw [handleStatusChange_of_not_moves h]

/-- A callback is due when the status is committed and a callback is set. -/
theorem due_handleStatusChange :
    (x.handleStatusChange new).2 = true ↔ x.Moves new ∧ x.callback = true := by
  by_cases h : x.Moves new
  · simp [handleStatusChange_of_moves h, h]
  · simp [handleStatusChange_of_not_moves h, h]

/-- What is committed is ahead of what was known. -/
theorem Moves.lt (h : x.Moves new) (hb : x.lastKnown.Behind new) :
    x.lastKnown.rank < new.rank := by
  rcases hb with hb | hb
  · exact absurd hb h.2
  · exact Nat.lt_of_le_of_ne hb fun heq => h.1 (PipeEv.rank_injective heq).symm

theorem rank_le_handleStatusChange (hb : x.lastKnown.Behind new) :
    x.lastKnown.rank ≤ (x.handleStatusChange new).1.lastKnown.rank := by
  rw [lastKnown_handleStatusChange]
  split
  · rename_i hmoves
    exact Nat.le_of_lt (hmoves.lt hb)
  · exact Nat.le_refl _

end PipeFields

namespace Socket

variable {σ : Type} {cfg : Config σ} {s s' : State σ}

theorem forall_setCall {t : ℕ} {call : Call} {P : Call → Prop} (hcall : P call)
    (h : ∀ u, P (s.calls u)) (u : ℕ) : P ((State.setCall t call s).calls u) := by
  by_cases hut : u = t
  · subst hut; simpa [State.setCall] using hcall
  · simpa [State.setCall, hut] using h u

theorem forall_setClosing {c : Closer} {run : CloseRun} {P : CloseRun → Prop} (hrun : P run)
    (h : ∀ d, P (s.closing d)) (d : Closer) : P ((State.setClosing c run s).closing d) := by
  by_cases hdc : d = c
  · subst hdc; simpa [State.setClosing] using hrun
  · simpa [State.setClosing, hdc] using h d

theorem forall_setUserDue {n : ℕ} {due : List Due} {P : List Due → Prop} (hdue : P due)
    (h : ∀ m, P (s.userDue m)) (m : ℕ) : P ((State.setUserDue n due s).userDue m) := by
  by_cases hmn : m = n
  · subst hmn; simpa [State.setUserDue] using hdue
  · simpa [State.setUserDue, hmn] using h m

/-! ## Every pipe at hand was made -/

/-- The pipes among a call's locals. -/
def Call.pipes (call : Call) : List Pipe :=
  call.prev ++ call.still ++ call.fresh ++ call.todo ++ call.due.map Due.pipe

/-- **Every pipe at hand was made**, and its handle with it. -/
structure Known (s : State σ) : Prop where
  tracks : s.coll.Tracks
  below : ∀ x ∈ s.made, x.obj < s.created
  refs : ∀ x ∈ s.made, x.handle.ref < s.coll.made
  distinct : ∀ x ∈ s.made, ∀ y ∈ s.made, x.obj = y.obj → x = y
  handles : ∀ t, ∀ h ∈ (s.calls t).handles, h.ref < s.coll.made
  pipes : ∀ x ∈ s.pipes, x ∈ s.made
  placed : ∀ x ∈ s.placed, x ∈ s.made
  calls : ∀ t, ∀ x ∈ (s.calls t).pipes, x ∈ s.made
  closing : ∀ c, ∀ x ∈ (s.closing c).pipes, x ∈ s.made
  due : ∀ n, ∀ d ∈ s.userDue n, d.pipe ∈ s.made
  commits : ∀ c ∈ s.commits, c.pipe ∈ s.made

/-- The same pipes are at hand. -/
structure SameHands (s s' : State σ) : Prop where
  coll : s.coll.SameHandles s'.coll
  created : s'.created = s.created
  made : s'.made = s.made
  pipes : s'.pipes = s.pipes
  placed : s'.placed = s.placed
  calls : s'.calls = s.calls
  closing : s'.closing = s.closing
  userDue : s'.userDue = s.userDue
  commits : s'.commits = s.commits

theorem SameHands.refl (s : State σ) : SameHands s s :=
  ⟨⟨rfl, rfl, rfl⟩, rfl, rfl, rfl, rfl, rfl, rfl, rfl, rfl⟩

namespace Known

theorem of_same (h : Known s) (hs : SameHands s s') : Known s' where
  tracks := hs.coll.tracks h.tracks
  below := by rw [hs.made, hs.created]; exact h.below
  refs := by rw [hs.made, hs.coll.made]; exact h.refs
  distinct := by rw [hs.made]; exact h.distinct
  handles := by rw [hs.calls, hs.coll.made]; exact h.handles
  pipes := by rw [hs.pipes, hs.made]; exact h.pipes
  placed := by rw [hs.placed, hs.made]; exact h.placed
  calls := by rw [hs.calls, hs.made]; exact h.calls
  closing := by rw [hs.closing, hs.made]; exact h.closing
  due := by rw [hs.userDue, hs.made]; exact h.due
  commits := by rw [hs.commits, hs.made]; exact h.commits

/-- The collection moves on. -/
theorem setColl (h : Known s) (hs : SameHands { s with coll := s'.coll } s')
    (ht : s'.coll.Tracks) (ha : s.coll.Advances s'.coll) : Known s' := by
  have hk : Known { s with coll := s'.coll } :=
    ⟨ht, h.below, fun x hx => Nat.lt_of_lt_of_le (h.refs x hx) ha.made, h.distinct,
      fun t hd hm => Nat.lt_of_lt_of_le (h.handles t hd hm) ha.made, h.pipes, h.placed, h.calls,
      h.closing, h.due, h.commits⟩
  exact hk.of_same hs

/-- A call moves, with pipes and handles that were made. -/
theorem setCall (h : Known s) {t : ℕ} {call : Call} (hs : SameHands s s')
    (hhandles : ∀ hd ∈ call.handles, hd.ref < s.coll.made)
    (hcall : ∀ x ∈ call.pipes, x ∈ s.made) : Known (State.setCall t call s') := by
  have h' := h.of_same hs
  rw [← hs.coll.made] at hhandles
  rw [← hs.made] at hcall
  exact ⟨h'.tracks, h'.below, h'.refs, h'.distinct,
    @forall_setCall _ s' t call (fun c => ∀ hd ∈ c.handles, hd.ref < s'.coll.made) hhandles
      h'.handles,
    h'.pipes, h'.placed,
    @forall_setCall _ s' t call (fun c => ∀ x ∈ c.pipes, x ∈ s'.made) hcall h'.calls,
    h'.closing, h'.due, h'.commits⟩

/-- A call moves that only drops pipes and handles. -/
theorem moveCall (h : Known s) {t : ℕ} {call : Call} (hs : SameHands s s')
    (hhandles : ∀ hd ∈ call.handles, hd ∈ (s.calls t).handles)
    (hcall : ∀ x ∈ call.pipes, x ∈ (s.calls t).pipes) : Known (State.setCall t call s') :=
  h.setCall hs (fun hd hm => h.handles t hd (hhandles hd hm)) fun x hx => h.calls t x (hcall x hx)

theorem setClosing (h : Known s) {c : Closer} {run : CloseRun} (hs : SameHands s s')
    (hrun : ∀ x ∈ run.pipes, x ∈ s.made) : Known (State.setClosing c run s') := by
  have h' := h.of_same hs
  rw [← hs.made] at hrun
  exact ⟨h'.tracks, h'.below, h'.refs, h'.distinct, h'.handles, h'.pipes, h'.placed, h'.calls,
    @forall_setClosing _ s' c run (fun r => ∀ x ∈ r.pipes, x ∈ s'.made) hrun h'.closing, h'.due,
    h'.commits⟩

theorem commit (h : Known s) {x : Pipe} (new : PipeEv) (hx : x ∈ s.made) :
    Known (s.commit x new) := by
  refine ⟨h.tracks, h.below, h.refs, h.distinct, h.handles, h.pipes, h.placed, h.calls, h.closing,
    h.due, fun c hc => ?_⟩
  rcases List.mem_append.mp hc with hc | hc
  · exact h.commits c hc
  · split at hc
    · rw [List.mem_singleton.mp hc]; exact hx
    · exact absurd hc List.not_mem_nil

theorem setUserDue (h : Known s) {n : ℕ} {due : List Due} (hs : SameHands s s')
    (hdue : ∀ d ∈ due, d.pipe ∈ s.made) : Known (State.setUserDue n due s') := by
  have h' := h.of_same hs
  rw [← hs.made] at hdue
  exact ⟨h'.tracks, h'.below, h'.refs, h'.distinct, h'.handles, h'.pipes, h'.placed, h'.calls,
    h'.closing,
    @forall_setUserDue _ s' n due (fun l => ∀ d ∈ l, d.pipe ∈ s'.made) hdue h'.due, h'.commits⟩

theorem mem_dueOf {x : Pipe} {new : PipeEv} {d : Due} (hd : d ∈ s.dueOf x new) :
    d = ⟨x, new⟩ ∧ (s.objs x.obj).Moves new ∧ (s.objs x.obj).callback = true := by
  unfold State.dueOf at hd
  split at hd
  · rename_i hdue
    exact ⟨List.mem_singleton.mp hd, PipeFields.due_handleStatusChange.mp hdue⟩
  · exact absurd hd List.not_mem_nil

theorem mem_prev (h : Known s) {t : ℕ} {x : Pipe} (hx : x ∈ (s.calls t).prev) : x ∈ s.made :=
  h.calls t x (by simp [Call.pipes, hx])

theorem mem_still (h : Known s) {t : ℕ} {x : Pipe} (hx : x ∈ (s.calls t).still) : x ∈ s.made :=
  h.calls t x (by simp [Call.pipes, hx])

theorem mem_fresh (h : Known s) {t : ℕ} {x : Pipe} (hx : x ∈ (s.calls t).fresh) : x ∈ s.made :=
  h.calls t x (by simp [Call.pipes, hx])

theorem mem_todo (h : Known s) {t : ℕ} {x : Pipe} (hx : x ∈ (s.calls t).todo) : x ∈ s.made :=
  h.calls t x (by simp [Call.pipes, hx])

theorem mem_due (h : Known s) {t : ℕ} {d : Due} (hd : d ∈ (s.calls t).due) : d.pipe ∈ s.made :=
  h.calls t d.pipe (by
    unfold Call.pipes
    exact List.mem_append_right _ (List.mem_map_of_mem hd))

/-- A pipe is made of a handle that was made. -/
theorem create (h : Known s) (t : ℕ) : Known (next cfg s (.create t)) := by
  cases hh : (s.calls t).handles with
  | nil => simpa only [next, hh] using h
  | cons hd tl =>
    have href : hd.ref < s.coll.made := h.handles t hd (by rw [hh]; exact List.mem_cons_self)
    have hmade : ∀ x, x ∈ s.made ++ [(⟨s.created, hd⟩ : Pipe)] →
        x ∈ s.made ∨ x = ⟨s.created, hd⟩ := fun x hx =>
      (List.mem_append.mp hx).imp_right List.mem_singleton.mp
    have hold : ∀ x ∈ s.made, x ∈ s.made ++ [(⟨s.created, hd⟩ : Pipe)] := fun x hx =>
      List.mem_append_left _ hx
    have hk : Known { s with
        created := s.created + 1
        made := s.made ++ [⟨s.created, hd⟩]
        objs := Function.update s.objs s.created ⟨s.coll.status hd.ref, false⟩ } := by
      refine ⟨h.tracks, fun x hx => ?_, fun x hx => ?_, fun x hx y hy hxy => ?_, h.handles,
        fun x hx => hold x (h.pipes x hx), fun x hx => hold x (h.placed x hx),
        fun u x hx => hold x (h.calls u x hx), fun c x hx => hold x (h.closing c x hx),
        fun n d hd => hold _ (h.due n d hd), fun c hc => hold _ (h.commits c hc)⟩
      · rcases hmade x hx with hx | rfl
        · exact Nat.lt_succ_of_lt (h.below x hx)
        · exact Nat.lt_succ_self _
      · rcases hmade x hx with hx | rfl
        · exact h.refs x hx
        · exact href
      · -- the object is new
        rcases hmade x hx with hx | rfl
        · rcases hmade y hy with hy | rfl
          · exact h.distinct x hx y hy hxy
          · exact absurd (h.below x hx) (by rw [hxy]; exact Nat.lt_irrefl _)
        · rcases hmade y hy with hy | rfl
          · exact absurd (h.below y hy) (by rw [← hxy]; exact Nat.lt_irrefl _)
          · rfl
    simp only [next, hh]
    have hrest : ∀ hd' ∈ tl, hd'.ref < s.coll.made := fun hd' hm =>
      h.handles t hd' (by rw [hh]; exact List.mem_cons_of_mem _ hm)
    refine hk.setCall (.refl _) hrest fun x hx => ?_
    simp only [Call.pipes, List.mem_append, List.mem_singleton] at hx ⊢
    rcases hx with (((hx | hx) | (hx | rfl)) | hx) | hx
    · exact Or.inl (h.mem_prev hx)
    · exact Or.inl (h.mem_still hx)
    · exact Or.inl (h.mem_fresh hx)
    · exact Or.inr rfl
    · exact Or.inl (h.mem_todo hx)
    · obtain ⟨d, hd, rfl⟩ := List.mem_map.mp hx
      exact Or.inl (h.mem_due hd)

theorem snapshot (h : Known s) (t : ℕ) : Known (next cfg s (.snapshot t)) := by
  obtain ⟨hstill, hhandles⟩ := greedyMatch_subset Pipe.id PipeHandle.id s.pipes s.coll.getPipes
  refine h.setCall (.refl _) (fun hd hm => ?_) fun x hx => ?_
  · exact h.tracks.made _ (List.mem_map_of_mem (hhandles hd hm))
  · simp only [Call.pipes, List.mem_append, List.append_nil] at hx
    rcases hx with ((hx | hx) | hx) | hx
    · exact h.pipes x hx
    · exact h.pipes x (hstill x hx)
    · exact h.mem_todo hx
    · obtain ⟨d, hd, rfl⟩ := List.mem_map.mp hx
      exact h.mem_due hd

theorem assign (h : Known s) (t : ℕ) : Known (next cfg s (.assign t)) := by
  have hk : Known { s with
      pipes := (s.calls t).still ++ (s.calls t).fresh
      placed := s.placed ++ (s.calls t).fresh } := by
    refine ⟨h.tracks, h.below, h.refs, h.distinct, h.handles, fun x hx => ?_, fun x hx => ?_,
      h.calls, h.closing, h.due, h.commits⟩
    · exact (List.mem_append.mp hx).elim h.mem_still h.mem_fresh
    · exact (List.mem_append.mp hx).elim (h.placed x) h.mem_fresh
  refine hk.setCall ⟨⟨rfl, rfl, rfl⟩, rfl, rfl, rfl, rfl, rfl, rfl, rfl, rfl⟩ (h.handles t)
    fun x hx => ?_
  simp only [Call.pipes, List.map_nil, List.append_nil, List.mem_append] at hx
  rcases hx with ((hx | hx) | hx) | hx
  · exact h.mem_prev hx
  · exact h.mem_still hx
  · exact h.mem_fresh hx
  · exact h.mem_prev hx

theorem read (h : Known s) (t : ℕ) : Known (next cfg s (.read t)) := by
  simp only [next]
  split
  · rename_i x xs ev htodo hev
    have hx : x ∈ s.made := h.mem_todo (by rw [htodo]; exact List.mem_cons_self)
    refine (h.commit ev hx).setCall (.refl _) (h.handles t) fun y hy => ?_
    simp only [Call.pipes, List.map_append, List.mem_append] at hy
    rcases hy with (((hy | hy) | hy) | hy) | (hy | hy)
    · exact h.mem_prev hy
    · exact h.mem_still hy
    · exact h.mem_fresh hy
    · exact h.mem_todo (by rw [htodo]; exact List.mem_cons_of_mem _ hy)
    · obtain ⟨d, hd, rfl⟩ := List.mem_map.mp hy
      exact h.mem_due hd
    · obtain ⟨d, hd, rfl⟩ := List.mem_map.mp hy
      rw [(mem_dueOf hd).1]; exact hx
  · exact h

theorem closeStep (h : Known s) (c : Closer) : Known (closeStep s c) := by
  have hrun := h.closing c
  cases hpc : (s.closing c).pc with
  | locked =>
    simp only [Socket.closeStep, hpc]
    split
    · have hk : Known { s with pipes := [] } :=
        ⟨h.tracks, h.below, h.refs, h.distinct, h.handles, fun _ hx => absurd hx List.not_mem_nil,
          h.placed, h.calls, h.closing, h.due, h.commits⟩
      exact hk.setClosing ⟨⟨rfl, rfl, rfl⟩, rfl, rfl, rfl, rfl, rfl, rfl, rfl, rfl⟩ h.pipes
    · exact h.setClosing ⟨⟨rfl, rfl, rfl⟩, rfl, rfl, rfl, rfl, rfl, rfl, rfl, rfl⟩ hrun
  | pipesCleared =>
    simp only [Socket.closeStep, hpc]
    refine setClosing (s := { s with coll := s.coll.clear }) ?_
      ⟨⟨rfl, rfl, rfl⟩, rfl, rfl, rfl, rfl, rfl, rfl, rfl, rfl⟩ hrun
    exact h.setColl (.refl _) h.tracks.clear.1 h.tracks.clear.2.1
  | closed =>
    simp only [Socket.closeStep, hpc]
    split
    · exact h.setClosing (.refl s) hrun
    · exact h.setClosing (.refl s) hrun
    · rename_i x xs ev hxs hev
      have hx : ∀ y ∈ x :: xs, y ∈ s.made := by rw [← hxs]; exact hrun
      exact (h.commit ev (hx x List.mem_cons_self)).setClosing (.refl _) fun y hy =>
        hx y (List.mem_cons_of_mem _ hy)
  | done => simpa only [Socket.closeStep, hpc] using h
  | _ =>
    simp only [Socket.closeStep, hpc]
    exact h.setClosing ⟨⟨rfl, rfl, rfl⟩, rfl, rfl, rfl, rfl, rfl, rfl, rfl, rfl⟩ hrun

theorem next (h : Known s) {a : Act} (hen : Enabled s a) : Known (Socket.next cfg s a) := by
  cases a with
  | event p ev =>
    simp only [Socket.next]
    split
    · obtain ⟨ht, ha⟩ := @PipeCollection.Tracks.handleEvent _ _ (cfg.nng p) p ev h.tracks
      exact h.setColl ⟨⟨rfl, rfl, rfl⟩, rfl, rfl, rfl, rfl, rfl, rfl, rfl, rfl⟩ ht ha
    · exact h.of_same ⟨⟨rfl, rfl, rfl⟩, rfl, rfl, rfl, rfl, rfl, rfl, rfl, rfl⟩
  | closePipe n x =>
    refine (h.commit .remPost hen.1).setUserDue
      ⟨⟨rfl, rfl, rfl⟩, rfl, rfl, rfl, rfl, rfl, rfl, rfl, rfl⟩ fun d hd => ?_
    rw [(mem_dueOf hd).1]
    exact hen.1
  | pipeCallback n =>
    exact h.setUserDue ⟨⟨rfl, rfl, rfl⟩, rfl, rfl, rfl, rfl, rfl, rfl, rfl, rfl⟩
      fun d hd => h.due n d (List.mem_of_mem_tail hd)
  | enter t =>
    exact h.setCall ⟨⟨rfl, rfl, rfl⟩, rfl, rfl, rfl, rfl, rfl, rfl, rfl, rfl⟩
      (fun _ hm => absurd hm List.not_mem_nil) fun _ hm => by simp [Call.start, Call.pipes] at hm
  | check t =>
    simp only [Socket.next]
    split
    · exact h.moveCall ⟨PipeCollection.sameHandles_hadEvents _, rfl, rfl, rfl, rfl, rfl, rfl, rfl,
        rfl⟩ (fun _ hm => hm) fun _ hm => hm
    · exact h.moveCall ⟨⟨rfl, rfl, rfl⟩, rfl, rfl, rfl, rfl, rfl, rfl, rfl, rfl⟩
        (fun _ hm => hm) fun _ hm => hm
  | snapshot t => exact h.snapshot t
  | create t => exact h.create t
  | assign t => exact h.assign t
  | read t => exact h.read t
  | acquire t =>
    exact h.moveCall ⟨⟨rfl, rfl, rfl⟩, rfl, rfl, rfl, rfl, rfl, rfl, rfl, rfl⟩
      (fun _ hm => hm) fun _ hm => hm
  | unlock t =>
    exact h.moveCall ⟨⟨rfl, rfl, rfl⟩, rfl, rfl, rfl, rfl, rfl, rfl, rfl, rfl⟩
      (fun _ hm => hm) fun _ hm => hm
  | status t o =>
    refine h.moveCall ⟨⟨rfl, rfl, rfl⟩, rfl, rfl, rfl, rfl, rfl, rfl, rfl, rfl⟩ (fun _ hm => hm)
      fun x hx => ?_
    simp only [Call.pipes, List.mem_append] at hx ⊢
    rcases hx with hx | hx
    · exact Or.inl hx
    · obtain ⟨d, hd, rfl⟩ := List.mem_map.mp hx
      exact Or.inr (List.mem_map_of_mem (List.mem_of_mem_tail hd))
  | hook t =>
    simp only [Socket.next]
    split
    · exact (h.setClosing (.refl s) fun _ hx => absurd hx List.not_mem_nil).moveCall (.refl _)
        (fun _ hm => hm) fun _ hm => hm
    · exact h.moveCall (.refl s) (fun _ hm => hm) fun _ hm => hm
  | hookDone t =>
    exact (h.setClosing (.refl s) fun _ hx => absurd hx List.not_mem_nil).moveCall (.refl _)
      (fun _ hm => hm) fun _ hm => hm
  | announce t o =>
    refine h.moveCall ⟨⟨rfl, rfl, rfl⟩, rfl, rfl, rfl, rfl, rfl, rfl, rfl, rfl⟩
      (fun _ hm => hm) fun x hx => ?_
    simp only [Call.pipes, List.mem_append] at hx ⊢
    rcases hx with (((hx | hx) | hx) | hx) | hx
    · exact Or.inl (Or.inl (Or.inl (Or.inl hx)))
    · exact Or.inl (Or.inl (Or.inl (Or.inr hx)))
    · exact Or.inl (Or.inl (Or.inr (List.mem_of_mem_tail hx)))
    · exact Or.inl (Or.inr hx)
    · exact Or.inr hx
  | sample t => exact h.moveCall (.refl s) (fun _ hm => hm) fun _ hm => hm
  | ret t => exact h.moveCall (.refl s) (fun _ hm => hm) fun _ hm => hm
  | close c => exact h.closeStep c
  | _ => exact h.of_same ⟨⟨rfl, rfl, rfl⟩, rfl, rfl, rfl, rfl, rfl, rfl, rfl, rfl⟩

end Known

theorem known_of_reach (h : (socket cfg).Reach s) : Known s :=
  h.invariant
    ⟨PipeCollection.tracks_new _ _, fun _ hx => absurd hx List.not_mem_nil,
      fun _ hx => absurd hx List.not_mem_nil, fun _ hx => absurd hx List.not_mem_nil,
      fun _ _ hx => absurd hx List.not_mem_nil, fun _ hx => absurd hx List.not_mem_nil,
      fun _ hx => absurd hx List.not_mem_nil, fun _ _ hx => absurd hx List.not_mem_nil,
      fun _ _ hx => absurd hx List.not_mem_nil, fun _ _ hx => absurd hx List.not_mem_nil,
      fun _ hx => absurd hx List.not_mem_nil⟩
    fun _ _ _ hs _ hen => hs.next hen

/-! ## Nothing is committed out of order -/

/-- The places of `close` after `clear`. -/
def ClosePc.cleared : ClosePc → Bool
  | .collectionCleared | .filterCleared | .unlocked | .entered | .noAddPre | .noAddPost
  | .noRemPost | .closed => true
  | _ => false

/-- **Commits keep the pace.** What is known is behind the handle, and what
was read and not yet committed is in between. -/
structure Paced (s : State σ) : Prop where
  known : ∀ x ∈ s.made, 1 ≤ (s.objs x.obj).lastKnown.rank ∧
    (s.objs x.obj).lastKnown.Behind (s.coll.status x.handle.ref)
  sampled : ∀ t ev, (s.calls t).sampled = some ev → (s.calls t).pc = .reading ∧
    ∃ x xs, (s.calls t).todo = x :: xs ∧ ev.rank ≤ (s.coll.status x.handle.ref).rank ∧
      (s.objs x.obj).lastKnown.Behind ev
  /-- Whatever `close` took out of the list is removed. -/
  cleared : ∀ c, (s.closing c).pc.cleared = true →
    ∀ x ∈ (s.closing c).pipes, s.coll.status x.handle.ref = .remPost
  told : ∀ c ev, (s.closing c).sampled = some ev → ev = .remPost
  commits : ∀ c ∈ s.commits,
    2 ≤ c.status.rank ∧ c.status.rank ≤ (s.objs c.pipe.obj).lastKnown.rank
  once : s.commits.Pairwise fun c d => c.pipe = d.pipe → c.status.rank < d.status.rank

theorem objs_commit_of_ne {x y : Pipe} {new : PipeEv} (h : y.obj ≠ x.obj) :
    (s.commit x new).objs y.obj = s.objs y.obj :=
  Function.update_of_ne h ..

theorem objs_commit_self {x : Pipe} {new : PipeEv} :
    (s.commit x new).objs x.obj = ((s.objs x.obj).handleStatusChange new).1 :=
  Function.update_self ..

namespace Paced

theorem sampled_eq_none (h : Paced s) {t : ℕ} (hpc : (s.calls t).pc ≠ .reading) :
    (s.calls t).sampled = none := by
  by_contra hsome
  obtain ⟨ev, hev⟩ := Option.ne_none_iff_exists'.mp hsome
  exact hpc (h.sampled t ev hev).1

theorem of_same (h : Paced s) (hs : SameHands s s') (hobjs : s'.objs = s.objs) : Paced s' where
  known := by rw [hs.made, hobjs, hs.coll.status]; exact h.known
  sampled := by rw [hs.calls, hobjs, hs.coll.status]; exact h.sampled
  cleared := by rw [hs.closing, hs.coll.status]; exact h.cleared
  told := by rw [hs.closing]; exact h.told
  commits := by rw [hs.commits, hobjs]; exact h.commits
  once := by rw [hs.commits]; exact h.once

/-- A call moves, with nothing read that is not committed. -/
theorem setCall (h : Paced s) {t : ℕ} {call : Call} (hs : SameHands s s')
    (hobjs : s'.objs = s.objs) (hcall : call.sampled = none) :
    Paced (State.setCall t call s') := by
  have h' := h.of_same hs hobjs
  refine ⟨h'.known, fun u ev hu => ?_, h'.cleared, h'.told, h'.commits, h'.once⟩
  by_cases hut : u = t
  · subst hut
    simp only [State.setCall, Function.update_self, hcall] at hu
    cases hu
  · simp only [State.setCall, Function.update_of_ne hut] at hu ⊢
    exact h'.sampled u ev hu

theorem setClosing (h : Paced s) {c : Closer} {run : CloseRun} (hs : SameHands s s')
    (hobjs : s'.objs = s.objs)
    (hcleared : run.pc.cleared = true → ∀ x ∈ run.pipes, s.coll.status x.handle.ref = .remPost)
    (htold : ∀ ev, run.sampled = some ev → ev = .remPost) : Paced (State.setClosing c run s') := by
  have h' := h.of_same hs hobjs
  rw [← hs.coll.status] at hcleared
  exact ⟨h'.known, h'.sampled,
    @forall_setClosing _ s' c run (fun r => r.pc.cleared = true → ∀ x ∈ r.pipes,
      s'.coll.status x.handle.ref = .remPost) hcleared h'.cleared,
    @forall_setClosing _ s' c run (fun r => ∀ ev, r.sampled = some ev → ev = .remPost) htold
      h'.told, h'.commits, h'.once⟩

/-- The handles move on. -/
theorem setColl (h : Paced s) (hk : Known s) {coll : PipeCollection σ}
    (ha : s.coll.Advances coll) : Paced { s with coll } := by
  have hle : ∀ x ∈ s.made, (s.coll.status x.handle.ref).rank ≤ (coll.status x.handle.ref).rank :=
    fun x hx => ha.status _ (hk.refs x hx)
  refine ⟨fun x hx => ⟨(h.known x hx).1, PipeEv.Behind.trans_le (h.known x hx).2 (hle x hx)⟩,
    fun t ev ht => ?_, fun c hc x hx => ?_, h.told, h.commits, h.once⟩
  · obtain ⟨hpc, x, xs, htodo, hev, hb⟩ := h.sampled t ev ht
    have hx : x ∈ s.made := hk.mem_todo (by rw [htodo]; exact List.mem_cons_self)
    exact ⟨hpc, x, xs, htodo, Nat.le_trans hev (hle x hx), hb⟩
  · exact ha.remPost (hk.refs x (hk.closing c x hx)) (h.cleared c hc x hx)

/-- **A commit.** What is committed was read from the handle, by the only
call that has read anything; or it is `REMOVED`. -/
theorem commit (h : Paced s) (hk : Known s) {x : Pipe} {new : PipeEv} (hx : x ∈ s.made)
    (hb : (s.objs x.obj).lastKnown.Behind new)
    (hnew : new = .remPost ∨ new.rank ≤ (s.coll.status x.handle.ref).rank ∧
      ∀ t ev, (s.calls t).sampled = some ev → ev = new) : Paced (s.commit x new) := by
  have hother : ∀ y ∈ s.made, y ≠ x → (s.commit x new).objs y.obj = s.objs y.obj :=
    fun y hy hyx => objs_commit_of_ne fun hobj => hyx (hk.distinct y hy x hx hobj)
  have hself : ((s.commit x new).objs x.obj).lastKnown =
      if (s.objs x.obj).Moves new then new else (s.objs x.obj).lastKnown := by
    rw [objs_commit_self, PipeFields.lastKnown_handleStatusChange]
  have hgrows : ∀ y ∈ s.made,
      (s.objs y.obj).lastKnown.rank ≤ ((s.commit x new).objs y.obj).lastKnown.rank := by
    intro y hy
    by_cases hyx : y = x
    · subst hyx
      rw [objs_commit_self]
      exact PipeFields.rank_le_handleStatusChange hb
    · exact Nat.le_of_eq (by rw [hother y hy hyx])
  refine ⟨fun y hy => ⟨Nat.le_trans (h.known y hy).1 (hgrows y hy), ?_⟩, fun t ev ht => ?_,
    h.cleared, h.told, fun c hc => ?_, ?_⟩
  · by_cases hyx : y = x
    · subst hyx
      rw [hself]
      split
      · exact hnew.imp_right And.left
      · exact (h.known y hy).2
    · rw [hother y hy hyx]; exact (h.known y hy).2
  · -- the pipe another call has read is committed `REMOVED`, or nothing
    obtain ⟨hpc, y, ys, htodo, hev, hby⟩ := h.sampled t ev ht
    have hy : y ∈ s.made := hk.mem_todo (by rw [htodo]; exact List.mem_cons_self)
    refine ⟨hpc, y, ys, htodo, hev, ?_⟩
    by_cases hyx : y = x
    · subst hyx
      rw [hself]
      split
      · rcases hnew with hnew | ⟨-, hnew⟩
        · exact Or.inl hnew
        · rw [hnew t ev ht]; exact PipeEv.behind_refl _
      · exact hby
    · rw [hother y hy hyx]; exact hby
  · rcases List.mem_append.mp hc with hc | hc
    · exact ⟨(h.commits c hc).1,
        Nat.le_trans (h.commits c hc).2 (hgrows c.pipe (hk.commits c hc))⟩
    · split at hc
      · rename_i hmoves
        rw [List.mem_singleton.mp hc]
        have hlt := hmoves.lt hb
        have hpos := (h.known x hx).1
        refine ⟨?_, ?_⟩
        · show 2 ≤ new.rank
          omega
        · exact Nat.le_of_eq (by rw [hself, if_pos hmoves])
      · exact absurd hc List.not_mem_nil
  · refine List.pairwise_append.mpr ⟨h.once, ?_, fun c hc d hd hcd => ?_⟩
    · split
      · exact List.pairwise_singleton _ _
      · exact List.Pairwise.nil
    · split at hd
      · rename_i hmoves
        rw [List.mem_singleton.mp hd] at hcd ⊢
        have hle := (h.commits c hc).2
        rw [hcd] at hle
        exact Nat.lt_of_le_of_lt hle (hmoves.lt hb)
      · exact absurd hd List.not_mem_nil

/-- A pipe is made with the status its handle has. -/
theorem create (h : Paced s) (hk : Known s) (t : ℕ) (hpc : (s.calls t).pc = .creating) :
    Paced (next cfg s (.create t)) := by
  cases hh : (s.calls t).handles with
  | nil => simpa only [next, hh] using h
  | cons hd tl =>
    have href : hd.ref < s.coll.made := hk.handles t hd (by rw [hh]; exact List.mem_cons_self)
    have hold : ∀ x ∈ s.made,
        Function.update s.objs s.created ⟨s.coll.status hd.ref, false⟩ x.obj = s.objs x.obj :=
      fun x hx => Function.update_of_ne (Nat.ne_of_lt (hk.below x hx)) ..
    have hp : Paced { s with
        created := s.created + 1
        made := s.made ++ [⟨s.created, hd⟩]
        objs := Function.update s.objs s.created ⟨s.coll.status hd.ref, false⟩ } := by
      refine ⟨fun x hx => ?_, fun u ev hu => ?_, h.cleared, h.told, fun c hc => ?_, h.once⟩
      · rcases List.mem_append.mp hx with hx | hx
        · simp only [hold x hx]
          exact h.known x hx
        · rw [List.mem_singleton.mp hx]
          simp only [Function.update_self]
          exact ⟨hk.tracks.one_le_rank href, PipeEv.behind_refl _⟩
      · obtain ⟨hr, x, xs, htodo, hev, hb⟩ := h.sampled u ev hu
        have hx : x ∈ s.made := hk.mem_todo (by rw [htodo]; exact List.mem_cons_self)
        exact ⟨hr, x, xs, htodo, hev, by simp only [hold x hx]; exact hb⟩
      · simp only [hold c.pipe (hk.commits c hc)]
        exact h.commits c hc
    simp only [next, hh]
    exact hp.setCall (.refl _) rfl (h.sampled_eq_none (by simp [hpc]))

/-- **The status is read.** It is behind the handle from now on. -/
theorem sample (h : Paced s) (hk : Known s) {t : ℕ} (hpc : (s.calls t).pc = .reading)
    (htodo : (s.calls t).todo ≠ []) : Paced (next cfg s (.sample t)) := by
  refine ⟨h.known, fun u ev hu => ?_, h.cleared, h.told, h.commits, h.once⟩
  by_cases hut : u = t
  · subst hut
    obtain ⟨x, xs, hx⟩ := List.exists_cons_of_ne_nil htodo
    simp only [next, State.setCall, Function.update_self, hx, List.head?_cons, Option.map_some,
      Option.some.injEq] at hu ⊢
    subst hu
    refine ⟨hpc, x, xs, rfl, Nat.le_refl _, (h.known x ?_).2⟩
    exact hk.mem_todo (by rw [hx]; exact List.mem_cons_self)
  · simp only [next, State.setCall, Function.update_of_ne hut] at hu ⊢
    exact h.sampled u ev hu

/-- **What was read is committed**, under `_pipe_mutex`. -/
theorem read (h : Paced s) (hk : Known s) (hl : Locked s) {t : ℕ}
    (hpc : (s.calls t).pc = .reading) : Paced (next cfg s (.read t)) := by
  simp only [next]
  split
  · rename_i x xs ev htodo hev
    obtain ⟨-, y, ys, htodo', hle, hb⟩ := h.sampled t ev hev
    obtain ⟨rfl, rfl⟩ := List.cons.inj (htodo.symm.trans htodo')
    have hx : x ∈ s.made := hk.mem_todo (by rw [htodo]; exact List.mem_cons_self)
    refine (h.commit hk hx hb (Or.inr ⟨hle, fun u ev' hu => ?_⟩)).setCall (.refl _) rfl rfl
    -- only one call is inside the locked section
    have hu' : (s.calls u).pc = .reading := (h.sampled u ev' hu).1
    obtain rfl : u = t := Holder.call.inj (hl.eq_of_holds
      (by simp [State.holds, hu', CallPc.holds]) (by simp [State.holds, hpc, CallPc.holds]))
    exact Option.some.inj (hu.symm.trans hev)
  · exact h

theorem closeStep (h : Paced s) (hk : Known s) (c : Closer) : Paced (closeStep s c) := by
  have htold := h.told c
  cases hpc : (s.closing c).pc with
  | locked =>
    simp only [Socket.closeStep, hpc]
    split
    · have hp : Paced { s with pipes := [] } :=
        ⟨h.known, h.sampled, h.cleared, h.told, h.commits, h.once⟩
      exact hp.setClosing ⟨⟨rfl, rfl, rfl⟩, rfl, rfl, rfl, rfl, rfl, rfl, rfl, rfl⟩ rfl
        (fun hc => by cases hc) fun _ hev => by cases hev
    · exact h.setClosing ⟨⟨rfl, rfl, rfl⟩, rfl, rfl, rfl, rfl, rfl, rfl, rfl, rfl⟩ rfl
        (fun hc => by cases hc) htold
  | pipesCleared =>
    -- every handle is removed, whatever list it was in
    obtain ⟨-, ha, hall⟩ := hk.tracks.clear
    simp only [Socket.closeStep, hpc]
    refine setClosing (s := { s with coll := s.coll.clear }) (h.setColl hk ha)
      ⟨⟨rfl, rfl, rfl⟩, rfl, rfl, rfl, rfl, rfl, rfl, rfl, rfl⟩ rfl (fun _ x hx => ?_) htold
    exact hall _ (hk.refs x (hk.closing c x hx))
  | closed =>
    have hgone := h.cleared c (by rw [hpc]; rfl)
    simp only [Socket.closeStep, hpc]
    split
    · exact h.setClosing (.refl s) rfl (fun hc => by cases hc) htold
    · rename_i x xs hxs hnone
      refine h.setClosing (.refl s) rfl (fun _ => hgone) fun ev hev => ?_
      rw [← Option.some.inj hev]
      exact hgone x (by rw [hxs]; exact List.mem_cons_self)
    · rename_i x xs ev hxs hev
      have hx : x ∈ s.made := hk.closing c x (by rw [hxs]; exact List.mem_cons_self)
      obtain rfl := htold ev hev
      refine (h.commit hk hx (Or.inr (PipeEv.rank_le _)) (Or.inl rfl)).setClosing (.refl _) rfl
        (fun _ y hy => ?_) fun _ hnone => by cases hnone
      exact hgone y (by rw [hxs]; exact List.mem_cons_of_mem _ hy)
  | done => simpa only [Socket.closeStep, hpc] using h
  | idle | locking =>
    simp only [Socket.closeStep, hpc]
    exact h.setClosing ⟨⟨rfl, rfl, rfl⟩, rfl, rfl, rfl, rfl, rfl, rfl, rfl, rfl⟩ rfl
      (fun hc => by cases hc) htold
  | _ =>
    simp only [Socket.closeStep, hpc]
    exact h.setClosing ⟨⟨rfl, rfl, rfl⟩, rfl, rfl, rfl, rfl, rfl, rfl, rfl, rfl⟩ rfl
      (fun _ => h.cleared c (by rw [hpc]; rfl)) htold

/-- **Each step keeps the pace.** -/
theorem next (h : Paced s) (hk : Known s) (hl : Locked s) {a : Act} (hen : Enabled s a) :
    Paced (Socket.next cfg s a) := by
  cases a with
  | event p ev =>
    simp only [Socket.next]
    split
    · have ha := (@PipeCollection.Tracks.handleEvent _ _ (cfg.nng p) p ev hk.tracks).2
      exact (h.setColl hk ha).of_same
        ⟨⟨rfl, rfl, rfl⟩, rfl, rfl, rfl, rfl, rfl, rfl, rfl, rfl⟩ rfl
    · exact h.of_same ⟨⟨rfl, rfl, rfl⟩, rfl, rfl, rfl, rfl, rfl, rfl, rfl, rfl⟩ rfl
  | setCallback obj set =>
    -- the callback is no part of the pace
    have hkn : ∀ n, (Function.update s.objs obj { s.objs obj with callback := set } n).lastKnown =
        (s.objs n).lastKnown := fun n => by
      by_cases hn : n = obj
      · subst hn; simp
      · simp [hn]
    refine ⟨fun x hx => ?_, fun t ev ht => ?_, h.cleared, h.told, fun c hc => ?_, h.once⟩
    · simp only [Socket.next, hkn]; exact h.known x hx
    · simp only [Socket.next, hkn]; exact h.sampled t ev ht
    · simp only [Socket.next, hkn]; exact h.commits c hc
  | closePipe n x =>
    have hp := h.commit hk hen.1 (Or.inr (PipeEv.rank_le _)) (Or.inl rfl)
    exact ⟨hp.known, hp.sampled, hp.cleared, hp.told, hp.commits, hp.once⟩
  | pipeCallback n => exact ⟨h.known, h.sampled, h.cleared, h.told, h.commits, h.once⟩
  | check t =>
    have hpc : (s.calls t).pc = .checking := hen
    have hnone := h.sampled_eq_none (t := t) (by simp [hpc])
    simp only [Socket.next]
    split
    · exact h.setCall ⟨PipeCollection.sameHandles_hadEvents _, rfl, rfl, rfl, rfl, rfl, rfl, rfl,
        rfl⟩ rfl hnone
    · exact h.setCall ⟨⟨rfl, rfl, rfl⟩, rfl, rfl, rfl, rfl, rfl, rfl, rfl, rfl⟩ rfl hnone
  | enter t => exact h.setCall ⟨⟨rfl, rfl, rfl⟩, rfl, rfl, rfl, rfl, rfl, rfl, rfl, rfl⟩ rfl rfl
  | acquire t =>
    exact h.setCall ⟨⟨rfl, rfl, rfl⟩, rfl, rfl, rfl, rfl, rfl, rfl, rfl, rfl⟩ rfl
      (h.sampled_eq_none (by simp [hen.1]))
  | snapshot t =>
    have hpc : (s.calls t).pc = .snapshotting := hen
    exact h.setCall (.refl s) rfl (h.sampled_eq_none (by simp [hpc]))
  | create t => exact h.create hk t hen.1
  | assign t =>
    have hp : Paced { s with
        pipes := (s.calls t).still ++ (s.calls t).fresh
        placed := s.placed ++ (s.calls t).fresh } :=
      ⟨h.known, h.sampled, h.cleared, h.told, h.commits, h.once⟩
    exact hp.setCall ⟨⟨rfl, rfl, rfl⟩, rfl, rfl, rfl, rfl, rfl, rfl, rfl, rfl⟩ rfl rfl
  | sample t => exact h.sample hk hen.1 hen.2.1
  | read t => exact h.read hk hl hen.1
  | unlock t =>
    have hnone : (s.calls t).sampled = none := by
      by_contra hsome
      obtain ⟨ev, hev⟩ := Option.ne_none_iff_exists'.mp hsome
      obtain ⟨-, x, xs, htodo, -⟩ := h.sampled t ev hev
      rw [hen.2] at htodo
      cases htodo
    exact h.setCall ⟨⟨rfl, rfl, rfl⟩, rfl, rfl, rfl, rfl, rfl, rfl, rfl, rfl⟩ rfl hnone
  | status t o =>
    exact h.setCall ⟨⟨rfl, rfl, rfl⟩, rfl, rfl, rfl, rfl, rfl, rfl, rfl, rfl⟩ rfl
      (h.sampled_eq_none (by simp [hen.1]))
  | hook t =>
    have hnone := h.sampled_eq_none (t := t) (by simp [hen.1])
    simp only [Socket.next]
    split
    · exact (h.setClosing (.refl s) rfl (fun hc => by cases hc) fun _ hev => by cases hev).setCall
        (.refl _) rfl hnone
    · exact h.setCall (.refl s) rfl hnone
  | hookDone t =>
    exact (h.setClosing (.refl s) rfl (fun hc => by cases hc) fun _ hev => by cases hev).setCall
      (.refl _) rfl (h.sampled_eq_none (by simp [hen.1]))
  | announce t o =>
    exact h.setCall ⟨⟨rfl, rfl, rfl⟩, rfl, rfl, rfl, rfl, rfl, rfl, rfl, rfl⟩ rfl
      (h.sampled_eq_none (by simp [hen.1]))
  | ret t => exact h.setCall (.refl s) rfl (h.sampled_eq_none (by simp [hen.1]))
  | close c => exact h.closeStep hk c
  | _ => exact h.of_same ⟨⟨rfl, rfl, rfl⟩, rfl, rfl, rfl, rfl, rfl, rfl, rfl, rfl⟩ rfl

end Paced

theorem paced_of_reach (h : (socket cfg).Reach s) : Paced s :=
  h.invariant
    ⟨fun _ hx => absurd hx List.not_mem_nil, fun _ _ ht => absurd ht (by simp [socket, Call.start]),
      fun _ hc => absurd hc (by simp [socket, ClosePc.cleared]),
      fun _ _ hc => absurd hc (by simp [socket]), fun _ hc => absurd hc List.not_mem_nil,
      List.Pairwise.nil⟩
    fun _ _ hr hs _ hen => hs.next (known_of_reach hr) (locked_of_reach hr) hen

/-! ## From one state to a later one -/

/-- The transitions committed of a pipe. -/
def State.commitsOf (s : State σ) (x : Pipe) : List Commit := s.commits.filter (·.pipe = x)

/-- **What only advances**, of every pipe made. -/
structure Advances (s s' : State σ) : Prop where
  coll : s.coll.Advances s'.coll
  refs : ∀ x ∈ s.made, x.handle.ref < s.coll.made
  made : ∀ x ∈ s.made, x ∈ s'.made
  known : ∀ x ∈ s.made, (s.objs x.obj).lastKnown.rank ≤ (s'.objs x.obj).lastKnown.rank
  ended : ∀ x ∈ s.made, (s.objs x.obj).lastKnown = .remPost → s'.commitsOf x = s.commitsOf x

namespace Advances

variable {s'' : State σ}

theorem refl (hk : Known s) : Advances s s :=
  ⟨.refl _, hk.refs, fun _ hx => hx, fun _ _ => Nat.le_refl _, fun _ _ _ => rfl⟩

theorem removed (h : Advances s s') {x : Pipe} (hx : x ∈ s.made)
    (hrem : (s.objs x.obj).lastKnown = .remPost) : (s'.objs x.obj).lastKnown = .remPost := by
  have hle := h.known x hx
  rw [hrem] at hle
  exact PipeEv.eq_remPost hle

theorem trans (h : Advances s s') (h' : Advances s' s'') : Advances s s'' := by
  refine ⟨h.coll.trans h'.coll, h.refs, fun x hx => h'.made x (h.made x hx), fun x hx => ?_,
    fun x hx hrem => ?_⟩
  · exact Nat.le_trans (h.known x hx) (h'.known x (h.made x hx))
  · rw [h'.ended x (h.made x hx) (h.removed hx hrem)]
    exact h.ended x hx hrem

/-- Nothing but the handles moves. -/
theorem of_known (hk : Known s) (hcoll : s.coll.Advances s'.coll) (hmade : s'.made = s.made)
    (hknown : ∀ n, (s'.objs n).lastKnown = (s.objs n).lastKnown)
    (hcommits : s'.commits = s.commits) : Advances s s' :=
  ⟨hcoll, hk.refs, fun _ hx => hmade ▸ hx, fun x _ => Nat.le_of_eq (by rw [hknown]),
    fun _ _ _ => by rw [State.commitsOf, hcommits]; rfl⟩

theorem commit (hk : Known s) {x : Pipe} {new : PipeEv} (hx : x ∈ s.made)
    (hb : (s.objs x.obj).lastKnown.Behind new) : Advances s (s.commit x new) := by
  refine ⟨.refl _, hk.refs, fun _ hy => hy, fun y hy => ?_, fun y hy hrem => ?_⟩
  · by_cases hyx : y = x
    · subst hyx
      rw [objs_commit_self]
      exact PipeFields.rank_le_handleStatusChange hb
    · exact Nat.le_of_eq (by rw [objs_commit_of_ne fun hobj => hyx (hk.distinct y hy x hx hobj)])
  · unfold State.commitsOf State.commit
    rw [List.filter_append]
    split
    · -- a pipe removed does not move, so the commit is another's
      rename_i hmoves
      have hne : x ≠ y := by
        rintro rfl
        exact hmoves.2 hrem
      simp [hne]
    · simp

theorem next (hk : Known s) (hp : Paced s) {a : Act} (hen : Enabled s a) :
    Advances s (Socket.next cfg s a) := by
  cases a with
  | event p ev =>
    have ha := (@PipeCollection.Tracks.handleEvent _ _ (cfg.nng p) p ev hk.tracks).2
    simp only [Socket.next]
    split
    · exact of_known hk ha rfl (fun _ => rfl) rfl
    · exact of_known hk (.refl _) rfl (fun _ => rfl) rfl
  | setCallback obj set =>
    refine of_known hk (.refl _) rfl (fun n => ?_) rfl
    by_cases hn : n = obj
    · subst hn; simp [Socket.next]
    · simp [Socket.next, hn]
  | closePipe n x =>
    have hc := @commit _ s hk x .remPost hen.1 (Or.inr (PipeEv.rank_le _))
    exact ⟨hc.coll, hc.refs, hc.made, hc.known, hc.ended⟩
  | check t =>
    simp only [Socket.next]
    split
    · exact of_known hk (PipeCollection.sameHandles_hadEvents _).advances rfl (fun _ => rfl) rfl
    · exact of_known hk (.refl _) rfl (fun _ => rfl) rfl
  | create t =>
    simp only [Socket.next]
    split
    · exact refl hk
    · refine ⟨.refl _, hk.refs, fun x hx => List.mem_append_left _ hx, fun x hx => ?_,
        fun _ _ _ => rfl⟩
      simp [State.setCall, Nat.ne_of_lt (hk.below x hx)]
  | read t =>
    simp only [Socket.next]
    split
    · rename_i x xs ev htodo hev
      obtain ⟨-, y, ys, htodo', -, hb⟩ := hp.sampled t ev hev
      obtain ⟨rfl, rfl⟩ := List.cons.inj (htodo.symm.trans htodo')
      have hc := commit hk (hk.mem_todo (by rw [htodo]; exact List.mem_cons_self)) hb
      exact ⟨hc.coll, hc.refs, hc.made, hc.known, hc.ended⟩
    · exact refl hk
  | hook t => simp only [Socket.next]; split <;> exact of_known hk (.refl _) rfl (fun _ => rfl) rfl
  | close c =>
    cases hpc : (s.closing c).pc <;> simp only [Socket.next, closeStep, hpc]
    case locked => split <;> exact of_known hk (.refl _) rfl (fun _ => rfl) rfl
    case pipesCleared => exact of_known hk hk.tracks.clear.2.1 rfl (fun _ => rfl) rfl
    case closed =>
      split
      · exact of_known hk (.refl _) rfl (fun _ => rfl) rfl
      · exact of_known hk (.refl _) rfl (fun _ => rfl) rfl
      · rename_i x xs ev hxs hev
        obtain rfl := hp.told c ev hev
        have hc := @commit _ s hk x .remPost
          (hk.closing c x (by rw [hxs]; exact List.mem_cons_self)) (Or.inr (PipeEv.rank_le _))
        exact ⟨hc.coll, hc.refs, hc.made, hc.known, hc.ended⟩
    all_goals exact of_known hk ⟨Nat.le_refl _, fun _ _ => Nat.le_refl _⟩ rfl (fun _ => rfl) rfl
  | _ => exact of_known hk (.refl _) rfl (fun _ => rfl) rfl

end Advances

theorem advances_of_leads (hr : (socket cfg).Reach s) (h : (socket cfg).Leads s s') :
    Advances s s' :=
  h.relates (fun _ hs => .refl (known_of_reach hs)) (fun _ _ _ h h' => h.trans h')
    (fun _ _ hs hen => Advances.next (known_of_reach hs) (paced_of_reach hs) hen) hr

/-- `Pipe.status`, which reads `_last_known_status` in one state and the
handle's status in a later one: no lock is held. -/
def readStatus (first later : State σ) (x : Pipe) : PipeEv :=
  if (first.objs x.obj).lastKnown = .remPost then .remPost else later.coll.status x.handle.ref

/-- A list in increasing order between two bounds is no longer than the gap. -/
theorem length_le_of_increasing {α : Type} {f : α → ℕ} {l : List α} {lo hi : ℕ}
    (h : l.Pairwise fun a b => f a < f b) (hlo : ∀ a ∈ l, lo ≤ f a) (hhi : ∀ a ∈ l, f a < hi) :
    l.length ≤ hi - lo := by
  induction l generalizing lo with
  | nil => exact Nat.zero_le _
  | cons a l ih =>
    obtain ⟨hfirst, hrest⟩ := List.pairwise_cons.mp h
    have hlen := @ih (f a + 1) hrest hfirst fun b hb => hhi b (List.mem_cons_of_mem _ hb)
    have ha := hlo a List.mem_cons_self
    have ha' := hhi a List.mem_cons_self
    rw [List.length_cons]
    omega

/-- **What `handle_status_change` has returned of a pipe.** -/
structure CommittedOnce (s : State σ) (x : Pipe) : Prop where
  /-- Each transition is committed once, and so its callback is returned once. -/
  once : ∀ ev, ((s.commitsOf x).filter (·.status = ev)).length ≤ 1
  /-- The callback is returned twice at most. -/
  twice : ((s.commitsOf x).filter (·.callback)).length ≤ 2
  /-- Nothing is committed after `REMOVED`. -/
  last : ∀ before c after, s.commitsOf x = before ++ c :: after → c.status = .remPost → after = []

theorem committedOnce (hp : Paced s) (x : Pipe) : CommittedOnce s x := by
  have hmem : ∀ c ∈ s.commitsOf x, c.pipe = x ∧ 2 ≤ c.status.rank := fun c hc => by
    obtain ⟨hc, hx⟩ := List.mem_filter.mp hc
    exact ⟨of_decide_eq_true hx, (hp.commits c hc).1⟩
  have hpair : (s.commitsOf x).Pairwise fun c d => c.status.rank < d.status.rank :=
    (hp.once.filter _).imp_of_mem fun {c d} hc hd hcd =>
      hcd ((hmem c hc).1.trans (hmem d hd).1.symm)
  refine ⟨fun ev => ?_, ?_, fun before c after hsplit hc => ?_⟩
  · refine Nat.le_trans (@length_le_of_increasing _ _ _ ev.rank (ev.rank + 1) (hpair.filter _)
      (fun c hc => ?_) fun c hc => ?_) (by omega)
    all_goals
      have hst : c.status = ev := of_decide_eq_true (List.mem_filter.mp hc).2
      have hrank : c.status.rank = ev.rank := congrArg PipeEv.rank hst
      omega
  · -- there are two statuses to commit
    refine @length_le_of_increasing _ _ _ 2 4 (hpair.filter _) (fun c hc => ?_) fun c hc => ?_
    · exact (hmem c (List.mem_filter.mp hc).1).2
    · have := PipeEv.rank_le c.status
      omega
  · rw [hsplit] at hpair
    cases after with
    | nil => rfl
    | cons d after =>
      have hlt := (List.pairwise_cons.mp (List.pairwise_append.mp hpair).2.1).1 d List.mem_cons_self
      rw [hc] at hlt
      exact absurd hlt (Nat.not_lt.mpr (PipeEv.rank_le _))

/-- **The status of a pipe only advances.** In every run, between any two
readings of `Pipe.status` one after the other, of any pipe made by then:
the second is not behind the first, `_last_known_status` has not gone
back, and `handle_status_change` has returned the callback as
`CommittedOnce` says and, once `REMOVED` is known, no more. -/
theorem status_advances (cfg : Config σ) {s₁ s₂ s₃ s₄ : State σ} (hr : (socket cfg).Reach s₁)
    (h₁₂ : (socket cfg).Leads s₁ s₂) (h₂₃ : (socket cfg).Leads s₂ s₃)
    (h₃₄ : (socket cfg).Leads s₃ s₄) {x : Pipe} (hx : x ∈ s₁.made) :
    (readStatus s₁ s₂ x).rank ≤ (readStatus s₃ s₄ x).rank ∧
      (s₁.objs x.obj).lastKnown.rank ≤ (s₂.objs x.obj).lastKnown.rank ∧
      CommittedOnce s₁ x ∧
      ((s₁.objs x.obj).lastKnown = .remPost → s₂.commitsOf x = s₁.commitsOf x) := by
  have ha₁₂ := advances_of_leads hr h₁₂
  have ha₂₃ := advances_of_leads (h₁₂.reach hr) h₂₃
  have ha₃₄ := advances_of_leads (h₂₃.reach (h₁₂.reach hr)) h₃₄
  have ha₁₃ := ha₁₂.trans ha₂₃
  have ha₂₄ := ha₂₃.trans ha₃₄
  refine ⟨?_, ha₁₂.known x hx, committedOnce (paced_of_reach hr) x, ha₁₂.ended x hx⟩
  unfold readStatus
  by_cases hrem : (s₃.objs x.obj).lastKnown = .remPost
  · rw [if_pos hrem]
    exact PipeEv.rank_le _
  · have hnot : (s₁.objs x.obj).lastKnown ≠ .remPost := fun h₁ => hrem (ha₁₃.removed hx h₁)
    rw [if_neg hrem, if_neg hnot]
    exact ha₂₄.coll.status _ (ha₂₄.refs x (ha₁₂.made x hx))

/-- A listener without a filter. -/
def plainListener : Config Unit where
  nng := fun _ => { peerAddr := .other 1, peerPid := -1, dialer := 0, listener := 1 }
  filter := none
  objects := ()
  onNewPipe := false
  closeOnDisconnect := false

/-- The first `Pipe` object it makes, of pipe 1. -/
def firstMade : Pipe := ⟨0, { ref := 0, id := 1, nng := plainListener.nng 1 }⟩

/-- Pipe 1 is seen as it comes. -/
def seenAdding : List Act :=
  [.event 1 .addPre, .push, .enter 0, .acquire 0, .check 0, .snapshot 0, .create 0, .assign 0,
    .unlock 0, .ret 0, .setCallback 0 true]

/-- It becomes active, and `update_pipes` commits that. -/
def committedActive : List Act :=
  [.event 1 .addPost, .push, .enter 0, .acquire 0, .check 0, .snapshot 0, .assign 0, .sample 0,
    .read 0, .unlock 0]

/-- A user thread closes the pipe while the callback is still to be called. -/
theorem status_advances_closed :
    let s := (socket plainListener).final (socket plainListener).init
    let as := seenAdding ++ committedActive
    (readStatus (s as) (s as) firstMade).rank ≤
        (readStatus (s (as ++ [.closePipe 0 firstMade])) (s (as ++ [.closePipe 0 firstMade]))
          firstMade).rank ∧
      ((s as).objs 0).lastKnown.rank ≤ ((s as).objs 0).lastKnown.rank ∧
      CommittedOnce (s as) firstMade ∧
      (((s as).objs 0).lastKnown = .remPost →
        (s as).commitsOf firstMade = (s as).commitsOf firstMade) := by
  intro s as
  have hr : (socket plainListener).Reach (s as) := Machine.reach_final (by decide)
  have hleads : (socket plainListener).Leads (s as) (s (as ++ [.closePipe 0 firstMade])) :=
    Machine.leads_final_append (by decide)
  exact status_advances plainListener hr (.refl _ _) hleads (.refl _ _) (x := firstMade) (by decide)

end Socket

end PyNng
