import PyNng.Socket.Shadow
/-!
# Socket — which `Pipe` objects the list has, and where the others went

A `Pipe` outlives its place in `_pipes`: user code may hold it. Of every
`Pipe` ever made this says where it stands. Its handle is in the
collection, and then it is the one the list has, or gets from the call
that is creating it; or its handle was let go, by the pipe's `REM_POST` or
by a `close`. A `close` drops the list a moment before it clears the
collection, and a pipe event may bring a pipe back into the collection
afterwards, under a new handle; so a number is kept, and the objects with
smaller numbers are the ones a `close` has dropped.
-/

namespace PyNng

namespace Socket

variable {σ : Type} {cfg : Config σ} {s s' : State σ} {dropped : ℕ}

/-- In `_pipes`, or created by a call that has still to assign it. -/
def State.Listed (s : State σ) (x : Pipe) : Prop :=
  x ∈ s.pipes ∨ ∃ t, (s.calls t).pc = .creating ∧ x ∈ (s.calls t).fresh

/-- nng has brought the pipe up: it may carry messages, and was not refused. -/
def Arrived (s : State σ) (p : ℕ) : Prop := s.stage p ≠ .unborn ∧ s.stage p ≠ .refused

instance (s : State σ) (p : ℕ) : Decidable (Arrived s p) := inferInstanceAs (Decidable (_ ∧ _))

/-- How many objects had been made when a `close` last dropped `_pipes`. -/
def droppedAfter (s : State σ) (dropped : ℕ) : Act → ℕ
  | .close c => if (s.closing c).pc = .locked ∧ s.isOpen = true then s.created else dropped
  | _ => dropped

/-- **What became of every `Pipe` made.** -/
structure Accounted (s : State σ) (dropped : ℕ) : Prop where
  born : ∀ x ∈ s.made, s.stage x.id ≠ .unborn
  inside : ∀ x ∈ s.made, x.handle ∈ s.coll.pipes ∨
    s.coll.status x.handle.ref = .remPost ∧ (s.removed x.id = true ∨ x.obj < dropped)
  handles : ∀ t, (s.calls t).pc = .creating → ∀ h ∈ (s.calls t).handles, h ∈ s.coll.pipes ∨
    s.coll.status h.ref = .remPost ∧ s.removed h.id = true
  still : ∀ t, (s.calls t).pc = .creating → ∀ x ∈ (s.calls t).still, x ∈ s.pipes
  bound : dropped ≤ s.created
  /-- Nothing is made between the two clears of a `close`. -/
  window : ∀ c, (s.closing c).pc = .pipesCleared → s.created ≤ dropped
  listed : ∀ x ∈ s.made, x.handle ∈ s.coll.pipes →
    s.Listed x ∨ ∃ c, (s.closing c).pc = .pipesCleared
  since : ∀ x, s.Listed x → dropped ≤ x.obj

/-! ## Steps that leave the account alone -/

/-- The two states have the same objects, in the same places. -/
structure SameAccount (s s' : State σ) : Prop where
  coll : s.coll.SameHandles s'.coll
  created : s'.created = s.created
  made : s'.made = s.made
  pipes : s'.pipes = s.pipes
  removed : s'.removed = s.removed
  stage : ∀ q, s.stage q ≠ .unborn → s'.stage q ≠ .unborn
  creating : ∀ t, (s'.calls t).pc = .creating ∨ (s.calls t).pc = .creating →
    s'.calls t = s.calls t
  window : ∀ c, (s'.closing c).pc = .pipesCleared ↔ (s.closing c).pc = .pipesCleared

theorem SameAccount.listed_iff (hs : SameAccount s s') {x : Pipe} : s'.Listed x ↔ s.Listed x := by
  unfold State.Listed
  rw [hs.pipes]
  refine or_congr_right ⟨fun ⟨t, ht, hx⟩ => ?_, fun ⟨t, ht, hx⟩ => ?_⟩
  · have hsame := hs.creating t (Or.inl ht)
    exact ⟨t, by rw [← hsame]; exact ht, by rw [← hsame]; exact hx⟩
  · have hsame := hs.creating t (Or.inr ht)
    exact ⟨t, by rw [hsame]; exact ht, by rw [hsame]; exact hx⟩

namespace Accounted

theorem of_same (h : Accounted s dropped) (hs : SameAccount s s') : Accounted s' dropped where
  born := by rw [hs.made]; exact fun x hx => hs.stage _ (h.born x hx)
  inside := by rw [hs.made, hs.coll.pipes, hs.coll.status, hs.removed]; exact h.inside
  handles := fun t ht => by
    rw [hs.creating t (Or.inl ht), hs.coll.pipes, hs.coll.status, hs.removed]
    exact h.handles t (by rw [← hs.creating t (Or.inl ht)]; exact ht)
  still := fun t ht => by
    rw [hs.creating t (Or.inl ht), hs.pipes]
    exact h.still t (by rw [← hs.creating t (Or.inl ht)]; exact ht)
  bound := by rw [hs.created]; exact h.bound
  window := fun c hc => by rw [hs.created]; exact h.window c ((hs.window c).mp hc)
  listed := fun x hx hin => by
    rw [hs.made] at hx
    rw [hs.coll.pipes] at hin
    rw [hs.listed_iff]
    exact (h.listed x hx hin).imp_right fun ⟨c, hc⟩ => ⟨c, (hs.window c).mpr hc⟩
  since := fun x hx => h.since x (hs.listed_iff.mp hx)

end Accounted

/-- A call moves that is not creating. -/
theorem SameAccount.setCall (hs : SameAccount s s') {t : ℕ} {call : Call}
    (hpc : (s.calls t).pc ≠ .creating) (hcall : call.pc ≠ .creating) :
    SameAccount s (State.setCall t call s') := by
  refine ⟨hs.coll, hs.created, hs.made, hs.pipes, hs.removed, hs.stage, fun u hu => ?_,
    hs.window⟩
  by_cases hut : u = t
  · subst hut
    rcases hu with hu | hu
    · exact absurd hu (by simpa [State.setCall] using hcall)
    · exact absurd hu hpc
  · simp only [State.setCall, Function.update_of_ne hut] at hu ⊢
    exact hs.creating u hu

/-- A run of `close` moves, not to or from the moment between its two clears. -/
theorem SameAccount.setClosing (hs : SameAccount s s') {c : Closer} {run : CloseRun}
    (hpc : (s.closing c).pc ≠ .pipesCleared) (hrun : run.pc ≠ .pipesCleared) :
    SameAccount s (State.setClosing c run s') := by
  refine ⟨hs.coll, hs.created, hs.made, hs.pipes, hs.removed, hs.stage, hs.creating, fun d => ?_⟩
  by_cases hdc : d = c
  · subst hdc
    simp [State.setClosing, hpc, hrun]
  · simp only [State.setClosing, Function.update_of_ne hdc]
    exact hs.window d

theorem Accounted.moveCall (h : Accounted s dropped) {t : ℕ} {call : Call}
    (hs : SameAccount s s') (hpc : (s.calls t).pc ≠ .creating) (hcall : call.pc ≠ .creating) :
    Accounted (State.setCall t call s') dropped :=
  h.of_same (hs.setCall hpc hcall)

theorem Accounted.setClosing (h : Accounted s dropped) {c : Closer} {run : CloseRun}
    (hs : SameAccount s s') (hpc : (s.closing c).pc ≠ .pipesCleared)
    (hrun : run.pc ≠ .pipesCleared) : Accounted (State.setClosing c run s') dropped :=
  h.of_same (hs.setClosing hpc hrun)

theorem SameAccount.refl (s : State σ) : SameAccount s s :=
  ⟨⟨rfl, rfl, rfl⟩, rfl, rfl, rfl, rfl, fun _ hq => hq, fun _ _ => rfl, fun _ => Iff.rfl⟩

/-- The steps that spare the pipes, but for what they know of them. -/
theorem sameAccount_of_spares (cfg : Config σ) {a : Act} (hen : Enabled s a)
    (ha : a.sparesPipes = true) : SameAccount s (next cfg s a) := by
  have hs := sparesPipes_next cfg hen ha
  have hrest : (next cfg s a).created = s.created ∧ (next cfg s a).made = s.made ∧
      (next cfg s a).removed = s.removed := by
    cases a with
    | event | check | snapshot | create | assign | hook | hookDone | close => cases ha
    | read t => simp only [next]; split <;> exact ⟨rfl, rfl, rfl⟩
    | _ => exact ⟨rfl, rfl, rfl⟩
  refine ⟨by rw [hs.coll]; exact ⟨rfl, rfl, rfl⟩, hrest.1, hrest.2.1, hs.pipes, hrest.2.2,
    by rw [hs.stage]; exact fun _ hq => hq, fun t ht => ?_,
    by rw [hs.closing]; exact fun _ => Iff.rfl⟩
  rcases ht with ht | ht
  · exact hs.creating ht
  · rcases hs.calls t with hsame | ⟨hclean, -⟩
    · exact hsame
    · rw [ht] at hclean
      cases hclean

/-! ## Pipe events -/

/-- A made pipe's handle does not come back to the collection. -/
theorem Accounted.mem_of_advances (h : Accounted s dropped) (hk : Known s)
    {coll : PipeCollection σ} (ht : coll.Tracks) (ha : s.coll.Advances coll) {x : Pipe}
    (hx : x ∈ s.made) (hin : x.handle ∈ coll.pipes) : x.handle ∈ s.coll.pipes := by
  rcases h.inside x hx with hin' | ⟨hgone, -⟩
  · exact hin'
  · exact absurd (ha.remPost (hk.refs x hx) hgone) (ht.ne_remPost hin)

/-- What an event leaves of a handle in the collection. -/
theorem Shadowed.kept_or_removed (h : Shadowed s) (hk : Known s) {p : ℕ} {ev : PipeEv}
    (hen : Delivers s p ev) {y : PipeHandle} (hy : y ∈ s.coll.pipes) :
    y ∈ (handle cfg s p ev).coll.pipes ∨
      (handle cfg s p ev).coll.status y.ref = .remPost ∧
        (handle cfg s p ev).removed y.id = true := by
  refine (h.kept_or_left hk hen hy).imp_right fun ⟨hev, hyp, hleft⟩ => ⟨hleft.removed, ?_⟩
  simp [Socket.handle, hev, hyp]

/-- A pipe removed stays so. -/
theorem removed_handle {p q : ℕ} {ev : PipeEv} (hq : s.removed q = true) :
    (handle cfg s p ev).removed q = true := by
  by_cases hqp : q = p
  · subst hqp; simp [handle, hq]
  · simpa [handle, hqp] using hq

theorem Accounted.event (h : Accounted s dropped) (hsh : Shadowed s) (hk : Known s) {p : ℕ}
    {ev : PipeEv} (hen : Delivers s p ev) : Accounted (next cfg s (.event p ev)) dropped := by
  have hstage := @born_event _ cfg _ _ _ hen
  cases hn : s.notify ev with
  | false =>
    rw [next_event_of_not_notify hn]
    exact h.of_same ⟨⟨rfl, rfl, rfl⟩, rfl, rfl, rfl, rfl, hstage, fun _ _ => rfl,
      fun _ => Iff.rfl⟩
  | true =>
    rw [next_event_of_notify hn]
    obtain ⟨htr, ha⟩ := @PipeCollection.Tracks.handleEvent _ _ (cfg.nng p) p ev hk.tracks
    refine ⟨fun x hx => hstage _ (h.born x hx), fun x hx => ?_, fun t ht y hy => ?_, h.still,
      h.bound, h.window, fun x hx hin => h.listed x hx (h.mem_of_advances hk htr ha hx hin),
      h.since⟩
    · rcases h.inside x hx with hin | ⟨hgone, hwhy⟩
      · exact (hsh.kept_or_removed hk hen hin).imp_right fun hr => ⟨hr.1, Or.inl hr.2⟩
      · exact Or.inr ⟨ha.remPost (hk.refs x hx) hgone, hwhy.imp_left removed_handle⟩
    · rcases h.handles t ht y hy with hin | ⟨hgone, hwhy⟩
      · exact hsh.kept_or_removed hk hen hin
      · exact Or.inr ⟨ha.remPost (hk.handles t y hy) hgone, removed_handle hwhy⟩

/-! ## The locked section -/

/-- While a call is inside the locked section, no `close` is between its clears. -/
theorem Locked.not_pipesCleared (hl : Locked s) {t : ℕ} (ht : (s.calls t).pc.holds = true)
    (c : Closer) : (s.closing c).pc ≠ .pipesCleared := by
  intro hc
  have hh : s.holds (.closer c) = true := by simp [State.holds, hc, ClosePc.holds]
  cases hl.eq_of_holds (h := .call t) ht hh

/-- Outside the stretch that creates pipes, what is listed is in the list. -/
theorem State.listed_iff_mem (hno : ∀ t, (s.calls t).pc ≠ .creating) {x : Pipe} :
    s.Listed x ↔ x ∈ s.pipes :=
  or_iff_left fun ⟨t, ht, _⟩ => hno t ht

/-- A pipe that a call is to make was brought up. -/
theorem Shadowed.born_of_goal (hsh : Shadowed s) {t : ℕ} (ht : (s.calls t).pc = .creating)
    {y : PipeHandle} (hy : y ∈ (s.calls t).goal) : s.stage y.id ≠ .unborn := by
  rcases (hsh.assembling t ht).goal.inside y hy with hin | hleft
  · exact hsh.born _ (List.mem_map_of_mem hin)
  · rw [hleft.gone]
    exact fun hc => Stage.noConfusion hc

/-- **What is made is listed**: the call in the locked section has it. -/
theorem listed_create (hl : Locked s) {t : ℕ} (hpc : (s.calls t).pc = .creating) {y : PipeHandle}
    {ys : List PipeHandle} (hh : (s.calls t).handles = y :: ys) (x : Pipe) :
    (next cfg s (.create t)).Listed x ↔ s.Listed x ∨ x = ⟨s.created, y⟩ := by
  have hin : (s.calls t).pc.holds = true := by rw [hpc]; rfl
  simp only [next, hh]
  constructor
  · rintro (hx | ⟨u, hu, hx⟩)
    · exact Or.inl (Or.inl hx)
    · by_cases hut : u = t
      · subst hut
        simp only [State.setCall, Function.update_self] at hx
        exact (List.mem_append.mp hx).imp (fun hx => Or.inr ⟨u, hpc, hx⟩) List.mem_singleton.mp
      · simp only [State.setCall, Function.update_of_ne hut] at hu hx
        exact Or.inl (Or.inr ⟨u, hu, hx⟩)
  · have hnew : ∀ z ∈ (s.calls t).fresh ++ [(⟨s.created, y⟩ : Pipe)],
        State.Listed (State.setCall t
          { s.calls t with handles := ys, fresh := (s.calls t).fresh ++ [⟨s.created, y⟩] } s) z :=
      fun z hz =>
        Or.inr ⟨t, by simpa [State.setCall] using hpc, by simpa [State.setCall] using hz⟩
    rintro ((hx | ⟨u, hu, hx⟩) | rfl)
    · exact Or.inl hx
    · obtain rfl := hl.eq_of_creating hin hu
      exact hnew x (List.mem_append_left _ hx)
    · exact hnew _ (List.mem_append_right _ List.mem_cons_self)

namespace Accounted

/-- **The snapshot** is of handles the collection has. -/
theorem snapshot (h : Accounted s dropped) (hl : Locked s) {t : ℕ}
    (hpc : (s.calls t).pc = .snapshotting) : Accounted (next cfg s (.snapshot t)) dropped := by
  have hin : (s.calls t).pc.holds = true := by rw [hpc]; rfl
  have hno : ∀ u, (s.calls u).pc ≠ .creating := fun u hu => by
    rw [← hl.eq_of_creating hin hu, hu] at hpc
    cases hpc
  obtain ⟨hstill, hhandles⟩ := greedyMatch_subset Pipe.id PipeHandle.id s.pipes s.coll.pipes
  have hlisted : ∀ x, (next cfg s (.snapshot t)).Listed x ↔ s.Listed x := by
    intro x
    rw [State.listed_iff_mem hno]
    refine or_iff_left fun ⟨u, hu, hx⟩ => ?_
    by_cases hut : u = t
    · subst hut
      simp [next, State.setCall] at hx
    · simp only [next, State.setCall, Function.update_of_ne hut] at hu
      exact hno u hu
  refine ⟨h.born, h.inside,
    @forall_setCall _ s t _ (fun c => c.pc = .creating → ∀ y ∈ c.handles, y ∈ s.coll.pipes ∨
      s.coll.status y.ref = .remPost ∧ s.removed y.id = true)
      (fun _ y hy => Or.inl (hhandles y hy)) h.handles,
    @forall_setCall _ s t _ (fun c => c.pc = .creating → ∀ x ∈ c.still, x ∈ s.pipes)
      (fun _ => hstill) h.still,
    h.bound, h.window, fun x hx hxin => ?_, fun x hx => h.since x ((hlisted x).mp hx)⟩
  rw [hlisted]
  exact h.listed x hx hxin

/-- **A pipe is made**, and listed. -/
theorem create (h : Accounted s dropped) (hsh : Shadowed s) (hl : Locked s) {t : ℕ}
    (hpc : (s.calls t).pc = .creating) : Accounted (next cfg s (.create t)) dropped := by
  have hin : (s.calls t).pc.holds = true := by rw [hpc]; rfl
  cases hh : (s.calls t).handles with
  | nil => simpa only [next, hh] using h
  | cons y ys =>
    have hmade : ∀ x, x ∈ s.made ++ [(⟨s.created, y⟩ : Pipe)] →
        x ∈ s.made ∨ x = ⟨s.created, y⟩ := fun x hx =>
      (List.mem_append.mp hx).imp_right List.mem_singleton.mp
    have hy := h.handles t hpc y (by rw [hh]; exact List.mem_cons_self)
    have hborn := hsh.born_of_goal hpc (y := y) (by simp [Call.goal, hh])
    have hlisted := @listed_create _ cfg _ hl _ hpc _ _ hh
    have hwin : ∀ c, (s.closing c).pc ≠ .pipesCleared := hl.not_pipesCleared hin
    refine ⟨fun x hx => ?_, fun x hx => ?_, ?_, ?_, ?_, fun c hc => ?_, fun x hx hxin => ?_,
      fun x hx => ?_⟩
    · simp only [next, hh] at hx ⊢
      rcases hmade x hx with hx | rfl
      · exact h.born x hx
      · exact hborn
    · simp only [next, hh] at hx ⊢
      rcases hmade x hx with hx | rfl
      · exact h.inside x hx
      · exact hy.imp_right fun hr => ⟨hr.1, Or.inl hr.2⟩
    · simp only [next, hh]
      refine forall_setCall (P := fun c => c.pc = .creating → ∀ z ∈ c.handles, z ∈ s.coll.pipes ∨
        s.coll.status z.ref = .remPost ∧ s.removed z.id = true) (fun _ z hz => ?_) h.handles
      exact h.handles t hpc z (by rw [hh]; exact List.mem_cons_of_mem _ hz)
    · simp only [next, hh]
      exact forall_setCall (P := fun c => c.pc = .creating → ∀ z ∈ c.still, z ∈ s.pipes)
        (fun _ => h.still t hpc) h.still
    · simp only [next, hh]
      exact Nat.le_succ_of_le h.bound
    · simp only [next, hh] at hc
      exact absurd hc (hwin c)
    · rw [hlisted]
      simp only [next, hh] at hx hxin
      rcases hmade x hx with hx | rfl
      · rcases h.listed x hx hxin with hx | ⟨c, hc⟩
        · exact Or.inl (Or.inl hx)
        · exact absurd hc (hwin c)
      · exact Or.inl (Or.inr rfl)
    · rcases (hlisted x).mp hx with hx | rfl
      · exact h.since x hx
      · exact h.bound

/-- **The assignment** loses no pipe whose handle is in the collection. -/
theorem assign (h : Accounted s dropped) (hsh : Shadowed s) (hk : Known s) (hl : Locked s) {t : ℕ}
    (hpc : (s.calls t).pc = .creating) : Accounted (next cfg s (.assign t)) dropped := by
  have hin : (s.calls t).pc.holds = true := by rw [hpc]; rfl
  have hno : ∀ u, ((next cfg s (.assign t)).calls u).pc ≠ .creating :=
    not_creating_setCall hl rfl hin (by simp)
  refine ⟨h.born, h.inside, fun u hu => absurd hu (hno u), fun u hu => absurd hu (hno u), h.bound,
    h.window, fun x hx hxin => ?_, fun x hx => ?_⟩
  · rw [State.listed_iff_mem hno]
    rcases h.listed x hx hxin with (hold | ⟨u, hu, hnew⟩) | ⟨c, hc⟩
    · have hstill := (hsh.assembling t hpc).mem_still hk.tracks hold hxin
      exact Or.inl (List.mem_append_left _ hstill)
    · obtain rfl := hl.eq_of_creating hin hu
      exact Or.inl (List.mem_append_right _ hnew)
    · exact absurd hc (hl.not_pipesCleared hin c)
  · rw [State.listed_iff_mem hno] at hx
    rcases List.mem_append.mp hx with hx | hx
    · exact h.since x (Or.inl (h.still t hpc x hx))
    · exact h.since x (Or.inr ⟨t, hpc, hx⟩)

/-- **The clears**: the list is dropped, and next the handles are let go. -/
theorem closeStep (h : Accounted s dropped) (hk : Known s) (hl : Locked s) (c : Closer) :
    Accounted (closeStep s c) (droppedAfter s dropped (.close c)) := by
  have hno : (s.closing c).pc.holds = true → ∀ t, (s.calls t).pc ≠ .creating := fun hc =>
    hl.not_creating hc
  have hsame : (s.closing c).pc ≠ .locked → droppedAfter s dropped (.close c) = dropped :=
    fun hne => if_neg fun hc => hne hc.1
  cases hpc : (s.closing c).pc with
  | locked =>
    cases ho : s.isOpen with
    | true =>
      have hno' := hno (by rw [hpc]; rfl)
      simp only [Socket.closeStep, hpc, ho, if_true, droppedAfter, and_self]
      refine ⟨h.born, fun x hx => ?_, fun t ht => absurd ht (hno' t),
        fun t ht => absurd ht (hno' t), Nat.le_refl _, fun _ _ => Nat.le_refl _,
        fun x hx hxin => Or.inr ⟨c, ?_⟩, fun x hx => ?_⟩
      · exact (h.inside x hx).imp_right fun hr => ⟨hr.1, Or.inr (hk.below x hx)⟩
      · simp [State.setClosing]
      · rcases hx with hx | ⟨t, ht, -⟩
        · exact absurd hx List.not_mem_nil
        · exact absurd ht (hno' t)
    | false =>
      simp only [Socket.closeStep, hpc, ho, droppedAfter, Bool.false_eq_true, if_false, and_false]
      exact h.setClosing ⟨⟨rfl, rfl, rfl⟩, rfl, rfl, rfl, rfl, fun _ hq => hq, fun _ _ => rfl,
        fun _ => Iff.rfl⟩ (by simp [hpc]) (by simp)
  | pipesCleared =>
    have hno' := hno (by rw [hpc]; rfl)
    rw [hsame (by simp [hpc])]
    simp only [Socket.closeStep, hpc]
    obtain ⟨ht, ha, -⟩ := hk.tracks.clear
    refine ⟨h.born, fun x hx => Or.inr ⟨?_, Or.inr ?_⟩, fun t ht => absurd ht (hno' t),
      fun t ht => absurd ht (hno' t), h.bound, fun d hd => ?_,
      fun x hx hxin => absurd hxin List.not_mem_nil, h.since⟩
    · exact ht.gone _ (Nat.lt_of_lt_of_le (hk.refs x hx) ha.made) List.not_mem_nil
    · exact Nat.lt_of_lt_of_le (hk.below x hx) (h.window c hpc)
    · exact h.window c hpc
  | unlocked =>
    rw [hsame (by simp [hpc])]
    simp only [Socket.closeStep, hpc]
    refine h.setClosing (.refl s) (by simp [hpc]) ?_
    simp only
    split <;> simp
  | closed =>
    rw [hsame (by simp [hpc])]
    simp only [Socket.closeStep, hpc]
    split
    · exact h.setClosing (.refl s) (by simp [hpc]) (by simp)
    · exact h.setClosing (.refl s) (by simp [hpc]) (by simp)
    · exact h.setClosing ⟨⟨rfl, rfl, rfl⟩, rfl, rfl, rfl, rfl, fun _ hq => hq, fun _ _ => rfl,
        fun _ => Iff.rfl⟩ (by simp [hpc]) (by simp)
  | done =>
    rw [hsame (by simp [hpc])]
    simpa only [Socket.closeStep, hpc] using h
  | _ =>
    rw [hsame (by simp [hpc])]
    simp only [Socket.closeStep, hpc]
    exact h.setClosing ⟨⟨rfl, rfl, rfl⟩, rfl, rfl, rfl, rfl, fun _ hq => hq, fun _ _ => rfl,
      fun _ => Iff.rfl⟩ (by simp [hpc]) (by simp)

/-- **Each step keeps the account.** -/
theorem next (h : Accounted s dropped) (hsh : Shadowed s) (hk : Known s) (hl : Locked s)
    (hh : HooksIdle s) {a : Act} (hen : Enabled s a) :
    Accounted (Socket.next cfg s a) (droppedAfter s dropped a) := by
  cases a with
  | event p ev => exact h.event hsh hk hen
  | check t =>
    have hpc : (s.calls t).pc = .checking := hen
    simp only [Socket.next]
    split
    · exact h.moveCall ⟨PipeCollection.sameHandles_hadEvents _, rfl, rfl, rfl, rfl,
        fun _ hq => hq, fun _ _ => rfl, fun _ => Iff.rfl⟩ (by simp [hpc]) (by simp)
    · exact h.moveCall ⟨⟨rfl, rfl, rfl⟩, rfl, rfl, rfl, rfl, fun _ hq => hq, fun _ _ => rfl,
        fun _ => Iff.rfl⟩ (by simp [hpc]) (by simp)
  | snapshot t => exact h.snapshot hl hen
  | create t => exact h.create hsh hl hen.1
  | assign t => exact h.assign hsh hk hl hen.1
  | close c => exact h.closeStep hk hl c
  | hook t =>
    simp only [Socket.next]
    split
    · -- a hook that begins had no run of `close` before it
      have hidle := hh t (by simp [hen.1])
      have hs := @SameAccount.setClosing _ s s (.refl s) (.hook t) ⟨.locking, [], none⟩
        (by simp [hidle]) (by simp)
      exact h.moveCall hs (by simp [hen.1]) (by simp)
    · exact h.moveCall (.refl s) (by simp [hen.1]) (by simp [hen.1])
  | hookDone t =>
    have hs := @SameAccount.setClosing _ s s (.refl s) (.hook t) ⟨.idle, [], none⟩
      (by simp [hen.2]) (by simp)
    exact h.moveCall hs (by simp [hen.1]) (by simp)
  | _ => exact h.of_same (sameAccount_of_spares cfg hen rfl)

end Accounted

theorem Accounted.le_droppedAfter (h : Accounted s dropped) (a : Act) :
    dropped ≤ droppedAfter s dropped a := by
  unfold droppedAfter
  split
  · split
    · exact h.bound
    · exact Nat.le_refl _
  · exact Nat.le_refl _

/-- **What is listed after a step** was listed before it, or is just made. -/
theorem Accounted.listed_of_next (h : Accounted s dropped) {a : Act}
    (h' : Accounted (Socket.next cfg s a) (droppedAfter s dropped a)) (hk : Known s) {x : Pipe}
    (hx : x ∈ s.made) (hxin : x.handle ∈ s.coll.pipes) (hlisted : (Socket.next cfg s a).Listed x) :
    s.Listed x := by
  refine (h.listed x hx hxin).resolve_right fun ⟨c, hc⟩ => ?_
  have := h.window c hc
  have := hk.below x hx
  have := h'.since x hlisted
  have := h.le_droppedAfter a
  omega

/-! ## The one object of an open pipe -/

variable {x y : Pipe}

/-- A pipe of the list that is in the collection is taken over, so no pipe
that is being made has its id. -/
theorem Shadowed.not_mem_newIds (hsh : Shadowed s) (hk : Known s) (hx : x ∈ s.pipes)
    (hxin : x.handle ∈ s.coll.pipes) {t : ℕ} (ht : (s.calls t).pc = .creating) :
    x.id ∉ (s.calls t).newIds := by
  have hb := hsh.assembling t ht
  have hstill := hb.mem_still hk.tracks hx hxin
  have hnd := hb.goal.nodup
  rw [Call.map_id_goal] at hnd
  intro hmem
  exact (List.nodup_append.mp hnd).2.2 x.id (List.mem_map_of_mem hstill) x.id hmem rfl

/-- The ids of the pipes a call is making are all different. -/
theorem Shadowed.nodup_newIds (hsh : Shadowed s) {t : ℕ} (ht : (s.calls t).pc = .creating) :
    (s.calls t).newIds.Nodup := by
  have hnd := (hsh.assembling t ht).goal.nodup
  rw [Call.map_id_goal] at hnd
  exact (List.nodup_append.mp hnd).2.1

/-- A handle still to be made a pipe of is no listed pipe's. -/
theorem Shadowed.handle_ne_of_listed (hsh : Shadowed s) (hk : Known s) (hl : Locked s)
    (hx : s.Listed x) (hxin : x.handle ∈ s.coll.pipes) {t : ℕ} (ht : (s.calls t).pc = .creating)
    {h : PipeHandle} (hh : h ∈ (s.calls t).handles) : h.id ≠ x.id := by
  intro hid
  have hnew : h.id ∈ (s.calls t).handles.map PipeHandle.id := List.mem_map_of_mem hh
  rcases hx with hx | ⟨u, hu, hx⟩
  · exact hsh.not_mem_newIds hk hx hxin ht (by rw [← hid]; exact List.mem_append_right _ hnew)
  · obtain rfl := hl.eq_of_creating (t := t) (u := u) (by rw [ht]; rfl) hu
    exact (List.nodup_append.mp (hsh.nodup_newIds ht)).2.2 x.id (List.mem_map_of_mem hx) h.id hnew
      hid.symm

/-- **Two listed pipes of one id are one object.** -/
theorem Shadowed.eq_of_listed (hsh : Shadowed s) (hk : Known s) (hl : Locked s) (hx : s.Listed x)
    (hy : s.Listed y) (hxin : x.handle ∈ s.coll.pipes) (hyin : y.handle ∈ s.coll.pipes)
    (hid : x.id = y.id) : x = y := by
  rcases hx with hx | ⟨t, ht, hx⟩ <;> rcases hy with hy | ⟨u, hu, hy⟩
  · have hlist : s.ids.Nodup := by
      rw [← State.map_id_handles]
      exact hsh.list.nodup
    exact List.inj_on_of_nodup_map hlist hx hy hid
  · refine absurd ?_ (hsh.not_mem_newIds hk hx hxin hu)
    rw [hid]
    exact List.mem_append_left _ (List.mem_map_of_mem hy)
  · refine absurd ?_ (hsh.not_mem_newIds hk hy hyin ht)
    rw [← hid]
    exact List.mem_append_left _ (List.mem_map_of_mem hx)
  · obtain rfl := hl.eq_of_creating (t := t) (u := u) (by rw [ht]; rfl) hu
    have hfresh := (List.nodup_append.mp (hsh.nodup_newIds hu)).1
    exact List.inj_on_of_nodup_map hfresh hx hy hid

/-- The pipe is open, and the object is none that a `close` dropped: the
pipe's `REM_POST` is not handled and nobody has called `nng_pipe_close`. -/
structure StillOpen (s : State σ) (dropped : ℕ) (x : Pipe) : Prop where
  removed : s.removed x.id = false
  kicked : s.kicked x.id = false
  kept : dropped ≤ x.obj

instance (s : State σ) (dropped : ℕ) (x : Pipe) : Decidable (StillOpen s dropped x) :=
  decidable_of_iff (s.removed x.id = false ∧ s.kicked x.id = false ∧ dropped ≤ x.obj)
    ⟨fun h => ⟨h.1, h.2.1, h.2.2⟩, fun h => ⟨h.removed, h.kicked, h.kept⟩⟩

namespace Accounted

/-- A pipe whose status is not `REMOVED` has its handle in the collection. -/
theorem mem_of_live (h : Accounted s dropped) (hx : x ∈ s.made)
    (hlive : s.coll.status x.handle.ref ≠ .remPost) : x.handle ∈ s.coll.pipes :=
  (h.inside x hx).resolve_right fun hgone => hlive hgone.1

theorem mem_of_stillOpen (h : Accounted s dropped) (hx : x ∈ s.made)
    (ho : StillOpen s dropped x) : x.handle ∈ s.coll.pipes := by
  refine (h.inside x hx).resolve_right fun hgone => ?_
  rcases hgone.2 with hrem | hlt
  · rw [ho.removed] at hrem
    cases hrem
  · exact absurd ho.kept (Nat.not_le.mpr hlt)

/-- Where a pipe still open was made, no `close` is between its clears. -/
theorem not_window (h : Accounted s dropped) (hk : Known s) (hx : x ∈ s.made)
    (hkept : dropped ≤ x.obj) (c : Closer) : (s.closing c).pc ≠ .pipesCleared := fun hc => by
  have := h.window c hc
  have := hk.below x hx
  omega

/-- **The one object of an open pipe** is listed, and is the only one of the
pipe whose handle the collection has. -/
theorem only (h : Accounted s dropped) (hsh : Shadowed s) (hk : Known s) (hl : Locked s)
    (hx : x ∈ s.made) (ho : StillOpen s dropped x) :
    s.Listed x ∧ ∀ y ∈ s.made, y.id = x.id → y.handle ∈ s.coll.pipes → y = x := by
  have hxin := h.mem_of_stillOpen hx ho
  have hlisted : ∀ y ∈ s.made, y.handle ∈ s.coll.pipes → s.Listed y := fun y hy hyin =>
    (h.listed y hy hyin).resolve_right fun ⟨c, hc⟩ => h.not_window hk hx ho.kept c hc
  exact ⟨hlisted x hx hxin, fun y hy hid hyin =>
    hsh.eq_of_listed hk hl (hlisted y hy hyin) (hlisted x hx hxin) hyin hxin hid⟩

end Accounted

end Socket

end PyNng
