import PyNng.Socket.Model
/-!
# Socket — when a pipe filter is bypassed

The filter is asked in the `ADD_PRE` branch only. `close` clears it before
it unregisters the notifications, and it unregisters `ADD_PRE` before
`ADD_POST`, so a connection that comes in between either meets no filter,
or has its `ADD_PRE` unheard and is added by the branch that recovers
unknown pipes at `ADD_POST`.

`filtered_iff` says these are the two ways in.
-/

namespace PyNng

namespace Socket

variable {σ : Type} {cfg : Config σ} {s : State σ}

/-! ## What a step can do to the pipes let in -/

/-- Between the two states no pipe came in. -/
structure NothingIn (s s' : State σ) : Prop where
  stage : s'.stage = s.stage
  entered : s'.entered = s.entered
  accepted : s'.accepted = s.accepted
  rejected : s'.rejected = s.rejected
  active : s'.active = s.active
  removed : s'.removed = s.removed
  kicked : ∀ p, s.kicked p = true → s'.kicked p = true
  ids : ∀ q ∈ s'.coll.ids, q ∈ s.coll.ids
  filter : s'.coll.filter = s.coll.filter ∨ s'.coll.filter = none

theorem NothingIn.of_eq {s' : State σ} (hstage : s'.stage = s.stage)
    (hentered : s'.entered = s.entered) (haccepted : s'.accepted = s.accepted)
    (hrejected : s'.rejected = s.rejected) (hactive : s'.active = s.active)
    (hremoved : s'.removed = s.removed) (hkicked : s'.kicked = s.kicked)
    (hcoll : s'.coll = s.coll) : NothingIn s s' :=
  ⟨hstage, hentered, haccepted, hrejected, hactive, hremoved, fun _ h => by rw [hkicked, h],
    fun _ h => by rwa [hcoll] at h, Or.inl (by rw [hcoll])⟩

theorem nothingIn_closeStep (c : Closer) : NothingIn s (closeStep s c) := by
  cases hpc : (s.closing c).pc with
  | locked =>
    simp only [closeStep, hpc]
    split <;> exact .of_eq rfl rfl rfl rfl rfl rfl rfl rfl
  | pipesCleared =>
    simp only [closeStep, hpc]
    exact ⟨rfl, rfl, rfl, rfl, rfl, rfl, fun _ h => h, fun _ h => absurd h List.not_mem_nil,
      Or.inl PipeCollection.filter_clear⟩
  | collectionCleared =>
    simp only [closeStep, hpc]
    exact ⟨rfl, rfl, rfl, rfl, rfl, rfl, fun _ h => h, fun _ h => h, Or.inr rfl⟩
  | closed =>
    simp only [closeStep, hpc]
    split <;> exact .of_eq rfl rfl rfl rfl rfl rfl rfl rfl
  | _ =>
    simp only [closeStep, hpc]
    exact .of_eq rfl rfl rfl rfl rfl rfl rfl rfl

/-- **Pipes come in by events only.** -/
theorem nothingIn_next {a : Act} (ha : ∀ p ev, a ≠ .event p ev) : NothingIn s (next cfg s a) := by
  cases a with
  | event p ev => exact absurd rfl (ha p ev)
  | close c => exact nothingIn_closeStep c
  | closePipe n x =>
    refine ⟨rfl, rfl, rfl, rfl, rfl, rfl, fun p hp => ?_, fun _ h => h, Or.inl rfl⟩
    by_cases hpx : p = x.id
    · subst hpx; exact Function.update_self ..
    · simpa only [next, State.setUserDue, Function.update_of_ne hpx] using hp
  | check t =>
    simp only [next]
    split
    · exact ⟨rfl, rfl, rfl, rfl, rfl, rfl, fun _ h => h,
        fun _ h => by simpa only [State.setCall, PipeCollection.ids_hadEvents] using h,
        Or.inl PipeCollection.filter_hadEvents⟩
    · exact .of_eq rfl rfl rfl rfl rfl rfl rfl rfl
  | create t => simp only [next]; split <;> exact .of_eq rfl rfl rfl rfl rfl rfl rfl rfl
  | read t => simp only [next]; split <;> exact .of_eq rfl rfl rfl rfl rfl rfl rfl rfl
  | hook t => simp only [next]; split <;> exact .of_eq rfl rfl rfl rfl rfl rfl rfl rfl
  | _ => exact .of_eq rfl rfl rfl rfl rfl rfl rfl rfl

theorem stageAfter_ne_unborn {p : ℕ} {ev : PipeEv} (h : Delivers s p ev) :
    stageAfter s (cfg.nng p) p ev ≠ .unborn := by
  cases ev with
  | none => exact h.elim
  | addPre => simp only [stageAfter]; split <;> simp
  | addPost => simp [stageAfter]
  | remPost => simp [stageAfter]

theorem stage_next (cfg : Config σ) {a : Act} (ha : ∀ p ev, a ≠ .event p ev) :
    (next cfg s a).stage = s.stage :=
  (nothingIn_next ha).stage

/-- Heard or not, an event moves its pipe on. -/
theorem stage_event (cfg : Config σ) (p : ℕ) (ev : PipeEv) :
    (next cfg s (.event p ev)).stage =
      Function.update s.stage p (stageAfter s (cfg.nng p) p ev) := by
  simp only [next]
  split <;> rfl

theorem born_event {p : ℕ} {ev : PipeEv} (hen : Delivers s p ev) (q : ℕ)
    (hq : s.stage q ≠ .unborn) :
    Function.update s.stage p (stageAfter s (cfg.nng p) p ev) q ≠ .unborn := by
  by_cases hqp : q = p
  · subst hqp
    rw [Function.update_self]
    exact stageAfter_ne_unborn hen
  · rwa [Function.update_of_ne hqp]

/-- A pipe that was born stays so. -/
theorem born_next {a : Act} (hen : Enabled s a) {q : ℕ} (hq : s.stage q ≠ .unborn) :
    (next cfg s a).stage q ≠ .unborn := by
  by_cases ha : ∃ p ev, a = .event p ev
  · obtain ⟨p, ev, rfl⟩ := ha
    rw [stage_event]
    exact born_event hen q hq
  · rwa [stage_next cfg fun p ev hev => ha ⟨p, ev, hev⟩]

/-! ## The invariant of the history -/

/-- The history agrees with the collection. -/
structure Recorded (cfg : Config σ) (s : State σ) : Prop where
  inside : ∀ q ∈ s.coll.ids, s.entered q = true
  accepted : ∀ q, s.accepted q = true → s.entered q = true
  unborn : ∀ q, s.stage q = .unborn → s.entered q = false
  kicked : ∀ q, s.rejected q = true → s.kicked q = true
  filter : s.coll.filter = cfg.filter ∨ s.coll.filter = none

theorem Recorded.of_nothingIn {s' : State σ} (h : Recorded cfg s) (hs : NothingIn s s') :
    Recorded cfg s' where
  inside := fun q hq => by rw [hs.entered]; exact h.inside q (hs.ids q hq)
  accepted := fun q hq => by rw [hs.accepted] at hq; rw [hs.entered]; exact h.accepted q hq
  unborn := fun q hq => by rw [hs.stage] at hq; rw [hs.entered]; exact h.unborn q hq
  kicked := fun q hq => by rw [hs.rejected] at hq; exact hs.kicked q (h.kicked q hq)
  filter := by
    rcases hs.filter with hf | hf
    · rw [hf]; exact h.filter
    · exact Or.inr hf

theorem Recorded.event (h : Recorded cfg s) (p : ℕ) (ev : PipeEv) (hen : Delivers s p ev) :
    Recorded cfg (next cfg s (.event p ev)) := by
  have hstage : ∀ q, Function.update s.stage p (stageAfter s (cfg.nng p) p ev) q = .unborn →
      q ≠ p ∧ s.stage q = .unborn := by
    intro q hq
    by_cases hqp : q = p
    · subst hqp; rw [Function.update_self] at hq; exact absurd hq (stageAfter_ne_unborn hen)
    · exact ⟨hqp, by rwa [Function.update_of_ne hqp] at hq⟩
  cases hn : s.notify ev with
  | false =>
    rw [next_event_of_not_notify hn]
    exact ⟨h.inside, h.accepted, fun q hq => h.unborn q (hstage q hq).2, h.kicked, h.filter⟩
  | true =>
    rw [next_event_of_notify hn]
    refine ⟨fun q hq => by simpa [handle] using Or.inr hq, fun q hq => ?_, fun q hq => ?_,
      fun q hq => ?_, by simpa [handle] using h.filter⟩
    · -- a pipe is accepted where `ADD_PRE` adds it
      simp only [handle, Bool.or_eq_true, decide_eq_true_eq] at hq ⊢
      by_cases hev : ev = .addPre
      · subst hev
        rw [if_pos rfl] at hq
        by_cases hqp : q = p
        · subst hqp
          rw [Function.update_self, Bool.and_eq_true, Bool.not_eq_true'] at hq
          refine Or.inr ?_
          rw [PipeCollection.handleEvent_addPre.2.1, hq.2]
          simp
        · rw [Function.update_of_ne hqp] at hq
          exact Or.inl (h.accepted q hq)
      · rw [if_neg hev] at hq
        exact Or.inl (h.accepted q hq)
    · obtain ⟨hqp, hq⟩ := hstage q hq
      have hout : q ∉ (s.coll.handleEvent (cfg.nng p) p ev).1.ids := by
        intro hmem
        rcases PipeCollection.mem_ids_handleEvent hmem with hmem | ⟨rfl, -⟩
        · have hent := h.inside q hmem
          rw [h.unborn q hq] at hent
          cases hent
        · exact hqp rfl
      simp [handle, h.unborn q hq, hout]
    · simp only [handle] at hq ⊢
      by_cases hqp : q = p
      · subst hqp
        simp only [Function.update_self, Bool.or_eq_true, decide_eq_true_eq] at hq ⊢
        rcases hq with hq | ⟨rfl, hq⟩
        · exact Or.inl (h.kicked q hq)
        · exact Or.inr (by rw [PipeCollection.handleEvent_addPre.1, hq])
      · rw [Function.update_of_ne hqp] at hq ⊢
        exact h.kicked q hq

theorem Recorded.next {a : Act} (h : Recorded cfg s) (hen : Enabled s a) :
    Recorded cfg (Socket.next cfg s a) := by
  by_cases ha : ∃ p ev, a = .event p ev
  · obtain ⟨p, ev, rfl⟩ := ha
    exact h.event p ev hen
  · exact h.of_nothingIn (nothingIn_next fun p ev hpe => ha ⟨p, ev, hpe⟩)

theorem recorded_init (cfg : Config σ) : Recorded cfg (socket cfg).init :=
  ⟨fun _ h => by simp [socket, PipeCollection.new, PipeCollection.ids] at h,
    fun _ h => Bool.noConfusion h, fun _ _ => rfl, fun _ h => Bool.noConfusion h, Or.inl rfl⟩

/-! ## The two ways in -/

/-- **The filter is not bypassed**: every pipe that has been in the
collection was accepted, and every pipe rejected was closed. -/
structure Filtered (s : State σ) : Prop where
  accepted : ∀ p, s.entered p = true → s.accepted p = true
  kicked : ∀ p, s.rejected p = true → s.kicked p = true

/-- An `ADD_PRE` is handled with the filter in place, an `ADD_POST` of a
pipe that has been in the collection. -/
def Guarded (s : State σ) : Act → Prop
  | .event _ .addPre => s.notify .addPre = true → s.coll.filter.isSome = true
  | .event p .addPost => s.notify .addPost = true → s.entered p = true
  | _ => True

instance (s : State σ) : ∀ a, Decidable (Guarded s a)
  | .event _ .addPre => inferInstanceAs (Decidable (_ → _))
  | .event _ .addPost => inferInstanceAs (Decidable (_ → _))
  | .event _ .remPost => inferInstanceAs (Decidable True)
  | .event _ .none => inferInstanceAs (Decidable True)
  | .push | .otherPush | .setOnNewPipe _ | .setCallback .. | .closePipe .. | .pipeCallback _
  | .enter _ | .acquire _ | .check _ | .snapshot _ | .create _ | .assign _ | .sample _ | .read _
  | .unlock _ | .status .. | .hook _ | .hookDone _ | .announce .. | .ret _ | .close _ =>
    inferInstanceAs (Decidable True)

theorem filtered_addPre_iff {p : ℕ} (hr : Recorded cfg s) (hs : Filtered s)
    (hen : s.stage p = .unborn) (hn : s.notify .addPre = true) :
    Filtered (next cfg s (.event p .addPre)) ↔ s.coll.filter.isSome = true := by
  have hrec := hr.event p .addPre hen
  rw [next_event_of_notify hn] at hrec ⊢
  have hin : ∀ q, (handle cfg s p .addPre).entered q = true →
      s.entered q = true ∨ q = p ∧ s.coll.refuses (cfg.nng p) p = false := by
    intro q hq
    simp only [handle, Bool.or_eq_true, decide_eq_true_eq] at hq
    rcases hq with hq | hq
    · exact Or.inl hq
    · rcases PipeCollection.mem_ids_handleEvent hq with hq | ⟨rfl, ⟨-, hrf⟩ | hev⟩
      · exact Or.inl (hr.inside q hq)
      · exact Or.inr ⟨rfl, hrf⟩
      · cases hev
  constructor
  · -- without a filter the pipe is added, and nobody has accepted it
    intro hf
    by_contra hnone
    have hnone : s.coll.filter = none := by simpa using hnone
    have hrefuses : s.coll.refuses (cfg.nng p) p = false := by
      simp [PipeCollection.refuses, hnone]
    have hacc := hf.accepted p (by
      simp [handle, PipeCollection.handleEvent_addPre.2.1, hrefuses])
    simp [handle, hnone] at hacc
  · intro hsome
    refine ⟨fun q hq => ?_, hrec.kicked⟩
    have hne : ∀ {q}, s.entered q = true → q ≠ p := by
      intro q hq hqp
      rw [hqp, hr.unborn p hen] at hq
      cases hq
    rcases hin q hq with hq | ⟨rfl, hrf⟩
    · simpa only [handle, if_pos, Function.update_of_ne (hne hq)] using hs.accepted q hq
    · simp [handle, hsome, hrf]

theorem filtered_addPost_iff {p : ℕ} (hr : Recorded cfg s) (hs : Filtered s)
    (hen : s.stage p = .pre) (hn : s.notify .addPost = true) :
    Filtered (next cfg s (.event p .addPost)) ↔ s.entered p = true := by
  have hrec := hr.event p .addPost hen
  rw [next_event_of_notify hn] at hrec ⊢
  constructor
  · -- known or not, the pipe is in the collection afterwards
    intro hf
    have hent : (handle cfg s p .addPost).entered p = true := by
      simp only [handle, Bool.or_eq_true, decide_eq_true_eq]
      refine Or.inr ?_
      rw [PipeCollection.handleEvent_addPost.2.1]
      split
      · assumption
      · simp
    exact hr.accepted p (by simpa [handle] using hf.accepted p hent)
  · intro hp
    refine ⟨fun q hq => ?_, hrec.kicked⟩
    simp only [handle, Bool.or_eq_true, decide_eq_true_eq] at hq ⊢
    rw [if_neg (by simp)]
    rcases hq with hq | hq
    · exact hs.accepted q hq
    · rcases PipeCollection.mem_ids_handleEvent hq with hq | ⟨rfl, -⟩
      · exact hs.accepted q (hr.inside q hq)
      · exact hs.accepted q hp

/-- **One step.** Where nothing has got past the filter, a step lets nothing
past it exactly when it is guarded. -/
theorem filtered_next_iff {a : Act} (hr : Recorded cfg s) (hs : Filtered s) (hen : Enabled s a) :
    Filtered (next cfg s a) ↔ Guarded s a := by
  have hquiet : NothingIn s (next cfg s a) → Filtered (next cfg s a) := fun h =>
    ⟨fun p hp => by rw [h.entered] at hp; rw [h.accepted]; exact hs.accepted p hp,
      (hr.of_nothingIn h).kicked⟩
  by_cases ha : ∃ p ev, a = .event p ev
  · obtain ⟨p, ev, rfl⟩ := ha
    cases hn : s.notify ev with
    | false =>
      have hstep : Filtered (next cfg s (.event p ev)) := by
        rw [next_event_of_not_notify hn]
        exact ⟨hs.accepted, hs.kicked⟩
      cases ev <;> simp [Guarded, hstep, hn]
    | true =>
      cases ev with
      | none => exact absurd hen (by simp [Enabled, Delivers])
      | addPre => simpa only [Guarded, hn, forall_const] using filtered_addPre_iff hr hs hen hn
      | addPost => simpa only [Guarded, hn, forall_const] using filtered_addPost_iff hr hs hen hn
      | remPost =>
        have hrec := hr.event p .remPost hen
        rw [next_event_of_notify hn] at hrec ⊢
        simp only [Guarded, iff_true]
        refine ⟨fun q hq => ?_, hrec.kicked⟩
        simp only [handle, Bool.or_eq_true, decide_eq_true_eq] at hq ⊢
        rw [if_neg (by simp)]
        rcases hq with hq | hq
        · exact hs.accepted q hq
        · rcases PipeCollection.mem_ids_handleEvent hq with hq | ⟨-, ⟨hev, -⟩ | hev⟩
          · exact hs.accepted q (hr.inside q hq)
          · cases hev
          · cases hev
  · have hguard : Guarded s a := by
      cases a with
      | event p ev => exact absurd ⟨p, ev, rfl⟩ ha
      | _ => trivial
    exact iff_of_true (hquiet (nothingIn_next fun p ev hpe => ha ⟨p, ev, hpe⟩)) hguard

/-- The run from any state in order. -/
theorem filtered_run_iff (hr : Recorded cfg s) (hs : Filtered s) {as : List Act}
    (hv : (socket cfg).Valid s as) :
    (∀ k, Filtered ((socket cfg).final s (as.take k))) ↔ (socket cfg).Meets Guarded s as := by
  induction as generalizing s with
  | nil => simpa [Machine.Meets] using hs
  | cons a as ih =>
    obtain ⟨hen, hv⟩ := hv
    have hstep := filtered_next_iff hr hs hen
    constructor
    · intro hall
      have hg : Guarded s a := hstep.mp (hall 1)
      exact ⟨hg, (ih (hr.next hen) (hstep.mpr hg) hv).mp fun k => hall (k + 1)⟩
    · rintro ⟨hg, hrest⟩ k
      cases k with
      | zero => exact hs
      | succ k => exact (ih (hr.next hen) (hstep.mpr hg) hv).mpr hrest k

/-- **When no pipe gets past the filter.** All along a run every pipe that
has been in the collection was accepted and every pipe rejected is closed,
exactly when each `ADD_PRE` that is handled finds the filter in place and
each `ADD_POST` that is handled is of a pipe that has been in the collection. -/
theorem filtered_iff (cfg : Config σ) {as : List Act}
    (hv : (socket cfg).Valid (socket cfg).init as) :
    (∀ k, Filtered ((socket cfg).final (socket cfg).init (as.take k))) ↔
      (socket cfg).Meets Guarded (socket cfg).init as :=
  filtered_run_iff (recorded_init cfg)
    ⟨fun _ h => Bool.noConfusion h, fun _ h => Bool.noConfusion h⟩ hv

/-- A listener that admits process 42 only, and the peers its pipes come from. -/
def onlyPid42 (peerPid : ℤ) : Config Anchors where
  nng := fun _ => { peerAddr := .other 1, peerPid, dialer := 0, listener := 1 }
  filter := some (PipeFilter.pid ⟨.allow, [42]⟩).toIPipeFilter
  objects := fun _ => .new 0
  onNewPipe := false
  closeOnDisconnect := false

/-- A peer admitted, and a close once it is gone. -/
theorem filtered_iff_admitted :
    let as : List Act := [.event 1 .addPre, .push, .event 1 .addPost, .push, .event 1 .remPost,
      .push, .close (.user 0), .close (.user 0), .close (.user 0), .close (.user 0)]
    (∀ k, Filtered ((socket (onlyPid42 42)).final (socket (onlyPid42 42)).init (as.take k))) ↔
      (socket (onlyPid42 42)).Meets Guarded (socket (onlyPid42 42)).init as :=
  filtered_iff (onlyPid42 42) (by decide)

/-- **A connection during `close`.** Process 7 connects after the filter is
cleared and before the notifications are unregistered: it enters the
collection unasked, though the filter refuses it at any other time. -/
theorem bypassed_during_close :
    ¬ (∀ as : List Act, (socket (onlyPid42 7)).Valid (socket (onlyPid42 7)).init as →
        ∀ k, Filtered ((socket (onlyPid42 7)).final (socket (onlyPid42 7)).init (as.take k))) ∧
      ((socket (onlyPid42 7)).final (socket (onlyPid42 7)).init [.event 1 .addPre]).coll.ids = [] ∧
      ((socket (onlyPid42 7)).final (socket (onlyPid42 7)).init
        [.close (.user 0), .close (.user 0), .close (.user 0), .close (.user 0),
          .close (.user 0), .event 1 .addPre]).coll.ids = [1] := by
  refine ⟨fun hclaim => ?_, by decide, by decide⟩
  have hf := hclaim [.close (.user 0), .close (.user 0), .close (.user 0), .close (.user 0),
    .close (.user 0), .event 1 .addPre] (by decide) 6
  have hacc := hf.accepted 1 (by decide)
  revert hacc
  decide

end Socket

end PyNng
