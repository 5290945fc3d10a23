import PyNng.Async.Routing
/-!
# Async — what a call is told when the socket is closed

`release` completes the operations it finds in the dict, and drops the
dict. It finds those that are registered, submitted or not, and reads the
result of an aio that may not have been started; and an operation that
registers itself afterwards does so in a dict that nobody reads.

Such an operation does no harm as long as its call takes the fast path.
`honest_of_inTime` says that nothing else can go wrong: where no call comes
to its skip point too late, every call is told the result of its aio, and
none waits for a future that nobody resolves.
-/

namespace PyNng

namespace Async

variable {s : State} {o o' : Op}

/-! ## What a call is owed -/

/-- **Somebody will resolve the future**: the reader, who has its id or
will have it and finds its callable, or who is running it; `release`; or
the loop, with what `release` has scheduled. -/
def State.Resolvable (s : State) (i : ℕ) : Prop :=
  (s.mgr (s.op i).mgr).released = false ∧ i ∈ (s.mgr (s.op i).mgr).dict ∧
      ((s.op i).aio.isBusy = true ∨ i ∈ (s.mgr (s.op i).mgr).tracked.map Entry.firedBy) ∨
    i ∈ (s.mgr (s.op i).mgr).callbacks ∨ i ∈ s.closing.todo ∨ (s.op i).scheduled ≠ none

/-- **Every call is told the truth, and none is left waiting.** -/
structure Honest (s : State) : Prop where
  /-- `asend` returns only if its aio ended with `NNG_OK`. -/
  sent : ∀ i, (s.op i).call = .asend → (s.op i).pc = .ended .returned →
    (s.op i).aio = .finished 0
  /-- `arecv` raises the error of its aio. -/
  received : ∀ i e, (s.op i).call = .arecv → (s.op i).pc = .ended (.raised e) →
    ∃ rc, rc ≠ 0 ∧ (s.op i).aio = .finished rc ∧ e = .nng rc
  heard : ∀ i, (s.op i).pc = .awaiting → (s.op i).fut = .pending → s.Resolvable i

/-- **In time**: a call that comes to its skip point before nng has fired
finds its manager as it was, or its callable still with `release`; and no
`arecv` submits an operation made with a released manager. -/
def InTime (s : State) : Act → Prop
  | .reachSkipPoint i => (s.op i).skipPointReached = true ∨
      (s.mgr (s.op i).mgr).released = false ∨ i ∈ s.closing.todo
  | .prepareSubmit i => (s.op i).hasDict = true ∨ (s.op i).call = .asend
  | _ => True

instance (s : State) : ∀ a, Decidable (InTime s a)
  | .reachSkipPoint _ => inferInstanceAs (Decidable (_ ∨ _ ∨ _))
  | .prepareSubmit _ => inferInstanceAs (Decidable (_ ∨ _))
  | .check .. | .getAioManager _ | .createAio .. | .buildFails .. | .submit _ | .complete ..
  | .fire _ | .push _ | .cancelDispatch _ | .finishFast _ | .drain _ | .pop _ | .unlock _
  | .callback _ | .deliver _ | .resume _ | .cancel _ | .finishCancel _ | .free _ | .shut
  | .closeHandle | .lockManagers | .release | .runReleased | .clearManagers =>
    inferInstanceAs (Decidable True)

/-! ## The invariant -/

/-- What an operation's own fields say. -/
structure Op.Told (o : Op) : Prop where
  /-- Not completed yet, its future was told nothing. -/
  untold : o.hasFuture = true → o.fut.isResolved = false ∧ o.scheduled = none
  /-- Completed, it was told, or will be. -/
  told : o.hasFuture = false → o.fut ≠ .pending ∨ o.scheduled ≠ none
  /-- And what it was told is the result, where anybody waits for it. -/
  truth : ∀ rc, o.skipped = some false → o.fut = .resolved rc ∨ o.scheduled = some rc →
    o.aio = .finished rc
  sent : o.call = .asend → o.pc = .ended .returned → o.aio = .finished 0
  received : ∀ e, o.call = .arecv → o.pc = .ended (.raised e) →
    ∃ rc, rc ≠ 0 ∧ o.aio = .finished rc ∧ e = .nng rc

/-- `release` has taken its snapshot. -/
def Closing.hasReleased : Closing → Bool
  | .releasing _ | .done => true
  | _ => false

/-- **Every callable is with somebody** until it has run. -/
structure Followed (s : State) : Prop where
  told : ∀ i, (s.op i).Told
  /-- Popped, it is with the reader. -/
  popped : ∀ i, (s.op i).popped ≠ 0 →
    i ∈ (s.mgr (s.op i).mgr).callbacks ∨ (s.op i).hasFuture = false
  callbacks : ∀ m, ∀ i ∈ (s.mgr m).callbacks, (s.op i).aio.isFinished = true
  /-- Released, it is with `release`, unless the reader had it. -/
  released : ∀ i, (s.mgr (s.op i).mgr).released = true → (s.op i).skipped = some false →
    (s.op i).hasFuture = true →
      i ∈ s.closing.todo ∨ i ∈ (s.mgr (s.op i).mgr).callbacks
  todo : ∀ i ∈ s.closing.todo,
    (s.op i).pc.early = false ∧ (s.mgr (s.op i).mgr).released = true
  todoNodup : s.closing.todo.Nodup
  /-- Completed with its aio unfinished: that was `release`. -/
  hasty : ∀ i, (s.op i).hasFuture = false → (s.op i).pc.early = false ∧
    ((s.op i).aio.isFinished = true ∨
      (s.mgr (s.op i).mgr).released = true ∧ i ∉ s.closing.todo)
  dictNodup : ∀ m, (s.mgr m).dict.Nodup
  before : s.closing.hasReleased = false → ∀ m, (s.mgr m).released = false

/-- **The callable of a call that awaits** is with the reader or with `release`. -/
theorem Followed.heard (h : Followed s) (hr : Routed s) {i : ℕ} (hpc : (s.op i).pc = .awaiting)
    (hfut : (s.op i).fut = .pending) : s.Resolvable i := by
  obtain ⟨hskip, -, hidle⟩ := (hr.stage i).at_await (Or.inl hpc)
  cases hf : (s.op i).hasFuture with
  | false =>
    -- completed, and its future not resolved yet: that is scheduled
    have htold := ((h.told i).told hf).resolve_left fun hne => hne hfut
    exact Or.inr (Or.inr (Or.inr htold))
  | true =>
    cases hrel : (s.mgr (s.op i).mgr).released with
    | true =>
      rcases h.released i hrel hskip hf with htodo | hcb
      · exact Or.inr (Or.inr (Or.inl htodo))
      · exact Or.inr (Or.inl hcb)
    | false =>
      cases hbusy : (s.op i).aio.isBusy with
      | true =>
        have hreg : (s.op i).registers = true := by
          simp [Op.registers, hpc, Aio.not_isFinished hbusy]
        exact Or.inl ⟨hrel, hr.registered i hrel hreg, Or.inl hbusy⟩
      | false =>
        -- its aio has finished, so its id was pushed: the reader has it or will pop it
        obtain ⟨rc, haio⟩ := Aio.eq_finished hidle hbusy
        have hdue : (s.op i).due = true := by simp [Op.due, hskip, haio, Aio.isFinished]
        by_cases hzero : (s.op i).popped = 0
        · have htracked := (hr.settled i hrel hdue).1.mp hzero
          obtain ⟨e, he, hei⟩ := List.mem_map.mp htracked
          have hdict := (hr.tracked _ hrel e he).1
          rw [hei] at hdict
          exact Or.inl ⟨hrel, hdict, Or.inr htracked⟩
        · rcases h.popped i hzero with hcb | hgone
          · exact Or.inr (Or.inl hcb)
          · rw [hf] at hgone; cases hgone

theorem Followed.honest (h : Followed s) (hr : Routed s) : Honest s where
  sent := fun i => (h.told i).sent
  received := fun i => (h.told i).received
  heard := fun _ hpc hfut => h.heard hr hpc hfut

/-! ## The frame -/

/-- One operation changes, and `release` may be done with it. -/
theorem Followed.setOp (h : Followed s) {i : ℕ} {o : Op} {closing : Closing} (hlocal : o.Told)
    (hpopped : o.popped ≠ 0 → i ∈ (s.mgr o.mgr).callbacks ∨ o.hasFuture = false)
    (hcallbacks : ∀ m, i ∈ (s.mgr m).callbacks → o.aio.isFinished = true)
    (hreleased : (s.mgr o.mgr).released = true → o.skipped = some false → o.hasFuture = true →
      i ∈ closing.todo ∨ i ∈ (s.mgr o.mgr).callbacks)
    (htodo : i ∈ closing.todo → o.pc.early = false ∧ (s.mgr o.mgr).released = true)
    (hhasty : o.hasFuture = false → o.pc.early = false ∧
      (o.aio.isFinished = true ∨ (s.mgr o.mgr).released = true ∧ i ∉ closing.todo))
    (hothers : ∀ j, j ≠ i → (j ∈ closing.todo ↔ j ∈ s.closing.todo))
    (hnodup : closing.todo.Nodup)
    (hbefore : closing.hasReleased = false → s.closing.hasReleased = false) :
    Followed { s.setOp i o with closing } := by
  have hself : State.op { s.setOp i o with closing } i = o := setOp_op_self i o
  have hop : ∀ {j}, j ≠ i → State.op { s.setOp i o with closing } j = s.op j :=
    fun hj => setOp_op_of_ne hj o
  refine ⟨fun j => ?_, fun j hj => ?_, fun m j hj => ?_, fun j hrel hskip hf => ?_,
    fun j hj => ?_, hnodup, fun j hf => ?_, h.dictNodup, fun hc => h.before (hbefore hc)⟩
  all_goals by_cases hji : j = i
  · subst hji; rw [hself]; exact hlocal
  · rw [hop hji]; exact h.told j
  · subst hji; rw [hself] at hj ⊢; exact hpopped hj
  · rw [hop hji] at hj ⊢; exact h.popped j hj
  · subst hji; rw [hself]; exact hcallbacks m hj
  · rw [hop hji]; exact h.callbacks m j hj
  · subst hji; rw [hself] at hrel hskip hf ⊢; exact hreleased hrel hskip hf
  · rw [hop hji] at hrel hskip hf ⊢
    exact (h.released j hrel hskip hf).imp_left (hothers j hji).mpr
  · subst hji; rw [hself]; exact htodo hj
  · rw [hop hji]; exact h.todo j ((hothers j hji).mp hj)
  · subst hji; rw [hself] at hf ⊢; exact hhasty hf
  · rw [hop hji] at hf ⊢
    refine (h.hasty j hf).imp_right (Or.imp_right (And.imp_right fun hn hj => ?_))
    exact hn ((hothers j hji).mp hj)

/-- A manager changes: callables come to the reader finished, and go done. -/
theorem Followed.setMgr (h : Followed s) {m : ℕ} {g : Manager} (hdict : g.dict.Nodup)
    (hrel : g.released = (s.mgr m).released)
    (hgone : ∀ i ∈ (s.mgr m).callbacks, i ∈ g.callbacks ∨ (s.op i).hasFuture = false)
    (hcome : ∀ i ∈ g.callbacks, i ∈ (s.mgr m).callbacks ∨ (s.op i).aio.isFinished = true) :
    Followed (s.setMgr m g) := by
  have hreleased : ∀ n, ((s.setMgr m g).mgr n).released = (s.mgr n).released :=
    forall_setMgr (P := fun n g => g.released = (s.mgr n).released) hrel fun _ _ => rfl
  have hcb : ∀ n, ∀ i ∈ (s.mgr n).callbacks,
      i ∈ ((s.setMgr m g).mgr n).callbacks ∨ (s.op i).hasFuture = false :=
    forall_setMgr (P := fun n g => ∀ i ∈ (s.mgr n).callbacks,
      i ∈ g.callbacks ∨ (s.op i).hasFuture = false) hgone fun _ _ _ hi => Or.inl hi
  have hfinished : ∀ i ∈ g.callbacks, (s.op i).aio.isFinished = true :=
    fun i hi => (hcome i hi).elim (h.callbacks m i) id
  refine ⟨h.told, fun i hi => ?_,
    forall_setMgr (P := fun _ g => ∀ i ∈ g.callbacks, (s.op i).aio.isFinished = true) hfinished
      fun n _ => h.callbacks n,
    fun i hr hskip hf => ?_, fun i hi => ?_, h.todoNodup, fun i hf => ?_,
    forall_setMgr (P := fun _ g => g.dict.Nodup) hdict fun n _ => h.dictNodup n, fun hc n => ?_⟩
  · rcases h.popped i hi with hi | hf
    · exact hcb _ i hi
    · exact Or.inr hf
  · rw [setMgr_op, hreleased] at hr
    rcases h.released i hr hskip hf with htodo | hi
    · exact Or.inl htodo
    · refine Or.inr ((hcb _ i hi).resolve_right fun hgone => ?_)
      rw [setMgr_op, hgone] at hf
      cases hf
  · rw [hreleased]; exact h.todo i hi
  · rw [hreleased]; exact h.hasty i hf
  · rw [hreleased]; exact h.before hc n

/-- **A step that completes nothing.** -/
structure Op.Follows (o o' : Op) : Prop where
  told : o'.Told
  hasFuture : o'.hasFuture = o.hasFuture
  popped : o'.popped = o.popped
  skipped : o'.skipped = some false → o.skipped = some false
  finished : o.aio.isFinished = true → o'.aio.isFinished = true
  place : o.pc.early = true ∨ o'.mgr = o.mgr ∧ o'.pc.early = false

theorem Followed.step (h : Followed s) {i : ℕ} (hstage : (s.op i).Stage)
    (hundue : (s.op i).due = false → (s.op i).popped = 0) (hf : (s.op i).Follows o) :
    Followed (s.setOp i o) := by
  have hothers : ∀ j, j ≠ i → (j ∈ s.closing.todo ↔ j ∈ s.closing.todo) := fun _ _ => Iff.rfl
  rcases hf.place with hearly | ⟨hmgr, hlate⟩
  · -- nobody has heard of it yet
    have hfuture : (s.op i).hasFuture = true := by
      by_contra hne
      rw [Bool.not_eq_true] at hne
      rw [(h.hasty i hne).1] at hearly
      cases hearly
    have hdue := hstage.due_of_early hearly
    obtain ⟨hidle, -, hundecided⟩ := hstage.fresh_of_early hearly
    refine h.setOp hf.told (fun hp => ?_) (fun m hi => ?_) (fun _ hskip => ?_) (fun hi => ?_)
      (fun hgone => ?_) hothers h.todoNodup id
    · rw [hf.popped, hundue hdue] at hp; exact absurd rfl hp
    · have hfin := h.callbacks m i hi
      rw [hidle] at hfin
      cases hfin
    · have hnone := hf.skipped hskip
      rw [hundecided] at hnone
      cases hnone
    · rw [(h.todo i hi).1] at hearly; cases hearly
    · rw [hf.hasFuture, hfuture] at hgone; cases hgone
  · refine h.setOp hf.told (fun hp => ?_) (fun m hi => ?_) (fun hrel hskip hfut => ?_)
      (fun hi => ?_)
      (fun hgone => ?_) hothers h.todoNodup id
    · rw [hmgr, hf.hasFuture]; exact h.popped i (by rw [← hf.popped]; exact hp)
    · exact hf.finished (h.callbacks m i hi)
    · rw [hmgr] at hrel ⊢
      exact h.released i hrel (hf.skipped hskip) (by rw [← hf.hasFuture]; exact hfut)
    · rw [hmgr]; exact ⟨hlate, (h.todo i hi).2⟩
    · rw [hmgr]
      refine ⟨hlate, ?_⟩
      exact (h.hasty i (by rw [← hf.hasFuture]; exact hgone)).2.imp_left hf.finished

/-! ## What the steps tell -/

/-- The call goes on, with its future as it was. -/
theorem Op.Told.move (h : o.Told) (hfuture : o'.hasFuture = o.hasFuture) (hfut : o'.fut = o.fut)
    (hscheduled : o'.scheduled = o.scheduled)
    (hskip : o'.skipped = some false → o.skipped = some false)
    (haio : o'.aio = o.aio ∨ o.aio.isFinished = false) (hpc : o'.pc.isEnded = false) :
    o'.Told where
  untold := by rw [hfuture, hfut, hscheduled]; exact h.untold
  told := by rw [hfuture, hfut, hscheduled]; exact h.told
  truth := fun rc hs hor => by
    rw [hfut, hscheduled] at hor
    have htrue := h.truth rc (hskip hs) hor
    rcases haio with haio | hfin
    · rw [haio]; exact htrue
    · rw [htrue] at hfin; cases hfin
  sent := fun _ hend => by rw [hend] at hpc; cases hpc
  received := fun _ _ hend => by rw [hend] at hpc; cases hpc

/-- The call ends. -/
theorem Op.Told.ends (h : o.Told) {outcome : Outcome}
    (hsent : o.call = .asend → outcome = .returned → o.aio = .finished 0)
    (hreceived : ∀ e, o.call = .arecv → outcome = .raised e →
      ∃ rc, rc ≠ 0 ∧ o.aio = .finished rc ∧ e = .nng rc) :
    Op.Told { o with pc := .ended outcome } where
  untold := h.untold
  told := h.told
  truth := h.truth
  sent := fun hc hend => hsent hc (Pc.ended.inj hend)
  received := fun e hc hend => hreceived e hc (Pc.ended.inj hend)

/-- Told its result, the call ends as it should. -/
theorem Op.Told.outcome (h : o.Told) {rc : ℕ} (haio : o.aio = .finished rc) :
    Op.Told { o with pc := .ended (o.outcome rc) } := by
  refine h.ends (fun hcall hret => ?_) fun e hcall hraise => ?_
  · unfold Op.outcome at hret
    split at hret
    · cases hret
    · rename_i hrc
      rw [haio, not_not.mp hrc]
  · unfold Op.outcome at hraise
    split at hraise
    · rename_i hrc
      exact ⟨rc, hrc, haio, (Outcome.raised.inj hraise).symm⟩
    · -- with result 0 the message is there
      rename_i hrc
      have hzero : rc = 0 := not_not.mp hrc
      subst hzero
      simp [haio, Aio.result] at hraise

/-- A step before the skip point, or after it, that moves the aio on. -/
theorem Op.Follows.of_busy (h : o.Told) (hs : o.Stage) (hbusy : o.aio.isBusy = true)
    (hfuture : o'.hasFuture = o.hasFuture) (hfut : o'.fut = o.fut)
    (hscheduled : o'.scheduled = o.scheduled) (hskip : o'.skipped = o.skipped)
    (hpopped : o'.popped = o.popped) (hmgr : o'.mgr = o.mgr) (hpc : o'.pc = o.pc) :
    o.Follows o' := by
  have hfin := Aio.not_isFinished hbusy
  have hplace : o.pc.early = false ∧ o.pc.isEnded = false := by
    rcases hs.of_busy hbusy with ⟨hp, -⟩ | ⟨hp | hp, -⟩ <;> rw [hp] <;> exact ⟨rfl, rfl⟩
  refine ⟨?_, hfuture, hpopped, fun hsome => by rw [← hskip]; exact hsome, fun hdone => ?_, ?_⟩
  · exact h.move hfuture hfut hscheduled (fun hsome => by rw [← hskip]; exact hsome) (Or.inr hfin)
      (by rw [hpc]; exact hplace.2)
  · rw [hfin] at hdone; cases hdone
  · exact Or.inr ⟨hmgr, by rw [hpc]; exact hplace.1⟩

/-- **`_dispatch_complete`** of an aio that has finished. -/
theorem Op.told_dispatchComplete (h : o.Told) {rc : ℕ} (haio : o.aio = .finished rc) :
    o.dispatchComplete.Told := by
  unfold Op.dispatchComplete
  split
  · rename_i hfuture
    obtain ⟨hfut, hnone⟩ := h.untold hfuture
    refine ⟨fun hf => absurd hf Bool.false_ne_true, fun _ => Or.inl ?_, fun rc' _ hor => ?_,
      h.sent, h.received⟩
    · simp only
      cases o.fut <;> simp [Fut.set]
    · simp only [hnone, reduceCtorEq, or_false, haio, Aio.result] at hor ⊢
      revert hor hfut
      cases o.fut <;> simp [Fut.set, Fut.isResolved]
  · exact h

/-- **`_dispatch_complete_safe`** of an aio that is not busy, and was
submitted if anybody awaits it. -/
theorem Op.told_dispatchCompleteSafe (h : o.Told)
    (haio : o.skipped = some false → ∃ rc, o.aio = .finished rc) :
    o.dispatchCompleteSafe.Told := by
  unfold Op.dispatchCompleteSafe
  split
  · rename_i hfuture
    obtain ⟨hfut, -⟩ := h.untold hfuture
    refine ⟨fun hf => absurd hf Bool.false_ne_true, fun _ => Or.inr (by simp),
      fun rc' hskip hor => ?_, h.sent, h.received⟩
    obtain ⟨rc, hrc⟩ := haio hskip
    simp only [hrc, Aio.result] at hor ⊢
    rcases hor with hres | hsched
    · rw [hres] at hfut; cases hfut
    · rw [Option.some.inj hsched]
  · exact h

/-- The loop delivers what was scheduled. -/
theorem Op.told_setFuture (h : o.Told) {rc : ℕ} (hscheduled : o.scheduled = some rc) :
    (o.setFuture rc).Told := by
  have hgone : o.hasFuture = false := by
    by_contra hne
    rw [Bool.not_eq_false] at hne
    rw [(h.untold hne).2] at hscheduled
    cases hscheduled
  refine ⟨fun hf => ?_, fun _ => Or.inl ?_, fun rc' hskip hor => ?_, h.sent, h.received⟩
  · exact absurd (hgone.symm.trans hf) Bool.false_ne_true
  · simp only [Op.setFuture]
    cases o.fut <;> simp [Fut.set]
  · simp only [Op.setFuture, reduceCtorEq, or_false] at hor
    cases hfut : o.fut with
    | pending =>
      rw [hfut] at hor
      rw [← Fut.resolved.inj hor]
      exact h.truth rc hskip (Or.inr hscheduled)
    | resolved rc'' =>
      rw [hfut] at hor
      rw [← Fut.resolved.inj hor]
      exact h.truth rc'' hskip (Or.inl hfut)
    | cancelled =>
      rw [hfut] at hor
      cases hor

theorem Op.told_cancel (h : o.Told) :
    Op.Told { o with pc := .cancelling, fut := o.fut.cancel } := by
  refine ⟨fun hf => ?_, fun hf => ?_, fun rc hskip hor => ?_, fun _ hend => (nomatch hend),
    fun _ _ hend => (nomatch hend)⟩
  · obtain ⟨hfut, hnone⟩ := h.untold hf
    refine ⟨?_, hnone⟩
    revert hfut
    cases o.fut <;> simp [Fut.cancel, Fut.isResolved]
  · refine (h.told hf).imp_left fun hne => ?_
    revert hne
    cases o.fut <;> simp [Fut.cancel]
  · refine h.truth rc hskip (hor.imp_left fun hres => ?_)
    revert hres
    cases o.fut <;> simp [Fut.cancel]

/-! ## The steps of a run -/

/-- A call that comes to its skip point in time awaits a callable that is still with somebody. -/
theorem Followed.await (h : Followed s) (hr : Routed s) {i : ℕ} (hpc : (s.op i).pc = .submitted)
    (hflag : (s.op i).skipPointReached = false)
    (hok : (s.mgr (s.op i).mgr).released = false ∨ i ∈ s.closing.todo) :
    Followed (s.setOp i
      { s.op i with pc := .awaiting, skipPointReached := true, skipped := some false }) := by
  have hfin : (s.op i).aio.isFinished = false := by
    obtain ⟨-, ⟨-, hbusy⟩ | ⟨hset, -⟩⟩ := (hr.stage i).at_submitted hpc
    · exact Aio.not_isFinished hbusy
    · rw [hset] at hflag; cases hflag
  -- it was not completed: with its aio unfinished, only `release` would have
  have hfuture : (s.op i).hasFuture = true := by
    by_contra hne
    rw [Bool.not_eq_true] at hne
    rcases (h.hasty i hne).2 with hdone | ⟨hrel, hgone⟩
    · rw [hfin] at hdone; cases hdone
    · rcases hok with hlive | htodo
      · rw [hrel] at hlive; cases hlive
      · exact hgone htodo
  obtain ⟨hfut, hnone⟩ := (h.told i).untold hfuture
  refine h.setOp ⟨(h.told i).untold, (h.told i).told, fun rc _ hor => ?_, fun _ hend => ?_,
    fun _ _ hend => ?_⟩ (h.popped i) (fun m => h.callbacks m i) (fun hrel _ _ => ?_)
    (fun hi => ⟨rfl, (h.todo i hi).2⟩) (fun hgone => ?_) (fun _ _ => Iff.rfl) h.todoNodup id
  · rcases hor with hres | hsched
    · simp only at hres
      rw [hres] at hfut
      cases hfut
    · simp only at hsched
      rw [hnone] at hsched
      cases hsched
  · cases hend
  · cases hend
  · rcases hok with hlive | htodo
    · rw [hlive] at hrel; cases hrel
    · exact Or.inl htodo
  · exact absurd (hfuture.symm.trans hgone).symm Bool.false_ne_true

/-- `_prepare_submit`. -/
theorem Followed.prepareSubmit (h : Followed s) (hr : Routed s) {i : ℕ}
    (hpc : (s.op i).pc = .created)
    (hok : (s.op i).hasDict = true ∨ (s.op i).call = .asend) :
    Followed (next s (.prepareSubmit i)) := by
  have hearly : (s.op i).pc.early = true := by rw [hpc]; rfl
  simp only [next]
  split
  · have hmgr : Followed (s.setMgr (s.op i).mgr { s.mgr (s.op i).mgr with
        dict := s.without (s.op i).mgr (s.op i).addr ++ [i] }) := by
      refine h.setMgr ?_ rfl (fun j hj => Or.inl hj) fun j hj => Or.inl hj
      refine List.nodup_append.mpr ⟨(h.dictNodup _).filter _, by simp, fun a ha b hb hab => ?_⟩
      rw [List.mem_singleton.mp hb] at hab
      subst hab
      have hlate := (hr.inDict _ a (List.mem_filter.mp ha).1).2.1
      rw [hearly] at hlate
      cases hlate
    exact hmgr.step (hr.stage i) (hr.undue i)
      ⟨(h.told i).move rfl rfl rfl id (Or.inl rfl) rfl, rfl, rfl, id, id, Or.inl hearly⟩
  · rename_i hdict
    have hsend := hok.resolve_left hdict
    refine h.step (hr.stage i) (hr.undue i)
      ⟨(h.told i).ends (fun _ hret => ?_) fun e hcall _ => ?_, rfl, rfl, id, id, Or.inl hearly⟩
    · cases hret
    · rw [hsend] at hcall; cases hcall

/-- The reader takes a callable. -/
theorem Followed.popId (h : Followed s) (hr : Routed s) {m : ℕ} {e : Entry} {rest : List Entry}
    (hbatch : (s.mgr m).batch = some (e :: rest)) : Followed (s.popId m e.id rest) := by
  obtain ⟨-, -, hdict, hdue, -, hlookup⟩ := hr.lookup_head hbatch
  obtain ⟨hm, hlate, -⟩ := hr.inDict m _ hdict
  have hfin : (s.op e.firedBy).aio.isFinished = true := by
    simp only [Op.due, Bool.and_eq_true] at hdue
    exact hdue.2
  rw [State.popId, hlookup]
  have hmgr : Followed (s.setMgr m { s.mgr m with
      batch := some rest
      dict := s.without m e.id
      callbacks := (s.mgr m).callbacks ++ [e.firedBy] }) := by
    refine h.setMgr ((h.dictNodup m).filter _) rfl
      (fun j hj => Or.inl (List.mem_append_left _ hj)) fun j hj => ?_
    rcases List.mem_append.mp hj with hj | hj
    · exact Or.inl hj
    · rw [List.mem_singleton.mp hj]; exact Or.inr hfin
  have htold : Op.Told { s.op e.firedBy with popped := (s.op e.firedBy).popped + 1 } :=
    ⟨(h.told _).untold, (h.told _).told, (h.told _).truth, (h.told _).sent, (h.told _).received⟩
  refine hmgr.setOp htold (fun _ => Or.inl ?_) (fun n hn => hfin) (fun hrel hskip hf => ?_)
    (fun hi => hmgr.todo _ hi) (fun hgone => hmgr.hasty _ hgone) (fun _ _ => Iff.rfl)
    hmgr.todoNodup id
  · simp [hm]
  · exact hmgr.released _ hrel hskip hf

/-- The reader runs a callable: its aio has finished. -/
theorem Followed.callback (h : Followed s) (hr : Routed s) {m : ℕ} :
    Followed (next s (.callback m)) := by
  simp only [next]
  cases hcb : (s.mgr m).callbacks with
  | nil =>
    refine h.setMgr (h.dictNodup m) rfl (fun j hj => ?_) fun j hj => ?_
    · rw [hcb] at hj; exact absurd hj List.not_mem_nil
    · exact absurd hj List.not_mem_nil
  | cons i rest =>
    -- popped after it was pushed, so `_dispatch_complete` reads a final result
    have hfin := h.callbacks m i (by rw [hcb]; exact List.mem_cons_self)
    obtain ⟨rc, haio⟩ := Aio.exists_of_isFinished hfin
    have hcompletes := (s.op i).completes_dispatchComplete
    have hlate : (s.op i).pc.early = false := by
      by_contra hearly
      rw [Bool.not_eq_false] at hearly
      rw [((hr.stage i).fresh_of_early hearly).1] at hfin
      cases hfin
    have hop : Followed (s.setOp i (s.op i).dispatchComplete) := by
      obtain ⟨hgone, hpc, hmgr, -, haio'⟩ := hcompletes
      refine h.setOp (Op.told_dispatchComplete (h.told i) haio) (fun _ => Or.inr hgone)
        (fun _ _ => by rw [haio']; exact hfin) (fun _ _ hf => ?_) (fun hi => ?_) (fun _ => ?_)
        (fun _ _ => Iff.rfl) h.todoNodup id
      · rw [hgone] at hf; cases hf
      · rw [hpc, hmgr]; exact h.todo i hi
      · rw [hpc, haio']; exact ⟨hlate, Or.inl hfin⟩
    refine hop.setMgr (h.dictNodup m) rfl (fun j hj => ?_) fun j hj => ?_
    · change j ∈ (s.mgr m).callbacks at hj
      rw [hcb] at hj
      rcases List.mem_cons.mp hj with rfl | hj
      · rw [setOp_op_self]; exact Or.inr hcompletes.hasFuture
      · exact Or.inl hj
    · left
      change j ∈ (s.mgr m).callbacks
      rw [hcb]
      exact List.mem_cons_of_mem _ hj

/-- **`release` takes its snapshot**: what the reader does not have is in the dict. -/
theorem Followed.release (h : Followed s) (hr : Routed s) (hen : Enabled s .release) :
    Followed (next s .release) := by
  have hlive : ∀ m, (s.mgr m).released = false := h.before (by rw [hen.1]; rfl)
  have hfin : ∀ i, (s.op i).hasFuture = false → (s.op i).aio.isFinished = true := by
    intro i hi
    refine (h.hasty i hi).2.resolve_right fun hrel => ?_
    rw [hlive] at hrel
    cases hrel.1
  cases hcurrent : s.current with
  | none =>
    simp only [next, hcurrent]
    refine ⟨h.told, h.popped, h.callbacks, fun i hrel => ?_, fun i hi => ?_, List.nodup_nil,
      fun i hi => ⟨(h.hasty i hi).1, Or.inl (hfin i hi)⟩, h.dictNodup, fun hc => ?_⟩
    · simp only at hrel
      rw [hlive] at hrel
      cases hrel
    · exact absurd hi List.not_mem_nil
    · cases hc
  | some m =>
    simp only [next, hcurrent]
    have hcbs : ∀ n, ((s.setMgr m { s.mgr m with released := true }).mgr n).callbacks =
        (s.mgr n).callbacks :=
      forall_setMgr (P := fun n g => g.callbacks = (s.mgr n).callbacks) rfl fun _ _ => rfl
    have hdicts : ∀ n, ((s.setMgr m { s.mgr m with released := true }).mgr n).dict =
        (s.mgr n).dict :=
      forall_setMgr (P := fun n g => g.dict = (s.mgr n).dict) rfl fun _ _ => rfl
    refine ⟨h.told, fun i hi => ?_, fun n i hi => ?_, fun i hrel hskip hf => ?_, fun i hi => ?_,
      h.dictNodup m, fun i hi => ⟨(h.hasty i hi).1, Or.inl (hfin i hi)⟩, fun n => ?_, fun hc => ?_⟩
    · exact (hcbs _).symm ▸ h.popped i hi
    · exact h.callbacks n i ((hcbs n) ▸ hi)
    · change ((s.setMgr m { s.mgr m with released := true }).mgr (s.op i).mgr).released = true
        at hrel
      change i ∈ (s.mgr m).dict ∨
        i ∈ ((s.setMgr m { s.mgr m with released := true }).mgr (s.op i).mgr).callbacks
      change (s.op i).skipped = some false at hskip
      rw [hcbs]
      have him : (s.op i).mgr = m := by
        by_contra hne
        rw [setMgr_mgr_of_ne hne, hlive] at hrel
        cases hrel
      rw [← him]
      have hlivei := hlive (s.op i).mgr
      cases hdue : (s.op i).due with
      | false =>
        -- not fired yet: it is registered
        have hunfin : (s.op i).aio.isFinished = false := by
          simpa only [Op.due, hskip, beq_self_eq_true, Bool.true_and] using hdue
        have hreg : (s.op i).registers = true := by
          rcases (hr.stage i).of_awaited hskip hunfin with hpc | hpc <;>
            simp [Op.registers, hpc, hunfin]
        exact Or.inl (hr.registered i hlivei hreg)
      | true =>
        -- fired: its id waits with its key in the dict, or the reader has its callable
        by_cases hzero : (s.op i).popped = 0
        · obtain ⟨e, he, hei⟩ := List.mem_map.mp ((hr.settled i hlivei hdue).1.mp hzero)
          have hdict := (hr.tracked _ hlivei e he).1
          rw [hei] at hdict
          exact Or.inl hdict
        · refine Or.inr ((h.popped i hzero).resolve_right fun hgone => ?_)
          exact absurd (hf.symm.trans hgone).symm Bool.false_ne_true
    · obtain ⟨him, hlate, -⟩ := hr.inDict m i hi
      refine ⟨hlate, ?_⟩
      change ((s.setMgr m { s.mgr m with released := true }).mgr (s.op i).mgr).released = true
      rw [him, setMgr_mgr_self]
    · exact (hdicts n).symm ▸ h.dictNodup n
    · cases hc

/-- `release` runs a callable. -/
theorem Followed.runReleased (h : Followed s) (hr : Routed s) (hen : Enabled s .runReleased) :
    Followed (next s .runReleased) := by
  have hready : s.Ready s.closing.todo := hen
  have hafter : s.closing.todo ≠ [] → s.closing.hasReleased = true := by
    cases s.closing <;> simp [Closing.todo, Closing.hasReleased]
  cases htodo : s.closing.todo with
  | nil => rw [htodo] at hready; exact hready.elim
  | cons i rest =>
    rw [htodo] at hready
    have hbusy : (s.op i).aio.isBusy = false := hready
    have hi : i ∈ s.closing.todo := by rw [htodo]; exact List.mem_cons_self
    obtain ⟨hnotin, hnodup⟩ : i ∉ rest ∧ rest.Nodup := by
      have hall := h.todoNodup
      rwa [htodo, List.nodup_cons] at hall
    obtain ⟨hgone, hpc, hmgr, -, haio⟩ := (s.op i).completes_dispatchCompleteSafe
    have htold : (s.op i).dispatchCompleteSafe.Told := by
      refine Op.told_dispatchCompleteSafe (h.told i) fun hskip => ?_
      exact Aio.eq_finished ((hr.stage i).ne_idle_of_awaited hskip) hbusy
    simp only [next, htodo, State.runFirst, List.tail_cons]
    -- from here on it is `hasty`: completed, whatever its aio does
    refine h.setOp htold (fun _ => Or.inr hgone)
      (fun m hcb => by rw [haio]; exact h.callbacks m i hcb) (fun _ _ hf => ?_)
      (fun hrest => absurd hrest hnotin) (fun _ => ?_) (fun j hj => ?_) hnodup fun hc => ?_
    · rw [hgone] at hf; cases hf
    · rw [hpc, hmgr]
      exact ⟨(h.todo i hi).1, Or.inr ⟨(h.todo i hi).2, hnotin⟩⟩
    · rw [htodo]
      simp [hj, Closing.todo]
    · cases hc

/-- A step of the coroutine before it ends. -/
theorem Followed.move (h : Followed s) (hr : Routed s) {i : ℕ} {o : Op}
    (hfuture : o.hasFuture = (s.op i).hasFuture) (hfut : o.fut = (s.op i).fut)
    (hscheduled : o.scheduled = (s.op i).scheduled) (hpopped : o.popped = (s.op i).popped)
    (hskip : o.skipped = some false → (s.op i).skipped = some false)
    (haio : o.aio = (s.op i).aio ∨ (s.op i).aio.isFinished = false)
    (hpc : o.pc.isEnded = false)
    (hplace : (s.op i).pc.early = true ∨ o.mgr = (s.op i).mgr ∧ o.pc.early = false) :
    Followed (s.setOp i o) := by
  refine h.step (hr.stage i) (hr.undue i)
    ⟨(h.told i).move hfuture hfut hscheduled hskip haio hpc, hfuture, hpopped, hskip, ?_, hplace⟩
  intro hfin
  rcases haio with haio | hun
  · rw [haio]; exact hfin
  · rw [hun] at hfin; cases hfin

/-- `close` goes on, outside `release`. -/
theorem Followed.of_closing (h : Followed s) {closing : Closing} {current : Option ℕ}
    (hsame : closing.todo = s.closing.todo)
    (hbefore : closing.hasReleased = false → s.closing.hasReleased = false) :
    Followed { s with closing, current } where
  told := h.told
  popped := h.popped
  callbacks := h.callbacks
  released := by simp only [hsame]; exact h.released
  todo := by simp only [hsame]; exact h.todo
  todoNodup := by simp only [hsame]; exact h.todoNodup
  hasty := by simp only [hsame]; exact h.hasty
  dictNodup := h.dictNodup
  before := fun hc => h.before (hbefore hc)

theorem Followed.next (h : Followed s) (hr : Routed s) {a : Act} (hok : InTime s a)
    (hen : Enabled s a) : Followed (Async.next s a) := by
  cases a with
  | check i call =>
    exact h.move hr rfl rfl rfl rfl id (Or.inl rfl) rfl (Or.inl (by rw [hen.1]; rfl))
  | getAioManager i =>
    have hplace : (s.op i).pc.early = true := by rw [hen.1]; rfl
    simp only [Async.next]
    split
    · exact h.move hr rfl rfl rfl rfl id (Or.inl rfl) rfl (Or.inl hplace)
    · rename_i hcurrent
      have hsame : Followed { s with made := s.made + 1, current := some s.made } :=
        ⟨h.told, h.popped, h.callbacks, h.released, h.todo, h.todoNodup, h.hasty, h.dictNodup,
          h.before⟩
      exact hsame.move hr.of_closing rfl rfl rfl rfl id (Or.inl rfl) rfl (Or.inl hplace)
  | createAio i addr =>
    have hheap : Followed { s with heap := Function.update s.heap addr (some i) } :=
      ⟨h.told, h.popped, h.callbacks, h.released, h.todo, h.todoNodup, h.hasty, h.dictNodup,
        h.before⟩
    refine hheap.step (hr.stage i) (hr.undue i) ⟨(h.told i).move rfl rfl rfl id (Or.inl rfl) rfl,
      rfl, rfl, id, id, Or.inl ?_⟩
    simp only [hen.1]
    rfl
  | buildFails i rc =>
    refine h.step (hr.stage i) (hr.undue i) ⟨(h.told i).ends (fun _ hret => ?_) fun e hcall _ => ?_,
      rfl, rfl, id, id, Or.inl (by rw [hen.1]; rfl)⟩
    · cases hret
    · rw [hen.2] at hcall; cases hcall
  | prepareSubmit i => exact h.prepareSubmit hr hen hok
  | submit i =>
    have hpc : (s.op i).pc = .registered := hen
    have haio := ((hr.stage i).fresh (by rw [hpc]; rfl) (by rw [hpc]; rfl)).1
    refine h.move hr rfl rfl rfl rfl id (Or.inr ?_) rfl (Or.inr ⟨rfl, rfl⟩)
    rw [haio]
    rfl
  | complete i rc =>
    have hbusy : (s.op i).aio.isBusy = true := Aio.MayEnd.isBusy hen
    exact h.step (hr.stage i) (hr.undue i)
      (.of_busy (h.told i) (hr.stage i) hbusy rfl rfl rfl rfl rfl rfl rfl)
  | fire i =>
    have hbusy := Aio.isBusy_of_isCompleted hen
    simp only [Async.next]
    split <;>
      exact h.step (hr.stage i) (hr.undue i)
        (.of_busy (h.told i) (hr.stage i) hbusy rfl rfl rfl rfl rfl rfl rfl)
  | push i =>
    have hbusy := Aio.isBusy_of_isPushing hen
    have hmgr : Followed (s.setMgr (s.op i).mgr { s.mgr (s.op i).mgr with
        queue := (s.mgr (s.op i).mgr).queue ++ [⟨(s.op i).addr, i⟩] }) :=
      h.setMgr (h.dictNodup _) rfl (fun _ hj => Or.inl hj) fun _ hj => Or.inl hj
    exact hmgr.step (hr.stage i) (hr.undue i)
      (.of_busy (h.told i) (hr.stage i) hbusy rfl rfl rfl rfl rfl rfl rfl)
  | reachSkipPoint i =>
    have hpc : (s.op i).pc = .submitted := hen
    simp only [Async.next]
    split
    · refine h.move hr rfl rfl rfl rfl (fun hs => ?_) (Or.inl rfl) rfl (Or.inr ⟨rfl, rfl⟩)
      cases hs
    · rename_i hflag
      -- the condition on the run is needed here, and for a released manager's `arecv`
      have hlate := hok.resolve_left hflag
      rw [Bool.not_eq_true] at hflag
      exact h.await hr hpc hflag hlate
  | cancelDispatch i =>
    have hmgr : Followed (s.setMgr (s.op i).mgr { s.mgr (s.op i).mgr with
        dict := s.without (s.op i).mgr (s.op i).addr }) :=
      h.setMgr ((h.dictNodup _).filter _) rfl (fun _ hj => Or.inl hj) fun _ hj => Or.inl hj
    exact hmgr.step (hr.stage i) (hr.undue i)
      ⟨(h.told i).move rfl rfl rfl id (Or.inl rfl) rfl, rfl, rfl, id, id, Or.inr ⟨rfl, rfl⟩⟩
  | finishFast i =>
    obtain ⟨-, -, rc, haio⟩ := (hr.stage i).at_fast (Or.inr hen.1)
    refine h.step (hr.stage i) (hr.undue i) ⟨?_, rfl, rfl, id, id, Or.inr ⟨rfl, rfl⟩⟩
    exact (h.told i).outcome (by rw [haio, Aio.result])
  | drain m =>
    simp only [Async.next]
    split <;>
      exact h.setMgr (h.dictNodup m) rfl (fun _ hj => Or.inl hj) fun _ hj => Or.inl hj
  | pop m =>
    simp only [Async.next]
    split
    · rename_i e rest hbatch
      exact h.popId hr hbatch
    · exact h
  | unlock m => exact h.setMgr (h.dictNodup m) rfl (fun _ hj => Or.inl hj) fun _ hj => Or.inl hj
  | callback m => exact h.callback hr
  | deliver i =>
    simp only [Async.next]
    split
    · rename_i rc hscheduled
      refine h.step (hr.stage i) (hr.undue i)
        ⟨Op.told_setFuture (h.told i) hscheduled, rfl, rfl, id, id, ?_⟩
      cases hearly : (s.op i).pc.early with
      | true => exact Or.inl rfl
      | false => exact Or.inr ⟨rfl, hearly⟩
    · exact h
  | resume i =>
    obtain ⟨hskip, -, -⟩ := (hr.stage i).at_await (Or.inl hen.1)
    simp only [Async.next]
    split
    · rename_i rc hfut
      exact h.step (hr.stage i) (hr.undue i)
        ⟨(h.told i).outcome ((h.told i).truth rc hskip (Or.inl hfut)), rfl, rfl, id, id,
          Or.inr ⟨rfl, rfl⟩⟩
    · exact h
  | cancel i =>
    exact h.step (hr.stage i) (hr.undue i)
      ⟨Op.told_cancel (h.told i), rfl, rfl, id, id, Or.inr ⟨rfl, rfl⟩⟩
  | finishCancel i =>
    refine h.step (hr.stage i) (hr.undue i)
      ⟨(h.told i).ends (fun _ hret => ?_) fun e _ hraise => ?_, rfl, rfl, id, id,
        Or.inr ⟨rfl, rfl⟩⟩
    · cases hret
    · cases hraise
  | free i =>
    exact ⟨h.told, h.popped, h.callbacks, h.released, h.todo, h.todoNodup, h.hasty, h.dictNodup,
      h.before⟩
  | shut =>
    have hnow : s.closing = .open := hen
    exact h.of_closing (by rw [hnow]; rfl) fun _ => by rw [hnow]; rfl
  | closeHandle =>
    have hnow : s.closing = .shut := hen
    exact h.of_closing (by rw [hnow]; rfl) fun _ => by rw [hnow]; rfl
  | lockManagers =>
    have hnow : s.closing = .closed := hen
    exact h.of_closing (by rw [hnow]; rfl) fun _ => by rw [hnow]; rfl
  | release => exact h.release hr hen
  | runReleased => exact h.runReleased hr hen
  | clearManagers =>
    have hnow : s.closing = .releasing [] := hen
    exact h.of_closing (by rw [hnow]; rfl) fun hc => by cases hc

theorem followed_init : Followed asyncio.init where
  told := fun _ => ⟨fun _ => ⟨rfl, rfl⟩, fun h => absurd h Bool.false_ne_true.symm,
    fun _ h => (nomatch h), fun _ h => (nomatch h), fun _ _ h => (nomatch h)⟩
  popped := fun _ h => absurd rfl h
  callbacks := fun _ _ h => absurd h List.not_mem_nil
  released := fun _ h => absurd h Bool.false_ne_true
  todo := fun _ h => absurd h List.not_mem_nil
  todoNodup := List.nodup_nil
  hasty := fun _ h => absurd h Bool.false_ne_true.symm
  dictNodup := fun _ => List.nodup_nil
  before := fun _ _ => rfl

theorem followed_of_reachWhen (h : asyncio.ReachWhen InTime s) : Followed s :=
  h.invariant followed_init fun _ _ hr hinv hok hen =>
    hinv.next (routed_of_reach hr.reach) hok hen

/-- **`asend` and `arecv` report the truth** in every run in which each
call that comes to its skip point before nng has fired does so in time,
and no `arecv` submits an operation of a released manager. -/
theorem honest_of_inTime (h : asyncio.ReachWhen InTime s) : Honest s :=
  (followed_of_reachWhen h).honest (routed_of_reach h.reach)

/-! ## Calls overtaken by `close` -/

/-- A call up to the operation it makes at address 5. -/
def begun (call : Call) : List Act := [.check 0 call, .getAioManager 0, .createAio 0 5]

/-- A run of `close`, up to the snapshot. -/
def closed : List Act := [.shut, .closeHandle, .lockManagers, .release]

/-- nng fails the submission with `NNG_ECLOSED`, after the skip point. -/
def failed : List Act := [.submit 0, .reachSkipPoint 0, .complete 0 7, .fire 0, .push 0]

/-- The call awaits when `close` comes: `release` waits for nng, and `arecv`
raises `NNG_ECLOSED`. -/
theorem honest_of_inTime_awaiting :
    Honest (asyncio.final asyncio.init
      (begun .arecv ++ [.prepareSubmit 0] ++ failed ++ closed ++
        [.runReleased, .clearManagers, .deliver 0, .resume 0])) :=
  honest_of_inTime (Machine.reachWhen_final (by decide +kernel) (by decide +kernel))

/-- The snapshot has the operation registered and not submitted. -/
def snapshotRegistered (call : Call) : State :=
  asyncio.final asyncio.init
    (begun call ++ [.prepareSubmit 0] ++ closed ++ [.runReleased, .clearManagers] ++ failed ++
      [.deliver 0, .resume 0])

/-- The snapshot has it made and not registered. -/
def snapshotMade : State :=
  asyncio.final asyncio.init
    (begun .arecv ++ closed ++ [.clearManagers, .prepareSubmit 0] ++ failed)

/-- The operation is made with a manager already released. -/
def snapshotBefore : State :=
  asyncio.final asyncio.init
    ([.check 0 .arecv, .getAioManager 0] ++ closed ++
      [.clearManagers, .createAio 0 5, .prepareSubmit 0])

/-- **Each window has its own wrong outcome.** `asend` returns although its
aio ended with `NNG_ECLOSED`; `arecv` raises that there is no message, or a
`TypeError`; or it awaits a future that nobody resolves. -/
theorem dishonest_when_overtaken :
    ¬ (∀ s, asyncio.Reach s → Honest s) ∧
      ((snapshotRegistered .asend).op 0).pc = .ended .returned ∧
      ((snapshotRegistered .asend).op 0).aio = .finished 7 ∧
      ((snapshotRegistered .arecv).op 0).pc = .ended (.raised .noMessage) ∧
      (snapshotMade.op 0).pc = .awaiting ∧
      (snapshotBefore.op 0).pc = .ended (.raised .typeError) := by
  refine ⟨fun hclaim => ?_, by decide +kernel, by decide +kernel, by decide +kernel,
    by decide +kernel, by decide +kernel⟩
  have hmade := hclaim snapshotMade (Machine.reach_final (by decide +kernel))
  rcases hmade.heard 0 (by decide +kernel) (by decide +kernel) with
    ⟨hlive, -⟩ | hcb | htodo | hsched
  · revert hlive; decide +kernel
  · revert hcb; decide +kernel
  · revert htodo; decide +kernel
  · revert hsched; decide +kernel

end Async

end PyNng
