import PyNng.Async.Stage
import PyNng.Proactor.Model
import Mathlib.Data.List.Nodup
/-!
# Proactor — what becomes of the operations when the drain task ends

An operation whose id is in the manager's queue, or is yet to be pushed to
it, needs the drain task; one on the fallback path has the dispatcher
thread. The flag that sends operations to the fallback path is read when
they are made, and set at one of the places only where the task may end.

`stranded_iff` says which runs leave no operation behind.
-/

namespace PyNng

namespace Proactor

open Async (Call Pc Aio)

variable {s s' : State} {a : Act} {i j : ℕ}

/-! ## Where a call and its operation stand -/

/-- The call has the loop's thread. -/
def onThread : Pc → Bool
  | .created | .registered | .submitted | .skipped | .fast | .cancelling => true
  | _ => false

/-- The operation is yet to be submitted. -/
def early : Pc → Bool
  | .unborn | .checked | .managed | .created | .registered => true
  | _ => false

/-- Its id is in a queue, or its callback has not returned. -/
def State.Pending (s : State) (i : ℕ) : Prop :=
  i ∈ s.queue ∨ i ∈ s.dispatchQueue ∨ (s.op i).aio.isBusy = true

/-- **What is so of every operation**, whatever happens to the drain task. -/
structure Placed (s : State) (i : ℕ) : Prop where
  thread : onThread (s.op i).pc = true → s.thread = some i
  idle : early (s.op i).pc = true → (s.op i).aio = .idle
  queued : i ∈ s.queue → (s.op i).aio.isFinished = true ∧ (s.op i).path = .queue
  dispatched : i ∈ s.dispatchQueue → (s.op i).aio.isFinished = true
  registered : (s.op i).path = .fallback →
    (s.op i).pc = .registered ∨ i ∈ s.dispatchQueue ∨ (s.op i).aio.isBusy = true →
      i ∈ s.callables

/-- What is yet to be submitted is in no queue. -/
theorem Placed.unsubmitted (hp : Placed s i) (hearly : early (s.op i).pc = true) :
    (s.op i).aio = .idle ∧ i ∉ s.queue ∧ i ∉ s.dispatchQueue := by
  have hidle := hp.idle hearly
  refine ⟨hidle, fun hq => ?_, fun hq => ?_⟩
  · have hfinished := (hp.queued hq).1
    rw [hidle] at hfinished
    cases hfinished
  · have hfinished := hp.dispatched hq
    rw [hidle] at hfinished
    cases hfinished

/-- What is awaited was submitted, and is in no queue. -/
theorem Placed.awaited (hp : Placed s i) (hbusy : (s.op i).aio.isBusy = true) :
    early (s.op i).pc = false ∧ i ∉ s.queue ∧ i ∉ s.dispatchQueue := by
  have hunfinished := Aio.not_isFinished hbusy
  refine ⟨?_, fun hq => ?_, fun hq => ?_⟩
  · by_contra hearly
    rw [Bool.not_eq_false] at hearly
    rw [hp.idle hearly] at hbusy
    cases hbusy
  · rw [(hp.queued hq).1] at hunfinished
    cases hunfinished
  · rw [hp.dispatched hq] at hunfinished
    cases hunfinished

/-- The step is not about the operation. -/
structure SameFor (s s' : State) (j : ℕ) : Prop where
  op : s'.op j = s.op j
  thread : s.thread = some j → s'.thread = some j
  queue : j ∈ s'.queue → j ∈ s.queue
  dispatchQueue : j ∈ s'.dispatchQueue → j ∈ s.dispatchQueue
  callables : j ∈ s.callables → j ∈ s'.callables

theorem SameFor.placed (h : SameFor s s' j) (hp : Placed s j) : Placed s' j where
  thread := by
    rw [h.op]
    exact fun hpc => h.thread (hp.thread hpc)
  idle := by
    rw [h.op]
    exact hp.idle
  queued := by
    rw [h.op]
    exact fun hq => hp.queued (h.queue hq)
  dispatched := by
    rw [h.op]
    exact fun hq => hp.dispatched (h.dispatchQueue hq)
  registered := by
    rw [h.op]
    exact fun hpath hw =>
      h.callables (hp.registered hpath (hw.imp_right (Or.imp_left h.dispatchQueue)))

theorem SameFor.pending (h : SameFor s s' j) (hp : s'.Pending j) : s.Pending j := by
  unfold State.Pending at hp
  rw [h.op] at hp
  exact hp.imp h.queue (Or.imp_left h.dispatchQueue)

/-- The operation a step is about. -/
def State.subject (s : State) : Act → Option ℕ
  | .createAio i _ | .buildFails i _ | .prepareSubmit i | .submit i | .complete i _ | .fire i
  | .push i | .reachSkipPoint i | .cancelDispatch i | .finishFast i | .deliver i | .resume i
  | .cancel i | .finishCancel i => some i
  | .callback => s.drain.callbacks.head?
  | .pop => s.dispatchQueue.head?
  | .runPopped => s.popped
  | .start | .drainReady | .goRound | .cancelUnstarted | .cancelReceiving | .recvRaises => none

theorem sameFor_setOp (h : j ≠ i) (o : Op) : SameFor s (s.setOp i o) j :=
  ⟨setOp_op_of_ne h o, id, id, id, id⟩

theorem SameFor.setOp (h : SameFor s s' j) (hne : j ≠ i) (o : Op) :
    SameFor s (s'.setOp i o) j :=
  ⟨(setOp_op_of_ne hne o).trans h.op, h.thread, h.queue, h.dispatchQueue, h.callables⟩

/-- The thread goes to or from another call. -/
theorem sameFor_thread (hne : s.thread ≠ some j) (t : Option ℕ) :
    SameFor s { s with thread := t } j :=
  ⟨rfl, fun h => absurd h hne, id, id, id⟩

theorem mem_register {l : List ℕ} : j ∈ register i l ↔ j = i ∨ j ∈ l := by
  unfold register
  by_cases h : j = i <;> simp [h]

theorem mem_unregister {l : List ℕ} : j ∈ unregister i l ↔ j ∈ l ∧ j ≠ i := by
  simp [unregister]

theorem loopFree_thread (h : s.loopFree = true) : s.thread = none := by
  simp only [State.loopFree, Bool.and_eq_true, Option.isNone_iff_eq_none] at h
  exact h.1

theorem sameFor_runFirst (f : Async.Op → Async.Op) {l : List ℕ} (h : l.head? ≠ some j) :
    SameFor s (s.runFirst f l) j := by
  cases l with
  | nil => exact ⟨rfl, id, id, id, id⟩
  | cons i l => exact sameFor_setOp (fun hji => h (by rw [hji]; rfl)) _

/-- **A step leaves the other operations alone.** -/
theorem sameFor_next (hp : ∀ i, Placed s i) (hen : Enabled s a) (h : s.subject a ≠ some j) :
    SameFor s (next s a) j := by
  have hsame : SameFor s s j := ⟨rfl, id, id, id, id⟩
  -- the call that has the thread is not the other operation's
  have hthread : ∀ {i}, onThread (s.op i).pc = true → j ≠ i → s.thread ≠ some j := by
    intro i hpc hne ht
    exact hne (Option.some.inj (ht.symm.trans ((hp i).thread hpc)))
  have hfree : s.loopFree = true → s.thread ≠ some j := by
    intro hl
    simp [loopFree_thread hl]
  cases a with
  | createAio i call =>
    exact (sameFor_thread (hfree hen.1) _).setOp (fun hji => h (by rw [hji]; rfl)) _
  | buildFails i rc =>
    have hne : j ≠ i := fun hji => h (by rw [hji]; rfl)
    exact (sameFor_thread (hthread (by rw [hen.1]; rfl) hne) _).setOp hne _
  | prepareSubmit i =>
    have hne : j ≠ i := fun hji => h (by rw [hji]; rfl)
    refine SameFor.setOp ?_ hne _
    unfold State.prepareSubmit
    cases (s.op i).path with
    | queue => exact ⟨rfl, id, id, id, id⟩
    | fallback => exact ⟨rfl, id, id, id, fun hj => mem_register.mpr (Or.inr hj)⟩
  | submit i | complete i rc => exact sameFor_setOp (fun hji => h (by rw [hji]; rfl)) _
  | fire i =>
    have hne : j ≠ i := fun hji => h (by rw [hji]; rfl)
    simp only [next]
    split <;> exact sameFor_setOp hne _
  | push i =>
    have hne : j ≠ i := fun hji => h (by rw [hji]; rfl)
    refine SameFor.setOp ?_ hne _
    unfold State.push
    cases (s.op i).path with
    | queue => exact ⟨rfl, id, fun hj => by simpa [hne] using hj, id, id⟩
    | fallback => exact ⟨rfl, id, id, fun hj => by simpa [hne] using hj, id⟩
  | reachSkipPoint i =>
    have hne : j ≠ i := fun hji => h (by rw [hji]; rfl)
    have hfreed := (sameFor_thread (hthread (by rw [hen]; rfl) hne) none)
    simp only [next]
    split
    · exact hfreed.setOp hne _
    · split
      · exact hsame.setOp hne _
      · exact hfreed.setOp hne _
  | cancelDispatch i =>
    refine SameFor.setOp ?_ (fun hji => h (by rw [hji]; rfl)) _
    exact ⟨rfl, id, id, id, id⟩
  | finishFast i | finishCancel i =>
    have hne : j ≠ i := fun hji => h (by rw [hji]; rfl)
    exact (sameFor_thread (hthread (by rw [hen.1]; rfl) hne) _).setOp hne _
  | deliver i =>
    simp only [next]
    cases (s.op i).scheduled with
    | none => exact hsame
    | some rc => exact sameFor_setOp (fun hji => h (by rw [hji]; rfl)) _
  | resume i =>
    simp only [next]
    cases (s.op i).fut with
    | resolved rc => exact sameFor_setOp (fun hji => h (by rw [hji]; rfl)) _
    | pending | cancelled => exact hsame
  | cancel i =>
    exact (sameFor_thread (hfree hen.1) _).setOp (fun hji => h (by rw [hji]; rfl)) _
  | start | goRound | cancelUnstarted | cancelReceiving | recvRaises =>
    exact ⟨rfl, id, id, id, id⟩
  | drainReady => exact ⟨rfl, id, fun hj => absurd hj List.not_mem_nil, id, id⟩
  | callback =>
    have hrun := sameFor_runFirst (s := s) Async.Op.dispatchComplete h
    exact ⟨hrun.op, hrun.thread, hrun.queue, hrun.dispatchQueue, hrun.callables⟩
  | pop =>
    simp only [next]
    cases hq : s.dispatchQueue with
    | nil => exact hsame
    | cons i rest =>
      have hne : j ≠ i := fun hji => h (by rw [hji]; simp [State.subject, hq])
      have hrest : j ∈ rest → j ∈ s.dispatchQueue := by
        rw [hq]
        exact List.mem_cons_of_mem _
      exact ⟨rfl, id, id, hrest, fun hj => mem_unregister.mpr ⟨hj, hne⟩⟩
  | runPopped =>
    have hrun : SameFor s (s.runFirst Async.Op.dispatchCompleteSafe s.popped.toList) j := by
      refine sameFor_runFirst _ fun hhead => h ?_
      cases hpop : s.popped with
      | none => simp [hpop] at hhead
      | some i => simpa [hpop, State.subject] using hhead
    exact ⟨hrun.op, hrun.thread, hrun.queue, hrun.dispatchQueue, hrun.callables⟩

/-- What a step must keep of the operation it is about. -/
theorem placed_setOp {o : Op} (thread : onThread o.pc = true → s.thread = some i)
    (idle : early o.pc = true → o.aio = .idle)
    (queued : i ∈ s.queue → o.aio.isFinished = true ∧ o.path = .queue)
    (dispatched : i ∈ s.dispatchQueue → o.aio.isFinished = true)
    (registered : o.path = .fallback →
      o.pc = .registered ∨ i ∈ s.dispatchQueue ∨ o.aio.isBusy = true → i ∈ s.callables) :
    Placed (s.setOp i o) i := by
  constructor <;> rw [setOp_op_self] <;> assumption

/-- The step moves the call on, and leaves the aio and the queues. -/
theorem Placed.move (hp : Placed s i) {o : Op} (thread : onThread o.pc = true → s'.thread = some i)
    (haio : o.aio = (s.op i).aio) (hpath : o.path = (s.op i).path) (hearly : early o.pc = false)
    (hqueue : s'.queue = s.queue) (hdispatch : s'.dispatchQueue = s.dispatchQueue)
    (hcallables : s'.callables = s.callables) : Placed (s'.setOp i o) i := by
  refine placed_setOp thread (fun h => absurd h (by simp [hearly])) ?_ ?_ ?_
  · rw [haio, hpath, hqueue]
    exact hp.queued
  · rw [haio, hdispatch]
    exact hp.dispatched
  · rw [haio, hpath, hdispatch, hcallables]
    intro hf hw
    refine hp.registered hf (hw.imp_left fun hpc => ?_)
    rw [hpc] at hearly
    exact Bool.noConfusion hearly

/-- The step moves the aio on. -/
theorem Placed.moveAio (hp : Placed s i) {o : Op} (hpc : o.pc = (s.op i).pc)
    (hpath : o.path = (s.op i).path) (hbusy : (s.op i).aio.isBusy = true) :
    Placed (s.setOp i o) i := by
  obtain ⟨hsubmitted, hnotQueued, hnotDispatched⟩ := hp.awaited hbusy
  refine placed_setOp ?_ ?_ (fun h => absurd h hnotQueued) (fun h => absurd h hnotDispatched) ?_
  · rw [hpc]
    exact hp.thread
  · rw [hpc, hsubmitted]
    exact fun h => Bool.noConfusion h
  · rw [hpath]
    exact fun hf _ => hp.registered hf (Or.inr (Or.inr hbusy))

/-- The step touches the future only. -/
theorem Placed.same (hp : Placed s i) {o : Op} (hpc : o.pc = (s.op i).pc)
    (haio : o.aio = (s.op i).aio) (hpath : o.path = (s.op i).path) : Placed (s.setOp i o) i := by
  constructor <;> rw [setOp_op_self]
  · rw [hpc]
    exact hp.thread
  · rw [hpc, haio]
    exact hp.idle
  · rw [haio, hpath]
    exact hp.queued
  · rw [haio]
    exact hp.dispatched
  · rw [hpc, haio, hpath]
    exact hp.registered

theorem placed_runFirst (hp : Placed s i) {f : Async.Op → Async.Op} {l : List ℕ}
    (hpc : ∀ o, (f o).pc = o.pc) (haio : ∀ o, (f o).aio = o.aio) :
    Placed (s.runFirst f l) i := by
  cases l with
  | nil => exact hp
  | cons k l =>
    by_cases hik : i = k
    · subst hik
      exact hp.same (hpc _) (haio _) rfl
    · exact (sameFor_setOp hik _).placed hp

@[simp] theorem dispatchComplete_pc (o : Async.Op) : o.dispatchComplete.pc = o.pc := by
  unfold Async.Op.dispatchComplete
  split <;> rfl

@[simp] theorem dispatchComplete_aio (o : Async.Op) : o.dispatchComplete.aio = o.aio := by
  unfold Async.Op.dispatchComplete
  split <;> rfl

@[simp] theorem dispatchCompleteSafe_pc (o : Async.Op) : o.dispatchCompleteSafe.pc = o.pc := by
  unfold Async.Op.dispatchCompleteSafe
  split <;> rfl

@[simp] theorem dispatchCompleteSafe_aio (o : Async.Op) :
    o.dispatchCompleteSafe.aio = o.aio := by
  unfold Async.Op.dispatchCompleteSafe
  split <;> rfl

/-- Each id is in the dispatcher's queue once, so that what is popped is
not awaited any more. -/
theorem placed_pop (hp : Placed s i) (hnodup : s.dispatchQueue.Nodup)
    (hhead : s.dispatchQueue.head? = some i) : Placed (next s .pop) i := by
  simp only [next]
  cases hq : s.dispatchQueue with
  | nil => simp [hq] at hhead
  | cons k rest =>
    have hki : k = i := by simpa [hq] using hhead
    subst hki
    have hmem : k ∈ s.dispatchQueue := by simp [hq]
    rw [hq, List.nodup_cons] at hnodup
    refine ⟨hp.thread, hp.idle, hp.queued, fun _ => hp.dispatched hmem, fun _ hw => ?_⟩
    exfalso
    rcases hw with hpc | hrest | hbusy
    · exact (hp.unsubmitted (by rw [hpc]; rfl)).2.2 hmem
    · exact hnodup.1 hrest
    · exact (hp.awaited hbusy).2.2 hmem

/-- The push finds the id in no queue. -/
theorem placed_push (hp : Placed s i) (hen : (s.op i).aio.isPushing = true) :
    Placed (next s (.push i)) i := by
  have hbusy := Aio.isBusy_of_isPushing hen
  obtain ⟨hsubmitted, hnotQueued, -⟩ := hp.awaited hbusy
  refine placed_setOp ?_ (fun h => ?_) (fun hq => ⟨rfl, ?_⟩) (fun _ => rfl) ?_
  · intro h
    have := hp.thread h
    unfold State.push
    split <;> exact this
  · change early (s.op i).pc = true at h
    rw [hsubmitted] at h
    cases h
  · unfold State.push at hq
    cases hpath : (s.op i).path with
    | queue => rfl
    | fallback =>
      simp only [hpath] at hq
      exact absurd hq hnotQueued
  · intro hf _
    have := hp.registered hf (Or.inr (Or.inr hbusy))
    unfold State.push
    split <;> exact this

/-- **One step keeps every operation in its place.** -/
theorem placed_next (hp : ∀ i, Placed s i) (hnodup : s.dispatchQueue.Nodup) (hen : Enabled s a)
    (i : ℕ) : Placed (next s a) i := by
  by_cases hsub : s.subject a = some i
  · have h := hp i
    cases a with
    | createAio k call =>
      obtain rfl : k = i := Option.some.inj hsub
      obtain ⟨hidle, hnotQueued, hnotDispatched⟩ := h.unsubmitted (by rw [hen.2]; rfl)
      refine placed_setOp (fun _ => rfl) (fun _ => hidle) (fun hq => absurd hq hnotQueued)
        h.dispatched fun _ hw => ?_
      rcases hw with hpc | hq | hbusy
      · exact Pc.noConfusion hpc
      · exact absurd hq hnotDispatched
      · exact absurd hbusy (by simp [hidle, Aio.isBusy])
    | buildFails k rc =>
      obtain rfl : k = i := Option.some.inj hsub
      exact h.move (fun hpc => Bool.noConfusion hpc) rfl rfl rfl rfl rfl rfl
    | prepareSubmit k =>
      obtain rfl : k = i := Option.some.inj hsub
      have hpc : (s.op k).pc = .created := hen
      have ht := h.thread (by rw [hpc]; rfl)
      obtain ⟨hidle, hnotQueued, -⟩ := h.unsubmitted (by rw [hpc]; rfl)
      simp only [next, State.prepareSubmit]
      refine placed_setOp (fun _ => ?_) (fun _ => hidle) (fun hq => absurd ?_ hnotQueued) ?_ ?_
      · cases (s.op k).path <;> exact ht
      · revert hq
        cases (s.op k).path <;> exact id
      · cases (s.op k).path <;> exact h.dispatched
      · intro hf _
        have hf' : (s.op k).path = .fallback := hf
        rw [hf']
        exact mem_register.mpr (Or.inl rfl)
    | submit k =>
      obtain rfl : k = i := Option.some.inj hsub
      have hpc : (s.op k).pc = .registered := hen
      obtain ⟨-, hnotQueued, hnotDispatched⟩ := h.unsubmitted (by rw [hpc]; rfl)
      exact placed_setOp (fun _ => h.thread (by rw [hpc]; rfl)) (fun he => Bool.noConfusion he)
        (fun hq => absurd hq hnotQueued) (fun hq => absurd hq hnotDispatched)
        fun hf _ => h.registered hf (Or.inl hpc)
    | complete k rc =>
      obtain rfl : k = i := Option.some.inj hsub
      exact h.moveAio rfl rfl (Aio.MayEnd.isBusy hen)
    | fire k =>
      obtain rfl : k = i := Option.some.inj hsub
      simp only [next]
      split <;> exact h.moveAio rfl rfl (Aio.isBusy_of_isCompleted hen)
    | push k =>
      obtain rfl : k = i := Option.some.inj hsub
      exact placed_push h hen
    | reachSkipPoint k =>
      obtain rfl : k = i := Option.some.inj hsub
      have ht := h.thread (by rw [show (s.op k).pc = .submitted from hen]; rfl)
      simp only [next]
      split
      · exact h.move (fun hpc => Bool.noConfusion hpc) rfl rfl rfl rfl rfl rfl
      · split
        · exact h.move (fun _ => ht) rfl rfl rfl rfl rfl rfl
        · exact h.move (fun hpc => Bool.noConfusion hpc) rfl rfl rfl rfl rfl rfl
    | cancelDispatch k =>
      obtain rfl : k = i := Option.some.inj hsub
      have ht := h.thread (by rw [show (s.op k).pc = .skipped from hen]; rfl)
      exact h.move (fun _ => ht) rfl rfl rfl rfl rfl rfl
    | finishFast k | finishCancel k =>
      obtain rfl : k = i := Option.some.inj hsub
      exact h.move (fun hpc => Bool.noConfusion hpc) rfl rfl rfl rfl rfl rfl
    | deliver k =>
      obtain rfl : k = i := Option.some.inj hsub
      simp only [next]
      split
      · exact h.same rfl rfl rfl
      · exact h
    | resume k =>
      obtain rfl : k = i := Option.some.inj hsub
      simp only [next]
      split
      · exact h.move (fun hpc => Bool.noConfusion hpc) rfl rfl rfl rfl rfl rfl
      · exact h
    | cancel k =>
      obtain rfl : k = i := Option.some.inj hsub
      exact h.move (fun _ => rfl) rfl rfl rfl rfl rfl rfl
    | callback =>
      have hrun := placed_runFirst (l := s.drain.callbacks) h dispatchComplete_pc
        dispatchComplete_aio
      exact ⟨hrun.thread, hrun.idle, hrun.queued, hrun.dispatched, hrun.registered⟩
    | pop => exact placed_pop h hnodup hsub
    | runPopped =>
      have hrun := placed_runFirst (l := s.popped.toList) h dispatchCompleteSafe_pc
        dispatchCompleteSafe_aio
      exact ⟨hrun.thread, hrun.idle, hrun.queued, hrun.dispatched, hrun.registered⟩
    | start | drainReady | goRound | cancelUnstarted | cancelReceiving | recvRaises =>
      simp [State.subject] at hsub
  · exact (sameFor_next hp hen hsub).placed (hp i)

/-- Each id is in the dispatcher's queue at most once. -/
theorem nodup_next (hp : ∀ i, Placed s i) (hnodup : s.dispatchQueue.Nodup) (hen : Enabled s a) :
    (next s a).dispatchQueue.Nodup := by
  cases a with
  | push i =>
    show (s.push i).dispatchQueue.Nodup
    unfold State.push
    cases (s.op i).path with
    | queue => exact hnodup
    | fallback =>
      have hnot := ((hp i).awaited (Aio.isBusy_of_isPushing hen)).2.2
      exact List.nodup_append.mpr ⟨hnodup, by simp, by
        intro k hk l hl hkl
        rw [hkl, List.mem_singleton.mp hl] at hk
        exact hnot hk⟩
  | pop =>
    simp only [next]
    cases hq : s.dispatchQueue with
    | nil =>
      rw [hq]
      exact List.nodup_nil
    | cons i rest =>
      rw [hq] at hnodup
      exact (List.nodup_cons.mp hnodup).2
  | fire i | reachSkipPoint i | deliver i | resume i =>
    simp only [next]
    (repeat' split) <;> exact hnodup
  | prepareSubmit i =>
    show (s.prepareSubmit i).dispatchQueue.Nodup
    unfold State.prepareSubmit
    cases (s.op i).path <;> exact hnodup
  | callback =>
    show (s.runFirst _ s.drain.callbacks).dispatchQueue.Nodup
    cases s.drain.callbacks <;> exact hnodup
  | runPopped =>
    show (s.runFirst _ s.popped.toList).dispatchQueue.Nodup
    cases s.popped <;> exact hnodup
  | createAio i call | buildFails i rc | submit i | complete i rc | cancelDispatch i | finishFast i
  | cancel i | finishCancel i | start | drainReady | goRound | cancelUnstarted | cancelReceiving
  | recvRaises => exact hnodup

theorem placed_init (i : ℕ) : Placed proactor.init i :=
  ⟨fun h => Bool.noConfusion h, fun _ => rfl, fun h => absurd h List.not_mem_nil,
    fun h => absurd h List.not_mem_nil, fun h => Path.noConfusion h⟩

theorem placed_of_reach (hr : proactor.Reach s) :
    (∀ i, Placed s i) ∧ s.dispatchQueue.Nodup := by
  induction hr with
  | init => exact ⟨placed_init, List.nodup_nil⟩
  | step _ _ hen ih => exact ⟨placed_next ih.1 ih.2 hen, nodup_next ih.1 ih.2 hen⟩

/-! ## The end of the drain task -/

/-- **No operation is left behind.** -/
structure NotStranded (s : State) : Prop where
  /-- What is pushed, or is yet to be, is popped by the drain task or the dispatcher. -/
  served : ∀ i, s.Pending i →
    s.drain ≠ .ended ∨ ((s.op i).path = .fallback ∧ i ∈ s.callables)
  /-- What is made after the task ended is on the fallback path. -/
  fallsBack : ∀ i, (s.op i).late = true → (s.op i).path = .fallback

/-- Nothing on the queue path is pending. -/
def State.queueIdle (s : State) : Prop := ∀ i, (s.op i).path = .queue → ¬ s.Pending i

/-- The task does not end while an operation on the queue path is pending,
and no operation is made between an end that did not set the flag and one
that did. -/
def Spared (s : State) (a : Act) : Prop :=
  match a with
  | .cancelUnstarted | .cancelReceiving | .recvRaises => s.queueIdle
  | .createAio _ _ => s.drain = .ended → s.taskUserCancelled = true
  | _ => True

/-- An operation on the queue path is not pending, and is not about to be
submitted. -/
def Quiet (s : State) (i : ℕ) : Prop :=
  (s.op i).path = .queue →
    ¬ s.Pending i ∧ (s.op i).pc ≠ .created ∧ (s.op i).pc ≠ .registered

/-- **After the end nothing more comes to the queue path.** -/
structure Safe (s : State) : Prop where
  quiet : s.drain = .ended → ∀ i, Quiet s i
  fallsBack : ∀ i, (s.op i).late = true → (s.op i).path = .fallback

theorem Safe.notStranded (h : Safe s) (hp : ∀ i, Placed s i) : NotStranded s := by
  refine ⟨fun i hpend => ?_, h.fallsBack⟩
  by_cases hended : s.drain = .ended
  · right
    have hpath : (s.op i).path = .fallback := by
      cases hpath : (s.op i).path with
      | queue => exact absurd hpend (h.quiet hended i hpath).1
      | fallback => rfl
    refine ⟨hpath, (hp i).registered hpath (Or.inr (hpend.resolve_left fun hq => ?_))⟩
    exact Path.noConfusion (hpath.symm.trans ((hp i).queued hq).2)
  · exact Or.inl hended

theorem SameFor.quiet (h : SameFor s s' j) (hq : Quiet s j) : Quiet s' j := by
  unfold Quiet
  rw [h.op]
  exact fun hpath => (hq hpath).imp_left fun hn hpend => hn (h.pending hpend)

/-- A pending operation is not quiet. -/
theorem Quiet.not_busy (hq : Quiet s i) (hpath : (s.op i).path = .queue) :
    (s.op i).aio.isBusy ≠ true :=
  fun hbusy => (hq hpath).1 (Or.inr (Or.inr hbusy))

/-- The call moves on past its submission. -/
theorem Quiet.move (hq : Quiet s i) {o : Op} (hpath : o.path = (s.op i).path)
    (haio : o.aio = (s.op i).aio) (hpc : o.pc ≠ .created ∧ o.pc ≠ .registered)
    (hqueue : s'.queue = s.queue) (hdispatch : s'.dispatchQueue = s.dispatchQueue) :
    Quiet (s'.setOp i o) i := by
  unfold Quiet State.Pending
  rw [setOp_op_self, hpath, haio]
  refine fun hqueued => ⟨?_, hpc⟩
  show ¬ (i ∈ s'.queue ∨ i ∈ s'.dispatchQueue ∨ _)
  rw [hqueue, hdispatch]
  exact (hq hqueued).1

/-- What is made after the end is made on the fallback path. -/
theorem quiet_createAio {call : Call} (hflag : s.taskUserCancelled = true) :
    Quiet (next s (.createAio i call)) i := by
  intro hpath
  simp [next, State.createAioForSocket, hflag] at hpath

theorem quiet_runFirst (hq : Quiet s i) {f : Async.Op → Async.Op} {l : List ℕ}
    (hpc : ∀ o, (f o).pc = o.pc) (haio : ∀ o, (f o).aio = o.aio) :
    Quiet (s.runFirst f l) i := by
  cases l with
  | nil => exact hq
  | cons k l =>
    by_cases hik : i = k
    · subst hik
      unfold Quiet State.Pending State.runFirst
      rw [setOp_op_self]
      simp only [hpc, haio]
      exact hq
    · exact (sameFor_setOp hik _).quiet hq

/-- Submitting, completing and pushing are left to the fallback path. -/
theorem Quiet.of_path (hno : (s.op i).path ≠ .queue) {o : Op} (hpath : o.path = (s.op i).path) :
    Quiet (s'.setOp i o) i := by
  unfold Quiet
  rw [setOp_op_self, hpath]
  exact fun hqueue => absurd hqueue hno

/-- **Once the task has ended, a step leaves every operation quiet.** -/
theorem quiet_next (hp : ∀ i, Placed s i) (hq : ∀ i, Quiet s i) (hended : s.drain = .ended)
    (hok : Spared s a) (hen : Enabled s a) (i : ℕ) : Quiet (next s a) i := by
  by_cases hsub : s.subject a = some i
  · have h := hq i
    cases a with
    | createAio k call =>
      obtain rfl : k = i := Option.some.inj hsub
      exact quiet_createAio (hok hended)
    | buildFails k rc =>
      obtain rfl : k = i := Option.some.inj hsub
      exact Quiet.of_path (fun hpath => (h hpath).2.1 hen.1) rfl
    | prepareSubmit k =>
      obtain rfl : k = i := Option.some.inj hsub
      exact Quiet.of_path (fun hpath => (h hpath).2.1 hen) rfl
    | submit k =>
      obtain rfl : k = i := Option.some.inj hsub
      exact Quiet.of_path (fun hpath => (h hpath).2.2 hen) rfl
    | complete k rc =>
      obtain rfl : k = i := Option.some.inj hsub
      have hbusy : (s.op k).aio.isBusy = true := Aio.MayEnd.isBusy hen
      exact Quiet.of_path (fun hpath => h.not_busy hpath hbusy) rfl
    | fire k =>
      obtain rfl : k = i := Option.some.inj hsub
      have hbusy : (s.op k).aio.isBusy = true := Aio.isBusy_of_isCompleted hen
      simp only [next]
      split <;> exact Quiet.of_path (fun hpath => h.not_busy hpath hbusy) rfl
    | push k =>
      obtain rfl : k = i := Option.some.inj hsub
      have hbusy : (s.op k).aio.isBusy = true := Aio.isBusy_of_isPushing hen
      exact Quiet.of_path (fun hpath => h.not_busy hpath hbusy) rfl
    | reachSkipPoint k =>
      obtain rfl : k = i := Option.some.inj hsub
      simp only [next]
      (repeat' split) <;> exact h.move rfl rfl ⟨Pc.noConfusion, Pc.noConfusion⟩ rfl rfl
    | cancelDispatch k | finishFast k | cancel k | finishCancel k =>
      obtain rfl : k = i := Option.some.inj hsub
      exact h.move rfl rfl ⟨Pc.noConfusion, Pc.noConfusion⟩ rfl rfl
    | deliver k =>
      obtain rfl : k = i := Option.some.inj hsub
      simp only [next]
      split
      · unfold Quiet State.Pending
        rw [setOp_op_self]
        exact h
      · exact h
    | resume k =>
      obtain rfl : k = i := Option.some.inj hsub
      simp only [next]
      split
      · exact h.move rfl rfl ⟨Pc.noConfusion, Pc.noConfusion⟩ rfl rfl
      · exact h
    | callback => exact quiet_runFirst h dispatchComplete_pc dispatchComplete_aio
    | runPopped => exact quiet_runFirst h dispatchCompleteSafe_pc dispatchCompleteSafe_aio
    | pop =>
      simp only [next]
      cases hdq : s.dispatchQueue with
      | nil => exact h
      | cons k rest =>
        refine fun hpath => (h hpath).imp_left fun hn hpend => hn (hpend.imp_right (Or.imp_left ?_))
        rw [hdq]
        exact List.mem_cons_of_mem k
    | start | drainReady | goRound | cancelUnstarted | cancelReceiving | recvRaises =>
      simp [State.subject] at hsub
  · exact (sameFor_next hp hen hsub).quiet (hq i)

/-- With the loop free, no call is between its creation and its submission. -/
theorem Placed.not_submitting (hp : Placed s i) (hfree : s.loopFree = true) :
    (s.op i).pc ≠ .created ∧ (s.op i).pc ≠ .registered := by
  have hthread := hp.thread
  rw [loopFree_thread hfree] at hthread
  constructor <;>
  · intro hpc
    rw [hpc] at hthread
    exact absurd (hthread rfl) (by simp)

theorem runFirst_path (f : Async.Op → Async.Op) (l : List ℕ) :
    ((s.runFirst f l).op i).path = (s.op i).path ∧
      ((s.runFirst f l).op i).late = (s.op i).late := by
  cases l with
  | nil => exact ⟨rfl, rfl⟩
  | cons k l =>
    by_cases hik : i = k
    · subst hik
      unfold State.runFirst
      rw [setOp_op_self]
      exact ⟨rfl, rfl⟩
    · unfold State.runFirst
      rw [setOp_op_of_ne hik]
      exact ⟨rfl, rfl⟩

/-- An operation stays on the path it was made on. -/
theorem path_next (hp : ∀ i, Placed s i) (hen : Enabled s a)
    (hmade : ∀ call, a ≠ .createAio i call) :
    ((next s a).op i).path = (s.op i).path ∧ ((next s a).op i).late = (s.op i).late := by
  by_cases hsub : s.subject a = some i
  · cases a with
    | createAio k call =>
      obtain rfl : k = i := Option.some.inj hsub
      exact absurd rfl (hmade call)
    | buildFails k _ | prepareSubmit k | submit k | complete k _ | push k | cancelDispatch k
    | finishFast k | cancel k | finishCancel k =>
      obtain rfl : k = i := Option.some.inj hsub
      simp [next]
    | fire k | reachSkipPoint k | deliver k | resume k =>
      obtain rfl : k = i := Option.some.inj hsub
      simp only [next]
      (repeat' split) <;> simp
    | callback => exact runFirst_path _ _
    | runPopped => exact runFirst_path _ _
    | pop =>
      simp only [next]
      cases s.dispatchQueue <;> exact ⟨rfl, rfl⟩
    | start | drainReady | goRound | cancelUnstarted | cancelReceiving | recvRaises =>
      simp [State.subject] at hsub
  · rw [(sameFor_next hp hen hsub).op]
    exact ⟨rfl, rfl⟩

/-- What is made late is on the fallback path. -/
theorem fallsBack_next (h : Safe s) (hp : ∀ i, Placed s i) (hok : Spared s a) (hen : Enabled s a)
    (i : ℕ) (hlate : ((next s a).op i).late = true) : ((next s a).op i).path = .fallback := by
  by_cases hmade : ∃ call, a = .createAio i call
  · obtain ⟨call, rfl⟩ := hmade
    have hended : s.drain = .ended := by simpa [Proactor.next] using hlate
    have hflag : s.taskUserCancelled = true := hok hended
    simp [Proactor.next, State.createAioForSocket, hflag]
  · obtain ⟨hpath, hl⟩ := path_next hp hen fun call ha => hmade ⟨call, ha⟩
    rw [hpath]
    rw [hl] at hlate
    exact h.fallsBack i hlate

/-- The ends of the drain task. -/
def ends : Act → Bool
  | .cancelUnstarted | .cancelReceiving | .recvRaises => true
  | _ => false

/-- The task ends only where it is told to. -/
theorem drain_next (hends : ends a = false) (hended : (next s a).drain = .ended) :
    s.drain = .ended := by
  cases a with
  | prepareSubmit i =>
    have hsame : (s.prepareSubmit i).drain = s.drain := by
      unfold State.prepareSubmit
      split <;> rfl
    exact hsame.symm.trans hended
  | push i =>
    have hsame : (s.push i).drain = s.drain := by
      unfold State.push
      split <;> rfl
    exact hsame.symm.trans hended
  | runPopped =>
    have hsame : (s.runFirst Async.Op.dispatchCompleteSafe s.popped.toList).drain = s.drain := by
      cases s.popped <;> rfl
    exact hsame.symm.trans hended
  | fire i | reachSkipPoint i | deliver i | resume i | pop =>
    simp only [next] at hended
    revert hended
    (repeat' split) <;> exact id
  | cancelUnstarted | cancelReceiving | recvRaises => exact Bool.noConfusion hends
  | start | drainReady | callback | goRound => exact Drain.noConfusion hended
  | createAio i call | buildFails i rc | submit i | complete i rc | cancelDispatch i | finishFast i
  | cancel i | finishCancel i => exact hended

/-- Where the task may end, all the operations on the queue path are quiet. -/
theorem quiet_ends (hp : ∀ i, Placed s i) (hends : ends a = true) (hok : Spared s a)
    (hen : Enabled s a) (i : ℕ) : Quiet (next s a) i := by
  cases a with
  | cancelUnstarted | cancelReceiving | recvRaises =>
    exact fun hpath => ⟨hok i hpath, (hp i).not_submitting hen.1⟩
  | _ => exact Bool.noConfusion hends

/-- **One step.** -/
theorem Safe.next (h : Safe s) (hp : ∀ i, Placed s i) (hok : Spared s a) (hen : Enabled s a) :
    Safe (next s a) := by
  refine ⟨fun hended => ?_, fallsBack_next h hp hok hen⟩
  cases hends : ends a with
  | true => exact quiet_ends hp hends hok hen
  | false =>
    have hs := drain_next hends hended
    exact quiet_next hp (h.quiet hs) hs hok hen

/-! ## The runs that leave no operation behind -/

/-- **Any other step strands an operation**, or makes one that will be. -/
theorem stranded_of_not_spared (hok : ¬ Spared s a) : ¬ NotStranded (next s a) := by
  intro h
  cases a with
  | cancelUnstarted | cancelReceiving | recvRaises =>
    refine hok fun i hpath hpend => ?_
    rcases h.served i hpend with hdrain | ⟨hfallback, -⟩
    · exact hdrain rfl
    · exact Path.noConfusion (hpath.symm.trans hfallback)
  | createAio i call =>
    refine hok fun hended => ?_
    have hlate : ((next s (.createAio i call)).op i).late = true := by simp [next, hended]
    have hpath := h.fallsBack i hlate
    by_contra hflag
    simp [next, State.createAioForSocket, hflag] at hpath
  | _ => exact hok trivial

/-- **When no operation is stranded.** All along a run of the manager that is
not released, every id in a queue or yet to be pushed has somebody to pop it,
and what is made after the drain task ended is on the fallback path, exactly
when the task is not ended while an operation on the queue path is pending,
and no operation is made after an end that the flag was not set for. -/
theorem stranded_iff {as : List Act} (hv : proactor.Valid proactor.init as) :
    proactor.Throughout NotStranded proactor.init as ↔ proactor.Meets Spared proactor.init as := by
  have hinit : Safe proactor.init :=
    ⟨fun h => Drain.noConfusion h, fun _ h => Bool.noConfusion h⟩
  have hP : ∀ s, (Safe s ∧ ∀ i, Placed s i) → NotStranded s := fun s h => h.1.notStranded h.2
  refine Machine.throughout_iff_meets hP (fun s a hr h hok hen => ?_)
    (fun s a _ _ _ hok => stranded_of_not_spared hok) .init ⟨hinit, placed_init⟩ hv
  exact ⟨h.1.next h.2 hok hen, (placed_of_reach (hr.step trivial hen)).1⟩

/-- The task is cancelled between two operations: the second goes to the dispatcher. -/
theorem stranded_iff_idle :
    let as : List Act := [.start, .createAio 0 .arecv, .prepareSubmit 0, .submit 0,
      .reachSkipPoint 0, .complete 0 0, .fire 0, .push 0, .drainReady, .callback, .goRound,
      .resume 0, .cancelReceiving, .createAio 1 .asend, .prepareSubmit 1, .submit 1,
      .reachSkipPoint 1, .complete 1 0, .fire 1, .push 1]
    proactor.Throughout NotStranded proactor.init as ↔ proactor.Meets Spared proactor.init as :=
  stranded_iff (by decide)

/-- **A stranded operation.** The task is cancelled at `sock_recv` while a
call awaits its message; the message comes, and the id is popped by nobody. -/
theorem stranded_when_cancelled :
    ¬ ∀ as : List Act, proactor.Valid proactor.init as →
        proactor.Throughout NotStranded proactor.init as := by
  intro hclaim
  have h := (hclaim [.start, .createAio 0 .arecv, .prepareSubmit 0, .submit 0, .reachSkipPoint 0,
    .cancelReceiving, .complete 0 0, .fire 0, .push 0] (by decide)).final
  rcases h.served 0 (Or.inl (by decide)) with hdrain | ⟨hfallback, -⟩
  · exact hdrain (by decide)
  · exact absurd hfallback (by decide)

end Proactor

end PyNng
