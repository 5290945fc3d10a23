import PyNng.Dispatch.Model.DispatchQueue
import Mathlib.Data.List.Basic
/-!
# Dispatch — what the dispatcher leaves behind when it is stopped

`get_ready` finds the queue empty in one critical section, `is_stopped`
reads the flag after it, and an id may be pushed and the queue stopped in
between: the loop then ends with the id in the queue. Anywhere else a stop
is seen only after another `get_ready` that finds the queue empty, and by
then everything pushed before the stop has been dispatched.

`drained_iff` says that this one place is the difference.
-/

namespace PyNng

namespace DispatchQueue

variable {Pusher : Type*} [DecidableEq Pusher] {s : State Pusher} {a : Act Pusher}

/-! ## Every id is somewhere -/

/-- The id in `_dispatch_one`. -/
def LoopPc.inHand : LoopPc → List ℕ
  | .dispatching id => [id]
  | _ => []

/-- **Every id pushed** is dispatched, in hand or queued, in that order. -/
structure Accounted (s : State Pusher) : Prop where
  split : s.dispatched ++ (s.loop.inHand ++ s.queue) = s.pushed
  notifying : ∀ p k, s.pusher p = .notifying k → k < s.pushed.length
  completed : ∀ k, s.completed k = true → k < s.pushed.length
  atStop : ∀ k, s.atStop k = true → k < s.pushed.length
  flag : s.stopped = true ↔ s.stopper = .done
  returned : s.loop = .returned → s.stopped = true

omit [DecidableEq Pusher] in
/-- A step of the loop, which moves ids along. -/
theorem Accounted.move {s' : State Pusher} (h : Accounted s)
    (hsplit : s'.dispatched ++ (s'.loop.inHand ++ s'.queue) =
      s.dispatched ++ (s.loop.inHand ++ s.queue))
    (hpusher : s'.pusher = s.pusher) (hpushed : s'.pushed = s.pushed)
    (hcompleted : s'.completed = s.completed) (hatStop : s'.atStop = s.atStop)
    (hstopped : s'.stopped = s.stopped) (hstopper : s'.stopper = s.stopper)
    (hreturned : s'.loop = .returned → s.stopped = true) : Accounted s' where
  split := by rw [hsplit, hpushed]; exact h.split
  notifying := by rw [hpusher, hpushed]; exact h.notifying
  completed := by rw [hcompleted, hpushed]; exact h.completed
  atStop := by rw [hatStop, hpushed]; exact h.atStop
  flag := by rw [hstopped, hstopper]; exact h.flag
  returned := by rw [hstopped]; exact hreturned

omit [DecidableEq Pusher] in
theorem Accounted.pop (h : Accounted s) {empty : LoopPc} (hhand : s.loop.inHand = [])
    (hempty : empty = .testing ∨ empty = .draining) : Accounted (s.pop empty) := by
  unfold State.pop
  cases hq : s.queue with
  | nil =>
    refine h.move ?_ rfl rfl rfl rfl rfl rfl fun hl => ?_
    · rw [hhand]
      rcases hempty with rfl | rfl <;> simp [LoopPc.inHand, hq]
    · rcases hempty with rfl | rfl <;> cases hl
  | cons id queue =>
    refine h.move ?_ rfl rfl rfl rfl rfl rfl LoopPc.noConfusion
    rw [hhand, hq]
    rfl

theorem Accounted.next (h : Accounted s) (hen : Enabled s a) :
    Accounted (DispatchQueue.next s a) := by
  cases a with
  | enqueue p id =>
    have hgrow : (s.pushed ++ [id]).length = s.pushed.length + 1 := by simp
    refine ⟨?_, fun q k hk => ?_, fun k hk => ?_, fun k hk => ?_, h.flag, h.returned⟩
    · show s.dispatched ++ (s.loop.inHand ++ (s.queue ++ [id])) = s.pushed ++ [id]
      rw [← h.split]
      simp
    · show k < (s.pushed ++ [id]).length
      by_cases hqp : q = p
      · have hlast : (PushPc.notifying s.pushed.length) = .notifying k := by
          simpa [DispatchQueue.next, hqp] using hk
        have := PushPc.notifying.inj hlast
        omega
      · have := h.notifying q k (by simpa [DispatchQueue.next, hqp] using hk)
        omega
    · have := h.completed k hk
      exact Nat.lt_of_lt_of_eq (Nat.lt_succ_of_lt this) hgrow.symm
    · have := h.atStop k hk
      exact Nat.lt_of_lt_of_eq (Nat.lt_succ_of_lt this) hgrow.symm
  | notify p =>
    obtain ⟨k, hk⟩ := hen
    simp only [DispatchQueue.next, hk]
    refine ⟨h.split, fun q j hj => ?_, fun j hj => ?_, h.atStop, h.flag, h.returned⟩
    · by_cases hqp : q = p
      · simp [hqp] at hj
      · exact h.notifying q j (by simpa [hqp] using hj)
    · by_cases hjk : j = k
      · rw [hjk]
        exact h.notifying p k hk
      · exact h.completed j (by simpa [hjk] using hj)
  | callStop =>
    have hstopper : s.stopper = .before := hen
    have hflag : s.stopped = false := by
      rw [← Bool.not_eq_true, h.flag, hstopper]
      exact StopPc.noConfusion
    refine ⟨h.split, h.notifying, h.completed, h.completed, ?_, h.returned⟩
    show s.stopped = true ↔ StopPc.called = .done
    simp [hflag]
  | setStopped =>
    exact ⟨h.split, h.notifying, h.completed, h.atStop, ⟨fun _ => rfl, fun _ => rfl⟩, fun _ => rfl⟩
  | getReady =>
    have hl : s.loop = .draining := hen
    exact h.pop (by simp [LoopPc.inHand, hl]) (Or.inl rfl)
  | dispatch =>
    obtain ⟨id, hl⟩ := hen
    simp only [DispatchQueue.next, hl]
    refine h.move ?_ rfl rfl rfl rfl rfl rfl LoopPc.noConfusion
    simp [LoopPc.inHand, hl]
  | dispatchRaises =>
    have hl : s.loop = .dispatching 0 := hen
    refine h.move ?_ rfl rfl rfl rfl rfl rfl LoopPc.noConfusion
    simp [DispatchQueue.next, LoopPc.inHand, hl]
  | isStopped =>
    have hl : s.loop = .testing := hen
    refine h.move ?_ rfl rfl rfl rfl rfl rfl fun hr => ?_
    · simp only [DispatchQueue.next, hl]
      split <;> rfl
    · by_contra hstop
      simp [DispatchQueue.next, hstop] at hr
  | waitFor =>
    have hl : s.loop = .waiting := hen
    exact h.pop (by simp [LoopPc.inHand, hl]) (Or.inr rfl)

theorem accounted_of_reach (hr : (dispatcher Pusher).Reach s) : Accounted s :=
  hr.invariant
    ⟨rfl, fun _ _ h => PushPc.noConfusion h, fun _ h => Bool.noConfusion h,
      fun _ h => Bool.noConfusion h, ⟨fun h => Bool.noConfusion h, fun h => StopPc.noConfusion h⟩,
      fun h => LoopPc.noConfusion h⟩
    fun _ _ _ hs _ hen => hs.next hen

/-! ## What was pushed before the stop -/

/-- Every id whose push had returned when `stop` was called is dispatched. -/
def Served (s : State Pusher) : Prop := ∀ k, s.atStop k = true → k < s.dispatched.length

/-- **The queue is drained**: the ids dispatched are the first ones pushed,
in that order, and every one pushed before the stop is among them. -/
structure Drained (s : State Pusher) : Prop where
  order : s.dispatched <+: s.pushed
  served : Served s

/-- The flag is not set while the loop is between a `get_ready` that found
the queue empty and `is_stopped`, an id pushed before the stop in the queue. -/
def Calm (s : State Pusher) (a : Act Pusher) : Prop :=
  match a with
  | .setStopped => s.loop = .testing → Served s
  | _ => True

omit [DecidableEq Pusher] in
/-- With nothing in hand and nothing queued, all is served. -/
theorem Accounted.served (h : Accounted s) (hhand : s.loop.inHand = []) (hq : s.queue = []) :
    Served s := by
  intro k hk
  have hsplit := h.split
  rw [hhand, hq, List.append_nil, List.append_nil] at hsplit
  rw [hsplit]
  exact h.atStop k hk

/-- **Where the loop sees a stop, all is served.** -/
structure Safe (s : State Pusher) : Prop where
  testing : s.stopped = true → s.loop = .testing → Served s
  returned : s.loop = .returned → Served s

theorem Safe.next (h : Safe s) (hacc : Accounted s) (hcalm : Calm s a) (hen : Enabled s a) :
    Safe (DispatchQueue.next s a) := by
  cases a with
  | enqueue p id => exact ⟨h.testing, h.returned⟩
  | notify p =>
    obtain ⟨k, hk⟩ := hen
    simp only [DispatchQueue.next, hk]
    exact ⟨h.testing, h.returned⟩
  | callStop =>
    have hflag : ¬ s.stopped = true := by
      rw [hacc.flag, show s.stopper = .before from hen]
      exact StopPc.noConfusion
    exact ⟨fun hs => absurd hs hflag, fun hl => absurd (hacc.returned hl) hflag⟩
  | setStopped => exact ⟨fun _ hl => hcalm hl, h.returned⟩
  | getReady =>
    have hl : s.loop = .draining := hen
    simp only [DispatchQueue.next, State.pop]
    cases hq : s.queue with
    | nil => exact ⟨fun _ _ => hacc.served (by simp [LoopPc.inHand, hl]) hq, LoopPc.noConfusion⟩
    | cons id queue => exact ⟨fun _ => LoopPc.noConfusion, LoopPc.noConfusion⟩
  | dispatch =>
    obtain ⟨id, hl⟩ := hen
    simp only [DispatchQueue.next, hl]
    exact ⟨fun _ => LoopPc.noConfusion, LoopPc.noConfusion⟩
  | dispatchRaises => exact ⟨fun _ => LoopPc.noConfusion, LoopPc.noConfusion⟩
  | isStopped =>
    have hl : s.loop = .testing := hen
    by_cases hs : s.stopped = true
    · simp only [DispatchQueue.next, if_pos hs]
      exact ⟨fun _ => LoopPc.noConfusion, fun _ => h.testing hs hl⟩
    · simp only [DispatchQueue.next, if_neg hs]
      exact ⟨fun _ => LoopPc.noConfusion, LoopPc.noConfusion⟩
  | waitFor =>
    simp only [DispatchQueue.next, State.pop]
    cases s.queue with
    | nil => exact ⟨fun _ => LoopPc.noConfusion, LoopPc.noConfusion⟩
    | cons id queue => exact ⟨fun _ => LoopPc.noConfusion, LoopPc.noConfusion⟩

/-! ## The place where an id is left behind -/

/-- The loop is about to end, or has ended, with an id it owes. -/
structure Owing (s : State Pusher) : Prop where
  stopped : s.stopped = true
  loop : s.loop = .testing ∨ s.loop = .returned
  owes : ¬ Served s

theorem Owing.next (h : Owing s) (hacc : Accounted s) (hen : Enabled s a) :
    Owing (DispatchQueue.next s a) := by
  have hdone := hacc.flag.mp h.stopped
  cases a with
  | enqueue p id => exact ⟨h.stopped, h.loop, h.owes⟩
  | notify p =>
    obtain ⟨k, hk⟩ := hen
    simp only [DispatchQueue.next, hk]
    exact ⟨h.stopped, h.loop, h.owes⟩
  | callStop => exact absurd (hdone.symm.trans hen) StopPc.noConfusion
  | setStopped => exact absurd (hdone.symm.trans hen) StopPc.noConfusion
  | isStopped =>
    simp only [DispatchQueue.next, if_pos h.stopped]
    exact ⟨h.stopped, Or.inr rfl, h.owes⟩
  | getReady | waitFor | dispatchRaises =>
    have hl : s.loop = _ := hen
    exact (h.loop.elim (fun ht => LoopPc.noConfusion (hl.symm.trans ht))
      fun ht => LoopPc.noConfusion (hl.symm.trans ht))
  | dispatch =>
    obtain ⟨id, hl⟩ := hen
    exact (h.loop.elim (fun ht => LoopPc.noConfusion (hl.symm.trans ht))
      fun ht => LoopPc.noConfusion (hl.symm.trans ht))

/-- What is owed at the end of a run that does not meet the condition. -/
theorem owing_final (hr : (dispatcher Pusher).Reach s) {as : List (Act Pusher)}
    (hv : (dispatcher Pusher).Valid s as) (h : Owing s ∨ ¬ (dispatcher Pusher).Meets Calm s as) :
    Owing ((dispatcher Pusher).final s as) := by
  induction as generalizing s with
  | nil => exact h.resolve_right (not_not.mpr trivial)
  | cons a as ih =>
    have hacc := accounted_of_reach hr
    refine ih (hr.step trivial hv.1) hv.2 ?_
    rcases h with h | h
    · exact Or.inl (h.next hacc hv.1)
    · by_cases hcalm : Calm s a
      · exact Or.inr fun hrest => h ⟨hcalm, hrest⟩
      · -- the flag is set there
        cases a with
        | setStopped =>
          obtain ⟨hl, howes⟩ : s.loop = .testing ∧ ¬ Served s := by
            simpa [Calm] using hcalm
          exact Or.inl ⟨rfl, Or.inl hl, howes⟩
        | _ => exact absurd trivial hcalm

/-- **When the dispatcher drains its queue.** In a run in which
`_aio_dispatch_loop` has returned, every id pushed before `stop` was
dispatched, once and in push order, exactly when the flag was not set
between a `get_ready` that found the queue empty and the `is_stopped` after
it, an id pushed before the stop in the queue. -/
theorem drained_iff {as : List (Act Pusher)}
    (hv : (dispatcher Pusher).Valid (dispatcher Pusher).init as)
    (hret : ((dispatcher Pusher).final (dispatcher Pusher).init as).loop = .returned) :
    Drained ((dispatcher Pusher).final (dispatcher Pusher).init as) ↔
      (dispatcher Pusher).Meets Calm (dispatcher Pusher).init as := by
  constructor
  · intro hd
    by_contra hno
    exact (owing_final .init hv (Or.inr hno)).owes hd.served
  · intro hm
    have hsplit := (accounted_of_reach (Machine.reach_final hv)).split
    have hinit : Safe (dispatcher Pusher).init :=
      ⟨fun h => Bool.noConfusion h, fun h => LoopPc.noConfusion h⟩
    have hsafe : Safe ((dispatcher Pusher).final (dispatcher Pusher).init as) :=
      Machine.Meets.invariant (fun s a hr (hs : Safe s) hcalm hen =>
        hs.next (accounted_of_reach hr) hcalm hen) .init hinit hv hm
    exact ⟨⟨_, hsplit⟩, hsafe.returned hret⟩

/-- Pushed while the loop waits, the id is dispatched. -/
theorem drained_iff_waiting :
    let as : List (Act ℕ) := [.getReady, .isStopped, .enqueue 0 7, .notify 0, .callStop,
      .setStopped, .waitFor, .dispatch, .getReady, .isStopped]
    Drained ((dispatcher ℕ).final (dispatcher ℕ).init as) ↔
      (dispatcher ℕ).Meets Calm (dispatcher ℕ).init as :=
  drained_iff (by decide) (by decide)

/-- **An id left behind.** It is pushed, and the queue stopped, after
`get_ready` found the queue empty and before `is_stopped`. -/
theorem left_behind :
    ¬ (∀ as : List (Act ℕ), (dispatcher ℕ).Valid (dispatcher ℕ).init as →
        ((dispatcher ℕ).final (dispatcher ℕ).init as).loop = .returned →
        Drained ((dispatcher ℕ).final (dispatcher ℕ).init as)) := by
  intro hclaim
  have hd := hclaim [.getReady, .enqueue 0 7, .notify 0, .callStop, .setStopped, .isStopped]
    (by decide) (by decide)
  exact absurd (hd.served 0 (by decide)) (by decide)

end DispatchQueue

end PyNng
