import PyNng.Common.Machine
import Mathlib.Data.Nat.Notation
import Mathlib.Logic.Function.Basic
/-!
# Dispatch — the dispatch queue, its producers and the dispatcher

`DispatchQueue` of `dispatch.hpp`: producers push ids, `_aio_dispatch_loop`
takes them off, and `_nng_fini` stops the queue. A push and a stop are each
a locked part and what comes after it; `is_stopped` reads the flag without
the lock, in a step of its own after the `get_ready` that found the queue
empty. `wait_for` looks at the queue once more under the lock when it is
woken or its time is over, so it comes back empty-handed only from an empty
queue.

`pushed` and `dispatched` are history, as are the pushes that have returned
and those that had returned when `stop` was called, by their place in
`pushed`.
-/

namespace PyNng

namespace DispatchQueue

variable {Pusher : Type*}

/-- Where a pushing thread stands. -/
inductive PushPc
  | idle
  /-- Past the lock; the push is the one at this place. -/
  | notifying (k : ℕ)
  deriving DecidableEq, Repr

/-- Where `stop` stands. -/
inductive StopPc
  | before
  | called
  /-- The flag is set. -/
  | done
  deriving DecidableEq, Repr

/-- Where `_aio_dispatch_loop` stands. -/
inductive LoopPc
  /-- Before `get_ready`. -/
  | draining
  /-- In `_dispatch_one`. -/
  | dispatching (id : ℕ)
  /-- `get_ready` has returned false: `is_stopped` is next. -/
  | testing
  /-- In `wait_for`. -/
  | waiting
  | returned
  /-- An exception came out of `_dispatch_one`. -/
  | raised
  deriving DecidableEq, Repr

/-- The queue and the threads at it. -/
structure State (Pusher : Type*) where
  /-- `_queue`, oldest first. -/
  queue : List ℕ
  /-- `_stopped`. -/
  stopped : Bool
  pusher : Pusher → PushPc
  stopper : StopPc
  loop : LoopPc
  /-- Every id pushed so far, in push order. -/
  pushed : List ℕ
  /-- The pushes that have returned. -/
  completed : ℕ → Bool
  /-- Those that had when `stop` was called. -/
  atStop : ℕ → Bool
  /-- Every id given to `_dispatch_one` that it is done with, in order. -/
  dispatched : List ℕ

inductive Act (Pusher : Type*)
  /-- The locked part of `push`. -/
  | enqueue (p : Pusher) (id : ℕ)
  /-- `push` notifies and returns. -/
  | notify (p : Pusher)
  | callStop
  /-- The locked part of `stop`. -/
  | setStopped
  | getReady
  | dispatch
  /-- Only the sentinel lets an exception through. -/
  | dispatchRaises
  | isStopped
  | waitFor

variable [DecidableEq Pusher]

def Enabled (s : State Pusher) : Act Pusher → Prop
  | .enqueue p _ => s.pusher p = .idle
  | .notify p => ∃ k, s.pusher p = .notifying k
  | .callStop => s.stopper = .before
  | .setStopped => s.stopper = .called
  | .getReady => s.loop = .draining
  | .dispatch => ∃ id, s.loop = .dispatching id
  | .dispatchRaises => s.loop = .dispatching 0
  | .isStopped => s.loop = .testing
  | .waitFor => s.loop = .waiting

instance (pc : PushPc) : Decidable (∃ k, pc = .notifying k) :=
  match pc with
  | .notifying k => .isTrue ⟨k, rfl⟩
  | .idle => .isFalse fun ⟨_, h⟩ => nomatch h

instance (pc : LoopPc) : Decidable (∃ id, pc = .dispatching id) :=
  match pc with
  | .dispatching id => .isTrue ⟨id, rfl⟩
  | .draining | .testing | .waiting | .returned | .raised => .isFalse fun ⟨_, h⟩ => nomatch h

instance (s : State Pusher) (a : Act Pusher) : Decidable (Enabled s a) := by
  cases a <;> unfold Enabled <;> infer_instance

/-- The front of the queue is taken; `empty` is where the loop is where there is none. -/
def State.pop (empty : LoopPc) (s : State Pusher) : State Pusher :=
  match s.queue with
  | [] => { s with loop := empty }
  | id :: queue => { s with queue, loop := .dispatching id }

def next (s : State Pusher) : Act Pusher → State Pusher
  | .enqueue p id =>
    { s with
      queue := s.queue ++ [id]
      pushed := s.pushed ++ [id]
      pusher := Function.update s.pusher p (.notifying s.pushed.length) }
  | .notify p =>
    match s.pusher p with
    | .notifying k =>
      { s with
        pusher := Function.update s.pusher p .idle
        completed := Function.update s.completed k true }
    | .idle => s
  | .callStop => { s with stopper := .called, atStop := s.completed }
  | .setStopped => { s with stopper := .done, stopped := true }
  | .getReady => s.pop .testing
  | .dispatch =>
    match s.loop with
    | .dispatching id => { s with loop := .draining, dispatched := s.dispatched ++ [id] }
    | _ => s
  | .dispatchRaises => { s with loop := .raised, dispatched := s.dispatched ++ [0] }
  | .isStopped => { s with loop := if s.stopped then .returned else .waiting }
  -- the queue is looked at again, whatever ended the wait
  | .waitFor => s.pop .draining

/-- **The machine** of the queue and its threads. -/
def dispatcher (Pusher : Type*) [DecidableEq Pusher] : Machine (State Pusher) (Act Pusher) where
  init :=
    { queue := [], stopped := false, pusher := fun _ => .idle, stopper := .before,
      loop := .draining, pushed := [], completed := fun _ => false, atStop := fun _ => false,
      dispatched := [] }
  Enabled := Enabled
  next := next

instance (s : State Pusher) (a : Act Pusher) : Decidable ((dispatcher Pusher).Enabled s a) :=
  inferInstanceAs (Decidable (Enabled s a))

end DispatchQueue

end PyNng
