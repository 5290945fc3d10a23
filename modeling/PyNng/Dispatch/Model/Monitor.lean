import PyNng.Dispatch.Model.DispatchQueue
/-!
# Dispatch — the dispatch queue, its mutex and its condition variable

`DispatchQueue` of `dispatch.hpp` at the grain of its mutex and condition
variable. `push` and `stop` take the mutex, change the queue or the flag,
release it and notify; `get_ready` takes it, looks, and releases it; and
`wait_for` is the loop the standard gives it: the predicate is tested under
the mutex, the mutex is released and the thread put to sleep in one step,
and whatever wakes it, the mutex is taken again and the predicate tested
again. A time that is over is noticed when the mutex has been taken back.

One thread runs `_aio_dispatch_loop`, so `notify_one` and `notify_all` come
to the same. What the loop does with an id, and the exception the sentinel
lets through, are as in `DispatchQueue`.
-/

namespace PyNng

namespace Monitor

variable {Pusher : Type*}

/-- Who holds the mutex. -/
inductive Holder (Pusher : Type*)
  | pusher (p : Pusher)
  | stopper
  | loop
  deriving DecidableEq

/-- Where a pushing thread stands. -/
inductive PushPc
  | idle
  /-- `push` is called, and the mutex not yet taken. -/
  | entering (id : ℕ)
  | locked (id : ℕ)
  /-- Past `push_back`, the mutex still held; the push is the one at this place. -/
  | pushed (k : ℕ)
  /-- Before `notify_one`. -/
  | notifying (k : ℕ)
  deriving DecidableEq, Repr

/-- Where `stop` stands. -/
inductive StopPc
  | before
  | entering
  | locked
  /-- The flag is set, the mutex still held. -/
  | flagged
  /-- Before `notify_all`. -/
  | notifying
  | done
  deriving DecidableEq, Repr

/-- Where `_aio_dispatch_loop` stands. -/
inductive LoopPc
  /-- Before `get_ready`. -/
  | draining
  /-- In `get_ready`, the mutex held. -/
  | looking
  /-- It has looked, with what it found; the mutex still held. -/
  | looked (got : Option ℕ)
  /-- In `_dispatch_one`. -/
  | dispatching (id : ℕ)
  /-- `get_ready` has returned false: `is_stopped` is next. -/
  | testing
  /-- `wait_for` is called. -/
  | entering
  /-- The mutex is held and the predicate is to be tested; `late` says that the
  time is over. -/
  | predicate (late : Bool)
  /-- Asleep on the condition variable. -/
  | asleep
  /-- Awake, the mutex not yet taken back. -/
  | woken (late : Bool)
  /-- The wait is over, with what the predicate said; the mutex held. -/
  | waited (woken : Bool)
  /-- It has taken what there was; the mutex still held. -/
  | taken (got : Option ℕ)
  | returned
  /-- An exception came out of `_dispatch_one`. -/
  | raised
  deriving DecidableEq, Repr

/-- The queue and the threads at it. -/
structure State (Pusher : Type*) where
  /-- `_mutex`. -/
  mutex : Option (Holder Pusher)
  /-- `_queue`, oldest first. -/
  queue : List ℕ
  /-- `_stopped`. -/
  stopped : Bool
  pusher : Pusher → PushPc
  stopper : StopPc
  loop : LoopPc
  /-- Every id pushed so far, in push order. -/
  pushed : List ℕ
  /-- The pushes that have returned. -/
  completed : ℕ → Bool
  /-- Those that had when `stop` was called. -/
  atStop : ℕ → Bool
  /-- Every id given to `_dispatch_one` that it is done with, in order. -/
  dispatched : List ℕ

inductive Act (Pusher : Type*)
  | callPush (p : Pusher) (id : ℕ)
  /-- The next step of the call. -/
  | push (p : Pusher)
  | callStop
  | stop
  /-- The next step of the loop. -/
  | loop
  /-- `_dispatch_one` raises, which only the sentinel's does. -/
  | dispatchRaises
  /-- The sleeper wakes though nobody notified it. -/
  | spurious
  /-- The sleeper's time is over. -/
  | timeout

variable [DecidableEq Pusher]

/-- The threads that wait for the mutex. -/
def PushPc.wants : PushPc → Bool
  | .entering _ => true
  | _ => false

def StopPc.wants : StopPc → Bool
  | .entering => true
  | _ => false

def LoopPc.wants : LoopPc → Bool
  | .draining | .entering | .woken _ => true
  | _ => false

/-- The threads that have no step of their own to take. -/
def PushPc.rests : PushPc → Bool
  | .idle => true
  | _ => false

def StopPc.rests : StopPc → Bool
  | .before | .done => true
  | _ => false

def LoopPc.rests : LoopPc → Bool
  | .asleep | .returned | .raised => true
  | _ => false

def Enabled (s : State Pusher) : Act Pusher → Prop
  | .callPush p _ => s.pusher p = .idle
  | .push p => (s.pusher p).rests = false ∧ ((s.pusher p).wants = true → s.mutex = none)
  | .callStop => s.stopper = .before
  | .stop => s.stopper.rests = false ∧ (s.stopper.wants = true → s.mutex = none)
  | .loop => s.loop.rests = false ∧ (s.loop.wants = true → s.mutex = none)
  | .dispatchRaises => s.loop = .dispatching 0
  | .spurious => s.loop = .asleep
  | .timeout => s.loop = .asleep

instance (s : State Pusher) (a : Act Pusher) : Decidable (Enabled s a) := by
  cases a <;> unfold Enabled <;> infer_instance

/-- `notify_one` and `notify_all`: the one thread that may be asleep wakes. -/
def LoopPc.notify : LoopPc → LoopPc
  | .asleep => .woken false
  | pc => pc

def State.setPusher (p : Pusher) (pc : PushPc) (s : State Pusher) : State Pusher :=
  { s with pusher := Function.update s.pusher p pc }

/-- The next step of `push`. -/
def State.pushStep (p : Pusher) (s : State Pusher) : State Pusher :=
  match s.pusher p with
  | .idle => s
  | .entering id => { s with mutex := some (.pusher p) }.setPusher p (.locked id)
  | .locked id =>
    { s with queue := s.queue ++ [id], pushed := s.pushed ++ [id] }.setPusher p
      (.pushed s.pushed.length)
  | .pushed k => { s with mutex := none }.setPusher p (.notifying k)
  | .notifying k =>
    { s with
      loop := s.loop.notify
      completed := Function.update s.completed k true }.setPusher p .idle

/-- The next step of `stop`. -/
def State.stopStep (s : State Pusher) : State Pusher :=
  match s.stopper with
  | .before | .done => s
  | .entering => { s with mutex := some .stopper, stopper := .locked }
  | .locked => { s with stopped := true, stopper := .flagged }
  | .flagged => { s with mutex := none, stopper := .notifying }
  | .notifying => { s with loop := s.loop.notify, stopper := .done }

/-- The front of the queue is taken, if there is one. -/
def State.take (pc : Option ℕ → LoopPc) (s : State Pusher) : State Pusher :=
  { s with queue := s.queue.tail, loop := pc s.queue.head? }

/-- The predicate of `wait_for`. -/
def State.ready (s : State Pusher) : Bool := !s.queue.isEmpty || s.stopped

/-- Where the loop goes on with what `get_ready` or `wait_for` gave it. -/
def LoopPc.goesOn (empty : LoopPc) : Option ℕ → LoopPc
  | some id => .dispatching id
  | none => empty

/-- The next step of `_aio_dispatch_loop`. -/
def State.loopStep (s : State Pusher) : State Pusher :=
  match s.loop with
  | .asleep | .returned | .raised => s
  | .draining => { s with mutex := some .loop, loop := .looking }
  | .looking => s.take .looked
  | .looked got => { s with mutex := none, loop := LoopPc.goesOn .testing got }
  | .dispatching id => { s with loop := .draining, dispatched := s.dispatched ++ [id] }
  | .testing => { s with loop := if s.stopped then .returned else .entering }
  | .entering => { s with mutex := some .loop, loop := .predicate false }
  | .predicate late =>
    if s.ready then { s with loop := .waited true }
    else if late then { s with loop := .waited false }
    -- the mutex is released and the thread put to sleep in one step
    else { s with mutex := none, loop := .asleep }
  | .woken late => { s with mutex := some .loop, loop := .predicate late }
  | .waited woken =>
    if woken then s.take .taken else { s with loop := .taken none }
  | .taken got => { s with mutex := none, loop := LoopPc.goesOn .draining got }

def next (s : State Pusher) : Act Pusher → State Pusher
  | .callPush p id => s.setPusher p (.entering id)
  | .push p => s.pushStep p
  | .callStop => { s with stopper := .entering, atStop := s.completed }
  | .stop => s.stopStep
  | .loop => s.loopStep
  | .dispatchRaises => { s with loop := .raised, dispatched := s.dispatched ++ [0] }
  | .spurious => { s with loop := .woken false }
  | .timeout => { s with loop := .woken true }

/-- **The machine** of the queue, its mutex and its condition variable. -/
def monitor (Pusher : Type*) [DecidableEq Pusher] : Machine (State Pusher) (Act Pusher) where
  init :=
    { mutex := none, queue := [], stopped := false, pusher := fun _ => .idle, stopper := .before,
      loop := .draining, pushed := [], completed := fun _ => false, atStop := fun _ => false,
      dispatched := [] }
  Enabled := Enabled
  next := next

instance (s : State Pusher) (a : Act Pusher) : Decidable ((monitor Pusher).Enabled s a) :=
  inferInstanceAs (Decidable (Enabled s a))

end Monitor

end PyNng
