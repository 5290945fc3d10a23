import PyNng.Async.Model
/-!
# Proactor — the manager in PROACTOR mode and its drain task

One manager that `release` has not been called on, the operations made
with it, the task that drains its queue, and the global dispatcher thread
that serves the operations made on the fallback path. The calls, the aio
and the future are those of `Async`.

Two things run on the loop's thread: the calls, from one `await` to the
next, and the drain task, from one `sock_recv` to the next; `thread` says
which call has it. nng's callbacks and the dispatcher run beside them.

The id of an operation stands for the operation here: an id that is in a
queue, or is yet to be pushed, is registered, so the object is alive and
its address is no other's. The wakeup bytes are left out, and `sock_recv`
may return at any time.
-/

namespace PyNng

namespace Proactor

open Async (Call Pc Aio Outcome)

/-! ## The state -/

/-- What `create_aio_for_socket` makes. -/
inductive Path
  /-- An `_AioSockASync`: its id goes to the manager's queue. -/
  | queue
  /-- An `_AioCbASync`: its id goes to `_DISPATCH_QUEUE`. -/
  | fallback
  deriving DecidableEq, Repr

/-- **A call and its operation.** There is the one manager, so that `mgr`
and `addr` stay as they are. -/
structure Op extends Async.Op where
  path : Path := .queue
  /-- The drain task had ended when the operation was made. -/
  late : Bool := false
  deriving DecidableEq, Repr

/-- Where `_proactor_drain_loop` stands. -/
inductive Drain
  /-- `create_task` has scheduled its first step. -/
  | unstarted
  /-- `await loop.sock_recv`. -/
  | receiving
  /-- With the callbacks it still has to run. -/
  | dispatching (callbacks : List ℕ)
  /-- The task is done. -/
  | ended
  deriving DecidableEq, Repr

def Drain.isDispatching : Drain → Bool
  | .dispatching _ => true
  | _ => false

/-- **The state.** -/
structure State where
  op : ℕ → Op
  /-- `_dispatch_callables`. -/
  dict : List ℕ := []
  /-- `_queue`. -/
  queue : List ℕ := []
  /-- `_DISPATCH_CALLABLES`. -/
  callables : List ℕ := []
  /-- `_DISPATCH_QUEUE`. -/
  dispatchQueue : List ℕ := []
  /-- The callable the dispatcher thread has popped. -/
  popped : Option ℕ := none
  /-- `_drain_task`. -/
  drain : Drain := .unstarted
  /-- `_task_user_cancelled`. -/
  taskUserCancelled : Bool := false
  /-- The call that has the loop's thread. -/
  thread : Option ℕ := none

variable {s : State}

/-- The loop may go on with any of its callbacks. -/
def State.loopFree (s : State) : Bool := s.thread.isNone && !s.drain.isDispatching

def State.setOp (i : ℕ) (o : Op) (s : State) : State :=
  { s with op := Function.update s.op i o }

@[simp] theorem setOp_op_self (i : ℕ) (o : Op) : (s.setOp i o).op i = o := by
  simp [State.setOp]

theorem setOp_op_of_ne {i j : ℕ} (h : j ≠ i) (o : Op) : (s.setOp i o).op j = s.op j := by
  simp [State.setOp, h]

/-- **`create_aio_for_socket`**: the path it takes in PROACTOR mode. -/
def State.createAioForSocket (s : State) : Path :=
  if s.taskUserCancelled then .fallback else .queue

/-- `callables[id(self)] = ...`. -/
def register (i : ℕ) (callables : List ℕ) : List ℕ := callables.filter (· ≠ i) ++ [i]

/-- `callables.pop(id(self), None)`. -/
def unregister (i : ℕ) (callables : List ℕ) : List ℕ := callables.filter (· ≠ i)

/-- The callables of the ids drained, each popped as its id comes up, and
the dict that is left. -/
def popAll : List ℕ → List ℕ → List ℕ × List ℕ
  | [], dict => ([], dict)
  | i :: ready, dict =>
    if i ∈ dict then
      (i :: (popAll ready (unregister i dict)).1, (popAll ready (unregister i dict)).2)
    else popAll ready dict

/-! ## Actions -/

inductive Act
  /-- A call gets its operation from the manager. -/
  | createAio (i : ℕ) (call : Call)
  /-- `nng_msg_from_data` or `_steal_ptr` raises. -/
  | buildFails (i : ℕ) (rc : ℕ)
  | prepareSubmit (i : ℕ)
  | submit (i : ℕ)
  /-- nng gives the aio its result. -/
  | complete (i : ℕ) (rc : ℕ)
  /-- The trampoline, up to the push. -/
  | fire (i : ℕ)
  | push (i : ℕ)
  | reachSkipPoint (i : ℕ)
  | cancelDispatch (i : ℕ)
  | finishFast (i : ℕ)
  /-- The loop runs what was scheduled for the operation. -/
  | deliver (i : ℕ)
  | resume (i : ℕ)
  /-- An exception is thrown into the coroutine. -/
  | cancel (i : ℕ)
  | finishCancel (i : ℕ)
  /-- The drain task's first step. -/
  | start
  /-- `sock_recv` returns; the queue is drained and the callables are popped. -/
  | drainReady
  /-- It runs the first callback. -/
  | callback
  /-- The loop goes round to `sock_recv`. -/
  | goRound
  /-- The task is cancelled before its first step. -/
  | cancelUnstarted
  /-- The task is cancelled at `sock_recv`. -/
  | cancelReceiving
  /-- `sock_recv` raises anything else. -/
  | recvRaises
  /-- The dispatcher thread pops an id, and the callable registered for it. -/
  | pop
  /-- It runs the callable. -/
  | runPopped
  deriving DecidableEq, Repr

/-- No aio is waited for when the first callback is run. -/
def State.Ready (s : State) : List ℕ → Prop
  | [] => False
  | i :: _ => (s.op i).aio.isBusy = false

instance (s : State) : ∀ todo : List ℕ, Decidable (s.Ready todo)
  | [] => inferInstanceAs (Decidable False)
  | _ :: _ => inferInstanceAs (Decidable (_ = _))

/-- The callbacks the drain task still has to run. -/
def Drain.callbacks : Drain → List ℕ
  | .dispatching callbacks => callbacks
  | _ => []

def Enabled (s : State) : Act → Prop
  | .createAio i _ => s.loopFree = true ∧ (s.op i).pc = .unborn
  | .buildFails i _ => (s.op i).pc = .created ∧ (s.op i).call = .asend
  | .prepareSubmit i => (s.op i).pc = .created
  | .submit i => (s.op i).pc = .registered
  | .complete i rc => (s.op i).aio.MayEnd rc
  | .fire i => (s.op i).aio.isCompleted = true
  | .push i => (s.op i).aio.isPushing = true
  | .reachSkipPoint i => (s.op i).pc = .submitted
  | .cancelDispatch i => (s.op i).pc = .skipped
  | .finishFast i => (s.op i).pc = .fast ∧ (s.op i).aio.isBusy = false
  | .deliver i => s.loopFree = true ∧ (s.op i).scheduled ≠ none
  | .resume i => s.loopFree = true ∧ (s.op i).pc = .awaiting ∧ (s.op i).fut.isResolved = true ∧
      (s.op i).aio.isBusy = false
  | .cancel i => s.loopFree = true ∧ (s.op i).pc = .awaiting
  | .finishCancel i => (s.op i).pc = .cancelling ∧ (s.op i).aio.isBusy = false
  | .start => s.loopFree = true ∧ s.drain = .unstarted
  | .drainReady => s.loopFree = true ∧ s.drain = .receiving
  | .callback => s.Ready s.drain.callbacks
  | .goRound => s.drain = .dispatching []
  | .cancelUnstarted => s.loopFree = true ∧ s.drain = .unstarted
  | .cancelReceiving | .recvRaises => s.loopFree = true ∧ s.drain = .receiving
  | .pop => s.popped = none ∧ s.dispatchQueue ≠ []
  | .runPopped => s.popped ≠ none ∧ s.Ready s.popped.toList

instance (s : State) (a : Act) : Decidable (Enabled s a) := by
  cases a <;> unfold Enabled <;> infer_instance

/-! ## The effects -/

/-- `_prepare_submit`, into the dict of the operation's path. -/
def State.prepareSubmit (i : ℕ) (s : State) : State :=
  match (s.op i).path with
  | .queue => { s with dict := register i s.dict }
  | .fallback => { s with callables := register i s.callables }

/-- The push of the trampoline. -/
def State.push (i : ℕ) (s : State) : State :=
  match (s.op i).path with
  | .queue => { s with queue := s.queue ++ [i] }
  | .fallback => { s with dispatchQueue := s.dispatchQueue ++ [i] }

/-- The first callable is run by `f`. -/
def State.runFirst (f : Async.Op → Async.Op) (s : State) : List ℕ → State
  | [] => s
  | i :: _ => s.setOp i { s.op i with toOp := f (s.op i).toOp }

def next (s : State) : Act → State
  | .createAio i call =>
    { s with thread := some i }.setOp i
      { s.op i with
        pc := .created, call, path := s.createAioForSocket, late := decide (s.drain = Drain.ended) }
  | .buildFails i rc =>
    { s with thread := none }.setOp i { s.op i with pc := .ended (.raised (.nng rc)) }
  | .prepareSubmit i => (s.prepareSubmit i).setOp i { s.op i with pc := .registered }
  | .submit i => s.setOp i { s.op i with pc := .submitted, aio := .busy false }
  | .complete i rc => s.setOp i { s.op i with aio := .completed rc }
  | .fire i =>
    -- `_AioCbASync` has no container, and its trampoline only pushes
    if (s.op i).path = .fallback ∨ (s.op i).skipPointReached then
      s.setOp i { s.op i with aio := .pushing (s.op i).aio.result }
    else
      s.setOp i { s.op i with skipPointReached := true, aio := .finished (s.op i).aio.result }
  | .push i =>
    (s.push i).setOp i
      { s.op i with aio := .finished (s.op i).aio.result, pushed := (s.op i).pushed + 1 }
  | .reachSkipPoint i =>
    if (s.op i).path = .fallback then
      { s with thread := none }.setOp i { s.op i with pc := .awaiting, skipped := some false }
    else if (s.op i).skipPointReached then
      s.setOp i { s.op i with pc := .skipped, skipped := some true }
    else
      { s with thread := none }.setOp i
        { s.op i with pc := .awaiting, skipPointReached := true, skipped := some false }
  | .cancelDispatch i =>
    { s with dict := unregister i s.dict }.setOp i { s.op i with pc := .fast }
  | .finishFast i =>
    { s with thread := none }.setOp i
      { s.op i with pc := .ended ((s.op i).outcome (s.op i).aio.result) }
  | .deliver i =>
    match (s.op i).scheduled with
    | some rc => s.setOp i { s.op i with toOp := (s.op i).setFuture rc }
    | none => s
  | .resume i =>
    match (s.op i).fut with
    | .resolved rc => s.setOp i { s.op i with pc := .ended ((s.op i).outcome rc) }
    | _ => s
  | .cancel i =>
    -- the loop's thread waits for the aio
    { s with thread := some i }.setOp i
      { s.op i with pc := .cancelling, fut := (s.op i).fut.cancel }
  | .finishCancel i => { s with thread := none }.setOp i { s.op i with pc := .ended .cancelled }
  | .start => { s with drain := .receiving }
  | .drainReady =>
    { s with
      queue := []
      dict := (popAll s.queue s.dict).2
      drain := .dispatching (popAll s.queue s.dict).1 }
  | .callback =>
    { s.runFirst Async.Op.dispatchComplete s.drain.callbacks with
      drain := .dispatching s.drain.callbacks.tail }
  | .goRound => { s with drain := .receiving }
  | .cancelUnstarted =>
    -- the exception is thrown in before the `try` is entered
    { s with drain := .ended }
  | .cancelReceiving => { s with drain := .ended, taskUserCancelled := true }
  | .recvRaises => { s with drain := .ended }
  | .pop =>
    match s.dispatchQueue with
    | i :: rest =>
      { s with
        dispatchQueue := rest
        callables := unregister i s.callables
        popped := if i ∈ s.callables then some i else none }
    | [] => s
  | .runPopped =>
    { s.runFirst Async.Op.dispatchCompleteSafe s.popped.toList with popped := none }

/-- **The machine** of the calls on one loop, its drain task and the dispatcher. -/
def proactor : Machine State Act where
  init := { op := fun _ => {} }
  Enabled := Enabled
  next := next

instance (s : State) (a : Act) : Decidable (proactor.Enabled s a) :=
  inferInstanceAs (Decidable (Enabled s a))

end Proactor

end PyNng
