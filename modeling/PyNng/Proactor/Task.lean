import PyNng.Common.Machine
/-!
# Proactor — the drain task, from `_try_init_proactor` to its end

One manager of a proactor's loop: what `_try_init_proactor` makes, the task
that waits at `sock_recv`, dispatches and goes round, `release`, which
drops what the manager holds and schedules the task's cancellation, and the
two descriptors, the queue's and the duplicate the task reads from.

Of the loop's ready list there is what concerns the task: its steps and the
scheduled `task.cancel`. They run in the order they were put there, one at
a time and not while the task has the thread; `release` may come from any
thread at any time. `task.cancel` cancels the future the task waits for,
and where there is none to cancel the task is cancelled at its next step. A
loop that is closed while `release` schedules on it is closed just after.

The operations are counted and no more: each holds the queue, and how many
callbacks a round has is left open.
-/

namespace PyNng

namespace DrainTask

/-- `_mode`. -/
inductive Mode
  | proactor
  | fallback
  deriving DecidableEq, Repr

/-- How the task ends. -/
inductive Outcome
  /-- It finds `_dispatch_callables` dropped. -/
  | returned
  | cancelled
  /-- With what `sock_recv` raised. -/
  | recvError
  /-- It finds `_loop` dropped, and `None` has no `sock_recv`. -/
  | attributeError
  deriving DecidableEq, Repr

/-- Where `_proactor_drain_loop` stands. -/
inductive Drain
  /-- There is no task. -/
  | absent
  | unstarted
  /-- It waits for the future of `sock_recv`. -/
  | receiving
  /-- The future has a result, an exception, or is cancelled. -/
  | received
  | failed
  | recvCancelled
  /-- With the callbacks it still has to run. -/
  | dispatching (callbacks : ℕ)
  | ended (outcome : Outcome)
  deriving DecidableEq, Repr

@[simp]
def Drain.isDispatching : Drain → Bool
  | .dispatching _ => true
  | _ => false

/-- `task.done()`. -/
@[simp]
def Drain.isDone : Drain → Bool
  | .ended _ => true
  | _ => false

/-- Nothing will step the task: it is done, or there is none. -/
@[simp]
def Drain.isOver : Drain → Bool
  | .absent | .ended _ => true
  | _ => false

/-- What the loop has ready. -/
inductive Scheduled
  /-- The task's next step. -/
  | step
  /-- `task.cancel`. -/
  | cancel
  deriving DecidableEq, Repr

structure State where
  /-- The manager is made. -/
  made : Bool := false
  mode : Mode := .fallback
  /-- `_loop` is not `None`. -/
  hasLoop : Bool := false
  /-- `_dispatch_callables` is not `None`. -/
  hasCallables : Bool := false
  /-- `_drain_task` is not `None`. -/
  hasTask : Bool := false
  releasing : Bool := false
  taskUserCancelled : Bool := false
  /-- The read end of `_queue` is open. -/
  queueOpen : Bool := false
  /-- `_drain_sock` is open. -/
  sockOpen : Bool := false
  drain : Drain := .absent
  /-- The task is to be cancelled at its next step. -/
  mustCancel : Bool := false
  ready : List Scheduled := []
  /-- The loop is closed. -/
  closed : Bool := false
  /-- The references the program has to the manager and to the task. -/
  refs : ℕ := 0
  /-- The operations whose container holds the queue. -/
  ops : ℕ := 0
  /-- The manager's memory is freed, and its reference to the queue dropped. -/
  freed : Bool := false
  deriving DecidableEq, Repr

/-- How `_try_init_proactor` goes. -/
inductive Attempt
  /-- The queue has no descriptor. -/
  | noFd
  /-- `fromfd` raises. -/
  | noSock
  /-- `create_task` raises. -/
  | noTask
  | starts
  deriving DecidableEq, Repr

/-- **`_AioAsyncManager.create`** and the `_select_mode` in it. -/
def Attempt.create : Attempt → State
  -- what was opened is closed again, and the fields are reset
  | .noFd | .noSock | .noTask => { made := true, hasLoop := true, refs := 1 }
  | .starts =>
    { made := true, mode := .proactor, hasLoop := true, hasCallables := true, hasTask := true,
      queueOpen := true, sockOpen := true, drain := .unstarted, ready := [.step], refs := 1 }

/-! ## The task -/

/-- `Task.cancel`. -/
def State.cancelTask (s : State) : State :=
  match s.drain with
  | .absent | .ended _ => s
  | .receiving => { s with drain := .recvCancelled, ready := s.ready ++ [.step] }
  -- there is no future, or it is done and cannot be cancelled
  | _ => { s with mustCancel := true }

/-- The top of the loop, up to the `await`. -/
def State.goRound (s : State) : State :=
  if s.hasLoop then { s with drain := .receiving }
  else { s with drain := .ended .attributeError }

/-- `CancelledError` comes out of the `await`. -/
def State.exceptCancelled (s : State) : State :=
  { s with
    drain := .ended .cancelled
    mustCancel := false
    taskUserCancelled := s.taskUserCancelled || !s.releasing }

/-- **A step of the task**, as far as the callbacks it has popped. -/
def State.stepTask (callbacks : ℕ) (s : State) : State :=
  match s.drain with
  | .unstarted =>
    -- the exception is thrown in before the `try` is entered
    if s.mustCancel then { s with drain := .ended .cancelled, mustCancel := false }
    else s.goRound
  | .recvCancelled => s.exceptCancelled
  | .received =>
    if s.mustCancel then s.exceptCancelled
    else if s.hasCallables then { s with drain := .dispatching callbacks }
    else { s with drain := .ended .returned }
  | .failed =>
    if s.mustCancel then s.exceptCancelled
    else { s with drain := .ended .recvError }
  | _ => s

/-- **`release`.** -/
def State.release (s : State) : State :=
  let released := { s with hasLoop := false, hasCallables := false, hasTask := false }
  if s.hasLoop ∧ s.closed = false ∧ s.mode = .proactor ∧ s.hasTask ∧ s.drain.isDone = false then
    { released with releasing := true, ready := s.ready ++ [.cancel] }
  else released

/-! ## Actions -/

inductive Act
  /-- `get_aio_manager` makes the manager. -/
  | create (attempt : Attempt)
  /-- A reference is copied, or goes. -/
  | share
  | drop
  /-- `create_aio_for_socket` or `create_aio_for_context`, with the queue. -/
  | startOp
  /-- An operation made so is freed. -/
  | endOp
  /-- The loop runs what is first in its ready list; if that is a step of the task
  that comes to its callbacks, there are so many. -/
  | run (callbacks : ℕ)
  /-- The task runs a callback. -/
  | callback
  /-- It goes round to `sock_recv`. -/
  | goRound
  /-- The proactor gives the future its result, or an exception. -/
  | recvDone
  | recvFails
  /-- Code of the program cancels the task. -/
  | userCancel
  | release
  | closeLoop
  /-- Nothing refers to the manager any more. -/
  | free
  /-- Nothing holds the queue any more. -/
  | closeQueue
  deriving DecidableEq, Repr

/-- The task refers to the manager until it is done, unless the loop it would run
on is closed. -/
def State.TaskRefers (s : State) : Prop := s.drain.isOver = false ∧ s.closed = false

instance (s : State) : Decidable s.TaskRefers := inferInstanceAs (Decidable (_ ∧ _))

/-- The callbacks it still has to run. -/
@[simp]
def Drain.callbacks : Drain → ℕ
  | .dispatching callbacks => callbacks
  | _ => 0

def Enabled (s : State) : Act → Prop
  | .create _ => s.made = false
  | .share | .drop | .release => 0 < s.refs
  | .startOp => 0 < s.refs ∧ s.mode = .proactor ∧ s.taskUserCancelled = false
  | .endOp => 0 < s.ops
  | .run _ => s.ready ≠ [] ∧ s.drain.isDispatching = false
  | .callback => 0 < s.drain.callbacks
  | .goRound => s.drain = .dispatching 0
  | .recvDone | .recvFails => s.drain = .receiving ∧ s.closed = false
  | .userCancel => s.closed = false ∧ s.drain.isDispatching = false
  | .closeLoop => s.made = true ∧ s.closed = false ∧ s.drain.isDispatching = false
  | .free => s.made = true ∧ s.freed = false ∧ s.refs = 0 ∧ ¬ s.TaskRefers
  | .closeQueue => s.freed = true ∧ s.ops = 0 ∧ s.queueOpen = true

instance (s : State) : ∀ a, Decidable (Enabled s a)
  | .create _ | .goRound => inferInstanceAs (Decidable (_ = _))
  | .share | .drop | .release | .endOp | .callback => inferInstanceAs (Decidable (_ < _))
  | .startOp | .run _ | .recvDone | .recvFails | .userCancel | .closeLoop | .free
  | .closeQueue => inferInstanceAs (Decidable (_ ∧ _))

def next (s : State) : Act → State
  | .create attempt => attempt.create
  | .share => { s with refs := s.refs + 1 }
  | .drop => { s with refs := s.refs - 1 }
  | .startOp => { s with ops := s.ops + 1 }
  | .endOp => { s with ops := s.ops - 1 }
  | .run callbacks =>
    match s.ready with
    | [] => s
    | .step :: rest => { s with ready := rest }.stepTask callbacks
    | .cancel :: rest => { s with ready := rest }.cancelTask
  | .callback => { s with drain := .dispatching (s.drain.callbacks - 1) }
  | .goRound => s.goRound
  | .recvDone => { s with drain := .received, ready := s.ready ++ [.step] }
  | .recvFails => { s with drain := .failed, ready := s.ready ++ [.step] }
  | .userCancel => s.cancelTask
  | .release => s.release
  | .closeLoop => { s with closed := true, ready := [] }
  | .free =>
    -- `__dealloc__` closes the duplicate
    { s with freed := true, sockOpen := false }
  | .closeQueue => { s with queueOpen := false }

/-- **The machine**, from before the manager is made. -/
def task : Machine State Act where
  init := {}
  Enabled := Enabled
  next := next

instance (s : State) (a : Act) : Decidable (task.Enabled s a) :=
  inferInstanceAs (Decidable (Enabled s a))

end DrainTask

end PyNng
