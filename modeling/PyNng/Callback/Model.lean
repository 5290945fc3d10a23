import PyNng.Async.Model
import PyNng.Dispatch.Model.DispatchQueue
/-!
# Callback — operations that the dispatcher thread completes

`_AioCbSync`, behind `submit_send` and `submit_recv`, and `_AioCbASync`, the
fallback of `asend` and `arecv`: any number of operations of the process, on
any threads and loops, with the one `_DISPATCH_QUEUE`, the one
`_DISPATCH_CALLABLES` and the thread that runs `_aio_dispatch_loop`.

The trampoline pushes the address of the Python object and nothing else. An
address is free again when nothing refers to the object, and a later
operation may get it; operations are told apart by a number of their own.
The dispatch queue is that of `DispatchQueue`: operation `i` pushes as
`.inl i`, and pipe events push the sentinel as `.inr p`.

A message that a receive ends with is `Transfer`'s business, and the model
ends where `_nng_fini` clears the dict.
-/

namespace PyNng

namespace Callback

open Async (Aio Fut)

/-- The class of an operation. -/
inductive Kind
  /-- `_AioCbSync`, with a `concurrent.futures.Future`. -/
  | cbSync
  /-- `_AioCbASync`, with a future of an asyncio loop. -/
  | cbASync (loop : ℕ)
  deriving DecidableEq, Repr

/-- Where the caller of an operation stands. -/
inductive Pc
  | unborn
  /-- The factory has returned it. -/
  | created
  /-- `_prepare_submit` has run. -/
  | registered
  /-- The nng call has returned. -/
  | submitted
  /-- Neither the caller nor the future refers to the operation. -/
  | dropped
  deriving DecidableEq, Repr

/-- The caller, or the future, refers to the operation. -/
def Pc.refers : Pc → Bool
  | .created | .registered | .submitted => true
  | .unborn | .dropped => false

/-- **An operation**, as its factory leaves the fields. -/
structure Op where
  kind : Kind := .cbSync
  pc : Pc := .unborn
  /-- `id(self)`. -/
  addr : ℕ := 0
  aio : Aio := .idle
  /-- `_future` is not `None`. -/
  hasFuture : Bool := true
  fut : Fut := .pending
  /-- What `call_soon_threadsafe` was given to set on the future. -/
  scheduled : Option ℕ := none
  /-- In `on_future_cancel`. -/
  cancelling : Bool := false
  deriving DecidableEq, Repr

/-- What the dispatcher thread is at, of an operation. -/
inductive Hand
  | empty
  /-- It calls the callable it has popped. -/
  | called (i : ℕ)
  /-- `fut.done()` was false. -/
  | setting (i : ℕ)
  deriving DecidableEq, Repr

/-- The operation whose bound method the thread has on its stack. -/
def Hand.op : Hand → Option ℕ
  | .empty => none
  | .called i | .setting i => some i

/-- **The state.** -/
structure State where
  op : ℕ → Op
  /-- The operation object at an address. -/
  heap : ℕ → Option ℕ
  /-- `_DISPATCH_CALLABLES`, by the operations registered: an operation's key is its address. -/
  dict : List ℕ
  /-- `_DISPATCH_QUEUE` and the threads at it. -/
  disp : DispatchQueue.State (ℕ ⊕ ℕ)
  hand : Hand
  loopClosed : ℕ → Bool
  /-- History: which operation's trampoline made each push, `none` for a pipe event. -/
  fired : List (Option ℕ)
  /-- History: the operations whose callable was popped, in order. -/
  called : List ℕ

variable {s : State}

def State.setOp (i : ℕ) (o : Op) (s : State) : State :=
  { s with op := Function.update s.op i o }

@[simp] theorem setOp_op_self (i : ℕ) (o : Op) : (s.setOp i o).op i = o := by
  simp [State.setOp]

theorem setOp_op_of_ne {i j : ℕ} (h : j ≠ i) (o : Op) : (s.setOp i o).op j = s.op j := by
  simp [State.setOp, h]

/-- What holds of the operation that is set and of the others holds of all. -/
theorem forall_setOp {P : ℕ → Op → Prop} {i : ℕ} {o : Op} (hi : P i o)
    (hne : ∀ j, j ≠ i → P j (s.op j)) (j : ℕ) : P j ((s.setOp i o).op j) := by
  by_cases hj : j = i
  · subst hj
    rw [setOp_op_self]
    exact hi
  · rw [setOp_op_of_ne hj]
    exact hne j hj

/-- `_DISPATCH_CALLABLES.pop(addr, None)`, and what it returns. -/
def State.lookup (s : State) (addr : ℕ) : Option ℕ :=
  s.dict.find? fun i => (s.op i).addr = addr

/-- The dict without the key. -/
def State.without (s : State) (addr : ℕ) : List ℕ :=
  s.dict.filter fun i => (s.op i).addr ≠ addr

/-- The id a push leaves in the queue. -/
def State.idOf (s : State) : Option ℕ → ℕ
  | none => 0
  | some i => (s.op i).addr

/-- The loop of an operation is closed. -/
def State.closed (s : State) : Kind → Bool
  | .cbSync => false
  | .cbASync l => s.loopClosed l

/-! ## Actions -/

inductive Act
  /-- `create_for_socket_concurrent` and its like return. -/
  | create (i : ℕ) (kind : Kind) (addr : ℕ)
  | prepareSubmit (i : ℕ)
  /-- The nng call, on a socket or context that was closed if `closed`. -/
  | submit (i : ℕ) (closed : Bool)
  /-- nng gives the aio its result. -/
  | complete (i : ℕ) (rc : ℕ)
  /-- The trampoline: the locked part of `push`. -/
  | fire (i : ℕ)
  /-- `push` notifies, and the trampoline returns. -/
  | fired (i : ℕ)
  /-- A pipe event pushes the sentinel. -/
  | pipeEvent (p : ℕ)
  | pipeEventDone (p : ℕ)
  | callStop
  | setStopped
  | getReady
  | isStopped
  | waitFor
  /-- `_dispatch_one` of the sentinel. -/
  | drainPipes (raises : Bool)
  /-- `_dispatch_one` of any other id, up to where it has popped the callable. -/
  | popCallable
  /-- `_dispatch_complete` of an `_AioCbSync`, up to `fut.done()`. -/
  | test
  /-- The rest of it. -/
  | set
  /-- `_dispatch_complete_safe`, the aio being idle. -/
  | schedule
  /-- The loop, which is not closed, runs what was scheduled. -/
  | deliver (i : ℕ)
  | closeLoop (l : ℕ)
  /-- `fut.cancel()`, or an exception thrown into the `await`. -/
  | interrupt (i : ℕ) (cancels : Bool)
  /-- `on_future_cancel` has waited for the aio. -/
  | waited (i : ℕ)
  /-- The last reference of the caller and of the future goes. -/
  | drop (i : ℕ)
  /-- The operation object is freed. -/
  | free (i : ℕ)
  deriving DecidableEq, Repr

/-- An id other than the sentinel is in `_dispatch_one`. -/
def hasId : DispatchQueue.LoopPc → Bool
  | .dispatching id => id ≠ 0
  | .draining | .testing | .waiting | .returned | .raised => false

/-- The operation called is an `_AioCbSync` if `sync`; the other class waits for the aio. -/
def State.Calls (s : State) (sync : Bool) : Hand → Prop
  | .called i =>
    decide ((s.op i).kind = .cbSync) = sync ∧ (sync = false → (s.op i).aio.isBusy = false)
  | _ => False

instance (s : State) (sync : Bool) : ∀ h : Hand, Decidable (s.Calls sync h)
  | .called _ => inferInstanceAs (Decidable (_ ∧ _))
  | .empty | .setting _ => inferInstanceAs (Decidable False)

def Hand.isSetting : Hand → Bool
  | .setting _ => true
  | _ => false

/-- A step of the dispatch queue and its threads. -/
def State.dispatch (a : DispatchQueue.Act (ℕ ⊕ ℕ)) (s : State) : State :=
  { s with disp := DispatchQueue.next s.disp a }

def Enabled (s : State) : Act → Prop
  | .create i _ addr => (s.op i).pc = .unborn ∧ s.heap addr = none ∧ addr ≠ 0
  | .prepareSubmit i => (s.op i).pc = .created
  | .submit i _ => (s.op i).pc = .registered
  | .complete i rc => (s.op i).aio.MayEnd rc
  | .fire i => (s.op i).aio.isCompleted = true
  | .fired i => (s.op i).aio.isPushing = true
  | .pipeEvent p => s.disp.pusher (.inr p) = .idle
  | .pipeEventDone p => ∃ k, s.disp.pusher (.inr p) = .notifying k
  | .callStop => s.disp.stopper = .before
  | .setStopped => s.disp.stopper = .called
  | .getReady => s.disp.loop = .draining
  | .isStopped => s.disp.loop = .testing
  | .waitFor => s.disp.loop = .waiting
  | .drainPipes _ => s.disp.loop = .dispatching 0
  | .popCallable => s.hand = .empty ∧ hasId s.disp.loop = true
  | .test => s.Calls true s.hand
  | .set => s.hand.isSetting = true
  | .schedule => s.Calls false s.hand
  | .deliver i => (s.op i).scheduled ≠ none ∧ s.closed (s.op i).kind = false
  | .closeLoop l => s.loopClosed l = false
  | .interrupt i cancels => (s.op i).pc = .submitted ∧
      ((s.op i).kind = .cbSync → cancels = true ∧ (s.op i).fut = .pending)
  | .waited i => (s.op i).cancelling = true ∧ (s.op i).aio.isBusy = false
  | .drop i => ((s.op i).pc = .created ∨ (s.op i).pc = .submitted) ∧ (s.op i).cancelling = false
  | .free i => (s.op i).pc = .dropped ∧ s.heap (s.op i).addr = some i ∧ i ∉ s.dict ∧
      s.hand.op ≠ some i ∧ (s.op i).aio.isBusy = false

instance (s : State) (a : Act) : Decidable (Enabled s a) := by
  cases a <;> unfold Enabled <;> infer_instance

/-! ## The effects -/

/-- **`_dispatch_one` pops** the callable of an id, and is done where there is none. -/
def State.popId (id : ℕ) (s : State) : State :=
  match s.lookup id with
  | none => s.dispatch .dispatch
  | some i => { s with dict := s.without id, hand := .called i, called := s.called ++ [i] }

/-- The callable has returned or raised, and `_dispatch_one` returns. -/
def State.finish (s : State) : State := { s.dispatch .dispatch with hand := .empty }

/-- **`_dispatch_complete`** up to `fut.done()`. -/
def Op.testFuture (o : Op) : Op := { o with hasFuture := false }

/-- **`_dispatch_complete_safe`**; `call_soon_threadsafe` of a closed loop raises. -/
def Op.dispatchCompleteSafe (closed : Bool) (o : Op) : Op :=
  if o.hasFuture then
    { o with hasFuture := false, scheduled := if closed then o.scheduled else some o.aio.result }
  else o

def next (s : State) : Act → State
  | .create i kind addr =>
    { s with heap := Function.update s.heap addr (some i) }.setOp i
      { s.op i with pc := .created, kind, addr }
  | .prepareSubmit i =>
    { s with dict := s.without (s.op i).addr ++ [i] }.setOp i { s.op i with pc := .registered }
  | .submit i closed => s.setOp i { s.op i with pc := .submitted, aio := .busy closed }
  | .complete i rc => s.setOp i { s.op i with aio := .completed rc }
  | .fire i =>
    { s.dispatch (.enqueue (.inl i) (s.op i).addr) with fired := s.fired ++ [some i] }.setOp i
      { s.op i with aio := .pushing (s.op i).aio.result }
  | .fired i =>
    (s.dispatch (.notify (.inl i))).setOp i { s.op i with aio := .finished (s.op i).aio.result }
  | .pipeEvent p => { s.dispatch (.enqueue (.inr p) 0) with fired := s.fired ++ [none] }
  | .pipeEventDone p => s.dispatch (.notify (.inr p))
  | .callStop => s.dispatch .callStop
  | .setStopped => s.dispatch .setStopped
  | .getReady => s.dispatch .getReady
  | .isStopped => s.dispatch .isStopped
  | .waitFor => s.dispatch .waitFor
  | .drainPipes raises => s.dispatch (if raises then .dispatchRaises else .dispatch)
  | .popCallable =>
    match s.disp.loop with
    | .dispatching id => s.popId id
    | _ => s
  | .test =>
    match s.hand with
    | .called i =>
      if (s.op i).hasFuture then
        if (s.op i).fut = .pending then
          { s with hand := .setting i }.setOp i (s.op i).testFuture
        else s.finish.setOp i (s.op i).testFuture
      else s.finish
    | _ => s
  | .set =>
    match s.hand with
    -- a future that was cancelled meanwhile raises, and stays as it is
    | .setting i => s.finish.setOp i { s.op i with fut := (s.op i).fut.set (s.op i).aio.result }
    | _ => s
  | .schedule =>
    match s.hand with
    | .called i =>
      s.finish.setOp i ((s.op i).dispatchCompleteSafe (s.closed (s.op i).kind))
    | _ => s
  | .deliver i =>
    match (s.op i).scheduled with
    | some rc => s.setOp i { s.op i with scheduled := none, fut := (s.op i).fut.set rc }
    | none => s
  | .closeLoop l => { s with loopClosed := Function.update s.loopClosed l true }
  | .interrupt i cancels =>
    s.setOp i { s.op i with
      fut := if cancels then (s.op i).fut.cancel else (s.op i).fut
      cancelling := true }
  | .waited i => s.setOp i { s.op i with cancelling := false }
  | .drop i => s.setOp i { s.op i with pc := .dropped }
  | .free i => { s with heap := Function.update s.heap (s.op i).addr none }

/-- **The machine** of the operations, nng's callbacks and the dispatcher. -/
def callbacks : Machine State Act where
  init :=
    { op := fun _ => {}, heap := fun _ => none, dict := [],
      disp := (DispatchQueue.dispatcher (ℕ ⊕ ℕ)).init, hand := .empty,
      loopClosed := fun _ => false, fired := [], called := [] }
  Enabled := Enabled
  next := next

instance (s : State) (a : Act) : Decidable (callbacks.Enabled s a) :=
  inferInstanceAs (Decidable (Enabled s a))

end Callback

end PyNng
