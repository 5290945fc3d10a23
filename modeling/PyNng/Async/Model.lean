import PyNng.Common.Machine
import Mathlib.Logic.Function.Basic
import Mathlib.Data.Nat.Notation
/-!
# Async — `asend`, `arecv` and the manager of an event loop

The calls of `Socket.asend` and `Socket.arecv` on one event loop, the
operation each of them makes, the managers they make them with, and a run
of `Socket.close` on another thread. A context's `asend` and `arecv` take
the same steps.

An operation is known to nng by the address of its Python object. The
address is free again once neither the coroutine nor the manager's dict
refers to the object, and a later operation may get it; operations are
told apart by a number of their own, which the code does not have.

The manager is in POLL or PROACTOR mode: `drain`, `pop` and `unlock` are
the locked part of `_poll_readable_callback` and of a turn of
`_proactor_drain_loop`, and `callback` is the loop after it. What wakes
the reader is the dispatch queue's own business.
-/

namespace PyNng

namespace Async

/-! ## Operations -/

/-- The coroutine. -/
inductive Call
  | asend
  | arecv
  deriving DecidableEq, Repr

/-- What a call raises. -/
inductive Err
  /-- `_err_from_code` of an nng result, or of what building the message gave. -/
  | nng (rc : ℕ)
  /-- `NngError(NNG_EINTERNAL, "No message in AIO after async recv")`. -/
  | noMessage
  /-- The item assignment on `None` in `_prepare_submit`. -/
  | typeError
  deriving DecidableEq, Repr

/-- How a call ends. -/
inductive Outcome
  /-- `None` from `asend`, the message from `arecv`. -/
  | returned
  | raised (e : Err)
  /-- The caller's own `CancelledError`, or the coroutine closed. -/
  | cancelled
  deriving DecidableEq, Repr

/-- Where a call stands. -/
inductive Pc
  | unborn
  /-- `_check` has passed. -/
  | checked
  /-- `get_aio_manager` has returned. -/
  | managed
  /-- `create_aio_for_socket` has returned the operation. -/
  | created
  /-- `_prepare_submit` has registered it. -/
  | registered
  /-- `nng_socket_send` or `nng_socket_recv` has returned. -/
  | submitted
  /-- `reach_skip_point` returned true. -/
  | skipped
  /-- `_cancel_dispatch` has run. -/
  | fast
  /-- `reach_skip_point` returned false: `await future`. -/
  | awaiting
  /-- An exception was thrown into the `await`; the aio is waited for. -/
  | cancelling
  | ended (o : Outcome)
  deriving DecidableEq, Repr

/-- The coroutine refers to the operation. -/
def Pc.running : Pc → Bool
  | .unborn | .checked | .managed | .ended _ => false
  | _ => true

/-- The aio and its callback. -/
inductive Aio
  | idle
  /-- Submitted, on a socket that was closed if `closed`. -/
  | busy (closed : Bool)
  /-- It has its result, and `fire` is yet to be called. -/
  | completed (rc : ℕ)
  /-- `fire` lost the compare-and-swap, and is yet to push. -/
  | pushing (rc : ℕ)
  /-- `fire` has returned. -/
  | finished (rc : ℕ)
  deriving DecidableEq, Repr

/-- `nng_aio_busy`: until the callback has returned. -/
def Aio.isBusy : Aio → Bool
  | .idle | .finished _ => false
  | .busy _ | .completed _ | .pushing _ => true

/-- `nng_aio_result`: 0 before the first submission. -/
def Aio.result : Aio → ℕ
  | .idle | .busy _ => 0
  | .completed rc | .pushing rc | .finished rc => rc

/-- The asyncio future. -/
inductive Fut
  | pending
  /-- `set_result(None)` for 0, `set_exception` of any other code. -/
  | resolved (rc : ℕ)
  | cancelled
  deriving DecidableEq, Repr

/-- Set under `if not fut.done()`. -/
def Fut.set (rc : ℕ) : Fut → Fut
  | .pending => .resolved rc
  | fut => fut

/-- Cancelled with the task that awaits it. -/
def Fut.cancel : Fut → Fut
  | .pending => .cancelled
  | fut => fut

/-- **A call and its operation**, as `create_for_socket` leaves the fields. -/
structure Op where
  call : Call := .asend
  pc : Pc := .unborn
  /-- The local `mgr`, by its number. The container pushes to its queue. -/
  mgr : ℕ := 0
  /-- `id(self)`. -/
  addr : ℕ := 0
  /-- `_dispatch_callable` is the manager's dict, not `None`. -/
  hasDict : Bool := false
  aio : Aio := .idle
  /-- `_skip_point_reached`. -/
  skipPointReached : Bool := false
  /-- The local `skipped`, once it is set. -/
  skipped : Option Bool := none
  /-- `_future` is not `None`. -/
  hasFuture : Bool := true
  fut : Fut := .pending
  /-- What `call_soon_threadsafe` was given to set on the future. -/
  scheduled : Option ℕ := none
  /-- How often its id was pushed. -/
  pushed : ℕ := 0
  /-- How often its callable was popped by the reader. -/
  popped : ℕ := 0
  deriving DecidableEq, Repr

/-- **`_dispatch_complete`** on the loop's thread, the aio being idle. -/
def Op.dispatchComplete (o : Op) : Op :=
  if o.hasFuture then { o with hasFuture := false, fut := o.fut.set o.aio.result } else o

/-- **`_dispatch_complete_safe`**, which it comes to on any other thread. -/
def Op.dispatchCompleteSafe (o : Op) : Op :=
  if o.hasFuture then { o with hasFuture := false, scheduled := some o.aio.result } else o

/-- `_set_future_done` or `_set_future_exception`, scheduled with `rc`. -/
def Op.setFuture (rc : ℕ) (o : Op) : Op := { o with scheduled := none, fut := o.fut.set rc }

/-- How the call ends once it is told `rc`: an error is raised, and
`arecv` asks the aio for the message, which is there if it ended well. -/
def Op.outcome (o : Op) (rc : ℕ) : Outcome :=
  if rc ≠ 0 then .raised (.nng rc)
  else if o.call = .arecv ∧ o.aio.result ≠ 0 then .raised .noMessage
  else .returned

/-! ## Managers -/

/-- An id in the dispatch queue. -/
structure Entry where
  id : ℕ
  /-- The operation whose `fire` pushed it. -/
  firedBy : ℕ
  deriving DecidableEq, Repr

/-- **`_AioAsyncManager`** and its queue. -/
structure Manager where
  queue : List Entry := []
  /-- `ready`, while the reader holds the lock. -/
  batch : Option (List Entry) := none
  /-- `callbacks`. -/
  callbacks : List ℕ := []
  /-- The dict, by the operations registered: an operation's key is its address. -/
  dict : List ℕ := []
  /-- `release` has set `_dispatch_callables` to `None`. -/
  released : Bool := false
  deriving DecidableEq, Repr

/-- The entries the reader is still to look up. -/
def Manager.tracked (m : Manager) : List Entry := m.batch.getD [] ++ m.queue

/-- Where `Socket.close` stands on its thread. -/
inductive Closing
  | open
  /-- nng has shut the socket; the handle still has its id. -/
  | shut
  /-- The id is 0. -/
  | closed
  /-- `_aio_mgr_mutex` is held. -/
  | locked
  /-- In `release`, with the callables it still has to run. -/
  | releasing (todo : List ℕ)
  | done
  deriving DecidableEq, Repr

/-- `_aio_mgr_mutex` is held. -/
def Closing.holdsMutex : Closing → Bool
  | .locked | .releasing _ => true
  | _ => false

/-- The callables `release` still has to run. -/
def Closing.todo : Closing → List ℕ
  | .releasing todo => todo
  | _ => []

/-- **The state.** -/
structure State where
  op : ℕ → Op
  mgr : ℕ → Manager
  /-- How many managers were made. -/
  made : ℕ
  /-- The loop's entry in `_aio_managers`. -/
  current : Option ℕ
  /-- The operation object at an address. -/
  heap : ℕ → Option ℕ
  closing : Closing

variable {s : State}

/-- `dict.pop(addr, None)`, and what it returns. -/
def State.lookup (s : State) (m addr : ℕ) : Option ℕ :=
  (s.mgr m).dict.find? fun i => (s.op i).addr = addr

def State.setOp (i : ℕ) (o : Op) (s : State) : State :=
  { s with op := Function.update s.op i o }

def State.setMgr (m : ℕ) (mgr : Manager) (s : State) : State :=
  { s with mgr := Function.update s.mgr m mgr }

@[simp] theorem setOp_op_self (i : ℕ) (o : Op) : (s.setOp i o).op i = o := by
  simp [State.setOp]

theorem setOp_op_of_ne {i j : ℕ} (h : j ≠ i) (o : Op) : (s.setOp i o).op j = s.op j := by
  simp [State.setOp, h]

/-- What holds of the operation that is set and of the others holds of all. -/
theorem forall_setOp {P : ℕ → Op → Prop} {i : ℕ} {o : Op} (hi : P i o)
    (hne : ∀ j, j ≠ i → P j (s.op j)) (j : ℕ) : P j ((s.setOp i o).op j) := by
  by_cases hj : j = i
  · subst hj
    rw [setOp_op_self]
    exact hi
  · rw [setOp_op_of_ne hj]
    exact hne j hj

@[simp] theorem setOp_mgr (i : ℕ) (o : Op) : (s.setOp i o).mgr = s.mgr := rfl

@[simp] theorem setMgr_mgr_self (m : ℕ) (g : Manager) : (s.setMgr m g).mgr m = g := by
  simp [State.setMgr]

theorem setMgr_mgr_of_ne {m n : ℕ} (h : n ≠ m) (g : Manager) :
    (s.setMgr m g).mgr n = s.mgr n := by
  simp [State.setMgr, h]

theorem forall_setMgr {P : ℕ → Manager → Prop} {m : ℕ} {g : Manager} (hm : P m g)
    (hne : ∀ n, n ≠ m → P n (s.mgr n)) (n : ℕ) : P n ((s.setMgr m g).mgr n) := by
  by_cases hn : n = m
  · subst hn
    rw [setMgr_mgr_self]
    exact hm
  · rw [setMgr_mgr_of_ne hn]
    exact hne n hn

@[simp] theorem setMgr_op (m : ℕ) (g : Manager) : (s.setMgr m g).op = s.op := rfl

/-- The dict without the key. -/
def State.without (s : State) (m addr : ℕ) : List ℕ :=
  (s.mgr m).dict.filter fun i => (s.op i).addr ≠ addr

/-! ## Actions -/

inductive Act
  /-- A call begins, and `_check` passes. -/
  | check (i : ℕ) (call : Call)
  | getAioManager (i : ℕ)
  | createAio (i : ℕ) (addr : ℕ)
  /-- `nng_msg_from_data` or `_steal_ptr` raises. -/
  | buildFails (i : ℕ) (rc : ℕ)
  | prepareSubmit (i : ℕ)
  | submit (i : ℕ)
  /-- nng gives the aio its result. -/
  | complete (i : ℕ) (rc : ℕ)
  /-- The compare-and-swap of `fire`. -/
  | fire (i : ℕ)
  /-- Its push. -/
  | push (i : ℕ)
  | reachSkipPoint (i : ℕ)
  | cancelDispatch (i : ℕ)
  /-- The fast path reads the result. -/
  | finishFast (i : ℕ)
  /-- The reader takes the lock and the whole queue. -/
  | drain (m : ℕ)
  /-- It pops the callable of the first id it took. -/
  | pop (m : ℕ)
  | unlock (m : ℕ)
  /-- It runs the first callable. -/
  | callback (m : ℕ)
  /-- The loop runs what was scheduled for the operation. -/
  | deliver (i : ℕ)
  /-- The coroutine goes on after its future. -/
  | resume (i : ℕ)
  /-- An exception is thrown into the coroutine. -/
  | cancel (i : ℕ)
  /-- The aio was waited for. -/
  | finishCancel (i : ℕ)
  /-- The operation object is freed. -/
  | free (i : ℕ)
  /-- `nng_socket_close`. -/
  | shut
  | closeHandle
  | lockManagers
  /-- `release`, up to where it drops the lock. -/
  | release
  /-- It runs the first callable. -/
  | runReleased
  | clearManagers
  deriving DecidableEq, Repr

/-- The result nng may give: submissions on a closed socket fail. -/
def Aio.MayEnd (rc : ℕ) : Aio → Prop
  | .busy closed => closed = true → rc ≠ 0
  | _ => False

instance (rc : ℕ) : ∀ aio : Aio, Decidable (aio.MayEnd rc)
  | .busy _ => inferInstanceAs (Decidable (_ → _))
  | .idle | .completed _ | .pushing _ | .finished _ => inferInstanceAs (Decidable False)

/-- `fire` is to be called. -/
def Aio.isCompleted : Aio → Bool
  | .completed _ => true
  | _ => false

def Aio.isPushing : Aio → Bool
  | .pushing _ => true
  | _ => false

def Aio.isFinished : Aio → Bool
  | .finished _ => true
  | _ => false

def Fut.isResolved : Fut → Bool
  | .resolved _ => true
  | _ => false

def Pc.isEnded : Pc → Bool
  | .ended _ => true
  | _ => false

/-- The reader waits for no aio when the first callable is run. -/
def State.Ready (s : State) : List ℕ → Prop
  | [] => False
  | i :: _ => (s.op i).aio.isBusy = false

instance (s : State) : ∀ todo : List ℕ, Decidable (s.Ready todo)
  | [] => inferInstanceAs (Decidable False)
  | _ :: _ => inferInstanceAs (Decidable (_ = _))

def Enabled (s : State) : Act → Prop
  | .check i _ => (s.op i).pc = .unborn ∧ (s.closing = .open ∨ s.closing = .shut)
  | .getAioManager i => (s.op i).pc = .checked ∧ s.closing.holdsMutex = false
  | .createAio i addr => (s.op i).pc = .managed ∧ (s.mgr (s.op i).mgr).batch = none ∧
      s.heap addr = none
  | .buildFails i _ => (s.op i).pc = .created ∧ (s.op i).call = .asend
  | .prepareSubmit i => (s.op i).pc = .created
  | .submit i => (s.op i).pc = .registered
  | .complete i rc => (s.op i).aio.MayEnd rc
  | .fire i => (s.op i).aio.isCompleted = true
  | .push i => (s.op i).aio.isPushing = true
  | .reachSkipPoint i => (s.op i).pc = .submitted
  | .cancelDispatch i => (s.op i).pc = .skipped
  | .finishFast i => (s.op i).pc = .fast ∧ (s.op i).aio.isBusy = false
  | .drain m => m < s.made ∧ (s.mgr m).batch = none ∧ (s.mgr m).callbacks = []
  | .pop m => (s.mgr m).batch ≠ none ∧ (s.mgr m).batch ≠ some []
  | .unlock m => (s.mgr m).batch = some []
  | .callback m => (s.mgr m).batch = none ∧ s.Ready (s.mgr m).callbacks
  | .deliver i => (s.op i).scheduled ≠ none
  | .resume i => (s.op i).pc = .awaiting ∧ (s.op i).fut.isResolved = true ∧
      (s.op i).aio.isBusy = false
  | .cancel i => (s.op i).pc = .awaiting
  | .finishCancel i => (s.op i).pc = .cancelling ∧ (s.op i).aio.isBusy = false
  | .free i => (s.op i).pc.isEnded = true ∧ s.heap (s.op i).addr = some i ∧
      i ∉ (s.mgr (s.op i).mgr).dict
  | .shut => s.closing = .open
  | .closeHandle => s.closing = .shut
  | .lockManagers => s.closing = .closed
  | .release => s.closing = .locked ∧ ∀ m ∈ s.current, (s.mgr m).batch = none
  | .runReleased => s.Ready s.closing.todo
  | .clearManagers => s.closing = .releasing []

instance (s : State) (a : Act) : Decidable (Enabled s a) := by
  cases a <;> unfold Enabled <;> infer_instance

/-! ## The effects -/

/-- The operation of the first callable is completed by `f`. -/
def State.runFirst (f : Op → Op) (s : State) : List ℕ → State
  | [] => s
  | i :: _ => s.setOp i (f (s.op i))

/-- **The reader pops** the callable of an id. -/
def State.popId (m : ℕ) (id : ℕ) (rest : List Entry) (s : State) : State :=
  match s.lookup m id with
  | none => s.setMgr m { s.mgr m with batch := some rest }
  | some i =>
    (s.setOp i { s.op i with popped := (s.op i).popped + 1 }).setMgr m
      { s.mgr m with
        batch := some rest
        dict := s.without m id
        callbacks := (s.mgr m).callbacks ++ [i] }

def next (s : State) : Act → State
  | .check i call => s.setOp i { s.op i with pc := .checked, call }
  | .getAioManager i =>
    match s.current with
    | some m => s.setOp i { s.op i with pc := .managed, mgr := m }
    | none =>
      { s with made := s.made + 1, current := some s.made }.setOp i
        { s.op i with pc := .managed, mgr := s.made }
  | .createAio i addr =>
    { s with heap := Function.update s.heap addr (some i) }.setOp i
      { s.op i with pc := .created, addr, hasDict := !(s.mgr (s.op i).mgr).released }
  | .buildFails i rc => s.setOp i { s.op i with pc := .ended (.raised (.nng rc)) }
  | .prepareSubmit i =>
    if (s.op i).hasDict then
      (s.setMgr (s.op i).mgr
        { s.mgr (s.op i).mgr with dict := s.without (s.op i).mgr (s.op i).addr ++ [i] }).setOp i
          { s.op i with pc := .registered }
    else s.setOp i { s.op i with pc := .ended (.raised .typeError) }
  | .submit i =>
    -- what is submitted from `shut` on, nng ends with an error
    s.setOp i { s.op i with pc := .submitted, aio := .busy (decide (s.closing ≠ .open)) }
  | .complete i rc => s.setOp i { s.op i with aio := .completed rc }
  | .fire i =>
    -- whoever comes second finds the flag set
    if (s.op i).skipPointReached then
      s.setOp i { s.op i with aio := .pushing (s.op i).aio.result }
    else
      s.setOp i { s.op i with skipPointReached := true, aio := .finished (s.op i).aio.result }
  | .push i =>
    (s.setMgr (s.op i).mgr
      { s.mgr (s.op i).mgr with
        queue := (s.mgr (s.op i).mgr).queue ++ [⟨(s.op i).addr, i⟩] }).setOp i
      { s.op i with aio := .finished (s.op i).aio.result, pushed := (s.op i).pushed + 1 }
  | .reachSkipPoint i =>
    if (s.op i).skipPointReached then
      s.setOp i { s.op i with pc := .skipped, skipped := some true }
    else
      s.setOp i { s.op i with pc := .awaiting, skipPointReached := true, skipped := some false }
  | .cancelDispatch i =>
    (s.setMgr (s.op i).mgr
      { s.mgr (s.op i).mgr with dict := s.without (s.op i).mgr (s.op i).addr }).setOp i
      { s.op i with pc := .fast }
  | .finishFast i =>
    s.setOp i { s.op i with pc := .ended ((s.op i).outcome (s.op i).aio.result) }
  | .drain m =>
    -- a reader that comes after `release` drops what it drained
    if (s.mgr m).released then s.setMgr m { s.mgr m with queue := [] }
    else s.setMgr m { s.mgr m with queue := [], batch := some (s.mgr m).queue }
  | .pop m =>
    match (s.mgr m).batch with
    | some (e :: rest) => s.popId m e.id rest
    | _ => s
  | .unlock m => s.setMgr m { s.mgr m with batch := none }
  | .callback m =>
    (s.runFirst Op.dispatchComplete (s.mgr m).callbacks).setMgr m
      { s.mgr m with callbacks := (s.mgr m).callbacks.tail }
  | .deliver i =>
    match (s.op i).scheduled with
    | some rc => s.setOp i ((s.op i).setFuture rc)
    | none => s
  | .resume i =>
    match (s.op i).fut with
    | .resolved rc => s.setOp i { s.op i with pc := .ended ((s.op i).outcome rc) }
    | _ => s
  | .cancel i => s.setOp i { s.op i with pc := .cancelling, fut := (s.op i).fut.cancel }
  | .finishCancel i => s.setOp i { s.op i with pc := .ended .cancelled }
  | .free i => { s with heap := Function.update s.heap (s.op i).addr none }
  | .shut => { s with closing := .shut }
  | .closeHandle => { s with closing := .closed }
  | .lockManagers => { s with closing := .locked }
  | .release =>
    -- the snapshot and the dropping of the dict are under one lock
    match s.current with
    | none => { s with closing := .releasing [] }
    | some m =>
      { s with closing := .releasing (s.mgr m).dict }.setMgr m { s.mgr m with released := true }
  | .runReleased =>
    { s.runFirst Op.dispatchCompleteSafe s.closing.todo with
      closing := .releasing s.closing.todo.tail }
  | .clearManagers => { s with closing := .done, current := none }

/-- **The machine** of the calls on one loop, nng's callbacks, and `close`. -/
def asyncio : Machine State Act where
  init :=
    { op := fun _ => {}, mgr := fun _ => {}, made := 0, current := none, heap := fun _ => none,
      closing := .open }
  Enabled := Enabled
  next := next

instance (s : State) (a : Act) : Decidable (asyncio.Enabled s a) :=
  inferInstanceAs (Decidable (Enabled s a))

end Async

end PyNng
