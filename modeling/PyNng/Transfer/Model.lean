import PyNng.Async.Model
/-!
# Transfer — an `nng_msg` through an asynchronous operation

One operation of `asend`, `arecv`, `submit_send` or `submit_recv`, of a
socket or of a context, from the call to where its aio is freed, with the
one `nng_msg` it is about and where that message is. The steps of nng, of
the thread that completes the operation, of whoever cancels it and of a
close come in any order.

nng takes a message from the aio exactly when a send ends with `NNG_OK`,
and leaves one in the aio exactly when a receive does. `nng_aio_free` does
not free a message that is attached.
-/

namespace PyNng

namespace Transfer

open Async (Aio Fut)

/-! ## Entry points -/

/-- What tells the entry points apart here. -/
structure EntryPoint where
  /-- It returns a concurrent future, of an `_AioCbSync`. -/
  concurrent : Bool
  sends : Bool
  deriving DecidableEq, Repr

/-- `Socket.asend`. -/
def socketAsend : EntryPoint := { concurrent := false, sends := true }

/-- `Context.asend`. -/
def contextAsend : EntryPoint := { concurrent := false, sends := true }

/-- `Socket.submit_send`. -/
def socketSubmitSend : EntryPoint := { concurrent := true, sends := true }

/-- `Context.submit_send`. -/
def contextSubmitSend : EntryPoint := { concurrent := true, sends := true }

/-- `Socket.arecv`. -/
def socketArecv : EntryPoint := { concurrent := false, sends := false }

/-- `Context.arecv`. -/
def contextArecv : EntryPoint := { concurrent := false, sends := false }

/-- `Socket.submit_recv`. -/
def socketSubmitRecv : EntryPoint := { concurrent := true, sends := false }

/-- `Context.submit_recv`. -/
def contextSubmitRecv : EntryPoint := { concurrent := true, sends := false }

/-- What a send is given. -/
inductive Input
  | message
  /-- Anything with the buffer protocol, or a `str`. -/
  | data
  deriving DecidableEq, Repr

/-! ## State -/

/-- Where the `nng_msg` is. -/
inductive Place
  | nowhere
  /-- In the `Message` that was passed. -/
  | caller
  /-- Attached to the aio of the operation. -/
  | aio
  | nng
  /-- In a `Message` that was returned, or set on the future. -/
  | message
  | freed
  deriving DecidableEq, Repr

/-- Where the call stands. -/
inductive Pc
  | unborn
  /-- `_check` has passed. -/
  | checked
  /-- The operation is made. -/
  | created
  /-- The message was built, or taken from the caller's, and `set_msg`. -/
  | built
  /-- `_prepare_submit` has returned. -/
  | registered
  | submitted
  /-- `submit_*` returned that it is completed. -/
  | fast
  | awaiting
  /-- In `ensure_finish`, with what the future told, or with an exception thrown in. -/
  | finishing (told : Option ℕ)
  /-- The concurrent future is returned. -/
  | returned
  /-- The coroutine has ended, or the call has raised. -/
  | ended
  deriving DecidableEq, Repr

/-- Before the submission. -/
def Pc.early : Pc → Bool
  | .unborn | .checked | .created | .built | .registered => true
  | _ => false

/-- The completion handler. -/
inductive Handler
  | waiting
  /-- `fut.done()` was false. -/
  | setting
  | done
  deriving DecidableEq, Repr

/-- **The state** of one operation. -/
structure State where
  pc : Pc
  /-- It has a `DispatchQueueContainer`, and so a skip point. -/
  container : Bool
  /-- There is a dict to register in. -/
  hasDict : Bool
  /-- It is, or was, in the dict. -/
  registered : Bool
  aio : Aio
  fut : Fut
  handler : Handler
  /-- `_on_cancel` is running. -/
  cancelling : Bool
  /-- The socket is closed. -/
  closed : Bool
  msg : Place
  /-- `ptr` was set. -/
  taken : Bool
  /-- How many `Message` objects were given to the caller. -/
  wraps : ℕ
  frees : ℕ
  /-- An exception was thrown into the `await`, or the future was cancelled
  before `_dispatch_complete` looked. -/
  interrupted : Bool
  /-- `AioHandle::destroy` has freed the aio. -/
  freed : Bool
  deriving DecidableEq, Repr

/-- The code has come past the place where it would take the message. -/
def State.decided (e : EntryPoint) (s : State) : Bool :=
  s.pc = .ended || (e.concurrent && s.handler = .done)

/-- The operation is over: nothing refers to it. -/
def State.isOver (e : EntryPoint) (s : State) : Prop :=
  s.pc = .ended ∨ e.concurrent = true ∧ s.pc = .returned ∧ s.handler = .done ∧ s.cancelling = false

instance (e : EntryPoint) (s : State) : Decidable (s.isOver e) :=
  inferInstanceAs (Decidable (_ ∨ _))

/-! ## Actions -/

inductive Act
  | check
  /-- `_check` raises. -/
  | refuse
  | create (container hasDict : Bool)
  | createFails
  | build
  /-- `nng_msg_from_data` or `_steal_ptr` raises. -/
  | buildFails
  | prepareSubmit
  | submit
  /-- nng gives the aio its result. -/
  | complete (rc : ℕ)
  /-- The callback has run. -/
  | fire
  | shut
  | reachSkipPoint
  | finishFast
  /-- `_dispatch_complete` of an asyncio operation, up to the future. -/
  | resolve
  | resume
  /-- The task is cancelled, or the coroutine closed. -/
  | throw
  /-- The aio was waited for. -/
  | finish
  | returnFuture
  /-- `_dispatch_complete` of an `_AioCbSync`, up to `fut.done()`. -/
  | test
  /-- The rest of it. -/
  | set
  /-- `fut.cancel()`. -/
  | cancel
  /-- `on_future_cancel` has waited for the aio. -/
  | cancelled
  | free
  deriving DecidableEq, Repr

variable (e : EntryPoint) (input : Input)

def Enabled (s : State) : Act → Prop
  | .check => s.pc = .unborn ∧ s.closed = false
  | .refuse => s.pc = .unborn ∧ s.closed = true
  | .create container hasDict => s.pc = .checked ∧ (e.concurrent = true → container = false) ∧
      (hasDict = false → container = true ∧ s.closed = true)
  | .createFails => s.pc = .checked
  | .build | .buildFails => s.pc = .created ∧ e.sends = true
  | .prepareSubmit => s.pc = if e.sends then .built else .created
  | .submit => s.pc = .registered
  | .complete rc => s.aio.MayEnd rc
  | .fire => s.aio.isCompleted = true
  | .shut => True
  | .reachSkipPoint => s.pc = .submitted ∧ e.concurrent = false
  | .finishFast => s.pc = .fast ∧ s.aio.isBusy = false
  | .resolve => e.concurrent = false ∧ s.registered = true ∧ s.handler = .waiting ∧
      s.aio.isBusy = false ∧ (s.aio = .idle → s.closed = true)
  | .resume => s.pc = .awaiting ∧ s.fut.isResolved = true
  | .throw => s.pc = .awaiting
  | .finish => (∃ told, s.pc = .finishing told) ∧ s.aio.isBusy = false
  | .returnFuture => s.pc = .submitted ∧ e.concurrent = true
  | .test => e.concurrent = true ∧ s.registered = true ∧ s.handler = .waiting ∧
      s.aio.isFinished = true
  | .set => s.handler = .setting
  | .cancel => s.pc = .returned ∧ s.fut = .pending
  | .cancelled => s.cancelling = true ∧ s.aio.isBusy = false
  | .free => s.isOver e ∧ s.freed = false

instance (pc : Pc) : Decidable (∃ told, pc = .finishing told) :=
  match pc with
  | .finishing told => .isTrue ⟨told, rfl⟩
  | .unborn | .checked | .created | .built | .registered | .submitted | .fast | .awaiting
  | .returned | .ended => .isFalse fun ⟨_, h⟩ => nomatch h

instance (s : State) (a : Act) : Decidable (Enabled e s a) := by
  cases a <;> unfold Enabled <;> infer_instance

/-! ## The effects -/

/-- `arecv`: `Message._from_ptr` of what the aio has, if it has something. -/
def State.fetch (s : State) : State :=
  if e.sends = false ∧ s.msg = .aio then { s with msg := .message, wraps := s.wraps + 1 } else s

/-- `set_result` with the message. Where the future was cancelled since
`fut.done()`, it raises and the new `Message` dies with its `nng_msg`. -/
def State.setResult (s : State) : State :=
  match s.fut with
  | .pending => { s with fut := .resolved 0, msg := .message, wraps := s.wraps + 1 }
  | _ => { s with msg := .freed, frees := s.frees + 1 }

/-- What an aio that ends with `rc` does to the message. -/
def State.deliver (rc : ℕ) (s : State) : Place :=
  if rc = 0 then if e.sends then .nng else .aio else s.msg

def next (s : State) : Act → State
  | .check => { s with pc := .checked }
  | .refuse | .createFails | .buildFails => { s with pc := .ended }
  | .create container hasDict => { s with pc := .created, container, hasDict }
  | .build => { s with pc := .built, msg := .aio, taken := true }
  | .prepareSubmit =>
    if s.hasDict then { s with pc := .registered, registered := true } else { s with pc := .ended }
  | .submit => { s with pc := .submitted, aio := .busy s.closed }
  | .complete rc => { s with aio := .completed rc, msg := s.deliver e rc }
  | .fire => { s with aio := .finished s.aio.result }
  | .shut => { s with closed := true }
  | .reachSkipPoint =>
    -- without a container, `submit_*` returns false
    { s with pc := if s.container && s.aio.isFinished then .fast else .awaiting }
  | .finishFast =>
    if s.aio.result = 0 then { s.fetch e with pc := .ended } else { s with pc := .ended }
  | .resolve => { s with handler := .done, fut := s.fut.set s.aio.result }
  | .resume =>
    match s.fut with
    | .resolved rc => { s with pc := .finishing (some rc) }
    | _ => s
  | .throw => { s with pc := .finishing none, fut := s.fut.cancel, interrupted := true }
  | .finish =>
    -- an exception thrown in is raised again, and the aio not asked
    if s.pc = .finishing (some 0) then { s.fetch e with pc := .ended } else { s with pc := .ended }
  | .returnFuture => { s with pc := .returned }
  -- a future that is done is left alone, and the message with the aio
  | .test => { s with handler := if s.fut = .pending then .setting else .done }
  | .set =>
    if e.sends = false ∧ s.aio.result = 0 then { s.setResult with handler := .done }
    else { s with handler := .done, fut := s.fut.set s.aio.result }
  | .cancel =>
    { s with
      fut := .cancelled
      cancelling := true
      interrupted := s.interrupted || s.handler = .waiting }
  | .cancelled => { s with cancelling := false }
  | .free => { s with freed := true }

/-- **The machine** of one operation. -/
def operation : Machine State Act where
  init :=
    { pc := .unborn, container := false, hasDict := false, registered := false, aio := .idle,
      fut := .pending, handler := .waiting, cancelling := false, closed := false,
      msg := if e.sends ∧ input = .message then .caller else .nowhere,
      taken := false, wraps := 0, frees := 0, interrupted := false, freed := false }
  Enabled := Enabled e
  next := next e

instance (s : State) (a : Act) : Decidable ((operation e input).Enabled s a) :=
  inferInstanceAs (Decidable (Enabled e s a))

end Transfer

end PyNng
