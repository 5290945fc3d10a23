import PyNng.Common.WeakDict
import PyNng.Pipe.Model
/-!
# Dispatch — the dispatcher thread

`_aio_dispatch_loop` takes ids off the dispatch queue, one at a time and in
the order they were pushed, and hands each to `_dispatch_one`: an
operation's callable is popped and called, and the sentinel `0` walks the
socket registry and runs every socket's `update_pipes`.

User code is given by what it does: how it ends, and what happens to the
registry while it runs, by itself or by another thread. A sentinel comes
with what its walk will meet: the sockets the iterator comes to, what the
snapshot part of `update_pipes` finds due at each, and what happens to the
registry in between; the callback part is the source's. A function here
returns the world it leaves and whether an exception came out of it;
`cdef` functions let exceptions through.
-/

namespace PyNng

namespace Dispatch

/-- `_SOCKET_REGISTRY`, by the ids of its sockets. -/
abbrev Registry := WeakDict ℕ

/-- What is done to the registry: a socket is created, `Message.pipe` looks one
up, or one is freed. -/
abbrev RegistryOp := WeakOp ℕ

/-- A callback that is due, and what it will do. -/
structure Callback where
  pipe : ℕ
  outcome : PyOutcome
  /-- What happens to the registry while it runs. -/
  ops : List RegistryOp
  deriving DecidableEq, Repr

/-- What `update_pipes` finds due at one socket. -/
structure Update where
  /-- `pipe_update_cbs`. -/
  status : List Callback
  /-- `removed_pipes`, and how `close` ends if the hook calls it. -/
  removed : List (ℕ × PyOutcome)
  /-- `new_pipes` where `pipe_creation_cb` is set. -/
  creation : Option (List Callback)
  deriving DecidableEq, Repr

/-- A call of user code, or of the hook. -/
inductive Ran
  | op (id : ℕ)
  | status (socket pipe : ℕ)
  | removed (socket pipe : ℕ)
  | creation (socket pipe : ℕ)
  deriving DecidableEq, Repr

/-- What the dispatcher's steps read and write. -/
structure World where
  registry : Registry
  /-- The calls made so far. -/
  ran : List Ran
  deriving DecidableEq, Repr

/-- The registry changes under the dispatcher. -/
def World.meanwhile (w : World) (ops : List RegistryOp) : World :=
  { w with registry := w.registry.after ops }

/-- User code runs, and is recorded. -/
def World.call (w : World) (ran : Ran) (ops : List RegistryOp) : World :=
  { registry := w.registry.after ops, ran := w.ran ++ [ran] }

/-- A loop over callbacks, each under `except Exception`. -/
def guardedCalls (ran : ℕ → Ran) : List Callback → World → World × Bool
  | [], w => (w, false)
  | cb :: cbs, w =>
    let w := w.call (ran cb.pipe) cb.ops
    if cb.outcome = .raisesBase then (w, true) else guardedCalls ran cbs w

/-- The loop over the removed pipes. `_on_pipe_removed` is `noexcept`: how
`close` ends makes no difference. -/
def removedHooks (socket : ℕ) (removed : List (ℕ × PyOutcome)) (w : World) : World :=
  { w with ran := w.ran ++ removed.map fun r => .removed socket r.1 }

/-- **`update_pipes`, callback phase.** -/
def updatePipes (socket : ℕ) (u : Update) (w : World) : World × Bool :=
  match guardedCalls (.status socket) u.status w with
  -- a `BaseException` leaves with the hooks and the creations still due
  | (w, true) => (w, true)
  | (w, false) =>
    let w := removedHooks socket u.removed w
    match u.creation with
    | none => (w, false)
    | some cbs => guardedCalls (.creation socket) cbs w

/-- One `next` of the iterator over the registry. -/
structure Visit where
  /-- What happens to the registry before it, beside what the callbacks say. -/
  before : List RegistryOp
  /-- The socket it comes to, and what is due there; `none` where the entry's
  socket is gone and the iterator skips it. -/
  found : Option (ℕ × Update)
  deriving DecidableEq, Repr

/-- What a walk over the registry meets. Which entries the iterator comes to is
the dict's matter, and any are allowed here. -/
structure Walk where
  visits : List Visit
  /-- What happens to the registry before the `next` that finds no entry left. -/
  last : List RegistryOp
  deriving DecidableEq, Repr

/-- The walk. Each `next`, the last one too, first compares the dict's size with
the size it had when the walk began, and raises `RuntimeError` if it differs; and
so does one that comes to an entry when there are none left of so many. -/
def walkFrom (size : ℕ) (last : List RegistryOp) : ℕ → List Visit → World → World × Bool
  | _, [], w =>
    let w := w.meanwhile last
    (w, decide (w.registry.size ≠ size))
  | left, visit :: visits, w =>
    let w := w.meanwhile visit.before
    if w.registry.size ≠ size ∨ left = 0 then (w, true)
    else
      match visit.found with
      | none => walkFrom size last (left - 1) visits w
      | some (socket, u) =>
        match updatePipes socket u w with
        | (w, true) => (w, true)
        | (w, false) => walkFrom size last (left - 1) visits w

/-- `_drain_pipe_events`. The iteration ends with the loop or with the exception
that leaves it. -/
def drainPipeEvents (walk : Walk) (w : World) : World × Bool :=
  let registry := w.registry.beginIteration
  match walkFrom registry.size walk.last registry.size walk.visits { w with registry } with
  | (w, raised) => ({ w with registry := w.registry.endIteration }, raised)

/-- An item of the queue, with what dispatching it will find. -/
inductive Item
  /-- An operation id, and the callable that `pop` returns for it. -/
  | op (id : ℕ) (callable : Option Callback)
  /-- The sentinel `0`, and what has happened to the registry before it. -/
  | sentinel (before : List RegistryOp) (walk : Walk)

/-- **`_dispatch_one`.** A callable is under `except BaseException`. -/
def dispatchOne (w : World) : Item → World × Bool
  | .op _ none => (w, false)
  | .op id (some cb) => (w.call (.op id) cb.ops, false)
  | .sentinel before walk => drainPipeEvents walk (w.meanwhile before)

/-- The inner loop over `get_ready`. -/
def dispatchReady : List Item → World → World × Bool
  | [], w => (w, false)
  | item :: items, w =>
    match dispatchOne w item with
    | (w, true) => (w, true)
    | (w, false) => dispatchReady items w

/-- One round of the outer loop: what `get_ready` returns until it finds the
queue empty, and what `wait_for` then returns, if anything. -/
structure Round where
  ready : List Item
  waited : Option Item

def Round.items (r : Round) : List Item := r.ready ++ r.waited.toList

/-- **`_aio_dispatch_loop`**, over the rounds until it finds the queue
stopped. An exception ends the thread. -/
def aioDispatchLoop : List Round → World → World × Bool
  | [], w => (w, false)
  | r :: rs, w =>
    match dispatchReady r.ready w with
    | (w, true) => (w, true)
    | (w, false) =>
      match r.waited with
      | none => aioDispatchLoop rs w
      | some item =>
        match dispatchOne w item with
        | (w, true) => (w, true)
        | (w, false) => aioDispatchLoop rs w

end Dispatch

end PyNng
