import PyNng.Common.Machine
import Mathlib.Logic.Function.Basic
/-!
# Readers — the managers of a program and the descriptors their loops watch

Any number of sockets and of event loops that are not proactors. A socket
makes a manager for each loop it is used on (`Socket.get_aio_manager`),
which makes a dispatch queue, and with it a socket pair, and has the loop
call `_poll_readable_callback` when the read end is readable
(`_select_mode`, `_try_init_poll`). `Socket.close` releases the managers
and drops them; `release` only schedules the `remove_reader`. The
descriptor below is the read end; the write end, which no loop watches, is
opened and closed as any other descriptor is.

A descriptor is a number that the system gives out again once it is closed,
to another queue or to other code of the program. What keeps the queue's
open is reference counting: the manager holds the queue, and so does each
operation made with it; the bound method that the loop calls holds the
manager. A manager or a queue that nothing refers to is freed at some later
step, as early as the next one.

Queues are named after the manager that made them.
-/

namespace PyNng

namespace Readers

/-- `_mode`. -/
inductive Mode
  | poll
  | fallback
  deriving DecidableEq, Repr

/-- Who has a descriptor open. -/
inductive Owner
  /-- The `PollDispatchQueue` of the manager. -/
  | queue (m : ℕ)
  | other
  deriving DecidableEq, Repr

/-- **`_AioAsyncManager`.** -/
structure Manager where
  /-- The socket it was made for. -/
  sock : ℕ := 0
  /-- Its key in `_aio_managers`. -/
  loop : ℕ := 0
  mode : Mode := .fallback
  /-- `_read_fd`; `none` is -1. -/
  readFd : Option ℕ := none
  /-- `_loop` is not `None`. -/
  hasLoop : Bool := false
  /-- The references local variables of calls have to it. -/
  locals : ℕ := 0
  /-- The operations whose container holds its queue. -/
  ops : ℕ := 0
  /-- Its memory is freed, and its reference to the queue dropped. -/
  freed : Bool := false
  deriving DecidableEq, Repr

/-- A scheduled `loop.remove_reader(fd)`. -/
structure Removal where
  fd : ℕ
  /-- History: the manager that scheduled it. -/
  mgr : ℕ
  deriving DecidableEq, Repr

structure State where
  mgr : ℕ → Manager
  /-- How many managers were made. -/
  made : ℕ
  /-- The values of each socket's `_aio_managers`. -/
  managers : ℕ → List ℕ
  /-- The managers a `close` of the socket, under `_aio_mgr_mutex`, has still to
  release. -/
  closing : ℕ → Option (List ℕ)
  /-- The manager whose bound method the loop calls for the descriptor. -/
  readers : ℕ → ℕ → Option ℕ
  /-- What `call_soon_threadsafe` has scheduled on the loop. -/
  scheduled : ℕ → List Removal
  /-- The loop is closed. -/
  closed : ℕ → Bool
  fds : ℕ → Option Owner

def State.setMgr (m : ℕ) (g : Manager) (s : State) : State :=
  { s with mgr := Function.update s.mgr m g }

/-- `self._aio_managers.get(loop)`. -/
def State.lookup (s : State) (k l : ℕ) : Option ℕ :=
  (s.managers k).find? fun m => (s.mgr m).loop = l

/-- How `_try_init_poll` goes. -/
inductive Attempt
  /-- There is no descriptor, or something raises before there is one. -/
  | fails
  /-- The queue has got the descriptor; `add_reader` then returns, or raises. -/
  | opens (fd : ℕ) (addReader : Bool)
  deriving DecidableEq, Repr

/-- **`_select_mode`**: the new manager's fields. -/
def Attempt.manager (k l : ℕ) : Attempt → Manager
  | .fails => { sock := k, loop := l, hasLoop := true, locals := 1 }
  | .opens fd true =>
    { sock := k, loop := l, mode := .poll, readFd := fd, hasLoop := true, locals := 1 }
  -- the queue is reset, and its descriptor closed; `_read_fd` is left as it is
  | .opens fd false => { sock := k, loop := l, readFd := fd, hasLoop := true, locals := 1 }

/-- The new manager and its entry in the dict. -/
def State.addManager (k : ℕ) (g : Manager) (s : State) : State :=
  { s with
    mgr := Function.update s.mgr s.made g
    made := s.made + 1
    managers := Function.update s.managers k (s.managers k ++ [s.made]) }

/-- `get_aio_manager` on the slow path: `_AioAsyncManager.create`, and the entry. -/
def State.create (k l : ℕ) (attempt : Attempt) (s : State) : State :=
  match attempt with
  | .opens fd true =>
    { s with
      readers := Function.update s.readers l (Function.update (s.readers l) fd (some s.made))
      fds := Function.update s.fds fd (some (.queue s.made)) }.addManager k (attempt.manager k l)
  | _ => s.addManager k (attempt.manager k l)

/-- **`release`** of a manager. -/
def State.release (m : ℕ) (s : State) : State :=
  let g := s.mgr m
  let released := s.setMgr m { g with hasLoop := false }
  if g.hasLoop ∧ s.closed g.loop = false ∧ g.mode = .poll then
    match g.readFd with
    | none => released
    | some fd =>
      { released with
        scheduled := Function.update s.scheduled g.loop (s.scheduled g.loop ++ [⟨fd, m⟩]) }
  else released

inductive Act
  /-- `get_aio_manager` of the socket, on the loop that runs. -/
  | get (k l : ℕ) (attempt : Attempt)
  /-- A call that had got the manager ends. -/
  | dropLocal (m : ℕ)
  /-- The descriptor is readable, and the loop calls `_poll_readable_callback`. -/
  | poll (l fd : ℕ)
  /-- `create_aio_for_socket` or `create_aio_for_context`, in POLL mode. -/
  | startOp (m : ℕ)
  /-- An operation made so is freed. -/
  | endOp (m : ℕ)
  /-- `close` comes to the managers. -/
  | beginClose (k : ℕ)
  | release (k : ℕ)
  /-- `self._aio_managers.clear()`. -/
  | endClose (k : ℕ)
  /-- The `Socket` is freed without a `close`. -/
  | forget (k : ℕ)
  /-- The loop runs what was scheduled first. -/
  | runScheduled (l : ℕ)
  | closeLoop (l : ℕ)
  /-- Nothing refers to the manager any more. -/
  | free (m : ℕ)
  /-- Nothing holds the queue any more. -/
  | closeQueue (m : ℕ)
  /-- Other code of the program gets the descriptor, or closes it. -/
  | openFd (fd : ℕ)
  | closeFd (fd : ℕ)
  deriving DecidableEq, Repr

/-- The dict, a `close` or the loop's reader refers to the manager. -/
def State.Referred (s : State) (m : ℕ) : Prop :=
  0 < (s.mgr m).locals ∨ m ∈ s.managers (s.mgr m).sock ∨
    m ∈ (s.closing (s.mgr m).sock).getD [] ∨
    ∃ fd ∈ (s.mgr m).readFd, s.readers (s.mgr m).loop fd = some m

instance (s : State) (m : ℕ) : Decidable (s.Referred m) :=
  inferInstanceAs (Decidable (_ ∨ _ ∨ _ ∨ ∃ fd ∈ _, _))

/-- The descriptor a new manager gets is one that nobody has open. -/
def Attempt.Free (s : State) : Attempt → Prop
  | .fails => True
  | .opens fd _ => s.fds fd = none

instance (s : State) : ∀ a : Attempt, Decidable (a.Free s)
  | .fails => inferInstanceAs (Decidable True)
  | .opens .. => inferInstanceAs (Decidable (_ = _))

def Enabled (s : State) : Act → Prop
  | .get k l attempt =>
    s.closing k = none ∧ s.closed l = false ∧ attempt.Free s
  | .dropLocal m => 0 < (s.mgr m).locals
  | .poll l fd => s.readers l fd ≠ none
  | .startOp m => 0 < (s.mgr m).locals ∧ (s.mgr m).mode = .poll
  | .endOp m => 0 < (s.mgr m).ops
  | .beginClose k => s.closing k = none
  | .release k => (s.closing k).getD [] ≠ []
  | .endClose k => s.closing k = some []
  | .forget k => s.closing k = none
  | .runScheduled l => s.scheduled l ≠ []
  | .closeLoop l => s.closed l = false
  | .free m => m < s.made ∧ (s.mgr m).freed = false ∧ ¬ s.Referred m
  | .closeQueue m =>
    (s.mgr m).freed = true ∧ (s.mgr m).ops = 0 ∧
      ∃ fd ∈ (s.mgr m).readFd, s.fds fd = some (.queue m)
  | .openFd fd => s.fds fd = none
  | .closeFd fd => s.fds fd = some .other

instance (s : State) : ∀ a, Decidable (Enabled s a)
  | .get .. | .startOp _ | .free _ => inferInstanceAs (Decidable (_ ∧ _))
  | .dropLocal _ | .endOp _ => inferInstanceAs (Decidable (_ < _))
  | .beginClose _ | .endClose _ | .forget _ | .closeLoop _ | .openFd _ | .closeFd _ =>
    inferInstanceAs (Decidable (_ = _))
  | .poll .. | .release _ | .runScheduled _ => inferInstanceAs (Decidable (¬ _))
  | .closeQueue _ => inferInstanceAs (Decidable (_ ∧ _ ∧ ∃ fd ∈ _, _))

def next (s : State) : Act → State
  | .get k l attempt =>
    match s.lookup k l with
    | some m => s.setMgr m { s.mgr m with locals := (s.mgr m).locals + 1 }
    | none => s.create k l attempt
  | .dropLocal m => s.setMgr m { s.mgr m with locals := (s.mgr m).locals - 1 }
  | .poll l fd =>
    match s.readers l fd with
    | none => s
    | some m => s.setMgr m { s.mgr m with locals := (s.mgr m).locals + 1 }
  | .startOp m => s.setMgr m { s.mgr m with ops := (s.mgr m).ops + 1 }
  | .endOp m => s.setMgr m { s.mgr m with ops := (s.mgr m).ops - 1 }
  | .beginClose k => { s with closing := Function.update s.closing k (some (s.managers k)) }
  | .release k =>
    match s.closing k with
    | some (m :: todo) => { s.release m with closing := Function.update s.closing k (some todo) }
    | _ => s
  | .endClose k =>
    { s with
      managers := Function.update s.managers k []
      closing := Function.update s.closing k none }
  | .forget k => { s with managers := Function.update s.managers k [] }
  | .runScheduled l =>
    match s.scheduled l with
    | [] => s
    | r :: rest =>
      { s with
        readers := Function.update s.readers l (Function.update (s.readers l) r.fd none)
        scheduled := Function.update s.scheduled l rest }
  | .closeLoop l =>
    { s with
      closed := Function.update s.closed l true
      readers := Function.update s.readers l fun _ => none
      scheduled := Function.update s.scheduled l [] }
  | .free m => s.setMgr m { s.mgr m with freed := true }
  | .closeQueue m =>
    match (s.mgr m).readFd with
    | none => s
    | some fd => { s with fds := Function.update s.fds fd none }
  | .openFd fd => { s with fds := Function.update s.fds fd (some .other) }
  | .closeFd fd => { s with fds := Function.update s.fds fd none }

/-- **The machine**, from a program that has no manager yet. -/
def readers : Machine State Act where
  init :=
    { mgr := fun _ => {}, made := 0, managers := fun _ => [], closing := fun _ => none,
      readers := fun _ _ => none, scheduled := fun _ => [], closed := fun _ => false,
      fds := fun _ => none }
  Enabled := Enabled
  next := next

instance (s : State) (a : Act) : Decidable (readers.Enabled s a) :=
  inferInstanceAs (Decidable (Enabled s a))

end Readers

end PyNng
