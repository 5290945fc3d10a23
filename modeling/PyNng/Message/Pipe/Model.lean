import PyNng.Socket.Listing
import Mathlib.Data.Int.Notation
/-!
# Message — `Message.pipe`

The threads that read `Message.pipe` of messages of one socket, beside the
threads of the socket itself. A read takes the message's pipe under the
message's lock and then holds no lock: it looks in `_PIPE_REGISTRY`, asks
nng for the pipe's socket, runs `update_pipes` and looks again, and pipe
events, other updates and a `close` come in between.

The registries are weak. An object that nothing refers to may die at any
time, and its entry with it; what refers to a `Pipe` is the socket, a call
that has it among its locals, and the user. The `Socket` itself is held by
the program. nng destroys a pipe before it delivers the `REM_POST`, and
gives no socket for it from then on.
-/

namespace PyNng

namespace MessagePipe

open Socket (Arrived droppedAfter)

/-- Where a thread stands in `Message.pipe`; `p` is the message's pipe, `0`
for none. -/
inductive Pc
  | idle
  /-- After `lock.unlock()`. -/
  | unlocked (p : ℕ)
  /-- `_PIPE_REGISTRY` had nothing. -/
  | missed (p : ℕ)
  /-- Inside `update_pipes`. -/
  | updating (p : ℕ)
  | returned (p : ℕ) (pipe : Option Pipe)
  | raised
  deriving DecidableEq, Repr

/-- No read is under way. -/
def Pc.free : Pc → Bool
  | .idle | .returned .. | .raised => true
  | _ => false

def Pc.isUpdating : Pc → Bool
  | .updating _ => true
  | _ => false

/-- The message's pipe, while the read is under way. -/
def Pc.asked : Pc → Option ℕ
  | .unlocked p | .missed p | .updating p => some p
  | _ => none

/-- The socket, and what `nng_pipe_id` says of a handle: of a pipe's its
id, of no pipe's nothing positive. -/
structure Config (σ : Type) where
  socket : Socket.Config σ
  pipeId : ℕ → ℤ
  pipeId_pipe : ∀ p, 0 < p → pipeId p = p
  pipeId_null : pipeId 0 ≤ 0

structure State (σ : Type) where
  sock : Socket.State σ
  /-- `_PIPE_REGISTRY`, the objects that have died left out. -/
  registry : ℤ → Option Pipe
  /-- The objects that user code refers to. -/
  held : ℕ → Bool
  /-- nng has destroyed the pipe. -/
  destroyed : ℕ → Bool
  reads : ℕ → Pc
  /-- History: how many objects had been made when a `close` last dropped
  `_pipes`. -/
  dropped : ℕ

variable {σ : Type} (cfg : Config σ)

inductive Act
  /-- A step of the socket. -/
  | sock (a : Socket.Act)
  | destroy (p : ℕ)
  /-- User code takes a reference, or gives one up. -/
  | hold (x : Pipe)
  | release (x : Pipe)
  /-- An object nothing refers to dies. -/
  | collect (x : Pipe)
  /-- `Message.pipe`, up to `lock.unlock()`; `none` is an empty message. -/
  | start (n : ℕ) (msg : Option ℕ)
  /-- The next step of the thread's read. -/
  | look (n : ℕ)
  /-- `update_pipes` has raised. -/
  | fail (n : ℕ)
  deriving DecidableEq, Repr

/-- The call is under way, and has its locals. -/
def hasLocals : Socket.CallPc → Bool
  | .idle | .returned | .raised => false
  | _ => true

/-- Something refers to the object. -/
def Referenced (s : State σ) (x : Pipe) : Prop :=
  s.held x.obj = true ∨ x ∈ s.sock.pipes ∨
    (∃ t, hasLocals (s.sock.calls t).pc = true ∧
      x ∈ (s.sock.calls t).pipes ++ (s.sock.calls t).removed) ∨
    (∃ c, x ∈ (s.sock.closing c).pipes) ∨ ∃ n, ∃ d ∈ s.sock.userDue n, d.pipe = x

/-- `_SOCKET_REGISTRY.get(nng_socket_id(nng_pipe_socket(p)))` finds the socket. -/
def State.findsSocket (s : State σ) (p : ℕ) : Bool := decide (0 < p) && !s.destroyed p

/-! ## The guards -/

/-- What the socket's own steps wait for here: a read runs `update_pipes` as
the call `n + 1` of its thread, and nobody closes a pipe without having it. -/
def Orderly (s : State σ) : Socket.Act → Prop
  | .event p .remPost => 0 < p ∧ s.destroyed p = true
  | .event p _ => 0 < p
  | .closePipe _ x => s.held x.obj = true
  | .enter (n + 1) => (s.reads n).isUpdating = false
  | _ => True

instance (s : State σ) : ∀ a, Decidable (Orderly s a)
  | .event _ .remPost => inferInstanceAs (Decidable (_ ∧ _))
  | .event p .none | .event p .addPre | .event p .addPost => inferInstanceAs (Decidable (0 < p))
  | .closePipe .. | .enter (_ + 1) => inferInstanceAs (Decidable (_ = _))
  | .enter 0 | .push | .otherPush | .setOnNewPipe _ | .setCallback .. | .pipeCallback _
  | .acquire _ | .check _ | .snapshot _ | .create _ | .assign _ | .sample _ | .read _ | .unlock _
  | .status .. | .hook _ | .hookDone _ | .announce .. | .ret _ | .close _ =>
    inferInstanceAs (Decidable True)

/-- The next step of the thread's read can be taken. -/
def CanLook (s : State σ) (n : ℕ) : Pc → Prop
  | .unlocked _ => True
  | .missed p => s.findsSocket p = true → Socket.CanEnter s.sock (n + 1)
  | .updating _ => (s.sock.calls (n + 1)).pc = .returned
  | _ => False

instance (s : State σ) (n : ℕ) (pc : Pc) : Decidable (CanLook s n pc) := by
  cases pc <;> unfold CanLook <;> infer_instance

def Enabled (s : State σ) : Act → Prop
  | .sock a => Socket.Enabled s.sock a ∧ Orderly s a
  | .destroy p => s.destroyed p = false ∧
      (s.sock.stage p = .pre ∨ s.sock.stage p = .refused ∨ s.sock.stage p = .post)
  | .hold x => s.registry (cfg.pipeId x.id) = some x
  | .release x => s.held x.obj = true
  | .collect x => s.registry (cfg.pipeId x.id) = some x ∧ ¬ Referenced s x
  | .start n msg => (s.reads n).free = true ∧ ∀ p ∈ msg, 0 < p → Arrived s.sock p
  | .look n => CanLook s n (s.reads n)
  | .fail n => (s.reads n).isUpdating = true ∧ (s.sock.calls (n + 1)).pc = .raised

/-! ## The effects -/

/-- `Pipe.create` enters what it makes, over what was there. -/
def State.registryAfter (s : State σ) : Socket.Act → ℤ → Option Pipe
  | .create t =>
    match (s.sock.calls t).handles with
    | [] => s.registry
    | h :: _ => Function.update s.registry (cfg.pipeId h.id) (some ⟨s.sock.created, h⟩)
  | _ => s.registry

def State.stepSock (s : State σ) (a : Socket.Act) : State σ :=
  { s with
    sock := Socket.next cfg.socket s.sock a
    registry := s.registryAfter cfg a
    dropped := droppedAfter s.sock s.dropped a }

def State.setRead (n : ℕ) (pc : Pc) (s : State σ) : State σ :=
  { s with reads := Function.update s.reads n pc }

/-- The read returns, and whoever made it has what it returns. -/
def State.answer (n p : ℕ) (pipe : Option Pipe) (s : State σ) : State σ :=
  State.setRead n (.returned p pipe)
    { s with
      held := match pipe with
        | some x => Function.update s.held x.obj true
        | none => s.held }

def next (s : State σ) : Act → State σ
  | .sock a => s.stepSock cfg a
  | .destroy p => { s with destroyed := Function.update s.destroyed p true }
  | .hold x => { s with held := Function.update s.held x.obj true }
  | .release x => { s with held := Function.update s.held x.obj false }
  | .collect x => { s with registry := Function.update s.registry (cfg.pipeId x.id) none }
  | .start n none => s.setRead n .raised
  | .start n (some p) =>
    if cfg.pipeId p = 0 then s.answer n p none else s.setRead n (.unlocked p)
  | .look n =>
    match s.reads n with
    | .unlocked p =>
      match s.registry (cfg.pipeId p) with
      | some x => s.answer n p (some x)
      | none => s.setRead n (.missed p)
    | .missed p =>
      if s.findsSocket p then (s.stepSock cfg (.enter (n + 1))).setRead n (.updating p)
      else s.answer n p none
    | .updating p => s.answer n p (s.registry (cfg.pipeId p))
    | _ => s
  | .fail n => s.setRead n .raised

/-- **The machine** of a socket and the reads of `Message.pipe`. -/
def pipeReads : Machine (State σ) Act where
  init :=
    { sock := (Socket.socket cfg.socket).init, registry := fun _ => none, held := fun _ => false,
      destroyed := fun _ => false, reads := fun _ => .idle, dropped := 0 }
  Enabled := Enabled cfg
  next := next cfg

/-- The collector is no part of the program, and its guard is not computed. -/
noncomputable instance (s : State σ) (a : Act) : Decidable ((pipeReads cfg).Enabled s a) :=
  match a with
  | .sock a => inferInstanceAs (Decidable (Socket.Enabled s.sock a ∧ Orderly s a))
  | .destroy _ => inferInstanceAs (Decidable (_ ∧ _))
  | .hold _ => inferInstanceAs (Decidable (_ = _))
  | .release _ => inferInstanceAs (Decidable (_ = _))
  | .collect _ => Classical.dec _
  | .start _ _ => inferInstanceAs (Decidable (_ ∧ ∀ p ∈ _, 0 < p → Arrived s.sock p))
  | .look n => inferInstanceAs (Decidable (CanLook s n (s.reads n)))
  | .fail _ => inferInstanceAs (Decidable (_ ∧ _))

end MessagePipe

end PyNng
