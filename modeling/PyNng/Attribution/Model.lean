import PyNng.Common.Handle
import PyNng.Common.Simulation
import PyNng.Socket.Model
/-!
# Attribution — which dialer or listener a `Pipe` belongs to

`Socket._create_pipe` over the machine of the socket: while `update_pipes`
makes a `Pipe`, it looks through `_dialers` and `_listeners` for the one
with the id that nng gave the pipe, and the `Pipe` keeps what it finds.
`Dialer.pipe` and `Listener.pipes` read these. Meanwhile endpoints are
added to the lists and closed, by any thread.

The lists only grow, so an endpoint stands for its place in them. nng
counts its ids up and makes pipes only for endpoints it has opened; an
endpoint that is closed has an empty handle.
-/

namespace PyNng

namespace Attribution

inductive Side
  | dialer
  | listener
  deriving DecidableEq, Repr

/-- `PipeHandle.get_dialer` and `get_listener`; 0 for none. -/
def Side.of (n : NngPipe) : Side → ℕ
  | .dialer => n.dialer
  | .listener => n.listener

/-- A `Dialer` or a `Listener`. -/
structure Endpoint where
  /-- History: the id nng gave it. -/
  given : ℕ
  /-- `_handle`. -/
  handle : Handle
  deriving DecidableEq, Repr

/-- `DialerHandle::close` and `ListenerHandle::close`, of the endpoint's handle. -/
def Endpoint.closed (e : Endpoint) : Endpoint := { e with handle := Handle.empty }

structure State (σ : Type) where
  sock : Socket.State σ
  /-- `_dialers` and `_listeners`. -/
  endpoints : Side → List Endpoint
  /-- `_weak_dialer_ref` and `_weak_listener_ref` of each `Pipe` object. -/
  owner : ℕ → Side → Option ℕ

variable {σ : Type}

/-- nng has opened an endpoint with the id, or the pipe has none on that side. -/
def State.Opened (s : State σ) (n : NngPipe) (side : Side) : Prop :=
  side.of n = 0 ∨ ∃ e ∈ s.endpoints side, e.given = side.of n

instance (s : State σ) (n : NngPipe) (side : Side) : Decidable (s.Opened n side) :=
  inferInstanceAs (Decidable (_ ∨ ∃ e ∈ _, _))

/-- One of the loops of `_create_pipe`. -/
def State.find (s : State σ) (n : NngPipe) (side : Side) : Option ℕ :=
  if side.of n ≠ 0 then (s.endpoints side).findIdx? fun e => e.handle.id = side.of n else none

inductive Act
  | socket (a : Socket.Act)
  /-- `add_dialer` or `add_listener` appends what nng has given this id. -/
  | add (side : Side) (id : ℕ)
  /-- `Dialer.close` or `Listener.close`. -/
  | close (side : Side) (i : ℕ)
  deriving DecidableEq, Repr

section

variable (cfg : Socket.Config σ)

/-- nng makes a pipe for what it has opened. -/
def State.MayCome (s : State σ) : Socket.Act → Prop
  | .event p .addPre => s.Opened (cfg.nng p) .dialer ∧ s.Opened (cfg.nng p) .listener
  | _ => True

instance (s : State σ) : ∀ a, Decidable (s.MayCome cfg a)
  | .event _ .addPre => inferInstanceAs (Decidable (_ ∧ _))
  | .event _ .none | .event _ .addPost | .event _ .remPost | .push | .otherPush | .setOnNewPipe _
  | .setCallback .. | .closePipe .. | .pipeCallback _ | .enter _ | .acquire _ | .check _
  | .snapshot _ | .create _ | .assign _ | .sample _ | .read _ | .unlock _ | .status .. | .hook _
  | .hookDone _ | .announce .. | .ret _ | .close _ => inferInstanceAs (Decidable True)

def Enabled (s : State σ) : Act → Prop
  | .socket a => Socket.Enabled s.sock a ∧ s.MayCome cfg a
  | .add side id => id ≠ 0 ∧ ∀ e ∈ s.endpoints side, e.given ≠ id
  | .close side i => i < (s.endpoints side).length

instance (s : State σ) : ∀ a, Decidable (Enabled cfg s a)
  | .socket _ => inferInstanceAs (Decidable (_ ∧ _))
  | .add .. => inferInstanceAs (Decidable (_ ∧ ∀ e ∈ _, _))
  | .close .. => inferInstanceAs (Decidable (_ < _))

/-- What the `Pipe` objects refer to after a step of the socket: a new one to
what `_create_pipe` has found. -/
def State.ownerAfter (s : State σ) : Socket.Act → ℕ → Side → Option ℕ
  | .create t =>
    match (s.sock.calls t).handles with
    | [] => s.owner
    | h :: _ => Function.update s.owner s.sock.created (s.find h.nng)
  | _ => s.owner

def next (s : State σ) : Act → State σ
  | .socket a => { s with sock := Socket.next cfg s.sock a, owner := s.ownerAfter a }
  | .add side id =>
    { s with
      endpoints := Function.update s.endpoints side (s.endpoints side ++ [⟨id, ⟨id⟩⟩]) }
  | .close side i =>
    { s with
      endpoints := Function.update s.endpoints side
        ((s.endpoints side).modify i Endpoint.closed) }

/-- **The machine** of one socket with its dialers and listeners. -/
def attribution : Machine (State σ) Act where
  init :=
    { sock := (Socket.socket cfg).init, endpoints := fun _ => [], owner := fun _ _ => none }
  Enabled := Enabled cfg
  next := next cfg

instance (s : State σ) (a : Act) : Decidable ((attribution cfg).Enabled s a) :=
  inferInstanceAs (Decidable (Enabled cfg s a))

end

/-- `Listener.pipes`, of the copy that `Socket.pipes` returns. -/
def State.pipesOf (s : State σ) (side : Side) (i : ℕ) : List Pipe :=
  s.sock.pipes.filter fun x => s.owner x.obj side = some i

/-- `Dialer.pipe`. -/
def State.pipeOf (s : State σ) (side : Side) (i : ℕ) : Option Pipe :=
  s.sock.pipes.find? fun x => s.owner x.obj side = some i

end Attribution

end PyNng
