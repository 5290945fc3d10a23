import PyNng.Common.Handle
import PyNng.Common.Machine
import PyNng.Common.SharedPtr
/-!
# Handles — the C++ handles and what they refer to

`SocketHandle`, `ContextHandle`, `DialerHandle`, `ListenerHandle` and
`AioHandle`, with their `shared_ptr` members. Each owns one nng resource at
most. A program is a sequence of statements that construct handles, move
them, close them and let go of references, and what destructors do happens
within the statement that caused it.

A handle that is a local or a member of a Python object and a `shared_ptr`
to one are both variables that refer to it. The resource a constructor is
given has the number of the handle it was given to first.
-/

namespace PyNng

namespace Handles

inductive Kind
  | socket
  | context
  | dialer
  | listener
  | aio
  deriving DecidableEq, Repr

/-- Whether the destructor closes, or frees, what the handle owns. -/
def Kind.closesItself : Kind → Bool
  | .dialer | .listener => false
  | .socket | .context | .aio => true

/-- The `shared_ptr` members. -/
inductive Member
  /-- `_socket`, and the `_sock_anchor` of an `AioHandle`. -/
  | socket
  /-- `_ctx_anchor`. -/
  | context
  deriving DecidableEq, Repr

def Member.target : Member → Kind
  | .socket => .socket
  | .context => .context

def Kind.has : Kind → Member → Bool
  | .socket, _ => false
  | .context, m | .dialer, m | .listener, m => m = .socket
  | .aio, _ => true

inductive Loc
  | var (v : ℕ)
  | member (a : ℕ) (m : Member)
  deriving DecidableEq, Repr

/-- What a resource was made on. -/
inductive Anchor
  | none
  | socket (k : ℕ)
  /-- A context handle, and the socket it held then. -/
  | context (x : ℕ) (k : Option ℕ)
  deriving DecidableEq, Repr

/-- The reference to it, in the handle that owns the resource. -/
def Anchor.ref : Anchor → Option (Member × ℕ)
  | .none => Option.none
  | .socket k => some (.socket, k)
  | .context x _ => some (.context, x)

/-- It is the socket, or was one of its contexts. -/
def Anchor.Of (k : ℕ) : Anchor → Prop
  | .none => False
  | .socket k' => k' = k
  | .context _ k' => k' = some k

/-- **A resource of nng.** -/
structure Resource where
  kind : Kind
  anchor : Anchor
  deriving DecidableEq, Repr

/-- **The handles**, and what became of the resources. -/
structure World where
  ptrs : SharedPtrs Loc ℕ
  /-- The handles that exist. -/
  kind : ℕ → Option Kind
  /-- `_sock`, `_ctx`, `_d`, `_l` and `_aio`. -/
  res : ℕ → Handle
  made : ℕ → Option Resource
  /-- The calls of `nng_socket_close`, `nng_ctx_close`, `nng_dialer_close`,
  `nng_listener_close` and `nng_aio_free`. -/
  closes : ℕ → ℕ

/-- One of these calls, and what it found. -/
structure Closing where
  kind : Kind
  id : ℕ
  /-- By `close()`, and not by a destructor or an assignment. -/
  explicit : Bool
  world : World

structure State where
  now : World
  closings : List Closing

variable {s : State} {w : World}

namespace World

def point (l : Loc) (p : Option ℕ) (w : World) : World := { w with ptrs := w.ptrs.set l p }

/-- What the handle owns is closed. -/
def close (a : ℕ) (w : World) : World :=
  { w with
    res := Function.update w.res a .empty
    closes := Function.update w.closes (w.res a).id (w.closes (w.res a).id + 1) }

/-- The handle is gone. -/
def dealloc (a : ℕ) (w : World) : World :=
  { w with kind := Function.update w.kind a none, res := Function.update w.res a .empty }

/-- The default constructor. -/
def construct (v : ℕ) (K : Kind) (a : ℕ) (w : World) : World :=
  { w with ptrs := w.ptrs.set (.var v) (some a), kind := Function.update w.kind a (some K) }

/-- What a constructor is given: a resource, and the anchor. -/
def acquire (a : ℕ) (K : Kind) (anchor : Anchor) (w : World) : World :=
  { w with
    made := Function.update w.made a (some ⟨K, anchor⟩)
    res := Function.update w.res a ⟨a⟩
    ptrs := match anchor.ref with
      | some q => w.ptrs.set (.member a q.1) (some q.2)
      | none => w.ptrs }

/-- The initialisers of a move constructor, and the assignments of `operator=`. -/
def take (b a : ℕ) (w : World) : World :=
  { w with
    res := Function.update (Function.update w.res b (w.res a)) a .empty
    ptrs := (w.ptrs.move (.member a .context) (.member b .context)).move (.member a .socket)
      (.member b .socket) }

/-- The handle a variable refers to. -/
def handle (v : ℕ) (w : World) : Option (ℕ × Kind) :=
  (w.ptrs.ref (.var v)).bind fun a => (w.kind a).map fun K => (a, K)

/-- What a constructor is given as the anchor, by a variable. -/
def anchor (w : World) : Option (Member × ℕ) → Anchor
  | none => .none
  | some (.socket, v) =>
    match w.ptrs.ref (.var v) with
    | some k => .socket k
    | none => .none
  | some (.context, v) =>
    match w.ptrs.ref (.var v) with
    | some x => .context x (w.ptrs.ref (.member x .socket))
    | none => .none

/-- nng opens contexts and endpoints on open sockets. -/
def Makes (w : World) : Kind → Anchor → Prop
  | .socket, .none => True
  | .context, .socket k | .dialer, .socket k | .listener, .socket k =>
    w.kind k = some .socket ∧ (w.res k).isOpen = true
  | .aio, .none => True
  | .aio, .socket k => w.kind k = some .socket
  | .aio, .context x _ => w.kind x = some .context
  | _, _ => False

instance decidableMakes (w : World) : ∀ K anchor, Decidable (w.Makes K anchor)
  | .socket, .none => inferInstanceAs (Decidable True)
  | .context, .socket k => inferInstanceAs (Decidable (w.kind k = _ ∧ (w.res k).isOpen = true))
  | .dialer, .socket k => inferInstanceAs (Decidable (w.kind k = _ ∧ (w.res k).isOpen = true))
  | .listener, .socket k => inferInstanceAs (Decidable (w.kind k = _ ∧ (w.res k).isOpen = true))
  | .aio, .none => inferInstanceAs (Decidable True)
  | .aio, .socket k => inferInstanceAs (Decidable (w.kind k = some .socket))
  | .aio, .context x _ => inferInstanceAs (Decidable (w.kind x = some .context))
  | .socket, .socket _ | .socket, .context _ _ | .context, .none | .context, .context _ _
  | .dialer, .none | .dialer, .context _ _ | .listener, .none | .listener, .context _ _ =>
    inferInstanceAs (Decidable False)

/-- A place for a handle. -/
def Fresh (w : World) (a : ℕ) : Prop := a ≠ 0 ∧ w.kind a = none ∧ w.made a = none

instance (w : World) (a : ℕ) : Decidable (w.Fresh a) :=
  inferInstanceAs (Decidable (a ≠ 0 ∧ w.kind a = none ∧ w.made a = none))

end World

/-! ## Closing and releasing -/

namespace State

def update (f : World → World) (s : State) : State := { s with now := f s.now }

/-- `close()`, `close_if_open()`, and the freeing of an `nng_aio`. -/
def closeRes (K : Kind) (a : ℕ) (explicit : Bool) (s : State) : State :=
  if (s.now.res a).isOpen then
    { now := s.now.close a, closings := ⟨K, (s.now.res a).id, explicit, s.now⟩ :: s.closings }
  else s

/-- `~SocketHandle`. -/
def destroySocket (k : ℕ) (s : State) : State := (s.closeRes .socket k false).update (.dealloc k)

/-- A `shared_ptr<SocketHandle>` has let go. -/
def settleSocket (t : Option ℕ) (s : State) : State :=
  match t with
  | some k => if s.now.ptrs.Owned k then s else s.destroySocket k
  | none => s

/-- The `shared_ptr<SocketHandle>` of the handle is reset or destroyed. -/
def releaseSocket (a : ℕ) (s : State) : State :=
  (s.update (.point (.member a .socket) none)).settleSocket (s.now.ptrs.ref (.member a .socket))

/-- `~ContextHandle`. -/
def destroyContext (c : ℕ) (s : State) : State :=
  ((s.closeRes .context c false).releaseSocket c).update (.dealloc c)

def settleContext (t : Option ℕ) (s : State) : State :=
  match t with
  | some c => if s.now.ptrs.Owned c then s else s.destroyContext c
  | none => s

def releaseContext (a : ℕ) (s : State) : State :=
  (s.update (.point (.member a .context) none)).settleContext
    (s.now.ptrs.ref (.member a .context))

/-- `~DialerHandle` and `~ListenerHandle`, which close nothing. -/
def destroyEndpoint (d : ℕ) (s : State) : State := (s.releaseSocket d).update (.dealloc d)

/-- `AioHandle::destroy`. -/
def freeAio (a : ℕ) (s : State) : State :=
  if (s.now.res a).isOpen then ((s.closeRes .aio a false).releaseContext a).releaseSocket a else s

/-- `~AioHandle`: members go in the reverse of their order. -/
def destroyAio (a : ℕ) (s : State) : State :=
  (((s.freeAio a).releaseSocket a).releaseContext a).update (.dealloc a)

def destroy (K : Kind) (a : ℕ) (s : State) : State :=
  match K with
  | .socket => s.destroySocket a
  | .context => s.destroyContext a
  | .dialer | .listener => s.destroyEndpoint a
  | .aio => s.destroyAio a

/-! ## The statements of a program -/

/-- A variable is destroyed or reset. -/
def drop (v : ℕ) (s : State) : State :=
  match s.now.handle v with
  | some (a, K) =>
    if (s.update (.point (.var v) none)).now.ptrs.Owned a then s.update (.point (.var v) none)
    else (s.update (.point (.var v) none)).destroy K a
  | none => s

/-- What the destination referred to is released. An `AioHandle` has one anchor
at most, so the order of the two is no matter. -/
def take (b a : ℕ) (s : State) : State :=
  ((s.update (.take b a)).settleContext (s.now.ptrs.ref (.member b .context))).settleSocket
    (s.now.ptrs.ref (.member b .socket))

/-- What `operator=` does first. -/
def vacate (K : Kind) (b : ℕ) (s : State) : State :=
  match K with
  | .aio => s.freeAio b
  | .socket | .context | .dialer | .listener => s.closeRes K b false

/-- `*w = std::move(*v)`. -/
def moveAssign (v w : ℕ) (s : State) : State :=
  match s.now.handle v, s.now.handle w with
  | some (a, _), some (b, K) => if a = b then s else (s.vacate K b).take b a
  | _, _ => s

def moveNew (v w b : ℕ) (s : State) : State :=
  match s.now.handle v with
  | some (a, K) => (s.update (.construct w K b)).take b a
  | none => s

end State

inductive Act
  | construct (v : ℕ) (K : Kind) (a : ℕ)
  /-- A constructor that is given a resource and, in a variable, its anchor. -/
  | make (v : ℕ) (K : Kind) (a : ℕ) (on : Option (Member × ℕ))
  /-- A copy of a `shared_ptr`. -/
  | copy (v w : ℕ)
  | drop (v : ℕ)
  | close (v : ℕ)
  /-- A handle is constructed from one that is moved. -/
  | moveNew (v w b : ℕ)
  | moveAssign (v w : ℕ)
  deriving DecidableEq, Repr

def Enabled (s : State) : Act → Prop
  | .construct v _ a => s.now.ptrs.ref (.var v) = none ∧ s.now.Fresh a
  | .make v K a on => s.now.ptrs.ref (.var v) = none ∧ s.now.Fresh a ∧
      s.now.Makes K (s.now.anchor on)
  | .copy v w => s.now.ptrs.ref (.var w) = none ∧
      ∃ h ∈ s.now.handle v, h.2 = .socket ∨ h.2 = .context
  | .drop v => s.now.handle v ≠ none
  | .close v => ∃ h ∈ s.now.handle v, h.2 ≠ .aio
  -- a `SocketHandle` is not moved
  | .moveNew v w b => s.now.ptrs.ref (.var w) = none ∧ s.now.Fresh b ∧
      ∃ h ∈ s.now.handle v, h.2 ≠ .socket
  | .moveAssign v w => ∃ h ∈ s.now.handle v, ∃ h' ∈ s.now.handle w, h.2 = h'.2 ∧ h.2 ≠ .socket

instance (s : State) (a : Act) : Decidable (Enabled s a) := by
  cases a <;> unfold Enabled <;> infer_instance

def next (s : State) : Act → State
  | .construct v K a => s.update (.construct v K a)
  | .make v K a on =>
    (s.update (.construct v K a)).update (.acquire a K (s.now.anchor on))
  | .copy v w => s.update (.point (.var w) (s.now.ptrs.ref (.var v)))
  | .drop v => s.drop v
  | .close v =>
    match s.now.handle v with
    | some (a, K) => s.closeRes K a true
    | none => s
  | .moveNew v w b => s.moveNew v w b
  | .moveAssign v w => s.moveAssign v w

/-- **The programs** that use the handles. -/
def program : Machine State Act where
  init := {
    now := {
      ptrs := .empty Loc ℕ
      kind := fun _ => none
      res := fun _ => .empty
      made := fun _ => none
      closes := fun _ => 0 }
    closings := [] }
  Enabled := Enabled
  next := next

instance (s : State) (a : Act) : Decidable (program.Enabled s a) :=
  inferInstanceAs (Decidable (Enabled s a))

end Handles

end PyNng
