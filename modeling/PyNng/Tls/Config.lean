import PyNng.Common.Handle
import PyNng.Common.Machine
import PyNng.Common.SharedPtr
/-!
# Tls — who holds a TLS configuration

The `shared_ptr<TlsConfigHandle>`s: the `_handle` of a Python `TlsConfig`,
and the `_tls_cfg` of every `DialerHandle` and `ListenerHandle`, which are
written alike. `add_dialer` and `add_listener` make such a handle, give it
the configuration, move it on, as often as it takes, and into the `_handle`
of the `Dialer` or `Listener`; their locals are destroyed when they return
or raise. Any number of calls may be under way. What nng does to the
endpoints is left out.
-/

namespace PyNng

namespace TlsOwners

/-- Where a `DialerHandle` or `ListenerHandle` is. -/
inductive Place
  /-- A local, a temporary or a parameter of a call. -/
  | local (c i : ℕ)
  /-- The `_handle` of a `Dialer` or `Listener`. -/
  | object (o : ℕ)
  deriving DecidableEq, Repr

/-- Where a `shared_ptr<TlsConfigHandle>` is. -/
inductive Loc
  /-- `TlsConfig._handle`. -/
  | config (k : ℕ)
  /-- `_tls_cfg`. -/
  | tlsCfg (p : Place)
  deriving DecidableEq, Repr

inductive Kind
  | dialer
  | listener
  deriving DecidableEq, Repr

/-- **`DialerHandle` and `ListenerHandle`**, without the `_tls_cfg`. -/
structure EndpointHandle where
  kind : Kind
  endpoint : Handle := .empty
  socket : Option ℕ := none
  deriving DecidableEq, Repr

/-- Where a call of `add_dialer` or `add_listener` stands. -/
inductive Stage
  | idle
  /-- `make_dialer` has returned, and `tls is not None`. -/
  | made
  /-- Setting other options, and moving the handle. -/
  | configured
  /-- It returns or raises, and its locals go. -/
  | leaving
  deriving DecidableEq, Repr

/-- **A call**, with the handles it has. -/
structure Call where
  stage : Stage := .idle
  kind : Kind := .dialer
  tls : Option ℕ := none
  locals : List ℕ := []
  deriving DecidableEq, Repr

/-- **A `Dialer` or `Listener`**, and the `tls` it was created with. -/
structure Endpoint where
  kind : Kind
  tls : Option ℕ
  deriving DecidableEq, Repr

structure State where
  ptrs : SharedPtrs Loc ℕ
  handle : Place → Option EndpointHandle
  /-- The `TlsConfig` objects that exist. -/
  config : ℕ → Bool
  /-- The configurations that were allocated. -/
  made : ℕ → Bool
  /-- The calls of `nng_tls_config_free`. -/
  frees : ℕ → ℕ
  call : ℕ → Call
  /-- The calls there have been. -/
  calls : List ℕ
  object : ℕ → Option Endpoint
  /-- The endpoint objects there have been. -/
  objects : List ℕ

variable {s : State}

inductive Act
  /-- `TlsConfig._alloc`. -/
  | alloc (k : ℕ)
  /-- A call, up to `make_dialer`. -/
  | begin (c : ℕ) (kind : Kind) (tls : Option ℕ) (endpoint socket : ℕ)
  /-- `check_err(dh.set_tls(...))`. -/
  | setTls (c rv : ℕ)
  /-- What comes after it raises. -/
  | raise (c : ℕ)
  /-- A move into a new handle. -/
  | moveConstruct (c i j : ℕ)
  /-- A move into a handle there is. -/
  | moveAssign (c i j : ℕ)
  /-- `Dialer.create`, and the return. -/
  | create (c i o : ℕ)
  /-- The next local is destroyed. -/
  | destroyLocal (c : ℕ)
  | leave (c : ℕ)
  /-- `close()` of the endpoint object. -/
  | close (o : ℕ)
  /-- The endpoint object is deallocated. -/
  | dropObject (o : ℕ)
  /-- The `TlsConfig` object is deallocated. -/
  | dropConfig (k : ℕ)
  deriving DecidableEq, Repr

def Enabled (s : State) : Act → Prop
  | .alloc k => s.made k = false
  | .begin c _ tls _ _ => (s.call c).stage = .idle ∧ ∀ k ∈ tls, s.config k = true
  | .setTls c _ => (s.call c).stage = .made
  | .raise c => (s.call c).stage = .configured
  | .moveConstruct c i j => (s.call c).stage = .configured ∧ i ∈ (s.call c).locals ∧
      j ∉ (s.call c).locals
  | .moveAssign c i j => (s.call c).stage = .configured ∧ i ∈ (s.call c).locals ∧
      j ∈ (s.call c).locals
  | .create c i o => (s.call c).stage = .configured ∧ i ∈ (s.call c).locals ∧ s.object o = none
  | .destroyLocal c => (s.call c).stage = .leaving ∧ (s.call c).locals ≠ []
  | .leave c => (s.call c).stage = .leaving ∧ (s.call c).locals = []
  | .close o => s.object o ≠ none
  | .dropObject o => s.object o ≠ none
  -- an argument of a call that is under way is referenced by it
  | .dropConfig k => s.config k = true ∧
      ∀ c ∈ s.calls, (s.call c).stage ≠ .idle → (s.call c).tls ≠ some k

instance (s : State) (a : Act) : Decidable (Enabled s a) := by
  cases a <;> unfold Enabled <;> infer_instance

/-! ## The pointers -/

/-- A `shared_ptr` is assigned or destroyed: `nng_tls_config_free` where it was
the last one. -/
def State.point (l : Loc) (p : Option ℕ) (s : State) : State :=
  match s.ptrs.ref l with
  | some k =>
    if (s.ptrs.set l p).Owned k then { s with ptrs := s.ptrs.set l p }
    else { s with ptrs := s.ptrs.set l p, frees := Function.update s.frees k (s.frees k + 1) }
  | none => { s with ptrs := s.ptrs.set l p }

def State.setCall (c : ℕ) (x : Call) (s : State) : State :=
  { s with call := Function.update s.call c x }

def State.setHandle (p : Place) (h : Option EndpointHandle) (s : State) : State :=
  { s with handle := Function.update s.handle p h }

/-! ## The move operations, as they are written -/

/-- `DialerHandle(DialerHandle&& o)`: its initialisers are `_d` and `_socket`. -/
def State.moveConstruct (src dst : Place) (s : State) : State :=
  match s.handle src with
  | some h => (s.setHandle dst (some h)).setHandle src
      (some { h with endpoint := .empty, socket := none })
  | none => s

/-- `operator=(DialerHandle&& o)`: it assigns `_d` and `_socket`. -/
def State.moveAssign (src dst : Place) (s : State) : State :=
  match s.handle src, s.handle dst with
  | some h, some old =>
    if src = dst then s
    else (s.setHandle dst (some { old with endpoint := h.endpoint, socket := h.socket })).setHandle
      src (some { h with endpoint := .empty, socket := none })
  | _, _ => s

/-- The destructor of a handle. -/
def State.destroyHandle (p : Place) (s : State) : State :=
  (s.setHandle p none).point (.tlsCfg p) none

/-! ## The steps -/

/-- `make_dialer(self._handle, b, err)` has succeeded. -/
def State.begin (c : ℕ) (kind : Kind) (tls : Option ℕ) (endpoint socket : ℕ) (s : State) : State :=
  ({ s with calls := c :: s.calls } : State).setHandle (.local c 0)
      (some ⟨kind, ⟨endpoint⟩, some socket⟩)
    |>.setCall c ⟨if tls = none then .configured else .made, kind, tls, [0]⟩

/-- `dh.set_tls((<TlsConfig?>tls)._handle)`. -/
def State.setTls (c rv : ℕ) (s : State) : State :=
  match (s.call c).tls with
  | some k =>
    (s.point (.tlsCfg (.local c 0)) (s.ptrs.ref (.config k))).setCall c
      { s.call c with stage := if rv = 0 then .configured else .leaving }
  | none => s

/-- `dialer._handle = move(dh)` on a new `Dialer`. -/
def State.create (c i o : ℕ) (s : State) : State :=
  (({ s with
      object := Function.update s.object o (some ⟨(s.call c).kind, (s.call c).tls⟩)
      objects := o :: s.objects } : State).setHandle (.object o) (some { kind := (s.call c).kind })
    |>.moveAssign (.local c i) (.object o)).setCall c { s.call c with stage := .leaving }

def State.destroyLocal (c : ℕ) (s : State) : State :=
  match (s.call c).locals with
  | i :: rest => (s.destroyHandle (.local c i)).setCall c { s.call c with locals := rest }
  | [] => s

def State.close (o : ℕ) (s : State) : State :=
  match s.handle (.object o) with
  | some h => s.setHandle (.object o) (some { h with endpoint := .empty })
  | none => s

def next (s : State) : Act → State
  | .alloc k => { s with
      ptrs := s.ptrs.set (.config k) (some k)
      config := Function.update s.config k true
      made := Function.update s.made k true }
  | .begin c kind tls endpoint socket => s.begin c kind tls endpoint socket
  | .setTls c rv => s.setTls c rv
  | .raise c => s.setCall c { s.call c with stage := .leaving }
  | .moveConstruct c i j => (s.moveConstruct (.local c i) (.local c j)).setCall c
      { s.call c with locals := j :: (s.call c).locals }
  | .moveAssign c i j => s.moveAssign (.local c i) (.local c j)
  | .create c i o => s.create c i o
  | .destroyLocal c => s.destroyLocal c
  | .leave c => s.setCall c {}
  | .close o => s.close o
  | .dropObject o =>
    ({ s with object := Function.update s.object o none } : State).destroyHandle (.object o)
  | .dropConfig k =>
    ({ s with config := Function.update s.config k false } : State).point (.config k) none

/-- **The machine** of the configurations, the endpoint objects and the calls. -/
def owners : Machine State Act where
  init := {
    ptrs := .empty Loc ℕ
    handle := fun _ => none
    config := fun _ => false
    made := fun _ => false
    frees := fun _ => 0
    call := fun _ => {}
    calls := []
    object := fun _ => none
    objects := [] }
  Enabled := Enabled
  next := next

instance (s : State) (a : Act) : Decidable (owners.Enabled s a) :=
  inferInstanceAs (Decidable (Enabled s a))

end TlsOwners

end PyNng
