import PyNng.Common.Handle
import PyNng.Common.Machine
import Mathlib.Data.Int.Notation
import Mathlib.Logic.Function.Basic
/-!
# Endpoint — dialers, listeners and contexts of a socket

What nng has open for a socket, the handles the Python objects hold, and
`Socket.add_dialer` and `Socket.add_listener` statement by statement, with
the C++ temporaries and what their destructors do.

`nng_dialer_create` and the option setters are nng's; what they answer is
a parameter of a call. So are the conversions of the arguments: an
argument is the value it converts to, or what the conversion raises.
-/

namespace PyNng

namespace Endpoint

/-! ## nng's side -/

inductive Kind
  | dialer
  | listener
  | context
  deriving DecidableEq, Repr

/-- The endpoints open in nng, by kind and id. -/
abbrev Nng := Kind → ℕ → Bool

def Nng.set (kind : Kind) (id : ℕ) (isOpen : Bool) (nng : Nng) : Nng :=
  fun k n => if k = kind ∧ n = id then isOpen else nng k n

/-- **`nng_dialer_close`**, `nng_listener_close` and `nng_ctx_close`, with
the code they give for an id that is not open. -/
def nngClose (kind : Kind) (err : ℕ) (id : ℕ) (nng : Nng) : ℕ × Nng :=
  if nng kind id then (0, nng.set kind id false) else (err, nng)

@[simp] theorem set_self (kind : Kind) (id : ℕ) (b : Bool) (nng : Nng) :
    nng.set kind id b kind id = b := by
  simp [Nng.set]

theorem set_of_ne {kind k : Kind} {id n : ℕ} (h : k ≠ kind ∨ n ≠ id) (b : Bool) (nng : Nng) :
    nng.set kind id b k n = nng k n := by
  simp only [Nng.set, ite_eq_right_iff, and_imp]
  intro hk hn
  exact h.elim (absurd hk) (absurd hn)

/-! ## The socket -/

/-- What is raised. -/
inductive Err
  /-- `NngClosed(NNG_ECLOSED, "Socket is closed")`. -/
  | closed
  /-- `_err_from_code`. -/
  | nng (rv : ℕ)
  | typeError
  | overflowError
  /-- `ValueError("Invalid IP address: ...")`, with the text that was given. -/
  | invalidAddress (text : String)
  /-- Whatever else the conversion of an argument raises. -/
  | other
  deriving DecidableEq, Repr

/-- **`Socket`**, as `add_dialer` and `add_listener` see it. -/
structure Socket where
  /-- `_handle.get().is_open()`. -/
  isOpen : Bool
  nng : Nng
  /-- The handles of `_dialers` and of `_listeners`. -/
  objects : Kind → List Handle

/-- `check_err`. -/
def checkErr (rv : ℕ) : Option Err := if rv ≠ 0 then some (.nng rv) else none

/-! ## Options -/

/-- `NNG_OPT_...`. -/
inductive Opt
  | tls
  | reconnMinT
  | reconnMaxT
  | tcpNodelay
  | tcpKeepalive
  | locAddr
  | recvMaxSz
  deriving DecidableEq, Repr

inductive Family
  | inet
  | inet6
  deriving DecidableEq, Repr

/-- What an option is set to. -/
inductive Value
  | tls (config : ℕ)
  | ms (duration : ℤ)
  | size (bytes : ℕ)
  | bool (b : Bool)
  | addr (family : Family) (packed : ℕ)
  deriving DecidableEq, Repr

/-- An argument: `none` for `None`. -/
abbrev Arg (α : Type) := Option (Except Err α)

/-- **What nng answers a creation**: an error, or the id of an endpoint of
the socket that was not open before. -/
inductive Created (s : Socket) (kind : Kind)
  | fails (rv : ℕ) (error : rv ≠ 0)
  | opens (id : ℕ) (pos : id ≠ 0) (fresh : s.nng kind id = false)

/-- **What a call depends on** besides its arguments and the socket. -/
structure Env (s : Socket) (kind : Kind) where
  create : String → Created s kind
  /-- The code of a setter for the endpoint, the option and the value. -/
  set : ℕ → Opt → Value → ℕ
  inetPton : Family → String → Option ℕ
  /-- `Dialer.create` raises. -/
  createRaises : Option Err

/-- **`_ip_str_to_sockaddr`.** -/
def ipStrToSockaddr (inetPton : Family → String → Option ℕ) (ipStr : String) : Except Err Value :=
  match inetPton .inet ipStr with
  | some packed => .ok (.addr .inet packed)
  | none =>
    match inetPton .inet6 ipStr with
    | some packed => .ok (.addr .inet6 packed)
    | none => .error (.invalidAddress ipStr)

/-- The `if ... is not None: check_err(...)` statements, in order: what the
first of them to raise raises. -/
def applyOptions (set : Opt → Value → ℕ) : List (Opt × Arg Value) → Option Err
  | [] => none
  | (_, none) :: rest => applyOptions set rest
  | (_, some (.error e)) :: _ => some e
  | (opt, some (.ok v)) :: rest =>
    match checkErr (set opt v) with
    | some e => some e
    | none => applyOptions set rest

/-- The keyword arguments of `add_dialer`. -/
structure DialerOptions where
  tls : Arg ℕ := none
  reconnectMinMs : Arg ℤ := none
  reconnectMaxMs : Arg ℤ := none
  recvMaxSize : Arg ℕ := none
  tcpNodelay : Arg Bool := none
  tcpKeepalive : Arg Bool := none
  /-- `str(tcp_local_addr)`. -/
  tcpLocalAddr : Arg String := none

/-- They are set in this order. -/
def DialerOptions.toList (o : DialerOptions) (inetPton : Family → String → Option ℕ) :
    List (Opt × Arg Value) :=
  [(.tls, o.tls.map (·.map .tls)),
    (.reconnMinT, o.reconnectMinMs.map (·.map .ms)),
    (.reconnMaxT, o.reconnectMaxMs.map (·.map .ms)),
    (.tcpNodelay, o.tcpNodelay.map (·.map .bool)),
    (.tcpKeepalive, o.tcpKeepalive.map (·.map .bool)),
    (.locAddr, o.tcpLocalAddr.map (·.bind (ipStrToSockaddr inetPton))),
    (.recvMaxSz, o.recvMaxSize.map (·.map .size))]

/-- The keyword arguments of `add_listener`. -/
structure ListenerOptions where
  tls : Arg ℕ := none
  recvMaxSize : Arg ℕ := none
  tcpNodelay : Arg Bool := none
  tcpKeepalive : Arg Bool := none

/-- They are set in this order. -/
def ListenerOptions.toList (o : ListenerOptions) : List (Opt × Arg Value) :=
  [(.tls, o.tls.map (·.map .tls)),
    (.recvMaxSz, o.recvMaxSize.map (·.map .size)),
    (.tcpNodelay, o.tcpNodelay.map (·.map .bool)),
    (.tcpKeepalive, o.tcpKeepalive.map (·.map .bool))]

/-! ## `add_dialer` and `add_listener` -/

/-- How a call leaves: the socket after it, and what it raises. -/
structure Result where
  sock : Socket
  raised : Option Err

/-- What the destructor of a handle does to nng. -/
abbrev Destructor := Handle → Nng → Nng

/-- `~DialerHandle() = default`, and the same for `ListenerHandle`. -/
def defaultDestructor : Destructor := fun _ nng => nng

section Add

variable (destroy : Destructor) (kind : Kind)

/-- `make_dialer(self._handle, b, err)` assigned to `dh`: `dh`, and nng once
the temporary is destroyed. -/
def assignMade (id : ℕ) (nng : Nng) : Handle × Nng :=
  let (dh, temporary, nng) := Handle.empty.assign (nngClose kind 0) ⟨id⟩ nng
  (dh, destroy temporary nng)

/-- `Dialer.create(move(dh), self)`: the handle of the object, and nng once
the parameter is destroyed. -/
def createObject (dh : Handle) (nng : Nng) : Handle × Handle × Nng :=
  let (param, dh) := dh.moved
  let (handle, param, nng) := Handle.empty.assign (nngClose kind 0) param nng
  (handle, dh, destroy param nng)

/-- **The body of both.** Locals are destroyed where the call leaves. -/
def add (s : Socket) (env : Env s kind) (url : Except Err String)
    (options : List (Opt × Arg Value)) : Result :=
  if s.isOpen = false then ⟨s, some .closed⟩
  else match url with
  | .error e => ⟨s, some e⟩
  | .ok b =>
    match env.create b with
    | .fails rv _ =>
      let (dh, nng) := assignMade destroy kind 0 s.nng
      ⟨{ s with nng := destroy dh nng }, some (.nng rv)⟩
    | .opens id _ _ =>
      let (dh, nng) := assignMade destroy kind id (s.nng.set kind id true)
      match applyOptions (env.set id) options with
      | some e => ⟨{ s with nng := destroy dh nng }, some e⟩
      | none =>
        match env.createRaises with
        | some e =>
          let (param, dh) := dh.moved
          ⟨{ s with nng := destroy dh (destroy param nng) }, some e⟩
        | none =>
          let (handle, dh, nng) := createObject destroy kind dh nng
          ⟨{ s with
              nng := destroy dh nng
              objects := Function.update s.objects kind (s.objects kind ++ [handle]) }, none⟩

end Add

/-- **`Socket.add_dialer`.** -/
def addDialer (s : Socket) (env : Env s .dialer) (url : Except Err String) (o : DialerOptions) :
    Result :=
  add defaultDestructor .dialer s env url (o.toList env.inetPton)

/-- **`Socket.add_listener`.** -/
def addListener (s : Socket) (env : Env s .listener) (url : Except Err String)
    (o : ListenerOptions) : Result :=
  add defaultDestructor .listener s env url o.toList

/-! ## `close` -/

/-- The socket, or one of the dialers, listeners and contexts made from it. -/
inductive Obj (ι : Type*)
  | socket
  | child (i : ι)
  deriving DecidableEq, Repr

/-- What closing an endpoint gives that nng does not know any more. -/
inductive Invalid
  | enoent
  | eclosed
  deriving DecidableEq, Repr

/-- `NNG_ENOENT` and `NNG_ECLOSED`. -/
def Invalid.code : Invalid → ℕ
  | .enoent => 12
  | .eclosed => 7

/-- How `close` is called. -/
inductive How
  | close
  /-- `__exit__`. -/
  | exit
  deriving DecidableEq, Repr

/-- A call of `close`, and what nng answers if the endpoint is invalid by then. -/
structure Call (ι : Type*) where
  obj : Obj ι
  how : How := .close
  invalid : Invalid := .eclosed
  deriving DecidableEq, Repr

/-- **A socket with its objects**: the handles they have, and the endpoints
of the socket in nng. -/
structure Objects (ι : Type*) where
  socket : Handle
  nng : Nng
  handle : ι → Handle

section Close

variable {ι : Type*} [DecidableEq ι] (kind : ι → Kind)

/-- **`Socket.close`**: nng invalidates all that the socket has. -/
def Objects.closeSocket (s : Objects ι) : Objects ι :=
  if s.socket.isOpen then { s with socket := Handle.empty, nng := fun _ _ => false } else s

/-- **`Dialer.close`**, `Listener.close` and `Context.close`. -/
def Objects.closeChild (i : ι) (invalid : Invalid) (s : Objects ι) : Objects ι × Option Err :=
  if (s.handle i).isOpen then
    let (rv, h, nng) := (s.handle i).close (nngClose (kind i) invalid.code) s.nng
    ⟨{ s with nng, handle := Function.update s.handle i h }, checkErr rv⟩
  else (s, none)

/-- The body of `close`. -/
def Objects.closeObj (s : Objects ι) (obj : Obj ι) (invalid : Invalid) :
    Objects ι × Option Err :=
  match obj with
  | .socket => (s.closeSocket, none)
  | .child i => s.closeChild kind i invalid

/-- `__exit__` calls `close`. -/
def Objects.call (s : Objects ι) (c : Call ι) : Objects ι × Option Err :=
  match c.how with
  | .close => s.closeObj kind c.obj c.invalid
  | .exit => s.closeObj kind c.obj c.invalid

/-- **The machine** of the calls of `close`, from a socket on. -/
def closing (s : Objects ι) : Machine (Objects ι) (Call ι) where
  init := s
  Enabled := fun _ _ => True
  next := fun s c => (s.call kind c).1

end Close

end Endpoint

end PyNng
