import Mathlib.Data.Int.Notation
import Mathlib.Data.Nat.Notation
import Mathlib.Logic.Function.Basic
/-!
# Filter — the connection filters

`pipe_filter.hpp`: what a filter sees of a connecting pipe, the four leaf
filters and the two composites that `&` and `|` of `_pipe_filter.pxi`
build. A filter is an object behind a shared pointer, and `allow` may
write to it, so a composite reads and writes a heap of `FirstWinsFilter`
objects: the same object may sit at several places of one expression.

Bytes of an address are kept as they lie in memory. Network byte order is
then the order of the bytes and needs no word on the host's; a port is the
16-bit word the host reads from the address.
-/

namespace PyNng

/-- `nng_sockaddr`: the address families that carry an IP address, and the others. -/
inductive SockAddr
  /-- `NNG_AF_INET`. -/
  | in4 (saPort : UInt16) (saAddr : Vector UInt8 4)
  /-- `NNG_AF_INET6`. -/
  | in6 (saPort : UInt16) (saAddr : Vector UInt8 16)
  /-- Any other family: IPC, inproc, abstract, or `0` where nothing was filled in. -/
  | other (family : ℕ)
  deriving DecidableEq, Repr

/-- `PipeFilterInfo`: the snapshot of a connecting pipe a filter decides on. -/
structure PipeFilterInfo where
  peerAddr : SockAddr
  /-- `-1` where the transport does not tell. -/
  peerPid : ℤ
  pipeId : ℕ
  /-- `0` if inbound. -/
  dialer : ℕ
  /-- `0` if outbound. -/
  listener : ℕ
  deriving DecidableEq, Repr

/-- `IPipeFilter`: the interface `PipeCollection` calls, over the state the
filter's objects are in. -/
structure IPipeFilter (σ : Type) where
  allow : PipeFilterInfo → σ → Bool × σ
  onAdded : PipeFilterInfo → σ → σ
  onRemoved : PipeFilterInfo → σ → σ

/-! ## The arithmetic of `detail` -/

/-- Two addresses are the same IP address; a family without one equals everything. -/
def addrsEqualIp : SockAddr → SockAddr → Bool
  | .other _, _ => true
  | _, .other _ => true
  | .in4 _ a, .in4 _ b => a == b
  | .in6 _ a, .in6 _ b => a == b
  | .in4 .., .in6 .. => false
  | .in6 .., .in4 .. => false

/-- The port word of an address, `0` for a family without ports. -/
def sockaddrPort : SockAddr → UInt16
  | .in4 p _ => p
  | .in6 p _ => p
  | .other _ => 0

variable {n : ℕ}

/-- The byte loop of the CIDR match, `count` bytes from byte `i` on. A read
past the address has no value. -/
def bytesMatch (addr cidr : Vector UInt8 n) : ℕ → ℕ → Option Bool
  | _, 0 => some true
  | i, count + 1 => do
    let a ← addr[i]?
    let c ← cidr[i]?
    if a ≠ c then some false else bytesMatch addr cidr (i + 1) count

/-- **`cidr4_match` and `cidr6_match`**, at any address length: whole bytes
first, then the remaining bits under a mask. -/
def cidrMatch (addr cidr : Vector UInt8 n) (prefixLen : UInt8) : Option Bool := do
  let numBytes := prefixLen.toNat / 8
  let remBits := prefixLen.toNat % 8
  if ← bytesMatch addr cidr 0 numBytes then
    if remBits = 0 then return true
    let mask : UInt8 := UInt8.ofNat (0xFF <<< (8 - remBits))
    return (← addr[numBytes]?) &&& mask == (← cidr[numBytes]?) &&& mask
  else return false

def cidr4Match (addr cidr : Vector UInt8 4) (prefixLen : UInt8) : Option Bool :=
  cidrMatch addr cidr prefixLen

def cidr6Match (addr cidr : Vector UInt8 16) (prefixLen : UInt8) : Option Bool :=
  cidrMatch addr cidr prefixLen

/-- A loop that ends by byte `n` reads only the address. -/
theorem bytesMatch_isSome (addr cidr : Vector UInt8 n) :
    ∀ count i, i + count ≤ n → (bytesMatch addr cidr i count).isSome := by
  intro count
  induction count with
  | zero => intro i _; rfl
  | succ count ih =>
    intro i hi
    have hlt : i < n := by omega
    rw [bytesMatch]
    simp only [Vector.getElem?_eq_getElem hlt, Option.bind_eq_bind, Option.bind_some]
    split
    · rfl
    · exact ih (i + 1) (by omega)

/-- **The match stays inside the address**, at every prefix length the
address has. -/
theorem cidrMatch_isSome (addr cidr : Vector UInt8 n) (prefixLen : UInt8)
    (h : prefixLen.toNat ≤ 8 * n) : (cidrMatch addr cidr prefixLen).isSome := by
  obtain ⟨b, hb⟩ := Option.isSome_iff_exists.mp
    (bytesMatch_isSome addr cidr (prefixLen.toNat / 8) 0 (by omega))
  simp only [cidrMatch, hb, Option.bind_eq_bind, Option.bind_some]
  cases b with
  | false => rfl
  | true =>
    by_cases hrem : prefixLen.toNat % 8 = 0
    · simp [hrem]
    · have hlt : prefixLen.toNat / 8 < n := by omega
      simp [hrem, Vector.getElem?_eq_getElem hlt]

/-! ## The stateless leaves -/

/-- `FilterMode`. -/
inductive FilterMode
  | allow
  | deny
  deriving DecidableEq, Repr

/-- What a list filter answers for a peer that has the dimension. -/
def FilterMode.verdict : FilterMode → Bool → Bool
  | .allow, found => found
  | .deny, found => !found

/-- `Cidr4Entry` and `Cidr6Entry`, with the prefix length `ip_network` gives. -/
structure CidrEntry (n : ℕ) where
  addr : Vector UInt8 n
  prefixLen : UInt8
  prefixLen_le : prefixLen.toNat ≤ 8 * n

/-- `IpFilter`. -/
structure IpFilter where
  mode : FilterMode
  v4 : List (CidrEntry 4)
  v6 : List (CidrEntry 16)

/-- `IpFilter::_matches` and the family test of `allow`: `none` for a peer
without an IP address. -/
def IpFilter.lookup (f : IpFilter) : SockAddr → Option Bool
  | .in4 _ a => some (f.v4.any fun e => cidr4Match a e.addr e.prefixLen == some true)
  | .in6 _ a => some (f.v6.any fun e => cidr6Match a e.addr e.prefixLen == some true)
  | .other _ => none

def IpFilter.allow (f : IpFilter) (info : PipeFilterInfo) : Bool :=
  match f.lookup info.peerAddr with
  | none => true
  | some found => f.mode.verdict found

/-- What `ip_network(entry, strict=False)` gives: the packed network address
and the prefix length. -/
inductive IpNetwork
  | v4 (packed : Vector UInt8 4) (prefixlen : ℕ) (h : prefixlen ≤ 32)
  | v6 (packed : Vector UInt8 16) (prefixlen : ℕ) (h : prefixlen ≤ 128)

/-- The entry the constructor pushes to the list of the network's version. -/
def IpNetwork.entry4 : IpNetwork → Option (CidrEntry 4)
  | .v4 packed prefixlen h =>
    some ⟨packed, UInt8.ofNat prefixlen, by rw [UInt8.toNat_ofNat']; omega⟩
  | .v6 .. => none

def IpNetwork.entry6 : IpNetwork → Option (CidrEntry 16)
  | .v4 .. => none
  | .v6 packed prefixlen h =>
    some ⟨packed, UInt8.ofNat prefixlen, by rw [UInt8.toNat_ofNat']; omega⟩

/-- `IpFilter.__init__`, past the parsing of its entries. -/
def IpFilter.new (addresses : List IpNetwork) (mode : FilterMode) : IpFilter :=
  { mode, v4 := addresses.filterMap IpNetwork.entry4, v6 := addresses.filterMap IpNetwork.entry6 }

/-- `PortRange`. -/
structure PortRange where
  lo : UInt16
  hi : UInt16
  deriving DecidableEq, Repr

/-- `PortFilter`. -/
structure PortFilter where
  mode : FilterMode
  ranges : List PortRange

def PortFilter.allow (f : PortFilter) (info : PipeFilterInfo) : Bool :=
  let port := sockaddrPort info.peerAddr
  if port = 0 then true
  else f.mode.verdict (f.ranges.any fun r => r.lo ≤ port ∧ port ≤ r.hi)

/-- An element of `ports`. -/
inductive PortSpec
  | port (p : ℤ)
  /-- A `(lo, hi)` tuple. -/
  | range (lo hi : ℤ)
  deriving DecidableEq, Repr

def PortSpec.lo : PortSpec → ℤ
  | .port p => p
  | .range lo _ => lo

def PortSpec.hi : PortSpec → ℤ
  | .port p => p
  | .range _ hi => hi

/-- One round of the constructor's loop: the range of an element, or the
`ValueError` that names it. -/
def PortSpec.toRange (entry : PortSpec) : Except PortSpec PortRange :=
  if ¬(0 ≤ entry.lo ∧ entry.lo ≤ 65535) ∨ ¬(0 ≤ entry.hi ∧ entry.hi ≤ 65535) then .error entry
  else .ok ⟨UInt16.ofNat entry.lo.toNat, UInt16.ofNat entry.hi.toNat⟩

/-- `PortFilter.__init__`. -/
def PortFilter.new (ports : List PortSpec) (mode : FilterMode) : Except PortSpec PortFilter := do
  return { mode, ranges := ← ports.mapM PortSpec.toRange }

/-- `PidFilter`. -/
structure PidFilter where
  mode : FilterMode
  pids : List ℤ

def PidFilter.allow (f : PidFilter) (info : PipeFilterInfo) : Bool :=
  if info.peerPid = -1 then true else f.mode.verdict (f.pids.any fun p => info.peerPid = p)

/-! ## `FirstWinsFilter` -/

/-- `FirstWinsFilter`: the key mask and the anchor. -/
structure FirstWinsFilter where
  /-- OR of the `FilterKey` bits. -/
  keyMask : UInt32
  initialized : Bool
  firstPid : ℤ
  firstAddr : SockAddr
  firstPort : UInt16
  deriving DecidableEq, Repr

namespace FirstWinsFilter

/-- `FilterKey::PID`, `IP` and `PORT`, as tests of the mask. -/
def onPid (f : FirstWinsFilter) : Bool := f.keyMask &&& 1 != 0
def onIp (f : FirstWinsFilter) : Bool := f.keyMask &&& 2 != 0
def onPort (f : FirstWinsFilter) : Bool := f.keyMask &&& 4 != 0

/-- As constructed. -/
def new (keyMask : UInt32) : FirstWinsFilter :=
  { keyMask, initialized := false, firstPid := -1, firstAddr := .other 0, firstPort := 0 }

/-- The first connection stores the values of the selected keys. -/
def anchor (f : FirstWinsFilter) (info : PipeFilterInfo) : FirstWinsFilter :=
  { f with
    firstPid := if f.onPid then info.peerPid else f.firstPid
    firstAddr := if f.onIp then info.peerAddr else f.firstAddr
    firstPort := if f.onPort then sockaddrPort info.peerAddr else f.firstPort
    initialized := true }

/-- Later connections are compared on each selected key. -/
def agrees (f : FirstWinsFilter) (info : PipeFilterInfo) : Bool :=
  !(f.onPid && info.peerPid != f.firstPid) &&
    !(f.onIp && !addrsEqualIp info.peerAddr f.firstAddr) &&
    !(f.onPort && sockaddrPort info.peerAddr != f.firstPort)

def allow (f : FirstWinsFilter) (info : PipeFilterInfo) : Bool × FirstWinsFilter :=
  if f.initialized then (f.agrees info, f) else (true, f.anchor info)

def reset (f : FirstWinsFilter) : FirstWinsFilter := { f with initialized := false }

end FirstWinsFilter

/-! ## Composition -/

/-- The loop of `AllFilter::allow` over its children, each applied to the
connection: the first refusal ends it. -/
def AllFilter.allow {σ : Type} : List (σ → Bool × σ) → σ → Bool × σ
  | [], s => (true, s)
  | c :: cs, s =>
    match c s with
    | (true, s') => AllFilter.allow cs s'
    -- what was written on the way stays written
    | (false, s') => (false, s')

/-- The loop of `AnyFilter::allow`: the first acceptance ends it. -/
def AnyFilter.allow {σ : Type} : List (σ → Bool × σ) → σ → Bool × σ
  | [], s => (false, s)
  | c :: cs, s =>
    match c s with
    | (true, s') => (true, s')
    | (false, s') => AnyFilter.allow cs s'

/-- The `FirstWinsFilter` objects, by reference. -/
abbrev Anchors := ℕ → FirstWinsFilter

/-- `PipeFilter`: a leaf, or a composite of `__and__` or `__or__`. A
`FirstWinsFilter` leaf is a reference into `Anchors`. -/
inductive PipeFilter
  | ip (f : IpFilter)
  | port (f : PortFilter)
  | pid (f : PidFilter)
  | firstWins (ref : ℕ)
  | all (self other : PipeFilter)
  | any (self other : PipeFilter)

namespace PipeFilter

/-- `IPipeFilter::allow` of the expression. -/
def allow (info : PipeFilterInfo) : PipeFilter → Anchors → Bool × Anchors
  | .ip f, h => (f.allow info, h)
  | .port f, h => (f.allow info, h)
  | .pid f, h => (f.allow info, h)
  | .firstWins ref, h =>
    let (verdict, f) := (h ref).allow info
    (verdict, Function.update h ref f)
  | .all self other, h => AllFilter.allow [self.allow info, other.allow info] h
  | .any self other, h => AnyFilter.allow [self.allow info, other.allow info] h

/-- `on_added` and `on_removed`: a composite forwards them to its children,
and no leaf overrides them. -/
def notify : PipeFilter → Anchors → Anchors
  | .all self other, h => other.notify (self.notify h)
  | .any self other, h => other.notify (self.notify h)
  | _, h => h

/-- The expression as the collection's filter. -/
def toIPipeFilter (e : PipeFilter) : IPipeFilter Anchors where
  allow := fun info => e.allow info
  onAdded := fun _ => e.notify
  onRemoved := fun _ => e.notify

end PipeFilter

end PyNng
