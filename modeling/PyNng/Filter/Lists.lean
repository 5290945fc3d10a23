import PyNng.Common.Bytes
import PyNng.Filter.Model
/-!
# Filter — what a list filter decides

`IpFilter` and `PortFilter` are lists built in Python and searched in C++.
The byte loop with its masked last byte is prefix equality of the addresses
read as big-endian numbers, so `IpFilter` is membership in the networks it
was given. `PortFilter` compares the word the host reads from the address,
which on a little-endian host has the bytes of the port the other way round.
-/

namespace PyNng

variable {n : ℕ} {info : PipeFilterInfo}

/-! ## Prefixes of addresses -/

/-- The byte loop is equality of the bytes it goes over. -/
theorem bytesMatch_eq (addr cidr : Vector UInt8 n) :
    ∀ count i, i + count ≤ n → bytesMatch addr cidr i count =
      some (decide ((addr.toList.drop i).take count = (cidr.toList.drop i).take count)) := by
  intro count
  induction count with
  | zero => intro i _; simp [bytesMatch]
  | succ count ih =>
    intro i hi
    have hlt : i < n := by omega
    have hstep : ∀ v : Vector UInt8 n,
        (v.toList.drop i).take (count + 1) = v[i] :: (v.toList.drop (i + 1)).take count := by
      intro v
      rw [List.drop_eq_getElem_cons (by simpa using hlt), List.take_succ_cons,
        Vector.getElem_toList]
    rw [bytesMatch]
    simp only [Vector.getElem?_eq_getElem hlt, Option.bind_eq_bind, Option.bind_some, hstep]
    split
    · rename_i hne
      simp [hne]
    · rename_i heq
      rw [ih (i + 1) (by omega)]
      simp [not_not.mp heq]

/-- **The match is prefix equality** of the addresses as big-endian numbers. -/
theorem cidrMatch_iff (addr cidr : Vector UInt8 n) (prefixLen : UInt8)
    (h : prefixLen.toNat ≤ 8 * n) :
    cidrMatch addr cidr prefixLen = some true ↔
      beNat addr.toList >>> (8 * n - prefixLen.toNat) =
        beNat cidr.toList >>> (8 * n - prefixLen.toNat) := by
  have hlen : ∀ v : Vector UInt8 n, v.toList.length = n := fun v => by simp
  have hk : prefixLen.toNat / 8 ≤ n := by omega
  have hbytes := bytesMatch_eq addr cidr (prefixLen.toNat / 8) 0 (by omega)
  simp only [List.drop_zero] at hbytes
  unfold cidrMatch
  simp only [hbytes, Option.bind_eq_bind, Option.bind_some, decide_eq_true_eq]
  by_cases hrem : prefixLen.toNat % 8 = 0
  · -- whole bytes only
    have hpre : prefixLen.toNat = 8 * (prefixLen.toNat / 8) := by omega
    rw [hpre, firstBytes_iff (hlen addr) (hlen cidr) hk, ← hpre]
    by_cases heq : addr.toList.take (prefixLen.toNat / 8) = cidr.toList.take (prefixLen.toNat / 8)
    · simp [heq, hrem]
    · simp [heq]
  · have hlt : prefixLen.toNat / 8 < n := by omega
    have hget : ∀ v : Vector UInt8 n, v.toList[prefixLen.toNat / 8]? =
        some v[prefixLen.toNat / 8] := fun v => by
      rw [List.getElem?_eq_getElem (by simpa using hlt), Vector.getElem_toList]
    have hpre : prefixLen.toNat = 8 * (prefixLen.toNat / 8) + prefixLen.toNat % 8 := by omega
    rw [show 8 * n - prefixLen.toNat =
        8 * n - (8 * (prefixLen.toNat / 8) + prefixLen.toNat % 8) by omega,
      firstBits_iff (hlen addr) (hlen cidr) (hget addr) (hget cidr) (by omega),
      ← and_highMask_inj]
    by_cases heq : addr.toList.take (prefixLen.toNat / 8) = cidr.toList.take (prefixLen.toNat / 8)
    · simp [heq, hrem, Vector.getElem?_eq_getElem hlt]
    · simp [heq]

/-! ## Membership in networks -/

/-- The family carries an IP address. -/
def SockAddr.hasIp : SockAddr → Bool
  | .in4 .. => true
  | .in6 .. => true
  | .other _ => false

namespace IpNetwork

/-- The network is of the address's family. -/
def sameFamily : IpNetwork → SockAddr → Bool
  | .v4 .., .in4 .. => true
  | .v6 .., .in6 .. => true
  | _, _ => false

/-- **The address lies in the network**: they are of one family and agree in
the first `prefixlen` bits, read as big-endian numbers of 32 or 128 bits. -/
def Contains : IpNetwork → SockAddr → Prop
  | .v4 packed prefixlen _, .in4 _ a =>
    beNat a.toList >>> (32 - prefixlen) = beNat packed.toList >>> (32 - prefixlen)
  | .v6 packed prefixlen _, .in6 _ a =>
    beNat a.toList >>> (128 - prefixlen) = beNat packed.toList >>> (128 - prefixlen)
  | _, _ => False

theorem Contains.sameFamily {net : IpNetwork} {a : SockAddr} (h : net.Contains a) :
    net.sameFamily a = true := by
  cases net with
  | v4 => cases a with
    | in4 => rfl
    | _ => exact h.elim
  | v6 => cases a with
    | in6 => rfl
    | _ => exact h.elim

end IpNetwork

/-- The same for the prefix length of a network, which its entry has as a byte. -/
theorem cidrMatch_ofNat_iff (addr cidr : Vector UInt8 n) (prefixlen : ℕ) (h : prefixlen ≤ 8 * n)
    (hbyte : prefixlen < 256) :
    cidrMatch addr cidr (UInt8.ofNat prefixlen) = some true ↔
      beNat addr.toList >>> (8 * n - prefixlen) = beNat cidr.toList >>> (8 * n - prefixlen) := by
  have hlen : (UInt8.ofNat prefixlen).toNat = prefixlen := by
    rw [UInt8.toNat_ofNat']
    omega
  have hiff := cidrMatch_iff addr cidr (UInt8.ofNat prefixlen) (by rw [hlen]; exact h)
  rwa [hlen] at hiff

theorem IpNetwork.contains4_iff (net : IpNetwork) (port : UInt16) (a : Vector UInt8 4) :
    net.Contains (.in4 port a) ↔
      ∃ e, net.entry4 = some e ∧ cidr4Match a e.addr e.prefixLen = some true := by
  cases net with
  | v6 => exact ⟨fun h => h.elim, fun ⟨_, he, _⟩ => nomatch he⟩
  | v4 packed prefixlen h =>
    have hiff := cidrMatch_ofNat_iff a packed prefixlen (by omega) (by omega)
    constructor
    · intro hin
      exact ⟨_, rfl, hiff.mpr hin⟩
    · rintro ⟨e, he, hmatch⟩
      obtain rfl := Option.some.inj he
      exact hiff.mp hmatch

theorem IpNetwork.contains6_iff (net : IpNetwork) (port : UInt16) (a : Vector UInt8 16) :
    net.Contains (.in6 port a) ↔
      ∃ e, net.entry6 = some e ∧ cidr6Match a e.addr e.prefixLen = some true := by
  cases net with
  | v4 => exact ⟨fun h => h.elim, fun ⟨_, he, _⟩ => nomatch he⟩
  | v6 packed prefixlen h =>
    have hiff := cidrMatch_ofNat_iff a packed prefixlen (by omega) (by omega)
    constructor
    · intro hin
      exact ⟨_, rfl, hiff.mpr hin⟩
    · rintro ⟨e, he, hmatch⟩
      obtain rfl := Option.some.inj he
      exact hiff.mp hmatch

/-- A search of the entries is a search of the networks. -/
theorem any_filterMap_iff {entry : IpNetwork → Option (CidrEntry n)} {found : CidrEntry n → Bool}
    {C : IpNetwork → Prop} (hC : ∀ net, C net ↔ ∃ e, entry net = some e ∧ found e = true)
    (addresses : List IpNetwork) :
    (addresses.filterMap entry).any found = true ↔ ∃ net ∈ addresses, C net := by
  simp only [List.any_eq_true, List.mem_filterMap]
  constructor
  · rintro ⟨e, ⟨net, hnet, he⟩, hfound⟩
    exact ⟨net, hnet, (hC net).mpr ⟨e, he, hfound⟩⟩
  · rintro ⟨net, hnet, hin⟩
    obtain ⟨e, he, hfound⟩ := (hC net).mp hin
    exact ⟨e, ⟨net, hnet, he⟩, hfound⟩

/-- The look-up of a peer with an IP address. -/
theorem IpFilter.lookup_new (addresses : List IpNetwork) (mode : FilterMode) {peer : SockAddr}
    (h : peer.hasIp = true) :
    ∃ found, (IpFilter.new addresses mode).lookup peer = some found ∧
      (found = true ↔ ∃ net ∈ addresses, net.Contains peer) := by
  cases peer with
  | in4 port a =>
    refine ⟨_, rfl, any_filterMap_iff (fun net => ?_) addresses⟩
    simpa using net.contains4_iff port a
  | in6 port a =>
    refine ⟨_, rfl, any_filterMap_iff (fun net => ?_) addresses⟩
    simpa using net.contains6_iff port a
  | other => cases h

/-- **What an IP list decides.** -/
structure ExactMembership (addresses : List IpNetwork) (info : PipeFilterInfo) : Prop where
  allow : info.peerAddr.hasIp = true →
    ((IpFilter.new addresses .allow).allow info = true ↔
      ∃ net ∈ addresses, net.Contains info.peerAddr)
  deny : info.peerAddr.hasIp = true →
    ((IpFilter.new addresses .deny).allow info = true ↔
      ¬ ∃ net ∈ addresses, net.Contains info.peerAddr)
  /-- Networks of the other family might as well not be in the list. -/
  families : ∀ mode, (IpFilter.new addresses mode).allow info =
    (IpFilter.new (addresses.filter (·.sameFamily info.peerAddr)) mode).allow info
  nonIp : info.peerAddr.hasIp = false → ∀ mode, (IpFilter.new addresses mode).allow info = true
  /-- No entry has a byte past the address read. -/
  inside4 : ∀ mode, ∀ e ∈ (IpFilter.new addresses mode).v4, ∀ a,
    (cidr4Match a e.addr e.prefixLen).isSome
  inside6 : ∀ mode, ∀ e ∈ (IpFilter.new addresses mode).v6, ∀ a,
    (cidr6Match a e.addr e.prefixLen).isSome

/-- **`IpFilter` is exact network membership**, for every list of networks
and every peer. -/
theorem ipFilter_exact (addresses : List IpNetwork) (info : PipeFilterInfo) :
    ExactMembership addresses info := by
  refine ⟨fun hip => ?_, fun hip => ?_, fun mode => ?_, fun hip mode => ?_,
    fun _ e _ a => cidrMatch_isSome a e.addr e.prefixLen e.prefixLen_le,
    fun _ e _ a => cidrMatch_isSome a e.addr e.prefixLen e.prefixLen_le⟩
  · obtain ⟨found, hfound, hiff⟩ := IpFilter.lookup_new addresses .allow hip
    simp only [IpFilter.allow, hfound]
    exact hiff
  · obtain ⟨found, hfound, hiff⟩ := IpFilter.lookup_new addresses .deny hip
    rw [← hiff]
    simp only [IpFilter.allow, hfound]
    exact Bool.not_eq_true' found ▸ (Bool.not_eq_true found).symm.to_iff
  · cases hip : info.peerAddr.hasIp with
    | false =>
      cases hpeer : info.peerAddr with
      | other => simp [IpFilter.allow, IpFilter.lookup, hpeer]
      | _ => rw [hpeer] at hip; cases hip
    | true =>
      obtain ⟨found, hfound, hiff⟩ := IpFilter.lookup_new addresses mode hip
      obtain ⟨found', hfound', hiff'⟩ :=
        IpFilter.lookup_new (addresses.filter (·.sameFamily info.peerAddr)) mode hip
      have hsame : found = found' := by
        rw [Bool.eq_iff_iff, hiff, hiff']
        constructor
        · rintro ⟨net, hnet, hin⟩
          exact ⟨net, List.mem_filter.mpr ⟨hnet, hin.sameFamily⟩, hin⟩
        · rintro ⟨net, hnet, hin⟩
          exact ⟨net, (List.mem_filter.mp hnet).1, hin⟩
      simp only [IpFilter.allow, hfound, hfound', hsame]
      rfl
  · cases hpeer : info.peerAddr with
    | other => simp [IpFilter.allow, IpFilter.lookup, hpeer]
    | _ => rw [hpeer] at hip; cases hip

/-! ## Ports -/

/-- The TCP port of the word `sa_port` holds: it is kept in network byte
order, and the host is little-endian. -/
def ntohs (w : UInt16) : UInt16 := w <<< 8 ||| w >>> 8

theorem testBit_ntohs (w : UInt16) (i : ℕ) :
    (ntohs w).toNat.testBit i = (decide (i < 16) && w.toNat.testBit ((i + 8) % 16)) := by
  unfold ntohs
  rw [UInt16.toNat_or, Nat.testBit_or, UInt16.toNat_shiftLeft, UInt16.toNat_shiftRight]
  simp only [Nat.testBit_mod_two_pow, Nat.testBit_shiftLeft, Nat.testBit_shiftRight]
  have hw : ∀ j, 16 ≤ j → w.toNat.testBit j = false := fun j hj =>
    Nat.testBit_lt_two_pow (Nat.lt_of_lt_of_le w.toNat_lt (Nat.pow_le_pow_right (by omega) hj))
  have h8 : UInt16.toNat 8 % 16 = 8 := by decide
  rw [h8]
  by_cases hlow : i < 8
  · -- the low byte comes from the high one, and the shift to the left leaves it empty
    have hmod : (i + 8) % 16 = 8 + i := by omega
    have hlt : i < 16 := by omega
    simp [hlow, hmod, hlt]
  · by_cases hi : i < 16
    · have hmod : (i + 8) % 16 = i - 8 := by omega
      have hge : 8 ≤ i := by omega
      simp [hi, hge, hmod, hw (8 + i) (by omega)]
    · simp [hi, hw (8 + i) (by omega)]

theorem ntohs_ntohs (w : UInt16) : ntohs (ntohs w) = w := by
  apply UInt16.toNat_inj.mp
  refine Nat.eq_of_testBit_eq fun i => ?_
  rw [testBit_ntohs, testBit_ntohs]
  by_cases hi : i < 16
  · rw [show ((i + 8) % 16 + 8) % 16 = i by omega]
    simp [hi, Nat.mod_lt]
  · have hw : w.toNat.testBit i = false :=
      Nat.testBit_lt_two_pow
        (Nat.lt_of_lt_of_le w.toNat_lt (Nat.pow_le_pow_right (by omega) (by omega)))
    simp [hi, hw]

/-- The peer's TCP port, where it has one. -/
def SockAddr.tcpPort (a : SockAddr) : Option UInt16 :=
  if sockaddrPort a = 0 then none else some (ntohs (sockaddrPort a))

namespace PortSpec

/-- The port is in the range. -/
def Contains (entry : PortSpec) (p : UInt16) : Prop :=
  entry.lo ≤ p.toNat ∧ (p.toNat : ℤ) ≤ entry.hi

instance (entry : PortSpec) (p : UInt16) : Decidable (entry.Contains p) :=
  inferInstanceAs (Decidable (_ ∧ _))

/-- The range an element becomes holds the ports of the element. -/
theorem contains_iff {entry : PortSpec} {r : PortRange} (h : entry.toRange = .ok r) (p : UInt16) :
    r.lo ≤ p ∧ p ≤ r.hi ↔ entry.Contains p := by
  unfold toRange at h
  split at h
  · cases h
  · rename_i hbounds
    obtain ⟨⟨h1, h2⟩, h3, h4⟩ : (0 ≤ entry.lo ∧ entry.lo ≤ 65535) ∧ 0 ≤ entry.hi ∧
        entry.hi ≤ 65535 := by
      by_contra hne
      exact hbounds (by omega)
    obtain rfl := Except.ok.inj h
    rw [UInt16.le_iff_toNat_le, UInt16.le_iff_toNat_le, UInt16.toNat_ofNat', UInt16.toNat_ofNat']
    unfold Contains
    omega

end PortSpec

/-- The list the constructor builds has the ports of the list it is given. -/
theorem PortFilter.any_new {ports : List PortSpec} {ranges : List PortRange}
    (h : ports.mapM PortSpec.toRange = .ok ranges) (p : UInt16) :
    (ranges.any fun r => r.lo ≤ p ∧ p ≤ r.hi) = true ↔ ∃ entry ∈ ports, entry.Contains p := by
  induction ports generalizing ranges with
  | nil =>
    obtain rfl : [] = ranges := Except.ok.inj h
    simp
  | cons entry ports ih =>
    rw [List.mapM_cons] at h
    cases hr : entry.toRange with
    | error => rw [hr] at h; cases h
    | ok r =>
      cases hrs : ports.mapM PortSpec.toRange with
      | error => rw [hr, hrs] at h; cases h
      | ok rs =>
        rw [hr, hrs] at h
        obtain rfl : r :: rs = ranges := Except.ok.inj h
        simp [← ih hrs, ← PortSpec.contains_iff hr p]

/-- **The filter decides by the peer's real port.** -/
structure DecidesByPort (ports : List PortSpec) (f : PortFilter) (info : PipeFilterInfo) :
    Prop where
  allow : ∀ p, info.peerAddr.tcpPort = some p → f.mode = .allow →
    (f.allow info = true ↔ ∃ entry ∈ ports, entry.Contains p)
  deny : ∀ p, info.peerAddr.tcpPort = some p → f.mode = .deny →
    (f.allow info = true ↔ ¬ ∃ entry ∈ ports, entry.Contains p)
  portless : info.peerAddr.tcpPort = none → f.allow info = true

/-- **When `PortFilter` decides by the real port.** It looks the port up with
its two bytes exchanged, so its verdict is right exactly when the list holds
the port if and only if it holds that one. -/
theorem portFilter_iff {ports : List PortSpec} {mode : FilterMode} {f : PortFilter}
    (hf : PortFilter.new ports mode = .ok f) (info : PipeFilterInfo) :
    DecidesByPort ports f info ↔
      ∀ p, info.peerAddr.tcpPort = some p →
        ((∃ entry ∈ ports, entry.Contains p) ↔ ∃ entry ∈ ports, entry.Contains (ntohs p)) := by
  obtain ⟨rs, hrs, rfl⟩ : ∃ rs, ports.mapM PortSpec.toRange = .ok rs ∧ f = ⟨mode, rs⟩ := by
    unfold PortFilter.new at hf
    cases hrs : ports.mapM PortSpec.toRange with
    | error => rw [hrs] at hf; cases hf
    | ok rs => rw [hrs] at hf; exact ⟨rs, rfl, (Except.ok.inj hf).symm⟩
  by_cases hw : sockaddrPort info.peerAddr = 0
  · -- a peer without a port is accepted, and nothing is asked of it
    have hnone : info.peerAddr.tcpPort = none := if_pos hw
    have hallow : PortFilter.allow ⟨mode, rs⟩ info = true := if_pos hw
    rw [hnone]
    have hno : ∀ {p}, info.peerAddr.tcpPort ≠ some p := fun {p} => by rw [hnone]; simp
    refine ⟨fun _ p hp => (nomatch hp), fun _ => ⟨fun p hp => ?_, fun p hp => ?_, fun _ => hallow⟩⟩
    · exact absurd hp hno
    · exact absurd hp hno
  · have hsome : info.peerAddr.tcpPort = some (ntohs (sockaddrPort info.peerAddr)) := if_neg hw
    have hallow : PortFilter.allow ⟨mode, rs⟩ info = mode.verdict
        (rs.any fun r => r.lo ≤ sockaddrPort info.peerAddr ∧ sockaddrPort info.peerAddr ≤ r.hi) :=
      if_neg hw
    have hany := PortFilter.any_new hrs (sockaddrPort info.peerAddr)
    constructor
    · intro h p hp
      obtain rfl := Option.some.inj (hsome.symm.trans hp)
      rw [ntohs_ntohs, ← hany]
      cases mode with
      | allow =>
        have hverdict := h.allow _ hsome rfl
        rw [hallow] at hverdict
        exact hverdict.symm
      | deny =>
        have hverdict := h.deny _ hsome rfl
        rw [hallow, FilterMode.verdict, Bool.not_eq_true'] at hverdict
        rw [← Bool.not_eq_false, hverdict, not_not]
    · intro h
      have hlist := h _ hsome
      rw [ntohs_ntohs, ← hany] at hlist
      refine ⟨fun p hp hmode => ?_, fun p hp hmode => ?_, fun hnone => ?_⟩
      · obtain rfl := Option.some.inj (hsome.symm.trans hp)
        obtain rfl : mode = .allow := hmode
        rw [hallow, hlist]
        rfl
      · obtain rfl := Option.some.inj (hsome.symm.trans hp)
        obtain rfl : mode = .deny := hmode
        rw [hallow, hlist, FilterMode.verdict, Bool.not_eq_true', Bool.not_eq_true]
      · rw [hsome] at hnone
        cases hnone

/-- A TCP peer of the given port. -/
def tcpPeer (port : UInt16) : PipeFilterInfo :=
  { peerAddr := .in4 (ntohs port) #v[127, 0, 0, 1], peerPid := -1, pipeId := 1, dialer := 0,
    listener := 1 }

/-- The full range holds every port, whichever way round its bytes are. -/
theorem portFilter_iff_full_range :
    ∃ f, PortFilter.new [.range 0 65535] .deny = .ok f ∧
      DecidesByPort [.range 0 65535] f (tcpPeer 80) :=
  ⟨_, rfl, (portFilter_iff rfl (tcpPeer 80)).mpr fun p hp => by
    obtain rfl : 80 = p := Option.some.inj hp
    decide⟩

/-- **`PortFilter([80])` refuses the peer of port 80.** -/
theorem port_80_refused :
    ¬ (∀ ports mode f info, PortFilter.new ports mode = .ok f → DecidesByPort ports f info) := by
  intro hclaim
  have hdecides := hclaim [.port 80] .allow ⟨.allow, [⟨80, 80⟩]⟩ (tcpPeer 80) rfl
  have hallow := (hdecides.allow 80 (by decide) rfl).mpr ⟨_, List.mem_singleton_self _, by decide⟩
  revert hallow
  decide

end PyNng
