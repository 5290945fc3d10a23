import PyNng.Filter.Anchor
import PyNng.Filter.Lists
/-!
# Filter — what a `FirstWinsFilter` holds its peers to

One filter object over a run of connections and resets. Every connection
accepted since the last reset agrees with the first of them, and the
comparison is the code's: a PID of `-1` and a port of `0` are values like
any other, and an address that is no IP address equals every address.

So PID and PORT are held through equality with the first connection, and
IP is held when that connection had an IP address. A newcomer without the
dimension is let through by IP only: by PID and PORT it is refused when the
first connection had a value there.
-/

namespace PyNng

/-! ## Dimensions -/

/-- `FilterKey`. -/
inductive FilterKey
  | pid
  | ip
  | port
  deriving DecidableEq, Repr

namespace FilterKey

def bit : FilterKey → UInt32
  | .pid => 1
  | .ip => 2
  | .port => 4

/-- The mask selects the key. -/
def selectedBy (key : FilterKey) (keyMask : UInt32) : Bool := keyMask &&& key.bit != 0

end FilterKey

namespace PipeFilterInfo

variable (info : PipeFilterInfo)

/-- The PID, where the transport tells it. -/
def pid? : Option ℤ := if info.peerPid = -1 then none else some info.peerPid

/-- The IP address of a peer that has one. -/
def ip? : Option (Vector UInt8 4 ⊕ Vector UInt8 16) :=
  match info.peerAddr with
  | .in4 _ a => some (.inl a)
  | .in6 _ a => some (.inr a)
  | .other _ => none

/-- The port of an IPv4 or IPv6 peer. -/
def port? : Option UInt16 :=
  match info.peerAddr with
  | .in4 p _ => some p
  | .in6 p _ => some p
  | .other _ => none

end PipeFilterInfo

/-- Where both have a value it is the same. -/
def Compatible {α : Type} (x y : Option α) : Prop := ∀ a, x = some a → ∀ b, y = some b → a = b

instance {α : Type} [DecidableEq α] : ∀ x y : Option α, Decidable (Compatible x y)
  | some a, some b => decidable_of_iff (a = b)
      ⟨fun h _ ha _ hb => Option.some.inj ha ▸ Option.some.inj hb ▸ h, fun h => h a rfl b rfl⟩
  | none, _ => .isTrue fun _ h => nomatch h
  | some _, none => .isTrue fun _ _ _ h => nomatch h

theorem port?_eq {info : PipeFilterInfo} {p : UInt16} (h : info.port? = some p) :
    sockaddrPort info.peerAddr = p := by
  unfold PipeFilterInfo.port? at h
  unfold sockaddrPort
  split at h <;> simp_all

/-- Where both are IP addresses the comparison is equality. -/
theorem addrsEqualIp_iff {a b : PipeFilterInfo} (ha : a.ip?.isSome) (hb : b.ip?.isSome) :
    addrsEqualIp a.peerAddr b.peerAddr = true ↔ a.ip? = b.ip? := by
  unfold PipeFilterInfo.ip? at ha hb ⊢
  cases hpa : a.peerAddr <;> cases hpb : b.peerAddr <;> simp_all [addrsEqualIp]

/-- An address that is no IP address equals every address. -/
theorem addrsEqualIp_of_none {a : PipeFilterInfo} (ha : a.ip? = none) (b : SockAddr) :
    addrsEqualIp a.peerAddr b = true := by
  unfold PipeFilterInfo.ip? at ha
  cases hpa : a.peerAddr <;> simp_all [addrsEqualIp]

/-! ## Runs of one filter object -/

/-- A filter object, and the connections it has accepted since it was last
reset, the first of them first. -/
structure Holding where
  filter : FirstWinsFilter
  accepted : List PipeFilterInfo

/-- A connection is offered, or the anchor released. -/
inductive HoldingAct
  | offer (info : PipeFilterInfo)
  | reset

def Holding.next (s : Holding) : HoldingAct → Holding
  | .offer info =>
    let (verdict, filter) := s.filter.allow info
    { filter, accepted := s.accepted ++ if verdict then [info] else [] }
  | .reset => { filter := s.filter.reset, accepted := [] }

/-- **The machine of one filter object.** -/
def firstWins (keyMask : UInt32) : Machine Holding HoldingAct where
  init := { filter := .new keyMask, accepted := [] }
  Enabled := fun _ _ => True
  next := Holding.next

/-- Connections and resets come in any order. -/
theorem reach_run (keyMask : UInt32) (acts : List HoldingAct) :
    (firstWins keyMask).Reach ((firstWins keyMask).final (firstWins keyMask).init acts) := by
  have hvalid : ∀ s, (firstWins keyMask).Valid s acts := by
    induction acts with
    | nil => intro s; trivial
    | cons a acts ih => intro s; exact ⟨trivial, ih _⟩
  exact Machine.reach_final (hvalid _)

/-- The connection agrees with the first one, as the code compares them. -/
def AgreesWith (keyMask : UInt32) (first info : PipeFilterInfo) : Prop :=
  (FilterKey.pid.selectedBy keyMask → info.peerPid = first.peerPid) ∧
    (FilterKey.ip.selectedBy keyMask → addrsEqualIp info.peerAddr first.peerAddr = true) ∧
    (FilterKey.port.selectedBy keyMask →
      sockaddrPort info.peerAddr = sockaddrPort first.peerAddr)

/-- **The anchor is the first connection**, and all that was accepted agrees
with it. -/
structure Held (keyMask : UInt32) (s : Holding) : Prop where
  mask : s.filter.keyMask = keyMask
  released : s.filter.initialized = false → s.accepted = []
  anchored : s.filter.initialized = true → ∃ first, s.accepted.head? = some first ∧
    s.filter.Stores first ∧ ∀ info ∈ s.accepted, AgreesWith keyMask first info

variable {keyMask : UInt32} {s : Holding}

theorem not_selected_and_not {k b : Bool} : (!(k && !b)) = true ↔ (k = true → b = true) := by
  cases k <;> simp

/-- The comparison with the stored values is the one with the connection
they were taken from. -/
theorem agrees_iff {f : FirstWinsFilter} {first info : PipeFilterInfo} (hmask : f.keyMask = keyMask)
    (hstores : f.Stores first) : f.agrees info = true ↔ AgreesWith keyMask first info := by
  subst hmask
  obtain ⟨hpid, hip, hport⟩ := hstores
  unfold FirstWinsFilter.agrees AgreesWith bne
  rw [Bool.and_eq_true, Bool.and_eq_true, not_selected_and_not, not_selected_and_not,
    not_selected_and_not, beq_iff_eq, beq_iff_eq, and_assoc]
  refine and_congr (imp_congr_right fun hk => ?_)
    (and_congr (imp_congr_right fun hk => ?_) (imp_congr_right fun hk => ?_))
  · rw [hpid hk]
  · rw [hip hk]
  · rw [hport hk]

/-- **Each step keeps the anchor the first connection.** -/
theorem Held.next (h : Held keyMask s) (a : HoldingAct) : Held keyMask (s.next a) := by
  cases a with
  | reset => exact ⟨h.mask, fun _ => rfl, fun hinit => Bool.noConfusion hinit⟩
  | offer info =>
    cases hinit : s.filter.initialized with
    | false =>
      -- the connection becomes the anchor
      have hnone := h.released hinit
      have hstores := @FirstWinsFilter.allow_snd_stores info _ hinit
      have hfst : (s.filter.allow info).1 = true := by
        rw [FirstWinsFilter.allow_fst]
        simp [FirstWinsFilter.admits, hinit]
      have hmask : (s.filter.allow info).2.keyMask = keyMask := by
        rw [← h.mask]
        simp [FirstWinsFilter.allow, hinit, FirstWinsFilter.anchor]
      refine ⟨hmask, fun hno => ?_, fun _ => ⟨info, ?_, hstores, fun x hx => ?_⟩⟩
      · rw [Holding.next, FirstWinsFilter.allow_snd_initialized] at hno
        cases hno
      · simp [Holding.next, hnone, hfst]
      · obtain rfl : x = info := by simpa [Holding.next, hnone, hfst] using hx
        exact ⟨fun _ => rfl, fun _ => FirstWinsFilter.addrsEqualIp_self _, fun _ => rfl⟩
    | true =>
      obtain ⟨first, hhead, hstores, hall⟩ := h.anchored hinit
      have hsnd := @FirstWinsFilter.allow_snd_of_initialized info _ hinit
      have hfst : (s.filter.allow info).1 = s.filter.agrees info := by
        rw [FirstWinsFilter.allow_fst]
        simp [FirstWinsFilter.admits, hinit]
      refine ⟨?_, fun hno => ?_, fun _ => ⟨first, ?_, ?_, fun x hx => ?_⟩⟩
      · simpa only [Holding.next, hsnd] using h.mask
      · simp only [Holding.next, hsnd, hinit] at hno
        cases hno
      · simp [Holding.next, List.head?_append, hhead]
      · simpa only [Holding.next, hsnd] using hstores
      · simp only [Holding.next, hfst, List.mem_append] at hx
        rcases hx with hx | hx
        · exact hall x hx
        · -- accepted now, so it agrees with the anchor
          by_cases hag : s.filter.agrees info = true
          · obtain rfl : x = info := by simpa [hag] using hx
            exact (agrees_iff h.mask hstores).mp hag
          · simp [hag] at hx

theorem held_of_reach (h : (firstWins keyMask).Reach s) : Held keyMask s :=
  h.invariant ⟨rfl, fun _ => rfl, fun hinit => Bool.noConfusion hinit⟩
    fun _ a _ hs _ _ => hs.next a

/-- In a state with a first connection the verdict is agreement with it. -/
theorem verdict_iff (h : (firstWins keyMask).Reach s) {first : PipeFilterInfo}
    (hfirst : s.accepted.head? = some first) (info : PipeFilterInfo) :
    (s.filter.allow info).1 = true ↔ AgreesWith keyMask first info := by
  have hheld := held_of_reach h
  have hinit : s.filter.initialized = true := by
    by_contra hno
    rw [hheld.released (by simpa using hno)] at hfirst
    cases hfirst
  obtain ⟨first', hhead, hstores, -⟩ := hheld.anchored hinit
  obtain rfl : first' = first := Option.some.inj (hhead.symm.trans hfirst)
  rw [FirstWinsFilter.allow_fst, FirstWinsFilter.admits, hinit]
  exact agrees_iff hheld.mask hstores

/-- Everything accepted agrees with the first connection. -/
theorem agreesWith_of_mem (h : (firstWins keyMask).Reach s) {info : PipeFilterInfo}
    (hinfo : info ∈ s.accepted) :
    ∃ first, s.accepted.head? = some first ∧ AgreesWith keyMask first info := by
  have hheld := held_of_reach h
  cases hinit : s.filter.initialized with
  | false =>
    rw [hheld.released hinit] at hinfo
    cases hinfo
  | true =>
    obtain ⟨first, hhead, -, hall⟩ := hheld.anchored hinit
    exact ⟨first, hhead, hall info hinfo⟩

/-! ## What accepted connections have in common -/

/-- Two connections that both have a selected dimension have one value there. -/
structure Sound (keyMask : UInt32) (a b : PipeFilterInfo) : Prop where
  pid : FilterKey.pid.selectedBy keyMask → Compatible a.pid? b.pid?
  ip : FilterKey.ip.selectedBy keyMask → Compatible a.ip? b.ip?
  port : FilterKey.port.selectedBy keyMask → Compatible a.port? b.port?

/-- The first connection holds nobody to an address: it has none, and it
passes on PID and PORT with the connection. -/
structure NoAddress (keyMask : UInt32) (first info : PipeFilterInfo) : Prop where
  ip : first.ip? = none
  pid : FilterKey.pid.selectedBy keyMask → info.peerPid = first.peerPid
  port : FilterKey.port.selectedBy keyMask → info.port? = some 0

/-- The dimensions two accepted connections are held to. -/
structure SoundUnlessNoAddress (keyMask : UInt32) (s : Holding) (a b : PipeFilterInfo) : Prop where
  pid : FilterKey.pid.selectedBy keyMask → Compatible a.pid? b.pid?
  ip : FilterKey.ip.selectedBy keyMask → Compatible a.ip? b.ip? ∨
    ∃ first, s.accepted.head? = some first ∧ NoAddress keyMask first a ∧ NoAddress keyMask first b
  port : FilterKey.port.selectedBy keyMask → Compatible a.port? b.port?

theorem compatible_pid {a b : PipeFilterInfo} (h : a.peerPid = b.peerPid) :
    Compatible a.pid? b.pid? := by
  have hsame : a.pid? = b.pid? := by rw [PipeFilterInfo.pid?, PipeFilterInfo.pid?, h]
  intro x hx y hy
  rw [hsame] at hx
  exact Option.some.inj (hx.symm.trans hy)

theorem compatible_port {a b : PipeFilterInfo}
    (h : sockaddrPort a.peerAddr = sockaddrPort b.peerAddr) : Compatible a.port? b.port? := by
  intro x hx y hy
  rw [← port?_eq hx, ← port?_eq hy, h]

/-- An IP peer let in beside a first connection without an address. -/
theorem noAddress_of_agreesWith {first info : PipeFilterInfo} (h : AgreesWith keyMask first info)
    (hnone : first.ip? = none) (hsome : info.ip?.isSome) : NoAddress keyMask first info := by
  refine ⟨hnone, h.1, fun hk => ?_⟩
  have hzero := h.2.2 hk
  unfold PipeFilterInfo.ip? at hnone hsome
  unfold PipeFilterInfo.port?
  cases hfirst : first.peerAddr <;> cases hinfo : info.peerAddr <;>
    simp_all [sockaddrPort]

/-- **What a `FirstWinsFilter` guarantees.** Of two connections accepted
between two resets, those with a PID have one PID and those with a port have
one port, where these are selected. With IP selected, those with an IP
address have one address, unless the first connection had none. -/
theorem firstWins_sound (h : (firstWins keyMask).Reach s) {a b : PipeFilterInfo}
    (ha : a ∈ s.accepted) (hb : b ∈ s.accepted) : SoundUnlessNoAddress keyMask s a b := by
  obtain ⟨first, hhead, hag⟩ := agreesWith_of_mem h ha
  obtain ⟨first', hhead', hbg⟩ := agreesWith_of_mem h hb
  obtain rfl : first = first' := Option.some.inj (hhead.symm.trans hhead')
  refine ⟨fun hk => compatible_pid ((hag.1 hk).trans (hbg.1 hk).symm), fun hk => ?_,
    fun hk => compatible_port ((hag.2.2 hk).trans (hbg.2.2 hk).symm)⟩
  by_cases hip : a.ip?.isSome ∧ b.ip?.isSome
  · obtain ⟨haip, hbip⟩ := hip
    cases hfirst : first.ip? with
    | none =>
      exact Or.inr ⟨first, hhead, noAddress_of_agreesWith hag hfirst haip,
        noAddress_of_agreesWith hbg hfirst hbip⟩
    | some x =>
      -- both are equal to the address of the first
      have hfip : first.ip?.isSome := by rw [hfirst]; rfl
      have heq : a.ip? = b.ip? :=
        ((addrsEqualIp_iff haip hfip).mp (hag.2.1 hk)).trans
          ((addrsEqualIp_iff hbip hfip).mp (hbg.2.1 hk)).symm
      refine Or.inl fun y hy z hz => ?_
      rw [heq] at hy
      exact Option.some.inj (hy.symm.trans hz)
  · refine Or.inl fun y hy z hz => absurd ⟨?_, ?_⟩ hip
    · rw [hy]; rfl
    · rw [hz]; rfl

/-- An IPv4 peer of the given host. -/
def hostPeer (host : UInt8) (port : UInt16) : PipeFilterInfo :=
  { peerAddr := .in4 port #v[10, 0, 0, host], peerPid := -1, pipeId := 1, dialer := 0,
    listener := 1 }

/-- Two ports of one host. -/
theorem firstWins_sound_one_host :
    SoundUnlessNoAddress 2 ((firstWins 2).final (firstWins 2).init
      [.offer (hostPeer 1 80), .offer (hostPeer 2 80), .offer (hostPeer 1 81)])
      (hostPeer 1 80) (hostPeer 1 81) :=
  firstWins_sound (reach_run 2 _) (by decide) (by decide)

/-- **Two hosts pass** a filter on IP that an IPC connection anchored. -/
theorem two_hosts_accepted :
    ¬ (∀ keyMask s, (firstWins keyMask).Reach s → ∀ a ∈ s.accepted, ∀ b ∈ s.accepted,
        Sound keyMask a b) := by
  intro hclaim
  have hsound := hclaim 2 ((firstWins 2).final (firstWins 2).init
    [.offer (ipcPeer 42), .offer (hostPeer 1 80), .offer (hostPeer 2 80)])
    (reach_run 2 _)
    (hostPeer 1 80) (by decide) (hostPeer 2 80) (by decide)
  have hip := hsound.ip (by decide)
  revert hip
  decide

/-! ## A missing dimension -/

/-- The connection agrees with the first one in every selected dimension it has. -/
def AgreesWhereExposed (keyMask : UInt32) (first info : PipeFilterInfo) : Prop :=
  (FilterKey.pid.selectedBy keyMask → info.pid?.isSome → info.peerPid = first.peerPid) ∧
    (FilterKey.ip.selectedBy keyMask → info.ip?.isSome →
      addrsEqualIp info.peerAddr first.peerAddr = true) ∧
    (FilterKey.port.selectedBy keyMask → info.port?.isSome →
      sockaddrPort info.peerAddr = sockaddrPort first.peerAddr)

/-- A selected PID or PORT that the connection lacks is lacking in the first one too. -/
def LacksAlike (keyMask : UInt32) (first info : PipeFilterInfo) : Prop :=
  (FilterKey.pid.selectedBy keyMask → info.pid? = none → first.pid? = none) ∧
    (FilterKey.port.selectedBy keyMask → info.port? = none → sockaddrPort first.peerAddr = 0)

theorem pid?_eq_none_iff {info : PipeFilterInfo} : info.pid? = none ↔ info.peerPid = -1 := by
  unfold PipeFilterInfo.pid?
  split <;> simp_all

theorem sockaddrPort_of_none {info : PipeFilterInfo} (h : info.port? = none) :
    sockaddrPort info.peerAddr = 0 := by
  unfold PipeFilterInfo.port? at h
  unfold sockaddrPort
  split at h <;> simp_all

/-- Agreement in every selected dimension is agreement in those the
connection has, and lacking alike in the others. -/
theorem agreesWith_iff {first info : PipeFilterInfo} :
    AgreesWith keyMask first info ↔
      AgreesWhereExposed keyMask first info ∧ LacksAlike keyMask first info := by
  unfold AgreesWith AgreesWhereExposed LacksAlike
  constructor
  · rintro ⟨hpid, hip, hport⟩
    refine ⟨⟨fun hk _ => hpid hk, fun hk _ => hip hk, fun hk _ => hport hk⟩, fun hk hnone => ?_,
      fun hk hnone => ?_⟩
    · rw [pid?_eq_none_iff] at hnone ⊢
      rw [← hpid hk, hnone]
    · rw [← hport hk, sockaddrPort_of_none hnone]
  · rintro ⟨⟨hpid, hip, hport⟩, hlackPid, hlackPort⟩
    refine ⟨fun hk => ?_, fun hk => ?_, fun hk => ?_⟩
    · cases hsome : info.pid? with
      | none =>
        have hfirst := hlackPid hk hsome
        rw [pid?_eq_none_iff] at hsome hfirst
        rw [hsome, hfirst]
      | some x => exact hpid hk (by rw [hsome]; rfl)
    · cases hsome : info.ip? with
      | none => exact addrsEqualIp_of_none hsome _
      | some x => exact hip hk (by rw [hsome]; rfl)
    · cases hsome : info.port? with
      | none => rw [sockaddrPort_of_none hsome, hlackPort hk hsome]
      | some x => exact hport hk (by rw [hsome]; rfl)

/-- **When a missing dimension does not reject.** The verdict on a later
connection is agreement in the selected dimensions it has exactly when these
already refuse it, or a selected PID or PORT it lacks is lacking in the
first connection too. -/
theorem missing_dimension_iff (h : (firstWins keyMask).Reach s) {first : PipeFilterInfo}
    (hfirst : s.accepted.head? = some first) (info : PipeFilterInfo) :
    ((s.filter.allow info).1 = true ↔ AgreesWhereExposed keyMask first info) ↔
      (¬ AgreesWhereExposed keyMask first info ∨ LacksAlike keyMask first info) := by
  rw [verdict_iff h hfirst, agreesWith_iff]
  by_cases hexposed : AgreesWhereExposed keyMask first info
  · simp [hexposed]
  · simp [hexposed]

/-- A TCP peer after another. -/
theorem missing_dimension_iff_tcp :
    ((((firstWins 7).final (firstWins 7).init [.offer (hostPeer 1 80)]).filter.allow
        (hostPeer 1 80)).1 = true ↔ AgreesWhereExposed 7 (hostPeer 1 80) (hostPeer 1 80)) :=
  (missing_dimension_iff (reach_run 7 _) rfl (hostPeer 1 80)).mpr
    (Or.inr ⟨fun _ _ => rfl, fun _ hnone => nomatch hnone⟩)

/-- **A TCP peer is refused for its PID** by a filter an IPC connection
anchored, and an IPC peer for its port by one a TCP connection did. -/
theorem tcp_refused_on_pid :
    ¬ (∀ keyMask s, (firstWins keyMask).Reach s → ∀ first, s.accepted.head? = some first →
        ∀ info, (s.filter.allow info).1 = true ↔ AgreesWhereExposed keyMask first info) := by
  intro hclaim
  have hverdict := hclaim 1 ((firstWins 1).final (firstWins 1).init [.offer (ipcPeer 42)])
    (reach_run 1 _) (ipcPeer 42) rfl (hostPeer 1 80)
  have hallow := hverdict.mpr ⟨fun _ hsome => by simp [PipeFilterInfo.pid?, hostPeer] at hsome,
    fun hk => absurd hk (by decide), fun hk => absurd hk (by decide)⟩
  revert hallow
  decide

end PyNng
