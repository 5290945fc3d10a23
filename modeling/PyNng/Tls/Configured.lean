import PyNng.Tls.Factory
/-!
# Tls — what a factory returns is what was asked for

Of nng it is assumed that a call that succeeds sets what it is for and
nothing else. Then a factory that returns has set what its arguments ask
for and nothing besides, whatever the order of its calls; and a client and
a server made from one dict of keys agree on them.
-/

namespace PyNng

namespace TlsFactory

variable {σ : Type} {nng : Nng σ} {value : σ → Slot → Option Setting} {cfg cfg' : σ}
variable {steps : List Step} {c : Setting} {k : Slot}

/-- **What nng does.** `value` reads off a configuration the call that set a part
of it. -/
structure Nng.Keeps (nng : Nng σ) (value : σ → Slot → Option Setting) : Prop where
  alloc : ∀ mode cfg, nng.alloc mode = .ok cfg → ∀ k, value cfg k = none
  set : ∀ c cfg cfg', nng.set c cfg = (0, cfg') → value cfg' c.slot = some c
  others : ∀ c cfg cfg', nng.set c cfg = (0, cfg') → ∀ k, k ≠ c.slot → value cfg' k = value cfg k

/-! ## The steps of a factory that returns -/

/-- A step that sets what another does is that other. -/
def Distinct (steps : List Step) : Prop :=
  ∀ c d, .ok c ∈ steps → .ok d ∈ steps → c.slot = d.slot → c = d

/-- **The call of a run that succeeds**, and what comes after it. -/
theorem run_cons {step : Step} {rest : List Step} (h : nng.run (step :: rest) cfg = .ok cfg') :
    ∃ c mid, step = .ok c ∧ nng.set c cfg = (0, mid) ∧ nng.run rest mid = .ok cfg' := by
  cases step with
  | error e => cases h
  | ok c =>
    rw [Nng.run] at h
    split at h
    · rename_i mid hset
      exact ⟨c, mid, rfl, hset, h⟩
    · cases h

/-- A run that succeeds has no exception among its steps. -/
theorem error_not_mem (h : nng.run steps cfg = .ok cfg') (e : PyError) : .error e ∉ steps := by
  induction steps generalizing cfg with
  | nil => exact List.not_mem_nil
  | cons step rest ih =>
    obtain ⟨c, mid, rfl, -, hrest⟩ := run_cons h
    intro hmem
    rcases List.mem_cons.mp hmem with he | hmem
    · cases he
    · exact ih hrest hmem

/-- **What is set afterwards**: what the steps set, and elsewhere what was set before. -/
theorem value_run (hn : nng.Keeps value) (hd : Distinct steps)
    (h : nng.run steps cfg = .ok cfg') :
    value cfg' k = some c ↔ .ok c ∈ steps ∧ c.slot = k ∨
      value cfg k = some c ∧ ∀ d, .ok d ∈ steps → d.slot ≠ k := by
  induction steps generalizing cfg with
  | nil =>
    obtain rfl := Except.ok.inj h
    simp
  | cons step rest ih =>
    obtain ⟨d, mid, rfl, hset, hrest⟩ := run_cons h
    have hd' : Distinct rest := fun c d hc hd' =>
      hd c d (List.mem_cons_of_mem _ hc) (List.mem_cons_of_mem _ hd')
    rw [ih hd' hrest]
    constructor
    · rintro (⟨hc, hk⟩ | ⟨hmid, hno⟩)
      · exact .inl ⟨List.mem_cons_of_mem _ hc, hk⟩
      · by_cases hk : k = d.slot
        · subst hk
          rw [hn.set d cfg mid hset] at hmid
          obtain rfl := Option.some.inj hmid
          exact .inl ⟨List.mem_cons_self, rfl⟩
        · rw [hn.others d cfg mid hset k hk] at hmid
          refine .inr ⟨hmid, fun e he => ?_⟩
          rcases List.mem_cons.mp he with he | he
          · obtain rfl := Except.ok.inj he
            exact Ne.symm hk
          · exact hno e he
    · rintro (⟨hc, hk⟩ | ⟨hcfg, hno⟩)
      · rcases List.mem_cons.mp hc with hc' | hc'
        · obtain rfl := Except.ok.inj hc'
          by_cases hlater : ∃ e, .ok e ∈ rest ∧ e.slot = k
          · obtain ⟨e, he, hek⟩ := hlater
            obtain rfl := hd c e hc (List.mem_cons_of_mem _ he) (hk.trans hek.symm)
            exact .inl ⟨he, hk⟩
          · refine .inr ⟨?_, fun e he hek => hlater ⟨e, he, hek⟩⟩
            rw [← hk]
            exact hn.set c cfg mid hset
        · exact .inl ⟨hc', hk⟩
      · have hk : k ≠ d.slot := Ne.symm (hno d List.mem_cons_self)
        refine .inr ⟨?_, fun e he => hno e (List.mem_cons_of_mem _ he)⟩
        rw [hn.others d cfg mid hset k hk]
        exact hcfg

/-- What steps ask for, by what they set. -/
structure Asks (steps : List Step) (wanted : Slot → Option Setting) : Prop where
  mem_iff : ∀ c, .ok c ∈ steps ↔ wanted c.slot = some c
  slot : ∀ k c, wanted k = some c → c.slot = k

/-- **A factory that returns** has set what its steps ask for, and nothing besides. -/
theorem value_make (hn : nng.Keeps value) {mode : TlsMode} {wanted : Slot → Option Setting}
    (h : nng.make mode steps = .ok cfg)
    (hasks : (∀ e, .error e ∉ steps) → Asks steps wanted) (k : Slot) :
    value cfg k = wanted k := by
  unfold Nng.make at h
  split at h
  · cases h
  · rename_i fresh halloc
    obtain ⟨hmem, hslot⟩ := hasks (error_not_mem h)
    have hdistinct : Distinct steps := fun c d hc hd hcd => by
      have hc' := (hmem c).mp hc
      rw [hcd, (hmem d).mp hd] at hc'
      exact (Option.some.inj hc').symm
    refine Option.ext fun c => ?_
    rw [value_run hn hdistinct h, hn.alloc mode fresh halloc k, hmem]
    constructor
    · rintro (⟨hc, rfl⟩ | ⟨hc, -⟩)
      · exact hc
      · cases hc
    · intro hc
      obtain rfl := hslot k c hc
      exact .inl ⟨hc, rfl⟩

/-! ## What the arguments ask for -/

/-- A call of one of the factories. -/
inductive Request
  | client (serverName : Option String) (a : CertArgs)
  | server (a : CertArgs)
  | pskClient (identity : String) (key : List UInt8) (minVersion maxVersion : Option ℤ)
  | pskServer (psks : List (String × List UInt8)) (minVersion maxVersion : Option ℤ)

def Nng.create (nng : Nng σ) : Request → Except PyError σ
  | .client serverName a => nng.forClient serverName a
  | .server a => nng.forServer a
  | .pskClient identity key lo hi => nng.forPskClient identity key lo hi
  | .pskServer psks lo hi => nng.forPskServer psks lo hi

/-- The identity has no NUL. -/
def NoNul (s : String) : Prop := 0 ∉ utf8 s

instance (s : String) : Decidable (NoNul s) := inferInstanceAs (Decidable (_ ∉ _))

/-- The items of a dict, whose keys differ, and no identity with a NUL. -/
def IsDict (psks : List (String × List UInt8)) : Prop :=
  (psks.map Prod.fst).Nodup ∧ ∀ p ∈ psks, NoNul p.1

instance (psks : List (String × List UInt8)) : Decidable (IsDict psks) :=
  inferInstanceAs (Decidable (_ ∧ _))

/-- The version range asked for, if one is. -/
def Nng.wantedVersion (nng : Nng σ) (lo hi : Option ℤ) : Option Setting :=
  if lo = none ∧ hi = none then none
  else some (.version (lo.getD nng.tls12) (hi.getD nng.tls13))

def Nng.wantedCert (nng : Nng σ) (serverName : Option String) (a : CertArgs) :
    Slot → Option Setting
  | .serverName => serverName.map fun name => .serverName (cstr name)
  | .caChain => a.caPem.map fun ca => .caChain (cstr ca) (a.crlPem.map cstr)
  | .caFile => a.caFile.map fun path => .caFile (cstr path)
  | .ownCert => a.certPem.bind fun cert => a.keyPem.map fun key =>
      .ownCert (cstr cert) (cstr key) (a.password.map cstr)
  | .certKeyFile =>
    if a.certPem.isSome ∧ a.keyPem.isSome then none
    else a.certFile.map fun path => .certKeyFile (cstr path) (a.password.map cstr)
  | .authMode => a.authMode.map .authMode
  | .version => nng.wantedVersion a.minVersion a.maxVersion
  | .psk _ => none

def Nng.wantedPsk (nng : Nng σ) (authMode : Option ℤ) (psks : List (String × List UInt8))
    (lo hi : Option ℤ) : Slot → Option Setting
  | .authMode => authMode.map .authMode
  | .version => nng.wantedVersion lo hi
  | .psk identity => (psks.find? fun p => cstr p.1 = identity).map fun p => .psk identity p.2
  | _ => none

/-- **What a call asks for.** -/
def Request.wanted (nng : Nng σ) : Request → Slot → Option Setting
  | .client serverName a => nng.wantedCert serverName a
  | .server a => nng.wantedCert none a
  | .pskClient identity key lo hi => nng.wantedPsk (some nng.authModeNone) [(identity, key)] lo hi
  | .pskServer psks lo hi => nng.wantedPsk none psks lo hi

/-- The identities are supported ones. -/
def Request.Supported : Request → Prop
  | .pskClient identity _ _ _ => NoNul identity
  | .pskServer psks _ _ => IsDict psks
  | _ => True

/-- What no factory lets through: a CRL without its CA, or no key at all. -/
def Request.Complete : Request → Prop
  | .client _ a | .server a => a.crlPem.isSome → a.caPem.isSome
  | .pskClient .. => True
  | .pskServer psks _ _ => psks ≠ []

/-! ## The steps ask for that -/

theorem utf8_inj {s t : String} (h : utf8 s = utf8 t) : s = t :=
  String.toByteArray_inj.mp (ByteArray.ext (Array.toList_inj.mp h))

/-- **Without a NUL an identity reaches nng whole.** -/
theorem cstr_inj {s t : String} (hs : NoNul s) (ht : NoNul t) (h : cstr s = cstr t) : s = t := by
  have hwhole : ∀ u, NoNul u → (cstr u).bytes = utf8 u := fun u hu =>
    List.takeWhile_eq_self_iff.mpr fun b hb => decide_eq_true fun hz => hu (hz ▸ hb)
  refine utf8_inj ?_
  rw [← hwhole s hs, ← hwhole t ht, h]

theorem ok_mem_map {α : Type} {o : Option α} {f : α → Setting} :
    (.ok c : Step) ∈ (o.map fun x => (.ok (f x) : Step)).toList ↔ o.map f = some c := by
  cases o <;> simp [eq_comm]

theorem ok_mem_caSteps {a : CertArgs} :
    .ok c ∈ a.caSteps ↔
      (a.caPem.map fun ca => .caChain (cstr ca) (a.crlPem.map cstr)) = some c := by
  unfold CertArgs.caSteps
  cases a.caPem <;> cases a.crlPem <;> simp [eq_comm]

theorem ok_mem_ownCertSteps (nng : Nng σ) {a : CertArgs} :
    .ok c ∈ a.ownCertSteps ↔
      nng.wantedCert none a .ownCert = some c ∨ nng.wantedCert none a .certKeyFile = some c := by
  unfold CertArgs.ownCertSteps Nng.wantedCert
  cases a.certPem <;> cases a.keyPem <;> cases a.certFile <;> simp [eq_comm]

theorem ok_mem_authModeSteps {authMode : Option ℤ}
    (hno : ∀ e, .error e ∉ nng.authModeSteps authMode) :
    .ok c ∈ nng.authModeSteps authMode ↔ authMode.map .authMode = some c := by
  unfold Nng.authModeSteps at hno ⊢
  cases authMode with
  | none => simp
  | some mode =>
    rw [Option.map_some, Option.toList_some] at hno ⊢
    by_cases hfits : nng.fits mode = true
    · rw [if_pos hfits, List.mem_singleton, Except.ok.injEq, Option.map_some, Option.some.injEq]
      exact eq_comm
    · rw [if_neg hfits] at hno
      exact absurd (List.mem_singleton_self _) (hno .overflowError)

theorem ok_mem_versionSteps {lo hi : Option ℤ} (hno : ∀ e, .error e ∉ nng.versionSteps lo hi) :
    .ok c ∈ nng.versionSteps lo hi ↔ nng.wantedVersion lo hi = some c := by
  have hone : ¬ (lo = none ∧ hi = none) → nng.versionSteps lo hi =
      [if nng.fits (lo.getD nng.tls12) ∧ nng.fits (hi.getD nng.tls13)
        then .ok (.version (lo.getD nng.tls12) (hi.getD nng.tls13))
        else .error .overflowError] := by
    cases lo <;> cases hi <;> simp [Nng.versionSteps]
  unfold Nng.wantedVersion
  by_cases hnone : lo = none ∧ hi = none
  · obtain ⟨rfl, rfl⟩ := hnone
    simp [Nng.versionSteps]
  · rw [hone hnone] at hno ⊢
    rw [if_neg hnone]
    by_cases hfits : nng.fits (lo.getD nng.tls12) ∧ nng.fits (hi.getD nng.tls13)
    · rw [if_pos hfits, List.mem_singleton, Except.ok.injEq, Option.some.injEq]
      exact eq_comm
    · rw [if_neg hfits] at hno
      exact absurd (List.mem_singleton_self _) (hno .overflowError)

theorem wantedVersion_slot {lo hi : Option ℤ} (h : nng.wantedVersion lo hi = some c) :
    ∃ lo hi, c = .version lo hi := by
  unfold Nng.wantedVersion at h
  split at h
  · cases h
  · exact ⟨_, _, (Option.some.inj h).symm⟩

/-- **The steps of a certificate factory**, in whichever order it takes them. -/
theorem asks_cert {serverName : Option String} {a : CertArgs}
    (hsteps : ∀ x, x ∈ steps ↔ x ∈ serverNameSteps serverName ∨ x ∈ a.caSteps ∨
      x ∈ a.caFileSteps ∨ x ∈ a.ownCertSteps ∨ x ∈ nng.authModeSteps a.authMode ∨
      x ∈ nng.versionSteps a.minVersion a.maxVersion)
    (hno : ∀ e, .error e ∉ steps) : Asks steps (nng.wantedCert serverName a) := by
  have hauth : ∀ e, .error e ∉ nng.authModeSteps a.authMode := fun e he =>
    hno e ((hsteps _).mpr (.inr (.inr (.inr (.inr (.inl he))))))
  have hversion : ∀ e, .error e ∉ nng.versionSteps a.minVersion a.maxVersion := fun e he =>
    hno e ((hsteps _).mpr (.inr (.inr (.inr (.inr (.inr he))))))
  have hslot : ∀ k c, nng.wantedCert serverName a k = some c → c.slot = k := by
    intro k c h
    cases k with
    | version =>
      obtain ⟨lo, hi, rfl⟩ := wantedVersion_slot h
      rfl
    | ownCert =>
      obtain ⟨cert, -, h⟩ := Option.bind_eq_some_iff.mp h
      obtain ⟨key, -, rfl⟩ := Option.map_eq_some_iff.mp h
      rfl
    | certKeyFile =>
      simp only [Nng.wantedCert, Option.ite_none_left_eq_some, Option.map_eq_some_iff] at h
      obtain ⟨-, path, -, rfl⟩ := h
      rfl
    | psk identity => cases h
    | serverName | caChain | caFile | authMode =>
      obtain ⟨x, -, rfl⟩ := Option.map_eq_some_iff.mp h
      rfl
  refine ⟨fun c => ?_, hslot⟩
  have hmem : .ok c ∈ steps ↔ ∃ k, nng.wantedCert serverName a k = some c := by
    rw [hsteps, serverNameSteps, ok_mem_map, ok_mem_caSteps, CertArgs.caFileSteps, ok_mem_map,
      ok_mem_ownCertSteps nng, ok_mem_authModeSteps hauth, ok_mem_versionSteps hversion]
    constructor
    · rintro (h | h | h | (h | h) | h | h)
      exacts [⟨.serverName, h⟩, ⟨.caChain, h⟩, ⟨.caFile, h⟩, ⟨.ownCert, h⟩, ⟨.certKeyFile, h⟩,
        ⟨.authMode, h⟩, ⟨.version, h⟩]
    · rintro ⟨k, h⟩
      cases k with
      | serverName => exact .inl h
      | caChain => exact .inr (.inl h)
      | caFile => exact .inr (.inr (.inl h))
      | ownCert => exact .inr (.inr (.inr (.inl (.inl h))))
      | certKeyFile => exact .inr (.inr (.inr (.inl (.inr h))))
      | authMode => exact .inr (.inr (.inr (.inr (.inl h))))
      | version => exact .inr (.inr (.inr (.inr (.inr h))))
      | psk identity => cases h
  rw [hmem]
  constructor
  · rintro ⟨k, h⟩
    rwa [hslot k c h]
  · intro h
    exact ⟨_, h⟩

/-- An identity of a dict has one key. -/
theorem find?_of_isDict {psks : List (String × List UInt8)} (h : IsDict psks)
    {p : String × List UInt8} (hp : p ∈ psks) :
    psks.find? (fun q => cstr q.1 = cstr p.1) = some p := by
  induction psks with
  | nil => exact absurd hp List.not_mem_nil
  | cons q rest ih =>
    obtain ⟨hnodup, hnul⟩ := h
    rw [List.map_cons, List.nodup_cons] at hnodup
    rw [List.find?_cons]
    rcases List.mem_cons.mp hp with rfl | hrest
    · simp
    · have hne : cstr q.1 ≠ cstr p.1 := fun heq => by
        have hqp := cstr_inj (hnul q List.mem_cons_self) (hnul p hp) heq
        exact hnodup.1 (hqp ▸ List.mem_map_of_mem hrest)
      rw [decide_eq_false hne]
      exact ih ⟨hnodup.2, fun r hr => hnul r (List.mem_cons_of_mem _ hr)⟩ hrest

/-- **The steps of a PSK factory.** -/
theorem asks_psk {authMode : Option ℤ} {psks : List (String × List UInt8)} (hdict : IsDict psks)
    {lo hi : Option ℤ}
    (hsteps : steps = (authMode.map fun mode => (.ok (.authMode mode) : Step)).toList ++
      pskSteps psks ++ nng.versionSteps lo hi)
    (hno : ∀ e, .error e ∉ steps) : Asks steps (nng.wantedPsk authMode psks lo hi) := by
  have hversion : ∀ e, .error e ∉ nng.versionSteps lo hi := fun e he =>
    hno e (hsteps ▸ List.mem_append_right _ he)
  have hslot : ∀ k c, nng.wantedPsk authMode psks lo hi k = some c → c.slot = k := by
    intro k c h
    cases k with
    | version =>
      obtain ⟨lo, hi, rfl⟩ := wantedVersion_slot h
      rfl
    | authMode | psk =>
      obtain ⟨x, -, rfl⟩ := Option.map_eq_some_iff.mp h
      rfl
    | serverName | caChain | caFile | ownCert | certKeyFile => cases h
  refine ⟨fun c => ?_, hslot⟩
  have hpsk : .ok c ∈ pskSteps psks ↔ ∃ i, nng.wantedPsk authMode psks lo hi (.psk i) = some c := by
    unfold pskSteps
    rw [List.mem_map]
    constructor
    · rintro ⟨p, hp, hc⟩
      refine ⟨cstr p.1, ?_⟩
      show (psks.find? fun q => cstr q.1 = cstr p.1).map _ = some c
      rw [find?_of_isDict hdict hp]
      exact congrArg some (Except.ok.inj hc)
    · rintro ⟨i, hi⟩
      obtain ⟨p, hp, rfl⟩ := Option.map_eq_some_iff.mp hi
      refine ⟨p, List.mem_of_find?_eq_some hp, ?_⟩
      have hi : cstr p.1 = i := by simpa using List.find?_some hp
      rw [hi]
  have hmem : .ok c ∈ steps ↔ ∃ k, nng.wantedPsk authMode psks lo hi k = some c := by
    rw [hsteps, List.mem_append, List.mem_append, ok_mem_map, hpsk, ok_mem_versionSteps hversion]
    constructor
    · rintro ((h | ⟨i, h⟩) | h)
      exacts [⟨.authMode, h⟩, ⟨.psk i, h⟩, ⟨.version, h⟩]
    · rintro ⟨k, h⟩
      cases k with
      | authMode => exact .inl (.inl h)
      | psk i => exact .inl (.inr ⟨i, h⟩)
      | version => exact .inr h
      | serverName | caChain | caFile | ownCert | certKeyFile => cases h
  rw [hmem]
  constructor
  · rintro ⟨k, h⟩
    rwa [hslot k c h]
  · intro h
    exact ⟨_, h⟩

/-! ## The factories -/

/-- A factory that returns has raised nothing on the way. -/
theorem error_not_mem_of_make {mode : TlsMode} (h : nng.make mode steps = .ok cfg) (e : PyError) :
    .error e ∉ steps := by
  unfold Nng.make at h
  split at h
  · cases h
  · exact error_not_mem h e

theorem crl_has_ca {a : CertArgs} (hno : ∀ e, .error e ∉ a.caSteps) :
    a.crlPem.isSome → a.caPem.isSome := by
  intro hcrl
  by_contra hca
  obtain ⟨crl, hcrl⟩ := Option.isSome_iff_exists.mp hcrl
  rw [Bool.not_eq_true, Option.isSome_eq_false_iff, Option.isNone_iff_eq_none] at hca
  refine hno (.valueError "crl_pem requires ca_pem to be set") ?_
  unfold CertArgs.caSteps
  rw [hca, hcrl]
  exact List.mem_singleton_self _

/-- **A factory that returns has done what was asked for**: each part of the
configuration is set as the arguments say, and what they leave out is not set. -/
theorem created_exactly (hn : nng.Keeps value) {r : Request} (hr : r.Supported)
    (h : nng.create r = .ok cfg) : r.Complete ∧ ∀ k, value cfg k = r.wanted nng k := by
  cases r with
  | client serverName a =>
    have hno := error_not_mem_of_make h
    refine ⟨crl_has_ca fun e he => hno e ?_, value_make hn h (asks_cert fun x => ?_)⟩
    · simp only [List.mem_append]
      exact .inl (.inl (.inl (.inl (.inr he))))
    · simp only [List.mem_append, or_assoc]
  | server a =>
    have hno := error_not_mem_of_make h
    refine ⟨crl_has_ca fun e he => hno e ?_, value_make hn h (asks_cert fun x => ?_)⟩
    · simp only [List.mem_append]
      exact .inl (.inl (.inl (.inr he)))
    · have hnone : x ∉ serverNameSteps none := List.not_mem_nil
      simp only [List.mem_append, hnone, false_or]
      grind
  | pskClient identity key lo hi =>
    have hdict : IsDict [(identity, key)] :=
      ⟨List.pairwise_singleton _ _, fun p hp => List.mem_singleton.mp hp ▸ hr⟩
    exact ⟨trivial, value_make hn h (asks_psk hdict rfl)⟩
  | pskServer psks lo hi =>
    have h : nng.forPskServer psks lo hi = .ok cfg := h
    unfold Nng.forPskServer at h
    split at h
    · cases h
    · rename_i hne
      exact ⟨hne, value_make hn h (asks_psk hr rfl)⟩

/-- What a dict has under an identity. -/
theorem find?_identity {psks : List (String × List UInt8)} (hdict : IsDict psks)
    {identity : String} (hid : NoNul identity) {key : List UInt8} :
    ((psks.find? fun p => cstr p.1 = cstr identity).map fun p =>
      Setting.psk (cstr identity) p.2) = some (.psk (cstr identity) key) ↔
        (identity, key) ∈ psks := by
  constructor
  · intro h
    obtain ⟨p, hfind, hp⟩ := Option.map_eq_some_iff.mp h
    have hmem := List.mem_of_find?_eq_some hfind
    have hsame : cstr p.1 = cstr identity := by simpa using List.find?_some hfind
    obtain rfl : p.1 = identity := cstr_inj (hdict.2 p hmem) hid hsame
    obtain rfl : p.2 = key := (Setting.psk.inj hp).2
    exact hmem
  · intro h
    rw [find?_of_isDict hdict h, Option.map_some]

/-- **A client and a server agree on their keys**: with the identity its
configuration has, a client is known to the server, and with its own key, exactly
when the dict pairs them. -/
theorem psk_agree (hn : nng.Keeps value) {psks : List (String × List UInt8)} (hdict : IsDict psks)
    {identity : String} (hid : NoNul identity) {key : List UInt8} {lo hi lo' hi' : Option ℤ}
    {server client : σ} (hs : nng.forPskServer psks lo hi = .ok server)
    (hc : nng.forPskClient identity key lo' hi' = .ok client) :
    ∃ i, (∀ j k, value client (.psk j) = some (.psk j k) ↔ j = i ∧ k = key) ∧
      (value server (.psk i) = some (.psk i key) ↔ (identity, key) ∈ psks) := by
  have hone : IsDict [(identity, key)] :=
    ⟨List.pairwise_singleton _ _, fun p hp => List.mem_singleton.mp hp ▸ hid⟩
  refine ⟨cstr identity, fun j k => ?_, ?_⟩
  · rw [(created_exactly hn (r := .pskClient identity key lo' hi') hid hc).2 (.psk j)]
    show (([(identity, key)].find? fun p => cstr p.1 = j).map fun p => Setting.psk j p.2) =
      some (.psk j k) ↔ _
    by_cases hj : cstr identity = j
    · subst hj
      simp [eq_comm]
    · simp [hj, Ne.symm hj]
  · rw [(created_exactly hn (r := .pskServer psks lo hi) hdict hs).2 (.psk (cstr identity))]
    exact find?_identity hdict hid

/-! ## An nng that accepts every call -/

/-- It keeps the calls, the last of those that set the same first. -/
def accepting : Nng (List Setting) where
  authModeNone := 0
  tls12 := 0x303
  tls13 := 0x304
  fits := fun n => 0 ≤ n ∧ n < 0x100000000
  alloc := fun _ => .ok []
  set := fun c cfg => (0, c :: cfg)

def Setting.find (cfg : List Setting) (k : Slot) : Option Setting := cfg.find? fun c => c.slot = k

theorem accepting_keeps : accepting.Keeps Setting.find where
  alloc _ cfg h k := by
    obtain rfl := Except.ok.inj h
    rfl
  set c cfg cfg' h := by
    obtain rfl := (Prod.mk.inj h).2
    simp [Setting.find]
  others c cfg cfg' h k hk := by
    obtain rfl := (Prod.mk.inj h).2
    simp [Setting.find, Ne.symm hk]

/-- A certificate without its key, which is left out for the file. -/
def halfCert : CertArgs :=
  { caPem := "ca", certPem := "cert", certFile := "file", minVersion := some 0x304 }

theorem created_exactly_halfCert :
    ∃ cfg, accepting.create (.client "host" halfCert) = .ok cfg ∧
      Setting.find cfg .ownCert = none ∧
      Setting.find cfg .version = some (.version 0x304 0x304) :=
  have h := (created_exactly accepting_keeps (r := .client "host" halfCert) trivial rfl).2
  ⟨_, rfl, h .ownCert, h .version⟩

def keys : List (String × List UInt8) := [("ada", [1, 2]), ("bob", [3])]

theorem psk_agree_bob :
    ∃ server client, accepting.forPskServer keys none none = .ok server ∧
      accepting.forPskClient "bob" [3] none none = .ok client ∧
      ∃ i, Setting.find client (.psk i) = some (.psk i [3]) ∧
        Setting.find server (.psk i) = some (.psk i [3]) := by
  have hdict : IsDict keys := by decide
  have hs : accepting.forPskServer keys none none = .ok _ := rfl
  have hc : accepting.forPskClient "bob" [3] none none = .ok _ := rfl
  obtain ⟨i, hclient, hserver⟩ := psk_agree accepting_keeps hdict (by decide) hs hc
  exact ⟨_, _, rfl, rfl, i, (hclient i [3]).mpr ⟨rfl, rfl⟩, hserver.mpr (by decide)⟩

end TlsFactory

end PyNng
