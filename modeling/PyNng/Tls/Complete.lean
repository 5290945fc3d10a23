import PyNng.Tls.AltNames
/-!
# Tls — reads that are not divided

A read that is answered a name or the end only where it has itself been
given all the cursor has passed, and fails only before it was given any,
drains the cursor alone. While every read is so, what is stored and
returned is the full list, and a read that raised has left it to be had.
-/

namespace PyNng

namespace AltNames

variable {Name Str : Type*} {names : List Name} {decode : Name → Str}
variable {s s' : State Str} {r r' : ℕ}

/-- A read that has not begun can still return the full list. -/
def Able (names : List Name) (decode : Name → Str) (s : State Str) : Prop :=
  ∀ r, (s.read r).pc = .idle →
    ∃ s', (reads names decode).Leads s s' ∧ (s'.read r).pc = .returned (names.map decode)

/-- **What is claimed of a state**: every read that has returned gave the full
list, and one that has raised leaves later ones able to. -/
structure Good (names : List Name) (decode : Name → Str) (s : State Str) : Prop where
  complete : ∀ r xs, (s.read r).pc = .returned xs → xs = names.map decode
  able : ∀ r rv, (s.read r).pc = .raised rv → Able names decode s

/-- **The condition on a step.** A call that nng answers comes from a read that
was given every name so far, and one that fails from a read that was given
none. -/
def Undivided (s : State Str) : Act → Prop
  | .next r => (s.read r).result.length = s.cursor
  | .fail r _ => (s.read r).result = []
  | .begin _ | .test _ | .load _ | .store _ | .ret _ => True

instance [DecidableEq Str] (s : State Str) : ∀ a, Decidable (Undivided s a)
  | .next r => inferInstanceAs (Decidable ((s.read r).result.length = s.cursor))
  | .fail r _ => inferInstanceAs (Decidable ((s.read r).result = []))
  | .begin _ | .test _ | .load _ | .store _ | .ret _ => inferInstanceAs (Decidable True)

/-- The names that the cursor has passed. -/
def passed (names : List Name) (decode : Name → Str) (s : State Str) : List Str :=
  (names.take s.cursor).map decode

/-- What a read has to show where it stands. -/
def PcOk (names : List Name) (decode : Name → Str) (s : State Str) (x : Read Str) : Prop :=
  match x.pc with
  | .idle | .testing | .draining | .raised _ => True
  | .loading => s.cache ≠ none
  | .storing | .returning => x.result = names.map decode
  | .returned xs => xs = names.map decode

/-- **The invariant.** All that was given was given to one read, which is under
way unless the full list is cached. -/
structure Inv (names : List Name) (decode : Name → Str) (s : State Str) : Prop where
  cursor_le : s.cursor ≤ names.length
  result : ∀ r, (s.read r).result = [] ∨ (s.read r).result = passed names decode s
  one : ∀ r r', (s.read r).result ≠ [] → (s.read r').result ≠ [] → r = r'
  pc : ∀ r, PcOk names decode s (s.read r)
  cache : ∀ xs, s.cache = some xs → xs = names.map decode
  drainer : s.cursor ≠ 0 → s.cache = none → ∃ r, (s.read r).result = passed names decode s ∧
    ((s.read r).pc = .draining ∨ (s.read r).pc = .storing)

theorem length_passed (h : s.cursor ≤ names.length) :
    (passed names decode s).length = s.cursor := by
  unfold passed
  rw [List.length_map, List.length_take]
  omega

theorem Inv.result_eq (hs : Inv names decode s) (h : (s.read r).result.length = s.cursor) :
    (s.read r).result = passed names decode s := by
  rcases hs.result r with hnil | heq
  · rw [hnil] at h ⊢
    exact (List.eq_nil_of_length_eq_zero ((length_passed hs.cursor_le).trans h.symm)).symm
  · exact heq

/-- At the end of the cursor all names have been given. -/
theorem passed_of_end (h : names[s.cursor]? = none) : passed names decode s = names.map decode := by
  unfold passed
  rw [List.take_of_length_le (List.getElem?_eq_none_iff.mp h)]

theorem passed_succ {name : Name} (h : names[s.cursor]? = some name) :
    passed names decode { s with cursor := s.cursor + 1 } =
      passed names decode s ++ [decode name] := by
  obtain ⟨hlt, rfl⟩ := List.getElem?_eq_some_iff.mp h
  unfold passed
  dsimp only
  rw [List.take_succ_eq_append_getElem hlt, List.map_append]
  rfl

/-! ## Every undivided step keeps it -/

theorem PcOk.congr {x : Read Str} (h : PcOk names decode s x)
    (hcache : s.cache ≠ none → s'.cache ≠ none) : PcOk names decode s' x := by
  unfold PcOk at h ⊢
  cases hp : x.pc with
  | loading =>
    rw [hp] at h
    exact hcache h
  | _ =>
    rw [hp] at h
    exact h

theorem Inv.setPc (hs : Inv names decode s) {p : Pc Str}
    (hp : PcOk names decode s { s.read r with pc := p })
    (hd : s.cursor ≠ 0 → s.cache = none → (s.read r).result = passed names decode s →
      (s.read r).pc = .draining ∨ (s.read r).pc = .storing → p = .draining ∨ p = .storing) :
    Inv names decode (s.setPc r p) where
  cursor_le := hs.cursor_le
  result := by
    intro r'
    rw [setPc_result]
    exact hs.result r'
  one := by
    intro a b
    rw [setPc_result, setPc_result]
    exact hs.one a b
  pc := by
    intro r'
    by_cases h : r' = r
    · subst h
      rw [setPc_read_self]
      exact hp
    · rw [setPc_read_of_ne h]
      exact hs.pc r'
  cache := hs.cache
  drainer := by
    intro hcur hnone
    obtain ⟨d, hres, hpc⟩ := hs.drainer hcur hnone
    refine ⟨d, by rw [setPc_result]; exact hres, ?_⟩
    by_cases h : d = r
    · subst h
      rw [setPc_read_self]
      exact hd hcur hnone hres hpc
    · rw [setPc_read_of_ne h]
      exact hpc

/-- The read whose `result` is stored has the full list. -/
theorem Inv.store (hs : Inv names decode s) (hpc : (s.read r).pc = .storing) :
    Inv names decode
      (({ s with cache := some (s.read r).result } : State Str).setPc r .returning) := by
  have hfull := hs.pc r
  unfold PcOk at hfull
  rw [hpc] at hfull
  have hcached : Inv names decode ({ s with cache := some (s.read r).result } : State Str) := by
    refine ⟨hs.cursor_le, hs.result, hs.one, ?_, ?_, ?_⟩
    · exact fun r' => (hs.pc r').congr fun _ => by simp
    · intro xs hxs
      rw [← Option.some.inj hxs]
      exact hfull
    · intro _ hnone
      simp at hnone
  exact hcached.setPc hfull fun _ hnone => by simp at hnone

/-- A name goes to the read that has all before it. -/
theorem Inv.append (hs : Inv names decode s) (hpc : (s.read r).pc = .draining)
    (hlen : (s.read r).result.length = s.cursor) {name : Name}
    (hname : names[s.cursor]? = some name) :
    Inv names decode (({ s with cursor := s.cursor + 1 } : State Str).setRead r
      { s.read r with result := (s.read r).result ++ [decode name] }) := by
  obtain ⟨hlt, -⟩ := List.getElem?_eq_some_iff.mp hname
  have hres : (s.read r).result ++ [decode name] =
      passed names decode { s with cursor := s.cursor + 1 } := by
    rw [passed_succ hname, hs.result_eq hlen]
  -- a read that was given a name would have been given those of this one
  have hothers : ∀ r', r' ≠ r → (s.read r').result = [] := by
    intro r' hne
    by_contra hgiven
    have hlen' : (s.read r').result.length = s.cursor := by
      rw [(hs.result r').resolve_left hgiven]
      exact length_passed hs.cursor_le
    refine hne (hs.one r' r hgiven fun hnil => hgiven ?_)
    rw [hnil] at hlen
    exact List.eq_nil_of_length_eq_zero (hlen'.trans hlen.symm)
  refine ⟨hlt, ?_, ?_, ?_, hs.cache, ?_⟩
  · intro r'
    by_cases h : r' = r
    · subst h
      rw [setRead_read_self]
      exact .inr hres
    · rw [setRead_read_of_ne h]
      exact .inl (hothers r' h)
  · intro a b ha hb
    by_cases h : a = r
    · by_cases h' : b = r
      · rw [h, h']
      · rw [setRead_read_of_ne h'] at hb
        exact absurd (hothers b h') hb
    · rw [setRead_read_of_ne h] at ha
      exact absurd (hothers a h) ha
  · intro r'
    by_cases h : r' = r
    · subst h
      rw [setRead_read_self]
      unfold PcOk
      rw [hpc]
      trivial
    · rw [setRead_read_of_ne h]
      exact (hs.pc r').congr fun hc => hc
  · intro _ _
    refine ⟨r, ?_, .inl ?_⟩
    · rw [setRead_read_self]
      exact hres
    · rw [setRead_read_self]
      exact hpc

/-- **The step lemma.** -/
theorem Inv.next (hs : Inv names decode s) {a : Act} (hen : Enabled s a) (hok : Undivided s a) :
    Inv names decode (AltNames.next names decode s a) := by
  have hpc := hs.pc
  cases a with
  | begin r =>
    have hp : (s.read r).pc = .idle := hen
    exact hs.setPc trivial fun _ _ _ h => by rw [hp] at h; simp at h
  | test r =>
    have hp : (s.read r).pc = .testing := hen
    dsimp only [AltNames.next, State.test]
    split
    · exact hs.setPc trivial fun _ _ _ h => by rw [hp] at h; simp at h
    · rename_i hcache
      exact hs.setPc hcache fun _ _ _ h => by rw [hp] at h; simp at h
  | load r =>
    have hp : (s.read r).pc = .loading := hen
    dsimp only [AltNames.next, State.load]
    cases hc : s.cache with
    | none => exact hs
    | some xs => exact hs.setPc (hs.cache xs hc) fun _ _ _ h => by rw [hp] at h; simp at h
  | next r =>
    dsimp only [AltNames.next, State.nextAlt]
    cases hname : names[s.cursor]? with
    | none =>
      refine hs.setPc ?_ fun _ _ _ _ => .inr rfl
      exact (hs.result_eq hok).trans (passed_of_end hname)
    | some name => exact hs.append hen hok hname
  | fail r rv =>
    refine hs.setPc trivial fun hcur _ hres _ => ?_
    have hlen : (passed names decode s).length = s.cursor := length_passed hs.cursor_le
    rw [← hres, show (s.read r).result = [] from hok] at hlen
    exact absurd hlen.symm hcur
  | store r => exact hs.store hen
  | ret r =>
    have hp : (s.read r).pc = .returning := hen
    have hfull := hs.pc r
    unfold PcOk at hfull
    rw [hp] at hfull
    exact hs.setPc hfull fun _ _ _ h => by rw [hp] at h; simp at h

theorem inv_init : Inv names decode (reads names decode).init where
  cursor_le := Nat.zero_le _
  result := fun _ => .inl rfl
  one := fun _ _ h => absurd rfl h
  pc := fun _ => trivial
  cache := fun _ h => by simp [reads] at h
  drainer := fun h => absurd rfl h

/-! ## The full list can be had -/

theorem test_of_uncached (h : s.cache = none) : s.test r = s.setPc r .draining := if_pos h

theorem test_of_cached (h : s.cache ≠ none) : s.test r = s.setPc r .loading := if_neg h

theorem load_of_cached {xs : List Str} (h : s.cache = some xs) :
    s.load r = s.setPc r (.returned xs) := by
  unfold State.load
  rw [h]

theorem able_of_cached (hcache : s.cache = some (names.map decode)) : Able names decode s := by
  intro r hr
  have htest : (s.setPc r .testing).test r = (s.setPc r .testing).setPc r .loading := by
    refine test_of_cached ?_
    rw [setPc_cache, hcache]
    simp
  refine ⟨((s.setPc r .testing).test r).load r,
    ⟨[.begin r, .test r, .load r], ⟨hr, ?_, ?_, trivial⟩, rfl⟩, ?_⟩
  · exact congrArg Read.pc (setPc_read_self s)
  · show (((s.setPc r .testing).test r).read r).pc = .loading
    rw [htest, setPc_read_self]
  · rw [htest, load_of_cached (by exact hcache), setPc_read_self]

/-- A run in which only the read moves, to the state after its loop. -/
structure Drains (names : List Name) (decode : Name → Str) (r : ℕ) (s s' : State Str) : Prop where
  leads : (reads names decode).Leads s s'
  pc : (s'.read r).pc = .storing
  result : (s'.read r).result = names.map decode
  others : ∀ r', r' ≠ r → s'.read r' = s.read r'

/-- **A read that has all that was given can drain the rest.** -/
theorem drains_of_draining (hle : s.cursor ≤ names.length) (hpc : (s.read r).pc = .draining)
    (hres : (s.read r).result = passed names decode s) : ∃ s', Drains names decode r s s' := by
  -- on how many names are left
  generalize hk : names.length - s.cursor = k
  induction k generalizing s with
  | zero =>
    have hend : names[s.cursor]? = none := List.getElem?_eq_none_iff.mpr (by omega)
    refine ⟨(reads names decode).next s (.next r), .step hpc, ?_, ?_, ?_⟩ <;>
      dsimp only [reads, AltNames.next, State.nextAlt] <;> rw [hend]
    · rw [setPc_read_self]
    · rw [setPc_result, hres, passed_of_end hend]
    · exact fun r' h => setPc_read_of_ne h s
  | succ k ih =>
    have hlt : s.cursor < names.length := by omega
    have hname : names[s.cursor]? = some names[s.cursor] := List.getElem?_eq_getElem hlt
    have hstep : (reads names decode).next s (.next r) =
        ({ s with cursor := s.cursor + 1 } : State Str).setRead r
          { s.read r with result := (s.read r).result ++ [decode names[s.cursor]] } := by
      dsimp only [reads, AltNames.next, State.nextAlt]
      rw [hname]
    have hto := Machine.Leads.step (M := reads names decode) (s := s) (a := .next r) hpc
    rw [hstep] at hto
    obtain ⟨s', hs'⟩ := ih (s := ({ s with cursor := s.cursor + 1 } : State Str).setRead r
        { s.read r with result := (s.read r).result ++ [decode names[s.cursor]] }) hlt
      (by rw [setRead_read_self]; exact hpc)
      (by rw [setRead_read_self, hres]; exact (passed_succ hname).symm)
      (by show names.length - (s.cursor + 1) = k; omega)
    refine ⟨s', hto.trans hs'.leads, hs'.pc, hs'.result, fun r' h => ?_⟩
    rw [hs'.others r' h, setRead_read_of_ne h]

/-- It can store the list then. -/
theorem Drains.store (h : Drains names decode r s s') :
    ∃ s'', (reads names decode).Leads s s'' ∧ s''.cache = some (names.map decode) ∧
      (s''.read r).pc = .returning ∧ (s''.read r).result = names.map decode ∧
      ∀ r', r' ≠ r → s''.read r' = s.read r' := by
  refine ⟨(reads names decode).next s' (.store r), h.leads.trans (.step h.pc), ?_, ?_, ?_, ?_⟩
  · exact congrArg some h.result
  · exact congrArg Read.pc (setPc_read_self _)
  · exact (setPc_result _).trans h.result
  · exact fun r' hne => (setPc_read_of_ne hne _).trans (h.others r' hne)

/-- **Where the invariant holds the full list can be had.** -/
theorem Inv.able (hs : Inv names decode s) : Able names decode s := by
  cases hcache : s.cache with
  | some xs =>
    refine able_of_cached ?_
    rw [hcache, hs.cache xs hcache]
  | none =>
    intro r hr
    by_cases hcur : s.cursor = 0
    · -- nothing was given yet: the read drains all by itself
      have hnil : (s.read r).result = passed names decode s := by
        rcases hs.result r with h | h
        · rw [h]
          unfold passed
          rw [hcur]
          rfl
        · exact h
      have hto : (reads names decode).Leads s ((s.setPc r .testing).setPc r .draining) := by
        have hbegin := Machine.Leads.step (M := reads names decode) (s := s) (a := .begin r) hr
        have htest := Machine.Leads.step (M := reads names decode) (s := s.setPc r .testing)
          (a := .test r) (congrArg Read.pc (setPc_read_self s))
        rw [show (reads names decode).next (s.setPc r .testing) (.test r) =
          (s.setPc r .testing).setPc r .draining from test_of_uncached hcache] at htest
        exact hbegin.trans htest
      obtain ⟨s₁, h₁⟩ : ∃ s₁, Drains names decode r ((s.setPc r .testing).setPc r .draining) s₁ :=
        drains_of_draining hs.cursor_le (congrArg Read.pc (setPc_read_self _))
          (by rw [setPc_result, setPc_result]; exact hnil)
      obtain ⟨s₂, hto₂, -, hpc, hres, -⟩ := h₁.store
      refine ⟨(reads names decode).next s₂ (.ret r), (hto.trans hto₂).trans (.step hpc), ?_⟩
      refine (congrArg Read.pc (setPc_read_self s₂)).trans ?_
      rw [hres]
    · -- the read under way goes first
      obtain ⟨d, hres, hd⟩ := hs.drainer hcur hcache
      have hne : r ≠ d := by
        rintro rfl
        rw [hr] at hd
        simp at hd
      obtain ⟨s₁, h₁⟩ : ∃ s₁, Drains names decode d s s₁ := by
        rcases hd with hd | hd
        · exact drains_of_draining hs.cursor_le hd hres
        · have hfull := hs.pc d
          unfold PcOk at hfull
          rw [hd] at hfull
          exact ⟨s, .refl _ s, hd, hfull, fun _ _ => rfl⟩
      obtain ⟨s₂, hto, hcached, -, -, hothers⟩ := h₁.store
      obtain ⟨s₃, hto', hret⟩ := able_of_cached hcached r (by rw [hothers r hne]; exact hr)
      exact ⟨s₃, hto.trans hto', hret⟩

theorem Inv.good (hs : Inv names decode s) : Good names decode s where
  complete := by
    intro r xs hr
    have h := hs.pc r
    unfold PcOk at h
    rw [hr] at h
    exact h
  able := fun _ _ _ => hs.able

end AltNames

end PyNng
