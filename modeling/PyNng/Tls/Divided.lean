import PyNng.Tls.Complete
/-!
# Tls — reads that are divided

Whatever the reads do, nng gives each name to one of them. A read that
missed a name, or that raised with one in hand, makes the list
unobtainable: another read lacks what this one was given. So every run in
which a read is divided, and every read that began has ended, breaks the
promise of `alt_names`.
-/

namespace PyNng

namespace AltNames

variable {Name Str : Type*} {names : List Name} {decode : Name → Str}
variable {s s' : State Str} {r r' w : ℕ}

/-- How many names a read was given. -/
def State.given (s : State Str) (r : ℕ) : ℕ := (s.read r).result.length

/-- Nothing was given to a read that is there. -/
def Pc.before : Pc Str → Bool
  | .idle | .testing | .loading => true
  | .draining | .storing | .returning | .returned _ | .raised _ => false

/-- The read's `result` is stored or returned. -/
def Pc.stored : Pc Str → Bool
  | .returning | .returned _ => true
  | .idle | .testing | .loading | .draining | .storing | .raised _ => false

/-- **What holds in every state.** -/
structure Base (names : List Name) (s : State Str) : Prop where
  cursor_le : s.cursor ≤ names.length
  given_add : ∀ r r', r ≠ r' → s.given r + s.given r' ≤ s.cursor
  cached : ∀ xs, s.cache = some xs → ∃ r, (s.read r).pc.stored = true ∧ (s.read r).result = xs
  before : ∀ r, (s.read r).pc.before = true → s.given r = 0
  fresh : ∃ k, ∀ r, k ≤ r → (s.read r).pc = .idle

theorem Base.given_le (hs : Base names s) (r : ℕ) : s.given r ≤ s.cursor := by
  have := hs.given_add r (r + 1) (by omega)
  omega

theorem given_setPc (p : Pc Str) : (s.setPc r p).given r' = s.given r' :=
  congrArg List.length (setPc_result s)

theorem Base.setPc (hs : Base names s) {p : Pc Str}
    (hstored : (s.read r).pc.stored = true → p.stored = true)
    (hbefore : p.before = true → (s.read r).pc.before = true) : Base names (s.setPc r p) where
  cursor_le := hs.cursor_le
  given_add := by
    intro a b hab
    rw [given_setPc, given_setPc]
    exact hs.given_add a b hab
  cached := by
    intro xs hxs
    obtain ⟨a, ha, hres⟩ := hs.cached xs hxs
    refine ⟨a, ?_, by rw [setPc_result]; exact hres⟩
    by_cases h : a = r
    · subst h
      rw [setPc_read_self]
      exact hstored ha
    · rw [setPc_read_of_ne h]
      exact ha
  before := by
    intro a ha
    rw [given_setPc]
    by_cases h : a = r
    · subst h
      rw [setPc_read_self] at ha
      exact hs.before a (hbefore ha)
    · rw [setPc_read_of_ne h] at ha
      exact hs.before a ha
  fresh := by
    obtain ⟨k, hk⟩ := hs.fresh
    refine ⟨max k (r + 1), fun a ha => ?_⟩
    rw [setPc_read_of_ne (by omega)]
    exact hk a (by omega)

/-- The `result` that is stored is that of a read about to return it. -/
theorem Base.store (hs : Base names s) :
    Base names (({ s with cache := some (s.read r).result } : State Str).setPc r .returning) := by
  have hmoved : Base names (s.setPc r .returning) :=
    hs.setPc (fun _ => rfl) (fun h => Bool.noConfusion h)
  refine ⟨hmoved.cursor_le, hmoved.given_add, ?_, hmoved.before, hmoved.fresh⟩
  intro xs hxs
  refine ⟨r, ?_, ?_⟩
  · rw [setPc_read_self]
    rfl
  · rw [setPc_result]
    exact Option.some.inj hxs

theorem given_append_self {ys : List Str} :
    ((({ s with cursor := s.cursor + 1 } : State Str).setRead r
      { s.read r with result := (s.read r).result ++ ys })).given r = s.given r + ys.length := by
  unfold State.given
  rw [setRead_read_self, List.length_append]

theorem given_append_of_ne {ys : List Str} (h : r' ≠ r) :
    ((({ s with cursor := s.cursor + 1 } : State Str).setRead r
      { s.read r with result := (s.read r).result ++ ys })).given r' = s.given r' := by
  unfold State.given
  rw [setRead_read_of_ne h]

theorem Base.append (hs : Base names s) (hpc : (s.read r).pc = .draining) {name : Name}
    (hname : names[s.cursor]? = some name) :
    Base names (({ s with cursor := s.cursor + 1 } : State Str).setRead r
      { s.read r with result := (s.read r).result ++ [decode name] }) := by
  obtain ⟨hlt, -⟩ := List.getElem?_eq_some_iff.mp hname
  have hadd := hs.given_add
  refine ⟨hlt, ?_, ?_, ?_, ?_⟩
  · intro a b hab
    have h := hadd a b hab
    show _ ≤ s.cursor + 1
    by_cases ha : a = r
    · subst ha
      rw [given_append_self, given_append_of_ne (Ne.symm hab), List.length_singleton]
      omega
    · by_cases hb : b = r
      · subst hb
        rw [given_append_self, given_append_of_ne ha, List.length_singleton]
        omega
      · rw [given_append_of_ne ha, given_append_of_ne hb]
        omega
  · intro xs hxs
    obtain ⟨a, ha, hres⟩ := hs.cached xs hxs
    have hne : a ≠ r := by
      rintro rfl
      rw [hpc] at ha
      exact Bool.noConfusion ha
    exact ⟨a, by rw [setRead_read_of_ne hne]; exact ha, by rw [setRead_read_of_ne hne]; exact hres⟩
  · intro a ha
    by_cases h : a = r
    · subst h
      rw [setRead_read_self] at ha
      dsimp only at ha
      rw [hpc] at ha
      exact Bool.noConfusion ha
    · rw [setRead_read_of_ne h] at ha
      rw [given_append_of_ne h]
      exact hs.before a ha
  · obtain ⟨k, hk⟩ := hs.fresh
    refine ⟨max k (r + 1), fun a ha => ?_⟩
    rw [setRead_read_of_ne (by omega)]
    exact hk a (by omega)

theorem Base.next (hs : Base names s) {a : Act} (hen : Enabled s a) :
    Base names (AltNames.next names decode s a) := by
  cases a with
  | begin r =>
    have hp : (s.read r).pc = .idle := hen
    exact hs.setPc (by rw [hp]; exact fun h => h) (fun _ => by rw [hp]; rfl)
  | test r =>
    have hp : (s.read r).pc = .testing := hen
    dsimp only [AltNames.next, State.test]
    split <;> exact hs.setPc (by rw [hp]; exact fun h => Bool.noConfusion h)
      (fun _ => by rw [hp]; rfl)
  | load r =>
    have hp : (s.read r).pc = .loading := hen
    dsimp only [AltNames.next, State.load]
    cases hc : s.cache with
    | none => exact hs
    | some xs => exact hs.setPc (fun _ => rfl) (fun h => Bool.noConfusion h)
  | next r =>
    have hp : (s.read r).pc = .draining := hen
    dsimp only [AltNames.next, State.nextAlt]
    cases hname : names[s.cursor]? with
    | none =>
      exact hs.setPc (by rw [hp]; exact fun h => Bool.noConfusion h) (fun h => Bool.noConfusion h)
    | some name => exact hs.append hen hname
  | fail r rv =>
    have hp : (s.read r).pc = .draining := hen.1
    exact hs.setPc (by rw [hp]; exact fun h => Bool.noConfusion h) (fun h => Bool.noConfusion h)
  | store r => exact hs.store
  | ret r => exact hs.setPc (fun _ => rfl) (fun h => Bool.noConfusion h)

theorem base_of_reach (hs : (reads names decode).Reach s) : Base names s := by
  induction hs with
  | init =>
    refine ⟨Nat.zero_le _, fun _ _ _ => Nat.le_refl 0, fun _ h => ?_, fun _ _ => rfl,
      ⟨0, fun _ _ => rfl⟩⟩
    simp [reads] at h
  | step _ _ hen ih => exact ih.next hen

/-! ## What one step does to a read -/

/-- A read gets at most the name that the cursor passes. -/
theorem given_next (names : List Name) (decode : Name → Str) (s : State Str) (a : Act) (w : ℕ) :
    (AltNames.next names decode s a).given w = s.given w ∧
        s.cursor ≤ (AltNames.next names decode s a).cursor ∨
      (AltNames.next names decode s a).given w = s.given w + 1 ∧
        (AltNames.next names decode s a).cursor = s.cursor + 1 := by
  have hsetPc : ∀ (s' : State Str) r p, s'.cursor = s.cursor → s'.given w = s.given w →
      (s'.setPc r p).given w = s.given w ∧ s.cursor ≤ (s'.setPc r p).cursor := by
    intro s' r p hcur hgiven
    rw [given_setPc, setPc_cursor, hcur]
    exact ⟨hgiven, Nat.le_refl _⟩
  cases a with
  | begin | fail | ret => exact .inl (hsetPc s _ _ rfl rfl)
  | store r => exact .inl (hsetPc _ r _ rfl rfl)
  | test r =>
    dsimp only [AltNames.next, State.test]
    split <;> exact .inl (hsetPc s _ _ rfl rfl)
  | load r =>
    dsimp only [AltNames.next, State.load]
    split
    · exact .inl (hsetPc s _ _ rfl rfl)
    · exact .inl ⟨rfl, Nat.le_refl _⟩
  | next r =>
    dsimp only [AltNames.next, State.nextAlt]
    split
    · by_cases h : w = r
      · subst h
        exact .inr ⟨given_append_self, rfl⟩
      · exact .inl ⟨given_append_of_ne h, Nat.le_succ _⟩
    · exact .inl (hsetPc s _ _ rfl rfl)

/-- What a read returns it returned before the step, or loads from the cache, or
has drained. -/
theorem returned_next {a : Act} (hen : Enabled s a) {xs : List Str}
    (h : ((AltNames.next names decode s a).read r).pc = .returned xs) :
    (s.read r).pc = .returned xs ∨ s.cache = some xs ∨
      (s.read r).pc = .returning ∧ (s.read r).result = xs := by
  have hmove : ∀ (s' : State Str) r' p, s'.read = s.read →
      ((s'.setPc r' p).read r).pc = .returned xs →
      (s.read r).pc = .returned xs ∨ r = r' ∧ p = .returned xs := by
    intro s' r' p hread hp
    by_cases hr : r = r'
    · subst hr
      rw [setPc_read_self] at hp
      exact .inr ⟨rfl, hp⟩
    · rw [setPc_read_of_ne hr, hread] at hp
      exact .inl hp
  have hquiet : ∀ (s' : State Str) r' p, s'.read = s.read → p ≠ .returned xs →
      ((s'.setPc r' p).read r).pc = .returned xs → (s.read r).pc = .returned xs :=
    fun s' r' p hread hne hp => (hmove s' r' p hread hp).resolve_right fun hp' => hne hp'.2
  cases a with
  | begin | fail => exact .inl (hquiet s _ _ rfl (by simp) h)
  | store r' => exact .inl (hquiet _ r' _ rfl (by simp) h)
  | test r' =>
    dsimp only [AltNames.next, State.test] at h
    split at h <;> exact .inl (hquiet s _ _ rfl (by simp) h)
  | load r' =>
    dsimp only [AltNames.next, State.load] at h
    cases hc : s.cache with
    | none =>
      rw [hc] at h
      exact .inl h
    | some ys =>
      rw [hc] at h
      rcases hmove s r' _ rfl h with hp | ⟨-, hp⟩
      · exact .inl hp
      · exact .inr (.inl (congrArg some (Pc.returned.inj hp)))
  | next r' =>
    dsimp only [AltNames.next, State.nextAlt] at h
    cases hname : names[s.cursor]? with
    | none =>
      rw [hname] at h
      exact .inl (hquiet s _ _ rfl (by simp) h)
    | some name =>
      rw [hname] at h
      by_cases hr : r = r'
      · subst hr
        dsimp only at h
        rw [setRead_read_self] at h
        exact .inl h
      · dsimp only at h
        rw [setRead_read_of_ne hr] at h
        exact .inl h
  | ret r' =>
    rcases hmove s r' _ rfl h with hp | ⟨rfl, hp⟩
    · exact .inl hp
    · exact .inr (.inr ⟨hen, Pc.returned.inj hp⟩)

/-- What is cached after a step was cached before it, or is stored in it. -/
theorem cache_next {a : Act} (hen : Enabled s a) {xs : List Str}
    (h : (AltNames.next names decode s a).cache = some xs) :
    s.cache = some xs ∨ ∃ r, (s.read r).pc = .storing ∧ (s.read r).result = xs := by
  cases a with
  | begin | fail | ret => exact .inl h
  | store r => exact .inr ⟨r, hen, Option.some.inj h⟩
  | test r =>
    dsimp only [AltNames.next, State.test] at h
    split at h <;> exact .inl h
  | load r =>
    dsimp only [AltNames.next, State.load] at h
    split at h <;> exact .inl h
  | next r =>
    dsimp only [AltNames.next, State.nextAlt] at h
    split at h <;> exact .inl h

def Act.read : Act → ℕ
  | .begin r | .test r | .load r | .next r | .fail r _ | .store r | .ret r => r

theorem read_next_of_ne {a : Act} (h : r ≠ a.read) :
    (AltNames.next names decode s a).read r = s.read r := by
  cases a with
  | begin | fail | ret | store => exact setPc_read_of_ne h _
  | test r' =>
    dsimp only [AltNames.next, State.test]
    split <;> exact setPc_read_of_ne h _
  | load r' =>
    dsimp only [AltNames.next, State.load]
    split
    · exact setPc_read_of_ne h _
    · rfl
  | next r' =>
    dsimp only [AltNames.next, State.nextAlt]
    split
    · exact setRead_read_of_ne h _
    · exact setPc_read_of_ne h _

/-- A read that raised is over. -/
theorem raised_next {a : Act} (hen : Enabled s a) {rv : ℕ} (h : (s.read r).pc = .raised rv) :
    ((AltNames.next names decode s a).read r).pc = .raised rv := by
  have hne : r ≠ a.read := by
    rintro rfl
    have hno : ∀ p, (s.read a.read).pc = p → p ≠ .raised rv → False := by
      intro p hp hne
      exact hne (hp.symm.trans h)
    cases a with
    | fail => exact hno _ hen.1 (by simp)
    | _ => exact hno _ hen (by simp)
  rw [read_next_of_ne hne]
  exact h

/-! ## The list is lost -/

/-- What the read returned, if it has, is not the full list. -/
def ShortAnswer (names : List Name) (s : State Str) (r : ℕ) : Prop :=
  ∀ xs, (s.read r).pc = .returned xs → xs.length < names.length

/-- **The read has a name and missed another**, or raised: no read has the full
list any more. -/
structure Lost (names : List Name) (w : ℕ) (s : State Str) : Prop where
  given : 0 < s.given w
  missed : s.given w < s.cursor ∨ ∃ rv, (s.read w).pc = .raised rv
  cache : ∀ xs, s.cache = some xs → xs.length < names.length
  answer : ShortAnswer names s w

theorem Lost.given_lt (h : Lost names w s) (hs : Base names s)
    (hr : ∀ rv, (s.read r).pc ≠ .raised rv) : s.given r < names.length := by
  have hle := hs.cursor_le
  by_cases hw : r = w
  · subst hw
    rcases h.missed with hlt | ⟨rv, hraised⟩
    · omega
    · exact absurd hraised (hr rv)
  · have hadd := hs.given_add r w hw
    have hpos := h.given
    omega

/-- **What is returned from now on is short.** -/
theorem Lost.answer_next (h : Lost names w s) (hs : Base names s) {a : Act} (hen : Enabled s a)
    (hr : ShortAnswer names s r) : ShortAnswer names (AltNames.next names decode s a) r := by
  intro xs hxs
  rcases returned_next hen hxs with hret | hcache | ⟨hpc, rfl⟩
  · exact hr xs hret
  · exact h.cache xs hcache
  · exact h.given_lt hs fun rv hraised => by rw [hpc] at hraised; simp at hraised

theorem Lost.next (h : Lost names w s) (hs : Base names s) {a : Act} (hen : Enabled s a) :
    Lost names w (AltNames.next names decode s a) where
  given := by
    have hpos := h.given
    rcases given_next names decode s a w with hg | hg <;> omega
  missed := by
    rcases h.missed with hlt | ⟨rv, hraised⟩
    · left
      rcases given_next names decode s a w with hg | hg <;> omega
    · exact .inr ⟨rv, raised_next hen hraised⟩
  cache := by
    intro xs hxs
    rcases cache_next hen hxs with hcache | ⟨r, hpc, rfl⟩
    · exact h.cache xs hcache
    · exact h.given_lt hs fun rv hraised => by rw [hpc] at hraised; simp at hraised
  answer := h.answer_next hs hen h.answer

/-- So the full list is not to be had. -/
theorem Lost.not_able (h : Lost names w s) (hs : (reads names decode).Reach s) :
    ¬ Able names decode s := by
  intro hable
  obtain ⟨k, hk⟩ := (base_of_reach hs).fresh
  obtain ⟨s', hto, hret⟩ := hable k (hk k (Nat.le_refl k))
  have hkeep := Machine.Leads.relates
    (R := fun s s' => Lost names w s → ShortAnswer names s k → Lost names w s' ∧
      ShortAnswer names s' k)
    (fun _ _ hl ha => ⟨hl, ha⟩)
    (fun _ _ _ h₁ h₂ hl ha => h₂ (h₁ hl ha).1 (h₁ hl ha).2)
    (fun s a hr hen hl ha =>
      ⟨hl.next (base_of_reach hr) hen, hl.answer_next (base_of_reach hr) hen ha⟩) hs hto
  have hidle : ShortAnswer names s k := by
    intro xs hxs
    rw [hk k (Nat.le_refl k)] at hxs
    simp at hxs
  have hlt := (hkeep h hidle).2 _ hret
  rw [List.length_map] at hlt
  exact Nat.lt_irrefl _ hlt

/-! ## A short list is on its way -/

/-- The read is to return, or returned, less than the full list. -/
def Short (names : List Name) (w : ℕ) (s : State Str) : Prop :=
  ((s.read w).pc = .storing ∨ (s.read w).pc = .returning) ∧ s.given w < names.length ∨
    ∃ xs, (s.read w).pc = .returned xs ∧ xs.length < names.length

theorem Short.next (h : Short names w s) {a : Act} (hen : Enabled s a) :
    Short names w (AltNames.next names decode s a) := by
  by_cases hw : w = a.read
  · subst hw
    rcases h with ⟨hpc, hlt⟩ | ⟨xs, hpc, -⟩
    · cases a with
      | store r =>
        refine .inl ⟨.inr (congrArg Read.pc (setPc_read_self _)), ?_⟩
        rw [AltNames.next, given_setPc]
        exact hlt
      | ret r => exact .inr ⟨_, congrArg Read.pc (setPc_read_self _), hlt⟩
      | fail => rcases hpc with hpc | hpc <;> exact absurd (hpc.symm.trans hen.1) (by simp)
      | _ => rcases hpc with hpc | hpc <;> exact absurd (hpc.symm.trans hen) (by simp)
    · cases a with
      | fail => exact absurd (hpc.symm.trans hen.1) (by simp)
      | _ => exact absurd (hpc.symm.trans hen) (by simp)
  · unfold Short State.given
    rw [read_next_of_ne hw]
    exact h

/-! ## Where a divided read leads -/

def Broken (names : List Name) (s : State Str) : Prop :=
  ∃ w, Lost names w s ∨ Short names w s

theorem Broken.next (h : Broken names s) (hs : Base names s) {a : Act} (hen : Enabled s a) :
    Broken names (AltNames.next names decode s a) := by
  obtain ⟨w, hlost | hshort⟩ := h
  · exact ⟨w, .inl (hlost.next hs hen)⟩
  · exact ⟨w, .inr (hshort.next hen)⟩

/-- What is cached was given to a read that is not draining. -/
theorem Base.cache_length (hs : Base names s) (hpc : (s.read r).pc = .draining)
    {xs : List Str} (hxs : s.cache = some xs) : xs.length + s.given r ≤ s.cursor := by
  obtain ⟨a, ha, rfl⟩ := hs.cached xs hxs
  refine hs.given_add a r ?_
  rintro rfl
  rw [hpc] at ha
  exact Bool.noConfusion ha

/-- A name for a read that missed one. -/
theorem lost_append (hs : Base names s) (hpc : (s.read r).pc = .draining)
    (hmissed : s.given r ≠ s.cursor) {name : Name} (hname : names[s.cursor]? = some name) :
    Lost names r (({ s with cursor := s.cursor + 1 } : State Str).setRead r
      { s.read r with result := (s.read r).result ++ [decode name] }) := by
  obtain ⟨hlt, -⟩ := List.getElem?_eq_some_iff.mp hname
  have hle := hs.given_le r
  refine ⟨?_, .inl ?_, ?_, ?_⟩
  · rw [given_append_self, List.length_singleton]
    omega
  · rw [given_append_self, List.length_singleton]
    show _ < s.cursor + 1
    omega
  · intro xs hxs
    have hxs' := hs.cache_length hpc hxs
    omega
  · intro xs hxs
    rw [setRead_read_self] at hxs
    exact absurd (hpc.symm.trans hxs) (by simp)

/-- **A divided read breaks the list.** -/
theorem broken_of_divided (hs : Base names s) {a : Act} (hen : Enabled s a)
    (hdiv : ¬ Undivided s a) : Broken names (AltNames.next names decode s a) := by
  have hcur := hs.cursor_le
  cases a with
  | next r =>
    have hpc : (s.read r).pc = .draining := hen
    have hmissed : s.given r ≠ s.cursor := hdiv
    have hle := hs.given_le r
    refine ⟨r, ?_⟩
    dsimp only [AltNames.next, State.nextAlt]
    cases hname : names[s.cursor]? with
    | some name => exact .inl (lost_append hs hpc hmissed hname)
    | none =>
      refine .inr (.inl ⟨.inl (congrArg Read.pc (setPc_read_self s)), ?_⟩)
      rw [given_setPc]
      omega
  | fail r rv =>
    have hpc : (s.read r).pc = .draining := hen.1
    have hgiven : 0 < s.given r := List.length_pos_iff.mpr hdiv
    have hpc' : ((s.setPc r (.raised rv)).read r).pc = .raised rv :=
      congrArg Read.pc (setPc_read_self s)
    refine ⟨r, .inl ⟨?_, .inr ⟨rv, hpc'⟩, ?_, ?_⟩⟩
    · rw [AltNames.next, given_setPc]
      exact hgiven
    · intro xs hxs
      have hxs' := hs.cache_length hpc hxs
      omega
    · intro xs hxs
      exact absurd (hpc'.symm.trans hxs) (by simp)
  | begin | test | load | store | ret => exact absurd trivial hdiv

/-- No read is under way. -/
def Quiet (s : State Str) : Prop :=
  ∀ r, (s.read r).pc = .idle ∨ (∃ xs, (s.read r).pc = .returned xs) ∨
    ∃ rv, (s.read r).pc = .raised rv

theorem Broken.not_good (h : Broken names s) (hs : (reads names decode).Reach s)
    (hquiet : Quiet s) : ¬ Good names decode s := by
  intro hgood
  have hfull : ∀ r xs, (s.read r).pc = .returned xs → ¬ xs.length < names.length := by
    intro r xs hr hlt
    rw [hgood.complete r xs hr, List.length_map] at hlt
    exact Nat.lt_irrefl _ hlt
  obtain ⟨w, hlost | hshort⟩ := h
  · rcases hquiet w with hidle | ⟨xs, hret⟩ | ⟨rv, hraised⟩
    · have hpos := hlost.given
      rw [(base_of_reach hs).before w (by rw [hidle]; rfl)] at hpos
      exact Nat.lt_irrefl 0 hpos
    · exact hfull w xs hret (hlost.answer xs hret)
    · exact hlost.not_able hs (hgood.able w rv hraised)
  · rcases hshort with ⟨hpc, -⟩ | ⟨xs, hret, hlt⟩
    · rcases hpc with hpc | hpc <;> rcases hquiet w with h | ⟨_, h⟩ | ⟨_, h⟩ <;>
        exact absurd (hpc.symm.trans h) (by simp)
    · exact hfull w xs hret hlt

/-! ## The law -/

/-- **When `alt_names` is complete.** All along a run of undivided reads, each
read that has returned gave the full list, and each that raised has left it to
be had by later ones; and a run at whose end no read is under way keeps this
promise only if no read of it was divided. -/
theorem alt_names_complete_iff {as : List Act}
    (hv : (reads names decode).Valid (reads names decode).init as) :
    ((reads names decode).Meets Undivided (reads names decode).init as →
        (reads names decode).Throughout (Good names decode) (reads names decode).init as) ∧
      (Quiet ((reads names decode).final (reads names decode).init as) →
        (reads names decode).Throughout (Good names decode) (reads names decode).init as →
        (reads names decode).Meets Undivided (reads names decode).init as) := by
  constructor
  · intro hmeets
    have hgood : ∀ s, Inv names decode s → Good names decode s := fun _ h => h.good
    exact Machine.Meets.throughout hgood (fun _ _ _ h hok hen => h.next hen hok) .init inv_init
      hv hmeets
  · intro hquiet hthroughout
    have hreach := Machine.reach_final hv
    rcases Machine.meets_or_bad (fun s a hr hen => broken_of_divided (base_of_reach hr) hen)
      (fun s a hr hen h => h.next (base_of_reach hr) hen) .init hv with hmeets | hbroken
    · exact hmeets
    · exact absurd hthroughout.final (hbroken.not_good hreach hquiet)

/-- A read that failed at once, one that drains the list, and one that began
before the list was stored and finds it cached. -/
theorem alt_names_complete_iff_retried :
    let as : List Act := [.begin 0, .test 0, .fail 0 2, .begin 1, .test 1, .begin 2, .next 1,
      .next 1, .next 1, .store 1, .test 2, .load 2, .ret 1]
    let names := ["example.com", "IP:192.0.2.1"]
    (reads names id).Throughout (Good names id) (reads names id).init as :=
  (alt_names_complete_iff (by decide)).1 (by decide)

/-- **A retry after an error returns the rest of the list.** -/
theorem rest_after_error :
    ¬ ∀ as : List Act,
      let names := ["example.com", "IP:192.0.2.1"]
      (reads names id).Valid (reads names id).init as →
        (reads names id).Throughout (Good names id) (reads names id).init as := by
  intro hclaim
  have h := (hclaim [.begin 0, .test 0, .next 0, .fail 0 2, .begin 1, .test 1, .next 1, .next 1,
    .store 1, .ret 1] (by decide)).final
  exact absurd (h.complete 1 ["IP:192.0.2.1"] (by decide)) (by decide)

end AltNames

end PyNng
