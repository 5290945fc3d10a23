import PyNng.Common.Exclusion
import PyNng.Library.Model
/-!
# Library — nng is brought up once

`nng_init` is called by the holder of `_nng_init_lock` that has found the
flag clear, and the flag is clear where nng is up only while that thread is
on its way to set it. `_nng_fini` clears the flag after it has shut nng down,
so there is one place where the flag is set and nng is down. `nng_alternates`
and `up_of_returned` are read off the invariant that says this.
-/

namespace PyNng

namespace Library

variable {s s' : State} {a : Act} {t : ℕ}

/-! ## The invariant -/

/-- What the thread that called `nng_init` knows, unless nng was shut down since. -/
def State.Own (s : State) (c : Call) (n : ℕ) : Prop :=
  n ≤ s.finis ∧ (n = s.finis → s.nng = some c.params)

/-- What a call that returns has found. -/
structure State.Found (s : State) (c : Call) (n : ℕ) (stale : Bool) : Prop where
  le : n ≤ s.finis
  fresh : ∀ args, c = .initializeNng args → stale = false
  up : n = s.finis → stale = false → s.nng ≠ none
  params : ∀ args, c = .initializeNng args → n = s.finis → s.nng = some (some args.params)

/-- What holds of an outcome. -/
def Outcome.Fits (s : State) (c : Call) : Outcome → Prop
  | .returned n stale => s.Found c n stale
  | .raised _ => True

/-- What holds where a thread stands. -/
def Pc.Fits (s : State) (c : Call) : Pc → Prop
  | .idle | .testing | .locking | .locked => True
  | .initialising => s.initialized = false ∧ s.nng = none
  | .flagging n => s.initialized = false ∧ n = s.finis ∧ s.nng = some c.params
  | .starting n | .asking n | .probing n _ | .creating n | .launching n => s.Own c n
  | .releasing o | .ended o => o.Fits s c

/-- `_nng_fini` goes on only while the flag is set, and clears it when nng is down. -/
def FiniPc.Fits (s : State) : FiniPc → Prop
  | .idle | .testing => True
  | .unflagging => s.initialized = true ∧ s.nng = none
  | _ => s.initialized = true

/-- **The invariant.** -/
structure Sound (s : State) : Prop where
  locked : Exclusive s.lock fun t => (s.pc t).holds = true
  up : s.initialized = true → s.fini ≠ .unflagging → s.nng ≠ none
  down : s.initialized = false → s.nng ≠ none → ∃ t, (s.pc t).isFlagging = true
  fini : s.fini.Fits s
  fits : ∀ t, (s.pc t).Fits s (s.call t)
  count : s.inits = s.finis + if s.nng = none then 0 else 1

theorem sound_init : Sound library.init where
  locked _ := ⟨nofun, nofun⟩
  up := nofun
  down _ h := absurd rfl h
  fini := trivial
  fits _ := trivial
  count := rfl

theorem forall_setPc {P : ℕ → Pc → Prop} {pc : Pc} (ht : P t pc)
    (hne : ∀ u, u ≠ t → P u (s.pc u)) (u : ℕ) : P u ((s.setPc t pc).pc u) := by
  by_cases hu : u = t
  · subst hu
    rw [setPc_pc_self]
    exact ht
  · rw [setPc_pc_of_ne hu]
    exact hne u hu

/-! What the states agree on that the invariant of a thread reads. -/

/-- The same flag, the same nng, shut down as often. -/
structure Agree (s s' : State) : Prop where
  initialized : s'.initialized = s.initialized
  nng : s'.nng = s.nng
  finis : s'.finis = s.finis

theorem Outcome.Fits.congr {c : Call} {o : Outcome} (h : o.Fits s c) (hnng : s'.nng = s.nng)
    (hfinis : s'.finis = s.finis) : o.Fits s' c := by
  cases o with
  | raised e => trivial
  | returned n stale =>
    have h : s.Found c n stale := h
    exact ⟨by rw [hfinis]; exact h.le, h.fresh, by rw [hfinis, hnng]; exact h.up,
      by rw [hfinis, hnng]; exact h.params⟩

theorem Pc.Fits.congr {c : Call} {pc : Pc} (h : pc.Fits s c) (hag : Agree s s') :
    pc.Fits s' c := by
  cases pc with
  | idle | testing | locking | locked => trivial
  | initialising => exact ⟨hag.initialized.trans h.1, hag.nng.trans h.2⟩
  | flagging n =>
    exact ⟨hag.initialized.trans h.1, h.2.1.trans hag.finis.symm, hag.nng.trans h.2.2⟩
  | starting n | asking n | probing n _ | creating n | launching n =>
    have h : s.Own c n := h
    refine ⟨Nat.le_trans h.1 (Nat.le_of_eq hag.finis.symm), fun hn => ?_⟩
    rw [hag.nng]
    exact h.2 (hn.trans hag.finis)
  | releasing o | ended o => exact Outcome.Fits.congr h hag.nng hag.finis

/-! The lock, where one thread moves. -/

theorem holds_setPc (t : ℕ) (pc : Pc) (s : State) : ((s.setPc t pc).pc t).holds = pc.holds := by
  rw [setPc_pc_self]

theorem holds_setPc_of_ne {u : ℕ} (hu : u ≠ t) (pc : Pc) (s : State) :
    ((s.setPc t pc).pc u).holds = (s.pc u).holds := by
  rw [setPc_pc_of_ne hu]

namespace Sound

variable {pc : Pc}

theorem lock_keep (h : Sound s) (hh : pc.holds = (s.pc t).holds) :
    Exclusive s.lock fun u => ((s.setPc t pc).pc u).holds = true :=
  h.locked.keep (h := t) (by rw [holds_setPc, hh]) fun u hu => by rw [holds_setPc_of_ne hu]

theorem lock_acquire (h : Sound s) (hfree : s.lock = none) (hh : pc.holds = true) :
    Exclusive (some t) fun u => ((s.setPc t pc).pc u).holds = true :=
  h.locked.acquire hfree ((holds_setPc ..).trans hh) fun u hu => by rw [holds_setPc_of_ne hu]

theorem lock_release (h : Sound s) (hheld : (s.pc t).holds = true) (hh : pc.holds = false) :
    Exclusive none fun u => ((s.setPc t pc).pc u).holds = true :=
  h.locked.release hheld (by rw [holds_setPc, hh]; exact Bool.false_ne_true)
    fun u hu => by rw [holds_setPc_of_ne hu]

/-- Two threads do not both hold the lock. -/
theorem unique (h : Sound s) {u : ℕ} (ht : (s.pc t).holds = true) (hu : (s.pc u).holds = true) :
    u = t :=
  h.locked.unique hu ht

end Sound

/-- **A step of one thread** that changes neither the flag nor nng: the thread
moves to a place where it fits, and takes the lock, keeps it or gives it back. -/
theorem Sound.setPc (h : Sound s) (hag : Agree s s') {pc : Pc}
    (hfini : s'.fini = s.fini) (hinits : s'.inits = s.inits) (hcall : s'.call = s.call)
    (hpc : s'.pc = s.pc)
    (hlock : Exclusive s'.lock fun u => ((s.setPc t pc).pc u).holds = true)
    (hflag : (s.pc t).isFlagging = true → pc.isFlagging = true)
    (hfits : pc.Fits s (s.call t)) : Sound (s'.setPc t pc) where
  locked := Exclusive.congr hlock fun u => by rw [State.setPc, State.setPc, hpc]
  up := by
    show s'.initialized = true → s'.fini ≠ .unflagging → s'.nng ≠ none
    rw [hag.initialized, hfini, hag.nng]
    exact h.up
  down := by
    show s'.initialized = false → s'.nng ≠ none → _
    rw [hag.initialized, hag.nng]
    intro hi hn
    obtain ⟨u, hu⟩ := h.down hi hn
    refine ⟨u, ?_⟩
    refine forall_setPc (P := fun u pc => (s.pc u).isFlagging = true → pc.isFlagging = true) hflag
      (fun u _ => ?_) u hu
    rw [hpc]
    exact id
  fini := by
    show s'.fini.Fits s'
    rw [hfini]
    have hf := h.fini
    cases hpcf : s.fini <;> rw [hpcf] at hf <;>
      first | trivial | exact hag.initialized.trans hf |
        exact ⟨hag.initialized.trans hf.1, hag.nng.trans hf.2⟩
  fits := by
    have hag' : Agree s (s'.setPc t pc) := ⟨hag.initialized, hag.nng, hag.finis⟩
    refine forall_setPc (P := fun u q => q.Fits (s'.setPc t pc) (s'.call u)) ?_ fun u _ => ?_
    · rw [hcall]
      exact hfits.congr hag'
    · rw [hcall, hpc]
      exact (h.fits u).congr hag'
  count := by
    show s'.inits = s'.finis + if s'.nng = none then 0 else 1
    rw [hinits, hag.finis, hag.nng]
    exact h.count

/-! ## Every step keeps it -/

theorem found_fits (h : Sound s) (hi : s.initialized = true) (c : Call) :
    (s.found c).Fits s c := by
  cases c with
  | initializeNng args => trivial
  | checkNngInit =>
    refine ⟨Nat.le_refl _, nofun, fun _ hst => h.up hi (of_decide_eq_false hst), nofun⟩

/-- What the call knows is what it returns with. -/
theorem found_of_own {c : Call} {n : ℕ} (h : s.Own c n) : s.Found c n false where
  le := h.1
  fresh _ _ := rfl
  up hn _ := by rw [h.2 hn]; simp
  params args hc hn := by rw [h.2 hn, hc]; rfl

/-- A thread that begins a call. -/
theorem sound_call (h : Sound s) (hrest : (s.pc t).resting = true) (c : Call) {pc : Pc}
    (hpc : pc = .testing ∨ pc = .locking) :
    Sound ({ s with call := Function.update s.call t c }.setPc t pc) := by
  have hout : (s.pc t).holds = false := by
    cases hp : s.pc t <;> rw [hp] at hrest <;> first | rfl | cases hrest
  have hnot : ¬ (s.pc t).isFlagging = true := by
    cases hp : s.pc t <;> rw [hp] at hrest <;> first | exact Bool.false_ne_true | cases hrest
  have hpcs : pc.holds = false ∧ ∀ s' c', pc.Fits s' c' := by
    rcases hpc with rfl | rfl <;> exact ⟨rfl, fun _ _ => trivial⟩
  refine ⟨h.lock_keep (by rw [hpcs.1, hout]), h.up, fun hi hn => ?_, ?_, fun u => ?_, h.count⟩
  · obtain ⟨u, hu⟩ := h.down hi hn
    refine ⟨u, ?_⟩
    have hut : u ≠ t := by
      rintro rfl
      exact hnot hu
    rw [setPc_pc_of_ne hut]
    exact hu
  · have hf := h.fini
    show s.fini.Fits _
    cases hp : s.fini <;> rw [hp] at hf <;> exact hf
  · by_cases hut : u = t
    · subst hut
      rw [setPc_pc_self]
      exact hpcs.2 _ _
    · rw [setPc_pc_of_ne hut]
      show (s.pc u).Fits _ (Function.update s.call t c u)
      rw [Function.update_of_ne hut]
      exact (h.fits u).congr ⟨rfl, rfl, rfl⟩

/-- **`nng_init` succeeds**: nng was down, and the thread alone knows that it is up. -/
theorem sound_nngInit (h : Sound s) (hat : s.pc t = .initialising) :
    Sound ({ s with nng := some (s.call t).params, inits := s.inits + 1 }.setPc t
      (.flagging s.finis)) := by
  have hfit := h.fits t
  rw [hat] at hfit
  obtain ⟨hflag, hdown⟩ : s.initialized = false ∧ s.nng = none := hfit
  have hheld : (s.pc t).holds = true := by rw [hat]; rfl
  refine ⟨h.lock_keep (by rw [hheld]; rfl), fun hi => ?_, fun _ _ => ⟨t, ?_⟩, ?_, fun u => ?_, ?_⟩
  · rw [hflag] at hi
    cases hi
  · rw [setPc_pc_self]
    rfl
  · have hf := h.fini
    show s.fini.Fits _
    cases hp : s.fini <;> rw [hp] at hf <;>
      first | trivial | exact hf | exact absurd (hflag.symm.trans hf.1) Bool.false_ne_true
  · by_cases hut : u = t
    · subst hut
      rw [setPc_pc_self]
      exact ⟨hflag, rfl, rfl⟩
    · rw [setPc_pc_of_ne hut]
      have hu := h.fits u
      show (s.pc u).Fits _ (s.call u)
      cases hp : s.pc u <;> rw [hp] at hu
      case initialising | flagging => exact absurd (h.unique hheld (by rw [hp]; rfl)) hut
      case starting n | asking n | probing n _ | creating n | launching n =>
        exact absurd (h.unique hheld (by rw [hp]; rfl)) hut
      case releasing o => exact absurd (h.unique hheld (by rw [hp]; rfl)) hut
      case idle | testing | locking | locked => trivial
      case ended o =>
        cases o with
        | raised e => trivial
        | returned n stale =>
          have hu : s.Found (s.call u) n stale := hu
          refine ⟨hu.le, hu.fresh, fun _ _ => Option.some_ne_none _, fun args hc hn => ?_⟩
          -- nng was down, so the call returned before it was last shut down
          have := hu.params args hc hn
          rw [hdown] at this
          cases this
  · have hc := h.count
    rw [hdown] at hc
    show s.inits + 1 = s.finis + if some (s.call t).params = none then 0 else 1
    simp only [if_true] at hc
    simp only [reduceCtorEq, if_false]
    omega

/-- **The flag is set**, by the thread that has brought nng up. -/
theorem sound_setFlag (h : Sound s) {n : ℕ} (hat : s.pc t = .flagging n) :
    Sound ({ s with initialized := true }.setPc t (.starting n)) := by
  have hfit := h.fits t
  rw [hat] at hfit
  obtain ⟨hflag, hn, hup⟩ : s.initialized = false ∧ n = s.finis ∧ s.nng = some (s.call t).params :=
    hfit
  have hheld : (s.pc t).holds = true := by rw [hat]; rfl
  refine ⟨h.lock_keep (by rw [hheld]; rfl), fun _ _ => ?_, nofun, ?_, fun u => ?_, h.count⟩
  · show s.nng ≠ none
    rw [hup]
    exact Option.some_ne_none _
  · have hf := h.fini
    show s.fini.Fits _
    cases hp : s.fini <;> rw [hp] at hf <;>
      first | trivial | exact rfl | exact absurd (hflag.symm.trans hf.1) Bool.false_ne_true
  · by_cases hut : u = t
    · subst hut
      rw [setPc_pc_self]
      exact ⟨Nat.le_of_eq hn, fun _ => hup⟩
    · rw [setPc_pc_of_ne hut]
      have hu := h.fits u
      show (s.pc u).Fits _ (s.call u)
      cases hp : s.pc u <;> rw [hp] at hu
      case initialising | flagging => exact absurd (h.unique hheld (by rw [hp]; rfl)) hut
      case idle | testing | locking | locked => trivial
      case starting n | asking n | probing n _ | creating n | launching n => exact hu
      case releasing o | ended o => exact Outcome.Fits.congr hu rfl rfl

/-- The flag and nng are as before, and `_nng_fini` goes on. -/
theorem Sound.setFini (h : Sound s) (hag : Agree s s') (hlock : s'.lock = s.lock)
    (hpc : s'.pc = s.pc) (hcall : s'.call = s.call) (hinits : s'.inits = s.inits)
    (hup : s'.fini = .unflagging ↔ s.fini = .unflagging) (hfini : s'.fini.Fits s) : Sound s' where
  locked := by rw [hlock, hpc]; exact h.locked
  up := by
    rw [hag.initialized, hag.nng]
    exact fun hi hne => h.up hi (fun hf => hne (hup.mpr hf))
  down := by rw [hag.initialized, hag.nng, hpc]; exact h.down
  fini := by
    cases hp : s'.fini <;> rw [hp] at hfini <;>
      first | trivial | exact hag.initialized.trans hfini |
        exact ⟨hag.initialized.trans hfini.1, hag.nng.trans hfini.2⟩
  fits u := by rw [hpc, hcall]; exact (h.fits u).congr hag
  count := by rw [hinits, hag.finis, hag.nng]; exact h.count

/-- **nng is shut down**: what the threads knew of it was of an earlier one. -/
theorem sound_nngFini (h : Sound s) (hat : s.fini = .finalising) :
    Sound { s with nng := none, finis := s.finis + 1, fini := .unflagging } := by
  have hf := h.fini
  rw [hat] at hf
  have hflag : s.initialized = true := hf
  have hup : s.nng ≠ none := h.up hflag (by rw [hat]; nofun)
  have hne : ∀ {n : ℕ}, n ≤ s.finis → n ≠ s.finis + 1 := by intro n hn; omega
  refine ⟨h.locked, fun _ hne => absurd rfl hne, fun _ hn => absurd rfl hn, ⟨hflag, rfl⟩,
    fun u => ?_, ?_⟩
  · have hu := h.fits u
    show (s.pc u).Fits _ (s.call u)
    cases hp : s.pc u <;> rw [hp] at hu
    case initialising => exact absurd (hflag.symm.trans hu.1) nofun
    case flagging n => exact absurd (hflag.symm.trans hu.1) nofun
    case idle | testing | locking | locked => trivial
    case starting n | asking n | probing n _ | creating n | launching n =>
      have hu : s.Own (s.call u) n := hu
      exact ⟨Nat.le_succ_of_le hu.1, fun hn => absurd hn (hne hu.1)⟩
    case releasing o | ended o =>
      cases o with
      | raised e => trivial
      | returned n stale =>
        have hu : s.Found (s.call u) n stale := hu
        exact ⟨Nat.le_succ_of_le hu.le, hu.fresh, fun hn => absurd hn (hne hu.le),
          fun _ _ hn => absurd hn (hne hu.le)⟩
  · have hc := h.count
    rw [if_neg hup] at hc
    show s.inits = s.finis + 1 + if (none : Option (Option NngInitParams)) = none then 0 else 1
    rw [if_pos rfl]
    exact hc

/-- **The flag is cleared**, nng being down. -/
theorem sound_clearFlag (h : Sound s) (hat : s.fini = .unflagging) :
    Sound { s with initialized := false, fini := .idle } := by
  have hf := h.fini
  rw [hat] at hf
  obtain ⟨hflag, hdown⟩ : s.initialized = true ∧ s.nng = none := hf
  refine ⟨h.locked, nofun, fun _ hn => absurd hdown hn, trivial, fun u => ?_, h.count⟩
  have hu := h.fits u
  show (s.pc u).Fits _ (s.call u)
  cases hp : s.pc u <;> rw [hp] at hu
  case initialising => exact absurd (hflag.symm.trans hu.1) nofun
  case flagging n => exact absurd (hflag.symm.trans hu.1) nofun
  case idle | testing | locking | locked => trivial
  case starting n | asking n | probing n _ | creating n | launching n => exact hu
  case releasing o | ended o => exact Outcome.Fits.congr hu rfl rfl

theorem sound_finiStep (h : Sound s) : Sound s.finiStep := by
  have hf := h.fini
  have hag : ∀ {s' : State}, s'.initialized = s.initialized → s'.nng = s.nng →
      s'.finis = s.finis → Agree s s' := fun h1 h2 h3 => ⟨h1, h2, h3⟩
  unfold State.finiStep
  cases hp : s.fini <;> rw [hp] at hf <;> dsimp only
  case idle => exact h
  case testing =>
    cases hi : s.initialized with
    | true =>
      exact h.setFini (hag hi.symm rfl rfl) rfl rfl rfl rfl ⟨nofun, by rw [hp]; nofun⟩ hi
    | false =>
      exact h.setFini (hag hi.symm rfl rfl) rfl rfl rfl rfl ⟨nofun, by rw [hp]; nofun⟩ trivial
  case stopping | dropping | clearing =>
    exact h.setFini (hag rfl rfl rfl) rfl rfl rfl rfl ⟨nofun, by rw [hp]; nofun⟩ hf
  case reading =>
    split <;> exact h.setFini (hag rfl rfl rfl) rfl rfl rfl rfl ⟨nofun, by rw [hp]; nofun⟩ hf
  case fetching =>
    cases s.dispatchThread with
    | none => exact h.setFini (hag rfl rfl rfl) rfl rfl rfl rfl ⟨nofun, by rw [hp]; nofun⟩ trivial
    | some d => exact h.setFini (hag rfl rfl rfl) rfl rfl rfl rfl ⟨nofun, by rw [hp]; nofun⟩ hf
  case joining d =>
    by_cases hd : s.threads d = .stopped
    · rw [if_pos hd]
      exact h.setFini (hag rfl rfl rfl) rfl rfl rfl rfl ⟨nofun, by rw [hp]; nofun⟩ hf
    · rw [if_neg hd]
      exact h.setFini (hag rfl rfl rfl) rfl rfl rfl rfl ⟨nofun, by rw [hp]; nofun⟩ trivial
  case finalising => exact sound_nngFini h hp
  case unflagging => exact sound_clearFlag h hp

/-- **Every step keeps the invariant.** -/
theorem sound_next (h : Sound s) (hen : Enabled s a) : Sound (next s a) := by
  have hself : Agree s s := ⟨rfl, rfl, rfl⟩
  have hflagging : ∀ {t : ℕ} {pc : Pc}, s.pc t = pc → pc.isFlagging = false →
      ∀ {pc' : Pc}, (s.pc t).isFlagging = true → pc'.isFlagging = true := by
    intro t pc hat hno pc' hyes
    rw [hat, hno] at hyes
    cases hyes
  have hfit : ∀ {t : ℕ} {pc : Pc}, s.pc t = pc → pc.Fits s (s.call t) := by
    intro t pc hat
    have := h.fits t
    rwa [hat] at this
  cases a with
  | call t c =>
    cases c with
    | checkNngInit => exact sound_call h hen .checkNngInit (.inl rfl)
    | initializeNng args => exact sound_call h hen (.initializeNng args) (.inr rfl)
  | test t =>
    have hat : s.pc t = .testing := hen
    dsimp only [next]
    cases hi : s.initialized with
    | true =>
      exact h.setPc hself rfl rfl rfl rfl (h.lock_keep (by rw [hat]; rfl)) (hflagging hat rfl)
        (found_fits h hi _)
    | false =>
      exact h.setPc hself rfl rfl rfl rfl (h.lock_keep (by rw [hat]; rfl)) (hflagging hat rfl)
        trivial
  | acquire t =>
    obtain ⟨hat, hfree⟩ : s.pc t = .locking ∧ s.lock = none := hen
    have hag : Agree s { s with lock := some t } := ⟨rfl, rfl, rfl⟩
    exact h.setPc hag rfl rfl rfl rfl (h.lock_acquire hfree rfl) (hflagging hat rfl) trivial
  | testAgain t =>
    have hat : s.pc t = .locked := hen
    dsimp only [next]
    cases hi : s.initialized with
    | true =>
      exact h.setPc hself rfl rfl rfl rfl (h.lock_keep (by rw [hat]; rfl)) (hflagging hat rfl)
        (found_fits h hi _)
    | false =>
      refine h.setPc hself rfl rfl rfl rfl (h.lock_keep (by rw [hat]; rfl)) (hflagging hat rfl)
        ⟨hi, ?_⟩
      -- whoever is about to set the flag holds the lock, which this thread holds
      by_contra hup
      obtain ⟨u, hu⟩ := h.down hi hup
      have hheld : (s.pc u).holds = true := by
        cases hp : s.pc u <;> rw [hp] at hu <;> first | rfl | cases hu
      obtain rfl : u = t := h.unique (by rw [hat]; rfl) hheld
      rw [hat] at hu
      cases hu
  | nngInit t rc =>
    have hat : s.pc t = .initialising := hen
    dsimp only [next]
    split
    · exact sound_nngInit h hat
    · exact h.setPc hself rfl rfl rfl rfl (h.lock_keep (by rw [hat]; rfl)) (hflagging hat rfl)
        trivial
  | setFlag t =>
    obtain ⟨n, hat⟩ := exists_of_isFlagging hen
    dsimp only [next]
    rw [hat]
    exact sound_setFlag h hat
  | testThread t =>
    obtain ⟨n, hat⟩ := exists_of_isStarting hen
    have hown := hfit hat
    dsimp only [next]
    rw [hat]
    dsimp only
    split <;>
      exact h.setPc hself rfl rfl rfl rfl (h.lock_keep (by rw [hat]; rfl)) (hflagging hat rfl) hown
  | readThread t =>
    obtain ⟨n, hat⟩ := exists_of_isAsking hen
    have hown := hfit hat
    dsimp only [next]
    rw [hat]
    dsimp only
    cases s.dispatchThread with
    | none =>
      exact h.setPc hself rfl rfl rfl rfl (h.lock_keep (by rw [hat]; rfl)) (hflagging hat rfl)
        trivial
    | some d =>
      exact h.setPc hself rfl rfl rfl rfl (h.lock_keep (by rw [hat]; rfl)) (hflagging hat rfl) hown
  | askThread t =>
    obtain ⟨n, d, hat⟩ := exists_of_isProbing hen
    have hown := hfit hat
    dsimp only [next]
    rw [hat]
    dsimp only
    split
    · exact h.setPc hself rfl rfl rfl rfl (h.lock_keep (by rw [hat]; rfl)) (hflagging hat rfl)
        (found_of_own hown)
    · exact h.setPc hself rfl rfl rfl rfl (h.lock_keep (by rw [hat]; rfl)) (hflagging hat rfl) hown
  | makeThread t =>
    obtain ⟨n, hat⟩ := exists_of_isCreating hen
    have hown : s.Own (s.call t) n := hfit hat
    have hkeep := h.lock_keep (t := t)
      (show (Pc.launching n).holds = (s.pc t).holds by rw [hat]; rfl)
    dsimp only [next]
    rw [hat]
    dsimp only
    have hag : Agree s
        { s with
          dispatchThread := some s.made
          threads := Function.update s.threads s.made .initial
          made := s.made + 1 } := ⟨rfl, rfl, rfl⟩
    exact h.setPc hag rfl rfl rfl rfl hkeep (hflagging hat rfl) hown
  | startThread t starts =>
    obtain ⟨n, hat⟩ := exists_of_isLaunching hen
    have hown : (Pc.releasing (.returned n false)).Fits s (s.call t) := found_of_own (hfit hat)
    have hkeep : ∀ o, Exclusive s.lock fun u => ((s.setPc t (.releasing o)).pc u).holds = true :=
      fun o => h.lock_keep (by rw [hat]; rfl)
    dsimp only [next]
    rw [hat]
    cases s.dispatchThread with
    | none => exact h.setPc hself rfl rfl rfl rfl (hkeep _) (hflagging hat rfl) trivial
    | some d =>
      dsimp only
      have hstart : ∀ threads failed, Agree s
          { s with dispatchThread := some d, threads, startFailed := failed } :=
        fun _ _ => ⟨rfl, rfl, rfl⟩
      split
      · exact h.setPc (hstart _ s.startFailed) rfl rfl rfl rfl (hkeep _) (hflagging hat rfl) hown
      · have hraised : (Pc.releasing (.raised .cannotStart)).Fits s (s.call t) := trivial
        exact h.setPc (hstart s.threads true) rfl rfl rfl rfl (hkeep _) (hflagging hat rfl) hraised
  | release t =>
    obtain ⟨o, hat⟩ := exists_of_isReleasing hen
    dsimp only [next]
    rw [hat]
    have hag : Agree s { s with lock := none } := ⟨rfl, rfl, rfl⟩
    have ho : o.Fits s (s.call t) := hfit hat
    dsimp only
    exact h.setPc hag rfl rfl rfl rfl (h.lock_release (by rw [hat]; rfl) rfl) (hflagging hat rfl) ho
  | threadEnds d =>
    refine ⟨h.locked, h.up, h.down, ?_, fun u => (h.fits u).congr ⟨rfl, rfl, rfl⟩, h.count⟩
    have hf := h.fini
    show s.fini.Fits _
    cases hp : s.fini <;> rw [hp] at hf <;> exact hf
  | callFini =>
    have hidle : s.fini = .idle := hen
    exact h.setFini ⟨rfl, rfl, rfl⟩ rfl rfl rfl rfl ⟨nofun, by rw [hidle]; nofun⟩ trivial
  | fini => exact sound_finiStep h
  | joinTimeout =>
    obtain ⟨d, hp, -⟩ := exists_of_waits hen
    have hf := h.fini
    rw [hp] at hf
    exact h.setFini ⟨rfl, rfl, rfl⟩ rfl rfl rfl rfl ⟨nofun, by rw [hp]; nofun⟩ hf

theorem sound_of_reach (hs : library.Reach s) : Sound s := by
  induction hs with
  | init => exact sound_init
  | step _ _ hen ih => exact sound_next ih hen

/-! ## What it says of nng -/

/-- **nng is never brought up twice, nor down twice.** It has been brought up
once more than it was shut down where it is up, and as often where it is
not; `nng_init` is called by one thread at a time and finds nng down, and
`nng_fini` finds it up. -/
theorem nng_alternates (hs : library.Reach s) :
    s.inits = s.finis + (if s.nng = none then 0 else 1) ∧
      (∀ t, s.pc t = .initialising → s.nng = none ∧ ∀ u, s.pc u = .initialising → u = t) ∧
      (s.fini = .finalising → s.nng ≠ none) := by
  have h := sound_of_reach hs
  refine ⟨h.count, fun t ht => ⟨?_, fun u hu => ?_⟩, fun hf => ?_⟩
  · have hfit := h.fits t
    rw [ht] at hfit
    exact hfit.2
  · exact h.unique (by rw [ht]; rfl) (by rw [hu]; rfl)
  · have hfits := h.fini
    rw [hf] at hfits
    exact h.up hfits (by rw [hf]; nofun)

/-- **Whoever has returned finds nng up**, until it is shut down: unless the call
met the flag of an nng that `_nng_fini` had shut down already. Where it was
`initialize` that returned, nng runs with its arguments. -/
theorem up_of_returned (hs : library.Reach s) {n : ℕ} {stale : Bool}
    (ht : s.pc t = .ended (.returned n stale)) (hn : n = s.finis) :
    (stale = false → s.nng ≠ none) ∧
      ∀ args, s.call t = .initializeNng args → s.nng = some (some args.params) := by
  have hfit := (sound_of_reach hs).fits t
  rw [ht] at hfit
  have hfound : s.Found (s.call t) n stale := hfit
  exact ⟨hfound.up hn, fun args hc => hfound.params args hc hn⟩

/-- Two threads race: one finds the other's nng under the lock. -/
def raceToInitialize : List Act :=
  [.call 0 (.initializeNng { numTaskThreads := 4 }), .call 1 .checkNngInit, .test 1, .acquire 0,
    .testAgain 0, .nngInit 0 0, .setFlag 0, .testThread 0, .makeThread 0, .startThread 0 true,
    .release 0, .acquire 1, .testAgain 1, .release 1]

theorem reach_race : library.Reach (library.final library.init raceToInitialize) :=
  Machine.reach_final (by decide)

theorem nng_alternates_race :
    (library.final library.init raceToInitialize).inits = 1 ∧
      (library.final library.init raceToInitialize).finis = 0 := by
  refine ⟨(nng_alternates reach_race).1.trans ?_, ?_⟩ <;> decide

theorem up_of_returned_race :
    (library.final library.init raceToInitialize).nng ≠ none ∧
      (library.final library.init raceToInitialize).nng =
        some (some (InitArgs.params { numTaskThreads := 4 })) := by
  obtain ⟨hup, -⟩ := @up_of_returned _ 1 reach_race 0 false (by decide) (by decide)
  obtain ⟨-, hparams⟩ := @up_of_returned _ 0 reach_race 0 false (by decide) (by decide)
  exact ⟨hup rfl, hparams _ (by decide)⟩

end Library

end PyNng
