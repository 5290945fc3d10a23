import PyNng.Gil.Model
import Mathlib.Data.Set.Finite.Basic
/-!
# Gil — who owns which mutex

A thread has a mutex locked as often as it has `unique_lock`s that own it,
which is what the shares say; the mutexes it holds are below the one it is
taking. A step of one thread changes its own share of one mutex and
nobody else's (`Moves`).
-/

namespace PyNng

namespace Gil

variable {T M : Type*} {held : List (UniqueLock M)} {m : M}

/-- **What a thread has, where it stands.** -/
def SoundAt [LT M] (lock : UniqueLock M) (held : List (UniqueLock M)) : Pc → Prop
  | .outside | .starting => lock = {} ∧ held = []
  | .running | .released | .returning => lock = {}
  | .trying => ∃ m, lock = ⟨some m, false⟩ ∧ MayNest held m
  | .dropping | .locking | .retaking | .retrying => ∃ m, lock = ⟨some m, false⟩ ∧ Below held m
  | .unlocking => ∃ m, lock = ⟨some m, true⟩ ∧ Below held m
  | .threw => False

variable [DecidableEq T] [DecidableEq M]

/-! ## What an operation does to the mutexes -/

/-- **The thread goes from some shares of the mutexes to others**, and nobody
else's change. -/
structure Moves (t : T) (locks locks' : M → RecMutex T) : Prop where
  wellFormed : (∀ m, (locks m).WellFormed) → ∀ m, (locks' m).WellFormed
  others : ∀ u, u ≠ t → ∀ m, (locks' m).share u = (locks m).share u
  finite : {m | (locks m).owner ≠ none}.Finite → {m | (locks' m).owner ≠ none}.Finite

variable {t u : T} {locks locks' : M → RecMutex T}

omit [DecidableEq M] in
theorem Moves.refl (t : T) (locks : M → RecMutex T) : Moves t locks locks :=
  ⟨fun h => h, fun _ _ _ => rfl, fun h => h⟩

theorem moves_update {x : RecMutex T} (hwf : (∀ m, (locks m).WellFormed) → x.WellFormed)
    (hothers : ∀ u, u ≠ t → x.share u = (locks m).share u) :
    Moves t locks (Function.update locks m x) where
  wellFormed := by
    intro h m'
    by_cases hm : m' = m
    · rw [hm, Function.update_self]
      exact hwf h
    · rw [Function.update_of_ne hm]
      exact h m'
  others := by
    intro u hu m'
    by_cases hm : m' = m
    · rw [hm, Function.update_self]
      exact hothers u hu
    · rw [Function.update_of_ne hm]
  finite := by
    intro h
    refine (h.insert m).subset fun m' hm' => ?_
    by_cases hm : m' = m
    · exact .inl hm
    · refine .inr ?_
      rw [Set.mem_ofPred_eq, Function.update_of_ne hm] at hm'
      exact hm'

theorem moves_acquire (h : (locks m).available t = true) :
    Moves t locks (Function.update locks m ((locks m).acquire t)) :=
  moves_update (fun _ => RecMutex.wellFormed_acquire ..)
    fun _ hu => RecMutex.share_acquire_of_ne h hu

theorem moves_unlock (locks : M → RecMutex T) (m : M) :
    Moves t locks (Function.update locks m ((locks m).unlock t)) :=
  moves_update (fun h => (h m).unlock t) fun _ hu => RecMutex.share_unlock_of_ne _ hu

/-! ## The shares are the locks -/

/-- **A thread's share of each mutex is the number of its locks on it.** -/
def Accounts (t : T) (locks : M → RecMutex T) (us : List (UniqueLock M)) : Prop :=
  ∀ m, (locks m).share t = us.count ⟨some m, true⟩

variable {us : List (UniqueLock M)}

omit [DecidableEq T] in
theorem owning_beq_iff {m m' : M} :
    ((⟨some m, true⟩ : UniqueLock M) == ⟨some m', true⟩) = true ↔ m = m' := by
  simp

theorem Accounts.acquire (h : Accounts t locks us) (hwf : (locks m).WellFormed)
    (hav : (locks m).available t = true) :
    Accounts t (Function.update locks m ((locks m).acquire t)) (⟨some m, true⟩ :: us) := by
  intro m'
  rw [List.count_cons]
  by_cases hm : m' = m
  · subst hm
    rw [Function.update_self, hwf.share_acquire hav, h m', if_pos (beq_self_eq_true _)]
  · rw [Function.update_of_ne hm, h m', if_neg (fun he => hm (owning_beq_iff.mp he).symm)]
    rfl

theorem Accounts.unlock (h : Accounts t locks us) :
    Accounts t (Function.update locks m ((locks m).unlock t)) (us.erase ⟨some m, true⟩) := by
  intro m'
  by_cases hm : m' = m
  · subst hm
    rw [Function.update_self, RecMutex.share_unlock, h m', List.count_erase_self]
  · rw [Function.update_of_ne hm, h m', List.count_erase_of_ne]
    intro he
    exact hm (owning_beq_iff.mp (beq_of_eq he))

/-- Locks that own nothing do not count. -/
theorem accounts_cons_of_not_owns {u : UniqueLock M} (hu : u.owns = false) :
    Accounts t locks (u :: us) ↔ Accounts t locks us := by
  refine forall_congr' fun m => ?_
  rw [List.count_cons, if_neg, Nat.add_zero]
  intro he
  rw [eq_of_beq he] at hu
  simp at hu

theorem Accounts.erase (h : Accounts t locks us) {u : UniqueLock M}
    (hu : ∀ m, u ≠ ⟨some m, true⟩) : Accounts t locks (us.erase u) := by
  intro m
  rw [h m, List.count_erase_of_ne (Ne.symm (hu m))]

/-- **A lock that goes away** takes its share along. -/
theorem Accounts.destroy (h : Accounts t locks us) (u : UniqueLock M) :
    Accounts t (u.destroy t locks) (us.erase u) := by
  obtain ⟨_ | m, owns⟩ := u
  · rw [UniqueLock.destroy_of_mutex_none rfl]
    exact h.erase fun m => by simp
  · cases owns with
    | false =>
      rw [UniqueLock.destroy_of_not_owns rfl]
      exact h.erase fun m => by simp
    | true => exact h.unlock

theorem moves_destroy (u : UniqueLock M) (locks : M → RecMutex T) :
    Moves t locks (u.destroy t locks) := by
  obtain ⟨_ | m, owns⟩ := u
  · rw [UniqueLock.destroy_of_mutex_none rfl]
    exact .refl t locks
  · cases owns with
    | false =>
      rw [UniqueLock.destroy_of_not_owns rfl]
      exact .refl t locks
    | true => exact moves_unlock locks m

/-! ## The invariant -/

structure State.Inv [LT M] (s : State T M) : Prop where
  sound : ∀ t, SoundAt (s.thread t).lock (s.thread t).held (s.thread t).pc
  named : ∀ t, ∀ u ∈ (s.thread t).held, u.mutex ≠ none
  gil : ∀ t, (s.thread t).pc.hasGil = true ↔ s.gil = some t
  accounts : ∀ t, Accounts t s.locks ((s.thread t).lock :: (s.thread t).held)
  wellFormed : ∀ m, (s.locks m).WellFormed
  finite : {m | (s.locks m).owner ≠ none}.Finite

/-- **What a step of the thread does to the GIL**: who has it after the step,
and whether that is the thread. -/
inductive Passes (t : T) (s : State T M) : Option T → Bool → Prop
  | keep : Passes t s s.gil (s.thread t).pc.hasGil
  | take (h : s.gil = none) : Passes t s (some t) true
  | drop (h : (s.thread t).pc.hasGil = true) : Passes t s none false

variable {s : State T M}

omit [DecidableEq T] [DecidableEq M] in
theorem Passes.of_eq {b : Bool} (h : b = (s.thread t).pc.hasGil) : Passes t s s.gil b :=
  h ▸ .keep

variable [LT M]

theorem State.Inv.passes (hs : s.Inv) {g : Option T} {b : Bool} (h : Passes t s g b) :
    (b = true ↔ g = some t) ∧ ∀ u, u ≠ t → (g = some u ↔ s.gil = some u) := by
  cases h with
  | keep => exact ⟨hs.gil t, fun _ _ => Iff.rfl⟩
  | take h =>
    refine ⟨by simp, fun u hu => ?_⟩
    rw [h]
    simp [Ne.symm hu]
  | drop h =>
    refine ⟨by simp, fun u hu => ?_⟩
    rw [(hs.gil t).mp h]
    simp [Ne.symm hu]

/-- **The step rule.** -/
theorem State.Inv.set (hs : s.Inv) {g : Option T} {x : Thread M}
    (hsound : SoundAt x.lock x.held x.pc) (hnamed : ∀ u ∈ x.held, u.mutex ≠ none)
    (hgil : Passes t s g x.pc.hasGil) (hmoves : Moves t s.locks locks)
    (hacc : Accounts t locks (x.lock :: x.held)) :
    State.Inv ⟨g, locks, Function.update s.thread t x⟩ where
  sound := by
    intro u
    dsimp only
    by_cases hu : u = t
    · subst hu
      rw [Function.update_self]
      exact hsound
    · rw [Function.update_of_ne hu]
      exact hs.sound u
  named := by
    intro u
    dsimp only
    by_cases hu : u = t
    · subst hu
      rw [Function.update_self]
      exact hnamed
    · rw [Function.update_of_ne hu]
      exact hs.named u
  gil := by
    intro u
    dsimp only
    by_cases hu : u = t
    · subst hu
      rw [Function.update_self]
      exact (hs.passes hgil).1
    · rw [Function.update_of_ne hu, hs.gil u]
      exact ((hs.passes hgil).2 u hu).symm
  accounts := by
    intro u
    dsimp only
    by_cases hu : u = t
    · subst hu
      rw [Function.update_self]
      exact hacc
    · rw [Function.update_of_ne hu]
      intro m
      rw [hmoves.others u hu]
      exact hs.accounts u m
  wellFormed := hmoves.wellFormed hs.wellFormed
  finite := hmoves.finite hs.finite

end Gil

end PyNng
