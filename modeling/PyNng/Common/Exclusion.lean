import Mathlib.Logic.Basic
/-!
# Common — a mutex and the places where it is held

A mutex is its holder, or nobody. A program whose threads hold it at some
places of their code and not at others keeps the two in step: the holder is
exactly the one thread that stands where it is held. Taking the mutex,
giving it back and steps in between keep that, whatever the threads are.
-/

namespace PyNng

/-- **The mutex agrees with the places**: its holder is whoever stands where
it is held. -/
def Exclusive {H : Type*} (mutex : Option H) (holds : H → Prop) : Prop :=
  ∀ h, mutex = some h ↔ holds h

namespace Exclusive

variable {H : Type*} {mutex : Option H} {holds holds' : H → Prop} {g h : H}

/-- Two threads do not both hold it. -/
theorem unique (hx : Exclusive mutex holds) (hg : holds g) (hh : holds h) : g = h :=
  Option.some.inj (((hx g).mpr hg).symm.trans ((hx h).mpr hh))

/-- It is free where nobody stands at such a place. -/
theorem free_iff (hx : Exclusive mutex holds) : mutex = none ↔ ∀ h, ¬ holds h := by
  constructor
  · intro hm h hh
    rw [(hx h).mpr hh] at hm
    cases hm
  · intro hno
    cases hm : mutex with
    | none => rfl
    | some h => exact absurd ((hx h).mp hm) (hno h)

/-- The same places, described another way. -/
theorem congr (hx : Exclusive mutex holds) (hh : ∀ h, holds' h ↔ holds h) :
    Exclusive mutex holds' :=
  fun h => (hx h).trans (hh h).symm

/-- A step of the thread `h` that neither takes it nor gives it back. -/
theorem keep (hx : Exclusive mutex holds) (hh : holds' h ↔ holds h)
    (hne : ∀ g, g ≠ h → (holds' g ↔ holds g)) : Exclusive mutex holds' := by
  intro g
  rw [hx g]
  by_cases hg : g = h
  · subst hg
    exact hh.symm
  · exact (hne g hg).symm

/-- **Taking it.** -/
theorem acquire (hx : Exclusive mutex holds) (hfree : mutex = none) (hh : holds' h)
    (hne : ∀ g, g ≠ h → (holds' g ↔ holds g)) : Exclusive (some h) holds' := by
  intro g
  by_cases hg : g = h
  · subst hg
    exact ⟨fun _ => hh, fun _ => rfl⟩
  · rw [hne g hg]
    refine ⟨fun he => absurd (Option.some.inj he).symm hg, fun hhold => ?_⟩
    exact absurd hhold (hx.free_iff.mp hfree g)

/-- **Giving it back.** -/
theorem release (hx : Exclusive mutex holds) (hm : holds h) (hh : ¬ holds' h)
    (hne : ∀ g, g ≠ h → (holds' g ↔ holds g)) : Exclusive none holds' := by
  intro g
  refine ⟨nofun, fun hg => ?_⟩
  have hgh : g ≠ h := by
    rintro rfl
    exact hh hg
  exact absurd (hx.unique ((hne g hgh).mp hg) hm) hgh

end Exclusive

end PyNng
