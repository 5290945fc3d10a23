import Mathlib.Data.Nat.Notation
import Mathlib.Logic.Function.Basic
/-!
# Common — counted references

Which location refers to what: variables, members of objects, whatever may
hold a `std::shared_ptr` or own an object alone. A thing is owned while
some location refers to it, and what happens when the last one is cleared
is the program's affair. The locations that were ever used are listed, so
that ownership can be decided.
-/

namespace PyNng

/-- **The references of a program.** -/
structure SharedPtrs (L T : Type*) where
  ref : L → Option T
  held : List L
  mem_held : ∀ l, ref l ≠ none → l ∈ held

namespace SharedPtrs

variable {L T : Type*} {ptrs : SharedPtrs L T} {l l' : L} {t : T} {p : Option T}

def empty (L T : Type*) : SharedPtrs L T := ⟨fun _ => none, [], fun _ h => absurd rfl h⟩

/-- **Owned**: some location refers to it. -/
def Owned (ptrs : SharedPtrs L T) (t : T) : Prop := ∃ l ∈ ptrs.held, ptrs.ref l = some t

instance [DecidableEq T] (ptrs : SharedPtrs L T) (t : T) : Decidable (ptrs.Owned t) :=
  inferInstanceAs (Decidable (∃ l ∈ ptrs.held, ptrs.ref l = some t))

theorem owned_iff : ptrs.Owned t ↔ ∃ l, ptrs.ref l = some t := by
  constructor
  · rintro ⟨l, -, hl⟩
    exact ⟨l, hl⟩
  · rintro ⟨l, hl⟩
    exact ⟨l, ptrs.mem_held l (by rw [hl]; simp), hl⟩

theorem owned_of_ref (h : ptrs.ref l = some t) : ptrs.Owned t := owned_iff.mpr ⟨l, h⟩

variable [DecidableEq L]

/-- The location refers to something else, or to nothing. -/
def set (l : L) (p : Option T) (ptrs : SharedPtrs L T) : SharedPtrs L T where
  ref := Function.update ptrs.ref l p
  held := l :: ptrs.held
  mem_held := by
    intro l' h
    by_cases hl : l' = l
    · rw [hl]
      exact List.mem_cons_self
    · rw [Function.update_of_ne hl] at h
      exact List.mem_cons_of_mem l (ptrs.mem_held l' h)

@[simp] theorem ref_set_self : (ptrs.set l p).ref l = p := Function.update_self ..

theorem ref_set_of_ne (h : l' ≠ l) : (ptrs.set l p).ref l' = ptrs.ref l' :=
  Function.update_of_ne h _ _

theorem ref_of_set_none (h : (ptrs.set l none).ref l' = some t) :
    l' ≠ l ∧ ptrs.ref l' = some t := by
  have hne : l' ≠ l := by
    rintro rfl
    rw [ref_set_self] at h
    simp at h
  rw [ref_set_of_ne hne] at h
  exact ⟨hne, h⟩

/-- What a location did not refer to is owned whatever it refers to next. -/
theorem Owned.set (h : ptrs.Owned t) (hl : ptrs.ref l ≠ some t) : (ptrs.set l p).Owned t := by
  obtain ⟨l', hl'⟩ := owned_iff.mp h
  have hne : l' ≠ l := by
    rintro rfl
    exact hl hl'
  exact owned_of_ref (l := l') ((ref_set_of_ne hne).trans hl')

/-- `std::move`: the one location takes over what the other refers to. -/
def move (src dst : L) (ptrs : SharedPtrs L T) : SharedPtrs L T :=
  (ptrs.set dst (ptrs.ref src)).set src none

variable {src dst : L}

@[simp] theorem ref_move_src : (ptrs.move src dst).ref src = none := ref_set_self

theorem ref_move_dst (h : dst ≠ src) : (ptrs.move src dst).ref dst = ptrs.ref src :=
  (ref_set_of_ne h).trans ref_set_self

theorem ref_move_of_ne (hsrc : l ≠ src) (hdst : l ≠ dst) :
    (ptrs.move src dst).ref l = ptrs.ref l :=
  (ref_set_of_ne hsrc).trans (ref_set_of_ne hdst)

end SharedPtrs

end PyNng
