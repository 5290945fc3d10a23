import PyNng.Common.Machine
/-!
# Common — one machine refines another

`C` refines `A` when a state of `A` can be read off every state of `C`, and
every step of `C` from a reached state is, to `A`, the actions its label
lists: none where the step is `C`'s own business, one where the two move
together, more where `C` is the coarser one. `Refines.run` lifts this to
runs, and `Refines.reach` carries down what is known of the reached states
of `A`.
-/

namespace PyNng

namespace Machine

variable {S Act S' Act' : Type*} {C : Machine S Act} {A : Machine S' Act'}
variable {abs : S → S'} {label : S → Act → List Act'}

/-- **`C` refines `A`**, by what `abs` reads and what `label` lists. -/
structure Refines (C : Machine S Act) (A : Machine S' Act') (abs : S → S')
    (label : S → Act → List Act') : Prop where
  init : abs C.init = A.init
  valid : ∀ s a, C.Reach s → C.Enabled s a → A.Valid (abs s) (label s a)
  next : ∀ s a, C.Reach s → C.Enabled s a → abs (C.next s a) = A.final (abs s) (label s a)

/-- What a run of `C` is to `A`. -/
def labels (C : Machine S Act) (label : S → Act → List Act') : S → List Act → List Act'
  | _, [] => []
  | s, a :: as => label s a ++ C.labels label (C.next s a) as

theorem final_append (s : S) (as bs : List Act) :
    C.final s (as ++ bs) = C.final (C.final s as) bs :=
  List.foldl_append ..

theorem valid_append {s : S} {as bs : List Act} :
    C.Valid s (as ++ bs) ↔ C.Valid s as ∧ C.Valid (C.final s as) bs := by
  induction as generalizing s with
  | nil => simp [Valid]
  | cons a as ih => simp [Valid, ih, and_assoc]

namespace Refines

variable (h : Refines C A abs label)
include h

/-- **A run of `C` is a run of `A`**, and they end in states that agree. -/
theorem run {s : S} (hs : C.Reach s) {as : List Act} (hv : C.Valid s as) :
    A.Valid (abs s) (C.labels label s as) ∧
      abs (C.final s as) = A.final (abs s) (C.labels label s as) := by
  induction as generalizing s with
  | nil => exact ⟨trivial, rfl⟩
  | cons a as ih =>
    obtain ⟨hen, hv⟩ := hv
    obtain ⟨ihv, ihf⟩ := ih (hs.step trivial hen) hv
    rw [h.next s a hs hen] at ihv ihf
    rw [labels, valid_append, final_append]
    exact ⟨⟨h.valid s a hs hen, ihv⟩, ihf⟩

/-- **What `C` reaches, `A` reaches.** -/
theorem reach {s : S} (hs : C.Reach s) : A.Reach (abs s) := by
  induction hs with
  | init =>
    rw [h.init]
    exact .init
  | step hs _ hen ih =>
    rw [h.next _ _ hs hen]
    exact ih.final (h.valid _ _ hs hen) (meets_true _ _)

end Refines

/-! ## One step for one step, or none -/

/-- The rule where a label lists at most one action. -/
theorem Refines.of_option {label : S → Act → Option Act'} (hinit : abs C.init = A.init)
    (hsome : ∀ s a b, C.Reach s → C.Enabled s a → label s a = some b →
      A.Enabled (abs s) b ∧ abs (C.next s a) = A.next (abs s) b)
    (hnone : ∀ s a, C.Reach s → C.Enabled s a → label s a = none → abs (C.next s a) = abs s) :
    Refines C A abs fun s a => (label s a).toList := by
  refine ⟨hinit, fun s a hs hen => ?_, fun s a hs hen => ?_⟩
  · cases hl : label s a with
    | none => exact trivial
    | some b => exact ⟨(hsome s a b hs hen hl).1, trivial⟩
  · cases hl : label s a with
    | none => exact hnone s a hs hen hl
    | some b => exact (hsome s a b hs hen hl).2

end Machine

end PyNng
