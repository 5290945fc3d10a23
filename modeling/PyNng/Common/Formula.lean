import Mathlib.Data.Nat.Notation
/-!
# Common — conjunctions and disjunctions over atoms

Trees of `∧` and `∨` over atoms of any kind, their boolean value, and the
rewriting that commutativity, associativity, idempotence and distributivity
allow anywhere in a tree. `Rearranged.eval_eq` says that rewriting keeps
the value; `ShortCircuits.walk_eq` says that an evaluation that walks the
tree left to right and may stop early computes it, as long as the atoms
leave the state alone.
-/

namespace PyNng

/-- A tree of conjunctions and disjunctions. -/
inductive Formula (α : Type*)
  | atom (a : α)
  | and (f g : Formula α)
  | or (f g : Formula α)

namespace Formula

variable {α σ : Type*}

/-- The boolean value, from the value of the atoms. -/
def eval (v : α → Bool) : Formula α → Bool
  | .atom a => v a
  | .and f g => f.eval v && g.eval v
  | .or f g => f.eval v || g.eval v

/-- **Rewritten by the laws**, anywhere in the tree and any number of times. -/
inductive Rearranged : Formula α → Formula α → Prop
  | refl (f) : Rearranged f f
  | symm {f g} : Rearranged f g → Rearranged g f
  | trans {f g h} : Rearranged f g → Rearranged g h → Rearranged f h
  /-- In the operands of a conjunction. -/
  | and {f f' g g'} : Rearranged f f' → Rearranged g g' → Rearranged (.and f g) (.and f' g')
  | or {f f' g g'} : Rearranged f f' → Rearranged g g' → Rearranged (.or f g) (.or f' g')
  | andSwap (f g) : Rearranged (.and f g) (.and g f)
  | orSwap (f g) : Rearranged (.or f g) (.or g f)
  | andAssoc (f g h) : Rearranged (.and (.and f g) h) (.and f (.and g h))
  | orAssoc (f g h) : Rearranged (.or (.or f g) h) (.or f (.or g h))
  | andSelf (f) : Rearranged (.and f f) f
  | orSelf (f) : Rearranged (.or f f) f
  | distrib (f g h) : Rearranged (.and f (.or g h)) (.or (.and f g) (.and f h))

/-- **Rewriting keeps the value**, whatever the atoms are worth. -/
theorem Rearranged.eval_eq {f g : Formula α} (h : Rearranged f g) (v : α → Bool) :
    f.eval v = g.eval v := by
  induction h with
  | refl f => rfl
  | symm _ ih => exact ih.symm
  | trans _ _ ih₁ ih₂ => exact ih₁.trans ih₂
  | and _ _ ih₁ ih₂ => simp only [eval, ih₁, ih₂]
  | or _ _ ih₁ ih₂ => simp only [eval, ih₁, ih₂]
  | andSwap f g => exact Bool.and_comm ..
  | orSwap f g => exact Bool.or_comm ..
  | andAssoc f g h => exact Bool.and_assoc ..
  | orAssoc f g h => exact Bool.or_assoc ..
  | andSelf f => exact Bool.and_self _
  | orSelf f => exact Bool.or_self _
  | distrib f g h => exact Bool.and_or_distrib_left ..

/-- A walk over the tree that stops as soon as it knows: the right operand is
asked only where the left one leaves the value open. -/
structure ShortCircuits (walk : Formula α → σ → Bool × σ) : Prop where
  and : ∀ f g s, walk (.and f g) s =
    if (walk f s).1 then walk g (walk f s).2 else (false, (walk f s).2)
  or : ∀ f g s, walk (.or f g) s =
    if (walk f s).1 then (true, (walk f s).2) else walk g (walk f s).2

/-- **The walk computes the value** and leaves the state alone, where the
atoms do. -/
theorem ShortCircuits.walk_eq {walk : Formula α → σ → Bool × σ} (hw : ShortCircuits walk)
    {v : α → Bool} (hatom : ∀ a s, walk (.atom a) s = (v a, s)) (f : Formula α) (s : σ) :
    walk f s = (f.eval v, s) := by
  induction f with
  | atom a => exact hatom a s
  | and f g ihf ihg =>
    rw [hw.and, ihf]
    by_cases hf : f.eval v = true
    · simp [hf, ihg, eval]
    · simp [hf, eval]
  | or f g ihf ihg =>
    rw [hw.or, ihf]
    by_cases hf : f.eval v = true
    · simp [hf, eval]
    · simp [hf, ihg, eval]

end Formula

end PyNng
