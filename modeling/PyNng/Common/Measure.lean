import Mathlib.Algebra.BigOperators.Group.Finset.Piecewise
import Mathlib.Data.Fintype.Basic
import Mathlib.Tactic.Ring
/-!
# Common — the work of many parties

A measure of a state in which finitely many parties take steps is a sum
over them, and a step of one party changes one summand.
-/

namespace PyNng

variable {ι α : Type*} [Fintype ι] [DecidableEq ι]

/-- **One party moves**: the sum changes by what its own work does. -/
theorem sum_work_update (work : α → ℕ) (f : ι → α) (i : ι) (x : α) :
    ∑ j, work (Function.update f i x j) + work (f i) = ∑ j, work (f j) + work x := by
  have hup : ∀ j, work (Function.update f i x j) =
      Function.update (fun j => work (f j)) i (work x) j :=
    fun j => Function.apply_update (fun _ => work) f i x j
  rw [Finset.sum_congr rfl fun j _ => hup j, Finset.sum_update_of_mem (Finset.mem_univ i),
    Finset.sum_eq_add_sum_sdiff_singleton_of_mem (Finset.mem_univ i) fun j => work (f j)]
  ring

end PyNng
