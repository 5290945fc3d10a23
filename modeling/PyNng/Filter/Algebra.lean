import PyNng.Common.Formula
import PyNng.Filter.Anchor
/-!
# Filter — composition is boolean algebra

An expression without a `FirstWinsFilter` is a formula over its leaves:
`&` and `|` build one tree of the other (`compose`, `exists_compose`), and
the short-circuiting walk over shared objects computes the formula's value
from the leaves' own verdicts. Nothing that was offered before has a part
in it, and the laws of the formula are laws of the filter.
-/

namespace PyNng

/-- The leaves that keep no state. -/
inductive Leaf
  | ip (f : IpFilter)
  | port (f : PortFilter)
  | pid (f : PidFilter)

/-- The leaf's own verdict. -/
def Leaf.allow (info : PipeFilterInfo) : Leaf → Bool
  | .ip f => f.allow info
  | .port f => f.allow info
  | .pid f => f.allow info

namespace PipeFilter

variable {info : PipeFilterInfo} {h : Anchors}

def leaf : Leaf → PipeFilter
  | .ip f => .ip f
  | .port f => .port f
  | .pid f => .pid f

/-- The filter that `&` and `|` build of the leaves. -/
def compose : Formula Leaf → PipeFilter
  | .atom l => leaf l
  | .and f g => .all (compose f) (compose g)
  | .or f g => .any (compose f) (compose g)

theorem stateless_compose (f : Formula Leaf) : (compose f).Stateless := by
  induction f with
  | atom l => cases l <;> trivial
  | and f g ihf ihg => exact ⟨ihf, ihg⟩
  | or f g ihf ihg => exact ⟨ihf, ihg⟩

/-- Every expression without a `FirstWinsFilter` is built so. -/
theorem exists_compose {e : PipeFilter} (he : e.Stateless) : ∃ f, compose f = e := by
  induction e with
  | ip f => exact ⟨.atom (.ip f), rfl⟩
  | port f => exact ⟨.atom (.port f), rfl⟩
  | pid f => exact ⟨.atom (.pid f), rfl⟩
  | firstWins ref => exact he.elim
  | all self other ihs iho =>
    obtain ⟨f, rfl⟩ := ihs he.1
    obtain ⟨g, rfl⟩ := iho he.2
    exact ⟨.and f g, rfl⟩
  | any self other ihs iho =>
    obtain ⟨f, rfl⟩ := ihs he.1
    obtain ⟨g, rfl⟩ := iho he.2
    exact ⟨.or f g, rfl⟩

/-- The composites ask their right operand only where the left one leaves
the verdict open. -/
theorem shortCircuits_allow (info : PipeFilterInfo) :
    Formula.ShortCircuits fun f => (compose f).allow info where
  and := by
    intro f g h
    simp only [compose, allow, AllFilter.allow]
    rcases (compose f).allow info h with ⟨_ | _, h'⟩
    · rfl
    · simp only [if_true]
      rcases (compose g).allow info h' with ⟨_ | _, h''⟩ <;> rfl
  or := by
    intro f g h
    simp only [compose, allow, AnyFilter.allow]
    rcases (compose f).allow info h with ⟨_ | _, h'⟩
    · simp only [Bool.false_eq_true, if_false]
      rcases (compose g).allow info h' with ⟨_ | _, h''⟩ <;> rfl
    · rfl

/-- **The walk of a stateless expression** is its formula's value, from any
anchors, and writes none. -/
theorem allow_compose (f : Formula Leaf) (info : PipeFilterInfo) (h : Anchors) :
    (compose f).allow info h = (f.eval (Leaf.allow info), h) :=
  (shortCircuits_allow info).walk_eq (fun l h => by cases l <;> rfl) f h

/-- The verdict on a connection after a history of offers and resets. -/
def verdictAfter (e : PipeFilter) (masks : ℕ → UInt32) (history : List OfferAct)
    (info : PipeFilterInfo) : Bool :=
  (e.allow info ((offers e masks).final (offers e masks).init history).anchors).1

/-- **Composition is boolean algebra.** Over any history the verdict is the
value of the tree over the leaves' verdicts; so no history matters, and no
rewriting by the laws. -/
theorem composition_boolean (f : Formula Leaf) (masks : ℕ → UInt32) (history : List OfferAct)
    (info : PipeFilterInfo) :
    verdictAfter (compose f) masks history info = f.eval (Leaf.allow info) ∧
      (∀ other, verdictAfter (compose f) masks other info =
        verdictAfter (compose f) masks history info) ∧
      ∀ g, f.Rearranged g → ∀ other, verdictAfter (compose g) masks other info =
        verdictAfter (compose f) masks history info := by
  have hvalue : ∀ g other, verdictAfter (compose g) masks other info =
      g.eval (Leaf.allow info) := by
    intro g other
    unfold verdictAfter
    rw [allow_compose]
  refine ⟨hvalue f history, fun other => ?_, fun g hfg other => ?_⟩
  · rw [hvalue, hvalue]
  · rw [hvalue, hvalue, hfg.eval_eq]

/-- `PidFilter([7]) | PidFilter([42])`. -/
def eitherPid : Formula Leaf :=
  .or (.atom (.pid ⟨.allow, [7]⟩)) (.atom (.pid ⟨.allow, [42]⟩))

/-- A port list on its right may be written on both of them, whoever
connected before. -/
theorem composition_boolean_distributed :
    verdictAfter (compose (.or
        (.and (.atom (.port ⟨.deny, [⟨80, 80⟩]⟩)) (.atom (.pid ⟨.allow, [7]⟩)))
        (.and (.atom (.port ⟨.deny, [⟨80, 80⟩]⟩)) (.atom (.pid ⟨.allow, [42]⟩)))))
        (fun _ => 0) [.offer (ipcPeer 9)] (ipcPeer 42) =
      verdictAfter (compose (.and eitherPid (.atom (.port ⟨.deny, [⟨80, 80⟩]⟩))))
        (fun _ => 0) [] (ipcPeer 42) :=
  (composition_boolean _ (fun _ => 0) [] (ipcPeer 42)).2.2 _
    (.trans (.andSwap _ _) (.distrib _ _ _)) _

end PipeFilter

end PyNng
