import Mathlib.Data.Nat.Notation
/-!
# Common — handles that are moved and never copied

A handle owns a resource by its id, and owns none when the id is 0. The
world it lives in says what closing an id does to it. Moving leaves the
source empty, so that however often an id is handed on one handle has it;
what becomes of it when that handle is destroyed is the destructor's say.
-/

namespace PyNng

/-- **A move-only handle.** The id 0 stands for no resource. -/
structure Handle where
  id : ℕ
  deriving DecidableEq, Repr

namespace Handle

variable {W : Type*} (closeId : ℕ → W → ℕ × W) {h dst src : Handle} {w : W}

/-- What the default constructor gives, and what a move leaves. -/
def empty : Handle := ⟨0⟩

def isOpen (h : Handle) : Bool := decide (h.id ≠ 0)

/-- The explicit close: the code it returns, the handle and the world after it. -/
def close (h : Handle) (w : W) : ℕ × Handle × W :=
  if h.isOpen then ((closeId h.id w).1, empty, (closeId h.id w).2) else (0, h, w)

/-- The close of a destructor or an assignment, whose code nobody reads. -/
def closeIfOpen (h : Handle) (w : W) : W := (h.close closeId w).2.2

/-- Move construction: the new handle, and the source. -/
def moved (h : Handle) : Handle × Handle := (h, empty)

/-- Move assignment, which closes what the destination owned: the
destination, the source and the world. -/
def assign (dst src : Handle) (w : W) : Handle × Handle × W :=
  (src, empty, dst.closeIfOpen closeId w)

@[simp] theorem isOpen_empty : empty.isOpen = false := rfl

theorem close_of_open (hh : h.isOpen = true) :
    h.close closeId w = ((closeId h.id w).1, empty, (closeId h.id w).2) := by
  simp [close, hh]

/-- Nothing is closed where the destination owns nothing. -/
@[simp] theorem assign_empty (src : Handle) (w : W) :
    empty.assign closeId src w = (src, empty, w) := rfl

end Handle

end PyNng
