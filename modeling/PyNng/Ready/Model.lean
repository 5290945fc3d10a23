import PyNng.Async.Model
import Mathlib.Data.Int.Notation
/-!
# Ready — `arecv_ready` and `asend_ready`

The async generators of one socket on one event loop, in both directions:
each keeps a future and a callback that resolves it, and registers the
callback for the poll fd of its direction. The loop keeps one callback for
an fd. Everything between two suspensions of a generator is one step.

Which of them is readable when a selector is asked is not followed: a
step says what the selector answered. A registered callback runs when its
fd is readable, and may run at any time.
-/

namespace PyNng

namespace Ready

open Async (Fut)

/-- `arecv_ready` or `asend_ready`. -/
inductive Dir
  | recv
  | send
  deriving DecidableEq, Repr

/-- Where a generator stands. -/
inductive Phase
  /-- Not advanced yet. -/
  | unopened
  | yielded
  /-- `await fut`. -/
  | awaiting
  | closed
  deriving DecidableEq, Repr

/-- In the `try`. -/
def Phase.isOpen : Phase → Bool
  | .yielded | .awaiting => true
  | .unopened | .closed => false

/-- **A generator**: its local `fd`, and the `fut` its callback refers to. -/
structure Gen where
  phase : Phase := .unopened
  fd : ℤ := -1
  fut : Fut := .pending
  deriving DecidableEq, Repr

structure State where
  gen : ℕ → Gen
  /-- `_fd_recv` and `_fd_send`; -1 until nng was asked. -/
  fd : Dir → ℤ
  /-- The loop's readers: whose `_wakeup` is registered for an fd. -/
  reader : ℤ → Option ℕ

variable {s : State}

inductive Act
  /-- The first `__anext__`: what nng gives for the fd if it is asked, and
  what the selector answers. -/
  | open (g : ℕ) (dir : Dir) (answer : ℤ) (ready : Bool)
  /-- It raises before `add_reader`. -/
  | openRaises (g : ℕ)
  /-- The selector cannot be made, or cannot register the fd. -/
  | selectorRaises (g : ℕ) (dir : Dir) (answer : ℤ)
  /-- `__anext__` after a `yield`. -/
  | advance (g : ℕ) (ready : Bool)
  /-- The loop runs the callback of a readable fd. -/
  | wakeup (fd : ℤ)
  /-- The future was resolved. -/
  | resume (g : ℕ) (ready : Bool)
  /-- `aclose`, a cancellation, or any exception inside the `try`. -/
  | close (g : ℕ)
  /-- `aclose` of a generator that was not advanced. -/
  | drop (g : ℕ)
  deriving DecidableEq, Repr

/-- The fd a generator takes: the one the socket has, or else nng's answer. -/
def State.fdFor (s : State) (dir : Dir) (answer : ℤ) : ℤ :=
  if s.fd dir = -1 then answer else s.fd dir

def Enabled (s : State) : Act → Prop
  | .open g dir answer _ => (s.gen g).phase = .unopened ∧ s.fdFor dir answer ≠ -1
  | .openRaises g => (s.gen g).phase = .unopened
  | .selectorRaises g dir answer => (s.gen g).phase = .unopened ∧ s.fdFor dir answer ≠ -1
  | .advance g _ => (s.gen g).phase = .yielded
  | .wakeup fd => s.reader fd ≠ none
  | .resume g _ => (s.gen g).phase = .awaiting ∧ (s.gen g).fut ≠ .pending
  | .close g => (s.gen g).phase.isOpen = true
  | .drop g => (s.gen g).phase = .unopened

instance (s : State) (a : Act) : Decidable (Enabled s a) := by
  cases a <;> unfold Enabled <;> infer_instance

def State.setGen (g : ℕ) (x : Gen) (s : State) : State :=
  { s with gen := Function.update s.gen g x }

/-- `selector.select(timeout=0)`, and the loop up to its next suspension. -/
def Gen.check (ready : Bool) (x : Gen) : Gen :=
  if ready then { x with phase := .yielded } else { x with phase := .awaiting, fut := .pending }

/-- Up to `loop.add_reader(fd, _wakeup)`, which replaces what was registered. -/
def State.addReader (g : ℕ) (dir : Dir) (answer : ℤ) (s : State) : State :=
  { s with
    fd := Function.update s.fd dir (s.fdFor dir answer)
    reader := Function.update s.reader (s.fdFor dir answer) (some g) }

/-- `loop.remove_reader(fd)`. -/
def State.removeReader (fd : ℤ) (s : State) : State :=
  { s with reader := Function.update s.reader fd none }

/-- **`_wakeup`.** -/
def Gen.wakeup (x : Gen) : Gen := { x with fut := x.fut.set 0 }

def next (s : State) : Act → State
  | .open g dir answer ready =>
    (s.addReader g dir answer).setGen g
      (({ fd := s.fdFor dir answer } : Gen).check ready)
  | .openRaises g => s.setGen g { s.gen g with phase := .closed }
  | .selectorRaises g dir answer =>
    -- this is before the `try`, and the reader stays
    (s.addReader g dir answer).setGen g { phase := .closed, fd := s.fdFor dir answer }
  | .advance g ready => s.setGen g ((s.gen g).check ready)
  | .wakeup fd =>
    match s.reader fd with
    | some g => s.setGen g (s.gen g).wakeup
    | none => s
  | .resume g ready => s.setGen g ((s.gen g).check ready)
  | .close g => (s.removeReader (s.gen g).fd).setGen g { s.gen g with phase := .closed }
  | .drop g => s.setGen g { s.gen g with phase := .closed }

/-- **The machine** of a socket's readiness generators on one loop. -/
def generators : Machine State Act where
  init := { gen := fun _ => {}, fd := fun _ => -1, reader := fun _ => none }
  Enabled := Enabled
  next := next

instance (s : State) (a : Act) : Decidable (generators.Enabled s a) :=
  inferInstanceAs (Decidable (Enabled s a))

@[simp] theorem setGen_gen_self (g : ℕ) (x : Gen) : (s.setGen g x).gen g = x := by
  simp [State.setGen]

theorem setGen_gen_of_ne {g h : ℕ} (hne : h ≠ g) (x : Gen) : (s.setGen g x).gen h = s.gen h := by
  simp [State.setGen, hne]

@[simp] theorem check_fd (ready : Bool) (x : Gen) : (x.check ready).fd = x.fd := by
  cases ready <;> rfl

end Ready

end PyNng
