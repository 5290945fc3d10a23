import PyNng.Common.Machine
import PyNng.Common.UniqueLock
/-!
# Message — `__eq__` and the locks of the two messages

Any number of threads in `Message.__eq__`, statement by statement, with
the two `unique_lock`s it declares, and other code that holds the locks of
messages or sends them. A message stands for the address of its `_lock`,
by which the slow path orders the two. The GIL is left out: the
interleavings it would forbid are in the model too.

How the two locks are constructed is a parameter, `associate`: the code
declares them and never gives them a mutex.
-/

namespace PyNng

namespace Equality

variable {T : Type*} [DecidableEq T]

/-! ## The model -/

/-- How a comparison ends. -/
inductive Outcome
  | returned (equal : Bool)
  /-- `NngClosed`, of `_check_validity`. -/
  | closed
  /-- `std::system_error`, which `unique_lock` is not declared to raise. -/
  | systemError (e : LockError)
  deriving DecidableEq, Repr

/-- Where a comparison stands. -/
inductive Pc
  | idle
  /-- Both are messages; `lock1.try_lock()` is next. -/
  | begun
  /-- `lock2.try_lock()`. -/
  | triedFirst
  /-- `if not lock1_acquired or not lock2_acquired`. -/
  | triedSecond
  /-- `if lock1_acquired: lock1.unlock()`. -/
  | releasingFirst
  | releasingSecond
  /-- The first `lock()` of the slow path. -/
  | locking
  | lockingSecond
  | checkingSelf
  | checkingOther
  /-- `self._handle == o._handle`. -/
  | comparing
  | ended (r : Outcome)
  deriving DecidableEq, Repr

/-- **A call of `__eq__`.** -/
structure Frame where
  pc : Pc := .idle
  self : ℕ := 0
  other : ℕ := 0
  lock1 : UniqueLock ℕ := {}
  lock2 : UniqueLock ℕ := {}
  lock1Acquired : Bool := false
  lock2Acquired : Bool := false
  deriving DecidableEq, Repr

structure State (T : Type*) where
  /-- `_lock` of each message. -/
  locks : ℕ → RecMutex T
  /-- The body of each message; `none` once its handle is empty. -/
  msg : ℕ → Option (List UInt8)
  frame : T → Frame

variable {s : State T} {t : T}

/-- **`MessageHandle::operator==`**: one handle, both empty, or equal bodies. -/
def handleEq (msg : ℕ → Option (List UInt8)) (a b : ℕ) : Bool :=
  if a = b then true
  else match msg a, msg b with
  | none, none => true
  | some x, some y => decide (x.length = y.length) && decide (x = y)
  | _, _ => false

def State.setFrame (t : T) (f : Frame) (s : State T) : State T :=
  { s with frame := Function.update s.frame t f }

/-- The call is left: both locks are destroyed. -/
def State.leave (t : T) (r : Outcome) (s : State T) : State T :=
  { s with
    locks := (s.frame t).lock1.destroy t ((s.frame t).lock2.destroy t s.locks) }.setFrame t
    { s.frame t with pc := .ended r, lock1 := {}, lock2 := {} }

/-- An operation on `lock1`, and where the call goes on. -/
def State.onFirst (t : T) (op : UniqueLock ℕ → T → (ℕ → RecMutex T) →
    Except LockError (UniqueLock ℕ × (ℕ → RecMutex T))) (k : UniqueLock ℕ → Frame → Frame)
    (s : State T) : State T :=
  match op (s.frame t).lock1 t s.locks with
  | .error e => s.leave t (.systemError e)
  | .ok (u, locks) => { s with locks }.setFrame t (k u { s.frame t with lock1 := u })

/-- The same on `lock2`. -/
def State.onSecond (t : T) (op : UniqueLock ℕ → T → (ℕ → RecMutex T) →
    Except LockError (UniqueLock ℕ × (ℕ → RecMutex T))) (k : UniqueLock ℕ → Frame → Frame)
    (s : State T) : State T :=
  match op (s.frame t).lock2 t s.locks with
  | .error e => s.leave t (.systemError e)
  | .ok (u, locks) => { s with locks }.setFrame t (k u { s.frame t with lock2 := u })

/-- `_check_validity` of a message. -/
def State.check (t : T) (m : ℕ) (pc : Pc) (s : State T) : State T :=
  match s.msg m with
  | none => s.leave t .closed
  | some _ => s.setFrame t { s.frame t with pc }

/-- The lock of the lower address is taken first. -/
def Frame.firstIsLower (f : Frame) : Bool := decide (f.self < f.other)

/-- **The next statement of `__eq__`.** -/
def State.step (t : T) (s : State T) : State T :=
  let f := s.frame t
  match f.pc with
  | .begun =>
    s.onFirst t UniqueLock.tryLock fun u f => { f with pc := .triedFirst, lock1Acquired := u.owns }
  | .triedFirst =>
    s.onSecond t UniqueLock.tryLock fun u f =>
      { f with pc := .triedSecond, lock2Acquired := u.owns }
  | .triedSecond =>
    s.setFrame t
      { f with pc := if !f.lock1Acquired || !f.lock2Acquired then .releasingFirst
                     else .checkingSelf }
  | .releasingFirst =>
    if f.lock1Acquired then
      s.onFirst t UniqueLock.unlock fun _ f => { f with pc := .releasingSecond }
    else s.setFrame t { f with pc := .releasingSecond }
  | .releasingSecond =>
    if f.lock2Acquired then s.onSecond t UniqueLock.unlock fun _ f => { f with pc := .locking }
    else s.setFrame t { f with pc := .locking }
  | .locking =>
    if f.firstIsLower then
      s.onFirst t UniqueLock.lock fun _ f => { f with pc := .lockingSecond }
    else s.onSecond t UniqueLock.lock fun _ f => { f with pc := .lockingSecond }
  | .lockingSecond =>
    if f.firstIsLower then
      s.onSecond t UniqueLock.lock fun _ f => { f with pc := .checkingSelf }
    else s.onFirst t UniqueLock.lock fun _ f => { f with pc := .checkingSelf }
  | .checkingSelf => s.check t f.self .checkingOther
  | .checkingOther => s.check t f.other .comparing
  | .comparing => s.leave t (.returned (handleEq s.msg f.self f.other))
  | .idle | .ended _ => s

/-- The statement is a `lock()` that has to wait. -/
def State.waits (t : T) (s : State T) : Bool :=
  let f := s.frame t
  match f.pc with
  | .locking =>
    if f.firstIsLower then f.lock1.blocked t s.locks else f.lock2.blocked t s.locks
  | .lockingSecond =>
    if f.firstIsLower then f.lock2.blocked t s.locks else f.lock1.blocked t s.locks
  | _ => false

def Pc.running : Pc → Bool
  | .idle | .ended _ => false
  | _ => true

inductive Act (T : Type*)
  /-- The thread evaluates `a == b` for two messages. -/
  | begin (t : T) (a b : ℕ)
  | step (t : T)
  /-- Other code of the thread locks a message. -/
  | hold (t : T) (m : ℕ)
  | letGo (t : T) (m : ℕ)
  /-- The thread sends the message, under its lock. -/
  | steal (t : T) (m : ℕ)
  deriving DecidableEq, Repr

def Enabled (s : State T) : Act T → Prop
  | .begin t _ _ => (s.frame t).pc.running = false
  | .step t => (s.frame t).pc.running = true ∧ s.waits t = false
  | .hold t m => (s.frame t).pc.running = false ∧ (s.locks m).available t = true
  | .letGo t m => (s.frame t).pc.running = false ∧ (s.locks m).owner = some t
  | .steal t m => (s.frame t).pc.running = false ∧ (s.locks m).owner = some t

instance (s : State T) (a : Act T) : Decidable (Enabled s a) := by
  cases a <;> unfold Enabled <;> infer_instance

section Next

variable (associate : ℕ → Option ℕ)

def next (s : State T) : Act T → State T
  | .begin t a b =>
    s.setFrame t
      { pc := .begun, self := a, other := b, lock1 := { mutex := associate a },
        lock2 := { mutex := associate b } }
  | .step t => s.step t
  | .hold t m => { s with locks := Function.update s.locks m ((s.locks m).acquire t) }
  | .letGo t m => { s with locks := Function.update s.locks m ((s.locks m).unlock t) }
  | .steal _ m => { s with msg := Function.update s.msg m none }

/-- **The machine** of the comparisons, from the given bodies on. -/
def comparisons (T : Type*) [DecidableEq T] (msg : ℕ → Option (List UInt8)) :
    Machine (State T) (Act T) where
  init := { locks := fun _ => {}, msg, frame := fun _ => {} }
  Enabled := Enabled
  next := next associate

end Next

/-- `cdef unique_lock[DCGMutex] lock1, lock2`: default-constructed. -/
def declared : ℕ → Option ℕ := fun _ => none

instance (associate : ℕ → Option ℕ) (msg : ℕ → Option (List UInt8)) (s : State T) (a : Act T) :
    Decidable ((comparisons associate T msg).Enabled s a) :=
  inferInstanceAs (Decidable (Enabled s a))

end Equality

end PyNng
