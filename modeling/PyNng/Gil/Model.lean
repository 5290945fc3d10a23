import PyNng.Common.Machine
import PyNng.Common.UniqueLock
import Mathlib.Order.Defs.PartialOrder
/-!
# Gil — `lock_gil_friendly`

Any number of threads, the GIL and any number of mutexes. A thread that
holds the GIL takes mutexes through `lock_gil_friendly`, gives the GIL
away and retakes it as it likes, and unlocks when it likes; it leaves
when it holds none. The mutexes are ordered, and what a thread takes is
above all it holds, or one of them again.

The operations of a mutex are one step each (`refines_recMutex`). A
thread in `lock()` that finds the mutex taken spins, which is a step that
changes nothing.
-/

namespace PyNng

namespace Gil

variable {T M : Type*}

/-- Where a thread stands. -/
inductive Pc
  | outside
  /-- It came and waits for the GIL. -/
  | starting
  /-- In the caller's code, with the GIL. -/
  | running
  /-- In a `with nogil` of the caller. -/
  | released
  /-- At the end of it, waiting for the GIL. -/
  | returning
  /-- `if m.try_lock()`. -/
  | trying
  /-- Entering `with nogil`. -/
  | dropping
  /-- `m.lock()`. -/
  | locking
  /-- `m.unlock()`. -/
  | unlocking
  /-- At the end of `with nogil`, waiting for the GIL. -/
  | retaking
  /-- `locked = m.try_lock()`. -/
  | retrying
  /-- A `std::system_error`, which nothing catches. -/
  | threw
  deriving DecidableEq, Repr

/-- The thread has the GIL there. -/
def Pc.hasGil : Pc → Bool
  | .running | .trying | .dropping | .retrying => true
  | .outside | .starting | .released | .returning | .locking | .unlocking | .retaking
  | .threw => false

/-- The thread waits for the GIL there. -/
def Pc.wantsGil : Pc → Bool
  | .starting | .returning | .retaking => true
  | .outside | .running | .released | .trying | .dropping | .locking | .unlocking | .retrying
  | .threw => false

/-- Where a thread goes that got the GIL it waited for. -/
def Pc.withGil : Pc → Pc
  | .retaking => .retrying
  | .outside | .starting | .running | .released | .returning | .trying | .dropping | .locking
  | .unlocking | .retrying | .threw => .running

/-- **A thread**: the `m` of the call it is in, and the other `unique_lock`s
it has. -/
structure Thread (M : Type*) where
  pc : Pc := .outside
  lock : UniqueLock M := {}
  held : List (UniqueLock M) := []
  deriving DecidableEq, Repr

structure State (T M : Type*) where
  gil : Option T
  locks : M → RecMutex T
  thread : T → Thread M

inductive Act (T M : Type*)
  | start (t : T)
  | takeGil (t : T)
  /-- The caller gives the GIL away, with whatever it holds. -/
  | releaseGil (t : T)
  /-- It wants it back. -/
  | wantGil (t : T)
  /-- `lock_gil_friendly`, with a new `unique_lock` or with one it has. -/
  | call (t : T) (u : UniqueLock M) (m : M)
  /-- `try_lock`, of the fast path or of the loop. -/
  | tryLock (t : T)
  | dropGil (t : T)
  | lock (t : T)
  /-- The loop of `lock` on a mutex that is taken. -/
  | spin (t : T)
  | unlock (t : T)
  /-- The caller calls `unlock()`. -/
  | release (t : T) (u : UniqueLock M)
  /-- A `unique_lock` goes out of scope. -/
  | destroy (t : T) (u : UniqueLock M)
  | finish (t : T)
  deriving DecidableEq, Repr

/-- All that is owned is below the mutex. -/
def Below [LT M] (held : List (UniqueLock M)) (m : M) : Prop :=
  ∀ v ∈ held, v.owns = true → ∀ m' ∈ v.mutex, m' < m

/-- The order in which mutexes are nested: above all that are held, or again. -/
def MayNest [LT M] (held : List (UniqueLock M)) (m : M) : Prop :=
  ⟨some m, true⟩ ∈ held ∨ Below held m

variable [DecidableEq T] [DecidableEq M]

instance [LT M] [DecidableLT M] (held : List (UniqueLock M)) (m : M) : Decidable (Below held m) :=
  inferInstanceAs (Decidable (∀ v ∈ held, v.owns = true → ∀ m' ∈ v.mutex, m' < m))

instance [LT M] [DecidableLT M] (held : List (UniqueLock M)) (m : M) :
    Decidable (MayNest held m) :=
  inferInstanceAs (Decidable (⟨some m, true⟩ ∈ held ∨ Below held m))

def Enabled [LT M] (s : State T M) : Act T M → Prop
  | .start t => (s.thread t).pc = .outside
  | .takeGil t => (s.thread t).pc.wantsGil = true ∧ s.gil = none
  | .releaseGil t => (s.thread t).pc = .running
  | .wantGil t => (s.thread t).pc = .released
  | .call t u m => (s.thread t).pc = .running ∧ (u = {} ∨ u ∈ (s.thread t).held) ∧
      MayNest ((s.thread t).held.erase u) m
  | .tryLock t => (s.thread t).pc = .trying ∨ (s.thread t).pc = .retrying
  | .dropGil t => (s.thread t).pc = .dropping
  | .lock t => (s.thread t).pc = .locking ∧ (s.thread t).lock.blocked t s.locks = false
  | .spin t => (s.thread t).pc = .locking ∧ (s.thread t).lock.blocked t s.locks = true
  | .unlock t => (s.thread t).pc = .unlocking
  | .release t u => ((s.thread t).pc = .running ∨ (s.thread t).pc = .released) ∧
      u ∈ (s.thread t).held ∧ u.owns = true
  | .destroy t u => ((s.thread t).pc = .running ∨ (s.thread t).pc = .released) ∧
      u ∈ (s.thread t).held
  | .finish t => (s.thread t).pc = .running ∧ (s.thread t).held = []

instance [LT M] [DecidableLT M] (s : State T M) (a : Act T M) : Decidable (Enabled s a) := by
  cases a <;> unfold Enabled <;> infer_instance

def State.setThread (t : T) (x : Thread M) (s : State T M) : State T M :=
  { s with thread := Function.update s.thread t x }

def State.setPc (t : T) (p : Pc) (s : State T M) : State T M :=
  s.setThread t { s.thread t with pc := p }

/-- `m = unique_lock[DCGMutex](mutex, defer_lock_t())`, which unlocks what `m`
owned. -/
def State.call (t : T) (u : UniqueLock M) (m : M) (s : State T M) : State T M :=
  ({ s with locks := u.destroy t s.locks } : State T M).setThread t
    ⟨.trying, ⟨some m, false⟩, (s.thread t).held.erase u⟩

/-- **`try_lock`**: where it returns true so does `lock_gil_friendly`. -/
def State.tryLock (t : T) (s : State T M) : State T M :=
  match (s.thread t).lock.tryLock t s.locks with
  | .error _ => s.setPc t .threw
  | .ok (u, locks) =>
    ({ s with locks } : State T M).setThread t
      (if u.owns then ⟨.running, {}, u :: (s.thread t).held⟩
        else ⟨.dropping, u, (s.thread t).held⟩)

/-- `m.lock()`, on a mutex the thread can have. -/
def State.lock (t : T) (s : State T M) : State T M :=
  match (s.thread t).lock.lock t s.locks with
  | .error _ => s.setPc t .threw
  | .ok (u, locks) =>
    ({ s with locks } : State T M).setThread t ⟨.unlocking, u, (s.thread t).held⟩

/-- `m.unlock()`, in the loop. -/
def State.unlock (t : T) (s : State T M) : State T M :=
  match (s.thread t).lock.unlock t s.locks with
  | .error _ => s.setPc t .threw
  | .ok (u, locks) =>
    ({ s with locks } : State T M).setThread t ⟨.retaking, u, (s.thread t).held⟩

/-- `unlock()` of a lock that the caller has. -/
def State.release (t : T) (u : UniqueLock M) (s : State T M) : State T M :=
  match u.unlock t s.locks with
  | .error _ => s.setPc t .threw
  | .ok (u', locks) =>
    ({ s with locks } : State T M).setThread t
      { s.thread t with held := u' :: (s.thread t).held.erase u }

def State.destroy (t : T) (u : UniqueLock M) (s : State T M) : State T M :=
  ({ s with locks := u.destroy t s.locks } : State T M).setThread t
    { s.thread t with held := (s.thread t).held.erase u }

def next (s : State T M) : Act T M → State T M
  | .start t => s.setPc t .starting
  | .takeGil t => ({ s with gil := some t } : State T M).setPc t (s.thread t).pc.withGil
  | .releaseGil t => ({ s with gil := none } : State T M).setPc t .released
  | .wantGil t => s.setPc t .returning
  | .call t u m => s.call t u m
  | .tryLock t => s.tryLock t
  | .dropGil t => ({ s with gil := none } : State T M).setPc t .locking
  | .lock t => s.lock t
  | .spin _ => s
  | .unlock t => s.unlock t
  | .release t u => s.release t u
  | .destroy t u => s.destroy t u
  | .finish t => ({ s with gil := none } : State T M).setPc t .outside

/-- **The machine** of the threads, the GIL and the mutexes. -/
def threads (T M : Type*) [DecidableEq T] [DecidableEq M] [LT M] :
    Machine (State T M) (Act T M) where
  init := { gil := none, locks := fun _ => {}, thread := fun _ => {} }
  Enabled := Enabled
  next := next

instance [LT M] [DecidableLT M] (s : State T M) (a : Act T M) :
    Decidable ((threads T M).Enabled s a) :=
  inferInstanceAs (Decidable (Enabled s a))

end Gil

end PyNng
