import Mathlib.Logic.Function.Basic
import Mathlib.Data.Nat.Notation
/-!
# Common — recursive mutexes and `std::unique_lock`

A recursive mutex has an owner and counts how often it was locked. A
unique lock is associated with one mutex or with none, and may own it.
Locking and unlocking through it raise an error where the standard says
that they throw: without a mutex, twice, or where nothing is owned.
-/

namespace PyNng

/-- **A recursive mutex.** -/
structure RecMutex (T : Type*) where
  owner : Option T := none
  count : ℕ := 0
  deriving DecidableEq, Repr

namespace RecMutex

variable {T : Type*} [DecidableEq T]

/-- The thread may lock it now. -/
def available (m : RecMutex T) (t : T) : Bool := decide (m.owner = none ∨ m.owner = some t)

/-- `lock`, and `try_lock` that returns true. -/
def acquire (m : RecMutex T) (t : T) : RecMutex T := ⟨some t, m.count + 1⟩

/-- `unlock`, which does nothing on another thread's mutex. -/
def unlock (m : RecMutex T) (t : T) : RecMutex T :=
  if m.owner ≠ some t then m
  else if m.count ≤ 1 then {} else ⟨some t, m.count - 1⟩

variable {m : RecMutex T} {t u : T}

/-- How often the thread has it locked. -/
def share (m : RecMutex T) (t : T) : ℕ := if m.owner = some t then m.count else 0

/-- It is free when it is not locked at all. -/
def WellFormed (m : RecMutex T) : Prop := m.owner = none ↔ m.count = 0

omit [DecidableEq T] in
theorem wellFormed_free : (({} : RecMutex T)).WellFormed := ⟨fun _ => rfl, fun _ => rfl⟩

theorem share_of_owner (ho : m.owner = some t) : m.share t = m.count := if_pos ho

theorem share_of_ne (ho : m.owner ≠ some t) : m.share t = 0 := if_neg ho

theorem owner_of_share (h : 0 < m.share t) : m.owner = some t := by
  by_contra ho
  rw [share_of_ne ho] at h
  exact Nat.lt_irrefl 0 h

/-- **Owning it is having it locked.** -/
theorem WellFormed.share_pos (hm : m.WellFormed) (ho : m.owner = some t) : 0 < m.share t := by
  rw [share_of_owner ho]
  refine Nat.pos_of_ne_zero fun hc => ?_
  rw [hm.mpr hc] at ho
  simp at ho

omit [DecidableEq T] in
theorem wellFormed_acquire (m : RecMutex T) (t : T) : (m.acquire t).WellFormed := by
  unfold WellFormed acquire
  simp

theorem WellFormed.unlock (hm : m.WellFormed) (t : T) : (m.unlock t).WellFormed := by
  unfold RecMutex.unlock
  split
  · exact hm
  · split
    · exact wellFormed_free
    · unfold WellFormed
      simp only [reduceCtorEq, false_iff]
      omega

theorem WellFormed.share_acquire (hm : m.WellFormed) (h : m.available t = true) :
    (m.acquire t).share t = m.share t + 1 := by
  rw [share_of_owner (m := m.acquire t) rfl]
  rcases of_decide_eq_true h with ho | ho
  · rw [share_of_ne (by rw [ho]; simp)]
    exact congrArg (· + 1) (hm.mp ho)
  · rw [share_of_owner ho]
    rfl

theorem share_acquire_of_ne (h : m.available t = true) (hu : u ≠ t) :
    (m.acquire t).share u = m.share u := by
  have hne : some t ≠ some u := fun he => hu (Option.some.inj he).symm
  rw [share_of_ne (m := m.acquire t) hne]
  rcases of_decide_eq_true h with ho | ho
  · rw [share_of_ne (by rw [ho]; simp)]
  · rw [share_of_ne (by rw [ho]; exact hne)]

theorem share_unlock (m : RecMutex T) (t : T) : (m.unlock t).share t = m.share t - 1 := by
  unfold unlock
  by_cases ho : m.owner = some t
  · rw [if_neg (fun h => h ho), share_of_owner ho]
    by_cases hc : m.count ≤ 1
    · rw [if_pos hc, share_of_ne (by simp)]
      omega
    · rw [if_neg hc]
      exact share_of_owner rfl
  · rw [if_pos ho, share_of_ne ho]

theorem share_unlock_of_ne (m : RecMutex T) (hu : u ≠ t) : (m.unlock t).share u = m.share u := by
  have hne : some t ≠ some u := fun he => hu (Option.some.inj he).symm
  unfold unlock
  by_cases ho : m.owner = some t
  · rw [if_neg (fun h => h ho), share_of_ne (m := m) (by rw [ho]; exact hne)]
    split
    · exact share_of_ne (by simp)
    · exact share_of_ne hne
  · rw [if_pos ho]

/-- A thread that cannot lock it finds another one's. -/
theorem owner_of_not_available (h : m.available t = false) : ∃ u, u ≠ t ∧ m.owner = some u := by
  obtain ⟨hnone, hne⟩ := not_or.mp (of_decide_eq_false h)
  obtain ⟨u, ho⟩ := Option.ne_none_iff_exists'.mp hnone
  refine ⟨u, ?_, ho⟩
  rintro rfl
  exact hne ho

end RecMutex

/-- **`std::unique_lock`**: the mutex it is associated with, and `owns_lock`. -/
structure UniqueLock (M : Type*) where
  mutex : Option M := none
  owns : Bool := false
  deriving DecidableEq, Repr

/-- `std::system_error`. -/
inductive LockError
  | operationNotPermitted
  | resourceDeadlockWouldOccur
  deriving DecidableEq, Repr

namespace UniqueLock

variable {T M : Type*} [DecidableEq T] [DecidableEq M] {u : UniqueLock M} {t : T}
variable {locks : M → RecMutex T}

/-- What `lock` and `try_lock` find out first. -/
def lockable (u : UniqueLock M) : Except LockError M :=
  match u.mutex with
  | none => .error .operationNotPermitted
  | some m => if u.owns then .error .resourceDeadlockWouldOccur else .ok m

/-- `lock()` has to wait. -/
def blocked (u : UniqueLock M) (t : T) (locks : M → RecMutex T) : Bool :=
  match u.lockable with
  | .error _ => false
  | .ok m => !(locks m).available t

/-- **`lock`**, where it does not have to wait. -/
def lock (u : UniqueLock M) (t : T) (locks : M → RecMutex T) :
    Except LockError (UniqueLock M × (M → RecMutex T)) :=
  match u.lockable with
  | .error e => .error e
  | .ok m => .ok ({ u with owns := true }, Function.update locks m ((locks m).acquire t))

/-- **`try_lock`**; what it returns is `owns` of the lock after it. -/
def tryLock (u : UniqueLock M) (t : T) (locks : M → RecMutex T) :
    Except LockError (UniqueLock M × (M → RecMutex T)) :=
  if u.blocked t locks then .ok (u, locks) else u.lock t locks

/-- **`unlock`.** -/
def unlock (u : UniqueLock M) (t : T) (locks : M → RecMutex T) :
    Except LockError (UniqueLock M × (M → RecMutex T)) :=
  match u.mutex with
  | some m =>
    if u.owns then .ok ({ u with owns := false }, Function.update locks m ((locks m).unlock t))
    else .error .operationNotPermitted
  | none => .error .operationNotPermitted

/-- **The destructor**, which unlocks what is owned. -/
def destroy (u : UniqueLock M) (t : T) (locks : M → RecMutex T) : M → RecMutex T :=
  match u.unlock t locks with
  | .ok (_, locks) => locks
  | .error _ => locks

omit [DecidableEq M] in
/-- A lock that is associated with no mutex cannot be locked. -/
theorem lockable_of_mutex_none (h : u.mutex = none) :
    u.lockable = .error .operationNotPermitted := by
  unfold lockable
  rw [h]

/-- **Locking through it throws at once.** -/
theorem tryLock_of_mutex_none (h : u.mutex = none) :
    u.tryLock t locks = .error .operationNotPermitted := by
  unfold tryLock blocked lock
  rw [lockable_of_mutex_none h]
  rfl

/-! A lock on a mutex that it does not own, and one that it owns. -/

omit [DecidableEq M] in
theorem blocked_deferred (m : M) (t : T) (locks : M → RecMutex T) :
    (⟨some m, false⟩ : UniqueLock M).blocked t locks = !(locks m).available t := rfl

omit [DecidableEq T] in
theorem lock_deferred (m : M) (t : T) (locks : M → RecMutex T) :
    (⟨some m, false⟩ : UniqueLock M).lock t locks =
      .ok (⟨some m, true⟩, Function.update locks m ((locks m).acquire t)) := rfl

theorem tryLock_deferred (m : M) (t : T) (locks : M → RecMutex T) :
    (⟨some m, false⟩ : UniqueLock M).tryLock t locks =
      if (locks m).available t then
        .ok (⟨some m, true⟩, Function.update locks m ((locks m).acquire t))
      else .ok (⟨some m, false⟩, locks) := by
  unfold tryLock
  rw [blocked_deferred, lock_deferred]
  cases (locks m).available t <;> rfl

theorem unlock_owning (m : M) (t : T) (locks : M → RecMutex T) :
    (⟨some m, true⟩ : UniqueLock M).unlock t locks =
      .ok (⟨some m, false⟩, Function.update locks m ((locks m).unlock t)) := rfl

theorem destroy_of_not_owns (h : u.owns = false) : u.destroy t locks = locks := by
  unfold destroy unlock
  cases u.mutex with
  | none => rfl
  | some m =>
    dsimp only
    rw [h]
    rfl

theorem destroy_of_mutex_none (h : u.mutex = none) : u.destroy t locks = locks := by
  unfold destroy unlock
  rw [h]

end UniqueLock

end PyNng
