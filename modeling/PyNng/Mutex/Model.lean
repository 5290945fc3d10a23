import PyNng.Common.Machine
import Mathlib.Data.Int.Notation
import Mathlib.Logic.Function.Basic
/-!
# Mutex — `DCGMutex`, one atomic operation at a time

`owner_` and `count_` are two atomics, and `lock`, `try_lock` and `unlock`
touch them in separate operations, so other threads see the states in
between. Every atomic operation is one step. Which call a thread makes
next is up to it; `unlock` may be called by any thread.

How often a thread took the mutex and gave it back is counted beside the
atomics: a lock is taken by the exchange that writes `owner_`, or by the
addition that makes it deeper, and given back by the subtraction that
leaves it shallower, or by the store that clears `owner_`.
-/

namespace PyNng

namespace DCGMutex

/-- The two ways to take the mutex. -/
inductive Taking
  | lock
  | tryLock
  deriving DecidableEq, Repr

inductive Call
  | take (how : Taking)
  | unlock
  deriving DecidableEq, Repr

/-- The atomic operation a thread comes to next. -/
inductive Pc
  /-- In none of the three functions. -/
  | idle
  /-- `owner_.compare_exchange_strong(expected, self)`. -/
  | exchange (how : Taking)
  /-- `count_.store(1)`. -/
  | storeOne (how : Taking)
  /-- `count_.fetch_add(1)`. -/
  | fetchAdd (how : Taking)
  /-- `owner_.load() != self`. -/
  | loadOwner
  /-- `count_.fetch_sub(1) == 1`. -/
  | fetchSub
  /-- `owner_.store(std::thread::id())`. -/
  | clearOwner
  deriving DecidableEq, Repr

structure State (T : Type*) where
  /-- `owner_`; `none` is `std::thread::id()`. -/
  owner : Option T
  /-- `count_`. -/
  count : ℤ
  pc : T → Pc
  /-- What the last `try_lock` of a thread returned, `none` while it runs. -/
  tried : T → Option Bool
  /-- Successful acquisitions. -/
  taken : T → ℕ
  /-- Effective releases. -/
  given : T → ℕ

variable {T : Type*} [DecidableEq T] {s : State T} {t u : T}

/-- More acquisitions than releases. -/
def State.Inside (s : State T) (t : T) : Prop := s.given t < s.taken t

instance (s : State T) (t : T) : Decidable (s.Inside t) :=
  inferInstanceAs (Decidable (s.given t < s.taken t))

/-- The nesting depth. -/
def State.depth (s : State T) (t : T) : ℕ := s.taken t - s.given t

inductive Act (T : Type*)
  | call (t : T) (f : Call)
  /-- The next atomic operation of the thread's call. -/
  | step (t : T)
  deriving DecidableEq, Repr

def State.setPc (t : T) (p : Pc) (s : State T) : State T :=
  { s with pc := Function.update s.pc t p }

def State.setTried (t : T) (b : Option Bool) (s : State T) : State T :=
  { s with tried := Function.update s.tried t b }

def State.addTaken (t : T) (s : State T) : State T :=
  { s with taken := Function.update s.taken t (s.taken t + 1) }

def State.addGiven (t : T) (s : State T) : State T :=
  { s with given := Function.update s.given t (s.given t + 1) }

/-- `lock` returns, or `try_lock` returns what it is told. -/
def State.returns (t : T) (how : Taking) (b : Bool) (s : State T) : State T :=
  match how with
  | .lock => s.setPc t .idle
  | .tryLock => (s.setTried t (some b)).setPc t .idle

/-- Neither the exchange nor the test of `expected` succeeded: `lock` goes
round its loop, `try_lock` gives up. -/
def State.refuse (t : T) (how : Taking) (s : State T) : State T :=
  match how with
  | .lock => s
  | .tryLock => s.returns t how false

/-- The compare-and-swap, which leaves the owner it saw in `expected`. -/
def State.exchange (t : T) (how : Taking) (s : State T) : State T :=
  if s.owner = none then
    (({ s with owner := some t } : State T).addTaken t).setPc t (.storeOne how)
  else if s.owner = some t then s.setPc t (.fetchAdd how)
  else s.refuse t how

/-- `fetch_sub` returns the count there was before. -/
def State.fetchSub (t : T) (s : State T) : State T :=
  if s.count = 1 then ({ s with count := s.count - 1 } : State T).setPc t .clearOwner
  else (({ s with count := s.count - 1 } : State T).addGiven t).setPc t .idle

def State.step (t : T) (s : State T) : State T :=
  match s.pc t with
  | .idle => s
  | .exchange how => s.exchange t how
  | .storeOne how => ({ s with count := 1 } : State T).returns t how true
  | .fetchAdd how => (({ s with count := s.count + 1 } : State T).addTaken t).returns t how true
  | .loadOwner => if s.owner = some t then s.setPc t .fetchSub else s.setPc t .idle
  | .fetchSub => s.fetchSub t
  | .clearOwner => (({ s with owner := none } : State T).addGiven t).setPc t .idle

/-- A call begins. -/
def State.start (t : T) (s : State T) : Call → State T
  | .take .lock => s.setPc t (.exchange .lock)
  | .take .tryLock => (s.setTried t none).setPc t (.exchange .tryLock)
  | .unlock => s.setPc t .loadOwner

def Enabled (s : State T) : Act T → Prop
  | .call t _ => s.pc t = .idle
  | .step t => s.pc t ≠ .idle

instance (s : State T) : ∀ a, Decidable (Enabled s a)
  | .call t _ => inferInstanceAs (Decidable (s.pc t = .idle))
  | .step t => inferInstanceAs (Decidable (s.pc t ≠ .idle))

def next (s : State T) : Act T → State T
  | .call t f => s.start t f
  | .step t => s.step t

/-- **The machine** of one mutex and the threads that use it. -/
def dcgMutex : Machine (State T) (Act T) where
  init := {
    owner := none
    count := 0
    pc := fun _ => .idle
    tried := fun _ => none
    taken := fun _ => 0
    given := fun _ => 0 }
  Enabled := Enabled
  next := next

instance (s : State T) (a : Act T) : Decidable (dcgMutex.Enabled s a) :=
  inferInstanceAs (Decidable (Enabled s a))

end DCGMutex

end PyNng
