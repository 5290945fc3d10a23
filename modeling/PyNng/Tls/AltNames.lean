import PyNng.Common.Machine
import Mathlib.Logic.Function.Basic
/-!
# Tls — `TlsCert.alt_names`

Any number of reads of the property of one certificate, in any order and
overlapping in any way. nng keeps the cursor in the certificate; a call of
`nng_tls_cert_next_alt` gives the name it stands at and advances it, or
gives `NNG_ENOENT` at the end, or fails with another error. The names and
`s.decode("utf-8", errors="replace")` are parameters.
-/

namespace PyNng

namespace AltNames

variable {Name Str : Type*}

def NNG_ENOENT : ℕ := 12

/-- Where a read stands. -/
inductive Pc (Str : Type*)
  | idle
  /-- `if self._alt_names_cache is not None`. -/
  | testing
  /-- `return list(self._alt_names_cache)`. -/
  | loading
  /-- In the loop, before `nng_tls_cert_next_alt`. -/
  | draining
  /-- `self._alt_names_cache = result`. -/
  | storing
  /-- `return list(result)`. -/
  | returning
  | returned (xs : List Str)
  /-- `NngError` of the code, by `check_err`. -/
  | raised (rv : ℕ)
  deriving DecidableEq, Repr

/-- **A read of the property**, with its `result`. -/
structure Read (Str : Type*) where
  pc : Pc Str := .idle
  result : List Str := []
  deriving DecidableEq, Repr

structure State (Str : Type*) where
  /-- nng's cursor: how many names it has passed. -/
  cursor : ℕ
  /-- `_alt_names_cache`. -/
  cache : Option (List Str)
  read : ℕ → Read Str

variable {s : State Str}

inductive Act
  | begin (r : ℕ)
  | test (r : ℕ)
  | load (r : ℕ)
  /-- nng gives a name, or `NNG_ENOENT`. -/
  | next (r : ℕ)
  /-- nng fails. -/
  | fail (r rv : ℕ)
  | store (r : ℕ)
  | ret (r : ℕ)
  deriving DecidableEq, Repr

def State.setRead (r : ℕ) (x : Read Str) (s : State Str) : State Str :=
  { s with read := Function.update s.read r x }

def State.setPc (r : ℕ) (p : Pc Str) (s : State Str) : State Str :=
  s.setRead r { s.read r with pc := p }

/-- `rv = nng_tls_cert_next_alt(self._ptr, &s)` where nng does not fail, with
the `break` or `result.append(...)`. -/
def State.nextAlt (names : List Name) (decode : Name → Str) (r : ℕ) (s : State Str) :
    State Str :=
  match names[s.cursor]? with
  | some name =>
    ({ s with cursor := s.cursor + 1 } : State Str).setRead r
      { s.read r with result := (s.read r).result ++ [decode name] }
  | none => s.setPc r .storing

/-- The test of the cache. A certificate's `_ptr` is not NULL, and
`_require_valid` passes. -/
def State.test (r : ℕ) (s : State Str) : State Str :=
  if s.cache = none then s.setPc r .draining else s.setPc r .loading

def State.load (r : ℕ) (s : State Str) : State Str :=
  match s.cache with
  | some xs => s.setPc r (.returned xs)
  | none => s

def Enabled (s : State Str) : Act → Prop
  | .begin r => (s.read r).pc = .idle
  | .test r => (s.read r).pc = .testing
  | .load r => (s.read r).pc = .loading
  | .next r => (s.read r).pc = .draining
  | .fail r rv => (s.read r).pc = .draining ∧ rv ≠ 0 ∧ rv ≠ NNG_ENOENT
  | .store r => (s.read r).pc = .storing
  | .ret r => (s.read r).pc = .returning

instance [DecidableEq Str] (s : State Str) (a : Act) : Decidable (Enabled s a) := by
  cases a <;> unfold Enabled <;> infer_instance

def next (names : List Name) (decode : Name → Str) (s : State Str) : Act → State Str
  | .begin r => s.setPc r .testing
  | .test r => s.test r
  | .load r => s.load r
  | .next r => s.nextAlt names decode r
  | .fail r rv => s.setPc r (.raised rv)
  | .store r => ({ s with cache := some (s.read r).result } : State Str).setPc r .returning
  | .ret r => s.setPc r (.returned (s.read r).result)

/-- **The machine** of the reads of one certificate's alternative names. -/
def reads (names : List Name) (decode : Name → Str) : Machine (State Str) Act where
  init := { cursor := 0, cache := none, read := fun _ => {} }
  Enabled := Enabled
  next := next names decode

instance [DecidableEq Str] (names : List Name) (decode : Name → Str) (s : State Str) (a : Act) :
    Decidable ((reads names decode).Enabled s a) :=
  inferInstanceAs (Decidable (Enabled s a))

/-! ## What a step leaves alone -/

variable {r r' : ℕ} {x : Read Str} {p : Pc Str}

@[simp] theorem setRead_read_self (s : State Str) : (s.setRead r x).read r = x :=
  Function.update_self ..

@[simp] theorem setPc_read_self (s : State Str) :
    (s.setPc r p).read r = { s.read r with pc := p } :=
  Function.update_self ..

theorem setRead_read_of_ne (h : r' ≠ r) (s : State Str) : (s.setRead r x).read r' = s.read r' :=
  Function.update_of_ne h _ _

theorem setPc_read_of_ne (h : r' ≠ r) (s : State Str) : (s.setPc r p).read r' = s.read r' :=
  Function.update_of_ne h _ _

@[simp] theorem setPc_cursor (s : State Str) : (s.setPc r p).cursor = s.cursor := rfl

@[simp] theorem setPc_cache (s : State Str) : (s.setPc r p).cache = s.cache := rfl

theorem setPc_result (s : State Str) : ((s.setPc r p).read r').result = (s.read r').result := by
  by_cases h : r' = r
  · rw [h, setPc_read_self]
  · rw [setPc_read_of_ne h]

end AltNames

end PyNng
