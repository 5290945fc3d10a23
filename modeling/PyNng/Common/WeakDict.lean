import Mathlib.Data.Nat.Notation
/-!
# Common — a dictionary of weak values

A `WeakValueDictionary`, by its keys. A value that is freed takes its key
out, at once where nobody iterates; while an iteration goes on the removal
is put off (`pending`) and committed by the next operation that reads or
writes the dictionary, or by the end of the iteration. Frees alone then
leave the size an iterator checks as it is (`size_after_frees`), whereas a
new key, or an operation that commits, does not.
-/

namespace PyNng

/-- What some thread does to the dictionary. -/
inductive WeakOp (Key : Type*)
  /-- A value is stored under the key. -/
  | set (key : Key)
  /-- A key is looked up. -/
  | get
  /-- The value under the key is freed. -/
  | free (key : Key)
  deriving DecidableEq, Repr

/-- The dictionary's keys. -/
structure WeakDict (Key : Type*) where
  /-- The keys of `data`, in insertion order. -/
  data : List Key
  /-- Those whose values are gone. -/
  dead : List Key
  /-- `_pending_removals`. -/
  pending : List Key
  /-- `_iterating` is not empty. -/
  iterating : Bool
  deriving DecidableEq, Repr

namespace WeakDict

variable {Key : Type*} [DecidableEq Key] {d : WeakDict Key} {key : Key}

/-- The dictionary with these keys, their values alive. -/
def ofKeys (data : List Key) : WeakDict Key :=
  { data, dead := [], pending := [], iterating := false }

/-- The size an iterator compares. -/
def size (d : WeakDict Key) : ℕ := d.data.length

/-- `_remove_dead_weakref`: the key goes if its value is gone. -/
def removeDead (d : WeakDict Key) (key : Key) : WeakDict Key :=
  if key ∈ d.dead then { d with data := d.data.erase key, dead := d.dead.erase key } else d

/-- `_commit_removals`, which pops the keys from the end. -/
def commitRemovals (d : WeakDict Key) : WeakDict Key :=
  { d.pending.reverse.foldl removeDead d with pending := [] }

def step (d : WeakDict Key) : WeakOp Key → WeakDict Key
  | .set key =>
    let d := d.commitRemovals
    { d with
      data := if key ∈ d.data then d.data else d.data ++ [key]
      dead := d.dead.erase key }
  | .get => d.commitRemovals
  | .free key =>
    if key ∈ d.data ∧ key ∉ d.dead then
      if d.iterating then { d with dead := key :: d.dead, pending := d.pending ++ [key] }
      else { d with data := d.data.erase key }
    else d

/-- The operations one after the other. -/
def after (d : WeakDict Key) (ops : List (WeakOp Key)) : WeakDict Key := ops.foldl step d

/-- An iteration begins: what is pending is committed first. -/
def beginIteration (d : WeakDict Key) : WeakDict Key := { d.commitRemovals with iterating := true }

/-- It ends, by whatever way. -/
def endIteration (d : WeakDict Key) : WeakDict Key :=
  ({ d with iterating := false } : WeakDict Key).commitRemovals

@[simp] theorem after_nil : d.after [] = d := rfl

@[simp] theorem after_append (ops ops' : List (WeakOp Key)) :
    d.after (ops ++ ops') = (d.after ops).after ops' := List.foldl_append ..

/-! ## What changes the size -/

/-- A free under an iteration puts its removal off. -/
theorem step_free (hd : d.iterating = true) (key : Key) :
    (d.step (.free key)).size = d.size ∧ (d.step (.free key)).iterating = true := by
  unfold step
  dsimp only
  rw [if_pos hd]
  split
  · exact ⟨rfl, hd⟩
  · exact ⟨rfl, hd⟩

/-- **Values may be freed under an iteration** without its noticing. -/
theorem size_after_frees (hd : d.iterating = true) {ops : List (WeakOp Key)}
    (hops : ∀ op ∈ ops, ∃ key, op = .free key) :
    (d.after ops).size = d.size ∧ (d.after ops).iterating = true := by
  induction ops generalizing d with
  | nil => exact ⟨rfl, hd⟩
  | cons op ops ih =>
    obtain ⟨key, rfl⟩ := hops op List.mem_cons_self
    obtain ⟨hsize, hit⟩ := step_free hd key
    obtain ⟨hrest, hit'⟩ := ih hit fun op hop => hops op (List.mem_cons_of_mem _ hop)
    exact ⟨hrest.trans hsize, hit'⟩

end WeakDict

end PyNng
