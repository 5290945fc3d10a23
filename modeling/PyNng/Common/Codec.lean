import PyNng.Common.Machine
import Mathlib.Algebra.Ring.Nat
import Mathlib.Data.List.Basic
/-!
# Common — values of fixed width, one after another

A codec writes a value of a kind as a number of symbols that the kind alone
fixes. Fields written one after another need nothing between them: whoever
knows the kinds takes them off either end again. The symbols and the kinds
determine the fields (`encodeAll_inj`), and any symbols of the right number
are those of some fields (`exists_fields`).

`deque` is what the fields are to whoever adds and takes them: a list that
grows at the back and is taken from at both ends.
-/

namespace PyNng

/-- **A codec** for values of several kinds. -/
structure Codec (Kind Value Symbol : Type*) where
  width : Kind → ℕ
  /-- The values of the kind. -/
  Fits : Kind → Value → Prop
  encode : Kind → Value → List Symbol
  decode : Kind → List Symbol → Value
  length_encode : ∀ k v, (encode k v).length = width k
  fits_decode : ∀ k xs, xs.length = width k → Fits k (decode k xs)
  decode_encode : ∀ k v, Fits k v → decode k (encode k v) = v
  encode_decode : ∀ k xs, xs.length = width k → encode k (decode k xs) = xs

namespace Codec

variable {Kind Value Symbol : Type*}

/-- A value with its kind. -/
@[ext] structure Field (C : Codec Kind Value Symbol) where
  kind : Kind
  value : Value
  fits : C.Fits kind value

variable {C : Codec Kind Value Symbol} {f g : C.Field} {fs gs : List C.Field}

instance [DecidableEq Kind] [DecidableEq Value] : DecidableEq C.Field := fun _ _ =>
  decidable_of_iff _ Field.ext_iff.symm

def Field.symbols (f : C.Field) : List Symbol := C.encode f.kind f.value

@[simp] theorem Field.length_symbols : f.symbols.length = C.width f.kind := C.length_encode _ _

/-- **What was written is read.** -/
theorem decode_symbols (f : C.Field) : C.decode f.kind f.symbols = f.value :=
  C.decode_encode f.kind f.value f.fits

/-- The fields one after another. -/
def encodeAll (fs : List C.Field) : List Symbol := fs.flatMap Field.symbols

@[simp] theorem encodeAll_nil : encodeAll ([] : List C.Field) = [] := rfl

@[simp] theorem encodeAll_cons : encodeAll (f :: fs) = f.symbols ++ encodeAll fs := rfl

@[simp] theorem encodeAll_append : encodeAll (fs ++ gs) = encodeAll fs ++ encodeAll gs :=
  List.flatMap_append

/-! ## From either end -/

/-- The first field is at the front, -/
theorem take_encodeAll (f : C.Field) (fs : List C.Field) :
    (encodeAll (f :: fs)).take (C.width f.kind) = f.symbols := by
  rw [encodeAll_cons, ← f.length_symbols, List.take_left]

theorem drop_encodeAll (f : C.Field) (fs : List C.Field) :
    (encodeAll (f :: fs)).drop (C.width f.kind) = encodeAll fs := by
  rw [encodeAll_cons, ← f.length_symbols, List.drop_left]

theorem length_encodeAll_concat (fs : List C.Field) (f : C.Field) :
    (encodeAll (fs ++ [f])).length - C.width f.kind = (encodeAll fs).length := by
  rw [encodeAll_append, List.length_append]
  have hlen : (encodeAll [f]).length = C.width f.kind := by simp
  omega

/-- and the last one at the end. -/
theorem drop_encodeAll_concat (fs : List C.Field) (f : C.Field) :
    (encodeAll (fs ++ [f])).drop ((encodeAll (fs ++ [f])).length - C.width f.kind) =
      f.symbols := by
  rw [length_encodeAll_concat, encodeAll_append, List.drop_left]
  simp

theorem take_encodeAll_concat (fs : List C.Field) (f : C.Field) :
    (encodeAll (fs ++ [f])).take ((encodeAll (fs ++ [f])).length - C.width f.kind) =
      encodeAll fs := by
  rw [length_encodeAll_concat, encodeAll_append, List.take_left]

/-! ## What the kinds determine -/

/-- **The kinds and the symbols determine the fields.** -/
theorem encodeAll_inj (hkinds : fs.map Field.kind = gs.map Field.kind)
    (h : encodeAll fs = encodeAll gs) : fs = gs := by
  induction fs generalizing gs with
  | nil => exact (List.map_eq_nil_iff.mp hkinds.symm).symm
  | cons f fs ih =>
    cases gs with
    | nil => cases hkinds
    | cons g gs =>
      obtain ⟨hk, hks⟩ := List.cons.inj hkinds
      have hfront := congrArg (List.take (C.width f.kind)) h
      have hrest := congrArg (List.drop (C.width f.kind)) h
      rw [take_encodeAll, hk, take_encodeAll] at hfront
      rw [drop_encodeAll, hk, drop_encodeAll] at hrest
      have hvalue : f.value = g.value := by
        rw [← decode_symbols f, hfront, hk, decode_symbols]
      rw [Field.ext hk hvalue, ih hks hrest]

/-- **Symbols of the right number are fields.** -/
theorem exists_fields (C : Codec Kind Value Symbol) (ks : List Kind) :
    ∀ xs : List Symbol, xs.length = (ks.map C.width).sum →
      ∃ fs : List C.Field, fs.map Field.kind = ks ∧ encodeAll fs = xs := by
  induction ks with
  | nil => exact fun xs h => ⟨[], rfl, (List.length_eq_zero_iff.mp h).symm⟩
  | cons k ks ih =>
    intro xs h
    rw [List.map_cons, List.sum_cons] at h
    have hfront : (xs.take (C.width k)).length = C.width k := by
      rw [List.length_take]
      omega
    obtain ⟨fs, hkinds, hfs⟩ := ih (xs.drop (C.width k)) (by rw [List.length_drop]; omega)
    refine ⟨⟨k, _, C.fits_decode k _ hfront⟩ :: fs, by rw [List.map_cons, hkinds], ?_⟩
    rw [encodeAll_cons, hfs, Field.symbols, C.encode_decode k _ hfront, List.take_append_drop]

end Codec

/-! ## The list that is taken from at both ends -/

inductive DequeAct (α : Type*)
  | pushBack (x : α)
  | popFront (x : α)
  | popBack (x : α)
  /-- The contents are replaced. -/
  | refill (xs : List α)
  deriving DecidableEq

namespace DequeAct

variable {α : Type*}

def Enabled (xs : List α) : DequeAct α → Prop
  | .popFront x => xs.head? = some x
  | .popBack x => xs.getLast? = some x
  | .pushBack _ | .refill _ => True

def apply (xs : List α) : DequeAct α → List α
  | .pushBack x => xs ++ [x]
  | .popFront _ => xs.tail
  | .popBack _ => xs.dropLast
  | .refill ys => ys

end DequeAct

/-- **Deques**, one for each index. -/
def deques (ι α : Type*) [DecidableEq ι] : Machine (ι → List α) (ι × DequeAct α) where
  init := fun _ => []
  Enabled := fun d a => a.2.Enabled (d a.1)
  next := fun d a => Function.update d a.1 (a.2.apply (d a.1))

/-! ## Taking from the ends in any order -/

inductive End
  | front
  | back
  deriving DecidableEq, Repr

section

variable {α β : Type*} {x : α} {xs rest : List α}

/-- What is taken from that end, and what is left. -/
def End.pick (xs : List α) : End → Option (α × List α)
  | .front => xs.head?.map (·, xs.tail)
  | .back => xs.getLast?.map (·, xs.dropLast)

theorem End.pick_front (h : End.front.pick xs = some (x, rest)) : xs = x :: rest := by
  cases xs with
  | nil => cases h
  | cons y ys =>
    obtain ⟨rfl, rfl⟩ := Prod.mk.inj (Option.some.inj h)
    rfl

theorem End.pick_back (h : End.back.pick xs = some (x, rest)) : xs = rest ++ [x] := by
  rcases List.eq_nil_or_concat' xs with rfl | ⟨ys, y, rfl⟩
  · cases h
  · rw [pick, List.getLast?_concat, List.dropLast_concat] at h
    obtain ⟨rfl, rfl⟩ := Prod.mk.inj (Option.some.inj h)
    rfl

/-- What a sequence of ends takes, each with its end, and what is left. -/
def picks : List α → List End → List (End × α) × List α
  | xs, [] => ([], xs)
  | xs, e :: es =>
    match e.pick xs with
    | none => ([], xs)
    | some (x, rest) => ((e, x) :: (picks rest es).1, (picks rest es).2)

theorem picks_cons {e : End} {es : List End} (h : e.pick xs = some (x, rest)) :
    picks xs (e :: es) = ((e, x) :: (picks rest es).1, (picks rest es).2) := by
  rw [picks, h]

theorem picks_cons_none {e : End} {es : List End} (h : e.pick xs = none) :
    picks xs (e :: es) = ([], xs) := by
  rw [picks, h]

theorem End.pick_map (f : α → β) (e : End) (xs : List α) :
    e.pick (xs.map f) = (e.pick xs).map fun p => (f p.1, p.2.map f) := by
  cases e with
  | front => simp [pick, List.map_tail, Function.comp_def]
  | back => simp [pick, List.map_dropLast, Function.comp_def]

/-- The ends are the same for the images. -/
theorem picks_map (f : α → β) (xs : List α) (es : List End) :
    (picks (xs.map f) es).1 = (picks xs es).1.map fun p => (p.1, f p.2) := by
  induction es generalizing xs with
  | nil => rfl
  | cons e es ih =>
    have hmap := e.pick_map f xs
    cases hp : e.pick xs with
    | none =>
      rw [hp] at hmap
      rw [picks_cons_none hmap, picks_cons_none hp]
      rfl
    | some p =>
      rw [hp] at hmap
      rw [picks_cons hmap, picks_cons hp, ih]
      rfl

end

end PyNng
