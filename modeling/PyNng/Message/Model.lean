import PyNng.Common.Machine
import Mathlib.Data.List.Basic
/-!
# Message — the handle, the export counter and the lock

`_message.pxi` and `message.hpp`: one `Message`, the `nng_msg` its handle
holds, and the buffer exports Python objects have of the body. Most methods
are one step: they take the recursive lock, check, and call nng, and run no
Python code in between. `append` and `insert` are not: between their check
and their call they convert the argument, and that runs code of the
argument's own, on the same thread and so under the same lock. `__init__`
takes no lock, and a send gives the `nng_msg` back in a step of its own.

nng is a parameter: what its message functions return, and what they leave of
a body. `nng_msg`s are numbered. The model keeps, beside the program's fields, how
often nng was given each of them to modify, reallocate, transfer or free:
an export is good as long as that has not happened since it was acquired.
What the methods do to the message header is left out.
-/

namespace PyNng

namespace Message

variable {σ : Type}

/-- A buffer export: a `Py_buffer` that points into a body. -/
structure Export where
  msg : ℕ
  /-- History: how often nng had been given the `nng_msg` then. -/
  moves : ℕ
  deriving DecidableEq, Repr

/-- The argument of `append` or `insert`. -/
inductive BufferArg
  /-- The message itself. -/
  | self
  /-- Any other object with the buffer protocol, and what it shows. -/
  | other (data : List UInt8)
  deriving DecidableEq, Repr

/-- The memoryview `mv` the argument is converted to. -/
inductive ArgView
  /-- Not converted yet. -/
  | pending
  | foreign (data : List UInt8)
  | own (x : Export)
  deriving DecidableEq, Repr

inductive Growth
  | append
  | insert
  deriving DecidableEq, Repr

/-- A call of `append` or `insert` past its check. -/
structure Frame where
  growth : Growth
  arg : BufferArg
  mv : ArgView
  /-- History: the exports the thread acquired since the check and has not
  released. -/
  kept : ℕ
  deriving DecidableEq, Repr

/-- The exceptions the methods raise. -/
inductive PyError
  | permissionError
  /-- `NngClosed`, of an empty handle. -/
  | closed
  /-- What `check_err` makes of nng's error. -/
  | nng
  deriving DecidableEq, Repr

/-- The message, its `nng_msg`s and the threads in its methods. -/
structure State where
  /-- `_handle`; `none` is the null pointer. -/
  handle : Option ℕ
  /-- `_python_buffer_count`. -/
  count : ℕ
  /-- The owner of `_lock`. -/
  owner : Option ℕ
  /-- The calls of `append` and `insert` the owner is in, innermost first. -/
  frames : List Frame
  /-- How many `nng_msg`s were made. -/
  made : ℕ
  /-- The body of each. -/
  body : ℕ → List UInt8
  /-- Taken by sends that have not ended. -/
  sending : List ℕ
  /-- The exports outstanding. -/
  exports : List Export
  /-- History: how often nng was given the `nng_msg` to modify, reallocate,
  transfer or free. -/
  moves : ℕ → ℕ

/-! ## The operations -/

inductive UintWidth
  | u16
  | u32
  | u64
  deriving DecidableEq, Repr

def UintWidth.bytes : UintWidth → ℕ
  | .u16 => 2
  | .u32 => 4
  | .u64 => 8

/-- The methods that check for full ownership and call nng once. -/
inductive BodyOp
  | clear
  | reserve (capacity : ℕ)
  | resize (newSize : ℕ)
  | trim (n : ℕ)
  | chop (n : ℕ)
  | appendUint (w : UintWidth) (v : ℕ)
  | chopUint (w : UintWidth)
  | trimUint (w : UintWidth)
  deriving DecidableEq, Repr

/-- What a function of nng returns, the body it leaves and what it stores to `v`. -/
structure Reply where
  rv : ℕ
  body : List UInt8
  v : ℕ
  deriving DecidableEq, Repr

/-- **nng's message functions.** What they reply depends, beside the body, on
what nng alone knows, `σ`: the room behind the body, the memory there is. -/
structure Nng (σ : Type) where
  /-- `nng_msg_clear`, `nng_msg_reserve` and so on, of which each method calls
  one. -/
  call : BodyOp → List UInt8 → σ → Reply
  /-- `nng_msg_append` and `nng_msg_insert` of some data. `none` is the null
  pointer. -/
  grow : Growth → List UInt8 → Option (List UInt8) → σ → Reply

/-- `check_err`. -/
def Reply.checkErr (r : Reply) : Option PyError := if r.rv = 0 then none else some .nng

/-- What the method raises once nng has returned. `nng_msg_clear` returns
nothing. -/
def BodyOp.raises (r : Reply) : BodyOp → Option PyError
  | .clear => none
  | _ => r.checkErr

/-- The body the method leaves. -/
def BodyOp.leaves (old : List UInt8) (r : Reply) : BodyOp → List UInt8
  | .resize newSize =>
    -- the `memset` from the old end of the body on
    if r.rv = 0 ∧ newSize > old.length then
      r.body.take old.length ++ List.replicate (newSize - old.length) 0 ++ r.body.drop newSize
    else r.body
  | _ => r.body

namespace State

/-- `_check_validity`. -/
def checkValidity (s : State) : Except PyError ℕ :=
  match s.handle with
  | none => .error .closed
  | some m => .ok m

/-- `_check_full_ownership`. -/
def checkFullOwnership (s : State) : Except PyError ℕ :=
  if s.count > 0 then .error .permissionError else s.checkValidity

/-- nng is given the `nng_msg`. -/
def hand (m : ℕ) (s : State) : State :=
  { s with moves := Function.update s.moves m (s.moves m + 1) }

def setBody (m : ℕ) (body : List UInt8) (s : State) : State :=
  { s with body := Function.update s.body m body }

/-- The thread can take `_lock`, which is recursive. -/
def CanLock (s : State) (t : ℕ) : Prop := s.owner = none ∨ s.owner = some t

instance (s : State) (t : ℕ) : Decidable (s.CanLock t) := inferInstanceAs (Decidable (_ ∨ _))

/-- A method of the family. -/
def mutate (nng : Nng σ) (op : BodyOp) (x : σ) (s : State) : Option PyError × State :=
  match s.checkFullOwnership with
  | .error e => (some e, s)
  | .ok m =>
    let r := nng.call op (s.body m) x
    (op.raises r, (s.hand m).setBody m (op.leaves (s.body m) r))

/-- `_steal_ptr`. -/
def stealPtr (s : State) : Option PyError × State :=
  match s.checkFullOwnership with
  | .error e => (some e, s)
  | .ok m => (none, { s.hand m with handle := none, sending := m :: s.sending })

/-- The calls of the thread, with what it keeps changed. -/
def keep (t : ℕ) (g : ℕ → ℕ) (s : State) : List Frame :=
  if s.owner = some t then s.frames.map fun f => { f with kept := g f.kept } else s.frames

/-- The effect of `__getbuffer__` once the handle is found valid. -/
def takeExport (t m : ℕ) (s : State) : State :=
  { s with
    exports := s.exports ++ [⟨m, s.moves m⟩]
    count := s.count + 1
    frames := s.keep t (· + 1) }

/-- `__getbuffer__`. -/
def getBuffer (t : ℕ) (s : State) : Option PyError × State :=
  match s.checkValidity with
  | .error e => (some e, s)
  | .ok m => (none, s.takeExport t m)

/-- `__releasebuffer__`, of an export that is outstanding. -/
def releaseBuffer (t : ℕ) (x : Export) (s : State) : State :=
  { s with
    exports := s.exports.erase x
    count := s.count - 1
    frames := s.keep t (· - 1) }

/-- `append` and `insert` up to their check; past it the lock is kept. -/
def enter (t : ℕ) (growth : Growth) (arg : BufferArg) (s : State) : Option PyError × State :=
  match s.checkFullOwnership with
  | .error e => (some e, s)
  | .ok _ => (none, { s with owner := some t, frames := ⟨growth, arg, .pending, 0⟩ :: s.frames })

/-- The innermost call is over, and with the outermost the lock is released. -/
def popFrame (s : State) : State :=
  { s with frames := s.frames.tail, owner := if s.frames.tail = [] then none else s.owner }

/-- `mv` goes out of scope. -/
def dropView (t : ℕ) (s : State) : ArgView → State
  | .own x => s.releaseBuffer t x
  | _ => s

/-- The conversion of the argument, `mv = data`. -/
def convert (t : ℕ) (s : State) : Option PyError × State :=
  match s.frames with
  | [] => (none, s)
  | f :: fs =>
    match f.arg with
    | .other data => (none, { s with frames := { f with mv := .foreign data } :: fs })
    | .self =>
      match s.checkValidity with
      | .error e => (some e, s.popFrame)
      | .ok m =>
        let taken := s.takeExport t m
        (none, { taken with
          frames := taken.frames.modifyHead fun f => { f with mv := .own ⟨m, s.moves m⟩ } })

/-- The bytes `mv` shows. -/
def shown (s : State) : ArgView → List UInt8
  | .pending => []
  | .foreign data => data
  | .own x => s.body x.msg

/-- The call of nng in `append` and `insert`, and the return. A null handle
is given to nng as it is. -/
def grow (nng : Nng σ) (t : ℕ) (x : σ) (s : State) : Option PyError × State :=
  match s.frames with
  | [] => (none, s)
  | f :: _ =>
    let r := nng.grow f.growth (s.shown f.mv) (s.handle.map s.body) x
    let after := match s.handle with
      | none => s
      | some m => (s.hand m).setBody m r.body
    (r.checkErr, (after.dropView t f.mv).popFrame)

/-- The call ends before nng is called: the conversion raised, or there is
no first byte to point to. -/
def leave (t : ℕ) (s : State) : State :=
  match s.frames with
  | [] => s
  | f :: _ => (s.dropView t f.mv).popFrame

/-- `self._handle = ...` in `__init__` and in the functions that make a
`Message`: the move-assignment frees what the handle held. `none` is the
empty handle of an `alloc` that failed. -/
def assign (new : Option (List UInt8)) (s : State) : State :=
  let freed := match s.handle with
    | none => s
    | some m => s.hand m
  match new with
  | none => { freed with handle := none }
  | some body =>
    { freed with
      handle := some s.made
      made := s.made + 1
      body := Function.update s.body s.made body }

/-- `_handle.restore(ptr)`, of a send that has failed. -/
def restore (m : ℕ) (s : State) : State :=
  { s with handle := some m, sending := s.sending.erase m }

/-- What `__cinit__` leaves. -/
def empty : State :=
  { handle := none, count := 0, owner := none, frames := [], made := 0, body := fun _ => [],
    sending := [], exports := [], moves := fun _ => 0 }

end State

/-! ## The machine -/

/-- The steps; `t` is the thread. -/
inductive Act (σ : Type)
  /-- A Python object acquires a buffer of the message. -/
  | acquire (t : ℕ)
  | release (t : ℕ) (x : Export)
  | mutate (t : ℕ) (op : BodyOp) (x : σ)
  /-- The beginning of a send. -/
  | steal (t : ℕ)
  | enter (t : ℕ) (growth : Growth) (arg : BufferArg)
  | convert (t : ℕ)
  | grow (t : ℕ) (x : σ)
  | leave (t : ℕ)
  /-- `__init__`, at its assignment. -/
  | init (new : Option (List UInt8))
  /-- A send has failed and gives the `nng_msg` back. -/
  | restore (m : ℕ)
  /-- A send has succeeded. -/
  | sent (m : ℕ)
  /-- Code writes through an export. -/
  | write (x : Export) (data : List UInt8)
  /-- `dup`, `to_bytes`, `__len__` and the like. -/
  | read (t : ℕ)
  deriving DecidableEq, Repr

/-- The owner is in a call whose argument is converted, or not yet. -/
def InFrame (s : State) (t : ℕ) (pending : Bool) : Prop :=
  s.owner = some t ∧ ∃ f ∈ s.frames.head?, (f.mv = .pending ↔ pending = true)

instance (s : State) (t : ℕ) (pending : Bool) : Decidable (InFrame s t pending) :=
  inferInstanceAs (Decidable (_ ∧ _))

/-- How many calls in progress hold the export as their `mv`, and will
release it themselves. -/
def State.holders (s : State) (x : Export) : ℕ := (s.frames.map Frame.mv).count (.own x)

def Enabled (s : State) : Act σ → Prop
  | .acquire t => s.CanLock t
  | .release t x => s.CanLock t ∧ s.holders x < s.exports.count x
  | .mutate t _ _ => s.CanLock t
  | .steal t => s.CanLock t
  | .enter t _ _ => s.CanLock t
  | .convert t => InFrame s t true
  | .grow t _ => InFrame s t false
  | .leave t => s.owner = some t
  | .init _ => True
  | .restore m => m ∈ s.sending
  | .sent m => m ∈ s.sending
  | .write x data => x ∈ s.exports ∧ data.length = (s.body x.msg).length
  | .read t => s.CanLock t

instance (s : State) : ∀ a : Act σ, Decidable (Enabled s a)
  | .acquire _ | .mutate .. | .steal _ | .enter .. | .read _ =>
    inferInstanceAs (Decidable (State.CanLock _ _))
  | .release .. => inferInstanceAs (Decidable (_ ∧ _))
  | .convert _ | .grow .. => inferInstanceAs (Decidable (InFrame _ _ _))
  | .leave _ => inferInstanceAs (Decidable (_ = _))
  | .init _ => inferInstanceAs (Decidable True)
  | .restore _ | .sent _ => inferInstanceAs (Decidable (_ ∈ _))
  | .write .. => inferInstanceAs (Decidable (_ ∧ _))

/-- What the step raises, and the state it leaves. -/
def run (nng : Nng σ) (s : State) : Act σ → Option PyError × State
  | .acquire t => s.getBuffer t
  | .release t x => (none, s.releaseBuffer t x)
  | .mutate _ op x => s.mutate nng op x
  | .steal _ => s.stealPtr
  | .enter t growth arg => s.enter t growth arg
  | .convert t => s.convert t
  | .grow t x => s.grow nng t x
  | .leave t => (none, s.leave t)
  | .init new => (if new = none then some .nng else none, s.assign new)
  | .restore m => (none, s.restore m)
  | .sent m => (none, { s with sending := s.sending.erase m })
  | .write x data => (none, s.setBody x.msg data)
  | .read _ =>
    match s.checkValidity with
    | .error e => (some e, s)
    | .ok _ => (none, s)

/-- **The machine of one message**, from `__cinit__` on. -/
def message (nng : Nng σ) : Machine State (Act σ) where
  init := State.empty
  Enabled := Enabled
  next := fun s a => (run nng s a).2

instance (nng : Nng σ) (s : State) (a : Act σ) : Decidable ((message nng).Enabled s a) :=
  inferInstanceAs (Decidable (Enabled s a))

end Message

end PyNng
