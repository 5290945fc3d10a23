import PyNng.Filter.Model
/-!
# Pipe — the collection a socket keeps of its pipes

`pipe.hpp`: `PipeHandle`, one per pipe, and `PipeCollection`, which every
pipe event of nng goes through before Python hears of it. A handle is
shared: the collection drops it when the pipe is removed while a Python
`Pipe` still reads its status. Everything in it but the status is fixed
when it is made, so the status alone lives in a heap, by the handle's
reference; the collection is the only writer of it.

The TLS, TCP and self-address snapshots of a handle are left out: nothing
modelled here reads them.
-/

namespace PyNng

/-- `nng_pipe_ev`, which is also the status of a handle. -/
inductive PipeEv
  | none
  | addPre
  | addPost
  | remPost
  deriving DecidableEq, Repr

/-- How a call of user code ends. -/
inductive PyOutcome
  | returns
  /-- An `Exception`. -/
  | raises
  /-- A `BaseException` that is no `Exception`: `SystemExit`, `KeyboardInterrupt`. -/
  | raisesBase
  deriving DecidableEq, Repr

/-- What nng's getters tell of a live pipe. -/
structure NngPipe where
  peerAddr : SockAddr
  peerPid : ℤ
  dialer : ℕ
  listener : ℕ
  deriving DecidableEq, Repr

/-- The snapshot a filter is shown. -/
def NngPipe.info (n : NngPipe) (id : ℕ) : PipeFilterInfo :=
  { peerAddr := n.peerAddr, peerPid := n.peerPid, pipeId := id, dialer := n.dialer,
    listener := n.listener }

/-- `PipeHandle`: the cached metadata of one pipe. -/
structure PipeHandle where
  /-- Which shared object it is. -/
  ref : ℕ
  id : ℕ
  nng : NngPipe
  deriving DecidableEq, Repr

/-- `PipeCollection`. -/
structure PipeCollection (σ : Type) where
  /-- `_pipes`, in insertion order. -/
  pipes : List PipeHandle
  /-- `_status` of every handle made so far, by reference. -/
  status : ℕ → PipeEv
  /-- How many handles were made. -/
  made : ℕ
  /-- `_had_events`. -/
  flag : Bool
  /-- `_filter`; `none` is no filtering. -/
  filter : Option (IPipeFilter σ)
  /-- The state the filter's objects are in. -/
  objects : σ

namespace PipeCollection

variable {σ : Type}

/-- The pipe ids, in order. -/
def ids (c : PipeCollection σ) : List ℕ := c.pipes.map PipeHandle.id

/-- As constructed, with `set_filter` called before any event. -/
def new (filter : Option (IPipeFilter σ)) (objects : σ) : PipeCollection σ :=
  { pipes := [], status := fun _ => .none, made := 0, flag := false, filter, objects }

def setStatus (c : PipeCollection σ) (h : PipeHandle) (ev : PipeEv) : PipeCollection σ :=
  { c with status := Function.update c.status h.ref ev }

/-- `find`: the handle of a pipe id. -/
def find (c : PipeCollection σ) (p : ℕ) : Option PipeHandle := c.pipes.find? fun h => h.id = p

/-- `add`, with the `set_status` its callers make at once. -/
def add (c : PipeCollection σ) (p : ℕ) (n : NngPipe) (ev : PipeEv) : PipeCollection σ :=
  let h : PipeHandle := { ref := c.made, id := p, nng := n }
  { c with pipes := c.pipes ++ [h], made := c.made + 1 }.setStatus h ev

/-- `remove`: the first handle of the id is told and erased. -/
def remove (c : PipeCollection σ) (p : ℕ) : PipeCollection σ :=
  match c.find p with
  | none => c
  | some h => { c.setStatus h .remPost with pipes := c.pipes.eraseP fun h => h.id = p }

/-- The last line of `handle_event`. -/
def noteEvent (c : PipeCollection σ) : PipeCollection σ := { c with flag := true }

/-- `handle_event`; the `Bool` says that it called `nng_pipe_close`. -/
def handleEvent (c : PipeCollection σ) (n : NngPipe) (p : ℕ) : PipeEv → PipeCollection σ × Bool
  | .addPre =>
    match c.filter with
    | none => ((c.add p n .addPre).noteEvent, false)
    | some f =>
      let (allowed, objects) := f.allow (n.info p) c.objects
      let c := { c with objects }
      if allowed then ((c.add p n .addPre).noteEvent, false)
      -- refused: closed, and the flag stays as it was
      else (c, true)
  | .addPost =>
    match c.find p with
    | some h =>
      let c := c.setStatus h .addPost
      match c.filter with
      | none => (c.noteEvent, false)
      | some f => ({ c with objects := f.onAdded (n.info p) c.objects }.noteEvent, false)
    | none =>
      -- the branch that recovers a pipe whose `ADD_PRE` was not seen
      ((c.add p n .addPost).noteEvent, false)
  | .remPost =>
    match c.filter, c.find p with
    | some f, some h =>
      let c := { c with objects := f.onRemoved (h.nng.info h.id) c.objects }
      ((c.remove p).noteEvent, false)
    | _, _ => ((c.remove p).noteEvent, false)
  | .none => (c.noteEvent, false)

/-- `get_pipes`. -/
def getPipes (c : PipeCollection σ) : List PipeHandle := c.pipes

/-- `clear`. -/
def clear (c : PipeCollection σ) : PipeCollection σ :=
  { c.pipes.foldl (fun c h => c.setStatus h .remPost) c with pipes := [], flag := true }

/-- `had_events`: the flag, which is lowered. -/
def hadEvents (c : PipeCollection σ) : Bool × PipeCollection σ :=
  if c.flag then (true, { c with flag := false }) else (false, c)

def setFilter (c : PipeCollection σ) (filter : Option (IPipeFilter σ)) : PipeCollection σ :=
  { c with filter }

/-! ## What the operations do to the ids -/

variable {c : PipeCollection σ} {n : NngPipe} {p : ℕ} {ev : PipeEv}

/-- Whether the filter, where there is one, refuses the pipe. -/
def refuses (c : PipeCollection σ) (n : NngPipe) (p : ℕ) : Bool :=
  match c.filter with
  | none => false
  | some f => !(f.allow (n.info p) c.objects).1

theorem find_eq_none_iff : c.find p = none ↔ p ∉ c.ids := by
  simp [find, ids]

theorem find_isSome_iff : (∃ h, c.find p = some h) ↔ p ∈ c.ids := by
  rw [← Option.isSome_iff_exists, Option.isSome_iff_ne_none, ne_eq, find_eq_none_iff, not_not]

@[simp] theorem ids_add : (c.add p n ev).ids = c.ids ++ [p] := by
  simp [add, ids, setStatus]

@[simp] theorem filter_add : (c.add p n ev).filter = c.filter := rfl

/-- `remove` erases the first occurrence of the id. -/
@[simp] theorem ids_remove : (c.remove p).ids = c.ids.erase p := by
  have hmap : (c.pipes.eraseP fun h => h.id = p).map PipeHandle.id = c.ids.erase p := by
    unfold ids
    induction c.pipes with
    | nil => rfl
    | cons h hs ih =>
      by_cases hp : h.id = p
      · simp [hp]
      · simp [hp, ih]
  unfold remove
  split
  · rename_i hnone
    rw [List.erase_of_not_mem (find_eq_none_iff.mp hnone)]
  · exact hmap

@[simp] theorem filter_remove : (c.remove p).filter = c.filter := by
  unfold remove
  split <;> rfl

@[simp] theorem ids_noteEvent : c.noteEvent.ids = c.ids := rfl

@[simp] theorem filter_noteEvent : c.noteEvent.filter = c.filter := rfl

@[simp] theorem flag_noteEvent : c.noteEvent.flag = true := rfl

@[simp] theorem ids_clear : c.clear.ids = [] := rfl

@[simp] theorem ids_setFilter (f : Option (IPipeFilter σ)) : (c.setFilter f).ids = c.ids := rfl

@[simp] theorem ids_hadEvents : c.hadEvents.2.ids = c.ids := by
  unfold hadEvents
  split <;> rfl

@[simp] theorem filter_hadEvents : c.hadEvents.2.filter = c.filter := by
  unfold hadEvents
  split <;> rfl

@[simp] theorem flag_hadEvents : c.hadEvents.2.flag = false := by
  unfold hadEvents
  split <;> simp_all

@[simp] theorem fst_hadEvents : c.hadEvents.1 = c.flag := by
  unfold hadEvents
  split <;> simp_all

theorem filter_clear : c.clear.filter = c.filter := by
  have hfold : ∀ (hs : List PipeHandle) (c : PipeCollection σ),
      (hs.foldl (fun c h => c.setStatus h .remPost) c).filter = c.filter := by
    intro hs
    induction hs with
    | nil => intro c; rfl
    | cons h hs ih => intro c; exact ih _
  exact hfold c.pipes c

@[simp] theorem filter_handleEvent : (c.handleEvent n p ev).1.filter = c.filter := by
  cases ev with
  | none => rfl
  | addPre =>
    cases hf : c.filter with
    | none => simp [handleEvent, hf]
    | some f => cases ha : (f.allow (n.info p) c.objects).1 <;> simp [handleEvent, hf, ha]
  | addPost =>
    cases hp : c.find p with
    | none => simp [handleEvent, hp]
    | some h => cases hf : c.filter <;> simp [handleEvent, hp, setStatus, hf]
  | remPost =>
    cases hf : c.filter with
    | none => simp [handleEvent, hf]
    | some f => cases hp : c.find p <;> simp [handleEvent, hf, hp]

/-- **`handle_event` at `ADD_PRE`**: a refused pipe is closed and not added,
any other is added at the end. -/
theorem handleEvent_addPre :
    (c.handleEvent n p .addPre).2 = c.refuses n p ∧
      (c.handleEvent n p .addPre).1.ids = (if c.refuses n p then c.ids else c.ids ++ [p]) ∧
      (c.handleEvent n p .addPre).1.flag = (!c.refuses n p || c.flag) := by
  have hobj : ∀ objects : σ, ({ c with objects }.add p n .addPre).ids = c.ids ++ [p] :=
    fun objects => @ids_add _ { c with objects } ..
  cases hf : c.filter with
  | none => simp [handleEvent, refuses, hf]
  | some f =>
    cases ha : (f.allow (n.info p) c.objects).1 with
    | true => simpa [handleEvent, refuses, hf, ha] using hobj _
    | false => simp [handleEvent, refuses, hf, ha, ids]

/-- **`handle_event` at `ADD_POST`**: an unknown pipe is added. -/
theorem handleEvent_addPost :
    (c.handleEvent n p .addPost).2 = false ∧
      (c.handleEvent n p .addPost).1.ids = (if p ∈ c.ids then c.ids else c.ids ++ [p]) ∧
      (c.handleEvent n p .addPost).1.flag = true := by
  cases hp : c.find p with
  | none => simp [handleEvent, hp, if_neg (find_eq_none_iff.mp hp)]
  | some h =>
    have hmem := find_isSome_iff.mp ⟨h, hp⟩
    cases hf : c.filter <;> simp [handleEvent, hp, hf, if_pos hmem, setStatus] <;> rfl

/-- **`handle_event` at `REM_POST`.** -/
theorem handleEvent_remPost :
    (c.handleEvent n p .remPost).2 = false ∧
      (c.handleEvent n p .remPost).1.ids = c.ids.erase p ∧
      (c.handleEvent n p .remPost).1.flag = true := by
  have hobj : ∀ objects : σ, ({ c with objects }.remove p).ids = c.ids.erase p := fun objects =>
    ids_remove (c := { c with objects })
  cases hf : c.filter with
  | none => simp [handleEvent, hf]
  | some f =>
    cases hp : c.find p with
    | none => simp [handleEvent, hf, hp]
    | some h => simpa [handleEvent, hf, hp] using hobj _

/-- Only an event that adds the pipe brings an id in, and only its own. -/
theorem mem_ids_handleEvent {q : ℕ} (h : q ∈ (c.handleEvent n p ev).1.ids) :
    q ∈ c.ids ∨ q = p ∧ (ev = .addPre ∧ c.refuses n p = false ∨ ev = .addPost) := by
  cases ev with
  | none => exact Or.inl h
  | addPre =>
    rw [handleEvent_addPre.2.1] at h
    cases hr : c.refuses n p with
    | true => exact Or.inl (by simpa [hr] using h)
    | false =>
      rcases List.mem_append.mp (by simpa [hr] using h : q ∈ c.ids ++ [p]) with h | h
      · exact Or.inl h
      · exact Or.inr ⟨List.mem_singleton.mp h, Or.inl ⟨rfl, rfl⟩⟩
  | addPost =>
    rw [handleEvent_addPost.2.1] at h
    split at h
    · exact Or.inl h
    · rcases List.mem_append.mp h with h | h
      · exact Or.inl h
      · exact Or.inr ⟨List.mem_singleton.mp h, Or.inr rfl⟩
  | remPost =>
    rw [handleEvent_remPost.2.1] at h
    exact Or.inl (List.mem_of_mem_erase h)

end PipeCollection

end PyNng
