import PyNng.Common.Bytes
import PyNng.Message.Model
/-!
# Message — an export pins the body

The counter is the number of exports outstanding, and every method that
checks it is refused while there is one. What it does not see is an export
acquired between the check of `append` or `insert` and the call of nng: the
lock keeps other threads out, so it is the conversion of the argument that
has acquired it, and a call past its check knows how many of those are kept
(`Counted.kept`). `__init__` checks nothing.

`exports_pin_iff` says these are the two ways in which a body is given to
nng under an export, and `live_of_reachWhen` that without them every export
points into the body it was acquired from.
-/

namespace PyNng

namespace Message

variable {σ : Type} {nng : Nng σ} {s : State} {t m : ℕ}

/-! ## The counter -/

/-- **The counter counts.** -/
structure Counted (s : State) : Prop where
  count : s.count = s.exports.length
  free : s.owner = none → s.frames = []
  /-- All that is outstanding was acquired by the thread inside. -/
  kept : ∀ f ∈ s.frames, f.kept = s.count
  held : ∀ x, s.holders x ≤ s.exports.count x

/-- What the thread keeps of the calls it is in. -/
theorem mem_keep {g : ℕ → ℕ} {f : Frame} (h : f ∈ s.keep t g) :
    ∃ f' ∈ s.frames, f = { f' with kept := g f'.kept } ∨ s.owner ≠ some t := by
  unfold State.keep at h
  split at h
  · obtain ⟨f', hf', rfl⟩ := List.mem_map.mp h
    exact ⟨f', hf', Or.inl rfl⟩
  · exact ⟨f, h, Or.inr ‹_›⟩

@[simp] theorem map_mv_keep (g : ℕ → ℕ) : (s.keep t g).map Frame.mv = s.frames.map Frame.mv := by
  unfold State.keep
  split
  · rw [List.map_map]
    rfl
  · rfl

theorem keep_eq_nil {g : ℕ → ℕ} (h : s.frames = []) : s.keep t g = [] := by
  unfold State.keep
  split <;> simp [h]

namespace Counted

theorem count_pos_iff (h : Counted s) : 0 < s.count ↔ s.exports ≠ [] := by
  rw [h.count, List.length_pos_iff]

/-- A thread that can take the lock is the owner where there are calls inside. -/
theorem owner_of_mem (h : Counted s) (hlock : s.CanLock t) {f : Frame} (hf : f ∈ s.frames) :
    s.owner = some t := by
  rcases hlock with hnone | howner
  · rw [h.free hnone] at hf
    cases hf
  · exact howner

/-- Handle and bodies have no part in it. -/
theorem of_same {s' : State} (h : Counted s) (hcount : s'.count = s.count)
    (howner : s'.owner = s.owner) (hframes : s'.frames = s.frames)
    (hexports : s'.exports = s.exports) : Counted s' where
  count := by rw [hcount, hexports]; exact h.count
  free := by rw [howner, hframes]; exact h.free
  kept := by rw [hframes, hcount]; exact h.kept
  held := by unfold State.holders; rw [hframes, hexports]; exact h.held

theorem takeExport (h : Counted s) (hlock : s.CanLock t) (m : ℕ) :
    Counted (s.takeExport t m) := by
  refine ⟨?_, fun hnone => keep_eq_nil (h.free hnone), fun f hf => ?_, fun x => ?_⟩
  · simp [State.takeExport, h.count]
  · obtain ⟨f', hf', rfl | hne⟩ := mem_keep hf
    · simp [State.takeExport, h.kept f' hf']
    · exact absurd (h.owner_of_mem hlock hf') hne
  · have hx := h.held x
    simp only [State.takeExport, State.holders, map_mv_keep, List.count_append] at hx ⊢
    omega

theorem releaseBuffer (h : Counted s) (hlock : s.CanLock t) {x : Export}
    (hx : s.holders x < s.exports.count x) : Counted (s.releaseBuffer t x) := by
  have hmem : x ∈ s.exports := List.count_pos_iff.mp (by omega)
  have hframes : (s.releaseBuffer t x).frames = s.keep t (· - 1) := by
    unfold State.releaseBuffer
    rfl
  refine ⟨?_, fun hnone => ?_, fun f hf => ?_, fun y => ?_⟩
  · simp [State.releaseBuffer, h.count, List.length_erase_of_mem hmem]
  · rw [hframes]
    exact keep_eq_nil (h.free hnone)
  · rw [hframes] at hf
    obtain ⟨f', hf', rfl | hne⟩ := mem_keep hf
    · simp [State.releaseBuffer, h.kept f' hf']
    · exact absurd (h.owner_of_mem hlock hf') hne
  · have hy := h.held y
    simp only [State.releaseBuffer, State.holders, map_mv_keep] at hx hy ⊢
    by_cases hyx : y = x
    · subst hyx
      rw [List.count_erase_self]
      omega
    · rw [List.count_erase_of_ne hyx]
      exact hy

/-- A call past its check has found no export, and keeps none yet. -/
theorem enter (h : Counted s) (hcount : s.count = 0) (growth : Growth) (arg : BufferArg) :
    Counted { s with owner := some t, frames := ⟨growth, arg, .pending, 0⟩ :: s.frames } := by
  refine ⟨h.count, fun hnone => (nomatch hnone), fun f hf => ?_, fun x => ?_⟩
  · rcases List.mem_cons.mp hf with rfl | hf
    · exact hcount.symm
    · exact h.kept f hf
  · have hx := h.held x
    simpa [State.holders] using hx

/-- The argument is converted, and is not the message. -/
theorem setForeign (h : Counted s) {f : Frame} {fs : List Frame} (hframes : s.frames = f :: fs)
    (hmv : f.mv = .pending) (data : List UInt8) :
    Counted { s with frames := { f with mv := .foreign data } :: fs } := by
  refine ⟨h.count, fun hnone => ?_, fun g hg => ?_, fun x => ?_⟩
  · have hnil := h.free hnone
    rw [hframes] at hnil
    cases hnil
  · rcases List.mem_cons.mp hg with rfl | hg
    · exact h.kept f (by rw [hframes]; exact List.mem_cons_self)
    · exact h.kept g (by rw [hframes]; exact List.mem_cons_of_mem _ hg)
  · have hx := h.held x
    simp only [State.holders, hframes, List.map_cons, hmv] at hx ⊢
    simpa using hx

/-- The argument is the message: the call holds an export of its own. -/
theorem takeOwn (h : Counted s) (howner : s.owner = some t) {f : Frame} {fs : List Frame}
    (hframes : s.frames = f :: fs) (hmv : f.mv = .pending) (m : ℕ) :
    Counted { s.takeExport t m with
      frames := (s.takeExport t m).frames.modifyHead fun f =>
        { f with mv := .own ⟨m, s.moves m⟩ } } := by
  have htaken := h.takeExport (Or.inr howner) m
  have hkeep : (s.takeExport t m).frames =
      { f with kept := f.kept + 1 } :: fs.map fun f => { f with kept := f.kept + 1 } := by
    simp [State.takeExport, State.keep, howner, hframes]
  refine ⟨htaken.count, fun hnone => ?_, fun g hg => ?_, fun x => ?_⟩
  · have hnil := htaken.free hnone
    rw [hkeep] at hnil
    cases hnil
  · rw [hkeep, List.modifyHead_cons] at hg
    rcases List.mem_cons.mp hg with rfl | hg
    · exact htaken.kept { f with kept := f.kept + 1 } (by rw [hkeep]; exact List.mem_cons_self)
    · exact htaken.kept g (by rw [hkeep]; exact List.mem_cons_of_mem _ hg)
  · -- one more export, and the call that holds it
    have hx := h.held x
    have hmap : (fs.map fun f => { f with kept := f.kept + 1 }).map Frame.mv =
        fs.map Frame.mv := by
      rw [List.map_map]
      rfl
    have hold : s.holders x = (fs.map Frame.mv).count (.own x) := by
      simp [State.holders, hframes, hmv]
    rw [hold] at hx
    simp only [State.holders, hkeep, List.modifyHead_cons, List.map_cons, hmap]
    simp only [State.takeExport, List.count_append, List.count_cons, List.count_nil]
    by_cases hxm : (⟨m, s.moves m⟩ : Export) = x
    · simp only [hxm, beq_self_eq_true, if_true]
      omega
    · have hne : (ArgView.own ⟨m, s.moves m⟩ == ArgView.own x) = false := by simpa using hxm
      simp only [hne, Bool.false_eq_true, if_false]
      omega

/-- The innermost call ends, and releases what it holds itself. -/
theorem closeFrame (h : Counted s) (howner : s.owner = some t) {f : Frame} {fs : List Frame}
    (hframes : s.frames = f :: fs) : Counted (s.dropView t f.mv).popFrame := by
  have htail : ∀ s' : State, s'.popFrame.owner = none → s'.owner = some t →
      s'.popFrame.frames = [] := by
    intro s' hnone howner'
    by_contra hne
    simp only [State.popFrame] at hnone hne
    rw [if_neg hne, howner'] at hnone
    cases hnone
  cases hmv : f.mv with
  | own x =>
    have hheld : 0 < s.exports.count x := by
      have hx := h.held x
      simp only [State.holders, hframes, List.map_cons, hmv, List.count_cons_self] at hx
      omega
    have hmem : x ∈ s.exports := List.count_pos_iff.mp hheld
    have hkeep : s.keep t (· - 1) = s.frames.map fun f => { f with kept := f.kept - 1 } :=
      if_pos howner
    refine ⟨?_, fun hnone => htail _ hnone howner, fun g hg => ?_, fun y => ?_⟩
    · simp [State.popFrame, State.dropView, State.releaseBuffer, h.count,
        List.length_erase_of_mem hmem]
    · simp only [State.popFrame, State.dropView, State.releaseBuffer, hkeep] at hg ⊢
      obtain ⟨g', hg', rfl⟩ := List.mem_map.mp (List.mem_of_mem_tail hg)
      rw [h.kept g' hg']
    · have hy := h.held y
      simp only [State.holders, hframes, List.map_cons, hmv] at hy
      simp only [State.popFrame, State.dropView, State.releaseBuffer, State.holders,
        List.map_tail, map_mv_keep, hframes, List.map_cons, List.tail_cons]
      by_cases hyx : y = x
      · subst hyx
        rw [List.count_cons_self] at hy
        rw [List.count_erase_self]
        omega
      · rw [List.count_erase_of_ne hyx]
        rw [List.count_cons] at hy
        omega
  | _ =>
    refine ⟨h.count, fun hnone => htail _ hnone howner, fun g hg => ?_, fun y => ?_⟩
    · exact h.kept g (List.mem_of_mem_tail hg)
    · have hy := h.held y
      simp only [State.holders, hframes, List.map_cons, hmv] at hy
      simp only [State.popFrame, State.dropView, State.holders, hframes, List.tail_cons]
      rw [List.count_cons] at hy
      omega

end Counted

/-- **The check**: no export is counted, and the handle holds an `nng_msg`. -/
theorem checkFullOwnership_ok_iff :
    s.checkFullOwnership = .ok m ↔ s.count = 0 ∧ s.handle = some m := by
  unfold State.checkFullOwnership State.checkValidity
  by_cases hcount : s.count > 0
  · have hne : s.count ≠ 0 := by omega
    simp [hcount, hne]
  · have heq : s.count = 0 := by omega
    cases hhandle : s.handle with
    | none => simp [heq]
    | some m' => simp [heq]

theorem checkFullOwnership_cases (s : State) :
    (∃ e, s.checkFullOwnership = .error e) ∨ ∃ m, s.checkFullOwnership = .ok m := by
  cases s.checkFullOwnership with
  | error e => exact Or.inl ⟨e, rfl⟩
  | ok m => exact Or.inr ⟨m, rfl⟩

/-- It comes first: while an export is counted nothing else is looked at. -/
theorem checkFullOwnership_of_pos (h : 0 < s.count) :
    s.checkFullOwnership = .error .permissionError :=
  if_pos h

/-- **Each step keeps the count.** -/
theorem Counted.run (h : Counted s) {a : Act σ} (hen : Enabled s a) :
    Counted (run nng s a).2 := by
  cases a with
  | acquire t =>
    simp only [Message.run, State.getBuffer]
    cases s.checkValidity with
    | error e => exact h
    | ok m => exact h.takeExport hen m
  | release t x => exact h.releaseBuffer hen.1 hen.2
  | mutate t op x =>
    simp only [Message.run, State.mutate]
    cases s.checkFullOwnership with
    | error e => exact h
    | ok m => exact h.of_same rfl rfl rfl rfl
  | steal t =>
    simp only [Message.run, State.stealPtr]
    cases s.checkFullOwnership with
    | error e => exact h
    | ok m => exact h.of_same rfl rfl rfl rfl
  | enter t growth arg =>
    simp only [Message.run, State.enter]
    cases hcheck : s.checkFullOwnership with
    | error e => exact h
    | ok m => exact h.enter (checkFullOwnership_ok_iff.mp hcheck).1 growth arg
  | convert t =>
    obtain ⟨howner, f, hhead, hmv⟩ := hen
    obtain ⟨fs, hframes⟩ := List.head?_eq_some_iff.mp hhead
    have hpending : f.mv = .pending := hmv.mpr rfl
    obtain ⟨growth, arg, mv, kept⟩ := f
    simp only [Message.run, State.convert, hframes]
    cases arg with
    | other data => exact h.setForeign hframes hpending data
    | self =>
      cases s.checkValidity with
      | error e =>
        have hclose := h.closeFrame howner hframes
        rwa [hpending] at hclose
      | ok m => exact h.takeOwn howner hframes hpending m
  | grow t x =>
    obtain ⟨howner, f, hhead, -⟩ := hen
    obtain ⟨fs, hframes⟩ := List.head?_eq_some_iff.mp hhead
    simp only [Message.run, State.grow, hframes]
    cases s.handle with
    | none => exact h.closeFrame howner hframes
    | some m =>
      have hbody : ∀ body, Counted ((s.hand m).setBody m body) := fun _ =>
        h.of_same rfl rfl rfl rfl
      exact (hbody _).closeFrame howner hframes
  | leave t =>
    have howner : s.owner = some t := hen
    simp only [Message.run, State.leave]
    cases hframes : s.frames with
    | nil => exact h
    | cons f fs => exact h.closeFrame howner hframes
  | init new =>
    cases hhandle : s.handle <;> cases new <;> simp only [Message.run, State.assign, hhandle] <;>
      exact h.of_same rfl rfl rfl rfl
  | restore m => exact h.of_same rfl rfl rfl rfl
  | sent m => exact h.of_same rfl rfl rfl rfl
  | write x data => exact h.of_same rfl rfl rfl rfl
  | read t =>
    simp only [Message.run]
    split <;> exact h

theorem counted_empty : Counted .empty :=
  ⟨rfl, fun _ => rfl, fun _ hf => absurd hf List.not_mem_nil, fun _ => Nat.zero_le _⟩

theorem counted_of_reach (h : (message nng).Reach s) : Counted s :=
  h.invariant counted_empty fun _ _ _ hs _ hen => hs.run hen

/-! ## What is given to nng -/

/-- The `nng_msg` the step gives to nng to modify, reallocate, transfer or free. -/
def handsOver (s : State) : Act σ → Option ℕ
  | .mutate .. | .steal _ => s.checkFullOwnership.toOption
  | .grow .. => if s.frames = [] then none else s.handle
  | .init _ => s.handle
  | _ => none

theorem moves_closeFrame {f : Frame} : (s.dropView t f.mv).popFrame.moves = s.moves := by
  cases f.mv <;> rfl

/-- **The history counts what is given to nng**, and nothing else. -/
theorem moves_run (nng : Nng σ) (s : State) (a : Act σ) (n : ℕ) :
    (run nng s a).2.moves n = s.moves n + if handsOver s a = some n then 1 else 0 := by
  have hhand : ∀ m, (s.hand m).moves n = s.moves n + if some m = some n then 1 else 0 := by
    intro m
    by_cases hmn : n = m
    · subst hmn; simp [State.hand]
    · simp [State.hand, hmn, Ne.symm hmn]
  cases a with
  | mutate t op x =>
    rcases checkFullOwnership_cases s with ⟨e, he⟩ | ⟨m, hm⟩
    · simp [Message.run, State.mutate, handsOver, he, Except.toOption]
    · simp only [Message.run, State.mutate, handsOver, hm]
      exact hhand m
  | steal t =>
    rcases checkFullOwnership_cases s with ⟨e, he⟩ | ⟨m, hm⟩
    · simp [Message.run, State.stealPtr, handsOver, he, Except.toOption]
    · simp only [Message.run, State.stealPtr, handsOver, hm]
      exact hhand m
  | grow t x =>
    by_cases hframes : s.frames = []
    · simp [Message.run, State.grow, handsOver, hframes]
    · obtain ⟨f, fs, hf⟩ := List.exists_cons_of_ne_nil hframes
      simp only [Message.run, State.grow, handsOver, hf, moves_closeFrame, List.cons_ne_nil,
        if_false]
      by_cases hhandle : s.handle = none
      · simp [hhandle]
      · obtain ⟨m, hm⟩ := Option.ne_none_iff_exists'.mp hhandle
        simp only [hm]
        exact hhand m
  | init new =>
    by_cases hhandle : s.handle = none
    · cases new <;> simp [Message.run, State.assign, handsOver, hhandle]
    · obtain ⟨m, hm⟩ := Option.ne_none_iff_exists'.mp hhandle
      cases new <;> simp only [Message.run, State.assign, handsOver, hm] <;> exact hhand m
  | acquire t =>
    simp only [Message.run, State.getBuffer, handsOver]
    split <;> rfl
  | enter t growth arg =>
    simp only [Message.run, State.enter, handsOver]
    split <;> rfl
  | convert t =>
    simp only [Message.run, State.convert, handsOver]
    split
    · rfl
    · split
      · rfl
      · split <;> rfl
  | leave t =>
    simp only [Message.run, State.leave, handsOver]
    split
    · rfl
    · exact congrFun moves_closeFrame n
  | read t =>
    simp only [Message.run, handsOver]
    split <;> rfl
  | _ => rfl

/-- The step is, or begins, an operation that has nng modify, reallocate,
transfer or free the `nng_msg`. -/
def Modifies (s : State) : Act σ → Bool
  | .mutate .. | .steal _ | .enter .. | .grow .. => true
  | .init _ => s.handle.isSome
  | _ => false

/-- Body, export count and ownership are the same. -/
structure Unchanged (s s' : State) : Prop where
  handle : s'.handle = s.handle
  body : s'.body = s.body
  count : s'.count = s.count
  exports : s'.exports = s.exports
  sending : s'.sending = s.sending

/-- **An export pins the body.** While one is outstanding the step gives
nothing to nng, and an operation that would raises `PermissionError` and
changes nothing. -/
def Pins (nng : Nng σ) (s : State) (a : Act σ) : Prop :=
  s.exports ≠ [] → handsOver s a = none ∧
    (Modifies s a = true →
      (run nng s a).1 = some .permissionError ∧ Unchanged s (run nng s a).2)

/-- The conversion of an argument has kept no export of the message, and
`__init__` finds none, or nothing to free. -/
def Spares (s : State) : Act σ → Prop
  | .grow _ _ => ∀ f ∈ s.frames.head?, f.kept = 0
  | .init _ => s.handle = none ∨ s.exports = []
  | _ => True

instance (s : State) : ∀ a : Act σ, Decidable (Spares s a)
  | .grow .. => inferInstanceAs (Decidable (∀ f ∈ s.frames.head?, _))
  | .init _ => inferInstanceAs (Decidable (_ ∨ _))
  | .acquire _ | .release .. | .mutate .. | .steal _ | .enter .. | .convert _ | .leave _
  | .restore _ | .sent _ | .write .. | .read _ => inferInstanceAs (Decidable True)

/-- What `check_err` raises is nng's. -/
theorem Reply.checkErr_ne (r : Reply) : r.checkErr ≠ some .permissionError := by
  unfold Reply.checkErr
  split <;> simp

/-- **One step** pins the body exactly when it spares it. -/
theorem pins_iff (h : Counted s) {a : Act σ} (hen : Enabled s a) :
    Pins nng s a ↔ Spares s a := by
  have hpos : s.exports ≠ [] → s.checkFullOwnership = .error .permissionError := fun hne =>
    checkFullOwnership_of_pos (h.count_pos_iff.mpr hne)
  have hsame : Unchanged s s := ⟨rfl, rfl, rfl, rfl, rfl⟩
  cases a with
  | mutate t op x =>
    refine iff_of_true (fun hne => ?_) trivial
    simp only [handsOver, Message.run, State.mutate, hpos hne]
    exact ⟨rfl, fun _ => ⟨trivial, hsame⟩⟩
  | steal t =>
    refine iff_of_true (fun hne => ?_) trivial
    simp only [handsOver, Message.run, State.stealPtr, hpos hne]
    exact ⟨rfl, fun _ => ⟨trivial, hsame⟩⟩
  | enter t growth arg =>
    refine iff_of_true (fun hne => ?_) trivial
    simp only [handsOver, Message.run, State.enter, hpos hne]
    exact ⟨trivial, fun _ => ⟨trivial, hsame⟩⟩
  | grow t x =>
    obtain ⟨-, f, hhead, -⟩ := hen
    obtain ⟨fs, hframes⟩ := List.head?_eq_some_iff.mp hhead
    have hkept : f.kept = s.count := h.kept f (by rw [hframes]; exact List.mem_cons_self)
    constructor
    · -- the call raises what nng returns, never a `PermissionError`
      intro hpins g hg
      obtain rfl := Option.some.inj (hhead.symm.trans hg)
      by_contra hne
      obtain ⟨hraise, -⟩ := (hpins (h.count_pos_iff.mp (by omega))).2 rfl
      simp only [Message.run, State.grow, hframes] at hraise
      exact Reply.checkErr_ne _ hraise
    · intro hspares hne
      have hzero := hspares f hhead
      have hcount := h.count_pos_iff.mpr hne
      omega
  | init new =>
    constructor
    · intro hpins
      by_cases hne : s.exports = []
      · exact Or.inr hne
      · exact Or.inl (hpins hne).1
    · rintro (hnone | hnil) hne
      · refine ⟨hnone, fun hmod => ?_⟩
        simp [Modifies, hnone] at hmod
      · exact absurd hnil hne
  | _ => exact iff_of_true (fun _ => ⟨rfl, fun hmod => by cases hmod⟩) trivial

/-- The run from any state in which the counter counts. -/
theorem pins_run_iff (h : Counted s) {as : List (Act σ)} (hv : (message nng).Valid s as) :
    (message nng).Meets (Pins nng) s as ↔ (message nng).Meets Spares s as := by
  induction as generalizing s with
  | nil => exact Iff.rfl
  | cons a as ih =>
    obtain ⟨hen, hv⟩ := hv
    exact and_congr (pins_iff h hen) (ih (h.run hen) hv)

/-- **When a buffer export pins the message body.** Every step of a run
gives nothing to nng under an export, and refuses what would, exactly when
no argument of `append` or `insert` leaves an export of the message behind
when it is converted, and `__init__` is not called again under one. -/
theorem exports_pin_iff {as : List (Act σ)} (hv : (message nng).Valid (message nng).init as) :
    (message nng).Meets (Pins nng) (message nng).init as ↔
      (message nng).Meets Spares (message nng).init as :=
  pins_run_iff counted_empty hv

/-- What a function replies that does what it is called for, or returns `err`
and does nothing. -/
def Reply.orFails (ok : Bool) (err : ℕ) (old new : List UInt8) (v : ℕ) : Reply :=
  if ok then ⟨0, new, v⟩ else ⟨err, old, 0⟩

/-- An nng that does what it is called for; `true` where it has memory. Its errors
are `NNG_ENOMEM` and `NNG_EINVAL`. -/
def plain : Nng Bool where
  call := fun op body hasMemory =>
    let size := body.length
    match op with
    | .clear => ⟨0, [], 0⟩
    | .reserve _ => .orFails hasMemory 2 body body 0
    | .resize newSize =>
      .orFails (newSize ≤ size || hasMemory) 2 body
        (body.take newSize ++ List.replicate (newSize - size) 255) 0
    | .trim n => .orFails (n ≤ size) 3 body (body.drop n) 0
    | .chop n => .orFails (n ≤ size) 3 body (body.take (size - n)) 0
    | .appendUint w v => .orFails hasMemory 2 body (body ++ netBytes v w.bytes) 0
    | .chopUint w =>
      .orFails (w.bytes ≤ size) 3 body (body.take (size - w.bytes))
        (beNat (body.drop (size - w.bytes)))
    | .trimUint w =>
      .orFails (w.bytes ≤ size) 3 body (body.drop w.bytes) (beNat (body.take w.bytes))
  grow := fun growth data body hasMemory =>
    .orFails hasMemory 2 (body.getD [])
      (match growth with
      | .append => body.getD [] ++ data
      | .insert => data ++ body.getD []) 0

/-- A message is made, exported, refuses to be cleared, is released and cleared. -/
def exported : List (Act Bool) :=
  [.init (some [1, 2]), .acquire 0, .mutate 1 .clear true, .release 0 ⟨0, 0⟩,
    .mutate 1 .clear true]

theorem exports_pin_iff_exported :
    (message plain).Meets (Pins plain) (message plain).init exported :=
  (exports_pin_iff (by decide)).mpr (by decide)

/-- **`msg.append(msg)`** gives nng the body to reallocate while its own view
of it is outstanding. -/
theorem append_of_itself :
    ¬ (∀ as, (message plain).Valid (message plain).init as →
      (message plain).Meets (Pins plain) (message plain).init as) := by
  intro hclaim
  have hspares := (pins_run_iff counted_empty (by decide)).mp (hclaim
    [.init (some [1, 2]), .enter 0 .append .self, .convert 0, .grow 0 true] (by decide))
  revert hspares
  decide

/-- So does a second `__init__` under a view, which frees it. -/
example : ¬ (message plain).Meets Spares (message plain).init
    [.init (some [1, 2]), .acquire 0, .init (some [3])] := by decide

/-! ## Live exports -/

/-- **Every export points into the body it was acquired from**: nng has not
been given it since. -/
def Live (s : State) : Prop := ∀ x ∈ s.exports, s.moves x.msg = x.moves

theorem mem_exports_closeFrame {f : Frame} {x : Export}
    (h : x ∈ (s.dropView t f.mv).popFrame.exports) : x ∈ s.exports := by
  revert h
  cases f.mv with
  | own y => exact fun h => List.mem_of_mem_erase h
  | _ => exact id

/-- An export there was not before is of now, and the step that acquires it
gives nothing to nng. -/
theorem mem_exports_run {a : Act σ} {x : Export} (h : x ∈ (run nng s a).2.exports) :
    x ∈ s.exports ∨ s.moves x.msg = x.moves ∧ handsOver s a = none := by
  have htake : ∀ t m, x ∈ (s.takeExport t m).exports →
      x ∈ s.exports ∨ s.moves x.msg = x.moves := by
    intro t m hx
    rcases List.mem_append.mp hx with hx | hx
    · exact Or.inl hx
    · rw [List.mem_singleton.mp hx]; exact Or.inr rfl
  cases a with
  | acquire t =>
    simp only [Message.run, State.getBuffer] at h
    split at h
    · exact Or.inl h
    · exact (htake t _ h).imp_right fun hx => ⟨hx, rfl⟩
  | release t y => exact Or.inl (List.mem_of_mem_erase h)
  | mutate t op x =>
    simp only [Message.run, State.mutate] at h
    split at h <;> exact Or.inl h
  | steal t =>
    simp only [Message.run, State.stealPtr] at h
    split at h <;> exact Or.inl h
  | enter t growth arg =>
    simp only [Message.run, State.enter] at h
    split at h <;> exact Or.inl h
  | convert t =>
    simp only [Message.run, State.convert] at h
    split at h
    · exact Or.inl h
    · split at h
      · exact Or.inl h
      · split at h
        · exact Or.inl h
        · exact (htake t _ h).imp_right fun hx => ⟨hx, rfl⟩
  | grow t x =>
    simp only [Message.run, State.grow] at h
    split at h
    · exact Or.inl h
    · have hx := mem_exports_closeFrame h
      revert hx
      split <;> exact Or.inl
  | leave t =>
    simp only [Message.run, State.leave] at h
    split at h
    · exact Or.inl h
    · exact Or.inl (mem_exports_closeFrame h)
  | init new =>
    cases hhandle : s.handle <;> cases new <;>
      simp only [Message.run, State.assign, hhandle] at h <;> exact Or.inl h
  | restore m => exact Or.inl h
  | sent m => exact Or.inl h
  | write y data => exact Or.inl h
  | read t =>
    simp only [Message.run] at h
    split at h <;> exact Or.inl h

/-- **A step that spares the body keeps every export live.** -/
theorem Live.run (hs : Live s) (h : Counted s) {a : Act σ} (hok : Spares s a)
    (hen : Enabled s a) : Live (run nng s a).2 := by
  intro x hx
  rw [moves_run]
  rcases mem_exports_run hx with hx | ⟨hnow, hnone⟩
  · -- an old export: the step gives nothing to nng
    have hpins : Pins nng s a := (pins_iff h hen).mpr hok
    rw [(hpins (List.ne_nil_of_mem hx)).1]
    simpa using hs x hx
  · rw [hnone]
    simpa using hnow

theorem live_of_reachWhen (h : (message nng).ReachWhen Spares s) : Live s :=
  h.invariant (fun _ hx => absurd hx List.not_mem_nil) fun _ _ hr hs hok hen =>
    hs.run (counted_of_reach hr.reach) hok hen

end Message

end PyNng
