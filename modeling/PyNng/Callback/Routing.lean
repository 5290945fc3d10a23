import PyNng.Callback.Model
import PyNng.Dispatch.Drain
import Mathlib.Data.List.ReduceOption
/-!
# Callback — every id the dispatcher takes is an operation's it can call

The id is an address, and addresses are used again. It is the dict that keeps
the object, and with it the address, until the callable is popped; what is in
the queue was pushed by operations that are still in the dict, once by each.
So the callables are called in the order in which the trampolines have pushed,
and no id is ever met that belongs to another operation, or to none.
-/

namespace PyNng

namespace Callback

open Async (Aio Fut)

variable {s s' : State} {a : Act} {i : ℕ} {o : Op}

/-! ## The invariant -/

/-- The trampoline has pushed. -/
def hasFired : Aio → Bool
  | .pushing _ | .finished _ => true
  | .idle | .busy _ | .completed _ => false

/-- The aio is started by the nng call, which comes after the registration. -/
def Op.Fits (o : Op) : Prop :=
  match o.pc with
  | .unborn | .created | .registered => o.aio = .idle
  | .submitted => o.aio ≠ .idle
  | .dropped => True

/-- It was put into the dict. -/
def Op.WasKept (o : Op) : Prop := o.pc = .registered ∨ o.aio ≠ .idle

/-- How many of the pushes the dispatcher has looked up. -/
def State.taken (s : State) : ℕ :=
  s.disp.dispatched.length + if s.hand = .empty then 0 else 1

/-- What an operation has to do with the queue, the dict and the heap. -/
structure State.Row (s : State) (i : ℕ) (o : Op) : Prop where
  pushing : o.aio.isPushing = true ↔ ∃ k, s.disp.pusher (.inl i) = .notifying k
  once : s.fired.count (some i) = if hasFired o.aio then 1 else 0
  fits : o.Fits
  addr : o.pc ≠ .unborn → o.addr ≠ 0
  /-- What something of the program's refers to is not freed. -/
  live : o.pc.refers = true ∨ i ∈ s.dict ∨ s.hand.op = some i → s.heap o.addr = some i
  dict : i ∈ s.dict ↔ o.WasKept ∧ i ∉ s.called
  hand : s.hand.op = some i → s.disp.loop = .dispatching o.addr ∧ i ∈ s.called

/-- **The invariant.** -/
structure Kept (s : State) : Prop where
  accounted : DispatchQueue.Accounted s.disp
  ids : s.disp.pushed = s.fired.map s.idOf
  called : s.called = (s.fired.take s.taken).reduceOption
  row : ∀ i, s.Row i (s.op i)

theorem exists_completed {aio : Aio} (h : aio.isCompleted = true) :
    ∃ rc, aio = .completed rc := by
  cases aio with
  | completed rc => exact ⟨rc, rfl⟩
  | _ => cases h

theorem exists_pushing {aio : Aio} (h : aio.isPushing = true) : ∃ rc, aio = .pushing rc := by
  cases aio with
  | pushing rc => exact ⟨rc, rfl⟩
  | _ => cases h

namespace Kept

theorem born (h : Kept s) (hi : (s.op i).aio ≠ .idle) : (s.op i).pc ≠ .unborn := by
  intro hpc
  have hfits := (h.row i).fits
  unfold Op.Fits at hfits
  rw [hpc] at hfits
  exact hi hfits

theorem aio_ne_idle_of_hasFired {aio : Aio} (h : hasFired aio = true) : aio ≠ .idle := by
  rintro rfl
  cases h

theorem mem_called_iff (h : Kept s) : i ∈ s.called ↔ some i ∈ s.fired.take s.taken := by
  rw [h.called]
  exact List.reduceOption_mem_iff

/-- Whoever pushed has fired. -/
theorem hasFired_of_mem (h : Kept s) (hi : some i ∈ s.fired) : hasFired (s.op i).aio = true := by
  have hc := (h.row i).once
  have hpos : 0 < s.fired.count (some i) := List.count_pos_iff.mpr hi
  by_contra hno
  rw [if_neg hno] at hc
  omega

theorem hasFired_of_called (h : Kept s) (hi : i ∈ s.called) : hasFired (s.op i).aio = true :=
  h.hasFired_of_mem (List.mem_of_mem_take (h.mem_called_iff.mp hi))

/-- Before its nng call an operation has pushed nothing, and nothing of it was called. -/
theorem not_called_of_idle (h : Kept s) (hi : (s.op i).aio = .idle) : i ∉ s.called := by
  intro hc
  have hfired := h.hasFired_of_called hc
  rw [hi] at hfired
  cases hfired

/-- Addresses tell apart what is not freed. -/
theorem eq_of_addr {j : ℕ} (hi : s.heap (s.op i).addr = some i)
    (hj : s.heap (s.op j).addr = some j) (he : (s.op j).addr = (s.op i).addr) : j = i := by
  rw [he, hi] at hj
  exact (Option.some.inj hj).symm

theorem live_of_mem (h : Kept s) (hi : i ∈ s.dict) : s.heap (s.op i).addr = some i :=
  (h.row i).live (.inr (.inl hi))

/-- **A registered operation is found under its address.** -/
theorem lookup_of_mem (h : Kept s) (hi : i ∈ s.dict) : s.lookup (s.op i).addr = some i := by
  rcases hfind : s.lookup (s.op i).addr with _ | j
  · have hnone := List.find?_eq_none.mp hfind i hi
    simp at hnone
  · have hj : j ∈ s.dict := List.mem_of_find?_eq_some hfind
    have haddr : (s.op j).addr = (s.op i).addr := by simpa using List.find?_some hfind
    rw [eq_of_addr (h.live_of_mem hi) (h.live_of_mem hj) haddr]

theorem mem_without_iff (h : Kept s) {j : ℕ} (hi : s.heap (s.op i).addr = some i) :
    j ∈ s.without (s.op i).addr ↔ j ∈ s.dict ∧ j ≠ i := by
  simp only [State.without, List.mem_filter, decide_eq_true_eq, ne_eq]
  refine and_congr_right fun hj => not_congr ⟨fun he => ?_, fun he => by rw [he]⟩
  exact eq_of_addr hi (h.live_of_mem hj) he

/-! ## The id in hand -/

/-- **Who pushed the id** that is in `_dispatch_one`. -/
theorem front (h : Kept s) {id : ℕ} (hl : s.disp.loop = .dispatching id) :
    ∃ x, s.fired[s.disp.dispatched.length]? = some x ∧ s.idOf x = id := by
  have hsplit := h.accounted.split
  rw [hl, h.ids] at hsplit
  have hat : (s.fired.map s.idOf)[s.disp.dispatched.length]? = some id := by
    rw [← hsplit]
    simp [DispatchQueue.LoopPc.inHand]
  rw [List.getElem?_map] at hat
  cases hx : s.fired[s.disp.dispatched.length]? with
  | none =>
    rw [hx] at hat
    cases hat
  | some x =>
    rw [hx] at hat
    exact ⟨x, rfl, Option.some.inj hat⟩

/-- An operation pushes once, so what is still to come was not called. -/
theorem not_called_of_front (h : Kept s) (hfront : s.fired[s.taken]? = some (some i)) :
    i ∉ s.called := by
  intro hi
  have htake := h.mem_called_iff.mp hi
  have hlt : s.taken < s.fired.length := (List.getElem?_eq_some_iff.mp hfront).1
  have hat : s.fired[s.taken] = some i := (List.getElem?_eq_some_iff.mp hfront).2
  have hsplit : s.fired.take s.taken ++ some i :: s.fired.drop (s.taken + 1) = s.fired := by
    rw [← hat, List.getElem_cons_drop, List.take_append_drop]
  have hc := (h.row i).once
  rw [← hsplit, List.count_append, List.count_cons_self] at hc
  have hpos : 0 < (s.fired.take s.taken).count (some i) := List.count_pos_iff.mpr htake
  split at hc <;> omega

/-- **An id other than the sentinel finds its operation.** -/
theorem lookup_of_dispatching (h : Kept s) {id : ℕ} (hl : s.disp.loop = .dispatching id)
    (hid : id ≠ 0) (hhand : s.hand = .empty) :
    ∃ i, s.fired[s.taken]? = some (some i) ∧ (s.op i).addr = id ∧ i ∈ s.dict ∧
      s.lookup id = some i := by
  have htaken : s.taken = s.disp.dispatched.length := by
    unfold State.taken
    rw [if_pos hhand, Nat.add_zero]
  obtain ⟨x, hx, hxid⟩ := h.front hl
  cases x with
  | none => exact absurd hxid.symm hid
  | some i =>
    have haddr : (s.op i).addr = id := hxid
    rw [← htaken] at hx
    have hfired := h.hasFired_of_mem (List.mem_of_getElem? hx)
    have hmem : i ∈ s.dict :=
      (h.row i).dict.mpr ⟨.inr (aio_ne_idle_of_hasFired hfired), h.not_called_of_front hx⟩
    refine ⟨i, hx, haddr, hmem, ?_⟩
    rw [← haddr]
    exact h.lookup_of_mem hmem

end Kept

/-! ## The frame -/

/-- The addresses of those that have pushed are as they were. -/
theorem map_idOf_congr {fired : List (Option ℕ)}
    (h : ∀ i, some i ∈ fired → (s'.op i).addr = (s.op i).addr) :
    fired.map s.idOf = fired.map s'.idOf := by
  refine List.map_congr_left fun x hx => ?_
  cases x with
  | none => rfl
  | some i => exact (h i hx).symm

theorem setOp_addr (hop : s'.op = s.op) (ho : o.addr = (s.op i).addr) (j : ℕ) :
    ((s'.setOp i o).op j).addr = (s.op j).addr := by
  refine forall_setOp (P := fun j p => p.addr = (s.op j).addr) ho (fun k _ => ?_) j
  rw [hop]

theorem State.Row.of_setOp {j : ℕ} {p : Op} (h : s.Row j p) : (s.setOp i o).Row j p :=
  ⟨h.pushing, h.once, h.fits, h.addr, h.live, h.dict, h.hand⟩

/-- **A step of one operation**, the dict and the queue being what they were. -/
theorem Kept.setOp (h : Kept s) (haddr : o.addr = (s.op i).addr) (hrow : s.Row i o) :
    Kept (s.setOp i o) where
  accounted := h.accounted
  ids := h.ids.trans (map_idOf_congr fun j _ => setOp_addr rfl haddr j)
  called := h.called
  row := forall_setOp (P := fun j p => (s.setOp i o).Row j p) hrow.of_setOp
    fun j _ => (h.row j).of_setOp

/-- What it asks of a step that neither makes the operation nor lets its aio fire. -/
theorem State.Row.step {o o' : Op} (h : s.Row i o) (haddr : o'.addr = o.addr)
    (hfired : hasFired o'.aio = hasFired o.aio) (hpushing : o'.aio.isPushing = o.aio.isPushing)
    (hfits : o'.Fits) (hrefers : o'.pc.refers = true → o.pc.refers = true)
    (hkept : o'.WasKept ↔ o.WasKept) (hborn : o'.pc ≠ .unborn → o.pc ≠ .unborn) : s.Row i o' where
  pushing := by rw [hpushing]; exact h.pushing
  once := by rw [hfired]; exact h.once
  fits := hfits
  addr hb := by rw [haddr]; exact h.addr (hborn hb)
  live hr := by rw [haddr]; exact h.live (hr.imp_left hrefers)
  dict := by rw [hkept]; exact h.dict
  hand := by rw [haddr]; exact h.hand

/-- The address, the aio and the place of the caller are as before. -/
theorem Kept.same (h : Kept s) {o : Op} (haddr : o.addr = (s.op i).addr)
    (haio : o.aio = (s.op i).aio) (hpc : o.pc = (s.op i).pc) : Kept (s.setOp i o) := by
  have hfits := (h.row i).fits
  unfold Op.Fits at hfits
  refine h.setOp haddr ((h.row i).step haddr (by rw [haio]) (by rw [haio]) ?_ (fun hr => hpc ▸ hr)
    ?_ fun hb => hpc ▸ hb)
  · unfold Op.Fits
    rw [hpc, haio]
    exact hfits
  · unfold Op.WasKept
    rw [hpc, haio]

/-- **A step at the queue** that neither pushes nor dispatches. -/
theorem Kept.dispatch (h : Kept s) {b : DispatchQueue.Act (ℕ ⊕ ℕ)}
    (hen : DispatchQueue.Enabled s.disp b)
    (hpushed : (DispatchQueue.next s.disp b).pushed = s.disp.pushed)
    (hpusher : ∀ i, (DispatchQueue.next s.disp b).pusher (.inl i) = s.disp.pusher (.inl i))
    (hdone : (DispatchQueue.next s.disp b).dispatched = s.disp.dispatched)
    (hloop : s.hand = .empty ∨ (DispatchQueue.next s.disp b).loop = s.disp.loop) :
    Kept (s.dispatch b) where
  accounted := h.accounted.next hen
  ids := hpushed.trans h.ids
  called := by
    have htaken : (s.dispatch b).taken = s.taken := by
      unfold State.taken State.dispatch
      dsimp only
      rw [hdone]
    rw [htaken]
    exact h.called
  row i :=
    { h.row i with
      pushing := by
        show _ ↔ ∃ k, (DispatchQueue.next s.disp b).pusher (.inl i) = .notifying k
        rw [hpusher]
        exact (h.row i).pushing
      hand := fun hi => by
        obtain ⟨hl, hc⟩ := (h.row i).hand hi
        refine ⟨?_, hc⟩
        rcases hloop with he | he
        · have hi : s.hand.op = some i := hi
          rw [he] at hi
          cases hi
        · exact he.trans hl }

/-! ## The dispatcher -/

theorem Hand.exists_op {hand : Hand} (h : hand ≠ .empty) : ∃ i, hand.op = some i := by
  cases hand with
  | empty => exact absurd rfl h
  | called i | setting i => exact ⟨i, rfl⟩

/-- The future is not done. -/
theorem Kept.setting (h : Kept s) (hhand : s.hand = .called i) :
    Kept { s with hand := .setting i } := by
  have hop : Hand.op (.setting i) = s.hand.op := by rw [hhand]; rfl
  refine ⟨h.accounted, h.ids, ?_, fun j =>
    { h.row j with live := fun hj => ?_, hand := fun hj => ?_ }⟩
  · have htaken : State.taken { s with hand := .setting i } = s.taken := by
      unfold State.taken
      rw [hhand, if_neg nofun, if_neg nofun]
    rw [htaken]
    exact h.called
  · exact (h.row j).live (hj.imp_right (Or.imp_right fun ho => hop.symm.trans ho))
  · exact (h.row j).hand (hop.symm.trans hj)

theorem next_dispatch {d : DispatchQueue.State (ℕ ⊕ ℕ)} {id : ℕ} (hl : d.loop = .dispatching id) :
    DispatchQueue.next d .dispatch =
      { d with loop := .draining, dispatched := d.dispatched ++ [id] } := by
  dsimp only [DispatchQueue.next]
  rw [hl]

theorem next_notify {d : DispatchQueue.State (ℕ ⊕ ℕ)} {p : ℕ ⊕ ℕ} {k : ℕ}
    (hk : d.pusher p = .notifying k) :
    DispatchQueue.next d (.notify p) =
      { d with
        pusher := Function.update d.pusher p .idle
        completed := Function.update d.completed k true } := by
  dsimp only [DispatchQueue.next]
  rw [hk]

/-- **`_dispatch_one` returns** from an operation. -/
theorem Kept.finish (h : Kept s) (hhand : s.hand ≠ .empty) : Kept s.finish := by
  obtain ⟨i, hi⟩ := Hand.exists_op hhand
  obtain ⟨hl, -⟩ := (h.row i).hand hi
  have hnext := next_dispatch hl
  have hacc := h.accounted.next (a := .dispatch) ⟨_, hl⟩
  unfold State.finish State.dispatch
  rw [hnext] at hacc ⊢
  refine ⟨hacc, h.ids, ?_, fun j => { h.row j with live := fun hj => ?_, hand := nofun }⟩
  · rw [h.called]
    unfold State.taken
    dsimp only
    rw [if_neg hhand, if_pos rfl, List.length_append]
    rfl
  · refine (h.row j).live (hj.imp_right fun hj => ?_)
    exact hj.elim .inl nofun

/-- **The sentinel** is no operation's. -/
theorem Kept.drainPipes (h : Kept s) (hl : s.disp.loop = .dispatching 0) (raises : Bool) :
    Kept (s.dispatch (if raises then .dispatchRaises else .dispatch)) := by
  have haddr : ∀ {i}, hasFired (s.op i).aio = true → (s.op i).addr ≠ 0 := fun {i} hfired =>
    (h.row i).addr (h.born (Kept.aio_ne_idle_of_hasFired hfired))
  have hempty : s.hand = .empty := by
    by_contra hne
    obtain ⟨i, hi⟩ := Hand.exists_op hne
    obtain ⟨hi', hc⟩ := (h.row i).hand hi
    refine haddr (h.hasFired_of_called hc) ?_
    exact DispatchQueue.LoopPc.dispatching.inj (hi'.symm.trans hl)
  obtain ⟨x, hx, hx0⟩ := h.front hl
  have hnone : x = none := by
    cases x with
    | none => rfl
    | some i => exact absurd hx0 (haddr (h.hasFired_of_mem (List.mem_of_getElem? hx)))
  -- however it ends, the sentinel has been dispatched
  obtain ⟨loop, hnext⟩ : ∃ loop, DispatchQueue.next s.disp
      (if raises then .dispatchRaises else .dispatch) =
        { s.disp with loop, dispatched := s.disp.dispatched ++ [0] } := by
    cases raises with
    | true => exact ⟨.raised, rfl⟩
    | false => exact ⟨.draining, next_dispatch hl⟩
  have hen : DispatchQueue.Enabled s.disp (if raises then .dispatchRaises else .dispatch) := by
    cases raises with
    | true => exact hl
    | false => exact ⟨0, hl⟩
  have hacc := h.accounted.next hen
  unfold State.dispatch
  rw [hnext] at hacc ⊢
  refine ⟨hacc, h.ids, ?_, fun i => { h.row i with hand := fun hi => ?_ }⟩
  · rw [h.called]
    unfold State.taken
    dsimp only
    rw [if_pos hempty, List.length_append, Nat.add_zero, Nat.add_zero, List.length_singleton,
      List.take_add_one, hx, hnone, List.reduceOption_append]
    exact (List.append_nil _).symm
  · have hi : s.hand.op = some i := hi
    rw [hempty] at hi
    cases hi

/-- **The callable is popped**: that of the operation whose trampoline pushed the id. -/
theorem Kept.popId (h : Kept s) {id : ℕ} (hl : s.disp.loop = .dispatching id) (hid : id ≠ 0)
    (hhand : s.hand = .empty) :
    ∃ i, i ∉ s.called ∧ i ∈ s.dict ∧
      s.popId id =
        { s with dict := s.without id, hand := .called i, called := s.called ++ [i] } ∧
      Kept (s.popId id) := by
  obtain ⟨i, hfront, haddr, hmem, hlook⟩ := h.lookup_of_dispatching hl hid hhand
  have hpop : s.popId id =
      { s with dict := s.without id, hand := .called i, called := s.called ++ [i] } := by
    unfold State.popId
    rw [hlook]
  refine ⟨i, h.not_called_of_front hfront, hmem, hpop, ?_⟩
  rw [hpop, ← haddr]
  have hlive := h.live_of_mem hmem
  refine ⟨h.accounted, h.ids, ?_, fun j =>
    { h.row j with live := fun hj => ?_, dict := ?_, hand := fun hj => ?_ }⟩
  · have hc := h.called
    unfold State.taken at hfront hc ⊢
    rw [if_pos hhand, Nat.add_zero] at hfront hc
    dsimp only
    rw [if_neg nofun, List.take_add_one, List.reduceOption_append, hfront, ← hc]
    rfl
  · rcases hj with hj | hj | hj
    · exact (h.row j).live (.inl hj)
    · exact h.live_of_mem ((h.mem_without_iff hlive).mp hj).1
    · obtain rfl : i = j := Option.some.inj hj
      exact hlive
  · rw [h.mem_without_iff hlive, (h.row j).dict, List.mem_append, List.mem_singleton, not_or,
      and_assoc]
  · obtain rfl : i = j := Option.some.inj hj
    refine ⟨hl.trans (by rw [haddr]), ?_⟩
    exact List.mem_append_right _ (List.mem_singleton.mpr rfl)

/-! ## The operations -/

/-- Before its nng call the aio is idle. -/
theorem Op.Fits.idle (h : o.Fits) (hpc : o.pc = .unborn ∨ o.pc = .created ∨ o.pc = .registered) :
    o.aio = .idle := by
  unfold Op.Fits at h
  rcases hpc with hpc | hpc | hpc <;> rw [hpc] at h <;> exact h

/-- **An object is made** where there was none. -/
theorem Kept.create (h : Kept s) (hpc : (s.op i).pc = .unborn) {addr : ℕ}
    (hfree : s.heap addr = none) (hne : addr ≠ 0) (kind : Kind) :
    Kept ({ s with heap := Function.update s.heap addr (some i) }.setOp i
      { s.op i with pc := .created, kind, addr }) := by
  have hidle := (h.row i).fits.idle (.inl hpc)
  have hcalled := h.not_called_of_idle hidle
  have hheap : ∀ {a j}, s.heap a = some j →
      Function.update s.heap addr (some i) a = some j := by
    intro a j ha
    rw [Function.update_of_ne, ha]
    rintro rfl
    rw [hfree] at ha
    cases ha
  refine ⟨h.accounted, h.ids.trans (map_idOf_congr fun j hj => ?_), h.called, ?_⟩
  · have hji : j ≠ i := by
      rintro rfl
      have hfired := h.hasFired_of_mem hj
      rw [hidle] at hfired
      cases hfired
    rw [setOp_op_of_ne hji]
  · refine forall_setOp (P := fun j p => State.Row _ j p) ?_ fun j _ =>
      { h.row j with live := fun hr => hheap ((h.row j).live hr) }
    refine { h.row i with fits := hidle, addr := fun _ => hne, live := fun _ => ?_, dict := ?_,
                          hand := fun hi => absurd ((h.row i).hand hi).2 hcalled }
    · exact Function.update_self ..
    · refine (h.row i).dict.trans (and_congr_left fun _ => ?_)
      unfold Op.WasKept
      rw [hpc, hidle]
      exact ⟨fun hk => hk.elim nofun fun hk => absurd rfl hk,
        fun hk => hk.elim nofun fun hk => absurd rfl hk⟩

/-- **`_prepare_submit`**: the key was nobody's. -/
theorem Kept.prepareSubmit (h : Kept s) (hpc : (s.op i).pc = .created) :
    Kept ({ s with dict := s.without (s.op i).addr ++ [i] }.setOp i
      { s.op i with pc := .registered }) := by
  have hidle := (h.row i).fits.idle (.inr (.inl hpc))
  have hlive := (h.row i).live (.inl (by rw [hpc]; rfl))
  have hdict : ∀ j, j ≠ i → (j ∈ s.without (s.op i).addr ++ [i] ↔ j ∈ s.dict) := by
    intro j hj
    rw [List.mem_append, List.mem_singleton, h.mem_without_iff hlive]
    exact ⟨fun hm => hm.elim And.left fun he => absurd he hj, fun hm => .inl ⟨hm, hj⟩⟩
  refine ⟨h.accounted, h.ids.trans (map_idOf_congr fun j _ => ?_), h.called, ?_⟩
  · refine setOp_addr ?_ ?_ j <;> rfl
  · refine forall_setOp (P := fun j p => State.Row _ j p) ?_ fun j hj =>
      { h.row j with
        live := fun hr => (h.row j).live (hr.imp_right (Or.imp_left (hdict j hj).mp))
        dict := (hdict j hj).trans (h.row j).dict }
    have hmem : i ∈ s.without (s.op i).addr ++ [i] :=
      List.mem_append_right _ (List.mem_singleton.mpr rfl)
    exact { h.row i with
      fits := hidle
      addr := fun _ => (h.row i).addr (by rw [hpc]; nofun)
      live := fun _ => hlive
      dict := ⟨fun _ => ⟨.inl rfl, h.not_called_of_idle hidle⟩, fun _ => hmem⟩ }

theorem Kept.taken_le (h : Kept s) : s.taken ≤ s.fired.length := by
  have hsplit := congrArg List.length h.accounted.split
  rw [h.ids, List.length_map, List.length_append, List.length_append] at hsplit
  unfold State.taken
  split
  · omega
  · rename_i hne
    obtain ⟨j, hj⟩ := Hand.exists_op hne
    have hone : s.disp.loop.inHand.length = 1 := by
      rw [((h.row j).hand hj).1]
      rfl
    omega

/-- Once started, an aio is started. -/
theorem Op.Fits.started (h : o.Fits) (hne : o.aio ≠ .idle) {aio : Aio} (haio : aio ≠ .idle) :
    Op.Fits { o with aio } := by
  unfold Op.Fits at h ⊢
  dsimp only
  cases hpc : o.pc <;> rw [hpc] at h <;> first | exact absurd h hne | exact haio | trivial

/-- The trampoline is called once, and pushes nothing else. -/
theorem Kept.pusher_idle (h : Kept s) (hat : (s.op i).aio.isCompleted = true) :
    s.disp.pusher (.inl i) = .idle := by
  cases hp : s.disp.pusher (.inl i) with
  | idle => rfl
  | notifying k =>
    have hpush := (h.row i).pushing.mpr ⟨k, hp⟩
    obtain ⟨rc, haio⟩ := exists_completed hat
    rw [haio] at hpush
    cases hpush

/-- **The trampoline pushes.** -/
theorem Kept.fire (h : Kept s) (hat : (s.op i).aio.isCompleted = true) :
    Kept ({ s.dispatch (.enqueue (.inl i) (s.op i).addr) with
        fired := s.fired ++ [some i] }.setOp i
      { s.op i with aio := .pushing (s.op i).aio.result }) := by
  obtain ⟨rc, haio⟩ := exists_completed hat
  have hne : (s.op i).aio ≠ .idle := by rw [haio]; nofun
  have hzero : s.fired.count (some i) = 0 := by rw [(h.row i).once, haio]; rfl
  have hen : DispatchQueue.Enabled s.disp (.enqueue (.inl i) (s.op i).addr) := h.pusher_idle hat
  refine ⟨h.accounted.next hen, ?_, ?_, ?_⟩
  · show s.disp.pushed ++ [(s.op i).addr] = (s.fired ++ [some i]).map _
    have hids : (s.fired ++ [some i]).map s.idOf = s.disp.pushed ++ [(s.op i).addr] := by
      rw [List.map_append, h.ids]
      rfl
    rw [← hids]
    refine map_idOf_congr fun j _ => ?_
    refine setOp_addr ?_ ?_ j <;> rfl
  · show s.called = ((s.fired ++ [some i]).take s.taken).reduceOption
    rw [List.take_append_of_le_length h.taken_le]
    exact h.called
  · refine forall_setOp (P := fun j p => State.Row _ j p) ?_ fun j hj =>
      { h.row j with pushing := ?_, once := ?_ }
    · refine { h.row i with pushing := ?_, once := ?_, fits := ?_, dict := ?_ }
      · exact ⟨fun _ => ⟨_, Function.update_self ..⟩, fun _ => rfl⟩
      · show (s.fired ++ [some i]).count (some i) = 1
        rw [List.count_append, hzero, List.count_singleton_self]
      · exact (h.row i).fits.started hne nofun
      · refine (h.row i).dict.trans (and_congr_left fun _ => ?_)
        exact ⟨fun _ => .inr nofun, fun _ => .inr hne⟩
    · show _ ↔ ∃ k, Function.update s.disp.pusher (.inl i) _ (.inl j) = .notifying k
      rw [Function.update_of_ne fun he => hj (Sum.inl.inj he)]
      exact (h.row j).pushing
    · show (s.fired ++ [some i]).count (some j) = _
      have hneq : (some i == some j) = false :=
        beq_false_of_ne fun he => hj (Option.some.inj he).symm
      rw [List.count_append, List.count_singleton, hneq, (h.row j).once]
      rfl

/-- **The trampoline returns.** -/
theorem Kept.fired (h : Kept s) (hat : (s.op i).aio.isPushing = true) :
    Kept ((s.dispatch (.notify (.inl i))).setOp i
      { s.op i with aio := .finished (s.op i).aio.result }) := by
  obtain ⟨rc, haio⟩ := exists_pushing hat
  have hne : (s.op i).aio ≠ .idle := by rw [haio]; nofun
  obtain ⟨k, hk⟩ := (h.row i).pushing.mp hat
  have hen : DispatchQueue.Enabled s.disp (.notify (.inl i)) := ⟨k, hk⟩
  have hacc := h.accounted.next hen
  unfold State.dispatch
  rw [next_notify hk] at hacc ⊢
  refine ⟨hacc, h.ids.trans (map_idOf_congr fun j _ => ?_), h.called, ?_⟩
  · refine setOp_addr ?_ ?_ j <;> rfl
  · refine forall_setOp (P := fun j p => State.Row _ j p) ?_ fun j hj =>
      { h.row j with pushing := ?_ }
    · refine { h.row i with pushing := ?_, once := ?_, fits := ?_, dict := ?_ }
      · show _ ↔ ∃ k, Function.update s.disp.pusher (.inl i) _ (.inl i) = .notifying k
        rw [Function.update_self]
        exact ⟨Bool.noConfusion, fun h => h.elim fun _ => DispatchQueue.PushPc.noConfusion⟩
      · show s.fired.count (some i) = 1
        rw [(h.row i).once, haio]
        rfl
      · exact (h.row i).fits.started hne nofun
      · refine (h.row i).dict.trans (and_congr_left fun _ => ?_)
        exact ⟨fun _ => .inr nofun, fun _ => .inr hne⟩
    · show _ ↔ ∃ k, Function.update s.disp.pusher (.inl i) _ (.inl j) = .notifying k
      rw [Function.update_of_ne fun he => hj (Sum.inl.inj he)]
      exact (h.row j).pushing

/-- **A pipe event** pushes the sentinel. -/
theorem Kept.pipeEvent (h : Kept s) {p : ℕ} (hidle : s.disp.pusher (.inr p) = .idle) :
    Kept { s.dispatch (.enqueue (.inr p) 0) with fired := s.fired ++ [none] } := by
  have hen : DispatchQueue.Enabled s.disp (.enqueue (.inr p) 0) := hidle
  refine ⟨h.accounted.next hen, ?_, ?_, fun j => { h.row j with pushing := ?_, once := ?_ }⟩
  · show s.disp.pushed ++ [0] = (s.fired ++ [none]).map s.idOf
    rw [List.map_append, h.ids]
    rfl
  · show s.called = ((s.fired ++ [none]).take s.taken).reduceOption
    rw [List.take_append_of_le_length h.taken_le]
    exact h.called
  · show _ ↔ ∃ k, Function.update s.disp.pusher (.inr p) (.notifying s.disp.pushed.length)
      (.inl j) = .notifying k
    rw [Function.update_of_ne Sum.inl_ne_inr]
    exact (h.row j).pushing
  · show (s.fired ++ [none]).count (some j) = _
    rw [List.count_append, (h.row j).once]
    rfl

theorem Kept.pipeEventDone (h : Kept s) {p : ℕ}
    (hat : ∃ k, s.disp.pusher (.inr p) = .notifying k) : Kept (s.dispatch (.notify (.inr p))) := by
  obtain ⟨k, hk⟩ := hat
  have hen : DispatchQueue.Enabled s.disp (.notify (.inr p)) := ⟨k, hk⟩
  refine h.dispatch hen ?_ (fun i => ?_) ?_ (.inr ?_) <;> rw [next_notify hk]
  show Function.update s.disp.pusher (.inr p) .idle (.inl i) = s.disp.pusher (.inl i)
  rw [Function.update_of_ne Sum.inl_ne_inr]

/-- **An object is freed** that nothing refers to. -/
theorem Kept.free (h : Kept s) (hpc : (s.op i).pc = .dropped)
    (hheap : s.heap (s.op i).addr = some i) (hdict : i ∉ s.dict) (hhand : s.hand.op ≠ some i) :
    Kept { s with heap := Function.update s.heap (s.op i).addr none } := by
  refine ⟨h.accounted, h.ids, h.called, fun j => { h.row j with live := fun hj => ?_ }⟩
  have hlive : s.heap (s.op j).addr = some j := (h.row j).live hj
  have hji : j ≠ i := by
    rintro rfl
    rcases hj with hj | hj | hj
    · rw [hpc] at hj
      cases hj
    · exact hdict hj
    · exact hhand hj
  show Function.update s.heap (s.op i).addr none (s.op j).addr = some j
  rw [Function.update_of_ne fun he => hji (Kept.eq_of_addr hheap hlive he)]
  exact hlive

/-- **The nng call** starts the aio. -/
theorem Kept.submit (h : Kept s) (hpc : (s.op i).pc = .registered) (closed : Bool) :
    Kept (s.setOp i { s.op i with pc := .submitted, aio := .busy closed }) := by
  have hidle := (h.row i).fits.idle (.inr (.inr hpc))
  have hkept : (s.op i).WasKept := .inl hpc
  refine h.setOp rfl ((h.row i).step rfl (by rw [hidle]; rfl) (by rw [hidle]; rfl) nofun
    (fun _ => by rw [hpc]; rfl) ⟨fun _ => hkept, fun _ => .inr nofun⟩ fun _ => by rw [hpc]; nofun)

/-- **nng gives the aio its result.** -/
theorem Kept.complete (h : Kept s) {rc : ℕ} (hat : (s.op i).aio.MayEnd rc) :
    Kept (s.setOp i { s.op i with aio := .completed rc }) := by
  obtain ⟨closed, haio⟩ : ∃ closed, (s.op i).aio = .busy closed := by
    cases haio : (s.op i).aio <;> rw [haio] at hat <;> first | exact ⟨_, rfl⟩ | cases hat
  have hne : (s.op i).aio ≠ .idle := by rw [haio]; nofun
  exact h.setOp rfl ((h.row i).step rfl (by rw [haio]; rfl) (by rw [haio]; rfl)
    ((h.row i).fits.started hne nofun) id ⟨fun _ => .inr hne, fun _ => .inr nofun⟩ id)

/-- **The caller lets go.** -/
theorem Kept.drop (h : Kept s) (hpc : (s.op i).pc = .created ∨ (s.op i).pc = .submitted) :
    Kept (s.setOp i { s.op i with pc := .dropped }) := by
  refine h.setOp rfl ((h.row i).step rfl rfl rfl trivial nofun ?_ fun _ => ?_)
  · unfold Op.WasKept
    rcases hpc with hpc | hpc <;> rw [hpc] <;>
      exact ⟨fun hk => hk.elim nofun .inr, fun hk => hk.elim nofun .inr⟩
  · rcases hpc with hpc | hpc <;> rw [hpc] <;> nofun

/-! ## Every step -/

theorem exists_of_isSetting {hand : Hand} (h : hand.isSetting = true) :
    ∃ i, hand = .setting i := by
  cases hand <;> first | exact ⟨_, rfl⟩ | cases h

theorem exists_of_calls {sync : Bool} {hand : Hand} (h : s.Calls sync hand) :
    ∃ i, hand = .called i ∧ decide ((s.op i).kind = .cbSync) = sync ∧
      (sync = false → (s.op i).aio.isBusy = false) := by
  cases hand <;> first | exact ⟨_, rfl, h⟩ | cases h

theorem exists_of_hasId {loop : DispatchQueue.LoopPc} (h : hasId loop = true) :
    ∃ id, loop = .dispatching id ∧ id ≠ 0 := by
  cases loop with
  | dispatching id => exact ⟨id, rfl, of_decide_eq_true h⟩
  | draining | testing | waiting | returned | raised => cases h

/-- While a callable runs, the loop is in `_dispatch_one`. -/
theorem Kept.hand_empty (h : Kept s) (hl : ∀ id, s.disp.loop ≠ .dispatching id) :
    s.hand = .empty := by
  by_contra hne
  obtain ⟨i, hi⟩ := Hand.exists_op hne
  exact hl _ ((h.row i).hand hi).1

theorem pop_same (d : DispatchQueue.State (ℕ ⊕ ℕ)) (empty : DispatchQueue.LoopPc) :
    (d.pop empty).pushed = d.pushed ∧ (d.pop empty).pusher = d.pusher ∧
      (d.pop empty).dispatched = d.dispatched := by
  unfold DispatchQueue.State.pop
  split <;> exact ⟨rfl, rfl, rfl⟩

theorem Kept.next (h : Kept s) (hen : Enabled s a) : Kept (Callback.next s a) := by
  cases a with
  | create i kind addr => exact h.create hen.1 hen.2.1 hen.2.2 kind
  | prepareSubmit i => exact h.prepareSubmit hen
  | submit i closed => exact h.submit hen closed
  | complete i rc => exact h.complete hen
  | fire i => exact h.fire hen
  | fired i => exact h.fired hen
  | pipeEvent p => exact h.pipeEvent hen
  | pipeEventDone p => exact h.pipeEventDone hen
  | callStop | setStopped => exact h.dispatch hen rfl (fun _ => rfl) rfl (.inr rfl)
  | getReady =>
    have hl : s.disp.loop = .draining := hen
    have hempty := h.hand_empty fun id => by rw [hl]; exact DispatchQueue.LoopPc.noConfusion
    obtain ⟨hpushed, hpusher, hdone⟩ := pop_same s.disp .testing
    exact h.dispatch hen hpushed (fun i => congrFun hpusher _) hdone (.inl hempty)
  | isStopped =>
    have hl : s.disp.loop = .testing := hen
    exact h.dispatch hen rfl (fun _ => rfl) rfl
      (.inl (h.hand_empty fun id => by rw [hl]; exact DispatchQueue.LoopPc.noConfusion))
  | waitFor =>
    have hl : s.disp.loop = .waiting := hen
    have hempty := h.hand_empty fun id => by rw [hl]; exact DispatchQueue.LoopPc.noConfusion
    obtain ⟨hpushed, hpusher, hdone⟩ := pop_same s.disp .draining
    exact h.dispatch hen hpushed (fun i => congrFun hpusher _) hdone (.inl hempty)
  | drainPipes raises => exact h.drainPipes hen raises
  | popCallable =>
    obtain ⟨hhand, hid⟩ := hen
    obtain ⟨id, hl, hne⟩ := exists_of_hasId hid
    obtain ⟨-, -, -, -, hkept⟩ := h.popId hl hne hhand
    dsimp only [Callback.next]
    rw [hl]
    exact hkept
  | test =>
    obtain ⟨i, hhand, -, -⟩ := exists_of_calls hen
    have hfinish : Kept s.finish := h.finish (by rw [hhand]; nofun)
    dsimp only [Callback.next]
    rw [hhand]
    dsimp only
    split
    · split
      · exact (h.setting hhand).same rfl rfl rfl
      · exact hfinish.same rfl rfl rfl
    · exact hfinish
  | set =>
    obtain ⟨i, hhand⟩ := exists_of_isSetting hen
    have hfinish : Kept s.finish := h.finish (by rw [hhand]; nofun)
    dsimp only [Callback.next]
    rw [hhand]
    exact hfinish.same rfl rfl rfl
  | schedule =>
    obtain ⟨i, hhand, -, -⟩ := exists_of_calls hen
    have hfinish : Kept s.finish := h.finish (by rw [hhand]; nofun)
    dsimp only [Callback.next]
    rw [hhand]
    dsimp only
    refine hfinish.same ?_ ?_ ?_ <;> unfold Op.dispatchCompleteSafe <;> split <;> rfl
  | deliver i =>
    dsimp only [Callback.next]
    split
    · exact h.same rfl rfl rfl
    · exact h
  | closeLoop l => exact ⟨h.accounted, h.ids, h.called, fun j => { h.row j with }⟩
  | interrupt i cancels => exact h.same rfl rfl rfl
  | waited i => exact h.same rfl rfl rfl
  | drop i => exact h.drop hen.1
  | free i => exact h.free hen.1 hen.2.1 hen.2.2.1 hen.2.2.2.1

theorem kept_init : Kept callbacks.init where
  accounted := DispatchQueue.accounted_of_reach .init
  ids := rfl
  called := rfl
  row i :=
    { pushing := ⟨Bool.noConfusion, fun h => h.elim fun _ => DispatchQueue.PushPc.noConfusion⟩
      once := rfl
      fits := rfl
      addr := fun hb => absurd rfl hb
      live := fun hr => by rcases hr with hr | hr | hr <;> cases hr
      dict := ⟨nofun, fun hk => hk.1.elim nofun fun hne => absurd rfl hne⟩
      hand := nofun }

theorem kept_of_reach (hs : callbacks.Reach s) : Kept s := by
  induction hs with
  | init => exact kept_init
  | step _ _ hen ih => exact ih.next hen

/-! ## What it says of the callables -/

theorem count_reduceOption (l : List (Option ℕ)) (i : ℕ) :
    l.reduceOption.count i = l.count (some i) := by
  induction l with
  | nil => rfl
  | cons x l ih =>
    cases x with
    | none =>
      rw [List.reduceOption_cons_of_none, ih, List.count_cons]
      rfl
    | some j =>
      rw [List.reduceOption_cons_of_some, List.count_cons, List.count_cons, ih]
      simp

/-- **The callables are called in the order in which the trampolines have
pushed**, each once: those called so far are those of the operations that
pushed the ids taken so far. An id that is about to be looked up is in the
dict, as the key of the operation that pushed it. And while an operation is
in the dict, or its callable runs, its object is not freed. -/
theorem called_in_order (hs : callbacks.Reach s) :
    s.called = (s.fired.take s.taken).reduceOption ∧ s.called.Nodup ∧
      (∀ id, s.disp.loop = .dispatching id → id ≠ 0 → s.hand = .empty →
        ∃ i, s.fired[s.taken]? = some (some i) ∧ s.lookup id = some i) ∧
      ∀ i, i ∈ s.dict ∨ s.hand.op = some i → s.heap (s.op i).addr = some i := by
  have h := kept_of_reach hs
  refine ⟨h.called, ?_, fun id hl hid hhand => ?_, fun i hi => (h.row i).live (.inr hi)⟩
  · rw [List.nodup_iff_count]
    intro i
    have hle := (List.take_sublist s.taken s.fired).count_le (some i)
    have honce := (h.row i).once
    rw [h.called, count_reduceOption]
    split at honce <;> omega
  · obtain ⟨i, hfront, -, -, hlook⟩ := h.lookup_of_dispatching hl hid hhand
    exact ⟨i, hfront, hlook⟩

/-- `submit_recv`, and nng's callback for it. -/
def received (i : ℕ) : List Act :=
  [.create i .cbSync 8, .prepareSubmit i, .submit i false, .complete i 0, .fire i]

/-- The dispatcher's turn, and the future goes. -/
def resolved (i : ℕ) : List Act :=
  [.getReady, .popCallable, .fired i, .test, .set, .drop i, .free i]

/-- The second operation is made where the first one was. -/
theorem called_in_order_reused :
    (callbacks.final callbacks.init (received 0 ++ resolved 0 ++ received 1 ++ [.getReady])).lookup
      8 = some 1 := by
  have hs : callbacks.Reach (callbacks.final callbacks.init
      (received 0 ++ resolved 0 ++ received 1 ++ [.getReady])) :=
    Machine.reach_final (by decide)
  obtain ⟨i, hfront, hlook⟩ := (called_in_order hs).2.2.1 8 (by decide) (by decide) (by decide)
  have hone : some (some i) = some (some 1) := hfront.symm.trans (by decide)
  rw [hlook, Option.some.inj hone]

end Callback

end PyNng
