import PyNng.Async.Stage
import Mathlib.Data.List.Nodup
/-!
# Async — every id in the queue reaches the operation that fired it

Three things keep an id from going astray. An operation is registered from
before it is submitted until its callable is popped, so its address is not
free meanwhile. Its `fire` pushes only if the skip point came first, and
then the operation stays registered for the reader. And the fast path
removes the key only when nothing was pushed and nothing will be.
-/

namespace PyNng

namespace Async

variable {s : State}

/-! ## The invariant -/

/-- **The dict, the queue and the addresses agree**, on every manager that
was not released. -/
structure Routed (s : State) : Prop where
  stage : ∀ i, (s.op i).Stage
  /-- The coroutine keeps its operation. -/
  alive : ∀ i, (s.op i).pc.running = true → s.heap (s.op i).addr = some i
  /-- So does a dict, a dropped one too. -/
  inDict : ∀ m, ∀ i ∈ (s.mgr m).dict,
    (s.op i).mgr = m ∧ (s.op i).pc.early = false ∧ s.heap (s.op i).addr = some i
  registered : ∀ i, (s.mgr (s.op i).mgr).released = false → (s.op i).registers = true →
    i ∈ (s.mgr (s.op i).mgr).dict
  tracked : ∀ m, (s.mgr m).released = false → ∀ e ∈ (s.mgr m).tracked,
    e.firedBy ∈ (s.mgr m).dict ∧ e.id = (s.op e.firedBy).addr ∧ (s.op e.firedBy).due = true
  nodup : ∀ m, (s.mgr m).released = false → ((s.mgr m).tracked.map Entry.firedBy).Nodup
  /-- An operation that is due is in the queue, or was popped once. -/
  settled : ∀ i, (s.mgr (s.op i).mgr).released = false → (s.op i).due = true →
    ((s.op i).popped = 0 ↔ i ∈ (s.mgr (s.op i).mgr).tracked.map Entry.firedBy) ∧
      (s.op i).popped ≤ 1
  undue : ∀ i, (s.op i).due = false → (s.op i).popped = 0
  pushed : ∀ i, (s.op i).pushed = if (s.op i).due then 1 else 0
  /-- The lock is free when `release` takes it, and nothing is popped after. -/
  idle : ∀ m, (s.mgr m).released = true → (s.mgr m).batch = none

/-- Keys tell operations apart. -/
theorem Routed.addr_eq_iff (h : Routed s) {m i j : ℕ} (hi : s.heap (s.op i).addr = some i)
    (hj : j ∈ (s.mgr m).dict) : (s.op j).addr = (s.op i).addr ↔ j = i := by
  refine ⟨fun heq => ?_, fun heq => by rw [heq]⟩
  obtain ⟨-, -, hheap⟩ := h.inDict m j hj
  rw [heq, hi] at hheap
  exact (Option.some.inj hheap).symm

theorem Routed.mem_without_iff (h : Routed s) {m i j : ℕ} (hi : s.heap (s.op i).addr = some i) :
    j ∈ s.without m (s.op i).addr ↔ j ∈ (s.mgr m).dict ∧ j ≠ i := by
  simp only [State.without, List.mem_filter, decide_eq_true_eq, ne_eq]
  refine and_congr_right fun hj => ?_
  rw [h.addr_eq_iff hi hj]

/-- **A registered operation is found under its address.** -/
theorem Routed.lookup_of_mem (h : Routed s) {m i : ℕ} (hi : i ∈ (s.mgr m).dict) :
    s.lookup m (s.op i).addr = some i := by
  have hheap := (h.inDict m i hi).2.2
  rcases hfind : s.lookup m (s.op i).addr with _ | j
  · have hnone := List.find?_eq_none.mp hfind i hi
    simp at hnone
  · have hj : j ∈ (s.mgr m).dict := List.mem_of_find?_eq_some hfind
    have haddr : (s.op j).addr = (s.op i).addr := by
      simpa using List.find?_some hfind
    rw [(h.addr_eq_iff hheap hj).mp haddr]

/-! ## The frame -/

theorem Routed.setOp (h : Routed s) {i : ℕ} {o : Op} (hk : (s.op i).Keeps o)
    (halive : o.pc.running = true → s.heap o.addr = some i) : Routed (s.setOp i o) := by
  -- an operation that is in a dict, or in a queue, keeps its place
  have hplace : ∀ j, (s.op j).pc.early = false → ((s.setOp i o).op j).addr = (s.op j).addr ∧
      ((s.setOp i o).op j).mgr = (s.op j).mgr ∧ ((s.setOp i o).op j).pc.early = false := by
    refine forall_setOp (P := fun j o => (s.op j).pc.early = false →
      o.addr = (s.op j).addr ∧ o.mgr = (s.op j).mgr ∧ o.pc.early = false) (fun hlate => ?_)
      fun j _ hlate => ⟨rfl, rfl, hlate⟩
    refine hk.place.resolve_left fun hearly => ?_
    rw [hlate] at hearly
    cases hearly
  have hdue : ∀ j, ((s.setOp i o).op j).due = (s.op j).due :=
    forall_setOp (P := fun j o => o.due = (s.op j).due) hk.due fun _ _ => rfl
  have hpopped : ∀ j, ((s.setOp i o).op j).popped = (s.op j).popped :=
    forall_setOp (P := fun j o => o.popped = (s.op j).popped) hk.popped fun _ _ => rfl
  have hpushed : ∀ j, ((s.setOp i o).op j).pushed = (s.op j).pushed :=
    forall_setOp (P := fun j o => o.pushed = (s.op j).pushed) hk.pushed fun _ _ => rfl
  have hregisters : ∀ j, ((s.setOp i o).op j).registers = true → (s.op j).registers = true :=
    forall_setOp (P := fun j o => o.registers = true → (s.op j).registers = true) hk.registers
      fun _ _ => id
  have hlate : ∀ j, (s.op j).registers = true ∨ (s.op j).due = true →
      (s.op j).pc.early = false := by
    intro j hor
    by_contra hearly
    rw [Bool.not_eq_false] at hearly
    rcases hor with hr | hd
    · rw [Op.registers_of_early hearly] at hr; cases hr
    · rw [(h.stage j).due_of_early hearly] at hd; cases hd
  refine ⟨forall_setOp (P := fun _ o => o.Stage) hk.stage fun j _ => h.stage j,
    forall_setOp (P := fun j o => o.pc.running = true → s.heap o.addr = some j) halive
      fun j _ => h.alive j,
    fun m j hj => ?_, fun j hrel hr => ?_, fun m hrel e he => ?_,
    h.nodup, fun j hrel hd => ?_, fun j hd => ?_, fun j => ?_, h.idle⟩
  · obtain ⟨hm, hpc, hheap⟩ := h.inDict m j hj
    obtain ⟨haddr, hmgr, hpc'⟩ := hplace j hpc
    exact ⟨hmgr.trans hm, hpc', by rw [haddr]; exact hheap⟩
  · have hrj := hregisters j hr
    rw [setOp_mgr, (hplace j (hlate j (Or.inl hrj))).2.1] at hrel ⊢
    exact h.registered j hrel hrj
  · obtain ⟨hdict, hid, hd⟩ := h.tracked m hrel e he
    refine ⟨hdict, ?_, by rw [hdue]; exact hd⟩
    rw [(hplace _ (hlate _ (Or.inr hd))).1]
    exact hid
  · rw [hdue] at hd
    rw [setOp_mgr, (hplace j (hlate j (Or.inr hd))).2.1] at hrel ⊢
    rw [hpopped]
    exact h.settled j hrel hd
  · rw [hdue] at hd
    rw [hpopped]
    exact h.undue j hd
  · rw [hpushed, hdue]
    exact h.pushed j

/-- A manager's lists only pass entries on, or it is released. -/
theorem Routed.setMgr (h : Routed s) {m : ℕ} {g : Manager} (hdict : g.dict = (s.mgr m).dict)
    (hrel : g.released = false → (s.mgr m).released = false ∧ g.tracked = (s.mgr m).tracked)
    (hidle : g.released = true → g.batch = none) : Routed (s.setMgr m g) := by
  have hdicts : ∀ n, ((s.setMgr m g).mgr n).dict = (s.mgr n).dict :=
    forall_setMgr (P := fun n g => g.dict = (s.mgr n).dict) hdict fun _ _ => rfl
  have hlive : ∀ n, ((s.setMgr m g).mgr n).released = false →
      (s.mgr n).released = false ∧ ((s.setMgr m g).mgr n).tracked = (s.mgr n).tracked :=
    forall_setMgr (P := fun n g => g.released = false →
      (s.mgr n).released = false ∧ g.tracked = (s.mgr n).tracked) hrel fun _ _ hr => ⟨hr, rfl⟩
  refine ⟨h.stage, h.alive, fun n j hj => ?_, fun j hr hj => ?_, fun n hr e he => ?_,
    fun n hr => ?_, fun j hr hd => ?_, h.undue, h.pushed,
    forall_setMgr (P := fun _ g => g.released = true → g.batch = none) hidle fun n _ => h.idle n⟩
  · rw [hdicts] at hj; exact h.inDict n j hj
  · rw [setMgr_op] at hj ⊢
    rw [hdicts]
    exact h.registered j (hlive _ hr).1 hj
  · rw [(hlive n hr).2] at he
    rw [hdicts]
    exact h.tracked n (hlive n hr).1 e he
  · rw [(hlive n hr).2]; exact h.nodup n (hlive n hr).1
  · rw [setMgr_op] at hr hd ⊢
    rw [(hlive _ hr).2]
    exact h.settled j (hlive _ hr).1 hd

/-- **An operation and its manager change together**: to everybody else in
the manager's lists nothing happens. -/
theorem Routed.exchange (h : Routed s) {i m : ℕ} {o : Op} {g : Manager}
    (hm : (s.op i).mgr = m) (hheap : s.heap (s.op i).addr = some i) (hstage : o.Stage)
    (haddr : o.addr = (s.op i).addr) (hmgr : o.mgr = m) (hlate : o.pc.early = false)
    (hpushed : o.pushed = if o.due then 1 else 0) (hundue : o.due = false → o.popped = 0)
    (hrel : g.released = (s.mgr m).released) (hidle : g.released = true → g.batch = none)
    (hdict : ∀ j, j ≠ i → (j ∈ g.dict ↔ j ∈ (s.mgr m).dict))
    (hregisters : o.registers = true → i ∈ g.dict)
    (htracked : g.released = false → ∀ e ∈ g.tracked,
      if e.firedBy = i then i ∈ g.dict ∧ e.id = (s.op i).addr ∧ o.due = true
      else e ∈ (s.mgr m).tracked)
    (hkept : g.released = false → ∀ e ∈ (s.mgr m).tracked, e.firedBy ≠ i → e ∈ g.tracked)
    (hnodup : g.released = false → (g.tracked.map Entry.firedBy).Nodup)
    (hsettled : g.released = false → o.due = true →
      (o.popped = 0 ↔ i ∈ g.tracked.map Entry.firedBy) ∧ o.popped ≤ 1) :
    Routed ((s.setMgr m g).setOp i o) := by
  subst hm
  have hop : ∀ {j}, j ≠ i → ((s.setMgr (s.op i).mgr g).setOp i o).op j = s.op j := by
    intro j hj
    rw [setOp_op_of_ne hj, setMgr_op]
  have hmem : ∀ {n j}, j ≠ i →
      (j ∈ ((s.setMgr (s.op i).mgr g).mgr n).dict ↔ j ∈ (s.mgr n).dict) := by
    intro n j hj
    by_cases hn : n = (s.op i).mgr
    · subst hn; rw [setMgr_mgr_self]; exact hdict j hj
    · rw [setMgr_mgr_of_ne hn]
  -- another manager does not have the operation in its dict
  have hhome : ∀ {n}, i ∈ (s.mgr n).dict → n = (s.op i).mgr := fun hi => (h.inDict _ i hi).1.symm
  refine ⟨forall_setOp (P := fun _ o => o.Stage) hstage fun j _ => h.stage j,
    forall_setOp (P := fun j o => o.pc.running = true → s.heap o.addr = some j)
      (fun _ => by rw [haddr]; exact hheap) fun j _ => h.alive j,
    fun n j hj => ?_, fun j hr hj => ?_, fun n hr e he => ?_,
    forall_setMgr (P := fun _ g => g.released = false → (g.tracked.map Entry.firedBy).Nodup) hnodup
      fun n _ => h.nodup n,
    fun j hr hd => ?_,
    forall_setOp (P := fun _ o => o.due = false → o.popped = 0) hundue fun j _ => h.undue j,
    forall_setOp (P := fun _ o => o.pushed = if o.due then 1 else 0) hpushed fun j _ => h.pushed j,
    forall_setMgr (P := fun _ g => g.released = true → g.batch = none) hidle fun n _ => h.idle n⟩
  · rw [setOp_mgr] at hj
    by_cases hji : j = i
    · subst hji
      rw [setOp_op_self, haddr, hmgr]
      refine ⟨?_, hlate, hheap⟩
      by_cases hn : n = (s.op j).mgr
      · exact hn.symm
      · rw [setMgr_mgr_of_ne hn] at hj; exact (hhome hj).symm
    · rw [hmem hji] at hj
      rw [hop hji]
      exact h.inDict n j hj
  · rw [setOp_mgr] at hr ⊢
    by_cases hji : j = i
    · subst hji
      rw [setOp_op_self] at hj ⊢
      rw [hmgr, setMgr_mgr_self]
      exact hregisters hj
    · rw [hop hji] at hr hj ⊢
      refine (hmem hji).mpr (h.registered j ?_ hj)
      by_cases hn : (s.op j).mgr = (s.op i).mgr
      · rw [hn, setMgr_mgr_self, hrel] at hr; rw [hn]; exact hr
      · rwa [setMgr_mgr_of_ne hn] at hr
  · rw [setOp_mgr] at hr he ⊢
    by_cases hn : n = (s.op i).mgr
    · subst hn
      rw [setMgr_mgr_self] at hr he
      have hcase := htracked hr e he
      by_cases hei : e.firedBy = i
      · rw [if_pos hei] at hcase
        rw [hei, setMgr_mgr_self, setOp_op_self, haddr]
        exact hcase
      · rw [if_neg hei] at hcase
        rw [hmem hei, hop hei]
        exact h.tracked _ (by rw [← hrel]; exact hr) e hcase
    · rw [setMgr_mgr_of_ne hn] at hr he
      obtain ⟨hd, hrest⟩ := h.tracked n hr e he
      have hei : e.firedBy ≠ i := fun hei => hn (hhome (hei ▸ hd))
      rw [hmem hei, hop hei]
      exact ⟨hd, hrest⟩
  · rw [setOp_mgr] at hr ⊢
    by_cases hji : j = i
    · subst hji
      rw [setOp_op_self, hmgr, setMgr_mgr_self] at hr
      rw [setOp_op_self] at hd ⊢
      rw [hmgr, setMgr_mgr_self]
      exact hsettled hr hd
    · rw [hop hji] at hr hd ⊢
      by_cases hn : (s.op j).mgr = (s.op i).mgr
      · rw [hn, setMgr_mgr_self] at hr ⊢
        have hlive : (s.mgr (s.op j).mgr).released = false := by rw [hn, ← hrel]; exact hr
        obtain ⟨hiff, hle⟩ := h.settled j hlive hd
        refine ⟨hiff.trans ?_, hle⟩
        simp only [List.mem_map, hn]
        constructor
        · rintro ⟨e, he, hej⟩
          exact ⟨e, hkept hr e he (by rw [hej]; exact hji), hej⟩
        · rintro ⟨e, he, hej⟩
          have hcase := htracked hr e he
          rw [if_neg (by rw [hej]; exact hji)] at hcase
          exact ⟨e, hcase, hej⟩
      · rw [setMgr_mgr_of_ne hn] at hr ⊢
        exact h.settled j hr hd

/-! ## The steps that register and queue -/

/-- An operation outside the dict is in no queue. -/
theorem Routed.not_tracked (h : Routed s) {i m : ℕ} (hrel : (s.mgr m).released = false)
    (hdue : (s.op i).due = false) : ∀ e ∈ (s.mgr m).tracked, e.firedBy ≠ i := by
  intro e he hei
  have hd := (h.tracked m hrel e he).2.2
  rw [hei, hdue] at hd
  cases hd

/-- `_prepare_submit`. -/
theorem Routed.prepareSubmit (h : Routed s) {i : ℕ} (hpc : (s.op i).pc = .created) :
    Routed (next s (.prepareSubmit i)) := by
  have hstage := h.stage i
  have hheap := h.alive i (by rw [hpc]; rfl)
  have hearly : (s.op i).pc.early = true := by rw [hpc]; rfl
  have hdue := hstage.due_of_early hearly
  simp only [next]
  split
  · refine h.exchange rfl hheap ?_ rfl rfl rfl ?_ ?_ rfl ?_ ?_ ?_ ?_ ?_ ?_ ?_
    · obtain ⟨haio, hflag, hskip⟩ := hstage.fresh (by rw [hpc]; rfl) (by rw [hpc]; rfl)
      simp only [Op.Stage, haio, hflag, hskip]
      exact .unsubmitted rfl
    · exact h.pushed i
    · exact h.undue i
    · exact h.idle _
    · intro j hj
      -- the key it replaces would be its own address, which nobody else has
      simp [h.mem_without_iff hheap, hj]
    · simp
    · intro hrel e he
      rw [if_neg (h.not_tracked hrel hdue e he)]
      exact he
    · exact fun _ e he _ => he
    · exact h.nodup _
    · intro _ hd
      exact absurd (hdue.symm.trans hd) Bool.false_ne_true
  · -- no dict to register in: `_prepare_submit` raises
    exact h.setOp (.of_early hstage hearly (Or.inr rfl) rfl rfl rfl rfl rfl)
      fun hr => absurd hr Bool.false_ne_true

/-- `_cancel_dispatch`: nothing was pushed, so nothing looks for the key. -/
theorem Routed.cancelDispatch (h : Routed s) {i : ℕ} (hpc : (s.op i).pc = .skipped) :
    Routed (next s (.cancelDispatch i)) := by
  obtain ⟨hskip, hflag, rc, haio⟩ := (h.stage i).at_fast (Or.inl hpc)
  have hheap := h.alive i (by rw [hpc]; rfl)
  have hdue : (s.op i).due = false := by simp [Op.due, hskip]
  simp only [next]
  refine h.exchange rfl hheap ?_ rfl rfl rfl ?_ ?_ rfl ?_ ?_ ?_ ?_ ?_ ?_ ?_
  · simp only [Op.Stage, haio, hflag, hskip]
    exact .fast (Or.inr (Or.inl rfl))
  · exact h.pushed i
  · exact h.undue i
  · exact h.idle _
  · intro j hj
    simp [h.mem_without_iff hheap, hj]
  · exact fun hr => absurd hr Bool.false_ne_true
  · intro hrel e he
    rw [if_neg (h.not_tracked hrel hdue e he)]
    exact he
  · exact fun _ e he _ => he
  · exact h.nodup _
  · intro _ hd
    exact absurd (hdue.symm.trans hd) Bool.false_ne_true

/-- **`fire` pushes** the address of an operation that is registered. -/
theorem Routed.push (h : Routed s) {i : ℕ} (hpush : (s.op i).aio.isPushing = true) :
    Routed (next s (.push i)) := by
  obtain ⟨hpc, hflag, hskip⟩ := (h.stage i).of_pushing hpush
  have hfin := Aio.not_isFinished (Aio.isBusy_of_isPushing hpush)
  have hdue : (s.op i).due = false := by simp [Op.due, hfin]
  have hreg : (s.op i).registers = true := by
    rcases hpc with hpc | hpc <;> simp [Op.registers, hpc, hfin]
  have hheap := h.alive i (by rcases hpc with hpc | hpc <;> rw [hpc] <;> rfl)
  simp only [next]
  have htracked : ({ s.mgr (s.op i).mgr with
      queue := (s.mgr (s.op i).mgr).queue ++ [⟨(s.op i).addr, i⟩] } : Manager).tracked =
        (s.mgr (s.op i).mgr).tracked ++ [⟨(s.op i).addr, i⟩] := by
    simp [Manager.tracked]
  refine h.exchange rfl hheap ?_ rfl rfl ?_ ?_ ?_ rfl ?_ (fun _ _ => Iff.rfl) ?_ ?_ ?_ ?_ ?_
  · simp only [Op.Stage, hflag, hskip]
    exact .slow hpc (by simp)
  · rcases hpc with hpc | hpc <;> simp only [hpc] <;> rfl
  · have hzero := h.pushed i
    rw [hdue] at hzero
    simp [Op.due, hskip, Aio.isFinished, hzero]
  · intro hd
    simp [Op.due, hskip, Aio.isFinished] at hd
  · exact h.idle _
  · intro hr
    rcases hpc with hpc | hpc <;> simp [Op.registers, hpc, Aio.isFinished] at hr
  · intro hrel e he
    rw [htracked, List.mem_append, List.mem_singleton] at he
    rcases he with he | rfl
    · rw [if_neg (h.not_tracked hrel hdue e he)]
      exact he
    · -- the coroutine awaits it, so it is registered still
      rw [if_pos rfl]
      exact ⟨h.registered i hrel hreg, rfl, by simp [Op.due, hskip, Aio.isFinished]⟩
  · intro _ e he _
    rw [htracked]
    exact List.mem_append_left _ he
  · intro hrel
    rw [htracked, List.map_append]
    refine List.nodup_append.mpr ⟨h.nodup _ hrel, by simp, ?_⟩
    intro a ha b hb hab
    obtain ⟨e, he, rfl⟩ := List.mem_map.mp ha
    simp only [List.map_cons, List.map_nil, List.mem_singleton] at hb
    exact h.not_tracked hrel hdue e he (hab.trans hb)
  · intro _ _
    rw [htracked]
    simp [h.undue i hdue]

/-- The reader is about to look up an id: it finds the operation that fired it. -/
theorem Routed.lookup_head (h : Routed s) {m : ℕ} {e : Entry} {rest : List Entry}
    (hbatch : (s.mgr m).batch = some (e :: rest)) :
    (s.mgr m).released = false ∧ (s.mgr m).tracked = e :: (rest ++ (s.mgr m).queue) ∧
      e.firedBy ∈ (s.mgr m).dict ∧ (s.op e.firedBy).due = true ∧
        e.id = (s.op e.firedBy).addr ∧ s.lookup m e.id = some e.firedBy := by
  have hrel : (s.mgr m).released = false := by
    by_contra hrel
    rw [Bool.not_eq_false] at hrel
    rw [h.idle m hrel] at hbatch
    cases hbatch
  have htracked : (s.mgr m).tracked = e :: (rest ++ (s.mgr m).queue) := by
    simp [Manager.tracked, hbatch]
  obtain ⟨hdict, hid, hdue⟩ := h.tracked m hrel e (by rw [htracked]; exact List.mem_cons_self)
  refine ⟨hrel, htracked, hdict, hdue, hid, ?_⟩
  rw [hid]
  exact h.lookup_of_mem hdict

/-- **The reader pops** the callable of the operation that fired the id. -/
theorem Routed.popId (h : Routed s) {m : ℕ} {e : Entry} {rest : List Entry}
    (hbatch : (s.mgr m).batch = some (e :: rest)) : Routed (s.popId m e.id rest) := by
  obtain ⟨hrel, htracked, hdict, hdue, hid, hlookup⟩ := h.lookup_head hbatch
  obtain ⟨hm, hlate, hheap⟩ := h.inDict m _ hdict
  have hnodup := h.nodup m hrel
  rw [htracked, List.map_cons, List.nodup_cons] at hnodup
  -- its id is in the queue, so this is the first pop
  have hzero : (s.op e.firedBy).popped = 0 := by
    refine ((h.settled e.firedBy (by rw [hm]; exact hrel) hdue).1).mpr ?_
    rw [hm, htracked]
    simp
  have hstage := h.stage e.firedBy
  have hreg := hstage.registers_of_due hdue
  rw [State.popId, hlookup]
  have hdue' : Op.due { s.op e.firedBy with popped := (s.op e.firedBy).popped + 1 } = true := hdue
  have htracked' : ({ s.mgr m with
      batch := some rest
      dict := s.without m e.id
      callbacks := (s.mgr m).callbacks ++ [e.firedBy] } : Manager).tracked =
        rest ++ (s.mgr m).queue := by
    simp [Manager.tracked]
  refine h.exchange hm hheap hstage rfl hm hlate ?_ ?_ rfl ?_ ?_ ?_ ?_ ?_ ?_ ?_
  · exact h.pushed _
  · intro hd
    rw [hdue'] at hd
    cases hd
  · intro hr
    rw [hrel] at hr
    cases hr
  · intro j hj
    rw [hid]
    simp [h.mem_without_iff hheap, hj]
  · intro hr
    exact absurd (hreg.symm.trans hr) Bool.false_ne_true
  · -- the queue had its id once: the rest is of other operations
    intro _ f hf
    rw [htracked'] at hf
    have hfe : f.firedBy ≠ e.firedBy := by
      intro hfe
      exact hnodup.1 (hfe ▸ List.mem_map_of_mem hf)
    rw [if_neg hfe, htracked]
    exact List.mem_cons_of_mem _ hf
  · intro _ f hf hfe
    rw [htracked] at hf
    rw [htracked']
    rcases List.mem_cons.mp hf with rfl | hf
    · exact absurd rfl hfe
    · exact hf
  · intro _
    rw [htracked']
    exact hnodup.2
  · intro _ _
    rw [htracked', hzero]
    simpa using hnodup.1

/-! ## The steps of a run -/

/-- Memory is given to a new object, or taken from one that nothing refers to. -/
theorem Routed.setHeap (h : Routed s) {heap : ℕ → Option ℕ}
    (hkeep : ∀ j, (s.op j).pc.running = true ∨ j ∈ (s.mgr (s.op j).mgr).dict →
      s.heap (s.op j).addr = some j → heap (s.op j).addr = some j) :
    Routed { s with heap } where
  stage := h.stage
  alive := fun j hj => hkeep j (Or.inl hj) (h.alive j hj)
  inDict := fun m j hj => by
    obtain ⟨hm, hpc, hheap⟩ := h.inDict m j hj
    exact ⟨hm, hpc, hkeep j (Or.inr (hm ▸ hj)) hheap⟩
  registered := h.registered
  tracked := h.tracked
  nodup := h.nodup
  settled := h.settled
  undue := h.undue
  pushed := h.pushed
  idle := h.idle

theorem Routed.createAio (h : Routed s) {i addr : ℕ} (hpc : (s.op i).pc = .managed)
    (hfree : s.heap addr = none) : Routed (next s (.createAio i addr)) := by
  have hheap : Routed { s with heap := Function.update s.heap addr (some i) } := by
    refine h.setHeap fun j _ hj => ?_
    have hne : (s.op j).addr ≠ addr := by
      intro heq
      rw [heq, hfree] at hj
      cases hj
    rw [Function.update_of_ne hne]
    exact hj
  refine hheap.setOp (.of_early (h.stage i) ?_ (Or.inl rfl) rfl rfl rfl rfl rfl) fun _ => ?_
  · simp only [hpc]
    rfl
  · simp

theorem Routed.free (h : Routed s) {i : ℕ} (hend : (s.op i).pc.isEnded = true)
    (hheap : s.heap (s.op i).addr = some i) (hdict : i ∉ (s.mgr (s.op i).mgr).dict) :
    Routed (next s (.free i)) := by
  refine h.setHeap fun j hj hjheap => ?_
  have hji : j ≠ i := by
    rintro rfl
    rcases hj with hrun | hj
    · revert hend hrun
      cases (s.op j).pc <;> simp [Pc.isEnded, Pc.running]
    · exact hdict hj
  have hne : (s.op j).addr ≠ (s.op i).addr := by
    intro heq
    rw [heq, hheap] at hjheap
    exact hji (Option.some.inj hjheap).symm
  rw [Function.update_of_ne hne]
  exact hjheap

/-- What completes a first callable keeps its stage. -/
theorem Routed.runFirst (h : Routed s) {f : Op → Op} (hf : ∀ o : Op, o.Stage → o.Keeps (f o))
    (hc : ∀ o : Op, o.Completes (f o)) : ∀ todo, Routed (s.runFirst f todo)
  | [] => h
  | i :: _ => by
    refine h.setOp (hf _ (h.stage i)) fun hr => ?_
    rw [(hc _).pc] at hr
    rw [(hc _).addr]
    exact h.alive i hr

theorem State.runFirst_mgr (f : Op → Op) (todo : List ℕ) : (s.runFirst f todo).mgr = s.mgr := by
  cases todo <;> rfl

/-- Where `close` stands is nobody's business here. -/
theorem Routed.of_closing (h : Routed s) {closing : Closing} {current : Option ℕ} {made : ℕ} :
    Routed { s with closing, current, made } :=
  ⟨h.stage, h.alive, h.inDict, h.registered, h.tracked, h.nodup, h.settled, h.undue, h.pushed,
    h.idle⟩

theorem Routed.next (h : Routed s) {a : Act} (hen : Enabled s a) : Routed (Async.next s a) := by
  cases a with
  | check i call =>
    have hearly : (s.op i).pc.early = true := by rw [hen.1]; rfl
    exact h.setOp (.of_early (h.stage i) hearly (Or.inl rfl) rfl rfl rfl rfl rfl)
      fun hr => absurd hr Bool.false_ne_true
  | getAioManager i =>
    have hearly : (s.op i).pc.early = true := by rw [hen.1]; rfl
    cases hcurrent : s.current with
    | some m =>
      simp only [Async.next, hcurrent]
      exact h.setOp (.of_early (h.stage i) hearly (Or.inl rfl) rfl rfl rfl rfl rfl)
        fun hr => absurd hr Bool.false_ne_true
    | none =>
      simp only [Async.next, hcurrent]
      exact h.of_closing.setOp (.of_early (h.stage i) hearly (Or.inl rfl) rfl rfl rfl rfl rfl)
        fun hr => absurd hr Bool.false_ne_true
  | createAio i addr => exact h.createAio hen.1 hen.2.2
  | buildFails i rc =>
    have hearly : (s.op i).pc.early = true := by rw [hen.1]; rfl
    exact h.setOp (.of_early (h.stage i) hearly (Or.inr rfl) rfl rfl rfl rfl rfl)
      fun hr => absurd hr Bool.false_ne_true
  | prepareSubmit i => exact h.prepareSubmit hen
  | submit i =>
    have hpc : (s.op i).pc = .registered := hen
    exact h.setOp (Op.keeps_submit (h.stage i) hpc _) fun _ => h.alive i (by rw [hpc]; rfl)
  | complete i rc =>
    have hbusy : (s.op i).aio.isBusy = true := Aio.MayEnd.isBusy hen
    exact h.setOp (Op.keeps_busy (h.stage i) hbusy rfl fun _ => rfl) (h.alive i)
  | fire i =>
    have hbusy := Aio.isBusy_of_isCompleted hen
    simp only [Async.next]
    split
    · rename_i hflag
      refine h.setOp (Op.keeps_busy (h.stage i) hbusy rfl fun hunset => ?_) (h.alive i)
      rw [hflag] at hunset
      cases hunset
    · rename_i hflag
      rw [Bool.not_eq_true] at hflag
      exact h.setOp (Op.keeps_fire (h.stage i) hbusy hflag _) (h.alive i)
  | push i => exact h.push hen
  | reachSkipPoint i =>
    have hpc : (s.op i).pc = .submitted := hen
    have halive := h.alive i (by rw [hpc]; rfl)
    simp only [Async.next]
    split
    · rename_i hflag
      exact h.setOp (Op.keeps_skip (h.stage i) hpc hflag) fun _ => halive
    · rename_i hflag
      rw [Bool.not_eq_true] at hflag
      exact h.setOp (Op.keeps_await (h.stage i) hpc hflag) fun _ => halive
  | cancelDispatch i => exact h.cancelDispatch hen
  | finishFast i =>
    exact h.setOp (Op.keeps_end (h.stage i) (Or.inl hen.1) hen.2 _)
      fun hr => absurd hr Bool.false_ne_true
  | drain m =>
    simp only [Async.next]
    split
    · -- nothing is claimed of a released manager's queue
      rename_i hrel
      exact h.setMgr rfl (fun hlive => absurd (hrel.symm.trans hlive) Bool.false_ne_true.symm)
        fun _ => hen.2.1
    · rename_i hrel
      rw [Bool.not_eq_true] at hrel
      refine h.setMgr rfl (fun _ => ⟨hrel, ?_⟩) fun hr => ?_
      · simp [Manager.tracked, hen.2.1]
      · exact absurd (hrel.symm.trans hr) Bool.false_ne_true
  | pop m =>
    simp only [Async.next]
    split
    · rename_i e rest hbatch
      exact h.popId hbatch
    · exact h
  | unlock m =>
    have hbatch : (s.mgr m).batch = some [] := hen
    refine h.setMgr rfl (fun hlive => ⟨hlive, ?_⟩) fun _ => rfl
    simp [Manager.tracked, hbatch]
  | callback m =>
    refine Routed.setMgr (h.runFirst (fun o ho => Op.keeps_dispatchComplete ho)
      Op.completes_dispatchComplete _) ?_ ?_ ?_
    · rw [State.runFirst_mgr]
    · rw [State.runFirst_mgr]
      exact fun hr => ⟨hr, rfl⟩
    · exact fun _ => hen.1
  | deliver i =>
    simp only [Async.next]
    split
    · exact h.setOp (.of_same (h.stage i) rfl rfl rfl rfl rfl rfl rfl rfl) (h.alive i)
    · exact h
  | resume i =>
    simp only [Async.next]
    split
    · exact h.setOp (Op.keeps_end (h.stage i) (Or.inr (Or.inl hen.1)) hen.2.2 _)
        fun hr => absurd hr Bool.false_ne_true
    · exact h
  | cancel i =>
    have hpc : (s.op i).pc = .awaiting := hen
    exact h.setOp (Op.keeps_cancel (h.stage i) hpc _) fun _ => h.alive i (by rw [hpc]; rfl)
  | finishCancel i =>
    exact h.setOp (Op.keeps_end (h.stage i) (Or.inr (Or.inr hen.1)) hen.2 _)
      fun hr => absurd hr Bool.false_ne_true
  | free i => exact h.free hen.1 hen.2.1 hen.2.2
  | shut | closeHandle | lockManagers | clearManagers => exact h.of_closing
  | release =>
    simp only [Async.next]
    split
    · exact h.of_closing
    · rename_i m hcurrent
      refine Routed.setMgr h.of_closing rfl (fun hlive => ?_) fun _ => hen.2 m hcurrent
      cases hlive
  | runReleased =>
    exact (h.runFirst (fun o ho => Op.keeps_dispatchCompleteSafe ho)
      Op.completes_dispatchCompleteSafe _).of_closing

theorem routed_init : Routed asyncio.init where
  stage := fun _ => .unsubmitted rfl
  alive := fun _ h => absurd h Bool.false_ne_true
  inDict := fun _ _ h => absurd h List.not_mem_nil
  registered := fun _ _ h => absurd h Bool.false_ne_true
  tracked := fun _ _ _ h => absurd h List.not_mem_nil
  nodup := fun _ _ => List.nodup_nil
  settled := fun _ _ h => absurd h Bool.false_ne_true
  undue := fun _ _ => rfl
  pushed := fun _ => rfl
  idle := fun _ h => absurd h Bool.false_ne_true

theorem routed_of_reach (h : asyncio.Reach s) : Routed s :=
  h.invariant routed_init fun _ _ _ hinv _ hen => hinv.next hen

/-! ## Exactly once -/

/-- How often the operation's id waits for the reader. -/
def State.queued (s : State) (i : ℕ) : ℕ :=
  ((s.mgr (s.op i).mgr).tracked.map Entry.firedBy).count i

/-- **Every completion of a manager is delivered once, to its operation.** -/
structure ExactlyOnce (s : State) (m : ℕ) : Prop where
  /-- An id in the queue is the key, and the address, of what fired it. -/
  routed : ∀ e ∈ (s.mgr m).tracked,
    s.lookup m e.id = some e.firedBy ∧ s.heap e.id = some e.firedBy
  /-- Completed by its submitter: it has fired, and the reader never hears of it. -/
  sync : ∀ i, (s.op i).mgr = m → (s.op i).skipped = some true →
    (s.op i).aio.isFinished = true ∧
      (s.op i).pushed = 0 ∧ s.queued i = 0 ∧ (s.op i).popped = 0
  /-- Fired after its skip point: it is pushed once, and waits or was popped. -/
  async : ∀ i, (s.op i).mgr = m → (s.op i).skipped = some false →
    (s.op i).aio.isFinished = true → (s.op i).pushed = 1 ∧ s.queued i + (s.op i).popped = 1
  /-- Fired before its skip point: `reach_skip_point` will return true. -/
  raced : ∀ i, (s.op i).mgr = m → (s.op i).skipped = none → (s.op i).aio.isFinished = true →
    (s.op i).skipPointReached = true
  /-- Until then, nothing is pushed and nothing popped. -/
  waiting : ∀ i, (s.op i).mgr = m →
    (s.op i).skipped = none ∨ (s.op i).aio.isFinished = false →
      (s.op i).pushed = 0 ∧ s.queued i = 0 ∧ (s.op i).popped = 0

/-- Nothing was pushed for an operation that is not due. -/
theorem Routed.nothing_of_not_due (h : Routed s) {i : ℕ}
    (hrel : (s.mgr (s.op i).mgr).released = false) (hdue : (s.op i).due = false) :
    (s.op i).pushed = 0 ∧ s.queued i = 0 ∧ (s.op i).popped = 0 := by
  refine ⟨?_, ?_, h.undue i hdue⟩
  · rw [h.pushed i, hdue]
    rfl
  · refine List.count_eq_zero.mpr fun hmem => ?_
    obtain ⟨e, he, hei⟩ := List.mem_map.mp hmem
    exact h.not_tracked hrel hdue e he hei

/-- **No completion is lost, doubled or misrouted.** In every reachable
state of any number of calls and cancellations, of nng's callbacks, the
reader and a running `close`, with addresses used again as soon as they
are free, the completions of a manager that was not released are each
delivered once. -/
theorem exactly_once (h : asyncio.Reach s) {m : ℕ} (hrel : (s.mgr m).released = false) :
    ExactlyOnce s m := by
  have hr := routed_of_reach h
  refine ⟨fun e he => ?_, fun i him hskip => ?_, fun i him hskip hfin => ?_,
    fun i him hskip hfin => ?_, fun i him hor => ?_⟩
  · obtain ⟨hdict, hid, -⟩ := hr.tracked m hrel e he
    rw [hid]
    exact ⟨hr.lookup_of_mem hdict, (hr.inDict m _ hdict).2.2⟩
  · have hdue : (s.op i).due = false := by simp [Op.due, hskip]
    exact ⟨(hr.stage i).isFinished_of_sync hskip,
      hr.nothing_of_not_due (by rw [him]; exact hrel) hdue⟩
  · have hdue : (s.op i).due = true := by simp [Op.due, hskip, hfin]
    obtain ⟨hiff, hle⟩ := hr.settled i (by rw [him]; exact hrel) hdue
    have hcount : s.queued i ≤ 1 :=
      List.nodup_iff_count_le_one.mp (hr.nodup _ (by rw [him]; exact hrel)) i
    rw [← List.count_pos_iff] at hiff
    change _ ↔ 0 < s.queued i at hiff
    refine ⟨by rw [hr.pushed i, hdue]; rfl, ?_⟩
    omega
  · exact (hr.stage i).flag_of_raced hskip hfin
  · refine hr.nothing_of_not_due (by rw [him]; exact hrel) ?_
    rcases hor with hskip | hfin
    · simp [Op.due, hskip]
    · simp [Op.due, hfin]

/-- A call that awaits its completion, from `_check` to its id in the queue. -/
def awaited (i addr : ℕ) : List Act :=
  [.check i .arecv, .getAioManager i, .createAio i addr, .prepareSubmit i, .submit i,
    .reachSkipPoint i, .complete i 0, .fire i, .push i]

/-- The reader's turn, and the end of the call. -/
def read (i : ℕ) : List Act :=
  [.drain 0, .pop 0, .unlock 0, .callback 0, .resume i, .free i]

/-- The second operation is made at the address of the first. -/
theorem exactly_once_reused_address :
    ExactlyOnce (asyncio.final asyncio.init (awaited 0 5 ++ read 0 ++ awaited 1 5)) 0 ∧
      ((asyncio.final asyncio.init (awaited 0 5 ++ read 0 ++ awaited 1 5)).mgr 0).tracked =
        [⟨5, 1⟩] :=
  ⟨exactly_once (Machine.reach_final (by decide +kernel)) (by decide +kernel), by decide +kernel⟩

end Async

end PyNng
