import PyNng.Async.Model
/-!
# Async — the stages of an operation

`fire` and `reach_skip_point` swap one flag. Whoever comes first leaves
the other to complete the operation, and from then on the place of the
call, its aio and the flag determine each other up to a few cases. A step
of the operation leads from a stage to a stage.
-/

namespace PyNng

namespace Async

variable {o o' : Op}

/-! ## The stages of an operation -/

/-- The places a call may be in with its aio never submitted. -/
def Pc.unsubmitted : Pc → Bool
  | .unborn | .checked | .managed | .created | .registered | .ended _ => true
  | _ => false

/-- Before `_prepare_submit`. -/
def Pc.early : Pc → Bool
  | .unborn | .checked | .managed | .created => true
  | _ => false

/-- **The stages**: the place of the call, its aio, the flag that `fire` and
`reach_skip_point` swap, and what the latter returned. -/
inductive Staged : Pc → Aio → Bool → Option Bool → Prop
  | unsubmitted {pc : Pc} (h : pc.unsubmitted = true) : Staged pc .idle false none
  /-- Neither has come to the flag. -/
  | racing {aio : Aio} (hbusy : aio.isBusy = true) (hpush : aio.isPushing = false) :
      Staged .submitted aio false none
  /-- `fire` came first. -/
  | fired {rc : ℕ} : Staged .submitted (.finished rc) true none
  | fast {pc : Pc} {rc : ℕ} (h : pc = .skipped ∨ pc = .fast ∨ pc.isEnded = true) :
      Staged pc (.finished rc) true (some true)
  /-- The skip point came first. -/
  | slow {pc : Pc} {aio : Aio} (h : pc = .awaiting ∨ pc = .cancelling) (haio : aio ≠ .idle) :
      Staged pc aio true (some false)
  | resumed {outcome : Outcome} {rc : ℕ} : Staged (.ended outcome) (.finished rc) true (some false)

/-- The operation is in one of its stages. -/
def Op.Stage (o : Op) : Prop := Staged o.pc o.aio o.skipPointReached o.skipped

/-- **The reader owes it a pop**, or has made it: its id was pushed. -/
def Op.due (o : Op) : Bool := o.skipped == some false && o.aio.isFinished

/-- It has registered itself, and is to stay in the dict. -/
def Op.registers (o : Op) : Bool :=
  match o.pc with
  | .registered | .submitted | .skipped => true
  | .awaiting | .cancelling => !o.aio.isFinished
  | _ => false

/-! The states of an aio. -/

theorem Aio.not_isFinished {aio : Aio} (h : aio.isBusy = true) : aio.isFinished = false := by
  revert h
  cases aio <;> simp [Aio.isBusy, Aio.isFinished]

theorem Aio.MayEnd.isBusy {aio : Aio} {rc : ℕ} (h : aio.MayEnd rc) : aio.isBusy = true := by
  revert h
  cases aio <;> simp [Aio.MayEnd, Aio.isBusy]

theorem Aio.isBusy_of_isCompleted {aio : Aio} (h : aio.isCompleted = true) :
    aio.isBusy = true := by
  revert h
  cases aio <;> simp [Aio.isCompleted, Aio.isBusy]

theorem Aio.isBusy_of_isPushing {aio : Aio} (h : aio.isPushing = true) : aio.isBusy = true := by
  revert h
  cases aio <;> simp [Aio.isPushing, Aio.isBusy]

/-- An aio that was submitted and is not busy has finished. -/
theorem Aio.eq_finished {aio : Aio} (hidle : aio ≠ .idle) (hbusy : aio.isBusy = false) :
    ∃ rc, aio = .finished rc := by
  cases aio with
  | idle => exact absurd rfl hidle
  | finished rc => exact ⟨rc, rfl⟩
  | busy | completed | pushing => cases hbusy

theorem Aio.exists_of_isFinished {aio : Aio} (h : aio.isFinished = true) :
    ∃ rc, aio = .finished rc := by
  revert h
  cases aio <;> simp [Aio.isFinished]

/-- Before it is submitted, nothing has happened to it. -/
theorem Op.Stage.fresh (h : o.Stage) (hpc : o.pc.unsubmitted = true) (hend : o.pc.isEnded = false) :
    o.aio = .idle ∧ o.skipPointReached = false ∧ o.skipped = none := by
  obtain ⟨_, pc, _, _, _, aio, flag, skipped, _, _, _, _, _⟩ := o
  cases h with
  | unsubmitted => exact ⟨rfl, rfl, rfl⟩
  | racing | fired => cases hpc
  | fast hpc' => rcases hpc' with rfl | rfl | hpc' <;> simp_all [Pc.unsubmitted]
  | slow hpc' => rcases hpc' with rfl | rfl <;> cases hpc
  | resumed => cases hend

theorem Op.Stage.fresh_of_early (h : o.Stage) (hpc : o.pc.early = true) :
    o.aio = .idle ∧ o.skipPointReached = false ∧ o.skipped = none :=
  h.fresh (by revert hpc; cases o.pc <;> simp [Pc.early, Pc.unsubmitted])
    (by revert hpc; cases o.pc <;> simp [Pc.early, Pc.isEnded])

theorem Op.Stage.due_of_early (h : o.Stage) (hpc : o.pc.early = true) : o.due = false := by
  simp [Op.due, (h.fresh_of_early hpc).2.2]

theorem Op.registers_of_early (hpc : o.pc.early = true) : o.registers = false := by
  revert hpc
  cases hp : o.pc <;> simp [Pc.early, Op.registers, hp]

/-- An operation whose id was pushed only waits for its pop. -/
theorem Op.Stage.registers_of_due (h : o.Stage) (hdue : o.due = true) : o.registers = false := by
  obtain ⟨_, pc, _, _, _, aio, flag, skipped, _, _, _, _, _⟩ := o
  simp only [Op.due, Bool.and_eq_true, beq_iff_eq] at hdue
  obtain ⟨hskip, hfin⟩ := hdue
  cases h with
  | unsubmitted | racing | fired | fast => cases hskip
  | slow hpc => rcases hpc with rfl | rfl <;> simp_all [Op.registers]
  | resumed => rfl

/-- Only an operation past its skip point is pushed. -/
theorem Op.Stage.of_pushing (h : o.Stage) (hp : o.aio.isPushing = true) :
    (o.pc = .awaiting ∨ o.pc = .cancelling) ∧ o.skipPointReached = true ∧
      o.skipped = some false := by
  obtain ⟨_, pc, _, _, _, aio, flag, skipped, _, _, _, _, _⟩ := o
  cases h with
  | unsubmitted | fired | fast | resumed => cases hp
  | racing _ hpush => rw [hpush] at hp; cases hp
  | slow hpc => exact ⟨hpc, rfl, rfl⟩

/-- Busy, it is before its skip point with the flag down, or awaited with the flag up. -/
theorem Op.Stage.of_busy (h : o.Stage) (hbusy : o.aio.isBusy = true) :
    o.pc = .submitted ∧ o.aio.isPushing = false ∧ o.skipPointReached = false ∧ o.skipped = none ∨
      (o.pc = .awaiting ∨ o.pc = .cancelling) ∧ o.skipPointReached = true ∧
        o.skipped = some false := by
  obtain ⟨_, pc, _, _, _, aio, flag, skipped, _, _, _, _, _⟩ := o
  cases h with
  | unsubmitted | fired | fast | resumed => cases hbusy
  | racing _ hpush => exact Or.inl ⟨rfl, hpush, rfl, rfl⟩
  | slow hpc => exact Or.inr ⟨hpc, rfl, rfl⟩

theorem Op.Stage.at_submitted (h : o.Stage) (hpc : o.pc = .submitted) :
    o.skipped = none ∧ (o.skipPointReached = false ∧ o.aio.isBusy = true ∨
      o.skipPointReached = true ∧ ∃ rc, o.aio = .finished rc) := by
  obtain ⟨_, pc, _, _, _, aio, flag, skipped, _, _, _, _, _⟩ := o
  cases h with
  | unsubmitted h => obtain rfl : pc = .submitted := hpc; cases h
  | racing hbusy => exact ⟨rfl, Or.inl ⟨rfl, hbusy⟩⟩
  | fired => exact ⟨rfl, Or.inr ⟨rfl, _, rfl⟩⟩
  | fast h => obtain rfl : pc = .submitted := hpc; simp [Pc.isEnded] at h
  | slow h => obtain rfl : pc = .submitted := hpc; simp at h
  | resumed => cases hpc

theorem Op.Stage.at_fast (h : o.Stage) (hpc : o.pc = .skipped ∨ o.pc = .fast) :
    o.skipped = some true ∧ o.skipPointReached = true ∧ ∃ rc, o.aio = .finished rc := by
  obtain ⟨_, pc, _, _, _, aio, flag, skipped, _, _, _, _, _⟩ := o
  cases h with
  | unsubmitted h => rcases hpc with rfl | rfl <;> cases h
  | racing | fired | resumed => simp at hpc
  | fast => exact ⟨rfl, rfl, _, rfl⟩
  | slow h => rcases hpc with rfl | rfl <;> simp at h

theorem Op.Stage.at_await (h : o.Stage) (hpc : o.pc = .awaiting ∨ o.pc = .cancelling) :
    o.skipped = some false ∧ o.skipPointReached = true ∧ o.aio ≠ .idle := by
  obtain ⟨_, pc, _, _, _, aio, flag, skipped, _, _, _, _, _⟩ := o
  cases h with
  | unsubmitted h => rcases hpc with rfl | rfl <;> cases h
  | racing | fired | resumed => simp at hpc
  | fast h => rcases hpc with rfl | rfl <;> simp [Pc.isEnded] at h
  | slow _ haio => exact ⟨rfl, rfl, haio⟩

/-- Past its skip point and not finished, it is awaited. -/
theorem Op.Stage.of_awaited (h : o.Stage) (hskip : o.skipped = some false)
    (hfin : o.aio.isFinished = false) : o.pc = .awaiting ∨ o.pc = .cancelling := by
  obtain ⟨_, pc, _, _, _, aio, flag, skipped, _, _, _, _, _⟩ := o
  cases h with
  | unsubmitted | racing | fired | fast => cases hskip
  | slow hpc => exact hpc
  | resumed => cases hfin

theorem Op.Stage.ne_idle_of_awaited (h : o.Stage) (hskip : o.skipped = some false) :
    o.aio ≠ .idle := by
  obtain ⟨_, pc, _, _, _, aio, flag, skipped, _, _, _, _, _⟩ := o
  cases h with
  | unsubmitted | racing | fired | fast => cases hskip
  | slow _ haio => exact haio
  | resumed => exact Aio.noConfusion

/-- Completed by its submitter, it had fired. -/
theorem Op.Stage.isFinished_of_sync (h : o.Stage) (hskip : o.skipped = some true) :
    o.aio.isFinished = true := by
  obtain ⟨_, pc, _, _, _, aio, flag, skipped, _, _, _, _, _⟩ := o
  cases h with
  | fast => rfl
  | unsubmitted | racing | fired | slow | resumed => cases hskip

/-- Fired before the skip point, the flag is up. -/
theorem Op.Stage.flag_of_raced (h : o.Stage) (hskip : o.skipped = none)
    (hfin : o.aio.isFinished = true) : o.skipPointReached = true := by
  obtain ⟨_, pc, _, _, _, aio, flag, skipped, _, _, _, _, _⟩ := o
  cases h with
  | unsubmitted => cases hfin
  | racing hbusy =>
    have hbusy' := Aio.not_isFinished hbusy
    rw [hbusy'] at hfin
    cases hfin
  | fired => rfl
  | fast | slow | resumed => cases hskip

/-! ## What a step keeps -/

/-- **A step of one operation** that neither registers nor queues it. -/
structure Op.Keeps (o o' : Op) : Prop where
  stage : o'.Stage
  place : o.pc.early = true ∨ o'.addr = o.addr ∧ o'.mgr = o.mgr ∧ o'.pc.early = false
  registers : o'.registers = true → o.registers = true
  due : o'.due = o.due
  pushed : o'.pushed = o.pushed
  popped : o'.popped = o.popped

/-- The steps before `_prepare_submit`, and a raise there. -/
theorem Op.Keeps.of_early (h : o.Stage) (hearly : o.pc.early = true)
    (hpc : o'.pc.early = true ∨ o'.pc.isEnded = true) (haio : o'.aio = o.aio)
    (hflag : o'.skipPointReached = o.skipPointReached) (hskip : o'.skipped = o.skipped)
    (hpushed : o'.pushed = o.pushed) (hpopped : o'.popped = o.popped) : o.Keeps o' := by
  have hfresh := h.fresh_of_early hearly
  refine ⟨?_, Or.inl hearly, fun hr => ?_, ?_, hpushed, hpopped⟩
  · rw [Op.Stage, haio, hflag, hskip, hfresh.1, hfresh.2.1, hfresh.2.2]
    refine .unsubmitted ?_
    revert hpc
    cases o'.pc <;> simp [Pc.early, Pc.isEnded, Pc.unsubmitted]
  · exfalso
    revert hpc hr
    cases hp : o'.pc <;> simp [Op.registers, hp, Pc.early, Pc.isEnded]
  · rw [Op.due, Op.due, haio, hskip]

/-- A step that leaves the stage alone. -/
theorem Op.Keeps.of_same (h : o.Stage) (hpc : o'.pc = o.pc) (haddr : o'.addr = o.addr)
    (hmgr : o'.mgr = o.mgr) (haio : o'.aio = o.aio)
    (hflag : o'.skipPointReached = o.skipPointReached) (hskip : o'.skipped = o.skipped)
    (hpushed : o'.pushed = o.pushed) (hpopped : o'.popped = o.popped) : o.Keeps o' where
  stage := by rw [Op.Stage, hpc, haio, hflag, hskip]; exact h
  place := by
    cases hearly : o.pc.early with
    | true => exact Or.inl rfl
    | false => exact Or.inr ⟨haddr, hmgr, by rw [hpc]; exact hearly⟩
  registers := by simp only [Op.registers, hpc, haio]; exact id
  due := by rw [Op.due, Op.due, haio, hskip]
  pushed := hpushed
  popped := hpopped

/-- **A completion**: the operation has no future any more, and is where it was. -/
structure Op.Completes (o o' : Op) : Prop where
  hasFuture : o'.hasFuture = false
  pc : o'.pc = o.pc
  mgr : o'.mgr = o.mgr
  addr : o'.addr = o.addr
  aio : o'.aio = o.aio

theorem Op.completes_dispatchComplete (o : Op) : o.Completes o.dispatchComplete := by
  unfold Op.dispatchComplete
  split
  · exact ⟨rfl, rfl, rfl, rfl, rfl⟩
  · rename_i hgone
    rw [Bool.not_eq_true] at hgone
    exact ⟨hgone, rfl, rfl, rfl, rfl⟩

theorem Op.completes_dispatchCompleteSafe (o : Op) : o.Completes o.dispatchCompleteSafe := by
  unfold Op.dispatchCompleteSafe
  split
  · exact ⟨rfl, rfl, rfl, rfl, rfl⟩
  · rename_i hgone
    rw [Bool.not_eq_true] at hgone
    exact ⟨hgone, rfl, rfl, rfl, rfl⟩

theorem Op.keeps_dispatchComplete (h : o.Stage) : o.Keeps o.dispatchComplete := by
  unfold Op.dispatchComplete
  split <;> exact .of_same h rfl rfl rfl rfl rfl rfl rfl rfl

theorem Op.keeps_dispatchCompleteSafe (h : o.Stage) : o.Keeps o.dispatchCompleteSafe := by
  unfold Op.dispatchCompleteSafe
  split <;> exact .of_same h rfl rfl rfl rfl rfl rfl rfl rfl

/-- `nng_socket_send`. -/
theorem Op.keeps_submit (h : o.Stage) (hpc : o.pc = .registered) (closed : Bool) :
    o.Keeps { o with pc := .submitted, aio := .busy closed } := by
  obtain ⟨haio, hflag, hskip⟩ := h.fresh (by rw [hpc]; rfl) (by rw [hpc]; rfl)
  refine ⟨?_, Or.inr ⟨rfl, rfl, rfl⟩, fun _ => ?_, ?_, rfl, rfl⟩
  · simp only [Op.Stage, hflag, hskip]
    exact .racing rfl rfl
  · simp only [Op.registers, hpc]
  · simp [Op.due, hskip]

/-- nng's thread moves the aio on, short of its end. -/
theorem Op.keeps_busy (h : o.Stage) {aio : Aio} (hbusy : o.aio.isBusy = true)
    (haio : aio.isBusy = true) (hpush : o.skipPointReached = false → aio.isPushing = false) :
    o.Keeps { o with aio } := by
  refine ⟨?_, Or.inr ⟨rfl, rfl, ?_⟩, fun hr => ?_, ?_, rfl, rfl⟩
  · rcases h.of_busy hbusy with ⟨hpc, -, hflag, hskip⟩ | ⟨hpc, hflag, hskip⟩
    · simp only [Op.Stage, hpc, hflag, hskip]
      exact .racing haio (hpush hflag)
    · simp only [Op.Stage, hflag, hskip]
      exact .slow hpc (by rintro rfl; cases haio)
  · rcases h.of_busy hbusy with ⟨hpc, -⟩ | ⟨hpc | hpc, -⟩ <;> simp only [hpc] <;> rfl
  · simpa [Op.registers, Aio.not_isFinished hbusy, Aio.not_isFinished haio] using hr
  · simp [Op.due, Aio.not_isFinished hbusy, Aio.not_isFinished haio]

/-- `fire` comes first. -/
theorem Op.keeps_fire (h : o.Stage) (hbusy : o.aio.isBusy = true)
    (hflag : o.skipPointReached = false) (rc : ℕ) :
    o.Keeps { o with skipPointReached := true, aio := .finished rc } := by
  rcases h.of_busy hbusy with ⟨hpc, -, -, hskip⟩ | ⟨-, hset, -⟩
  · refine ⟨?_, Or.inr ⟨rfl, rfl, by simp only [hpc]; rfl⟩, fun _ => ?_, ?_, rfl, rfl⟩
    · simp only [Op.Stage, hpc, hskip]
      exact .fired
    · simp only [Op.registers, hpc]
    · simp [Op.due, hskip]
  · rw [hset] at hflag; cases hflag

/-- The skip point, after `fire`. -/
theorem Op.keeps_skip (h : o.Stage) (hpc : o.pc = .submitted) (hflag : o.skipPointReached = true) :
    o.Keeps { o with pc := .skipped, skipped := some true } := by
  obtain ⟨hskip, ⟨hunset, -⟩ | ⟨-, rc, haio⟩⟩ := h.at_submitted hpc
  · rw [hunset] at hflag; cases hflag
  · refine ⟨?_, Or.inr ⟨rfl, rfl, rfl⟩, fun _ => ?_, ?_, rfl, rfl⟩
    · simp only [Op.Stage, haio, hflag]
      exact .fast (Or.inl rfl)
    · simp only [Op.registers, hpc]
    · simp [Op.due, hskip]

/-- The skip point, before `fire`. -/
theorem Op.keeps_await (h : o.Stage) (hpc : o.pc = .submitted)
    (hflag : o.skipPointReached = false) :
    o.Keeps { o with pc := .awaiting, skipPointReached := true, skipped := some false } := by
  obtain ⟨hskip, ⟨-, hbusy⟩ | ⟨hset, -⟩⟩ := h.at_submitted hpc
  · have hfin := Aio.not_isFinished hbusy
    refine ⟨.slow (Or.inl rfl) ?_, Or.inr ⟨rfl, rfl, rfl⟩, fun _ => ?_, ?_, rfl, rfl⟩
    · intro haio
      simp only at haio
      rw [haio] at hbusy
      cases hbusy
    · simp only [Op.registers, hpc]
    · simp [Op.due, hskip, hfin]
  · rw [hset] at hflag; cases hflag

/-- The call ends with its aio finished. -/
theorem Op.keeps_end (h : o.Stage) (hpc : o.pc = .fast ∨ o.pc = .awaiting ∨ o.pc = .cancelling)
    (hbusy : o.aio.isBusy = false) (outcome : Outcome) :
    o.Keeps { o with pc := .ended outcome } := by
  have hlate : o.pc.early = false := by rcases hpc with hpc | hpc | hpc <;> rw [hpc] <;> rfl
  refine ⟨?_, Or.inr ⟨rfl, rfl, rfl⟩, fun hr => absurd hr Bool.false_ne_true, rfl, rfl, rfl⟩
  rcases hpc with hpc | hpc
  · obtain ⟨hskip, hflag, rc, haio⟩ := h.at_fast (Or.inr hpc)
    simp only [Op.Stage, haio, hflag, hskip]
    exact .fast (Or.inr (Or.inr rfl))
  · obtain ⟨hskip, hflag, hidle⟩ := h.at_await hpc
    obtain ⟨rc, haio⟩ := Aio.eq_finished hidle hbusy
    simp only [Op.Stage, haio, hflag, hskip]
    exact .resumed

theorem Op.keeps_cancel (h : o.Stage) (hpc : o.pc = .awaiting) (fut : Fut) :
    o.Keeps { o with pc := .cancelling, fut } := by
  obtain ⟨hskip, hflag, hidle⟩ := h.at_await (Or.inl hpc)
  refine ⟨?_, Or.inr ⟨rfl, rfl, rfl⟩, fun hr => ?_, rfl, rfl, rfl⟩
  · simp only [Op.Stage, hflag, hskip]
    exact .slow (Or.inr rfl) hidle
  · simpa only [Op.registers, hpc] using hr

end Async

end PyNng
