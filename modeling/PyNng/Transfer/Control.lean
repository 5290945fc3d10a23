import PyNng.Transfer.Model
import PyNng.Async.Stage
/-!
# Transfer — the stages of an operation

A coroutine awaits its operation and reads the aio itself; for a
concurrent future the dispatcher's thread does. The two kinds go through
different stages, and what is common to them is when the aio is no longer
busy, and whether a cancellation came before the place where the message
would be taken.
-/

namespace PyNng

namespace Transfer

open Async (Aio Fut)

variable {e : EntryPoint} {input : Input} {s s' : State}

/-! ## Coroutines -/

/-- **The stages of a coroutine**: its place, its aio, and whether an
exception was thrown into its `await`. -/
inductive Coroutine : Pc → Aio → Bool → Prop
  | early {pc : Pc} (h : pc.early = true) : Coroutine pc .idle false
  | raised : Coroutine .ended .idle false
  | running {pc : Pc} {aio : Aio} (h : pc = .submitted ∨ pc = .awaiting) (haio : aio ≠ .idle) :
      Coroutine pc aio false
  | fast {rc : ℕ} : Coroutine .fast (.finished rc) false
  /-- An error it was told is the result of the aio. -/
  | resumed {rc : ℕ} {aio : Aio} (haio : aio ≠ .idle) (h : rc ≠ 0 → aio = .finished rc) :
      Coroutine (.finishing (some rc)) aio false
  | thrown {aio : Aio} (haio : aio ≠ .idle) : Coroutine (.finishing none) aio true
  | ended {rc : ℕ} {interrupted : Bool} : Coroutine .ended (.finished rc) interrupted

/-- What holds of an operation that is awaited. -/
structure Awaited (s : State) : Prop where
  stage : Coroutine s.pc s.aio s.interrupted
  told : ∀ rc, rc ≠ 0 → s.fut = .resolved rc → s.aio = .finished rc
  handler : s.handler ≠ .setting
  freed : s.freed = true → s.pc = .ended

/-! ## Concurrent futures -/

/-- **The stages of a submission**: the place of the call, its aio, the
handler, the future, and whether it was cancelled in time. -/
inductive Submission : Pc → Aio → Handler → Fut → Bool → Prop
  | early {pc : Pc} (h : pc.early = true) : Submission pc .idle .waiting .pending false
  | raised : Submission .ended .idle .waiting .pending false
  | running {pc : Pc} {aio : Aio} (h : pc = .submitted ∨ pc = .returned) (haio : aio ≠ .idle) :
      Submission pc aio .waiting .pending false
  | cancelled {aio : Aio} (haio : aio ≠ .idle) :
      Submission .returned aio .waiting .cancelled true
  | setting {pc : Pc} {rc : ℕ} {fut : Fut} (h : pc = .submitted ∨ pc = .returned)
      (hfut : fut.isResolved = false) : Submission pc (.finished rc) .setting fut false
  | set {pc : Pc} {rc : ℕ} {fut : Fut} (h : pc = .submitted ∨ pc = .returned)
      (hfut : fut ≠ .pending) : Submission pc (.finished rc) .done fut false
  | dropped {rc : ℕ} : Submission .returned (.finished rc) .done .cancelled true

/-- What holds of an operation with a concurrent future. -/
structure Submitted (s : State) : Prop where
  stage : Submission s.pc s.aio s.handler s.fut s.interrupted
  freed : s.freed = true → s.pc = .ended ∨ s.handler = .done

/-- The operation is where operations of its kind may be. -/
def Control (e : EntryPoint) (s : State) : Prop :=
  if e.concurrent then Submitted s else Awaited s

/-! ## The steps before the submission -/

/-- The steps up to `_prepare_submit`. -/
def Act.early : Act → Bool
  | .check | .refuse | .create .. | .createFails | .build | .buildFails | .prepareSubmit => true
  | _ => false

/-- **A step before the submission**: the call goes on, or ends, and
nothing has happened to its aio and its future. -/
structure Early (s s' : State) : Prop where
  pc : s.pc.early = true
  place : s'.pc.early = true ∨ s'.pc = .ended
  aio : s'.aio = s.aio
  interrupted : s'.interrupted = s.interrupted
  fut : s'.fut = s.fut
  handler : s'.handler = s.handler
  freed : s'.freed = s.freed

theorem Early.of_step {a : Act} (ha : a.early = true) (hen : Enabled e s a) :
    Early s (Transfer.next e s a) := by
  cases a with
  | check | create | build =>
    have hpc : s.pc.early = true := by rw [hen.1]; rfl
    exact ⟨hpc, Or.inl rfl, rfl, rfl, rfl, rfl, rfl⟩
  | refuse | buildFails =>
    have hpc : s.pc.early = true := by rw [hen.1]; rfl
    exact ⟨hpc, Or.inr rfl, rfl, rfl, rfl, rfl, rfl⟩
  | createFails =>
    have hpc : s.pc = .checked := hen
    exact ⟨by rw [hpc]; rfl, Or.inr rfl, rfl, rfl, rfl, rfl, rfl⟩
  | prepareSubmit =>
    have hpc : s.pc = if e.sends then .built else .created := hen
    have hearly : s.pc.early = true := by rw [hpc]; split <;> rfl
    simp only [Transfer.next]
    split
    · exact ⟨hearly, Or.inl rfl, rfl, rfl, rfl, rfl, rfl⟩
    · exact ⟨hearly, Or.inr rfl, rfl, rfl, rfl, rfl, rfl⟩
  | _ => cases ha

/-! ## The steps of a coroutine -/

theorem Coroutine.at_early {pc : Pc} {aio : Aio} {interrupted : Bool}
    (h : Coroutine pc aio interrupted) (hpc : pc.early = true) :
    aio = .idle ∧ interrupted = false := by
  cases h with
  | early => exact ⟨rfl, rfl⟩
  | running h => rcases h with rfl | rfl <;> cases hpc
  | raised | fast | resumed | thrown | ended => cases hpc

theorem Coroutine.at_running {pc : Pc} {aio : Aio} {interrupted : Bool}
    (h : Coroutine pc aio interrupted) (hpc : pc = .submitted ∨ pc = .awaiting) :
    aio ≠ .idle ∧ interrupted = false := by
  cases h with
  | early h => rcases hpc with rfl | rfl <;> cases h
  | running _ haio => exact ⟨haio, rfl⟩
  | raised | fast | resumed | thrown | ended => simp at hpc

theorem Coroutine.at_fast {aio : Aio} {interrupted : Bool}
    (h : Coroutine .fast aio interrupted) : (∃ rc, aio = .finished rc) ∧ interrupted = false := by
  cases h with
  | early h => cases h
  | running h => simp at h
  | fast => exact ⟨⟨_, rfl⟩, rfl⟩

theorem Coroutine.at_finishing {told : Option ℕ} {aio : Aio} {interrupted : Bool}
    (h : Coroutine (.finishing told) aio interrupted) :
    aio ≠ .idle ∧ interrupted = told.isNone ∧
      ∀ rc, rc ≠ 0 → told = some rc → aio = .finished rc := by
  cases h with
  | early h => cases h
  | running h => simp at h
  | resumed haio htold =>
    refine ⟨haio, rfl, fun rc hrc hsome => ?_⟩
    obtain rfl := Option.some.inj hsome
    exact htold hrc
  | thrown haio => exact ⟨haio, rfl, fun _ _ hsome => nomatch hsome⟩

/-- The stage at a place that is known. -/
theorem Awaited.stage_of_pc (h : Awaited s) {pc : Pc} (hpc : s.pc = pc) :
    Coroutine pc s.aio s.interrupted := hpc ▸ h.stage

/-- A coroutine returns no future. -/
theorem Coroutine.ne_returned {pc : Pc} {aio : Aio} {interrupted : Bool}
    (h : Coroutine pc aio interrupted) : pc ≠ .returned := by
  cases h with
  | early h => rintro rfl; cases h
  | running h => rcases h with rfl | rfl <;> exact Pc.noConfusion
  | raised | fast | resumed | thrown | ended => exact Pc.noConfusion

/-- A busy aio moves on: the call stays where it is. -/
theorem Coroutine.of_busy {pc : Pc} {aio aio' : Aio} {interrupted : Bool}
    (h : Coroutine pc aio interrupted) (hbusy : aio.isBusy = true) (haio : aio' ≠ .idle) :
    Coroutine pc aio' interrupted := by
  cases h with
  | early | raised | fast | ended => cases hbusy
  | running h => exact .running h haio
  | @resumed rc _ _ htold =>
    -- it was told 0: any error would be the result of an aio that has finished
    refine .resumed haio fun hrc => ?_
    rw [htold hrc] at hbusy
    cases hbusy
  | thrown => exact .thrown haio

/-- Fields of the coroutine that a step may leave alone. -/
theorem Awaited.step (h : Awaited s) (hstage : Coroutine s'.pc s'.aio s'.interrupted)
    (htold : ∀ rc, rc ≠ 0 → s'.fut = .resolved rc → s'.aio = .finished rc)
    (hhandler : s'.handler = s.handler) (hfreed : s'.freed = s.freed)
    (hover : s.pc = .ended → s'.pc = .ended) : Awaited s' where
  stage := hstage
  told := htold
  handler := by rw [hhandler]; exact h.handler
  freed := by rw [hfreed]; exact fun hf => hover (h.freed hf)

theorem Awaited.move (h : Awaited s) (hs : Early s s') : Awaited s' := by
  obtain ⟨hidle, huntouched⟩ := h.stage.at_early hs.pc
  refine h.step ?_ ?_ hs.handler hs.freed fun hover => ?_
  · rw [hs.aio, hs.interrupted, hidle, huntouched]
    rcases hs.place with hearly | hover
    · exact .early hearly
    · rw [hover]; exact .raised
  · rw [hs.fut, hs.aio]; exact h.told
  · have hpc := hs.pc
    rw [hover] at hpc
    cases hpc

/-- No error was told while the aio is busy, or not submitted. -/
theorem Awaited.untold (h : Awaited s) (hun : s.aio.isFinished = false) {rc : ℕ} (hrc : rc ≠ 0) :
    s.fut ≠ .resolved rc := by
  intro hfut
  rw [h.told rc hrc hfut] at hun
  cases hun

theorem State.fetch_eq (e : EntryPoint) (s : State) :
    (s.fetch e).aio = s.aio ∧ (s.fetch e).fut = s.fut ∧ (s.fetch e).handler = s.handler ∧
      (s.fetch e).interrupted = s.interrupted ∧ (s.fetch e).freed = s.freed := by
  unfold State.fetch
  split <;> exact ⟨rfl, rfl, rfl, rfl, rfl⟩

/-- The coroutine ends with its aio finished. -/
theorem Awaited.ends (h : Awaited s) {rc : ℕ} (hfin : s.aio = .finished rc)
    (hpc : s'.pc = .ended) (haio : s'.aio = s.aio) (hfut : s'.fut = s.fut)
    (hhandler : s'.handler = s.handler) (hfreed : s'.freed = s.freed) : Awaited s' := by
  refine h.step ?_ ?_ hhandler hfreed fun _ => hpc
  · rw [hpc, haio, hfin]; exact .ended
  · rw [hfut, haio]; exact h.told

theorem Awaited.next (hkind : e.concurrent = false) (h : Awaited s) {a : Act}
    (hen : Enabled e s a) : Awaited (Transfer.next e s a) := by
  cases a with
  | check | refuse | create | createFails | build | buildFails | prepareSubmit =>
    exact h.move (Early.of_step rfl hen)
  | submit =>
    have hpc : s.pc = .registered := hen
    obtain ⟨hidle, huntouched⟩ := h.stage.at_early (by rw [hpc]; rfl)
    refine h.step ?_ (fun rc hrc hfut => ?_) rfl rfl fun hover => ?_
    · simp only [Transfer.next, huntouched]
      exact .running (Or.inl rfl) (by simp)
    · exact absurd hfut (h.untold (by rw [hidle]; rfl) hrc)
    · rw [hpc] at hover; cases hover
  | complete rc =>
    have hbusy : s.aio.isBusy = true := Aio.MayEnd.isBusy hen
    refine h.step (h.stage.of_busy hbusy (by simp [Transfer.next]))
      (fun rc' hrc hfut => ?_) rfl rfl id
    exact absurd hfut (h.untold (Aio.not_isFinished hbusy) hrc)
  | fire =>
    have hbusy := Aio.isBusy_of_isCompleted hen
    refine h.step (h.stage.of_busy hbusy (by simp [Transfer.next]))
      (fun rc' hrc hfut => ?_) rfl rfl id
    exact absurd hfut (h.untold (Aio.not_isFinished hbusy) hrc)
  | shut => exact h.step h.stage h.told rfl rfl id
  | reachSkipPoint =>
    have hpc : s.pc = .submitted := hen.1
    obtain ⟨haio, huntouched⟩ := h.stage.at_running (Or.inl hpc)
    refine h.step ?_ h.told rfl rfl fun hover => ?_
    · simp only [Transfer.next, huntouched]
      split
      · rename_i hskip
        simp only [Bool.and_eq_true] at hskip
        obtain ⟨rc, hfin⟩ := Aio.exists_of_isFinished hskip.2
        rw [hfin]
        exact .fast
      · exact .running (Or.inr rfl) haio
    · rw [hpc] at hover; cases hover
  | finishFast =>
    obtain ⟨⟨rc, hfin⟩, -⟩ := (h.stage_of_pc hen.1).at_fast
    simp only [Transfer.next]
    split
    · obtain ⟨haio, hfut, hhandler, -, hfreed⟩ := s.fetch_eq e
      exact h.ends hfin rfl haio hfut hhandler hfreed
    · exact h.ends hfin rfl rfl rfl rfl rfl
  | resolve =>
    refine ⟨h.stage, fun rc hrc hfut => ?_, by simp [Transfer.next], h.freed⟩
    change s.fut.set s.aio.result = .resolved rc at hfut
    cases hold : s.fut with
    | pending =>
      rw [hold] at hfut
      have hresult : s.aio.result = rc := Fut.resolved.inj hfut
      have hidle : s.aio ≠ .idle := by
        intro hidle
        rw [hidle] at hresult
        exact hrc hresult.symm
      obtain ⟨rc', hfin⟩ := Aio.eq_finished hidle hen.2.2.2.1
      rw [hfin] at hresult
      change s.aio = .finished rc
      rw [hfin, ← hresult]
      rfl
    | resolved rc' =>
      rw [hold] at hfut
      exact h.told rc hrc (hold.trans hfut)
    | cancelled =>
      rw [hold] at hfut
      cases hfut
  | resume =>
    obtain ⟨haio, huntouched⟩ := h.stage.at_running (Or.inr hen.1)
    simp only [Transfer.next]
    split
    · rename_i rc hfut
      refine h.step ?_ h.told rfl rfl fun hover => ?_
      · simp only [huntouched]
        exact .resumed haio fun hrc => h.told rc hrc hfut
      · rw [hen.1] at hover; cases hover
    · exact h
  | throw =>
    have hpc : s.pc = .awaiting := hen
    obtain ⟨haio, -⟩ := h.stage.at_running (Or.inr hpc)
    refine h.step (.thrown haio) (fun rc hrc hfut => h.told rc hrc ?_) rfl rfl fun hover => ?_
    · revert hfut
      simp only [Transfer.next]
      cases s.fut <;> simp [Fut.cancel]
    · rw [hpc] at hover; cases hover
  | finish =>
    obtain ⟨⟨told, hpc⟩, hbusy⟩ := hen
    obtain ⟨haio, -, -⟩ := (h.stage_of_pc hpc).at_finishing
    obtain ⟨rc, hfin⟩ := Aio.eq_finished haio hbusy
    simp only [Transfer.next]
    split
    · obtain ⟨haio, hfut, hhandler, -, hfreed⟩ := s.fetch_eq e
      exact h.ends hfin rfl haio hfut hhandler hfreed
    · exact h.ends hfin rfl rfl rfl rfl rfl
  | returnFuture => exact absurd (hkind.symm.trans hen.2) Bool.false_ne_true
  | test => exact absurd (hkind.symm.trans hen.1) Bool.false_ne_true
  | set => exact absurd hen h.handler
  | cancel => exact absurd hen.1 h.stage.ne_returned
  | cancelled => exact h.step h.stage h.told rfl rfl id
  | free =>
    refine ⟨h.stage, h.told, h.handler, fun _ => ?_⟩
    rcases hen.1 with hover | ⟨hconc, -⟩
    · exact hover
    · exact absurd (hkind.symm.trans hconc) Bool.false_ne_true

/-! ## The steps of a submission -/

theorem Submission.at_early {pc : Pc} {aio : Aio} {handler : Handler} {fut : Fut}
    {interrupted : Bool} (h : Submission pc aio handler fut interrupted) (hpc : pc.early = true) :
    aio = .idle ∧ handler = .waiting ∧ fut = .pending ∧ interrupted = false := by
  cases h with
  | early => exact ⟨rfl, rfl, rfl, rfl⟩
  | running h | setting h | set h => rcases h with rfl | rfl <;> cases hpc
  | raised | cancelled | dropped => cases hpc

/-- A submission is never where a coroutine awaits. -/
theorem Submission.place {pc : Pc} {aio : Aio} {handler : Handler} {fut : Fut}
    {interrupted : Bool} (h : Submission pc aio handler fut interrupted) :
    pc.early = true ∨ pc = .ended ∨ pc = .submitted ∨ pc = .returned := by
  cases h with
  | early h => exact Or.inl h
  | raised => exact Or.inr (Or.inl rfl)
  | running h | setting h | set h => exact Or.inr (Or.inr h)
  | cancelled | dropped => exact Or.inr (Or.inr (Or.inr rfl))

/-- A busy aio moves on. -/
theorem Submission.of_busy {pc : Pc} {aio aio' : Aio} {handler : Handler} {fut : Fut}
    {interrupted : Bool} (h : Submission pc aio handler fut interrupted)
    (hbusy : aio.isBusy = true) (haio : aio' ≠ .idle) :
    Submission pc aio' handler fut interrupted := by
  cases h with
  | early | raised | setting | set | dropped => cases hbusy
  | running h => exact .running h haio
  | cancelled => exact .cancelled haio

/-- `submit_send` or `submit_recv` returns. -/
theorem Submission.returns {aio : Aio} {handler : Handler} {fut : Fut} {interrupted : Bool}
    (h : Submission .submitted aio handler fut interrupted) :
    Submission .returned aio handler fut interrupted := by
  cases h with
  | early h => cases h
  | running _ haio => exact .running (Or.inr rfl) haio
  | setting _ hfut => exact .setting (Or.inr rfl) hfut
  | set _ hfut => exact .set (Or.inr rfl) hfut

/-- The handler asks `fut.done()`. -/
theorem Submission.test {pc : Pc} {aio : Aio} {fut : Fut} {interrupted : Bool}
    (h : Submission pc aio .waiting fut interrupted) (hfin : aio.isFinished = true) :
    Submission pc aio (if fut = .pending then .setting else .done) fut interrupted := by
  obtain ⟨rc, rfl⟩ := Aio.exists_of_isFinished hfin
  cases h with
  | running h => exact .setting h rfl
  | cancelled => exact .dropped

/-- It sets the future, unless that was cancelled in between. -/
theorem Submission.sets {pc : Pc} {aio : Aio} {fut fut' : Fut} {interrupted : Bool}
    (h : Submission pc aio .setting fut interrupted) (hfut : fut' ≠ .pending) :
    Submission pc aio .done fut' interrupted := by
  cases h with
  | setting h => exact .set h hfut

/-- The future is cancelled. -/
theorem Submission.cancel {aio : Aio} {handler : Handler} {interrupted : Bool}
    (h : Submission .returned aio handler .pending interrupted) :
    Submission .returned aio handler .cancelled
      (interrupted || handler = .waiting) := by
  cases h with
  | early h => cases h
  | running _ haio => exact .cancelled haio
  | setting h => exact .setting h rfl
  | set _ hfut => exact absurd rfl hfut

/-- The handler has not looked yet: the call is not over, and a cancelled
future was cancelled in time. -/
theorem Submission.at_waiting {pc : Pc} {aio : Aio} {fut : Fut} {interrupted : Bool}
    (h : Submission pc aio .waiting fut interrupted) (hfin : aio.isFinished = true) :
    pc ≠ .ended ∧ (fut ≠ .pending → interrupted = true) := by
  cases h with
  | early | raised => cases hfin
  | running h =>
    refine ⟨?_, fun hne => absurd rfl hne⟩
    rcases h with rfl | rfl <;> exact Pc.noConfusion
  | cancelled => exact ⟨Pc.noConfusion, fun _ => rfl⟩

/-- The handler is about to set the future. -/
theorem Submission.at_setting {pc : Pc} {aio : Aio} {fut : Fut} {interrupted : Bool}
    (h : Submission pc aio .setting fut interrupted) :
    pc ≠ .ended ∧ interrupted = false ∧ ∃ rc, aio = .finished rc := by
  cases h with
  | setting h =>
    refine ⟨?_, rfl, _, rfl⟩
    rcases h with rfl | rfl <;> exact Pc.noConfusion

/-- A pending future was not set. -/
theorem Submission.ne_done {pc : Pc} {aio : Aio} {handler : Handler} {interrupted : Bool}
    (h : Submission pc aio handler .pending interrupted) : handler ≠ .done := by
  cases h with
  | early | raised | running | setting => exact Handler.noConfusion
  | set _ hfut => exact absurd rfl hfut

theorem Submitted.move (h : Submitted s) (hs : Early s s') : Submitted s' := by
  obtain ⟨hidle, hwaiting, hpending, huntouched⟩ := h.stage.at_early hs.pc
  refine ⟨?_, fun hf => ?_⟩
  · rw [hs.aio, hs.interrupted, hs.fut, hs.handler, hidle, hwaiting, hpending, huntouched]
    rcases hs.place with hearly | hover
    · exact .early hearly
    · rw [hover]; exact .raised
  · rw [hs.freed] at hf
    rcases h.freed hf with hover | hdone
    · have hpc := hs.pc
      rw [hover] at hpc
      cases hpc
    · rw [hwaiting] at hdone; cases hdone

/-- A place that no submission comes to. -/
theorem Submitted.absurd_place (h : Submitted s) {pc : Pc} (hpc : s.pc = pc)
    (hnot : pc.early = false ∧ pc ≠ .ended ∧ pc ≠ .submitted ∧ pc ≠ .returned) : False := by
  obtain ⟨hearly, hover, hsubmitted, hreturned⟩ := hnot
  rcases h.stage.place with hp | hp | hp | hp
  · rw [hpc, hearly] at hp; cases hp
  · exact hover (hpc.symm.trans hp)
  · exact hsubmitted (hpc.symm.trans hp)
  · exact hreturned (hpc.symm.trans hp)

theorem Submitted.next (hkind : e.concurrent = true) (h : Submitted s) {a : Act}
    (hen : Enabled e s a) : Submitted (Transfer.next e s a) := by
  cases a with
  | check | refuse | create | createFails | build | buildFails | prepareSubmit =>
    exact h.move (Early.of_step rfl hen)
  | submit =>
    have hpc : s.pc = .registered := hen
    obtain ⟨-, hwaiting, hpending, huntouched⟩ := h.stage.at_early (by rw [hpc]; rfl)
    refine ⟨?_, fun hf => ?_⟩
    · simp only [Transfer.next, hwaiting, hpending, huntouched]
      exact .running (Or.inl rfl) (by simp)
    · rcases h.freed hf with hover | hdone
      · rw [hpc] at hover; cases hover
      · rw [hwaiting] at hdone; cases hdone
  | complete rc =>
    have hbusy : s.aio.isBusy = true := Aio.MayEnd.isBusy hen
    exact ⟨h.stage.of_busy hbusy (by simp [Transfer.next]), h.freed⟩
  | fire =>
    have hbusy := Aio.isBusy_of_isCompleted hen
    exact ⟨h.stage.of_busy hbusy (by simp [Transfer.next]), h.freed⟩
  | shut | cancelled => exact ⟨h.stage, h.freed⟩
  | reachSkipPoint => exact absurd (hkind.symm.trans hen.2).symm Bool.false_ne_true
  | finishFast => exact (h.absurd_place hen.1 (by decide)).elim
  | resolve => exact absurd (hkind.symm.trans hen.1).symm Bool.false_ne_true
  | resume => exact (h.absurd_place hen.1 (by decide)).elim
  | throw =>
    have hpc : s.pc = .awaiting := hen
    exact (h.absurd_place hpc (by decide)).elim
  | finish =>
    obtain ⟨⟨told, hpc⟩, -⟩ := hen
    exact (h.absurd_place hpc ⟨rfl, Pc.noConfusion, Pc.noConfusion, Pc.noConfusion⟩).elim
  | returnFuture =>
    have hstage := h.stage
    rw [hen.1] at hstage
    refine ⟨hstage.returns, fun hf => Or.inr ?_⟩
    refine (h.freed hf).resolve_left fun hover => ?_
    rw [hen.1] at hover
    cases hover
  | test =>
    have hstage := h.stage
    rw [hen.2.2.1] at hstage
    refine ⟨hstage.test hen.2.2.2, fun hf => Or.inl ?_⟩
    refine (h.freed hf).resolve_right fun hdone => ?_
    rw [hen.2.2.1] at hdone
    cases hdone
  | set =>
    have hsetting : s.handler = .setting := hen
    have hstage := h.stage
    rw [hsetting] at hstage
    simp only [Transfer.next]
    split
    · simp only [State.setResult]
      split
      · exact ⟨hstage.sets (by simp), fun _ => Or.inr rfl⟩
      · rename_i hfut
        exact ⟨hstage.sets hfut, fun _ => Or.inr rfl⟩
    · refine ⟨hstage.sets ?_, fun _ => Or.inr rfl⟩
      cases s.fut <;> simp [Fut.set]
  | cancel =>
    have hstage := h.stage
    rw [hen.1, hen.2] at hstage
    refine ⟨?_, h.freed⟩
    simp only [Transfer.next, hen.1]
    exact hstage.cancel
  | free =>
    refine ⟨h.stage, fun _ => ?_⟩
    rcases hen.1 with hover | ⟨-, -, hdone, -⟩
    · exact Or.inl hover
    · exact Or.inr hdone

/-! ## Every run -/

theorem Control.next (h : Control e s) {a : Act} (hen : Enabled e s a) :
    Control e (Transfer.next e s a) := by
  unfold Control at h ⊢
  split
  · rename_i hkind
    rw [if_pos hkind] at h
    exact h.next hkind hen
  · rename_i hkind
    rw [if_neg hkind] at h
    exact h.next (Bool.not_eq_true _ ▸ hkind) hen

theorem control_init : Control e (operation e input).init := by
  unfold Control
  split
  · exact ⟨.early rfl, fun hf => absurd hf Bool.false_ne_true⟩
  · exact ⟨.early rfl, fun _ _ hfut => (nomatch hfut), Handler.noConfusion,
      fun hf => absurd hf Bool.false_ne_true⟩

theorem control_of_reach (h : (operation e input).Reach s) : Control e s :=
  h.invariant control_init fun _ _ _ hinv _ hen => hinv.next hen

theorem Control.awaited (h : Control e s) (hkind : e.concurrent = false) : Awaited s := by
  rwa [Control, if_neg (by rw [hkind]; exact Bool.false_ne_true)] at h

theorem Control.submitted (h : Control e s) (hkind : e.concurrent = true) : Submitted s := by
  rwa [Control, if_pos hkind] at h

/-- **Before the submission** the aio is idle. -/
theorem Control.idle (h : Control e s) (hpc : s.pc.early = true) : s.aio = .idle := by
  cases hkind : e.concurrent with
  | false => exact ((h.awaited hkind).stage.at_early hpc).1
  | true => exact ((h.submitted hkind).stage.at_early hpc).1

/-- **The message is read from an aio that is not busy.** -/
theorem Control.quiet (h : Control e s) (hd : s.decided e = true) : s.aio.isBusy = false := by
  cases hkind : e.concurrent with
  | false =>
    have hpc : s.pc = .ended := by simpa [State.decided, hkind] using hd
    have hstage := (h.awaited hkind).stage
    rw [hpc] at hstage
    revert hstage
    generalize s.aio = aio
    generalize s.interrupted = interrupted
    intro hstage
    cases hstage with
    | early | raised | ended => rfl
    | running h => simp at h
  | true =>
    have hor : s.pc = .ended ∨ s.handler = .done := by simpa [State.decided, hkind] using hd
    have hstage := (h.submitted hkind).stage
    revert hstage hor
    generalize s.pc = pc
    generalize s.aio = aio
    generalize s.handler = handler
    generalize s.fut = fut
    generalize s.interrupted = interrupted
    intro hor hstage
    cases hstage with
    | early | raised | setting | set | dropped => rfl
    | running h => rcases h with rfl | rfl <;> simp at hor
    | cancelled => simp at hor

/-- The aio is freed only after that. -/
theorem Control.decided_of_freed (h : Control e s) (hf : s.freed = true) : s.decided e = true := by
  cases hkind : e.concurrent with
  | false => simp [State.decided, (h.awaited hkind).freed hf]
  | true =>
    rcases (h.submitted hkind).freed hf with hover | hdone
    · simp [State.decided, hover]
    · simp [State.decided, hkind, hdone]

end Transfer

end PyNng
