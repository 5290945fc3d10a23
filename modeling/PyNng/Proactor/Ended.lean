import PyNng.Proactor.Task
import Mathlib.Data.Nat.Notation
/-!
# Proactor — how a released drain task ends

`release` schedules the task's cancellation and drops `_loop` at once. The
cancellation reaches the task only at an `await`, behind what the loop has
ready; a task that is between two rounds comes to `_loop` first.
-/

namespace PyNng

namespace DrainTask

variable {s : State} {a : Act} {o : Outcome} {n : ℕ}

/-! ## The loop's ready list -/

/-- The task's steps that are scheduled. -/
@[simp]
def Drain.steps : Drain → List Scheduled
  | .unstarted | .received | .failed | .recvCancelled => [.step]
  | _ => []

/-- A task that has callbacks to run is dispatching. -/
theorem Drain.eq_dispatching {d : Drain} (h : 0 < d.callbacks) : d = .dispatching d.callbacks := by
  cases d with
  | dispatching n => rfl
  | _ => exact absurd h (Nat.lt_irrefl 0)

/-- A task that is not over, at `sock_recv` or dispatching has a step scheduled. -/
theorem Drain.steps_eq {d : Drain} (hover : d.isOver = false) (hidle : d.isDispatching = false)
    (hreceiving : d ≠ .receiving) : d.steps = [.step] := by
  cases d with
  | absent | ended o => cases hover
  | dispatching n => cases hidle
  | receiving => exact absurd rfl hreceiving
  | unstarted | received | failed | recvCancelled => rfl

theorem Drain.ne_absent {d : Drain} (hover : d.isOver = false) : d ≠ .absent := by
  rintro rfl
  cases hover

theorem Drain.not_done {d : Drain} (hover : d.isOver = false) : d.isDone = false := by
  cases d with
  | ended o => cases hover
  | _ => rfl

/-- **What is so of every state.** -/
structure Sound (s : State) : Prop where
  made : s.made = false → s.refs = 0
  closed : s.closed = true → s.ready = [] ∧ s.drain.isDispatching = false
  step : s.closed = false → s.ready.count .step = s.drain.steps.length
  /-- No cancellation is scheduled before a release. -/
  quiet : s.hasLoop = true → s.closed = false → s.ready = s.drain.steps
  mustCancel : s.mustCancel = true → s.drain.steps = [.step]
  unstarted : s.drain = .unstarted → s.closed = false → s.ready.head? = some .step
  /-- A task at `sock_recv` that is released is about to be cancelled. -/
  receiving : s.drain = .receiving → s.hasLoop = false → s.closed = false →
    s.ready.head? = some .cancel
  held : s.hasLoop = true → s.drain ≠ .absent →
    s.mode = .proactor ∧ s.hasTask = true ∧ s.hasCallables = true
  releasing : s.hasLoop = false → s.drain.isOver = false → s.closed = false → s.releasing = true
  freed : s.freed = true → s.sockOpen = false ∧ (s.drain.isOver = true ∨ s.closed = true)
  /-- The task never reads from a socket that is closed. -/
  opened : s.drain.isOver = false → s.closed = false → s.sockOpen = true ∧ s.queueOpen = true

theorem sound_init : Sound {} := by
  constructor <;> simp

theorem Sound.create (attempt : Attempt) : Sound attempt.create := by
  cases attempt <;> constructor <;> simp [Attempt.create]

theorem Sound.open_of_ready (h : Sound s) (hne : s.ready ≠ []) : s.closed = false := by
  rw [← Bool.not_eq_true]
  intro hclosed
  exact hne (h.closed hclosed).1

/-- A cancellation, also one that was first in the ready list. -/
theorem Sound.cancelTask (h : Sound s) {rest : List Scheduled}
    (hready : s.ready = rest ∨ s.ready = .cancel :: rest) (hidle : s.drain.isDispatching = false)
    (hopen : s.closed = false) : Sound ({ s with ready := rest }.cancelTask) := by
  obtain ⟨hmade, hclosed, hstep, hquiet, hmust, hunstarted, hreceiving, hheld, hreleasing, hfreed,
    hopened⟩ := h
  unfold State.cancelTask
  rcases hready with rfl | hready <;> cases hat : s.drain <;> constructor <;> simp_all

theorem Sound.goRound (h : Sound s) (hidle : s.drain = .dispatching 0) : Sound s.goRound := by
  obtain ⟨hmade, hclosed, hstep, hquiet, hmust, hunstarted, hreceiving, hheld, hreleasing, hfreed,
    hopened⟩ := h
  unfold State.goRound
  split <;> constructor <;> simp_all

theorem Sound.release (h : Sound s) : Sound s.release := by
  obtain ⟨hmade, hclosed, hstep, hquiet, hmust, hunstarted, hreceiving, hheld, hreleasing, hfreed,
    hopened⟩ := h
  unfold State.release
  dsimp only
  split
  · rename_i hcond
    obtain ⟨hloop, hopen, -, -, -⟩ := hcond
    have hready := hquiet hloop hopen
    cases hat : s.drain <;> constructor <;> simp_all
  · rename_i hcond
    -- nothing is scheduled, for a task that is over or a manager released before
    have hloop : s.drain.isOver = false → s.closed = false → s.hasLoop = false := by
      intro hover hopen
      rw [← Bool.not_eq_true]
      intro hloop
      obtain ⟨hmode, htask, -⟩ := hheld hloop (Drain.ne_absent hover)
      exact hcond ⟨hloop, hopen, hmode, htask, Drain.not_done hover⟩
    refine ⟨hmade, hclosed, hstep, fun hno => absurd hno Bool.false_ne_true, hmust, hunstarted,
      fun hat _ hopen => ?_, fun hno => absurd hno Bool.false_ne_true, fun _ hover hopen => ?_,
      hfreed, hopened⟩
    · exact hreceiving hat (hloop (by rw [hat]; rfl) hopen) hopen
    · exact hreleasing (hloop hover hopen) hover hopen

/-! ## A step of the task that was first in the ready list -/

section Step

variable {rest : List Scheduled}

/-- It was the only one. -/
theorem Sound.rest_of_step (h : Sound s) (hready : s.ready = .step :: rest) :
    s.closed = false ∧ rest.count .step = 0 ∧ s.drain.steps = [.step] := by
  have hopen : s.closed = false := h.open_of_ready (by rw [hready]; exact List.cons_ne_nil _ _)
  have hcount := h.step hopen
  rw [hready, List.count_cons_self] at hcount
  cases hat : s.drain with
  | unstarted | received | failed | recvCancelled =>
    rw [hat] at hcount
    exact ⟨hopen, Nat.succ.inj hcount, rfl⟩
  | _ =>
    rw [hat] at hcount
    cases hcount

theorem Sound.endTask (h : Sound s) (hready : s.ready = .step :: rest) {b c : Bool}
    (hb : b = false) : Sound { s with
      ready := rest, drain := .ended o, mustCancel := b, taskUserCancelled := c } := by
  obtain ⟨hopen, hcount, hsteps⟩ := h.rest_of_step hready
  have hquiet := h.quiet
  constructor
  · exact h.made
  · intro hclosed
    rw [hopen] at hclosed
    cases hclosed
  · exact fun _ => hcount
  · intro hloop _
    have hrest := hquiet hloop hopen
    rw [hready, hsteps] at hrest
    exact (List.cons.inj hrest).2
  · intro hmust
    rw [hb] at hmust
    cases hmust
  · exact fun hat => Drain.noConfusion hat
  · exact fun hat => Drain.noConfusion hat
  · intro hloop _
    refine h.held hloop fun hat => ?_
    rw [hat] at hsteps
    cases hsteps
  · exact fun _ hover => absurd hover.symm Bool.false_ne_true
  · exact fun hfreed => ⟨(h.freed hfreed).1, .inl rfl⟩
  · exact fun hover => absurd hover.symm Bool.false_ne_true

/-- It goes to `sock_recv`, or to its callbacks. -/
theorem Sound.goOn (h : Sound s) (hready : s.ready = .step :: rest) (hmust : s.mustCancel = false)
    {d : Drain} (hd : d = .receiving ∧ s.hasLoop = true ∨ d = .dispatching n) :
    Sound { s with ready := rest, drain := d } := by
  obtain ⟨hopen, hcount, hsteps⟩ := h.rest_of_step hready
  have hnil : s.hasLoop = true → rest = [] := by
    intro hloop
    have hrest := h.quiet hloop hopen
    rw [hready, hsteps] at hrest
    exact (List.cons.inj hrest).2
  have hover : s.drain.isOver = false := by
    cases hat : s.drain with
    | absent | ended o =>
      rw [hat] at hsteps
      cases hsteps
    | _ => rfl
  have hpresent := Drain.ne_absent hover
  obtain ⟨hmade, -, -, -, -, -, -, hheld, hreleasing, hfreed, hopened⟩ := h
  rcases hd with ⟨rfl, hloop⟩ | rfl <;> constructor <;> simp_all

theorem Sound.stepTask (h : Sound s) (hready : s.ready = .step :: rest) :
    Sound ({ s with ready := rest }.stepTask n) := by
  unfold State.stepTask
  dsimp only
  split
  · split
    · exact h.endTask hready rfl
    · rename_i hmust
      rw [Bool.not_eq_true] at hmust
      unfold State.goRound
      split
      · rename_i hloop
        exact h.goOn (n := n) hready hmust (.inl ⟨rfl, hloop⟩)
      · exact h.endTask hready hmust
  · exact h.endTask hready rfl
  · split
    · exact h.endTask hready rfl
    · rename_i hmust
      rw [Bool.not_eq_true] at hmust
      split
      · exact h.goOn hready hmust (.inr rfl)
      · exact h.endTask hready hmust
  · split
    · exact h.endTask hready rfl
    · rename_i hmust
      exact h.endTask hready (Bool.not_eq_true _ ▸ hmust)
  · rename_i hunstarted hcancelled hreceived hfailed
    have hsteps := (h.rest_of_step hready).2.2
    cases hat : s.drain with
    | unstarted => exact (hunstarted hat).elim
    | recvCancelled => exact (hcancelled hat).elim
    | received => exact (hreceived hat).elim
    | failed => exact (hfailed hat).elim
    | _ =>
      rw [hat] at hsteps
      cases hsteps

end Step

theorem Sound.next (h : Sound s) (hen : Enabled s a) : Sound (next s a) := by
  cases a with
  | create attempt => exact .create attempt
  | userCancel => exact h.cancelTask (.inl rfl) hen.2 hen.1
  | goRound => exact h.goRound hen
  | release => exact h.release
  | run n =>
    obtain ⟨hne, hidle⟩ := hen
    unfold DrainTask.next
    dsimp only
    split
    · exact h
    · rename_i rest hready
      exact h.stepTask hready
    · rename_i rest hready
      exact h.cancelTask (.inr hready) hidle (h.open_of_ready hne)
  | callback =>
    have hat := Drain.eq_dispatching hen
    obtain ⟨hmade, hclosed, hstep, hquiet, hmust, hunstarted, hreceiving, hheld, hreleasing, hfreed,
      hopened⟩ := h
    unfold DrainTask.next
    revert hat
    generalize s.drain.callbacks = n
    intro hat
    constructor <;> simp_all
  | recvDone | recvFails =>
    obtain ⟨hat, hopen⟩ := hen
    obtain ⟨hmade, hclosed, hstep, hquiet, hmust, hunstarted, hreceiving, hheld, hreleasing, hfreed,
      hopened⟩ := h
    unfold DrainTask.next
    constructor <;> simp_all
  | closeLoop =>
    obtain ⟨hmade', hopen, hidle⟩ := hen
    obtain ⟨hmade, hclosed, hstep, hquiet, hmust, hunstarted, hreceiving, hheld, hreleasing, hfreed,
      hopened⟩ := h
    unfold DrainTask.next
    constructor <;> simp_all
  | share | drop =>
    have hrefs : 0 < s.refs := hen
    obtain ⟨hmade, hclosed, hstep, hquiet, hmust, hunstarted, hreceiving, hheld, hreleasing, hfreed,
      hopened⟩ := h
    refine ⟨fun hnot => ?_, hclosed, hstep, hquiet, hmust, hunstarted, hreceiving, hheld,
      hreleasing, hfreed, hopened⟩
    have := hmade hnot
    omega
  | free =>
    obtain ⟨-, -, -, hnot⟩ := hen
    have hdone : s.drain.isOver = true ∨ s.closed = true := by
      rcases Bool.eq_false_or_eq_true s.drain.isOver with hover | hover
      · exact .inl hover
      · refine .inr ?_
        rw [← Bool.not_eq_false]
        exact fun hopen => hnot ⟨hover, hopen⟩
    exact ⟨h.made, h.closed, h.step, h.quiet, h.mustCancel, h.unstarted, h.receiving, h.held,
      h.releasing, fun _ => ⟨rfl, hdone⟩, fun hover hopen => absurd ⟨hover, hopen⟩ hnot⟩
  | closeQueue =>
    obtain ⟨hf, hops, hqueue⟩ := hen
    obtain ⟨hmade, hclosed, hstep, hquiet, hmust, hunstarted, hreceiving, hheld, hreleasing, hfreed,
      hopened⟩ := h
    unfold DrainTask.next
    constructor <;> simp_all
  | startOp | endOp => exact ⟨h.made, h.closed, h.step, h.quiet, h.mustCancel, h.unstarted,
      h.receiving, h.held, h.releasing, h.freed, h.opened⟩

theorem sound_of_reach (hs : task.Reach s) : Sound s := by
  induction hs with
  | init => exact sound_init
  | step _ _ hen ih => exact ih.next hen

/-! ## What a released task may still come to -/

/-- How the task ends that nothing cancels before its next step. -/
@[simp]
def Drain.course : Drain → Outcome
  | .unstarted | .dispatching _ => .attributeError
  | .received => .returned
  | .failed => .recvError
  | .absent | .receiving | .recvCancelled => .cancelled
  | .ended o => o

/-- The next step of the task finds it cancelled, or does not come. -/
def State.Doomed (s : State) : Prop :=
  s.mustCancel = true ∨ s.closed = true ∨ s.ready.head? = some .cancel

/-- **How the task may end**, once it is released. -/
structure State.MayEndAs (s : State) (o : Outcome) : Prop where
  present : s.drain ≠ .absent
  outcome : o = s.drain.course ∧ (s.drain.steps = [.step] → ¬ s.Doomed) ∨
    o = .cancelled ∧ s.drain.steps = [.step]

/-- `release` has been called on the manager. -/
structure Dropped (s : State) : Prop where
  made : s.made = true
  hasLoop : s.hasLoop = false
  hasCallables : s.hasCallables = false

/-- The same of a state that is sound. -/
structure Released (s : State) : Prop extends Dropped s where
  sound : Sound s

theorem Dropped.drain_stepTask (h : Dropped s) (hsteps : s.drain.steps = [.step]) :
    (s.stepTask n).drain = .ended (if s.mustCancel then .cancelled else s.drain.course) := by
  obtain ⟨-, hloop, hcallables⟩ := h
  unfold State.stepTask State.exceptCancelled State.goRound
  cases hat : s.drain <;> cases hmust : s.mustCancel <;> simp_all

theorem cancelTask_of_steps (hsteps : s.drain.steps = [.step]) :
    s.cancelTask = { s with mustCancel := true } := by
  unfold State.cancelTask
  cases hat : s.drain <;> simp_all

theorem cancelTask_of_over (hover : s.drain.isOver = true) : s.cancelTask = s := by
  unfold State.cancelTask
  cases hat : s.drain with
  | absent | ended o => rfl
  | _ =>
    rw [hat] at hover
    cases hover

/-- A task that is done may end only as it did. -/
theorem State.MayEndAs.of_ended {o' : Outcome} (h : s.MayEndAs o) (hat : s.drain = .ended o') :
    o = o' := by
  obtain ⟨-, houtcome⟩ := h
  rw [hat] at houtcome
  exact (houtcome.resolve_right fun hno => absurd hno.2 (List.cons_ne_nil _ _).symm).1

theorem mayEndAs_ended (hat : s.drain = .ended o) : s.MayEndAs o := by
  constructor
  · rw [hat]
    exact Drain.noConfusion
  · rw [hat]
    exact .inl ⟨rfl, fun hno => absurd hno (List.cons_ne_nil _ _).symm⟩

/-- A task that is cancelled ends so, unless it is over. -/
theorem State.MayEndAs.of_cancelTask (hidle : s.drain.isDispatching = false)
    (h : s.cancelTask.MayEndAs o) :
    s.drain = .ended o ∨ s.drain.isOver = false ∧ o = .cancelled := by
  cases hover : s.drain.isOver with
  | true =>
    rw [cancelTask_of_over hover] at h
    cases hat : s.drain with
    | absent => exact absurd hat h.present
    | ended o' => exact .inl (by rw [h.of_ended hat])
    | _ =>
      rw [hat] at hover
      cases hover
  | false =>
    refine .inr ⟨rfl, ?_⟩
    by_cases hat : s.drain = .receiving
    · have hcancelled : s.cancelTask.drain = .recvCancelled := by
        unfold State.cancelTask
        rw [hat]
      have houtcome := h.outcome
      rw [hcancelled] at houtcome
      exact houtcome.elim And.left And.left
    · have hsteps := Drain.steps_eq hover hidle hat
      rw [cancelTask_of_steps hsteps] at h
      exact h.outcome.elim (fun hno => absurd (.inl rfl) (hno.2 hsteps)) And.left

/-- What is over may end so, and what is not may be cancelled. -/
theorem mayEndAs_of_cancelled (hidle : s.drain.isDispatching = false)
    (h : s.drain = .ended o ∨ s.drain.isOver = false ∧ o = .cancelled) : s.MayEndAs o := by
  rcases h with hat | ⟨hover, rfl⟩
  · exact mayEndAs_ended hat
  · refine ⟨Drain.ne_absent hover, ?_⟩
    by_cases hat : s.drain = .receiving
    · rw [hat]
      exact .inl ⟨rfl, fun hno => absurd hno (List.cons_ne_nil _ _).symm⟩
    · exact .inr ⟨rfl, Drain.steps_eq hover hidle hat⟩

/-- A step that is first in the ready list finds the task cancelled, or not. -/
theorem Released.mayEndAs_of_stepTask (h : Released s) {rest : List Scheduled}
    (hready : s.ready = .step :: rest)
    (hend : ({ s with ready := rest }.stepTask n).MayEndAs o) : s.MayEndAs o := by
  obtain ⟨hopen, -, hsteps⟩ := h.sound.rest_of_step hready
  have hdrain := Dropped.drain_stepTask (s := { s with ready := rest }) (n := n)
    ⟨h.made, h.hasLoop, h.hasCallables⟩ hsteps
  rw [hend.of_ended hdrain]
  refine ⟨?_, ?_⟩
  · intro hat
    rw [hat] at hsteps
    cases hsteps
  · cases hmust : s.mustCancel with
    | true => exact .inr ⟨rfl, hsteps⟩
    | false =>
      refine .inl ⟨rfl, fun _ => ?_⟩
      unfold State.Doomed
      rw [hmust, hopen, hready]
      rintro (hno | hno | hno) <;> cases hno

theorem Released.mayEndAs_of_next (h : Released s) (hen : Enabled s a)
    (hend : (next s a).MayEndAs o) : s.MayEndAs o := by
  have hsound := h.sound
  cases a with
  | create attempt => exact absurd h.made (Bool.eq_false_iff.mp hen)
  | userCancel => exact mayEndAs_of_cancelled hen.2 (hend.of_cancelTask hen.2)
  | run n =>
    obtain ⟨hne, hidle⟩ := hen
    unfold next at hend
    dsimp only at hend
    split at hend
    · exact hend
    · rename_i rest hready
      exact h.mayEndAs_of_stepTask hready hend
    · rename_i rest hready
      have hcancelled := State.MayEndAs.of_cancelTask (s := { s with ready := rest }) hidle hend
      exact mayEndAs_of_cancelled hidle hcancelled
  | callback =>
    have hat := Drain.eq_dispatching hen
    obtain ⟨hpresent, houtcome⟩ := hend
    unfold next at hpresent houtcome
    refine ⟨by rw [hat]; exact Drain.noConfusion, .inl ⟨?_, ?_⟩⟩
    · rw [hat]
      exact (houtcome.resolve_right fun hno => absurd hno.2 (List.cons_ne_nil _ _).symm).1
    · rw [hat]
      exact fun hno => absurd hno (List.cons_ne_nil _ _).symm
  | goRound =>
    have hat : s.drain = .dispatching 0 := hen
    have hloop := h.hasLoop
    obtain ⟨hpresent, houtcome⟩ := hend
    unfold next State.goRound at hpresent houtcome
    constructor <;> simp_all
  | release =>
    have hloop := h.hasLoop
    obtain ⟨hpresent, houtcome⟩ := hend
    unfold next State.release at hpresent houtcome
    constructor <;> simp_all [State.Doomed]
  | recvDone | recvFails =>
    obtain ⟨hat, hopen⟩ := hen
    -- the cancellation of the release is ahead of the step that `sock_recv` makes ready
    have hhead := hsound.receiving hat h.hasLoop hopen
    obtain ⟨hpresent, houtcome⟩ := hend
    unfold next at hpresent houtcome
    unfold State.Doomed at houtcome
    constructor <;> simp_all
  | closeLoop =>
    obtain ⟨-, hopen, hidle⟩ := hen
    obtain ⟨hpresent, houtcome⟩ := hend
    unfold next at hpresent houtcome
    unfold State.Doomed at houtcome
    cases hat : s.drain <;> constructor <;> simp_all
  | share | drop | startOp | endOp | free | closeQueue => exact ⟨hend.present, hend.outcome⟩

theorem Dropped.cancelTask (h : Dropped s) : Dropped s.cancelTask := by
  unfold State.cancelTask
  split <;> exact ⟨h.made, h.hasLoop, h.hasCallables⟩

theorem Dropped.stepTask (h : Dropped s) : Dropped (s.stepTask n) := by
  unfold State.stepTask State.exceptCancelled State.goRound
  split <;> (repeat' split) <;> exact ⟨h.made, h.hasLoop, h.hasCallables⟩

theorem Dropped.next (h : Dropped s) (hen : Enabled s a) : Dropped (next s a) := by
  cases a with
  | create attempt => exact absurd h.made (Bool.eq_false_iff.mp hen)
  | run n =>
    unfold DrainTask.next
    dsimp only
    split
    · exact h
    · exact Dropped.stepTask ⟨h.made, h.hasLoop, h.hasCallables⟩
    · exact Dropped.cancelTask ⟨h.made, h.hasLoop, h.hasCallables⟩
  | userCancel => exact h.cancelTask
  | goRound =>
    unfold DrainTask.next State.goRound
    dsimp only
    split <;> exact ⟨h.made, h.hasLoop, h.hasCallables⟩
  | release =>
    unfold DrainTask.next State.release
    dsimp only
    split <;> exact ⟨h.made, rfl, rfl⟩
  | _ => exact ⟨h.made, h.hasLoop, h.hasCallables⟩

theorem Released.next (h : Released s) (hen : Enabled s a) : Released (next s a) :=
  ⟨h.toDropped.next hen, h.sound.next hen⟩

theorem Sound.released (h : Sound s) (hrefs : 0 < s.refs) : Released s.release := by
  have hmade : s.made = true := by
    rw [← Bool.not_eq_false]
    intro hnot
    rw [h.made hnot] at hrefs
    exact Nat.lt_irrefl 0 hrefs
  refine ⟨?_, h.release⟩
  unfold State.release
  dsimp only
  split <;> exact ⟨hmade, rfl, rfl⟩

/-- What a later state may come to, an earlier one may. -/
theorem Released.mayEndAs_of_leads {s' : State} (h : Released s) (hl : task.Leads s s')
    (hend : s'.MayEndAs o) : s.MayEndAs o := by
  obtain ⟨as, hv, rfl⟩ := hl
  induction as generalizing s with
  | nil => exact hend
  | cons a as ih => exact h.mayEndAs_of_next hv.1 (ih (h.next hv.1) hv.2 hend)

/-- The first `release` of a manager whose task is not over. -/
theorem Sound.release_eq (h : Sound s) (hloop : s.hasLoop = true) (hopen : s.closed = false)
    (hover : s.drain.isOver = false) :
    s.release = { s with
      hasLoop := false, hasCallables := false, hasTask := false, releasing := true
      ready := s.drain.steps ++ [.cancel] } := by
  have hpresent : s.drain ≠ .absent := by
    intro hat
    rw [hat] at hover
    cases hover
  have hundone : s.drain.isDone = false := by
    cases hat : s.drain with
    | ended o =>
      rw [hat] at hover
      cases hover
    | _ => rfl
  obtain ⟨hmode, htask, -⟩ := h.held hloop hpresent
  unfold State.release
  rw [if_pos ⟨hloop, hopen, hmode, htask, hundone⟩, h.quiet hloop hopen]

/-! ## Every end comes about -/

/-- Some run from the state on ends the task so. -/
def State.EndsAs (s : State) (o : Outcome) : Prop :=
  ∃ s', task.Leads s s' ∧ s'.drain = .ended o

theorem State.EndsAs.of_step (hen : Enabled s a) (h : (next s a).EndsAs o) : s.EndsAs o := by
  obtain ⟨s', hl, hend⟩ := h
  exact ⟨s', (Machine.Leads.step (M := task) hen).trans hl, hend⟩

theorem State.EndsAs.of_ended (h : s.drain = .ended o) : s.EndsAs o := ⟨s, .refl task s, h⟩

/-- A task that has a step scheduled does not have the loop's thread. -/
theorem Drain.idle_of_steps {d : Drain} (h : d.steps = [.step]) : d.isDispatching = false := by
  cases d with
  | dispatching n => cases h
  | _ => rfl

/-- The task's next step, the manager released. -/
theorem Released.endsAs_step (h : Released s) {rest : List Scheduled}
    (hready : s.ready = .step :: rest) (hsteps : s.drain.steps = [.step]) :
    s.EndsAs (if s.mustCancel then .cancelled else s.drain.course) := by
  have hne : s.ready ≠ [] := by
    rw [hready]
    exact List.cons_ne_nil _ _
  refine .of_step (a := .run 0) ⟨hne, Drain.idle_of_steps hsteps⟩ (.of_ended ?_)
  unfold DrainTask.next
  rw [hready]
  exact Dropped.drain_stepTask ⟨h.made, h.hasLoop, h.hasCallables⟩ hsteps

/-- Code of the program cancels the task before it. -/
theorem Released.endsAs_cancelled (h : Released s) (hopen : s.closed = false)
    {rest : List Scheduled} (hready : s.ready = .step :: rest) (hsteps : s.drain.steps = [.step]) :
    s.EndsAs .cancelled := by
  have hen : Enabled s .userCancel := ⟨hopen, Drain.idle_of_steps hsteps⟩
  have hat : DrainTask.next s .userCancel = { s with mustCancel := true } :=
    cancelTask_of_steps hsteps
  have hnext := h.next hen
  refine .of_step hen ?_
  rw [hat] at hnext ⊢
  exact hnext.endsAs_step hready hsteps

theorem Released.endsAs_receiving (h : Released s) (hat : s.drain = .receiving)
    (hready : s.ready = [.cancel]) : s.EndsAs .cancelled := by
  have hne : s.ready ≠ [] := by
    rw [hready]
    exact List.cons_ne_nil _ _
  have hen : Enabled s (.run 0) := ⟨hne, by rw [hat]; rfl⟩
  have heq : DrainTask.next s (.run 0) = { s with drain := .recvCancelled, ready := [.step] } := by
    unfold DrainTask.next
    rw [hready]
    unfold State.cancelTask
    rw [hat]
    rfl
  have hnext := h.next hen
  refine .of_step hen ?_
  rw [heq] at hnext ⊢
  have hends : State.EndsAs _ (if s.mustCancel then .cancelled else .cancelled) :=
    hnext.endsAs_step rfl rfl
  rwa [ite_self] at hends

/-- The callbacks are run, and then there is no loop any more. -/
theorem Released.endsAs_dispatching (h : Released s) (hat : s.drain = .dispatching n) :
    s.EndsAs .attributeError := by
  induction n generalizing s with
  | zero =>
    refine .of_step (a := .goRound) hat (.of_ended ?_)
    unfold DrainTask.next State.goRound
    rw [if_neg (by rw [h.hasLoop]; exact Bool.false_ne_true)]
  | succ n ih =>
    have hen : Enabled s .callback := by
      unfold Enabled
      rw [hat]
      exact n.succ_pos
    refine .of_step hen (ih (h.next hen) ?_)
    unfold DrainTask.next
    rw [hat]
    rfl

/-! ## How a task ends -/

/-- **How a task ends** that is released where it stands. Where there are two, the
second is for one that code of the program cancels besides. -/
def State.endings (s : State) : List Outcome :=
  match s.drain with
  | .absent => []
  | .unstarted => if s.mustCancel then [.cancelled] else [.attributeError, .cancelled]
  | .receiving | .recvCancelled => [.cancelled]
  | .received => if s.mustCancel then [.cancelled] else [.returned, .cancelled]
  | .failed => if s.mustCancel then [.cancelled] else [.recvError, .cancelled]
  | .dispatching _ => [.attributeError]
  | .ended o => [o]

theorem release_drain : s.release.drain = s.drain := by
  unfold State.release
  dsimp only
  split <;> rfl

theorem Sound.mem_endings (h : Sound s) (hloop : s.hasLoop = true) (hopen : s.closed = false)
    (hend : s.release.MayEndAs o) : o ∈ s.endings := by
  obtain ⟨hpresent, houtcome⟩ := hend
  rw [release_drain] at hpresent houtcome
  have heq := h.release_eq hloop hopen
  unfold State.Doomed at houtcome
  unfold State.endings
  cases hat : s.drain <;> cases hmust : s.mustCancel <;> simp_all

theorem mem_unlessCancelled {o' : Outcome} {b : Bool}
    (h : o ∈ if b then [Outcome.cancelled] else [o', .cancelled]) :
    o = .cancelled ∨ o = if b then Outcome.cancelled else o' := by
  cases b with
  | true => exact .inl (List.mem_singleton.mp h)
  | false =>
    rcases List.mem_cons.mp h with rfl | hlast
    · exact .inr rfl
    · exact .inl (List.mem_singleton.mp hlast)

theorem Sound.endsAs_of_mem (h : Sound s) (hrefs : 0 < s.refs) (hloop : s.hasLoop = true)
    (hopen : s.closed = false) (hmem : o ∈ s.endings) : s.release.EndsAs o := by
  have hrel := h.released hrefs
  -- a task that has a step scheduled ends at it, or is cancelled before it
  have hstepping : s.drain.steps = [.step] → s.drain.isOver = false →
      s.release.EndsAs .cancelled ∧
        s.release.EndsAs (if s.mustCancel then .cancelled else s.drain.course) := by
    intro hsteps hover
    have heq := h.release_eq hloop hopen hover
    have hready : s.release.ready = [.step, .cancel] := by
      rw [heq, hsteps]
      rfl
    have hsteps' : s.release.drain.steps = [.step] := by rw [release_drain, hsteps]
    have hclosed : s.release.closed = false := by
      rw [heq]
      exact hopen
    have hmust : s.release.mustCancel = s.mustCancel := by rw [heq]
    have hends := hrel.endsAs_step hready hsteps'
    rw [hmust, release_drain] at hends
    exact ⟨hrel.endsAs_cancelled hclosed hready hsteps', hends⟩
  unfold State.endings at hmem
  cases hat : s.drain with
  | absent =>
    rw [hat] at hmem
    exact absurd hmem List.not_mem_nil
  | ended o' =>
    rw [hat] at hmem
    obtain rfl := List.mem_singleton.mp hmem
    exact .of_ended (by rw [release_drain, hat])
  | dispatching n =>
    rw [hat] at hmem
    obtain rfl := List.mem_singleton.mp hmem
    exact hrel.endsAs_dispatching (by rw [release_drain, hat])
  | receiving =>
    rw [hat] at hmem
    obtain rfl := List.mem_singleton.mp hmem
    refine hrel.endsAs_receiving (by rw [release_drain, hat]) ?_
    rw [h.release_eq hloop hopen (by rw [hat]; rfl), hat]
    rfl
  | recvCancelled =>
    rw [hat] at hmem hstepping
    obtain rfl := List.mem_singleton.mp hmem
    exact (hstepping rfl rfl).1
  | unstarted | received | failed =>
    rw [hat] at hmem hstepping
    obtain ⟨hcancelled, hends⟩ := hstepping rfl rfl
    rcases mem_unlessCancelled hmem with rfl | rfl
    · exact hcancelled
    · exact hends

/-- **How a released drain task ends**: cancelled if it was at `sock_recv`, with an
`AttributeError` if it was about to start or dispatching, and with what `sock_recv`
gave it otherwise; code of the program can only cancel it before. -/
theorem ends_exactly (hs : task.Reach s) (hrefs : 0 < s.refs) (hloop : s.hasLoop = true)
    (hopen : s.closed = false) : (next s .release).EndsAs o ↔ o ∈ s.endings := by
  have hsound := sound_of_reach hs
  constructor
  · rintro ⟨s', hl, hend⟩
    have hmay := (hsound.released hrefs).mayEndAs_of_leads hl (mayEndAs_ended hend)
    exact hsound.mem_endings hloop hopen hmay
  · exact hsound.endsAs_of_mem hrefs hloop hopen

/-- A completion is being dispatched when the socket is closed. -/
def dispatchingTwo : List Act := [.create .starts, .run 0, .recvDone, .run 2, .callback]

theorem ends_exactly_dispatchingTwo :
    (next (task.final task.init dispatchingTwo) .release).EndsAs .attributeError ∧
      ¬ (next (task.final task.init dispatchingTwo) .release).EndsAs .cancelled :=
  ⟨(ends_exactly (Machine.reach_final (by decide)) (by decide) rfl rfl).mpr (by decide),
    fun h => absurd ((ends_exactly (Machine.reach_final (by decide)) (by decide) rfl rfl).mp h)
      (by decide)⟩

theorem taskUserCancelled_stepTask (h : s.drain.isOver = false → s.releasing = true) :
    (s.stepTask n).taskUserCancelled = s.taskUserCancelled := by
  have hexcept : s.drain.isOver = false →
      s.exceptCancelled.taskUserCancelled = s.taskUserCancelled := by
    intro hover
    unfold State.exceptCancelled
    rw [h hover]
    exact Bool.or_false _
  unfold State.stepTask
  split
  · split
    · rfl
    · unfold State.goRound
      split <;> rfl
  · rename_i hat
    exact hexcept (by rw [hat]; rfl)
  · rename_i hat
    split
    · exact hexcept (by rw [hat]; rfl)
    · split <;> rfl
  · rename_i hat
    split
    · exact hexcept (by rw [hat]; rfl)
    · rfl
  · rfl

theorem Released.taskUserCancelled_next (h : Released s) (hen : Enabled s a) :
    (DrainTask.next s a).taskUserCancelled = s.taskUserCancelled := by
  have hreleasing := h.sound.releasing h.hasLoop
  cases a with
  | create attempt => exact absurd h.made (Bool.eq_false_iff.mp hen)
  | run n =>
    have hopen := h.sound.open_of_ready hen.1
    unfold DrainTask.next
    dsimp only
    split
    · rfl
    · rename_i rest hready
      exact taskUserCancelled_stepTask (s := { s with ready := rest }) fun hover =>
        hreleasing hover hopen
    · unfold State.cancelTask
      dsimp only
      split <;> rfl
  | userCancel =>
    unfold DrainTask.next State.cancelTask
    dsimp only
    split <;> rfl
  | goRound =>
    unfold DrainTask.next State.goRound
    dsimp only
    split <;> rfl
  | release =>
    unfold DrainTask.next State.release
    dsimp only
    split <;> rfl
  | _ => rfl

/-- **A release is not taken for a cancellation of the user's**: whatever comes of the
task, the manager does not change over to the fallback path. -/
theorem taskUserCancelled_of_released {s' : State} (hs : task.Reach s) (hrefs : 0 < s.refs)
    (hl : task.Leads (next s .release) s') : s'.taskUserCancelled = s.taskUserCancelled := by
  have hkept : ∀ (as : List Act) (t : State), Released t → task.Valid t as →
      (task.final t as).taskUserCancelled = t.taskUserCancelled := by
    intro as
    induction as with
    | nil => exact fun _ _ _ => rfl
    | cons a as ih =>
      intro t ht hv
      exact (ih _ (ht.next hv.1) hv.2).trans (ht.taskUserCancelled_next hv.1)
  obtain ⟨as, hv, rfl⟩ := hl
  refine (hkept as _ ((sound_of_reach hs).released hrefs) hv).trans ?_
  unfold State.release
  dsimp only
  split <;> rfl

end DrainTask

end PyNng
