import PyNng.Blocking.Model
/-!
# Blocking — what becomes of the message `recv` receives

nng leaves a message in the aio exactly when the receive ends with
`NNG_OK`. The call hands it to its caller, or frees it where the exception
of a signal handler is to be raised; the handler of that exception waits for
the cancelled aio before it asks for the result.
-/

namespace PyNng

namespace Blocking

namespace Recv

/-! ## The call -/

inductive Pc
  | start
  /-- `_check` has passed. -/
  | checked
  /-- The non-blocking receive has returned `rv`. -/
  | received (rv : ℕ)
  /-- In the `try`, the aio allocated. -/
  | allocated
  /-- Submitted. -/
  | waiting
  /-- In the outer `finally`. -/
  | freeing (o : Outcome)
  | ended (o : Outcome)
  deriving DecidableEq, Repr

/-- The message of a call, and what was done with it. -/
structure Ledger where
  /-- nng has brought a message. -/
  received : Bool
  /-- History: the nng functions called for it. -/
  called : List NngCall
  /-- History: how many `Message` objects were returned. -/
  wraps : ℕ
  /-- History: how often a message was freed. -/
  frees : ℕ
  aioAllocs : ℕ
  aioFrees : ℕ
  /-- History: the aio was freed while it was busy. -/
  freedBusy : Bool
  deriving DecidableEq, Repr

/-- **The state** of one call. -/
structure State where
  pc : Pc
  /-- Read from the submission on. -/
  wait : Wait
  ledger : Ledger
  deriving DecidableEq, Repr

inductive Act
  | check
  /-- `_check` raises. -/
  | refuse
  /-- The non-blocking receive. -/
  | direct (rv : ℕ)
  | finishDirect
  | alloc
  | allocFails (rc : ℕ)
  | submit
  | wait (a : WaitAct)
  /-- The result is read, and the message taken or freed. -/
  | settle
  | freeAio
  deriving DecidableEq, Repr

variable (e : EntryPoint) (nonblock : Bool)

def Enabled (s : State) : Act → Prop
  | .check | .refuse => s.pc = .start
  | .direct _ => s.pc = .checked ∧ nonblock = true
  | .finishDirect => ∃ rv, s.pc = .received rv
  | .alloc => s.pc = .checked ∧ nonblock = false
  | .allocFails rc => s.pc = .checked ∧ nonblock = false ∧ rc ≠ 0
  | .submit => s.pc = .allocated
  | .wait a => s.pc = .waiting ∧ s.wait.Enabled a
  | .settle => s.pc = .waiting ∧ s.wait.waited ≠ none
  | .freeAio => ∃ o, s.pc = .freeing o

instance (pc : Pc) : Decidable (∃ rv, pc = .received rv) :=
  match pc with
  | .received rv => .isTrue ⟨rv, rfl⟩
  | .start | .checked | .allocated | .waiting | .freeing _ | .ended _ =>
    .isFalse fun ⟨_, h⟩ => nomatch h

instance (pc : Pc) : Decidable (∃ o, pc = .freeing o) :=
  match pc with
  | .freeing o => .isTrue ⟨o, rfl⟩
  | .start | .checked | .received _ | .allocated | .waiting | .ended _ =>
    .isFalse fun ⟨_, h⟩ => nomatch h

instance (s : State) (a : Act) : Decidable (Enabled nonblock s a) := by
  cases a <;> unfold Enabled <;> infer_instance

/-- `check_err(rv)`, and `Message._from_ptr` of what was received. -/
def Ledger.take (rv : ℕ) (b : Ledger) : Ledger :=
  if rv = 0 then { b with wraps := b.wraps + 1 } else b

/-- The handler of the exception, once the aio is waited for. -/
def Ledger.discard (rv : ℕ) (b : Ledger) : Ledger :=
  if rv = 0 then { b with frees := b.frees + 1 } else b

def next (s : State) : Act → State
  | .check => { s with pc := .checked }
  | .refuse => { s with pc := .ended .closed }
  | .direct rv =>
    { s with
      pc := .received rv
      ledger := { s.ledger with called := s.ledger.called ++ [e.direct], received := rv = 0 } }
  | .finishDirect =>
    match s.pc with
    | .received rv => { s with pc := .ended (.ofErr rv), ledger := s.ledger.take rv }
    | _ => s
  | .alloc =>
    { s with
      pc := .allocated
      ledger := { s.ledger with aioAllocs := s.ledger.aioAllocs + 1 } }
  | .allocFails rc => { s with pc := .ended (.nng rc) }
  | .submit =>
    { pc := .waiting
      wait := .submit
      ledger := { s.ledger with called := s.ledger.called ++ [e.submit] } }
  | .wait a =>
    { s with
      wait := s.wait.next a
      -- nng leaves a message in the aio of a receive that succeeds
      ledger := { s.ledger with received := s.ledger.received || decide (a = .complete 0) } }
  | .settle =>
    if s.wait.waited = some .signalled then
      { s with pc := .freeing .signal, ledger := s.ledger.discard s.wait.aio.result }
    else
      { s with
        pc := .freeing (.ofErr s.wait.aio.result)
        ledger := s.ledger.take s.wait.aio.result }
  | .freeAio =>
    match s.pc with
    | .freeing o =>
      { s with
        pc := .ended o
        ledger :=
          { s.ledger with
            aioFrees := s.ledger.aioFrees + 1
            freedBusy := s.ledger.freedBusy || s.wait.aio.isBusy } }
    | _ => s

/-- **The machine** of one call. -/
def call : Machine State Act where
  init :=
    { pc := .start, wait := .submit,
      ledger :=
        { received := false, called := [], wraps := 0, frees := 0, aioAllocs := 0, aioFrees := 0,
          freedBusy := false } }
  Enabled := Enabled nonblock
  next := next e

instance (s : State) (a : Act) : Decidable ((call e nonblock).Enabled s a) :=
  inferInstanceAs (Decidable (Enabled nonblock s a))

variable {e nonblock} {s : State} {b : Ledger} {rv : ℕ} {a : Act} {o : Outcome}

/-! ## The message in the end -/

/-- **The message of a call that ends so.** It is returned, or freed where a
signal handler's exception is raised, or there is none. -/
def MsgSettled (o : Outcome) (b : Ledger) : Prop :=
  match o with
  | .returned => b.received = true ∧ b.wraps = 1 ∧ b.frees = 0
  | .nng rc => rc ≠ 0 ∧ b.received = false ∧ b.wraps = 0 ∧ b.frees = 0
  | .signal => b.wraps = 0 ∧ b.frees = if b.received then 1 else 0
  | .closed => b.received = false ∧ b.wraps = 0 ∧ b.frees = 0
  | .unbuilt => False

/-- The same of everything a call takes. An error of nng is that of the aio,
or of the allocation that made none. -/
structure Settled (o : Outcome) (s : State) : Prop where
  msg : MsgSettled o s.ledger
  aio : s.ledger.aioFrees = s.ledger.aioAllocs
  once : s.ledger.aioAllocs ≤ 1
  idle : s.ledger.freedBusy = false
  error : ∀ rc, o = .nng rc → s.ledger.aioAllocs = 1 → s.wait.aio = .done rc
  signal : o = .signal → s.ledger.aioAllocs = 1
  called : s.ledger.called.length ≤ 1

/-- Nothing was returned or freed yet. -/
structure Holds (received : Bool) (allocs called : ℕ) (b : Ledger) : Prop where
  received : b.received = received
  wraps : b.wraps = 0
  frees : b.frees = 0
  allocs : b.aioAllocs = allocs
  aioFrees : b.aioFrees = 0
  idle : b.freedBusy = false
  called : b.called.length = called

/-- **A message is returned exactly if nng brought one.** -/
theorem Holds.take {allocs called : ℕ} (h : Holds (decide (rv = 0)) allocs called b) :
    MsgSettled (.ofErr rv) (b.take rv) := by
  have hreceived := h.received
  by_cases hrv : rv = 0
  · rw [decide_eq_true hrv] at hreceived
    rw [show b.take rv = { b with wraps := b.wraps + 1 } from if_pos hrv,
      show Outcome.ofErr rv = .returned from if_pos hrv]
    exact ⟨hreceived, congrArg (· + 1) h.wraps, h.frees⟩
  · rw [decide_eq_false hrv] at hreceived
    rw [show b.take rv = b from if_neg hrv, show Outcome.ofErr rv = .nng rv from if_neg hrv]
    exact ⟨hrv, hreceived, h.wraps, h.frees⟩

/-- And freed, behind an exception. -/
theorem Holds.discard {allocs called : ℕ} (h : Holds (decide (rv = 0)) allocs called b) :
    MsgSettled .signal (b.discard rv) := by
  have hreceived := h.received
  by_cases hrv : rv = 0
  · rw [decide_eq_true hrv] at hreceived
    rw [show b.discard rv = { b with frees := b.frees + 1 } from if_pos hrv]
    refine ⟨h.wraps, ?_⟩
    show b.frees + 1 = if b.received then 1 else 0
    rw [h.frees, hreceived]
    rfl
  · rw [decide_eq_false hrv] at hreceived
    rw [show b.discard rv = b from if_neg hrv]
    refine ⟨h.wraps, ?_⟩
    rw [h.frees, hreceived]
    rfl

/-- Either way nothing else is counted. -/
theorem counts_take (b : Ledger) (rv : ℕ) :
    (b.take rv).aioAllocs = b.aioAllocs ∧ (b.take rv).aioFrees = b.aioFrees ∧
      (b.take rv).freedBusy = b.freedBusy ∧ (b.take rv).called = b.called := by
  unfold Ledger.take
  split <;> exact ⟨rfl, rfl, rfl, rfl⟩

theorem counts_discard (b : Ledger) (rv : ℕ) :
    (b.discard rv).aioAllocs = b.aioAllocs ∧ (b.discard rv).aioFrees = b.aioFrees ∧
      (b.discard rv).freedBusy = b.freedBusy ∧ (b.discard rv).called = b.called := by
  unfold Ledger.discard
  split <;> exact ⟨rfl, rfl, rfl, rfl⟩

/-- In the outer `finally`. -/
structure Leaving (o : Outcome) (s : State) : Prop where
  msg : MsgSettled o s.ledger
  allocs : s.ledger.aioAllocs = 1
  aioFrees : s.ledger.aioFrees = 0
  idle : s.ledger.freedBusy = false
  called : s.ledger.called.length = 1
  aio : s.wait.aio.isBusy = false
  error : ∀ rc, o = .nng rc → s.wait.aio = .done rc

/-- **What a call has, by where it stands.** -/
def Stands (s : State) : Prop :=
  match s.pc with
  | .start | .checked => Holds false 0 0 s.ledger
  | .received rv => Holds (decide (rv = 0)) 0 1 s.ledger
  | .allocated => Holds false 1 0 s.ledger
  | .waiting => Holds (decide (s.wait.aio = .done 0)) 1 1 s.ledger ∧ s.wait.Sound
  | .freeing o => Leaving o s
  | .ended o => Settled o s

/-- A call that ends before it has an aio. -/
theorem Settled.of_early {called : ℕ} (hmsg : MsgSettled o s.ledger)
    (hallocs : s.ledger.aioAllocs = 0) (hfrees : s.ledger.aioFrees = 0)
    (hidle : s.ledger.freedBusy = false) (hcalled : s.ledger.called.length = called)
    (hle : called ≤ 1) (ho : o ≠ .signal) : Settled o s :=
  ⟨hmsg, by rw [hallocs, hfrees], by rw [hallocs]; exact Nat.zero_le 1, hidle,
    fun _ _ hone => absurd (hallocs.symm.trans hone) (by decide), fun h => absurd h ho,
    by rw [hcalled]; exact hle⟩

theorem Stands.next (h : Stands s) (hen : Enabled nonblock s a) : Stands (Recv.next e s a) := by
  cases a with
  | check =>
    have hpc : s.pc = .start := hen
    simp only [Stands, hpc] at h
    exact h
  | refuse =>
    have hpc : s.pc = .start := hen
    simp only [Stands, hpc] at h
    exact .of_early ⟨h.received, h.wraps, h.frees⟩ h.allocs h.aioFrees h.idle h.called
      (Nat.zero_le 1) Outcome.noConfusion
  | direct rv =>
    simp only [Stands, hen.1] at h
    refine ⟨rfl, h.wraps, h.frees, h.allocs, h.aioFrees, h.idle, ?_⟩
    show (s.ledger.called ++ [e.direct]).length = 1
    simp [h.called]
  | finishDirect =>
    obtain ⟨rv, hpc⟩ := hen
    simp only [Stands, hpc] at h
    obtain ⟨hallocs, hfrees, hidle, hcalled⟩ := counts_take s.ledger rv
    simp only [Stands, Recv.next, hpc]
    have hone : (s.ledger.take rv).called.length = 1 := by
      rw [hcalled]
      exact h.called
    refine .of_early h.take (hallocs.trans h.allocs) (hfrees.trans h.aioFrees)
      (hidle.trans h.idle) hone (Nat.le_refl 1) ?_
    unfold Outcome.ofErr
    split <;> exact Outcome.noConfusion
  | alloc =>
    simp only [Stands, hen.1] at h
    exact ⟨h.received, h.wraps, h.frees, congrArg (· + 1) h.allocs, h.aioFrees, h.idle, h.called⟩
  | allocFails rc =>
    simp only [Stands, hen.1] at h
    exact .of_early ⟨hen.2.2, h.received, h.wraps, h.frees⟩ h.allocs h.aioFrees h.idle h.called
      (Nat.zero_le 1) Outcome.noConfusion
  | submit =>
    have hpc : s.pc = .allocated := hen
    simp only [Stands, hpc] at h
    refine ⟨⟨h.received, h.wraps, h.frees, h.allocs, h.aioFrees, h.idle, ?_⟩, Wait.sound_submit⟩
    show (s.ledger.called ++ [e.submit]).length = 1
    simp [h.called]
  | wait a =>
    simp only [Stands, hen.1] at h
    obtain ⟨hholds, hsound⟩ := h
    simp only [Stands, Recv.next, hen.1]
    exact ⟨⟨Wait.delivered_next hholds.received hen.2, hholds.wraps, hholds.frees, hholds.allocs,
      hholds.aioFrees, hholds.idle, hholds.called⟩, Wait.sound_next hen.2⟩
  | settle =>
    simp only [Stands, hen.1] at h
    obtain ⟨hholds, hsound⟩ := h
    have hbusy := hsound.not_busy hen.2
    rw [Aio.decide_done_zero hbusy] at hholds
    by_cases hsignal : s.wait.waited = some .signalled
    · obtain ⟨hallocs, hfrees, hidle, hcalled⟩ := counts_discard s.ledger s.wait.aio.result
      simp only [Stands, Recv.next, if_pos hsignal]
      exact ⟨hholds.discard, hallocs.trans hholds.allocs, hfrees.trans hholds.aioFrees,
        hidle.trans hholds.idle, by rw [hcalled]; exact hholds.called, hbusy,
        fun rc h => Outcome.noConfusion h⟩
    · obtain ⟨hallocs, hfrees, hidle, hcalled⟩ := counts_take s.ledger s.wait.aio.result
      simp only [Stands, Recv.next, if_neg hsignal]
      refine ⟨hholds.take, hallocs.trans hholds.allocs, hfrees.trans hholds.aioFrees,
        hidle.trans hholds.idle, by rw [hcalled]; exact hholds.called, hbusy, fun rc h => ?_⟩
      exact Aio.eq_done_of_ofErr hbusy h
  | freeAio =>
    obtain ⟨o, hpc⟩ := hen
    simp only [Stands, hpc] at h
    simp only [Stands, Recv.next, hpc]
    refine ⟨h.msg, by rw [h.aioFrees, h.allocs], Nat.le_of_eq h.allocs, ?_,
      fun rc ho _ => h.error rc ho, fun _ => h.allocs, Nat.le_of_eq h.called⟩
    rw [h.idle, h.aio]
    rfl

theorem stands_of_reach (hr : (call e nonblock).Reach s) : Stands s := by
  induction hr with
  | init => exact ⟨rfl, rfl, rfl, rfl, rfl, rfl, rfl⟩
  | step _ _ hen ih => exact ih.next hen

/-! ## The call ends -/

/-- The aio has its result. -/
structure Completed (s : State) : Prop where
  aio : s.wait.aio.isBusy = false
  pc : s.pc = .waiting ∨ (∃ o, s.pc = .freeing o) ∨ ∃ o, s.pc = .ended o

/-- How many steps the call has then at most to make. -/
def State.remaining (s : State) : ℕ :=
  match s.pc with
  | .waiting => s.wait.remaining + 2
  | .freeing _ => 1
  | _ => 0

theorem Completed.lowers (h : Completed s) (hen : Enabled nonblock s a) :
    Completed (Recv.next e s a) ∧ (Recv.next e s a).remaining < s.remaining := by
  cases a with
  | wait a =>
    obtain ⟨hlt, haio⟩ := Wait.remaining_next h.aio hen.2
    refine ⟨⟨?_, Or.inl hen.1⟩, ?_⟩
    · show (s.wait.next a).aio.isBusy = false
      rw [haio]
      exact h.aio
    · simp only [State.remaining, Recv.next, hen.1]
      omega
  | settle =>
    by_cases hsignal : s.wait.waited = some .signalled
    · simp only [Recv.next, if_pos hsignal, State.remaining, hen.1]
      exact ⟨⟨h.aio, Or.inr (Or.inl ⟨_, rfl⟩)⟩, by omega⟩
    · simp only [Recv.next, if_neg hsignal, State.remaining, hen.1]
      exact ⟨⟨h.aio, Or.inr (Or.inl ⟨_, rfl⟩)⟩, by omega⟩
  | freeAio =>
    obtain ⟨o, hpc⟩ := hen
    simp only [Recv.next, hpc, State.remaining]
    exact ⟨⟨h.aio, Or.inr (Or.inr ⟨o, rfl⟩)⟩, Nat.zero_lt_one⟩
  | check | refuse | submit =>
    have hpc : s.pc = _ := hen
    have hor := h.pc
    simp [hpc] at hor
  | direct | alloc | allocFails =>
    have hor := h.pc
    simp [hen.1] at hor
  | finishDirect =>
    obtain ⟨rv, hpc⟩ := hen
    have hor := h.pc
    simp [hpc] at hor

/-- Where no step is left the call has ended. -/
theorem Completed.ended (h : Completed s) (hno : ∀ a, ¬ Enabled nonblock s a) :
    ∃ o, s.pc = .ended o := by
  rcases h.pc with hpc | ⟨o, hpc⟩ | hended
  · exfalso
    rcases Wait.exists_enabled h.aio with ⟨how, hover⟩ | ⟨a, hen⟩
    · exact hno .settle ⟨hpc, by simp [Wait.waited, hover]⟩
    · exact hno (.wait a) ⟨hpc, hen⟩
  · exact absurd ⟨o, hpc⟩ (hno .freeAio)
  · exact hended

/-- **A receive neither loses nor frees twice.** However a call ends, its
message was returned, or freed behind the exception of a signal handler, or
there was none and nng's error was raised, and its aio was freed once, not
while it was busy. And once the aio has its result the call does end. -/
theorem recv_settles (e : EntryPoint) (nonblock : Bool) (hr : (call e nonblock).Reach s) :
    (∀ o, s.pc = .ended o → Settled o s) ∧
      (s.pc = .waiting → s.wait.aio.isBusy = false →
        (call e nonblock).EndsIn (fun s => ∃ o, s.pc = .ended o) s) := by
  constructor
  · intro o hend
    have hstands := stands_of_reach hr
    simp only [Stands, hend] at hstands
    exact hstands
  · intro hpc haio
    have hs : Completed s := ⟨haio, Or.inl hpc⟩
    exact .of_lowers (fun _ _ (h : Completed _) hen => h.lowers hen)
      (fun _ (h : Completed _) hno => h.ended hno) hs

/-- The message comes between two polls, and a signal handler raises. -/
theorem recv_settles_interrupted :
    let s := (call socketRecv false).final (call socketRecv false).init
      [.check, .alloc, .submit, .wait .firstWait, .wait (.complete 0)]
    let s' := (call socketRecv false).final s
      [.wait (.checkSignals true), .wait .testBusy, .settle, .freeAio]
    (call socketRecv false).EndsIn (fun s => ∃ o, s.pc = .ended o) s ∧
      Settled .signal s' ∧ s'.ledger.frees = 1 := by
  intro s s'
  have hr : (call socketRecv false).Reach s := Machine.reach_final (by decide)
  have hr' : (call socketRecv false).Reach s' := hr.final (by decide) (Machine.meets_true _ _)
  exact ⟨(recv_settles socketRecv false hr).2 (by decide) (by decide),
    (recv_settles socketRecv false hr').1 .signal (by decide), by decide⟩

end Recv

end Blocking

end PyNng
