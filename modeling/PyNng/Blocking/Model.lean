import PyNng.Message.Model
/-!
# Blocking — `send` and `recv` on the calling thread

`Socket.send`, `Context.send`, `Socket.recv` and `Context.recv`, from
`_check` to where the call returns or raises. Without `nonblock` a call
allocates an aio, submits it, and waits for it 100 ms at a time, looking for
Python signals in between; what a signal handler raises goes past the loop
with the aio cancelled and waited for.

`Wait` is that part, which the four methods have in common: the steps of
the caller's thread, and nng giving the aio its result at any moment.
-/

namespace PyNng

namespace Blocking

/-! ## What the methods call -/

/-- The nng functions that take a message or bring one. -/
inductive NngCall
  | sendmsg
  | ctxSendmsg
  | socketSend
  | ctxSend
  | recvmsg
  | ctxRecvmsg
  | socketRecv
  | ctxRecv
  deriving DecidableEq, Repr

/-- What tells a socket's method from a context's. -/
structure EntryPoint where
  /-- Under `nonblock`. -/
  direct : NngCall
  /-- The submission of the aio. -/
  submit : NngCall
  deriving DecidableEq, Repr

/-- `Socket.send`. -/
def socketSend : EntryPoint := { direct := .sendmsg, submit := .socketSend }

/-- `Context.send`. -/
def contextSend : EntryPoint := { direct := .ctxSendmsg, submit := .ctxSend }

/-- `Socket.recv`. -/
def socketRecv : EntryPoint := { direct := .recvmsg, submit := .socketRecv }

/-- `Context.recv`. -/
def contextRecv : EntryPoint := { direct := .ctxRecvmsg, submit := .ctxRecv }

/-- How a call ends. -/
inductive Outcome
  | returned
  /-- `NngClosed`, of `_check`. -/
  | closed
  /-- What building the message raises. -/
  | unbuilt
  /-- What `check_err` makes of a code. -/
  | nng (rc : ℕ)
  /-- The exception of a signal handler. -/
  | signal
  deriving DecidableEq, Repr

/-- `check_err(rv)`, and the return. -/
def Outcome.ofErr (rv : ℕ) : Outcome := if rv = 0 then .returned else .nng rv

/-! ## The wait -/

/-- The aio, once submitted. -/
inductive Aio
  | busy
  | done (rc : ℕ)
  deriving DecidableEq, Repr

/-- `nng_aio_busy`. -/
def Aio.isBusy : Aio → Bool
  | .busy => true
  | .done _ => false

/-- `nng_aio_result`. -/
def Aio.result : Aio → ℕ
  | .busy => 0
  | .done rc => rc

/-- An aio that is not busy ended well exactly if its result is `NNG_OK`. -/
theorem Aio.decide_done_zero {aio : Aio} (h : aio.isBusy = false) :
    decide (aio = .done 0) = decide (aio.result = 0) := by
  cases aio with
  | busy => cases h
  | done rc => exact decide_eq_decide.mpr ⟨fun h => Aio.done.inj h, congrArg Aio.done⟩

/-- The error that is raised is the aio's. -/
theorem Aio.eq_done_of_ofErr {aio : Aio} {rc : ℕ} (h : aio.isBusy = false)
    (herr : Outcome.ofErr aio.result = .nng rc) : aio = .done rc := by
  cases aio with
  | busy => cases h
  | done rc' =>
    have hrc : (if rc' = 0 then Outcome.returned else .nng rc') = .nng rc := herr
    split at hrc
    · cases hrc
    · rw [Outcome.nng.inj hrc]

/-- How the wait ended: in time, or with the exception of a signal handler. -/
inductive Waited
  | inTime
  | signalled
  deriving DecidableEq, Repr

inductive WaitPc
  /-- In the first `nng_aio_wait_until`. -/
  | submitted
  /-- At the head of the loop: `PyErr_CheckSignals` is next. -/
  | polling
  /-- In the loop's `nng_aio_wait_until`. -/
  | waiting
  /-- In the handler: `nng_aio_busy` is next. -/
  | interrupted
  /-- Past `nng_aio_cancel`, in `nng_aio_wait`. -/
  | cancelling
  | finished (how : Waited)
  deriving DecidableEq, Repr

/-- **The wait**: where the caller stands, and the aio. -/
structure Wait where
  pc : WaitPc
  aio : Aio
  deriving DecidableEq, Repr

inductive WaitAct
  | firstWait
  | checkSignals (raises : Bool)
  | poll
  | testBusy
  /-- `nng_aio_wait` returns. -/
  | wait
  /-- nng gives the aio its result. -/
  | complete (rc : ℕ)
  deriving DecidableEq, Repr

namespace Wait

variable {w : Wait} {a : WaitAct}

/-- The submission. -/
def submit : Wait := { pc := .submitted, aio := .busy }

def Enabled (w : Wait) : WaitAct → Prop
  | .firstWait => w.pc = .submitted
  | .checkSignals _ => w.pc = .polling
  | .poll => w.pc = .waiting
  | .testBusy => w.pc = .interrupted
  | .wait => w.pc = .cancelling ∧ w.aio.isBusy = false
  | .complete _ => w.aio.isBusy = true

instance (w : Wait) : ∀ a, Decidable (w.Enabled a)
  | .firstWait | .checkSignals _ | .poll | .testBusy | .complete _ =>
    inferInstanceAs (Decidable (_ = _))
  | .wait => inferInstanceAs (Decidable (_ ∧ _))

/-- `nng_aio_wait_until`, which returns `still_busy`. -/
def waitUntil (w : Wait) : Wait :=
  { w with pc := if w.aio.isBusy then .polling else .finished .inTime }

def next (w : Wait) : WaitAct → Wait
  | .firstWait | .poll => w.waitUntil
  | .checkSignals raises => { w with pc := if raises then .interrupted else .waiting }
  | .testBusy => { w with pc := if w.aio.isBusy then .cancelling else .finished .signalled }
  | .wait => { w with pc := .finished .signalled }
  | .complete rc => { w with aio := .done rc }

/-- How the wait ended, once it has. -/
def waited (w : Wait) : Option Waited :=
  match w.pc with
  | .finished how => some how
  | _ => none

/-- The wait is over only once the aio is. -/
def Sound (w : Wait) : Prop := ∀ how, w.pc = .finished how → w.aio.isBusy = false

theorem sound_submit : submit.Sound := by
  intro how h
  cases h

theorem sound_next (hen : w.Enabled a) : (w.next a).Sound := by
  intro how hpc
  cases a with
  | firstWait | poll =>
    by_cases hbusy : w.aio.isBusy = true
    · simp [Wait.next, waitUntil, hbusy] at hpc
    · simpa [Wait.next, waitUntil] using hbusy
  | checkSignals raises => cases raises <;> simp [Wait.next] at hpc
  | testBusy =>
    by_cases hbusy : w.aio.isBusy = true
    · simp [Wait.next, hbusy] at hpc
    · simpa [Wait.next] using hbusy
  | wait => exact hen.2
  | complete rc => rfl

theorem Sound.not_busy (h : w.Sound) (hw : w.waited ≠ none) : w.aio.isBusy = false := by
  cases hpc : w.pc with
  | finished how => exact h how hpc
  | _ => simp [waited, hpc] at hw

theorem next_aio : (w.next a).aio = match a with
    | .complete rc => .done rc
    | _ => w.aio := by
  cases a <;> rfl

/-- A flag that is set as the aio ends well says whether it has. -/
theorem delivered_next {flag : Bool} (h : flag = decide (w.aio = .done 0)) (hen : w.Enabled a) :
    (flag || decide (a = .complete 0)) = decide ((w.next a).aio = .done 0) := by
  rw [h, next_aio]
  cases a with
  | complete rc =>
    have hbusy : w.aio.isBusy = true := hen
    cases haio : w.aio with
    | busy => simp
    | done rc' => simp [haio, Aio.isBusy] at hbusy
  | _ => simp

/-! ### Once the aio has its result -/

/-- How many steps the caller has at most to make. -/
def remaining (w : Wait) : ℕ :=
  match w.pc with
  | .polling => 2
  | .submitted | .waiting | .interrupted | .cancelling => 1
  | .finished _ => 0

/-- Every step then leaves fewer. -/
theorem remaining_next (haio : w.aio.isBusy = false) (hen : w.Enabled a) :
    (w.next a).remaining < w.remaining ∧ (w.next a).aio = w.aio := by
  cases a with
  | firstWait | poll | testBusy =>
    have hpc : w.pc = _ := hen
    simp [Wait.next, waitUntil, haio, remaining, hpc]
  | checkSignals raises =>
    have hpc : w.pc = .polling := hen
    cases raises <;> simp [Wait.next, remaining, hpc]
  | wait => simp [Wait.next, remaining, hen.1]
  | complete rc =>
    rw [show w.aio.isBusy = true from hen] at haio
    cases haio

/-- And there is one, until the wait is over. -/
theorem exists_enabled (haio : w.aio.isBusy = false) :
    (∃ how, w.pc = .finished how) ∨ ∃ a, w.Enabled a := by
  cases hpc : w.pc with
  | submitted => exact Or.inr ⟨.firstWait, hpc⟩
  | polling => exact Or.inr ⟨.checkSignals false, hpc⟩
  | waiting => exact Or.inr ⟨.poll, hpc⟩
  | interrupted => exact Or.inr ⟨.testBusy, hpc⟩
  | cancelling => exact Or.inr ⟨.wait, hpc, haio⟩
  | finished how => exact Or.inl ⟨how, rfl⟩

end Wait

end Blocking

end PyNng
