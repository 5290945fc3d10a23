import PyNng.Blocking.Model
import PyNng.Message.Pinned
import PyNng.Transfer.Model
/-!
# Blocking — who owns the `nng_msg` after `send`

The message is taken from its owner before the aio is allocated, and given
back wherever the send did not end with `NNG_OK`: to the `Message` it came
from, or, a copy, freed. The allocation itself is outside the `try`, and
what it raises goes past every place that gives the message back.

`settled_iff_no_alloc_fails` says that this is the one way to lose it.
-/

namespace PyNng

namespace Blocking

namespace Send

open Transfer (Input)

/-! ## The call -/

inductive Pc
  | start
  /-- `_check` has passed. -/
  | checked
  /-- `ptr` is set. -/
  | built
  /-- The non-blocking send has returned `rv`. -/
  | sent (rv : ℕ)
  /-- In the `try`, the aio allocated. -/
  | allocated
  /-- `nng_aio_set_msg` has run. -/
  | configured
  /-- Submitted. -/
  | waiting
  /-- In the outer `finally`. -/
  | freeing (o : Outcome)
  | ended (o : Outcome)
  deriving DecidableEq, Repr

/-- The message of a call, and what was done with it. -/
structure Ledger where
  /-- The `Message` passed, where it is one. -/
  message : Message.State
  ptr : Option ℕ
  /-- nng has taken the message. -/
  consumed : Bool
  /-- History: the nng functions given the message. -/
  called : List NngCall
  /-- History: how often it was given back to the `Message`. -/
  restores : ℕ
  /-- History: how often it was freed. -/
  frees : ℕ
  aioAllocs : ℕ
  aioFrees : ℕ
  /-- History: `nng_aio_alloc` has failed. -/
  allocFailed : Bool

/-- **The state** of one call. -/
structure State where
  pc : Pc
  /-- Read from the submission on. -/
  wait : Wait
  ledger : Ledger

inductive Act
  | check
  /-- `_check` raises. -/
  | refuse
  /-- `nng_msg_from_data` makes the copy. -/
  | fromData (m : ℕ)
  | fromDataFails
  | stealPtr
  /-- The non-blocking send. -/
  | direct (rv : ℕ)
  | finishDirect
  | alloc
  | allocFails (rc : ℕ)
  | setMsg
  | submit
  | wait (a : WaitAct)
  /-- The result is read, and the message given back if it is an error. -/
  | settle
  | freeAio
  deriving DecidableEq, Repr

variable (e : EntryPoint) (input : Input) (nonblock : Bool) (message : Message.State)

def Enabled (s : State) : Act → Prop
  | .check | .refuse => s.pc = .start
  | .fromData _ | .fromDataFails => s.pc = .checked ∧ input = .data
  | .stealPtr => s.pc = .checked ∧ input = .message
  | .direct _ => s.pc = .built ∧ nonblock = true
  | .finishDirect => ∃ rv, s.pc = .sent rv
  | .alloc => s.pc = .built ∧ nonblock = false
  | .allocFails rc => s.pc = .built ∧ nonblock = false ∧ rc ≠ 0
  | .setMsg => s.pc = .allocated
  | .submit => s.pc = .configured
  | .wait a => s.pc = .waiting ∧ s.wait.Enabled a
  | .settle => s.pc = .waiting ∧ s.wait.waited ≠ none
  | .freeAio => ∃ o, s.pc = .freeing o

instance (pc : Pc) : Decidable (∃ rv, pc = .sent rv) :=
  match pc with
  | .sent rv => .isTrue ⟨rv, rfl⟩
  | .start | .checked | .built | .allocated | .configured | .waiting | .freeing _ | .ended _ =>
    .isFalse fun ⟨_, h⟩ => nomatch h

instance (pc : Pc) : Decidable (∃ o, pc = .freeing o) :=
  match pc with
  | .freeing o => .isTrue ⟨o, rfl⟩
  | .start | .checked | .built | .sent _ | .allocated | .configured | .waiting | .ended _ =>
    .isFalse fun ⟨_, h⟩ => nomatch h

instance (s : State) (a : Act) : Decidable (Enabled input nonblock s a) := by
  cases a <;> unfold Enabled <;> infer_instance

/-- `nng_msg_free(ptr)` of a copy, `_handle.restore(ptr)` of a `Message`. -/
def Ledger.giveBack (b : Ledger) : Ledger :=
  match input, b.ptr with
  | .data, _ => { b with frees := b.frees + 1 }
  | .message, none => { b with restores := b.restores + 1 }
  | .message, some m =>
    { b with message := b.message.restore m, restores := b.restores + 1 }

/-- What becomes of the message once the result is `rv`. -/
def Ledger.settle (rv : ℕ) (b : Ledger) : Ledger := if rv = 0 then b else b.giveBack input

def next (s : State) : Act → State
  | .check => { s with pc := .checked }
  | .refuse => { s with pc := .ended .closed }
  | .fromData m => { s with pc := .built, ledger := { s.ledger with ptr := some m } }
  | .fromDataFails => { s with pc := .ended .unbuilt }
  | .stealPtr =>
    match s.ledger.message.stealPtr with
    | (some _, message) => { s with pc := .ended .unbuilt, ledger := { s.ledger with message } }
    | (none, message) =>
      { s with
        pc := .built
        ledger := { s.ledger with ptr := s.ledger.message.handle, message } }
  | .direct rv =>
    { s with
      pc := .sent rv
      ledger := { s.ledger with called := s.ledger.called ++ [e.direct], consumed := rv = 0 } }
  | .finishDirect =>
    match s.pc with
    | .sent rv => { s with pc := .ended (.ofErr rv), ledger := s.ledger.settle input rv }
    | _ => s
  | .alloc =>
    { s with
      pc := .allocated
      ledger := { s.ledger with aioAllocs := s.ledger.aioAllocs + 1 } }
  | .allocFails rc =>
    -- before the `try`: nothing is undone
    { s with pc := .ended (.nng rc), ledger := { s.ledger with allocFailed := true } }
  | .setMsg => { s with pc := .configured }
  | .submit =>
    { pc := .waiting
      wait := .submit
      ledger := { s.ledger with called := s.ledger.called ++ [e.submit] } }
  | .wait a =>
    { s with
      wait := s.wait.next a
      -- nng takes the message of a send that succeeds
      ledger := { s.ledger with consumed := s.ledger.consumed || decide (a = .complete 0) } }
  | .settle =>
    { s with
      -- after a signal the exception goes on, and the result is only looked at
      pc := .freeing
        (if s.wait.waited = some .signalled then .signal else .ofErr s.wait.aio.result)
      ledger := s.ledger.settle input s.wait.aio.result }
  | .freeAio =>
    match s.pc with
    | .freeing o =>
      { s with pc := .ended o, ledger := { s.ledger with aioFrees := s.ledger.aioFrees + 1 } }
    | _ => s

/-- **The machine** of one call. -/
def call : Machine State Act where
  init :=
    { pc := .start, wait := .submit,
      ledger :=
        { message, ptr := none, consumed := false, called := [], restores := 0, frees := 0,
          aioAllocs := 0, aioFrees := 0, allocFailed := false } }
  Enabled := Enabled input nonblock
  next := next e input

instance (s : State) (a : Act) : Decidable ((call e input nonblock message).Enabled s a) :=
  inferInstanceAs (Decidable (Enabled input nonblock s a))

variable {e input nonblock message} {s : State} {b : Ledger} {rv : ℕ} {a : Act}

/-! ## The message in the end -/

/-- **The message has its owner**: nng, which has consumed it; or the
caller's `Message`, which has it again; or it was a copy, and is freed. One
that was never taken is where it was. -/
def MsgSettled (input : Input) (message : Message.State) (b : Ledger) : Prop :=
  match b.ptr with
  | none => b.message.handle = message.handle ∧ b.restores = 0 ∧ b.frees = 0
  | some m =>
    if b.consumed then
      (input = .message → b.message.handle = none) ∧ b.restores = 0 ∧ b.frees = 0
    else
      match input with
      | .message =>
        (message.handle = some m ∧ b.message.handle = some m) ∧ b.restores = 1 ∧ b.frees = 0
      | .data => b.restores = 0 ∧ b.frees = 1

/-- The same of everything a call takes: an aio allocated is freed once,
and nng is given the message at most once. -/
structure Settled (input : Input) (message : Message.State) (b : Ledger) : Prop where
  msg : MsgSettled input message b
  aio : b.aioFrees = b.aioAllocs
  once : b.aioAllocs ≤ 1
  called : b.called.length ≤ 1

/-- The call has the message, and nobody was given it back. -/
structure Held (input : Input) (message : Message.State) (consumed : Bool) (b : Ledger) :
    Prop where
  ptr : ∃ m, b.ptr = some m ∧ (input = .message → message.handle = some m)
  handle : input = .message → b.message.handle = none
  consumed : b.consumed = consumed
  kept : b.restores = 0 ∧ b.frees = 0

/-- **The message is given back exactly if nng has not consumed it.** -/
theorem Held.settle (h : Held input message (decide (rv = 0)) b) :
    MsgSettled input message (b.settle input rv) := by
  obtain ⟨m, hptr, hmsg⟩ := h.ptr
  have hconsumed := h.consumed
  by_cases hrv : rv = 0
  · have hsame : b.settle input rv = b := if_pos hrv
    rw [hsame]
    rw [decide_eq_true hrv] at hconsumed
    simp only [MsgSettled, hptr, hconsumed, if_true]
    exact ⟨h.handle, h.kept⟩
  · have hback : b.settle input rv = b.giveBack input := if_neg hrv
    rw [hback]
    rw [decide_eq_false hrv] at hconsumed
    cases input with
    | message =>
      have hrun : (b.message.restore m).handle = some m := rfl
      simp [MsgSettled, Ledger.giveBack, hptr, hconsumed, hrun, hmsg rfl, h.kept]
    | data => simp [MsgSettled, Ledger.giveBack, hptr, hconsumed, h.kept]

/-- What a call has counted so far. -/
structure Counts (allocs frees called : ℕ) (b : Ledger) : Prop where
  allocs : b.aioAllocs = allocs
  frees : b.aioFrees = frees
  called : b.called.length = called
  allocFailed : b.allocFailed = false

/-- Giving the message back counts for nothing else. -/
theorem Counts.settle {allocs frees called : ℕ} (h : Counts allocs frees called b) (rv : ℕ) :
    Counts allocs frees called (b.settle input rv) := by
  unfold Ledger.settle Ledger.giveBack
  split
  · exact h
  · split <;> exact ⟨h.allocs, h.frees, h.called, h.allocFailed⟩

/-- Nothing was taken. -/
structure Fresh (message : Message.State) (b : Ledger) : Prop where
  ptr : b.ptr = none
  message : b.message = message
  consumed : b.consumed = false
  kept : b.restores = 0 ∧ b.frees = 0

theorem Fresh.settled (h : Fresh message b) (hc : Counts 0 0 0 b) : Settled input message b := by
  refine ⟨?_, hc.frees.trans hc.allocs.symm, ?_, ?_⟩
  · simp only [MsgSettled, h.ptr, h.message]
    exact ⟨trivial, h.kept⟩
  · rw [hc.allocs]
    exact Nat.zero_le 1
  · rw [hc.called]
    exact Nat.zero_le 1

/-- **What a call has, by where it stands.** -/
def Stands (input : Input) (message : Message.State) (s : State) : Prop :=
  match s.pc with
  | .start | .checked => Fresh message s.ledger ∧ Counts 0 0 0 s.ledger
  | .built => Held input message false s.ledger ∧ Counts 0 0 0 s.ledger
  | .sent rv => Held input message (decide (rv = 0)) s.ledger ∧ Counts 0 0 1 s.ledger
  | .allocated | .configured => Held input message false s.ledger ∧ Counts 1 0 0 s.ledger
  | .waiting => Held input message (decide (s.wait.aio = .done 0)) s.ledger ∧
      Counts 1 0 1 s.ledger ∧ s.wait.Sound
  | .freeing _ => MsgSettled input message s.ledger ∧ Counts 1 0 1 s.ledger
  | .ended _ =>
    if s.ledger.allocFailed then Held input message false s.ledger
    else Settled input message s.ledger

/-- `_steal_ptr` raises and leaves the `Message`, or takes its `nng_msg`. -/
theorem stealPtr_cases (msg : Message.State) :
    (∃ err, msg.stealPtr = (some err, msg)) ∨
      ∃ m msg', msg.stealPtr = (none, msg') ∧ msg.handle = some m ∧ msg'.handle = none := by
  rcases Message.checkFullOwnership_cases msg with ⟨err, herr⟩ | ⟨m, hm⟩
  · exact Or.inl ⟨err, by simp only [Message.State.stealPtr, herr]⟩
  · have hsteal : msg.stealPtr =
        (none, { msg.hand m with handle := none, sending := m :: msg.sending }) := by
      simp only [Message.State.stealPtr, hm]
    exact Or.inr ⟨m, _, hsteal, (Message.checkFullOwnership_ok_iff.mp hm).2, rfl⟩

theorem Stands.next (h : Stands input message s) (hen : Enabled input nonblock s a) :
    Stands input message (Send.next e input s a) := by
  cases a with
  | check =>
    have hpc : s.pc = .start := hen
    simp only [Stands, hpc] at h
    exact h
  | refuse =>
    have hpc : s.pc = .start := hen
    simp only [Stands, hpc] at h
    simp only [Stands, Send.next, h.2.allocFailed]
    exact h.1.settled h.2
  | fromData m =>
    simp only [Stands, hen.1] at h
    obtain ⟨hfresh, hcounts⟩ := h
    have hdata : input ≠ .message := fun hin => by
      rw [hen.2] at hin
      cases hin
    exact ⟨⟨⟨m, rfl, fun hin => absurd hin hdata⟩, fun hin => absurd hin hdata, hfresh.consumed,
      hfresh.kept⟩, ⟨hcounts.allocs, hcounts.frees, hcounts.called, hcounts.allocFailed⟩⟩
  | fromDataFails =>
    simp only [Stands, hen.1] at h
    simp only [Stands, Send.next, h.2.allocFailed]
    exact h.1.settled h.2
  | stealPtr =>
    simp only [Stands, hen.1] at h
    obtain ⟨hfresh, hcounts⟩ := h
    rcases stealPtr_cases s.ledger.message with ⟨err, hsteal⟩ | ⟨m, msg', hsteal, hhandle, hgone⟩
    · simp only [Stands, Send.next, hsteal]
      rw [if_neg (by simp [hcounts.allocFailed])]
      exact hfresh.settled hcounts
    · simp only [Stands, Send.next, hsteal]
      rw [hfresh.message] at hhandle
      exact ⟨⟨⟨m, by rw [hfresh.message, hhandle], fun _ => hhandle⟩, fun _ => hgone,
        hfresh.consumed, hfresh.kept⟩,
        ⟨hcounts.allocs, hcounts.frees, hcounts.called, hcounts.allocFailed⟩⟩
  | direct rv =>
    simp only [Stands, hen.1] at h
    obtain ⟨hheld, hcounts⟩ := h
    refine ⟨⟨hheld.ptr, hheld.handle, rfl, hheld.kept⟩,
      ⟨hcounts.allocs, hcounts.frees, ?_, hcounts.allocFailed⟩⟩
    show (s.ledger.called ++ [e.direct]).length = 1
    simp [hcounts.called]
  | finishDirect =>
    obtain ⟨rv, hpc⟩ := hen
    simp only [Stands, hpc] at h
    obtain ⟨hheld, hcounts⟩ := h
    have hsettled : Counts 0 0 1 (s.ledger.settle input rv) := hcounts.settle rv
    simp only [Stands, Send.next, hpc, hsettled.allocFailed]
    exact ⟨hheld.settle, hsettled.frees.trans hsettled.allocs.symm, by
      rw [hsettled.allocs]; exact Nat.zero_le 1, Nat.le_of_eq hsettled.called⟩
  | alloc =>
    simp only [Stands, hen.1] at h
    obtain ⟨hheld, hcounts⟩ := h
    exact ⟨⟨hheld.ptr, hheld.handle, hheld.consumed, hheld.kept⟩,
      ⟨congrArg (· + 1) hcounts.allocs, hcounts.frees, hcounts.called, hcounts.allocFailed⟩⟩
  | allocFails rc =>
    simp only [Stands, hen.1] at h
    exact ⟨h.1.ptr, h.1.handle, h.1.consumed, h.1.kept⟩
  | setMsg =>
    have hpc : s.pc = .allocated := hen
    simp only [Stands, hpc] at h
    exact h
  | submit =>
    have hpc : s.pc = .configured := hen
    simp only [Stands, hpc] at h
    obtain ⟨hheld, hcounts⟩ := h
    refine ⟨⟨hheld.ptr, hheld.handle, hheld.consumed, hheld.kept⟩,
      ⟨hcounts.allocs, hcounts.frees, ?_, hcounts.allocFailed⟩, Wait.sound_submit⟩
    show (s.ledger.called ++ [e.submit]).length = 1
    simp [hcounts.called]
  | wait a =>
    simp only [Stands, hen.1] at h
    obtain ⟨hheld, hcounts, hsound⟩ := h
    simp only [Stands, Send.next, hen.1]
    exact ⟨⟨hheld.ptr, hheld.handle, Wait.delivered_next hheld.consumed hen.2, hheld.kept⟩,
      ⟨hcounts.allocs, hcounts.frees, hcounts.called, hcounts.allocFailed⟩,
      Wait.sound_next hen.2⟩
  | settle =>
    simp only [Stands, hen.1] at h
    obtain ⟨hheld, hcounts, hsound⟩ := h
    rw [Aio.decide_done_zero (hsound.not_busy hen.2)] at hheld
    exact ⟨hheld.settle, hcounts.settle _⟩
  | freeAio =>
    obtain ⟨o, hpc⟩ := hen
    simp only [Stands, hpc] at h
    obtain ⟨hmsg, hcounts⟩ := h
    simp only [Stands, Send.next, hpc, hcounts.allocFailed]
    exact ⟨hmsg, by rw [hcounts.frees, hcounts.allocs], Nat.le_of_eq hcounts.allocs,
      Nat.le_of_eq hcounts.called⟩

theorem stands_of_reach (hr : (call e input nonblock message).Reach s) :
    Stands input message s := by
  induction hr with
  | init => exact ⟨⟨rfl, rfl, rfl, rfl, rfl⟩, ⟨rfl, rfl, rfl, rfl⟩⟩
  | step _ _ hen ih => exact ih.next hen

/-- A message the call still has is not settled. -/
theorem Held.not_settled (h : Held input message false b) : ¬ Settled input message b := by
  intro hs
  obtain ⟨m, hptr, -⟩ := h.ptr
  have hmsg := hs.msg
  simp only [MsgSettled, hptr, h.consumed, Bool.false_eq_true, if_false] at hmsg
  cases input with
  | message => exact absurd (h.kept.1.symm.trans hmsg.2.1) (by decide)
  | data => exact absurd (h.kept.2.symm.trans hmsg.2) (by decide)

/-- Only a failed allocation is remembered as one. -/
theorem allocFailed_next :
    (Send.next e input s a).ledger.allocFailed = true ↔
      s.ledger.allocFailed = true ∨ ∃ rc, a = .allocFails rc := by
  have hsettle : ∀ rv, (s.ledger.settle input rv).allocFailed = s.ledger.allocFailed := by
    intro rv
    unfold Ledger.settle Ledger.giveBack
    split
    · rfl
    · split <;> rfl
  cases a with
  | stealPtr =>
    simp only [Send.next]
    split <;> simp
  | finishDirect =>
    simp only [Send.next]
    split <;> simp [hsettle]
  | freeAio =>
    simp only [Send.next]
    split <;> simp
  | settle => simp [Send.next, hsettle]
  | _ => simp [Send.next]

theorem allocFailed_final (as : List Act) :
    ((call e input nonblock message).final s as).ledger.allocFailed = true ↔
      s.ledger.allocFailed = true ∨ ∃ rc, .allocFails rc ∈ as := by
  induction as generalizing s with
  | nil => simp
  | cons a as ih =>
    have hnext : (call e input nonblock message).next s a = Send.next e input s a := rfl
    rw [Machine.final_cons, ih, hnext, allocFailed_next, or_assoc, ← exists_or]
    simp only [List.mem_cons, eq_comm]

/-- **When a `send` settles its message.** A call that has ended, however
it ended, has left the message with its owner and freed its aio exactly when
no allocation of an aio failed in it. -/
theorem settled_iff_no_alloc_fails (e : EntryPoint) (input : Input) (nonblock : Bool)
    (message : Message.State) {as : List Act} {o : Outcome}
    (hv : (call e input nonblock message).Valid (call e input nonblock message).init as)
    (hend : ((call e input nonblock message).final (call e input nonblock message).init as).pc =
      .ended o) :
    Settled input message
        ((call e input nonblock message).final (call e input nonblock message).init as).ledger ↔
      ∀ rc, .allocFails rc ∉ as := by
  have hstands := stands_of_reach (Machine.reach_final hv)
  have hfailed := @allocFailed_final e input nonblock message
    (call e input nonblock message).init as
  simp only [Stands, hend] at hstands
  constructor
  · intro hs rc hin
    rw [if_pos (hfailed.mpr (Or.inr ⟨rc, hin⟩))] at hstands
    exact hstands.not_settled hs
  · intro hno
    rw [if_neg] at hstands
    · exact hstands
    · intro htrue
      rcases hfailed.mp htrue with h | ⟨rc, hin⟩
      · cases h
      · exact hno rc hin

/-- A `Message` that holds the `nng_msg` 0. -/
def oneMessage : Message.State := Message.State.empty.assign (some [1])

/-- A signal handler raises at the second poll, and the cancelled send fails. -/
theorem settled_iff_no_alloc_fails_interrupted :
    let as : List Act := [.check, .stealPtr, .alloc, .setMsg, .submit, .wait .firstWait,
      .wait (.checkSignals false), .wait .poll, .wait (.checkSignals true), .wait .testBusy,
      .wait (.complete 20), .wait .wait, .settle, .freeAio]
    Settled .message oneMessage ((call socketSend .message false oneMessage).final
        (call socketSend .message false oneMessage).init as).ledger ↔
      ∀ rc, .allocFails rc ∉ as :=
  settled_iff_no_alloc_fails socketSend .message false oneMessage (o := .signal) (by decide)
    (by decide)

/-- **A failed allocation loses the message.** The call raises, and the
`Message` is empty with its `nng_msg` neither restored nor freed. -/
theorem lost_when_alloc_fails :
    ¬ (∀ (as : List Act) (o : Outcome),
        (call socketSend .message false oneMessage).Valid
          (call socketSend .message false oneMessage).init as →
        ((call socketSend .message false oneMessage).final
          (call socketSend .message false oneMessage).init as).pc = .ended o →
        Settled .message oneMessage ((call socketSend .message false oneMessage).final
          (call socketSend .message false oneMessage).init as).ledger) := by
  intro hclaim
  have hs := hclaim [.check, .stealPtr, .allocFails 2] (.nng 2) (by decide) (by decide)
  exact absurd hs.msg.2.1 (by decide)

end Send

end Blocking

end PyNng
