import PyNng.Transfer.Control
/-!
# Transfer — who owns the `nng_msg` in the end

The code takes the message of a send from its owner, attaches it to the
aio, and never looks at it again: nng has it if the send succeeds, and
nobody has it otherwise. It takes the message of a receive out of the aio
at one place, which an exception in the `await` and a cancelled future go
past.

`Socket.send` gives a message back that nng has not consumed, and
`Socket.recv` frees one that came before the interrupt.
-/

namespace PyNng

namespace Transfer

open Async (Aio Fut)

variable {e : EntryPoint} {input : Input} {s s' : State}

/-- The aio has its result, `NNG_OK`. -/
def endedOk : Aio → Bool
  | .completed rc | .pushing rc | .finished rc => rc == 0
  | .idle | .busy _ => false

theorem endedOk_iff {aio : Aio} (h : aio.isBusy = false) :
    endedOk aio = true ↔ aio = .finished 0 := by
  cases aio with
  | idle => simp [endedOk]
  | finished rc => simp [endedOk]
  | busy | completed | pushing => cases h

/-- What may end has not ended. -/
theorem endedOk_of_mayEnd {aio : Aio} {rc : ℕ} (h : aio.MayEnd rc) : endedOk aio = false := by
  revert h
  cases aio <;> simp [Aio.MayEnd, endedOk]

/-- The callback keeps the result. -/
theorem endedOk_fired {aio : Aio} (h : aio.isCompleted = true) :
    endedOk (.finished aio.result) = endedOk aio := by
  revert h
  cases aio <;> simp [Aio.isCompleted, endedOk, Aio.result]

/-! ## A message sent -/

/-- **The message of a send has its owner**: nng, or, if the send did not
succeed, the caller's `Message`; or the copy was freed, or never made. -/
def SendSettled (input : Input) (s : State) : Prop :=
  s.msg = .nng ∨ s.aio ≠ .finished 0 ∧
    match input with
    | .message => s.msg = .caller
    | .data => s.msg = .nowhere ∨ s.msg = .freed ∧ s.frees = 1

/-- Where the message is before it is taken. -/
def Input.place : Input → Place
  | .message => .caller
  | .data => .nowhere

/-- **The message of a send** is where it was, or with the aio, or with nng. -/
structure Sent (input : Input) (s : State) : Prop where
  untaken : s.taken = false → s.msg = input.place
  taken : s.taken = true → s.msg = if endedOk s.aio then .nng else .aio
  /-- Nothing is submitted without it. -/
  built : s.pc = .built ∨ s.pc = .registered ∨ s.aio ≠ .idle → s.taken = true

/-- A step that leaves the message with whom it is. -/
theorem Sent.of_same (h : Sent input s) (htaken : s'.taken = s.taken) (hmsg : s'.msg = s.msg)
    (haio : endedOk s'.aio = endedOk s.aio)
    (hbuilt : s'.pc = .built ∨ s'.pc = .registered ∨ s'.aio ≠ .idle →
      s.pc = .built ∨ s.pc = .registered ∨ s.aio ≠ .idle) : Sent input s' where
  untaken := by rw [htaken, hmsg]; exact h.untaken
  taken := by rw [htaken, hmsg, haio]; exact h.taken
  built := fun hor => by rw [htaken]; exact h.built (hbuilt hor)

theorem Sent.next (hsends : e.sends = true) (h : Sent input s) (hc : Control e s) {a : Act}
    (hen : Enabled e s a) : Sent input (Transfer.next e s a) := by
  -- a send never reads a message
  have hfetch : s.fetch e = s := by
    rw [State.fetch, if_neg fun hor => ?_]
    rw [hsends] at hor
    cases hor.1
  cases a with
  | check | refuse | create | createFails | buildFails | throw | returnFuture =>
    refine h.of_same rfl rfl rfl fun hor => ?_
    rcases hor with hpc | hpc | haio
    · revert hpc; simp [Transfer.next]
    · revert hpc; simp [Transfer.next]
    · exact Or.inr (Or.inr haio)
  | reachSkipPoint =>
    refine h.of_same rfl rfl rfl fun hor => ?_
    rcases hor with hpc | hpc | haio
    · simp only [Transfer.next] at hpc
      split at hpc <;> cases hpc
    · simp only [Transfer.next] at hpc
      split at hpc <;> cases hpc
    · exact Or.inr (Or.inr haio)
  | build =>
    refine ⟨fun ht => absurd ht Bool.false_ne_true.symm, fun _ => ?_, fun _ => rfl⟩
    have hidle : s.aio = .idle := hc.idle (by rw [hen.1]; rfl)
    simp only [Transfer.next, hidle]
    rfl
  | prepareSubmit =>
    have hpc : s.pc = .built := by
      have hplace : s.pc = if e.sends then .built else .created := hen
      rwa [hsends] at hplace
    simp only [Transfer.next]
    split <;> exact h.of_same rfl rfl rfl fun _ => Or.inl hpc
  | submit =>
    have hpc : s.pc = .registered := hen
    have hidle : s.aio = .idle := hc.idle (by rw [hpc]; rfl)
    refine h.of_same rfl rfl ?_ fun _ => Or.inr (Or.inl hpc)
    rw [hidle]
    rfl
  | complete rc =>
    have hbusy : s.aio.isBusy = true := Aio.MayEnd.isBusy hen
    have htaken : s.taken = true := by
      refine h.built (Or.inr (Or.inr fun hidle => ?_))
      rw [hidle] at hbusy
      cases hbusy
    refine ⟨fun ht => ?_, fun _ => ?_, fun _ => htaken⟩
    · change s.taken = false at ht
      rw [htaken] at ht
      cases ht
    · have hmsg := h.taken htaken
      rw [endedOk_of_mayEnd hen] at hmsg
      simp only [Transfer.next, State.deliver, hsends, endedOk, beq_iff_eq, if_true]
      split
      · rfl
      · exact hmsg
  | fire =>
    have hdone : s.aio.isCompleted = true := hen
    refine h.of_same rfl rfl (endedOk_fired hdone) fun hor => Or.inr (Or.inr fun hidle => ?_)
    rw [hidle] at hdone
    cases hdone
  | shut | resolve | test | cancel | cancelled | free => exact h.of_same rfl rfl rfl id
  | finishFast | finish =>
    simp only [Transfer.next, hfetch]
    split <;>
    · refine h.of_same rfl rfl rfl fun hor => ?_
      rcases hor with hpc | hpc | haio
      · cases hpc
      · cases hpc
      · exact Or.inr (Or.inr haio)
  | resume =>
    simp only [Transfer.next]
    split
    · refine h.of_same rfl rfl rfl fun hor => ?_
      rcases hor with hpc | hpc | haio
      · cases hpc
      · cases hpc
      · exact Or.inr (Or.inr haio)
    · exact h
  | set =>
    simp only [Transfer.next, hsends, reduceCtorEq, false_and, if_false]
    exact h.of_same rfl rfl rfl id

theorem sent_init (hsends : e.sends = true) : Sent input (operation e input).init where
  untaken := fun _ => by
    simp only [operation, hsends, true_and]
    cases input <;> rfl
  taken := fun ht => absurd ht Bool.false_ne_true
  built := fun hor => by simp [operation] at hor

theorem sent_of_reach (hsends : e.sends = true) (h : (operation e input).Reach s) :
    Sent input s :=
  h.invariant (sent_init hsends) fun _ _ hr hinv _ hen => hinv.next hsends (control_of_reach hr) hen

/-- **When the message of an asynchronous send has its owner**: whatever
the entry point, the input and the way the operation ends, exactly when
the code never came to take the message, or the aio ended with `NNG_OK`. -/
theorem send_settled_iff (hsends : e.sends = true) (h : (operation e input).Reach s)
    (hfreed : s.freed = true) :
    SendSettled input s ↔ s.taken = false ∨ s.aio = .finished 0 := by
  have hs := sent_of_reach hsends h
  have hc := control_of_reach h
  have hok := endedOk_iff (hc.quiet (hc.decided_of_freed hfreed))
  cases htaken : s.taken with
  | false =>
    have hmsg := hs.untaken htaken
    have hidle : s.aio = .idle := by
      by_contra hne
      rw [hs.built (Or.inr (Or.inr hne))] at htaken
      cases htaken
    refine ⟨fun _ => Or.inl rfl, fun _ => Or.inr ⟨?_, ?_⟩⟩
    · rw [hidle]; exact Aio.noConfusion
    · rw [hmsg]
      cases input with
      | message => rfl
      | data => exact Or.inl rfl
  | true =>
    have hmsg := hs.taken htaken
    cases hended : endedOk s.aio with
    | true =>
      rw [hended] at hmsg
      exact ⟨fun _ => Or.inr (hok.mp hended), fun _ => Or.inl hmsg⟩
    | false =>
      rw [hended] at hmsg
      have hnot : s.aio ≠ .finished 0 := fun hfin => by
        rw [hok.mpr hfin] at hended
        cases hended
      refine ⟨fun hsettled => ?_, fun hor => ?_⟩
      · -- it is with the aio, which is freed
        rcases hsettled with hnng | ⟨-, hback⟩
        · rw [hmsg] at hnng; cases hnng
        · rw [hmsg] at hback
          cases input with
          | message => cases hback
          | data => rcases hback with hback | ⟨hback, -⟩ <;> cases hback
      · rcases hor with hor | hor
        · cases hor
        · exact absurd hor hnot

/-- A call up to where nng has the aio, with its way of waiting. -/
def submits (e : EntryPoint) : List Act :=
  [.check, .create (!e.concurrent) true] ++ (if e.sends then [.build] else []) ++
    [.prepareSubmit, .submit, if e.concurrent then .returnFuture else .reachSkipPoint]

/-- The aio ends with `rc`, and the operation with it. -/
def ends (e : EntryPoint) (rc : ℕ) : List Act :=
  [.complete rc, .fire] ++ (if e.concurrent then [.test, .set] else [.resolve, .resume, .finish]) ++
    [.free]

/-- nng has the message of a send that succeeds. -/
theorem send_settled_iff_sent :
    SendSettled .data ((operation socketAsend .data).final (operation socketAsend .data).init
      (submits socketAsend ++ ends socketAsend 0)) :=
  (send_settled_iff rfl (Machine.reach_final (by decide)) (by decide)).mpr (Or.inr (by decide))

instance (input : Input) (s : State) : Decidable (SendSettled input s) :=
  match input with
  | .message => inferInstanceAs (Decidable (_ ∨ _ ∧ s.msg = .caller))
  | .data => inferInstanceAs (Decidable (_ ∨ _ ∧ (s.msg = .nowhere ∨ s.msg = .freed ∧ _)))

/-- **A send that fails leaves its message with nobody**, at each of the
entry points: here nng answers `NNG_ECLOSED`. -/
theorem unsettled_of_failed_send :
    ¬ (∀ e input s, e.sends = true → (operation e input).Reach s → s.freed = true →
        SendSettled input s) ∧
      ∀ e ∈ [socketAsend, contextAsend, socketSubmitSend, contextSubmitSend],
        ∀ input ∈ [Input.message, .data],
          (operation e input).Valid (operation e input).init (submits e ++ ends e 7) ∧
            ¬ SendSettled input ((operation e input).final (operation e input).init
              (submits e ++ ends e 7)) := by
  refine ⟨fun hclaim => ?_, by decide⟩
  have hsettled := hclaim socketAsend .message _ rfl
    (Machine.reach_final (show (operation socketAsend .message).Valid _
      (submits socketAsend ++ ends socketAsend 7) by decide)) (by decide)
  revert hsettled
  decide

/-! ## A message received -/

/-- **What a receive was given has one owner**: one `Message` that the
caller has, or it was freed once. -/
def State.HandedOver (s : State) : Prop :=
  s.msg = .message ∧ s.wraps = 1 ∧ s.frees = 0 ∨ s.msg = .freed ∧ s.wraps = 0 ∧ s.frees = 1

/-- Where nng left the message. -/
def State.arrived (s : State) : Place := if endedOk s.aio then .aio else .nowhere

/-- Nobody has touched it. -/
def State.Intact (s : State) : Prop := s.msg = s.arrived ∧ s.wraps = 0 ∧ s.frees = 0

/-- **The message of a receive** is in the aio until the code comes to
where it takes it, and longer if an interrupt went past that place. -/
structure Kept (e : EntryPoint) (s : State) : Prop where
  intact : s.decided e = false ∨ s.interrupted = true → s.Intact
  read : s.decided e = true → s.interrupted = false → endedOk s.aio = true → s.HandedOver

theorem Kept.of_same (h : Kept e s) (hmsg : s'.msg = s.msg) (hwraps : s'.wraps = s.wraps)
    (hfrees : s'.frees = s.frees) (haio : endedOk s'.aio = endedOk s.aio)
    (hdecided : s'.decided e = s.decided e) (hint : s'.interrupted = s.interrupted) :
    Kept e s' := by
  refine ⟨fun hor => ?_, fun hd hi hok => ?_⟩
  · rw [hdecided, hint] at hor
    obtain ⟨hm, hw, hf⟩ := h.intact hor
    exact ⟨by rw [hmsg, hm, State.arrived, State.arrived, haio], by rw [hwraps, hw],
      by rw [hfrees, hf]⟩
  · rw [hdecided] at hd
    rw [hint] at hi
    rw [haio] at hok
    unfold State.HandedOver
    rw [hmsg, hwraps, hfrees]
    exact h.read hd hi hok

/-- A step that does not take the message, where it need not. -/
theorem Kept.untouched (h : Kept e s) (hundecided : s.decided e = false)
    (hmsg : s'.msg = s.msg) (hwraps : s'.wraps = s.wraps) (hfrees : s'.frees = s.frees)
    (haio : endedOk s'.aio = endedOk s.aio)
    (hread : s'.decided e = true → s'.interrupted = false → endedOk s.aio = false) :
    Kept e s' := by
  obtain ⟨hm, hw, hf⟩ := h.intact (Or.inl hundecided)
  refine ⟨fun _ => ⟨?_, by rw [hwraps, hw], by rw [hfrees, hf]⟩, fun hd hi hok => ?_⟩
  · rw [hmsg, hm, State.arrived, State.arrived, haio]
  · rw [haio, hread hd hi] at hok
    cases hok

/-- **The code takes the message** at the one place it does. -/
theorem Kept.fetch (h : Kept e s) (hrecv : e.sends = false) (hundecided : s.decided e = false) :
    endedOk s.aio = true → (s.fetch e).HandedOver := by
  intro hok
  obtain ⟨hm, hw, hf⟩ := h.intact (Or.inl hundecided)
  rw [State.arrived, hok] at hm
  rw [State.fetch, if_pos ⟨hrecv, hm⟩]
  exact Or.inl ⟨rfl, by simp [hw], hf⟩

/-- A coroutine that ends where it takes the message. -/
theorem Kept.fetched (h : Kept e s) (hrecv : e.sends = false) (hundecided : s.decided e = false)
    (hint : s.interrupted = false) : Kept e { s.fetch e with pc := .ended } := by
  obtain ⟨haio, -, -, hintEq, -⟩ := s.fetch_eq e
  refine ⟨fun hor => ?_, fun _ _ hok => ?_⟩
  · rcases hor with hd | hi
    · simp [State.decided] at hd
    · change (s.fetch e).interrupted = true at hi
      rw [hintEq, hint] at hi
      cases hi
  · change endedOk (s.fetch e).aio = true at hok
    rw [haio] at hok
    exact h.fetch hrecv hundecided hok

/-- The handler sets the message on the future, or frees it where the
future was cancelled since the handler looked. -/
theorem Kept.setResult (h : Kept e s) (hkind : e.concurrent = true)
    (hundecided : s.decided e = false) (hint : s.interrupted = false) :
    Kept e { s.setResult with handler := .done } := by
  obtain ⟨-, hw, hf⟩ := h.intact (Or.inl hundecided)
  have hsame : s.setResult.interrupted = s.interrupted := by unfold State.setResult; split <;> rfl
  refine ⟨fun hor => ?_, fun _ _ _ => ?_⟩
  · rcases hor with hd | hi
    · simp [State.decided, hkind] at hd
    · change s.setResult.interrupted = true at hi
      rw [hsame, hint] at hi
      cases hi
  · unfold State.setResult
    split
    · exact Or.inl ⟨rfl, by simp [hw], hf⟩
    · exact Or.inr ⟨rfl, hw, by simp [hf]⟩

/-- A call that is not over and whose handler is not done. -/
theorem undecided_of_pc (hpc : s.pc ≠ .ended)
    (hhandler : e.concurrent = true → s.handler ≠ .done) : s.decided e = false := by
  cases hkind : e.concurrent with
  | false => simp [State.decided, hkind, hpc]
  | true => simp [State.decided, hkind, hpc, hhandler hkind]

/-- Before the submission nothing is decided. -/
theorem Control.undecided (h : Control e s) (hpc : s.pc.early = true) : s.decided e = false := by
  refine undecided_of_pc (fun hover => ?_) fun hkind hdone => ?_
  · rw [hover] at hpc; cases hpc
  · rw [((h.submitted hkind).stage.at_early hpc).2.1] at hdone; cases hdone

/-- Only a coroutine is at a place no submission comes to. -/
theorem Control.coroutine (h : Control e s) {pc : Pc} (hpc : s.pc = pc)
    (hnot : pc.early = false ∧ pc ≠ .ended ∧ pc ≠ .submitted ∧ pc ≠ .returned) :
    e.concurrent = false := by
  by_contra hkind
  rw [Bool.not_eq_false] at hkind
  exact (h.submitted hkind).absurd_place hpc hnot

/-- Only the handler of a submission comes between the look at its future
and the setting of it. -/
theorem Control.at_setting (h : Control e s) (hsetting : s.handler = .setting) :
    e.concurrent = true ∧ s.decided e = false ∧ s.interrupted = false ∧
      ∃ rc, s.aio = .finished rc := by
  have hkind : e.concurrent = true := by
    by_contra hkind
    rw [Bool.not_eq_true] at hkind
    exact (h.awaited hkind).handler hsetting
  have hstage := (h.submitted hkind).stage
  rw [hsetting] at hstage
  obtain ⟨hpc, huntouched, hfin⟩ := hstage.at_setting
  exact ⟨hkind, by simp [State.decided, hpc, hsetting], huntouched, hfin⟩

/-- A future that can be cancelled is one the handler has not set. -/
theorem Control.at_cancel (h : Control e s) (hpc : s.pc = .returned) (hfut : s.fut = .pending) :
    s.decided e = false := by
  have hkind : e.concurrent = true := by
    by_contra hkind
    rw [Bool.not_eq_true] at hkind
    exact (h.awaited hkind).stage.ne_returned hpc
  have hstage := (h.submitted hkind).stage
  rw [hfut] at hstage
  exact undecided_of_pc (by rw [hpc]; exact Pc.noConfusion) fun _ => hstage.ne_done

/-- **nng ends the aio**: a message that comes is in the aio. -/
theorem Kept.complete (h : Kept e s) (hrecv : e.sends = false) (hc : Control e s) {rc : ℕ}
    (hmay : s.aio.MayEnd rc) : Kept e (Transfer.next e s (.complete rc)) := by
  have hundecided : s.decided e = false := by
    by_contra hd
    rw [Bool.not_eq_false] at hd
    have hbusy := Aio.MayEnd.isBusy hmay
    rw [hc.quiet hd] at hbusy
    cases hbusy
  obtain ⟨hm, hw, hf⟩ := h.intact (Or.inl hundecided)
  rw [State.arrived, endedOk_of_mayEnd hmay] at hm
  refine ⟨fun _ => ⟨?_, hw, hf⟩, fun hd => ?_⟩
  · simp only [Transfer.next, State.deliver, State.arrived, hrecv, endedOk, beq_iff_eq]
    split
    · rfl
    · exact hm
  · change s.decided e = true at hd
    rw [hundecided] at hd
    cases hd

theorem Kept.next (hrecv : e.sends = false) (h : Kept e s) (hc : Control e s) {a : Act}
    (hen : Enabled e s a) : Kept e (Transfer.next e s a) := by
  -- before the submission there is nothing to take
  have hearly : s.pc.early = true → s.decided e = false ∧ endedOk s.aio = false := by
    intro hpc
    refine ⟨hc.undecided hpc, ?_⟩
    rw [hc.idle hpc]
    rfl
  cases a with
  | check | refuse | create =>
    obtain ⟨hundecided, hidle⟩ := hearly (by rw [hen.1]; rfl)
    exact h.untouched hundecided rfl rfl rfl rfl fun _ _ => hidle
  | createFails =>
    have hpc : s.pc = .checked := hen
    obtain ⟨hundecided, hidle⟩ := hearly (by rw [hpc]; rfl)
    exact h.untouched hundecided rfl rfl rfl rfl fun _ _ => hidle
  | build | buildFails => exact absurd (hrecv.symm.trans hen.2) Bool.false_ne_true
  | prepareSubmit =>
    have hpc : s.pc = if e.sends then .built else .created := hen
    obtain ⟨hundecided, hidle⟩ := hearly (by rw [hpc]; split <;> rfl)
    simp only [Transfer.next]
    split <;> exact h.untouched hundecided rfl rfl rfl rfl fun _ _ => hidle
  | submit =>
    have hpc : s.pc = .registered := hen
    obtain ⟨hundecided, hidle⟩ := hearly (by rw [hpc]; rfl)
    exact h.untouched hundecided rfl rfl rfl (by rw [hidle]; rfl) fun _ _ => hidle
  | complete rc => exact h.complete hrecv hc hen
  | fire => exact h.of_same rfl rfl rfl (endedOk_fired hen) rfl rfl
  | shut | cancelled | free => exact h.of_same rfl rfl rfl rfl rfl rfl
  | reachSkipPoint =>
    have hundecided : s.decided e = false := by simp [State.decided, hen.1, hen.2]
    refine h.untouched hundecided rfl rfl rfl rfl fun hd _ => ?_
    simp only [Transfer.next, State.decided, hen.2] at hd
    split at hd <;> simp at hd
  | finishFast =>
    have hkind := hc.coroutine hen.1 (by decide)
    obtain ⟨⟨rc, hfin⟩, huntouched⟩ := ((hc.awaited hkind).stage_of_pc hen.1).at_fast
    have hundecided : s.decided e = false := by simp [State.decided, hen.1, hkind]
    simp only [Transfer.next]
    split
    · exact h.fetched hrecv hundecided huntouched
    · rename_i hresult
      refine h.untouched hundecided rfl rfl rfl rfl fun _ _ => ?_
      rw [hfin, Aio.result] at hresult
      simpa [hfin, endedOk] using hresult
  | resolve =>
    refine h.of_same rfl rfl rfl rfl ?_ rfl
    unfold State.decided
    rw [hen.1]
    rfl
  | resume =>
    have hkind := hc.coroutine hen.1 (by decide)
    have hundecided : s.decided e = false := by simp [State.decided, hen.1, hkind]
    simp only [Transfer.next]
    split
    · refine h.untouched hundecided rfl rfl rfl rfl fun hd _ => ?_
      simp [State.decided, hkind] at hd
    · exact h
  | throw =>
    have hpc : s.pc = .awaiting := hen
    have hkind := hc.coroutine hpc (by decide)
    have hundecided : s.decided e = false := by simp [State.decided, hpc, hkind]
    exact h.untouched hundecided rfl rfl rfl rfl fun _ hi => absurd hi Bool.false_ne_true.symm
  | finish =>
    obtain ⟨⟨told, hpc⟩, -⟩ := hen
    have hkind := hc.coroutine hpc ⟨rfl, Pc.noConfusion, Pc.noConfusion, Pc.noConfusion⟩
    obtain ⟨-, hint, htold⟩ := ((hc.awaited hkind).stage_of_pc hpc).at_finishing
    have hundecided : s.decided e = false := by simp [State.decided, hpc, hkind]
    simp only [Transfer.next, hpc]
    split
    · rename_i hzero
      obtain rfl := Pc.finishing.inj hzero
      exact h.fetched hrecv hundecided hint
    · rename_i hnot
      refine h.untouched hundecided rfl rfl rfl rfl fun _ hi => ?_
      change s.interrupted = false at hi
      cases told with
      | none =>
        rw [hint] at hi
        cases hi
      | some rc =>
        -- it was told an error, and that is the result
        have hrc : rc ≠ 0 := by
          rintro rfl
          exact hnot rfl
        simpa [htold rc hrc rfl, endedOk] using hrc
  | returnFuture =>
    refine h.of_same rfl rfl rfl rfl ?_ rfl
    unfold State.decided
    rw [hen.1]
    rfl
  | test =>
    obtain ⟨hkind, -, hwaiting, hfin⟩ := hen
    have hstage := (hc.submitted hkind).stage
    rw [hwaiting] at hstage
    obtain ⟨hpc, hdropped⟩ := hstage.at_waiting hfin
    have hundecided : s.decided e = false := by simp [State.decided, hpc, hwaiting]
    refine h.untouched hundecided rfl rfl rfl rfl fun hd hi => ?_
    -- the future was done: it was cancelled before the handler looked
    exfalso
    by_cases hfut : s.fut = .pending
    · simp [Transfer.next, State.decided, hpc, hfut] at hd
    · have hint : s.interrupted = true := hdropped hfut
      change s.interrupted = false at hi
      rw [hint] at hi
      cases hi
  | set =>
    obtain ⟨hkind, hundecided, huntouched, rc, hfin⟩ := hc.at_setting hen
    simp only [Transfer.next]
    split
    · -- the handler has seen a pending future: a cancellation since is no interrupt
      exact h.setResult hkind hundecided huntouched
    · rename_i hresult
      refine h.untouched hundecided rfl rfl rfl rfl fun _ _ => ?_
      simpa [hrecv, hfin, Aio.result, endedOk] using hresult
  | cancel =>
    have hundecided := hc.at_cancel hen.1 hen.2
    refine h.untouched hundecided rfl rfl rfl rfl fun hd _ => ?_
    change s.decided e = true at hd
    rw [hundecided] at hd
    cases hd

theorem kept_init (hrecv : e.sends = false) : Kept e (operation e input).init where
  intact := fun _ => ⟨by simp [operation, hrecv, State.arrived, endedOk], rfl, rfl⟩
  read := fun _ _ hok => absurd hok Bool.false_ne_true

theorem kept_of_reach (hrecv : e.sends = false) (h : (operation e input).Reach s) : Kept e s :=
  h.invariant (kept_init hrecv) fun _ _ hr hinv _ hen => hinv.next hrecv (control_of_reach hr) hen

/-- **The message of a receive was not lost**: if the aio had one, the
caller has it in one `Message`, or it was freed once. -/
def ReceiveSettled (s : State) : Prop := s.aio = .finished 0 → s.HandedOver

/-- **When the message of an asynchronous receive is not lost**: whatever
the entry point and the order of the steps, exactly when no exception was
thrown into the `await`, and the future not cancelled before the handler
looked at it, of an operation that ended with `NNG_OK`. -/
theorem receive_settled_iff (hrecv : e.sends = false) (h : (operation e input).Reach s)
    (hfreed : s.freed = true) :
    ReceiveSettled s ↔ ¬ (s.interrupted = true ∧ s.aio = .finished 0) := by
  have hk := kept_of_reach hrecv h
  have hc := control_of_reach h
  have hdecided := hc.decided_of_freed hfreed
  have hok := endedOk_iff (hc.quiet hdecided)
  refine ⟨fun hsettled hlost => ?_, fun hnot hfin => ?_⟩
  · obtain ⟨hint, hfin⟩ := hlost
    have hmsg := (hk.intact (Or.inr hint)).1
    rw [State.arrived, if_pos (hok.mpr hfin)] at hmsg
    -- it is with the aio, which is freed
    rcases hsettled hfin with ⟨hhere, -⟩ | ⟨hhere, -⟩ <;> rw [hmsg] at hhere <;> cases hhere
  · refine hk.read hdecided ?_ (hok.mpr hfin)
    by_contra hint
    rw [Bool.not_eq_false] at hint
    exact hnot ⟨hint, hfin⟩

/-- The message of a receive that nobody interrupts is the caller's. -/
theorem receive_settled_iff_received :
    ReceiveSettled ((operation socketArecv .data).final (operation socketArecv .data).init
      (submits socketArecv ++ ends socketArecv 0)) :=
  (receive_settled_iff rfl (Machine.reach_final (by decide)) (by decide)).mpr (by decide)

/-- The aio ends with a message, and then the operation is cancelled. -/
def overtaken (e : EntryPoint) : List Act :=
  [.complete 0, .fire] ++
    (if e.concurrent then [.cancel, .cancelled, .test] else [.throw, .finish]) ++ [.free]

instance (s : State) : Decidable (ReceiveSettled s) :=
  inferInstanceAs (Decidable (_ → _ ∨ _))

/-- **A receive cancelled after nng has delivered loses the message**, at
each of the entry points. -/
theorem unsettled_of_interrupted_receive :
    ¬ (∀ e input s, e.sends = false → (operation e input).Reach s → s.freed = true →
        ReceiveSettled s) ∧
      ∀ e ∈ [socketArecv, contextArecv, socketSubmitRecv, contextSubmitRecv],
        (operation e .data).Valid (operation e .data).init (submits e ++ overtaken e) ∧
          ¬ ReceiveSettled ((operation e .data).final (operation e .data).init
            (submits e ++ overtaken e)) := by
  refine ⟨fun hclaim => ?_, by decide⟩
  have hsettled := hclaim socketArecv .data _ rfl
    (Machine.reach_final (show (operation socketArecv .data).Valid _
      (submits socketArecv ++ overtaken socketArecv) by decide)) (by decide)
  revert hsettled
  decide

end Transfer

end PyNng
