import PyNng.Message.Pipe.Registry
/-!
# Message — what `Message.pipe` answers

An answer is right when it is the one `Pipe` of the message's pipe, open
and listed by the socket, or `None` for a pipe that was closed. The
registry is asked before `update_pipes`, and neither it nor the read looks
at the status of what is found: a `Pipe` of a closed pipe is handed out for
as long as anything refers to it. `pipe_answers_iff` says that this, and a
pipe nng destroys ahead of its `REM_POST`, is all that can go wrong.
-/

namespace PyNng

namespace MessagePipe

open Socket (StillOpen known_of_reach locked_of_reach shadowed_of_reach explained_of_reach)

variable {σ : Type} {cfg : Config σ} {s : State σ}

/-! ## What is asked of an answer -/

/-- The pipe was closed: its removal is handled, `Pipe.close` was called, or
the socket's `close` has begun to clear its pipes. -/
def Closed (s : Socket.State σ) (p : ℕ) : Prop :=
  s.removed p = true ∨ s.kicked p = true ∨ s.closeBegun = true

instance (s : Socket.State σ) (p : ℕ) : Decidable (Closed s p) :=
  inferInstanceAs (Decidable (_ ∨ _ ∨ _))

/-- **The pipe's one `Pipe`**, which the socket lists and whose handle the
collection has, so that `Socket.pipes`, which updates first, lists it too. -/
structure OneOf (s : Socket.State σ) (p : ℕ) (x : Pipe) : Prop where
  id : x.id = p
  arrived : 0 < p
  listed : s.Listed x
  kept : x.handle ∈ s.coll.pipes
  only : ∀ y ∈ s.made, y.id = p → s.pipeStatus y ≠ .remPost → y = x
  status : s.pipeStatus x ≠ .remPost
  /-- Neither handled removed nor closed by `Pipe.close`. -/
  unclosed : s.removed p = false ∧ s.kicked p = false

/-- **A right answer** for a message of the pipe. -/
def RightAnswer (s : Socket.State σ) (p : ℕ) : Option Pipe → Prop
  | some x => OneOf s p x
  | none => p = 0 ∨ Closed s p

/-- What a step returns from `Message.pipe` is right. -/
def Right (cfg : Config σ) (s : State σ) (a : Act) : Prop :=
  match a with
  | .start n _ | .look n =>
    ∀ p pipe, (next cfg s a).reads n = .returned p pipe → RightAnswer s.sock p pipe
  | _ => True

/-- **What a read comes upon is as it takes it to be**: an object found in
the registry is of a pipe still open, and a pipe nng has destroyed counts as
closed. -/
def ComesUponOpen (cfg : Config σ) (s : State σ) : Pc → Prop
  | .unlocked p => ∀ x ∈ s.registry (cfg.pipeId p), StillOpen s.sock s.dropped x
  | .missed p => s.destroyed p = true → Closed s.sock p
  | .updating p => ∀ x ∈ s.registry (cfg.pipeId p), StillOpen s.sock s.dropped x
  | _ => True

instance (cfg : Config σ) (s : State σ) : ∀ pc, Decidable (ComesUponOpen cfg s pc)
  | .unlocked p | .updating p =>
    inferInstanceAs (Decidable (∀ x ∈ s.registry (cfg.pipeId p), StillOpen s.sock s.dropped x))
  | .missed _ => inferInstanceAs (Decidable (_ → _))
  | .idle | .returned .. | .raised => inferInstanceAs (Decidable True)

/-- The step comes upon open pipes. -/
def FindsOpen (cfg : Config σ) (s : State σ) : Act → Prop
  | .look n => ComesUponOpen cfg s (s.reads n)
  | _ => True

instance (cfg : Config σ) (s : State σ) (a : Act) : Decidable (FindsOpen cfg s a) := by
  cases a <;> unfold FindsOpen <;> infer_instance

/-! ## One answer -/

@[simp] theorem reads_setRead (n : ℕ) (pc : Pc) : (s.setRead n pc).reads n = pc :=
  Function.update_self ..

@[simp] theorem reads_answer (n p : ℕ) (pipe : Option Pipe) :
    (s.answer n p pipe).reads n = .returned p pipe :=
  Function.update_self ..

/-- **An object from the registry is the pipe's one** just when it is open. -/
theorem oneOf_iff (h : Registered cfg s) (hr : (Socket.socket cfg.socket).Reach s.sock) {p : ℕ}
    {x : Pipe} (hx : s.registry (cfg.pipeId p) = some x) :
    OneOf s.sock p x ↔ StillOpen s.sock s.dropped x := by
  have hk := known_of_reach hr
  obtain ⟨hmade, hpos, hid⟩ := h.id_eq hx
  constructor
  · intro ho
    exact ⟨by rw [hid]; exact ho.unclosed.1, by rw [hid]; exact ho.unclosed.2,
      h.account.since x ho.listed⟩
  · intro ho
    have hin := h.account.mem_of_stillOpen hmade ho
    obtain ⟨hlisted, honly⟩ :=
      h.account.only (shadowed_of_reach hr) hk (locked_of_reach hr) hmade ho
    have hlive := hk.tracks.ne_remPost hin
    refine ⟨hid, hpos, hlisted, hin, fun y hy hyid hstatus => ?_, ?_,
      by rw [← hid]; exact ⟨ho.removed, ho.kicked⟩⟩
    · refine honly y hy (hyid.trans hid.symm) (h.account.mem_of_live hy fun hgone => hstatus ?_)
      unfold Socket.State.pipeStatus
      split
      · rfl
      · exact hgone
    · -- the object is not known to be removed either
      have hknown : (s.sock.objs x.obj).lastKnown ≠ .remPost := fun hrem => by
        rcases explained_of_reach hr x hmade hrem with hkick | hgone
        · rw [ho.kicked] at hkick
          cases hkick
        · exact hlive hgone
      rwa [Socket.State.pipeStatus, if_neg hknown]

/-- **Nothing in the registry after the update**: the pipe was closed. -/
theorem closed_of_updated (h : Registered cfg s) (hr : (Socket.socket cfg.socket).Reach s.sock)
    {n p : ℕ} (hn : s.reads n = .updating p) (hpc : (s.sock.calls (n + 1)).pc = .returned)
    (hnone : s.registry (cfg.pipeId p) = none) : Closed s.sock p := by
  by_contra hopen
  simp only [Closed, not_or, Bool.not_eq_true] at hopen
  obtain ⟨hrem, -, hcb⟩ := hopen
  obtain ⟨hp, hpresent⟩ := h.updating n p hn
  have harr := h.asked n p (by rw [hn]; rfl) hp
  obtain ⟨x, hx, hid, hin⟩ := Socket.exists_listed hr hcb harr hrem hpc hpresent
  have hfound := h.found x (Or.inl hx) hin
  rw [hid, hnone] at hfound
  cases hfound

/-- A step that returns is judged by what it returns. -/
theorem right_look_iff {n p : ℕ} {pipe : Option Pipe}
    (hret : (next cfg s (.look n)).reads n = .returned p pipe) :
    Right cfg s (.look n) ↔ RightAnswer s.sock p pipe := by
  refine ⟨fun h => h p pipe hret, fun h q pipe' hret' => ?_⟩
  rw [hret] at hret'
  obtain ⟨rfl, rfl⟩ := Pc.returned.inj hret'
  exact h

/-- A read that finds an object in the registry returns it. -/
theorem right_found_iff (h : Registered cfg s) (hr : (Socket.socket cfg.socket).Reach s.sock)
    {n p : ℕ} {x : Pipe} (hx : s.registry (cfg.pipeId p) = some x)
    (hret : (next cfg s (.look n)).reads n = .returned p (some x)) :
    Right cfg s (.look n) ↔
      ∀ y ∈ s.registry (cfg.pipeId p), StillOpen s.sock s.dropped y := by
  rw [right_look_iff hret, hx]
  show OneOf s.sock p x ↔ _
  rw [oneOf_iff h hr hx]
  refine ⟨fun ho y hy => ?_, fun ho => ho x rfl⟩
  rw [← Option.some.inj hy]
  exact ho

/-- **A step's answer is right** just when what it comes upon is. -/
theorem right_iff (h : Registered cfg s) (hr : (Socket.socket cfg.socket).Reach s.sock) {a : Act}
    (hen : Enabled cfg s a) : Right cfg s a ↔ FindsOpen cfg s a := by
  cases a with
  | start n msg =>
    refine iff_of_true (fun p pipe hret => ?_) trivial
    cases msg with
    | none => simp [next] at hret
    | some q =>
      simp only [next] at hret
      split at hret
      · rename_i hzero
        rw [reads_answer] at hret
        obtain ⟨rfl, rfl⟩ := Pc.returned.inj hret
        rcases Nat.eq_zero_or_pos q with hq | hq
        · exact Or.inl hq
        · rw [cfg.pipeId_pipe q hq] at hzero
          omega
      · simp at hret
  | look n =>
    cases hpc : s.reads n with
    | unlocked p =>
      simp only [FindsOpen, ComesUponOpen, hpc]
      cases hx : s.registry (cfg.pipeId p) with
      | none =>
        refine iff_of_true (fun q pipe hret => ?_) fun x hin => ?_
        · simp [next, hpc, hx] at hret
        · simp at hin
      | some x =>
        rw [← hx]
        exact right_found_iff h hr hx (by simp [next, hpc, hx])
    | missed p =>
      simp only [FindsOpen, ComesUponOpen, hpc]
      cases hfound : s.findsSocket p with
      | true =>
        -- nng has the pipe, and the read goes on
        refine iff_of_true (fun q pipe hret => ?_) fun hgone => ?_
        · simp [next, hpc, hfound] at hret
        · simp [State.findsSocket, hgone] at hfound
      | false =>
        rw [@right_look_iff _ cfg s n p none (by simp [next, hpc, hfound])]
        refine ⟨fun hans hgone => hans.resolve_left fun hp => ?_, fun hcl => ?_⟩
        · exact h.destroyed p hgone (by rw [hp]; exact h.zero)
        · rcases Nat.eq_zero_or_pos p with hp | hp
          · exact Or.inl hp
          · exact Or.inr (hcl (by simpa [State.findsSocket, hp] using hfound))
    | updating p =>
      simp only [FindsOpen, ComesUponOpen, hpc]
      cases hx : s.registry (cfg.pipeId p) with
      | none =>
        simp only [Enabled, CanLook, hpc] at hen
        rw [@right_look_iff _ cfg s n p none (by simp [next, hpc, hx])]
        refine iff_of_true (Or.inr (closed_of_updated h hr hpc hen hx)) fun x hin => ?_
        simp at hin
      | some x =>
        rw [← hx]
        exact right_found_iff h hr hx (by simp [next, hpc, hx])
    | _ => simp only [Enabled, CanLook, hpc] at hen
  | _ => exact Iff.rfl

/-- **Never another pipe's**: whatever is closed or kept, a `Pipe` that is
returned is one of the message's pipe. -/
theorem id_of_returned (h : Registered cfg s) {n p : ℕ} {x : Pipe} (hen : Enabled cfg s (.look n))
    (hret : (next cfg s (.look n)).reads n = .returned p (some x)) :
    s.registry (cfg.pipeId p) = some x ∧ x.id = p := by
  suffices hx : s.registry (cfg.pipeId p) = some x from ⟨hx, (h.id_eq hx).2.2⟩
  cases hpc : s.reads n with
  | unlocked q =>
    cases hx : s.registry (cfg.pipeId q) with
    | none => simp [next, hpc, hx] at hret
    | some y =>
      simp only [next, hpc, hx, reads_answer] at hret
      obtain ⟨rfl, heq⟩ := Pc.returned.inj hret
      rw [← heq]
      exact hx
  | missed q =>
    cases hfound : s.findsSocket q <;> simp [next, hpc, hfound] at hret
  | updating q =>
    simp only [next, hpc, reads_answer] at hret
    obtain ⟨rfl, heq⟩ := Pc.returned.inj hret
    exact heq
  | _ => simp only [Enabled, CanLook, hpc] at hen

/-! ## Every answer of a run -/

/-- **What `Message.pipe` answers.** Along any run, of the socket, its pipes,
the threads that read and the objects that die, every answer is right
exactly when every read comes upon open pipes. -/
theorem pipe_answers_iff (cfg : Config σ) {as : List Act}
    (hv : (pipeReads cfg).Valid (pipeReads cfg).init as) :
    (pipeReads cfg).Meets (Right cfg) (pipeReads cfg).init as ↔
      (pipeReads cfg).Meets (FindsOpen cfg) (pipeReads cfg).init as :=
  Machine.meets_congr
    (fun _ _ hr hen => right_iff (registered_of_reach hr) (sock_reach hr) hen) .init hv

/-! ## A `Pipe` kept after its pipe is gone -/

/-- A listener without a filter; nng gives no pipe the id -1. -/
def plainReads : Config Unit where
  socket := Socket.plainListener
  pipeId := fun p => if p = 0 then -1 else p
  pipeId_pipe := fun p hp => if_neg (Nat.ne_of_gt hp)
  pipeId_null := by decide

/-- A message of pipe 1 is read ahead of the dispatcher. -/
def readAhead : List Act :=
  [.sock (.event 1 .addPre), .start 0 (some 1), .look 0, .look 0, .sock (.acquire 1),
    .sock (.check 1), .sock (.snapshot 1), .sock (.create 1), .sock (.assign 1),
    .sock (.unlock 1), .sock (.ret 1), .look 0]

theorem pipe_answers_iff_ahead :
    (pipeReads plainReads).Meets (Right plainReads) (pipeReads plainReads).init readAhead :=
  (pipe_answers_iff plainReads (by decide)).mpr (by decide)

/-- Pipe 1 comes, and the user keeps its `Pipe`. -/
def kept : List Act :=
  [.sock (.event 1 .addPre), .sock .push, .sock (.enter 0), .sock (.acquire 0), .sock (.check 0),
    .sock (.snapshot 0), .sock (.create 0), .sock (.assign 0), .sock (.unlock 0), .sock (.ret 0),
    .hold Socket.firstMade]

/-- The pipe goes, and the dispatcher takes it out of the list. -/
def takenOut : List Act :=
  [.destroy 1, .sock (.event 1 .remPost), .sock .push, .sock (.enter 0), .sock (.acquire 0),
    .sock (.check 0), .sock (.snapshot 0), .sock (.assign 0), .sock (.sample 0), .sock (.read 0),
    .sock (.unlock 0), .sock (.hook 0), .sock (.ret 0)]

/-- **The `Pipe` of a closed pipe is handed out**: the removal is handled and
the pipe out of the list, but the user refers to it still. -/
theorem removed_pipe_returned :
    ¬ (∀ as, (pipeReads plainReads).Valid (pipeReads plainReads).init as →
      (pipeReads plainReads).Meets (Right plainReads) (pipeReads plainReads).init as) := by
  intro hclaim
  have hmeets := hclaim (kept ++ takenOut ++ [.start 0 (some 1)] ++ [.look 0]) (by decide)
  have hright := (Machine.meets_append.mp hmeets).2.1 1 (some Socket.firstMade) (by decide)
  exact hright.status (by decide)

end MessagePipe

end PyNng
