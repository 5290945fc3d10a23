import PyNng.Callback.Routing
/-!
# Callback — what the futures are told

`_dispatch_complete` clears `_future` before anything else, so a future is
told once, with the result of its own aio, which does not change any more
when the trampoline has pushed. A future that is cancelled meanwhile stays
cancelled. What is left open is a loop that was closed before its turn.
-/

namespace PyNng

namespace Callback

open Async (Aio Fut)

variable {s s' : State} {a : Act} {i : ℕ} {o o' : Op}

/-! ## The invariant -/

/-- What an operation's future has to do with its aio and the dispatcher. -/
structure State.Told (s : State) (i : ℕ) (o : Op) : Prop where
  resolved : ∀ rc, o.fut = .resolved rc → hasFired o.aio = true ∧ rc = o.aio.result
  scheduled : ∀ rc, o.scheduled = some rc → hasFired o.aio = true ∧ rc = o.aio.result
  sync : o.kind = .cbSync → o.scheduled = none
  fresh : o.hasFuture = true ↔ i ∉ s.called ∨ s.hand = .called i
  setting : s.hand = .setting i → o.kind = .cbSync
  settled : i ∈ s.called → s.hand.op ≠ some i →
    o.fut ≠ .pending ∨ o.scheduled ≠ none ∨ s.closed o.kind = true

theorem closed_congr (h : s'.loopClosed = s.loopClosed) (kind : Kind) :
    s'.closed kind = s.closed kind := by
  cases kind with
  | cbSync => rfl
  | cbASync l => exact congrFun h l

/-- A step that says nothing to the future. -/
theorem State.Told.step (h : s.Told i o) (hfut : o'.fut = o.fut)
    (hsched : o'.scheduled = o.scheduled)
    (hhas : o'.hasFuture = o.hasFuture) (hkind : o'.kind = o.kind)
    (hfired : hasFired o.aio = true → hasFired o'.aio = true ∧ o'.aio.result = o.aio.result)
    (hcalled : s'.called = s.called) (hhand : s'.hand = s.hand)
    (hclosed : s.closed o.kind = true → s'.closed o.kind = true) : s'.Told i o' where
  resolved rc hrc := by
    obtain ⟨hf, he⟩ := h.resolved rc (hfut.symm.trans hrc)
    exact ⟨(hfired hf).1, he.trans (hfired hf).2.symm⟩
  scheduled rc hrc := by
    obtain ⟨hf, he⟩ := h.scheduled rc (hsched.symm.trans hrc)
    exact ⟨(hfired hf).1, he.trans (hfired hf).2.symm⟩
  sync hk := hsched.trans (h.sync (hkind.symm.trans hk))
  fresh := by rw [hhas, hcalled, hhand]; exact h.fresh
  setting hs := hkind.trans (h.setting (hhand.symm.trans hs))
  settled := by
    rw [hcalled, hhand, hfut, hsched, hkind]
    intro hc hop
    exact (h.settled hc hop).imp_right (Or.imp_right hclosed)

/-- The dispatcher is busy with another operation, before and after. -/
theorem State.Told.other (h : s.Told i o) (hcalled : i ∈ s'.called ↔ i ∈ s.called)
    (hhand : s.hand.op ≠ some i) (hhand' : s'.hand.op ≠ some i)
    (hclosed : s'.loopClosed = s.loopClosed) : s'.Told i o where
  resolved := h.resolved
  scheduled := h.scheduled
  sync := h.sync
  fresh := by
    have hno : ∀ {hand : Hand}, hand.op ≠ some i → hand ≠ .called i := by
      rintro hand hne rfl
      exact hne rfl
    rw [h.fresh, hcalled, or_iff_left (hno hhand), or_iff_left (hno hhand')]
  setting hs := absurd (by rw [hs]; rfl) hhand'
  settled hc _ := by
    rw [closed_congr hclosed]
    exact h.settled (hcalled.mp hc) hhand

/-- **A step of one operation that leaves its future alone.** -/
theorem told_same (h : ∀ i, s.Told i (s.op i)) (hop : s'.op = s.op) (hcalled : s'.called = s.called)
    (hhand : s'.hand = s.hand) (hclosed : s'.loopClosed = s.loopClosed)
    (hfut : o.fut = (s.op i).fut) (hsched : o.scheduled = (s.op i).scheduled)
    (hhas : o.hasFuture = (s.op i).hasFuture) (hkind : o.kind = (s.op i).kind)
    (hfired : hasFired (s.op i).aio = true →
      hasFired o.aio = true ∧ o.aio.result = (s.op i).aio.result) {j : ℕ} :
    (s'.setOp i o).Told j ((s'.setOp i o).op j) := by
  have hkeep : ∀ kind, s.closed kind = true → (s'.setOp i o).closed kind = true :=
    fun kind hc => (closed_congr hclosed kind).trans hc
  refine forall_setOp (P := fun j p => (s'.setOp i o).Told j p) ?_ (fun j _ => ?_) j
  · exact (h i).step hfut hsched hhas hkind hfired hcalled hhand (hkeep _)
  · rw [hop]
    exact (h j).step rfl rfl rfl rfl (fun hf => ⟨hf, rfl⟩) hcalled hhand (hkeep _)

/-- **A step of the dispatcher** with an operation whose callable it has popped. -/
theorem told_called (h : ∀ i, s.Told i (s.op i)) (hop : s'.op = s.op)
    (hcalled : s'.called = s.called)
    (hat : s.hand.op = some i) (hat' : ∀ j, s'.hand.op = some j → j = i)
    (hclosed : s'.loopClosed = s.loopClosed) (hi : (s'.setOp i o).Told i o) {j : ℕ} :
    (s'.setOp i o).Told j ((s'.setOp i o).op j) := by
  refine forall_setOp (P := fun j p => (s'.setOp i o).Told j p) hi (fun j hj => ?_) j
  rw [hop]
  refine (h j).other ?_ ?_ (fun hs => hj (hat' j hs)) hclosed
  · show j ∈ s'.called ↔ _
    rw [hcalled]
  · rw [hat]
    exact fun he => hj (Option.some.inj he).symm

/-! ## Every step -/

theorem not_fired_of_isCompleted {aio : Aio} (h : aio.isCompleted = true) :
    hasFired aio = false := by
  cases aio <;> first | rfl | cases h

theorem resolved_of_cancel {cancels : Bool} {f : Fut} {rc : ℕ}
    (h : (if cancels then f.cancel else f) = .resolved rc) : f = .resolved rc := by
  cases cancels <;> cases f <;> first | exact h | cases h

theorem pending_of_cancel {cancels : Bool} {f : Fut}
    (h : (if cancels then f.cancel else f) = .pending) : f = .pending := by
  cases cancels <;> cases f <;> first | rfl | cases h

/-- An object is made where nothing of it was called. -/
theorem told_create (hk : Kept s) (h : ∀ i, s.Told i (s.op i)) {i addr : ℕ} {kind : Kind}
    (hen : Enabled s (.create i kind addr)) (j : ℕ) :
    (Callback.next s (.create i kind addr)).Told j
      ((Callback.next s (.create i kind addr)).op j) := by
  have hidle := (hk.row i).fits.idle (.inl hen.1)
  have hcalled := hk.not_called_of_idle hidle
  have hno : ¬ hasFired (s.op i).aio = true := by
    rw [hidle]
    nofun
  refine forall_setOp (P := fun j p => State.Told _ j p) ?_ (fun j _ => ?_) j
  · have hsched : (s.op i).scheduled = none := by
      cases hs : (s.op i).scheduled with
      | none => rfl
      | some rc => exact absurd ((h i).scheduled rc hs).1 hno
    have hsetting : s.hand ≠ .setting i := by
      intro hs
      exact hcalled ((hk.row i).hand (by rw [hs]; rfl)).2
    exact ⟨(h i).resolved, (h i).scheduled, fun _ => hsched, (h i).fresh,
      fun hs => absurd hs hsetting, fun hc => absurd hc hcalled⟩
  · exact (h j).step rfl rfl rfl rfl (fun hf => ⟨hf, rfl⟩) rfl rfl id

/-- **The callable is popped** of an operation that was told nothing yet. -/
theorem told_popCallable (hk : Kept s) (h : ∀ i, s.Told i (s.op i))
    (hen : Enabled s .popCallable) (j : ℕ) :
    (Callback.next s .popCallable).Told j ((Callback.next s .popCallable).op j) := by
  obtain ⟨hhand, hid⟩ := hen
  obtain ⟨id, hl, hne⟩ := exists_of_hasId hid
  obtain ⟨i, hnot, -, hpop, -⟩ := hk.popId hl hne hhand
  dsimp only [Callback.next]
  rw [hl]
  dsimp only
  rw [hpop]
  have hempty : ∀ k, s.hand.op ≠ some k := by
    intro k
    rw [hhand]
    nofun
  by_cases hj : j = i
  · subst hj
    refine ⟨(h j).resolved, (h j).scheduled, (h j).sync, ?_, nofun, fun _ hop => absurd rfl hop⟩
    exact ⟨fun _ => .inr rfl, fun _ => (h j).fresh.mpr (.inl hnot)⟩
  · refine (h j).other ?_ (hempty j) (fun hop => hj (Option.some.inj hop).symm) rfl
    rw [List.mem_append, List.mem_singleton]
    exact or_iff_left hj

/-- **`_AioCbSync._dispatch_complete`**, up to `fut.done()`. -/
theorem told_test (hk : Kept s) (h : ∀ i, s.Told i (s.op i))
    (hen : Enabled s .test) (j : ℕ) :
    (Callback.next s .test).Told j ((Callback.next s .test).op j) := by
  obtain ⟨i, hhand, hsync, -⟩ := exists_of_calls hen
  have hop : s.hand.op = some i := by rw [hhand]; rfl
  have hhas : (s.op i).hasFuture = true := (h i).fresh.mpr (.inr hhand)
  have hcalled := ((hk.row i).hand hop).2
  dsimp only [Callback.next]
  rw [hhand]
  dsimp only
  rw [if_pos hhas]
  split
  · refine told_called h ?_ ?_ hop ?_ ?_ ?_ <;> try rfl
    · exact fun j hj => (Option.some.inj hj).symm
    · refine ⟨(h i).resolved, (h i).scheduled, (h i).sync, ?_, fun _ => of_decide_eq_true hsync,
        fun _ hne => absurd rfl hne⟩
      exact ⟨nofun, fun hno => hno.elim (absurd hcalled) nofun⟩
  · rename_i hdone
    refine told_called h ?_ ?_ hop ?_ ?_ ?_ <;> try rfl
    · nofun
    · refine ⟨(h i).resolved, (h i).scheduled, (h i).sync, ?_, nofun, fun _ _ => .inl hdone⟩
      exact ⟨nofun, fun hno => hno.elim (absurd hcalled) nofun⟩

/-- **The rest of it**: the result is set, unless the future was cancelled. -/
theorem told_set (hk : Kept s) (h : ∀ i, s.Told i (s.op i))
    (hen : Enabled s .set) (j : ℕ) :
    (Callback.next s .set).Told j ((Callback.next s .set).op j) := by
  obtain ⟨i, hhand⟩ := exists_of_isSetting hen
  have hop : s.hand.op = some i := by rw [hhand]; rfl
  have hcalled := ((hk.row i).hand hop).2
  have hfired := hk.hasFired_of_called hcalled
  dsimp only [Callback.next]
  rw [hhand]
  refine told_called h ?_ ?_ hop ?_ ?_ ?_ <;> try rfl
  · nofun
  · refine ⟨fun rc hrc => ?_, (h i).scheduled, (h i).sync, ?_, nofun, fun _ _ => .inl ?_⟩
    · cases hf : (s.op i).fut <;> rw [hf] at hrc
      · exact ⟨hfired, (Fut.resolved.inj hrc).symm⟩
      · exact (h i).resolved rc (hf.trans hrc)
      · cases hrc
    · have hfresh := (h i).fresh
      rw [hhand] at hfresh
      refine hfresh.trans (or_congr_right ⟨nofun, nofun⟩)
    · show (s.op i).fut.set _ ≠ .pending
      cases (s.op i).fut <;> nofun

/-- **`_dispatch_complete_safe`** hands the result to the loop, if that is not closed. -/
theorem told_schedule (hk : Kept s) (h : ∀ i, s.Told i (s.op i))
    (hen : Enabled s .schedule) (j : ℕ) :
    (Callback.next s .schedule).Told j ((Callback.next s .schedule).op j) := by
  obtain ⟨i, hhand, hasync, -⟩ := exists_of_calls hen
  have hop : s.hand.op = some i := by rw [hhand]; rfl
  have hhas : (s.op i).hasFuture = true := (h i).fresh.mpr (.inr hhand)
  have hcalled := ((hk.row i).hand hop).2
  have hfired := hk.hasFired_of_called hcalled
  dsimp only [Callback.next]
  rw [hhand]
  dsimp only
  unfold Op.dispatchCompleteSafe
  rw [if_pos hhas]
  refine told_called h ?_ ?_ hop ?_ ?_ ?_ <;> try rfl
  · nofun
  · refine ⟨(h i).resolved, fun rc hrc => ?_, fun hsync => ?_, ?_, nofun, fun _ _ => ?_⟩
    · cases hc : s.closed (s.op i).kind <;> rw [hc] at hrc
      · exact ⟨hfired, (Option.some.inj hrc).symm⟩
      · exact (h i).scheduled rc hrc
    · exact absurd hsync (of_decide_eq_false hasync)
    · exact ⟨nofun, fun hno => hno.elim (absurd hcalled) nofun⟩
    · cases hc : s.closed (s.op i).kind
      · exact .inr (.inl nofun)
      · exact .inr (.inr hc)

theorem told_next (hk : Kept s) (h : ∀ i, s.Told i (s.op i)) (hen : Enabled s a) (j : ℕ) :
    (Callback.next s a).Told j ((Callback.next s a).op j) := by
  have hstill : ∀ {s' : State}, s'.op = s.op → s'.called = s.called → s'.hand = s.hand →
      s'.loopClosed = s.loopClosed → s'.Told j (s'.op j) := by
    intro s' hop hcalled hhand hclosed
    rw [hop]
    exact (h j).step rfl rfl rfl rfl (fun hf => ⟨hf, rfl⟩) hcalled hhand
      fun hc => (closed_congr hclosed _).trans hc
  cases a with
  | prepareSubmit i | waited i | drop i =>
    apply told_same h <;> first | rfl | exact fun hf => ⟨hf, rfl⟩
  | submit i closed =>
    have hno : ¬ hasFired (s.op i).aio = true := by
      rw [(hk.row i).fits.idle (.inr (.inr hen))]
      nofun
    apply told_same h <;> first | rfl | exact fun hf => absurd hf hno
  | complete i rc =>
    have hmay : (s.op i).aio.MayEnd rc := hen
    have hno : ¬ hasFired (s.op i).aio = true := by
      cases haio : (s.op i).aio <;> rw [haio] at hmay <;> first | cases hmay | nofun
    apply told_same h <;> first | rfl | exact fun hf => absurd hf hno
  | fire i =>
    have hno : ¬ hasFired (s.op i).aio = true := by
      rw [not_fired_of_isCompleted hen]
      nofun
    apply told_same h <;> first | rfl | exact fun hf => absurd hf hno
  | fired i =>
    apply told_same h <;> first | rfl | exact fun _ => ⟨rfl, rfl⟩
  | pipeEvent p | pipeEventDone p | callStop | setStopped | getReady | isStopped | waitFor
  | drainPipes raises | free i => exact hstill rfl rfl rfl rfl
  | create i kind addr => exact told_create hk h hen j
  | popCallable => exact told_popCallable hk h hen j
  | test => exact told_test hk h hen j
  | set => exact told_set hk h hen j
  | schedule => exact told_schedule hk h hen j
  | deliver i =>
    obtain ⟨hne, hopen⟩ := hen
    dsimp only [Callback.next]
    cases hs : (s.op i).scheduled with
    | none => exact absurd hs hne
    | some rc =>
      obtain ⟨hfired, hresult⟩ := (h i).scheduled rc hs
      refine forall_setOp (P := fun j p => State.Told _ j p) ?_ (fun j _ => ?_) j
      · refine ⟨fun rc' hrc => ?_, nofun, fun _ => rfl, (h i).fresh, (h i).setting,
          fun _ _ => .inl ?_⟩
        · cases hf : (s.op i).fut <;> rw [hf] at hrc
          · exact ⟨hfired, (Fut.resolved.inj hrc).symm.trans hresult⟩
          · exact (h i).resolved rc' (hf.trans hrc)
          · cases hrc
        · show (s.op i).fut.set _ ≠ .pending
          cases (s.op i).fut <;> nofun
      · exact (h j).step rfl rfl rfl rfl (fun hf => ⟨hf, rfl⟩) rfl rfl id
  | closeLoop l =>
    refine (h j).step rfl rfl rfl rfl (fun hf => ⟨hf, rfl⟩) rfl rfl fun hc => ?_
    cases hkind : (s.op j).kind with
    | cbSync =>
      rw [hkind] at hc
      cases hc
    | cbASync m =>
      rw [hkind] at hc
      show Function.update s.loopClosed l true m = true
      by_cases hm : m = l
      · subst hm
        rw [Function.update_self]
      · rw [Function.update_of_ne hm]
        exact hc
  | interrupt i cancels =>
    refine forall_setOp (P := fun j p => State.Told _ j p) ?_ (fun j _ => ?_) j
    · refine ⟨fun rc hrc => (h i).resolved rc (resolved_of_cancel hrc), (h i).scheduled, (h i).sync,
        (h i).fresh, (h i).setting, fun hc hne => ((h i).settled hc hne).imp_left fun hf => ?_⟩
      exact pending_of_cancel.mt hf
    · exact (h j).step rfl rfl rfl rfl (fun hf => ⟨hf, rfl⟩) rfl rfl id

theorem told_of_reach (hs : callbacks.Reach s) (i : ℕ) : s.Told i (s.op i) := by
  induction hs generalizing i with
  | init =>
    exact ⟨nofun, nofun, fun _ => rfl, ⟨fun _ => .inl nofun, fun _ => rfl⟩, nofun, nofun⟩
  | step hs _ hen ih => exact told_next (kept_of_reach hs) ih hen i

/-! ## What it says of the futures -/

/-- With nothing in hand and nothing queued, every callable that is due was called. -/
theorem called_of_quiet (h : Kept s) (hqueue : s.disp.queue = []) (hhand : s.disp.loop.inHand = [])
    (hfired : hasFired (s.op i).aio = true) : i ∈ s.called := by
  have hlength := congrArg List.length h.accounted.split
  rw [hqueue, hhand, h.ids, List.length_map, List.append_nil, List.append_nil] at hlength
  have hall : s.fired.length ≤ s.taken := by
    unfold State.taken
    omega
  rw [h.mem_called_iff, List.take_of_length_le hall]
  have honce := (h.row i).once
  rw [if_pos hfired] at honce
  exact List.count_pos_iff.mp (by omega)

/-- **A future is told the result of its own aio and nothing else**, and where
the queue is empty and the dispatcher at rest, every operation whose aio is
done has told its future: the future is resolved or cancelled, or else it is
an asyncio one whose loop has the result scheduled, or was closed. -/
theorem futures_told (hs : callbacks.Reach s) (i : ℕ) :
    (∀ rc, (s.op i).fut = .resolved rc →
      hasFired (s.op i).aio = true ∧ rc = (s.op i).aio.result) ∧
    (s.disp.queue = [] → s.disp.loop.inHand = [] → hasFired (s.op i).aio = true →
      ((s.op i).fut = .resolved (s.op i).aio.result ∨ (s.op i).fut = .cancelled) ∨
        ∃ l, (s.op i).kind = .cbASync l ∧
          ((s.op i).scheduled = some (s.op i).aio.result ∨ s.loopClosed l = true)) := by
  have hk := kept_of_reach hs
  have h := told_of_reach hs i
  refine ⟨h.resolved, fun hqueue hhand hfired => ?_⟩
  have hcalled := called_of_quiet hk hqueue hhand hfired
  have hidle : s.hand.op ≠ some i := by
    intro hop
    rw [((hk.row i).hand hop).1] at hhand
    cases hhand
  rcases h.settled hcalled hidle with hfut | hsched | hclosed
  · left
    cases hf : (s.op i).fut with
    | pending => exact absurd hf hfut
    | resolved rc =>
      obtain ⟨-, rfl⟩ := h.resolved rc hf
      exact .inl rfl
    | cancelled => exact .inr rfl
  · right
    cases hkind : (s.op i).kind with
    | cbSync => exact absurd (h.sync hkind) hsched
    | cbASync l =>
      obtain ⟨rc, hrc⟩ := Option.ne_none_iff_exists'.mp hsched
      obtain ⟨-, rfl⟩ := h.scheduled rc hrc
      exact ⟨l, rfl, .inl hrc⟩
  · right
    cases hkind : (s.op i).kind with
    | cbSync =>
      rw [hkind] at hclosed
      cases hclosed
    | cbASync l =>
      rw [hkind] at hclosed
      exact ⟨l, rfl, .inr hclosed⟩

/-- A `submit_recv` whose future is cancelled while the dispatcher has its
callable, and an `arecv` that ends with an error. -/
def cancelledInTime : List Act :=
  received 0 ++ [.getReady, .popCallable, .test, .interrupt 0 true, .set, .fired 0, .waited 0,
    .create 1 (.cbASync 0) 16, .prepareSubmit 1, .submit 1 true, .complete 1 7, .fire 1, .getReady,
    .popCallable, .fired 1, .schedule, .deliver 1]

theorem futures_told_cancelled :
    ((callbacks.final callbacks.init cancelledInTime).op 0).fut = .cancelled ∧
      ((callbacks.final callbacks.init cancelledInTime).op 1).fut = .resolved 7 ∧
        7 = ((callbacks.final callbacks.init cancelledInTime).op 1).aio.result := by
  have hs : callbacks.Reach (callbacks.final callbacks.init cancelledInTime) :=
    Machine.reach_final (by decide)
  have hone : ((callbacks.final callbacks.init cancelledInTime).op 1).fut = .resolved 7 := by
    decide
  exact ⟨by decide, hone, ((futures_told hs 1).1 7 hone).2⟩

end Callback

end PyNng
