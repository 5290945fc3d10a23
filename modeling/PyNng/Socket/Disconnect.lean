import PyNng.Socket.Filter
import PyNng.Socket.UpdatePipes
/-!
# Socket — when `close_on_disconnect` hears of a disconnect

`_on_pipe_removed` is called for the pipes that `update_pipes` finds in the
list it replaces and not in the collection. A pipe that comes and goes
between two snapshots is in neither, so its end is not noticed.

A disconnect is kept in view when the pipe is in `_pipes`, or in the list a
call is about to assign, at the moment its `REM_POST` is handled; from
there it comes to a call that will run the hook. What else can lose or
delay it is a `BaseException` of a status callback, which ends the call
before its hooks, and another thread that has taken the removed pipe and
not yet run the hook when the dispatcher is through.
-/

namespace PyNng

namespace Socket

variable {σ : Type} {cfg : Config σ} {s s' : State σ} {p : ℕ}

/-! ## What keeps a disconnect in view -/

/-- The call has removed pipes to tell its hook of. -/
def Call.Reporting (call : Call) : Prop := call.pc.running = true ∧ call.removed ≠ []

/-- The run of `close` has begun to clear and not closed yet. -/
def ClosePc.clearing : ClosePc → Bool
  | .pipesCleared | .collectionCleared | .filterCleared | .unlocked | .entered | .noAddPre
  | .noAddPost | .noRemPost => true
  | _ => false

/-- **The pipe is in view**: in the list or in the one about to be assigned;
or else the socket is about to be closed anyway. -/
def InView (s : State σ) (p : ℕ) : Prop :=
  p ∈ s.ids ∨ (∃ t, (s.calls t).pc = .creating ∧ p ∈ (s.calls t).target) ∨
    (∃ t, (s.calls t).Reporting) ∨ ∃ c, (s.closing c).pc.clearing = true

/-- No call but the dispatcher's has a hook to run, and no `close` is under way. -/
def DispatcherAlone (s : State σ) : Prop :=
  (∀ t, t ≠ 0 → ¬ (s.calls t).Reporting) ∧ ∀ c, (s.closing c).pc.clearing = false

/-- The step ends the dispatcher's call. -/
def EndsDispatch (s : State σ) : Act → Prop
  | .ret t => t = 0
  | .check t => t = 0 ∧ s.coll.flag = false
  | .status t o => t = 0 ∧ o = .raisesBase
  | .announce t o => t = 0 ∧ o = .raisesBase
  | _ => False

/-- **The disconnect is observed.** -/
structure Observed (s : State σ) (a : Act) : Prop where
  /-- An active pipe is in view when its `REM_POST` is handled. -/
  inView : ∀ p, a = .event p .remPost → s.notify .remPost = true → s.active p = true →
    s.isOpen = true → InView s p
  /-- No status callback ends a call before its hooks. -/
  hooks : ∀ t, a = .status t .raisesBase → (s.calls t).removed = []
  /-- The dispatcher is through only when no other thread is about to close the socket. -/
  alone : EndsDispatch s a → DispatcherAlone s

/-! ## The invariant -/

/-- What was active and is gone is in view while the socket is open. -/
structure Traced (s : State σ) : Prop where
  gone : ∀ p, s.removed p = true → s.stage p = .gone
  finished : ∀ c, (s.closing c).pc = .closed ∨ (s.closing c).pc = .done → s.isOpen = false
  begun : s.closeBegun = true → s.isOpen = true → ∃ c, (s.closing c).pc.clearing = true
  inView : s.isOpen = true → ∀ p, s.active p = true → s.removed p = true → InView s p

/-- What is in view stays in view: the list is the same, and calls and runs
of `close` go on with what they have in hand. -/
structure KeepsView (s s' : State σ) : Prop where
  pipes : s'.pipes = s.pipes
  creating : ∀ t, (s.calls t).pc = .creating →
    (s'.calls t).pc = .creating ∧ (s'.calls t).target = (s.calls t).target
  reporting : ∀ t, (s.calls t).Reporting → (s'.calls t).Reporting
  clearing : ∀ c, (s.closing c).pc.clearing = true → (s'.closing c).pc.clearing = true

theorem InView.mono (h : InView s p) (hk : KeepsView s s') : InView s' p := by
  rcases h with h | ⟨t, ht, hp⟩ | ⟨t, ht⟩ | ⟨c, hc⟩
  · exact Or.inl (by rw [State.ids, hk.pipes]; exact h)
  · obtain ⟨hpc, htarget⟩ := hk.creating t ht
    exact Or.inr (Or.inl ⟨t, hpc, by rw [htarget]; exact hp⟩)
  · exact Or.inr (Or.inr (Or.inl ⟨t, hk.reporting t ht⟩))
  · exact Or.inr (Or.inr (Or.inr ⟨c, hk.clearing c hc⟩))

/-- The socket, nng's side and the history of the events are the same. -/
structure SameSocket (s s' : State σ) : Prop where
  stage : s'.stage = s.stage
  isOpen : s'.isOpen = s.isOpen
  active : s'.active = s.active
  removed : s'.removed = s.removed
  closeBegun : s'.closeBegun = s.closeBegun

theorem Traced.of_keepsView (h : Traced s) (hs : SameSocket s s') (hk : KeepsView s s')
    (hover : ∀ c, (s'.closing c).pc = .closed ∨ (s'.closing c).pc = .done → s'.isOpen = false) :
    Traced s' where
  gone := by rw [hs.removed, hs.stage]; exact h.gone
  finished := hover
  begun := fun hb ho => by
    rw [hs.closeBegun] at hb
    rw [hs.isOpen] at ho
    obtain ⟨c, hc⟩ := h.begun hb ho
    exact ⟨c, hk.clearing c hc⟩
  inView := fun ho p ha hr => by
    rw [hs.isOpen] at ho
    rw [hs.active] at ha
    rw [hs.removed] at hr
    exact (h.inView ho p ha hr).mono hk

theorem keepsView_setCall {t : ℕ} {call : Call} (hpipes : s'.pipes = s.pipes)
    (hcalls : s'.calls = s.calls)
    (hclearing : ∀ c, (s.closing c).pc.clearing = true → (s'.closing c).pc.clearing = true)
    (hcreating : (s.calls t).pc = .creating →
      call.pc = .creating ∧ call.target = (s.calls t).target)
    (hreporting : (s.calls t).Reporting → call.Reporting) :
    KeepsView s (State.setCall t call s') := by
  refine ⟨hpipes, fun u hu => ?_, fun u hu => ?_, hclearing⟩
  · by_cases hut : u = t
    · subst hut; simpa [State.setCall] using hcreating hu
    · simpa [State.setCall, hut, hcalls] using hu
  · by_cases hut : u = t
    · subst hut; simpa [State.setCall] using hreporting hu
    · simpa [State.setCall, hut, hcalls] using hu

/-- A call moves. -/
theorem Traced.setCall (h : Traced s) {t : ℕ} {call : Call} (hs : SameSocket s s')
    (hpipes : s'.pipes = s.pipes) (hcalls : s'.calls = s.calls)
    (hclosing : s'.closing = s.closing)
    (hcreating : (s.calls t).pc = .creating →
      call.pc = .creating ∧ call.target = (s.calls t).target)
    (hreporting : (s.calls t).Reporting → call.Reporting) :
    Traced (State.setCall t call s') := by
  refine h.of_keepsView ⟨hs.stage, hs.isOpen, hs.active, hs.removed, hs.closeBegun⟩
    (keepsView_setCall hpipes hcalls (fun c hc => by rw [hclosing]; exact hc) hcreating hreporting)
    fun c hc => ?_
  simp only [State.setCall, hclosing] at hc ⊢
  rw [hs.isOpen]
  exact h.finished c hc

/-- **An event.** A pipe that becomes active has not been removed, and one
that is removed is in view. -/
theorem Traced.event (h : Traced s) {ev : PipeEv} (hen : Delivers s p ev)
    (hok : Observed s (.event p ev)) : Traced (next cfg s (.event p ev)) := by
  have hgone : ∀ q, s.removed q = true → q ≠ p := by
    rintro q hq rfl
    have hst := h.gone q hq
    cases ev <;> simp [Delivers, hst] at hen
  cases hn : s.notify ev with
  | false =>
    rw [next_event_of_not_notify hn]
    refine ⟨fun q hq => ?_, h.finished, h.begun, fun ho q ha hr => (h.inView ho q ha hr).mono ?_⟩
    · simp only [Function.update_of_ne (hgone q hq)]; exact h.gone q hq
    · exact ⟨rfl, fun t ht => ⟨ht, rfl⟩, fun t ht => ht, fun c hc => hc⟩
  | true =>
    rw [next_event_of_notify hn]
    have hk : KeepsView s (handle cfg s p ev) :=
      ⟨rfl, fun t ht => ⟨ht, rfl⟩, fun t ht => ht, fun c hc => hc⟩
    refine ⟨fun q hq => ?_, h.finished, h.begun, fun ho q ha hr => ?_⟩
    · simp only [handle] at hq ⊢
      by_cases hqp : q = p
      · subst hqp
        rw [Function.update_self, Bool.or_eq_true, decide_eq_true_eq] at hq
        rcases hq with hq | rfl
        · exact absurd rfl (hgone q hq)
        · simp [stageAfter]
      · rw [Function.update_of_ne hqp] at hq ⊢
        exact h.gone q hq
    · by_cases hqp : q = p
      · subst hqp
        simp only [handle, Function.update_self, Bool.or_eq_true, decide_eq_true_eq] at ha hr
        rcases hr with hr | rfl
        · exact absurd rfl (hgone q hr)
        · rcases ha with ha | ha
          · exact (hok.inView q rfl hn ha ho).mono hk
          · cases ha
      · simp only [handle, Function.update_of_ne hqp] at ha hr
        exact (h.inView ho q ha hr).mono hk

/-- **The assignment.** A pipe that drops out of the list is reported. -/
theorem Traced.assign (h : Traced s) (hl : Locked s) (hm : s.closeBegun = false → Mirrored s)
    {t : ℕ} (hpc : (s.calls t).pc = .creating) (hdone : (s.calls t).handles = []) :
    Traced (next cfg s (.assign t)) := by
  have hin : (s.calls t).pc.holds = true := by rw [hpc]; rfl
  refine ⟨h.gone, h.finished, h.begun, fun ho q ha hr => ?_⟩
  have hids : (next cfg s (.assign t)).ids = (s.calls t).target := by
    simp [next, State.ids, State.setCall, Call.target, Call.newIds, hdone]
  have hother : ∀ u, u ≠ t → (next cfg s (.assign t)).calls u = s.calls u := fun u hut => by
    simp [next, State.setCall, hut]
  rcases h.inView ho q ha hr with hq | ⟨u, hu, hq⟩ | ⟨u, hu⟩ | hc
  · cases hcb : s.closeBegun with
    | true =>
      -- the mirror is gone, but the run that broke it is about to close
      obtain ⟨c, hc⟩ := h.begun hcb ho
      exact Or.inr (Or.inr (Or.inr ⟨c, hc⟩))
    | false =>
      have hprev := ((hm hcb).building t hpc).prev
      by_cases hqt : q ∈ (s.calls t).target
      · exact Or.inl (by rw [hids]; exact hqt)
      · obtain ⟨x, hx, rfl⟩ := List.mem_map.mp hq
        refine Or.inr (Or.inr (Or.inl ⟨t, ?_, ?_⟩))
        · simp [next, State.setCall, CallPc.running]
        · simp only [next, State.setCall, Function.update_self, hprev]
          refine List.ne_nil_of_mem (List.mem_filter.mpr ⟨hx, ?_⟩)
          have hstill : x ∉ (s.calls t).still := fun hstill =>
            hqt (List.mem_append_left _ (List.mem_map_of_mem hstill))
          simpa using hstill
  · obtain rfl := hl.eq_of_creating hin hu
    exact Or.inl (by rw [hids]; exact hq)
  · -- a call that is creating has nothing to report yet
    have hut : u ≠ t := by
      rintro rfl
      have hrun := hu.1
      rw [hpc] at hrun
      cases hrun
    exact Or.inr (Or.inr (Or.inl ⟨u, by rw [hother u hut]; exact hu⟩))
  · exact Or.inr (Or.inr (Or.inr hc))

/-- A run of `close` moves on, clearing or not yet begun. -/
theorem Traced.setClosing (h : Traced s) {c : Closer} {run : CloseRun} (hs : SameSocket s s')
    (hpipes : s'.pipes = s.pipes) (hcalls : s'.calls = s.calls)
    (hclosing : s'.closing = s.closing)
    (hclearing : (s.closing c).pc.clearing = true → run.pc.clearing = true)
    (hover : run.pc = .closed ∨ run.pc = .done → s.isOpen = false) :
    Traced (State.setClosing c run s') := by
  refine h.of_keepsView ⟨hs.stage, hs.isOpen, hs.active, hs.removed, hs.closeBegun⟩
    ⟨hpipes, fun t ht => ?_, fun t ht => ?_, fun d hd => ?_⟩ fun d hd => ?_
  · simpa [State.setClosing, hcalls] using ht
  · simpa [State.setClosing, hcalls] using ht
  · by_cases hdc : d = c
    · subst hdc; simpa [State.setClosing] using hclearing hd
    · simpa [State.setClosing, hdc, hclosing] using hd
  · rw [show (State.setClosing c run s').isOpen = s'.isOpen from rfl, hs.isOpen]
    by_cases hdc : d = c
    · subst hdc
      simp only [State.setClosing, Function.update_self] at hd
      exact hover hd
    · simp only [State.setClosing, Function.update_of_ne hdc, hclosing] at hd
      exact h.finished d hd

/-- **A step of `close`** keeps the disconnects in view until it has closed. -/
theorem Traced.closeStep (h : Traced s) (c : Closer) : Traced (closeStep s c) := by
  have hsame : SameSocket s s := ⟨rfl, rfl, rfl, rfl, rfl⟩
  cases hpc : (s.closing c).pc with
  | locked =>
    simp only [Socket.closeStep, hpc]
    split
    · -- from here on the run itself keeps them in view
      rename_i hopen
      refine ⟨h.gone, fun d hd => ?_, fun _ _ => ⟨c, by simp [State.setClosing, ClosePc.clearing]⟩,
        fun _ _ _ _ => Or.inr (Or.inr (Or.inr ⟨c, by simp [State.setClosing, ClosePc.clearing]⟩))⟩
      by_cases hdc : d = c
      · subst hdc; simp [State.setClosing] at hd
      · simp only [State.setClosing, Function.update_of_ne hdc] at hd
        exact h.finished d hd
    · rename_i hclosed
      exact h.setClosing ⟨rfl, rfl, rfl, rfl, rfl⟩ rfl rfl rfl (by simp [hpc, ClosePc.clearing])
        fun _ => by simpa using hclosed
  | unlocked =>
    simp only [Socket.closeStep, hpc]
    by_cases hopen : s.isOpen = true
    · simp only [hopen, if_true]
      exact h.setClosing hsame rfl rfl rfl (fun _ => rfl) (by simp)
    · -- another run has closed the socket
      have hclosed : s.isOpen = false := by simpa using hopen
      refine ⟨h.gone, fun _ _ => hclosed, fun _ ho => ?_, fun ho => ?_⟩ <;>
      · rw [show (State.setClosing c _ s).isOpen = s.isOpen from rfl, hclosed] at ho
        cases ho
  | noRemPost =>
    simp only [Socket.closeStep, hpc]
    exact ⟨h.gone, fun _ _ => rfl, fun _ ho => Bool.noConfusion ho,
      fun ho => Bool.noConfusion ho⟩
  | closed =>
    have hclosed : s.isOpen = false := h.finished c (Or.inl hpc)
    simp only [Socket.closeStep, hpc]
    split
    · exact h.setClosing hsame rfl rfl rfl (by simp [hpc, ClosePc.clearing]) fun _ => hclosed
    · exact h.setClosing hsame rfl rfl rfl (by simp [hpc, ClosePc.clearing]) fun _ => hclosed
    · exact h.setClosing ⟨rfl, rfl, rfl, rfl, rfl⟩ rfl rfl rfl
        (by simp [hpc, ClosePc.clearing]) fun _ => hclosed
  | done => simpa only [Socket.closeStep, hpc] using h
  | idle =>
    simp only [Socket.closeStep, hpc]
    exact h.setClosing hsame rfl rfl rfl (by simp [hpc, ClosePc.clearing]) (by simp)
  | locking =>
    simp only [Socket.closeStep, hpc]
    exact h.setClosing ⟨rfl, rfl, rfl, rfl, rfl⟩ rfl rfl rfl (by simp [hpc, ClosePc.clearing])
      (by simp)
  | _ =>
    simp only [Socket.closeStep, hpc]
    exact h.setClosing ⟨rfl, rfl, rfl, rfl, rfl⟩ rfl rfl rfl (fun _ => rfl) (by simp)

/-- **The hook is over**, and the socket closed. -/
theorem Traced.hookDone (h : Traced s) {t : ℕ} (hdone : (s.closing (.hook t)).pc = .done) :
    Traced (next cfg s (.hookDone t)) := by
  have hclosed : s.isOpen = false := h.finished _ (Or.inr hdone)
  refine ⟨h.gone, fun _ _ => hclosed, fun _ ho => ?_, fun ho => ?_⟩ <;>
  · rw [show (next cfg s (.hookDone t)).isOpen = s.isOpen from rfl, hclosed] at ho
    cases ho

/-- The hook begins. -/
theorem Traced.hook (h : Traced s) (hh : HooksIdle s) {t : ℕ} (hcfg : cfg.closeOnDisconnect = true)
    (hpc : (s.calls t).pc = .calling) : Traced (next cfg s (.hook t)) := by
  have hidle := hh t (by simp [hpc])
  simp only [next, hcfg, if_true]
  have hsame : SameSocket s s := ⟨rfl, rfl, rfl, rfl, rfl⟩
  refine (h.setClosing hsame rfl rfl rfl
    (by simp [hidle, ClosePc.clearing]) (by simp)).setCall ⟨rfl, rfl, rfl, rfl, rfl⟩ rfl rfl rfl
    (fun hc => ?_) fun hr => ⟨rfl, hr.2⟩
  simp only [State.setClosing, hpc] at hc
  cases hc

theorem Traced.next (h : Traced s) (hcfg : cfg.closeOnDisconnect = true) (hl : Locked s)
    (hh : HooksIdle s) (hm : s.closeBegun = false → Mirrored s) {a : Act} (hok : Observed s a)
    (hen : Enabled s a) : Traced (Socket.next cfg s a) := by
  have hsame : SameSocket s s := ⟨rfl, rfl, rfl, rfl, rfl⟩
  have hkeep : KeepsView s s := ⟨rfl, fun t ht => ⟨ht, rfl⟩, fun t ht => ht, fun c hc => hc⟩
  cases a with
  | event p ev => exact h.event hen hok
  | assign t => exact h.assign hl hm hen.1 hen.2
  | hook t => exact h.hook hh hcfg hen.1
  | hookDone t => exact h.hookDone hen.2
  | close c => exact h.closeStep c
  | enter t =>
    have hpc := CanEnter.resting hen
    refine h.setCall ⟨rfl, rfl, rfl, rfl, rfl⟩ rfl rfl rfl (fun hc => ?_) fun hr => ?_
    · rcases hpc with hpc | hpc | hpc <;> rw [hpc] at hc <;> cases hc
    · have hrun := hr.1
      rcases hpc with hpc | hpc | hpc <;> rw [hpc] at hrun <;> cases hrun
  | acquire t =>
    exact h.setCall ⟨rfl, rfl, rfl, rfl, rfl⟩ rfl rfl rfl (fun hc => by rw [hen.1] at hc; cases hc)
      fun hr => by have hrun := hr.1; rw [hen.1] at hrun; cases hrun
  | check t =>
    have hpc : (s.calls t).pc = .checking := hen
    simp only [Socket.next]
    split <;> exact h.setCall ⟨rfl, rfl, rfl, rfl, rfl⟩ rfl rfl rfl
      (fun hc => by rw [hpc] at hc; cases hc)
      fun hr => by have hrun := hr.1; rw [hpc] at hrun; cases hrun
  | snapshot t =>
    have hpc : (s.calls t).pc = .snapshotting := hen
    exact h.setCall hsame rfl rfl rfl (fun hc => by rw [hpc] at hc; cases hc)
      fun hr => by have hrun := hr.1; rw [hpc] at hrun; cases hrun
  | create t =>
    cases hhd : (s.calls t).handles with
    | nil => exact absurd hhd hen.2
    | cons x xs =>
      simp only [Socket.next, hhd]
      refine h.setCall ⟨rfl, rfl, rfl, rfl, rfl⟩ rfl rfl rfl (fun hc => ⟨hc, ?_⟩) fun hr => hr
      simp [Call.target, Call.newIds, hhd, Pipe.id]
  | sample t =>
    exact h.setCall hsame rfl rfl rfl (fun hc => by rw [hen.1] at hc; cases hc) fun hr => hr
  | read t =>
    simp only [Socket.next]
    split
    · exact h.setCall ⟨rfl, rfl, rfl, rfl, rfl⟩ rfl rfl rfl
        (fun hc => by rw [hen.1] at hc; cases hc) fun hr => hr
    · exact h
  | unlock t =>
    exact h.setCall ⟨rfl, rfl, rfl, rfl, rfl⟩ rfl rfl rfl
      (fun hc => by rw [hen.1] at hc; cases hc) fun hr => ⟨rfl, hr.2⟩
  | status t o =>
    refine h.setCall ⟨rfl, rfl, rfl, rfl, rfl⟩ rfl rfl rfl
      (fun hc => by rw [hen.1] at hc; cases hc) fun hr => ⟨?_, hr.2⟩
    cases o with
    | raisesBase => exact absurd (hok.hooks t rfl) hr.2
    | _ => rfl
  | announce t o =>
    exact h.setCall ⟨rfl, rfl, rfl, rfl, rfl⟩ rfl rfl rfl
      (fun hc => by rw [hen.1] at hc; cases hc) fun hr => absurd hen.2.2.1 hr.2
  | ret t =>
    exact h.setCall hsame rfl rfl rfl (fun hc => by rw [hen.1] at hc; cases hc)
      fun hr => absurd hen.2.2.1 hr.2
  | _ => exact h.of_keepsView ⟨rfl, rfl, rfl, rfl, rfl⟩ ⟨hkeep.pipes, hkeep.creating,
      hkeep.reporting, hkeep.clearing⟩ h.finished

theorem traced_init (cfg : Config σ) : Traced (socket cfg).init where
  gone := fun _ hr => Bool.noConfusion hr
  finished := fun _ hc => by rcases hc with hc | hc <;> cases hc
  begun := fun hb => Bool.noConfusion hb
  inView := fun _ _ ha => Bool.noConfusion ha

theorem traced_of_reachWhen (hcfg : cfg.closeOnDisconnect = true)
    (h : (socket cfg).ReachWhen Observed s) : Traced s :=
  h.invariant (traced_init cfg) fun _ _ hr hs hok hen =>
    hs.next hcfg (locked_of_reach hr.reach) (hooksIdle_of_reach hr.reach)
      (mirrored_of_reach hr.reach) hok hen

/-! ## The socket is closed once the sentinels are processed -/

/-- The dispatcher is not inside a call. -/
def CallPc.resting : CallPc → Bool
  | .idle | .returned | .raised => true
  | _ => false

/-- Every sentinel pushed so far has been processed. -/
def Processed (s : State σ) : Prop :=
  s.inFlight = 0 ∧ s.sentinels = 0 ∧ (s.calls 0).pc.resting = true

theorem processed_of_setCall {t : ℕ} {call : Call} (hfly : s'.inFlight = s.inFlight)
    (hsent : s'.sentinels = s.sentinels) (hcalls : s'.calls = s.calls)
    (hpc : t = 0 → call.pc.resting = false) (h : Processed (State.setCall t call s')) :
    Processed s := by
  obtain ⟨h1, h2, h3⟩ := h
  refine ⟨hfly ▸ h1, hsent ▸ h2, ?_⟩
  by_cases ht : t = 0
  · subst ht
    simp only [State.setCall, Function.update_self, hpc rfl] at h3
    cases h3
  · simpa only [State.setCall, Function.update_of_ne (Ne.symm ht), hcalls] using h3

/-- Unless a step is an event or ends the dispatcher's call, it processes nothing. -/
theorem processed_of_next {a : Act} (hev : ∀ p ev, a ≠ .event p ev) (hen : Enabled s a)
    (hends : ¬ EndsDispatch s a) (h : Processed (next cfg s a)) : Processed s := by
  cases a with
  | event p ev => exact absurd rfl (hev p ev)
  | push => exact absurd h.2.1 (Nat.succ_ne_zero _)
  | otherPush => exact absurd h.2.1 (Nat.succ_ne_zero _)
  | enter t =>
    by_cases ht : t = 0
    · have hpc := h.2.2
      simp [ht, next, State.setCall, Call.start, CallPc.resting] at hpc
    · simp only [next, if_neg ht] at h
      exact processed_of_setCall rfl rfl rfl (fun h0 => absurd h0 ht) h
  | acquire t => exact processed_of_setCall rfl rfl rfl (fun _ => rfl) h
  | check t =>
    simp only [next] at h
    split at h
    · exact processed_of_setCall rfl rfl rfl (fun _ => rfl) h
    · rename_i hflag
      refine processed_of_setCall rfl rfl rfl (fun ht => absurd ⟨ht, ?_⟩ hends) h
      simpa using hflag
  | snapshot t => exact processed_of_setCall rfl rfl rfl (fun _ => rfl) h
  | create t =>
    simp only [next] at h
    split at h
    · exact h
    · exact processed_of_setCall rfl rfl rfl (fun _ => by simp [hen.1, CallPc.resting]) h
  | assign t => exact processed_of_setCall rfl rfl rfl (fun _ => rfl) h
  | sample t =>
    exact processed_of_setCall rfl rfl rfl (fun _ => by simp [hen.1, CallPc.resting]) h
  | read t =>
    simp only [next] at h
    split at h
    · exact processed_of_setCall (s := s) rfl rfl rfl
        (fun _ => by simp [hen.1, CallPc.resting]) h
    · exact h
  | unlock t => exact processed_of_setCall rfl rfl rfl (fun _ => rfl) h
  | status t o =>
    refine processed_of_setCall rfl rfl rfl (fun ht => ?_) h
    cases o with
    | raisesBase => exact absurd ⟨ht, rfl⟩ hends
    | _ => rfl
  | hook t =>
    simp only [next] at h
    split at h
    · exact processed_of_setCall (s := s) rfl rfl rfl (fun _ => rfl) h
    · exact processed_of_setCall rfl rfl rfl (fun _ => by simp [hen.1, CallPc.resting]) h
  | hookDone t => exact processed_of_setCall (s := s) rfl rfl rfl (fun _ => rfl) h
  | announce t o =>
    refine processed_of_setCall rfl rfl rfl (fun ht => ?_) h
    cases o with
    | raisesBase => exact absurd ⟨ht, rfl⟩ hends
    | _ => rfl
  | ret t => exact processed_of_setCall rfl rfl rfl (fun ht => absurd ht hends) h
  | close c =>
    cases hpc : (s.closing c).pc <;> simp only [next, closeStep, hpc] at h
    case locked => split at h <;> exact h
    case closed => split at h <;> exact h
    all_goals exact h
  | _ => exact h

/-- What ends the dispatcher's call pushes nothing. -/
theorem counts_of_ends (cfg : Config σ) {a : Act} (h : EndsDispatch s a) :
    (next cfg s a).inFlight = s.inFlight ∧ (next cfg s a).sentinels = s.sentinels := by
  cases a with
  | check t => simp only [next]; split <;> exact ⟨rfl, rfl⟩
  | status t o => exact ⟨rfl, rfl⟩
  | announce t o => exact ⟨rfl, rfl⟩
  | ret t => exact ⟨rfl, rfl⟩
  | _ => exact h.elim

/-- One step of `close` alone changes whether the socket is open: it closes it. -/
theorem isOpen_next (cfg : Config σ) (s : State σ) (a : Act) :
    (next cfg s a).isOpen = s.isOpen ∨
      (∃ c, a = .close c ∧ (s.closing c).pc = .noRemPost) ∧ (next cfg s a).isOpen = false := by
  cases a with
  | event p ev => simp only [next]; split <;> exact Or.inl rfl
  | check t => simp only [next]; split <;> exact Or.inl rfl
  | create t => simp only [next]; split <;> exact Or.inl rfl
  | read t => simp only [next]; split <;> exact Or.inl rfl
  | hook t => simp only [next]; split <;> exact Or.inl rfl
  | close c =>
    cases hpc : (s.closing c).pc <;> simp only [next, closeStep, hpc]
    case noRemPost => exact Or.inr ⟨⟨c, rfl, hpc⟩, rfl⟩
    case locked => split <;> exact Or.inl rfl
    case closed => split <;> exact Or.inl rfl
    case done => exact Or.inl trivial
    all_goals exact Or.inl rfl
  | _ => exact Or.inl rfl

theorem isOpen_of_next {a : Act} (h : (next cfg s a).isOpen = true) : s.isOpen = true := by
  rcases isOpen_next cfg s a with hsame | ⟨-, hclosed⟩
  · rw [← hsame]; exact h
  · rw [h] at hclosed
    cases hclosed

/-- **The dispatcher is not through with a disconnect in view.** When its
call ends with no sentinel left, the list is the collection, nobody is
building another, and nobody else is about to close. -/
theorem not_inView_of_ends {a : Act} (h : Traced s) (hw : s.closeBegun = false → Woken s)
    (hm : s.closeBegun = false → Mirrored s) (hok : Observed s a) (hen : Enabled s a)
    (hends : EndsDispatch s a) (hfly : s.inFlight = 0) (hsent : s.sentinels = 0)
    (hopen : s.isOpen = true) (hrem : s.removed p = true) : ¬ InView s p := by
  obtain ⟨hothers, hclosers⟩ := hok.alone hends
  have hcb : s.closeBegun = false := by
    by_contra hcb
    obtain ⟨c, hc⟩ := h.begun (by simpa using hcb) hopen
    rw [hclosers c] at hc
    cases hc
  -- the dispatcher stands before the flag, which is down, or among its callbacks
  have hat : (s.calls 0).pc = .checking ∧ s.coll.flag = false ∨
      (s.calls 0).pc = .calling ∧ (s.calls 0).removed = [] := by
    cases a with
    | check t => obtain ⟨rfl, hflag⟩ := hends; exact Or.inl ⟨hen, hflag⟩
    | status t o => obtain ⟨rfl, rfl⟩ := hends; exact Or.inr ⟨hen.1, hok.hooks 0 rfl⟩
    | announce t o => obtain ⟨rfl, rfl⟩ := hends; exact Or.inr ⟨hen.1, hen.2.2.1⟩
    | ret t => obtain rfl : t = 0 := hends; exact Or.inr ⟨hen.1, hen.2.2.1⟩
    | _ => exact hends.elim
  have hout : ¬ Outstanding s := by
    rintro (ho | ho | ho)
    · omega
    · omega
    · rcases hat with ⟨hpc, -⟩ | ⟨hpc, -⟩ <;> rw [hpc] at ho <;> cases ho
  have hdirty : ∀ t, (s.calls t).pc.dirty = false := by
    intro t
    by_cases ht : t = 0
    · rw [ht]; rcases hat with ⟨hpc, -⟩ | ⟨hpc, -⟩ <;> rw [hpc] <;> rfl
    · by_contra hd
      exact hout ((hw hcb).dirty t ht (by simpa using hd))
  have hflag : s.coll.flag = false := by
    rcases hat with ⟨-, hflag⟩ | ⟨hpc, -⟩
    · exact hflag
    · by_contra hf
      rcases (hw hcb).flag (by simpa using hf) with ho | ho
      · exact hout ho
      · rw [hpc] at ho; cases ho
  rintro (hp | ⟨t, ht, -⟩ | ⟨t, ht⟩ | ⟨c, hc⟩)
  · rw [(hm hcb).clean hflag hdirty, (hm hcb).live, h.gone p hrem] at hp
    rcases hp with hp | hp <;> cases hp
  · have hd := hdirty t
    rw [ht] at hd
    cases hd
  · by_cases ht0 : t = 0
    · rw [ht0] at ht
      rcases hat with ⟨hpc, -⟩ | ⟨-, hnone⟩
      · have hrun := ht.1
        rw [hpc] at hrun
        cases hrun
      · exact ht.2 hnone
    · exact hothers t ht0 ht
  · rw [hclosers c] at hc
    cases hc

/-- **`close_on_disconnect` closes the socket.** In every state in which
every sentinel pushed so far is processed, a pipe that was active and is
gone has had the socket closed: along every run that observes its
disconnects. -/
theorem closed_of_disconnect (hcfg : cfg.closeOnDisconnect = true)
    (h : (socket cfg).ReachWhen Observed s) (p : ℕ) (hact : s.active p = true)
    (hrem : s.removed p = true) (hproc : Processed s) : s.isOpen = false := by
  induction h with
  | init => exact Bool.noConfusion hact
  | @step s a hr hok hen ih =>
    by_contra hclosed
    have hopen : s.isOpen = true :=
      isOpen_of_next (a := a) (Bool.not_eq_false _ ▸ hclosed)
    by_cases hev : ∃ q ev, a = .event q ev
    · -- an event that is heard leaves a sentinel in flight
      obtain ⟨q, ev, rfl⟩ := hev
      cases hn : s.notify ev with
      | true =>
        have hfly : (handle cfg s q ev).inFlight = 0 := by
          rw [← next_event_of_notify hn]; exact hproc.1
        exact absurd hfly (Nat.succ_ne_zero _)
      | false =>
        have hsame : (socket cfg).next s (.event q ev) = _ := next_event_of_not_notify hn
        rw [hsame] at hact hrem hproc
        rw [ih hact hrem hproc] at hopen
        cases hopen
    · have hne : ∀ q ev, a ≠ .event q ev := fun q ev hq => hev ⟨q, ev, hq⟩
      have hno : NothingIn s (next cfg s a) := nothingIn_next hne
      have hact' : s.active p = true := by rw [← hno.active]; exact hact
      have hrem' : s.removed p = true := by rw [← hno.removed]; exact hrem
      by_cases hends : EndsDispatch s a
      · obtain ⟨hfly, hsent⟩ := counts_of_ends cfg hends
        have ht := traced_of_reachWhen hcfg hr
        exact not_inView_of_ends ht (woken_of_reach hr.reach) (mirrored_of_reach hr.reach) hok hen
          hends (hfly ▸ hproc.1) (hsent ▸ hproc.2.1) hopen hrem' (ht.inView hopen p hact' hrem')
      · rw [ih hact' hrem' (processed_of_next hne hen hends hproc)] at hopen
        cases hopen

/-! ## A disconnect heard, and one unheard -/

/-- A `PairSocket` with `close_on_disconnect` set. -/
def pairSocket : Config Unit where
  nng := fun _ => { peerAddr := .other 1, peerPid := -1, dialer := 0, listener := 1 }
  filter := none
  objects := ()
  onNewPipe := false
  closeOnDisconnect := true

/-- Steps that are observed at a glance: the list has the pipe that goes,
and the dispatcher's call goes on. -/
def ObservedAtSight (s : State σ) : Act → Bool
  | .event p .remPost => decide (p ∈ s.ids)
  | .status _ .raisesBase | .announce 0 .raisesBase | .ret 0 => false
  | .check 0 => s.coll.flag
  | _ => true

theorem observed_at_sight {a : Act} (h : ObservedAtSight s a = true) : Observed s a where
  inView := by rintro p rfl - - -; exact Or.inl (by simpa [ObservedAtSight] using h)
  hooks := by rintro t rfl; cases h
  alone := fun hends => by
    cases a with
    | check t => obtain ⟨rfl, hflag⟩ := hends; rw [ObservedAtSight, hflag] at h; cases h
    | status t o => obtain ⟨rfl, rfl⟩ := hends; cases h
    | announce t o => obtain ⟨rfl, rfl⟩ := hends; cases h
    | ret t => obtain rfl : t = 0 := hends; cases h
    | _ => exact hends.elim

/-- The dispatcher is alone where nobody else has done anything. -/
theorem observed_alone {a : Act} (hev : ∀ p, a ≠ .event p .remPost)
    (hst : ∀ t, a ≠ .status t .raisesBase) (hcalls : ∀ t, (s.calls (t + 1)).pc = .idle)
    (huser : ∀ n, (s.closing (.user n)).pc = .idle)
    (hhook : ∀ t, (s.closing (.hook t)).pc = .idle) : Observed s a where
  inView := fun p hp => absurd hp (hev p)
  hooks := fun t ht => absurd ht (hst t)
  alone := fun _ => by
    refine ⟨fun t ht hr => ?_, fun c => ?_⟩
    · obtain ⟨u, rfl⟩ := Nat.exists_eq_succ_of_ne_zero ht
      have hrun := hr.1
      rw [hcalls u] at hrun
      cases hrun
    · cases c with
      | user n => rw [huser n]; rfl
      | hook t => rw [hhook t]; rfl

/-- A pipe comes up and the dispatcher sees it. -/
def comesUp : List Act :=
  [.event 1 .addPre, .push, .enter 0, .acquire 0, .check 0, .snapshot 0, .create 0, .assign 0,
    .unlock 0]

/-- It goes, and the hook closes the socket. -/
def goesDown : List Act :=
  [.event 1 .addPost, .event 1 .remPost, .push, .push, .enter 0, .acquire 0, .check 0,
    .snapshot 0, .assign 0, .sample 0, .read 0, .unlock 0, .hook 0] ++
    List.replicate 11 (.close (.hook 0)) ++ [.hookDone 0]

/-- The dispatcher finds what the hook has cleared. -/
def looksAgain : List Act :=
  [.enter 0, .acquire 0, .check 0, .snapshot 0, .assign 0, .unlock 0]

/-- The pipe is in the list when it goes, so the socket is closed. -/
theorem closed_of_disconnect_seen :
    ((socket pairSocket).final (socket pairSocket).init
      (comesUp ++ [.ret 0] ++ goesDown ++ [.ret 0] ++ looksAgain ++ [.ret 0])).isOpen = false := by
  refine closed_of_disconnect rfl (Machine.reachWhen_final (by decide) ?_) 1
    (by decide) (by decide) ⟨by decide, by decide, by decide⟩
  have hsight : ∀ {s : State Unit} {as : List Act},
      (socket pairSocket).Meets (fun s a => ObservedAtSight s a = true) s as →
        (socket pairSocket).Meets Observed s as := fun h => h.mono fun _ _ => observed_at_sight
  have hret : ∀ {s : State Unit}, (∀ t, (s.calls (t + 1)).pc = .idle) →
      (∀ n, (s.closing (.user n)).pc = .idle) → (∀ t, (s.closing (.hook t)).pc = .idle) →
        (socket pairSocket).Meets Observed s [.ret 0] := fun h1 h2 h3 =>
    ⟨observed_alone (by simp) (by simp) h1 h2 h3, trivial⟩
  simp only [Machine.meets_append]
  refine ⟨⟨⟨⟨⟨hsight (by decide), hret ?_ ?_ ?_⟩, hsight (by decide)⟩, hret ?_ ?_ ?_⟩,
    hsight (by decide)⟩, hret ?_ ?_ ?_⟩
  -- nobody but the dispatcher and its hook has moved
  all_goals intro t
  all_goals first | rfl | (cases t <;> rfl)

/-- **A pipe that comes and goes between two snapshots** is never in the
list: the socket stays open, with every sentinel processed. -/
theorem disconnect_unheard :
    ¬ (∀ s, (socket pairSocket).Reach s → ∀ p, s.active p = true → s.removed p = true →
        Processed s → s.isOpen = false) := by
  intro hclaim
  have hopen := hclaim ((socket pairSocket).final (socket pairSocket).init
    [.event 1 .addPre, .push, .event 1 .addPost, .push, .event 1 .remPost, .push,
      .enter 0, .acquire 0, .check 0, .snapshot 0, .assign 0, .unlock 0, .ret 0,
      .enter 0, .acquire 0, .check 0, .enter 0, .acquire 0, .check 0])
    (Machine.reach_final (by decide)) 1 (by decide) (by decide) ⟨by decide, by decide, by decide⟩
  revert hopen
  decide

end Socket

end PyNng
