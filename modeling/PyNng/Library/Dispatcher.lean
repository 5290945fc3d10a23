import PyNng.Library.Once
/-!
# Library — nng does not run without its dispatcher thread

The flag is set before the dispatcher thread is started, so a thread may find
nng initialised and use it while nobody takes ids off the dispatch queue. It
is not for long: until `_nng_fini` stops the queue, whoever set the flag is
still starting the dispatcher, has started it, or could not
(`dispatcher_attends`). One dispatcher is made at most. After `_nng_fini` the
queue stays stopped, whatever is initialised again.
-/

namespace PyNng

namespace Library

variable {s s' : State} {a : Act} {t : ℕ}

/-- The thread has set the flag, and there is no `Thread` object yet. -/
def Pc.begins : Pc → Bool
  | .starting _ | .creating _ => true
  | _ => false

/-- The thread has found a `Thread` object, and looks whether it is alive. -/
def Pc.asks : Pc → Bool
  | .asking _ | .probing .. => true
  | _ => false

/-- What has become of the one dispatcher thread. -/
inductive Stage
  | none
  | made
  | failed
  | started
  deriving DecidableEq

/-- The program's fields agree with it. -/
def State.At (s : State) : Stage → Prop
  | .none => s.made = 0 ∧ s.dispatchThread = Option.none ∧ s.startFailed = false
  | .made => s.made = 1 ∧ s.dispatchThread = some 0 ∧ s.threads 0 = .initial ∧ s.startFailed = false
  | .failed => s.made = 1 ∧ s.dispatchThread = some 0 ∧ s.startFailed = true
  | .started =>
    s.made = 1 ∧ s.dispatchThread = some 0 ∧ (s.threads 0 = .alive ∨ s.threads 0 = .stopped)

/-- **The invariant** while the queue is not stopped. -/
structure Attended (s : State) (g : Stage) : Prop where
  at_stage : s.At g
  fini : s.finis = 0 ∧ (s.fini = .idle ∨ s.fini = .testing ∨ s.fini = .stopping)
  clear : s.initialized = false → g = .none
  begins : ∀ t, (s.pc t).begins = true → s.initialized = true ∧ g = .none
  launches : ∀ t, (s.pc t).isLaunching = true → s.initialized = true ∧ g = .made
  begun : s.initialized = true → g = .none → ∃ t, (s.pc t).begins = true
  launched : g = .made → ∃ t, (s.pc t).isLaunching = true
  asks : ∀ t, (s.pc t).asks = false

/-- What the invariant reads of the program's fields. -/
structure Same (s s' : State) : Prop where
  made : s'.made = s.made
  dispatchThread : s'.dispatchThread = s.dispatchThread
  threads : s'.threads = s.threads
  startFailed : s'.startFailed = s.startFailed
  initialized : s'.initialized = s.initialized
  finis : s'.finis = s.finis
  fini : s'.fini = s.fini

theorem Same.at_stage (h : Same s s') {g : Stage} (hg : s.At g) : s'.At g := by
  cases g <;> unfold State.At at hg ⊢ <;>
    simpa only [h.made, h.dispatchThread, h.threads, h.startFailed] using hg

theorem exists_setPc {P : Pc → Prop} {pc : Pc} (h : ∃ u, P (s.pc u)) (ht : P (s.pc t) → P pc) :
    ∃ u, P ((s.setPc t pc).pc u) := by
  obtain ⟨u, hu⟩ := h
  refine ⟨u, ?_⟩
  by_cases hut : u = t
  · subst hut
    rw [setPc_pc_self]
    exact ht hu
  · rw [setPc_pc_of_ne hut]
    exact hu

/-- A step of a thread that is none of those of `_start_DISPATCH_THREAD`. -/
theorem Attended.setPc {g : Stage} (h : Attended s g) (hsame : Same s s') (hpcs : s'.pc = s.pc)
    {pc : Pc} (hb : pc.begins = (s.pc t).begins) (hl : pc.isLaunching = (s.pc t).isLaunching)
    (ha : pc.asks = false) : Attended (s'.setPc t pc) g where
  at_stage := hsame.at_stage h.at_stage
  fini := by
    show s'.finis = 0 ∧ (s'.fini = .idle ∨ s'.fini = .testing ∨ s'.fini = .stopping)
    rw [hsame.finis, hsame.fini]
    exact h.fini
  clear := by
    show s'.initialized = false → _
    rw [hsame.initialized]
    exact h.clear
  begins := by
    refine forall_setPc (P := fun _ q => q.begins = true → s'.initialized = true ∧ g = .none)
      (fun hq => ?_) fun u _ hq => ?_
    · rw [hsame.initialized]
      exact h.begins t (hb ▸ hq)
    · rw [hpcs] at hq
      rw [hsame.initialized]
      exact h.begins u hq
  launches := by
    refine forall_setPc (P := fun _ q => q.isLaunching = true → s'.initialized = true ∧ g = .made)
      (fun hq => ?_) fun u _ hq => ?_
    · rw [hsame.initialized]
      exact h.launches t (hl ▸ hq)
    · rw [hpcs] at hq
      rw [hsame.initialized]
      exact h.launches u hq
  begun := by
    show s'.initialized = true → _
    rw [hsame.initialized]
    intro hi hg
    refine exists_setPc (P := fun q => q.begins = true) ?_ fun hq => ?_
    · rw [hpcs]
      exact h.begun hi hg
    · rw [hpcs] at hq
      rw [hb]
      exact hq
  launched := by
    intro hg
    refine exists_setPc (P := fun q => q.isLaunching = true) ?_ fun hq => ?_
    · rw [hpcs]
      exact h.launched hg
    · rw [hpcs] at hq
      rw [hl]
      exact hq
  asks := forall_setPc (P := fun _ q => q.asks = false) ha fun u _ => by
    rw [hpcs]
    exact h.asks u

theorem holds_of_begins {pc : Pc} (h : pc.begins = true) : pc.holds = true := by
  cases pc <;> first | rfl | cases h

theorem holds_of_isLaunching {pc : Pc} (h : pc.isLaunching = true) : pc.holds = true := by
  cases pc <;> first | rfl | cases h

theorem holds_of_asks {pc : Pc} (h : pc.asks = true) : pc.holds = true := by
  cases pc <;> first | rfl | cases h

/-- **The holder of the lock moves**, and is the only one that may be starting
the dispatcher. -/
theorem Attended.move {g : Stage} (hso : Sound s) (hheld : (s.pc t).holds = true)
    (hstage : s'.At g) (hpcs : s'.pc = s.pc) {pc : Pc}
    (hfini : s'.finis = 0 ∧ (s'.fini = .idle ∨ s'.fini = .testing ∨ s'.fini = .stopping))
    (hi : s'.initialized = true) (hb : pc.begins = true ↔ g = .none)
    (hl : pc.isLaunching = true ↔ g = .made) (ha : pc.asks = false) :
    Attended (s'.setPc t pc) g where
  at_stage := by cases g <;> exact hstage
  fini := hfini
  clear hno := absurd (hi.symm.trans hno) nofun
  begins := by
    refine forall_setPc (P := fun _ q => q.begins = true → s'.initialized = true ∧ g = .none)
      (fun hq => ⟨hi, hb.mp hq⟩) fun u hu hq => ?_
    rw [hpcs] at hq
    exact absurd (hso.unique hheld (holds_of_begins hq)) hu
  launches := by
    refine forall_setPc (P := fun _ q => q.isLaunching = true → s'.initialized = true ∧ g = .made)
      (fun hq => ⟨hi, hl.mp hq⟩) fun u hu hq => ?_
    rw [hpcs] at hq
    exact absurd (hso.unique hheld (holds_of_isLaunching hq)) hu
  begun _ hg := ⟨t, by rw [setPc_pc_self]; exact hb.mpr hg⟩
  launched hg := ⟨t, by rw [setPc_pc_self]; exact hl.mpr hg⟩
  asks := forall_setPc (P := fun _ q => q.asks = false) ha fun u hu => by
    rw [hpcs, ← Bool.not_eq_true]
    exact fun hq => hu (hso.unique hheld (holds_of_asks hq))

/-- A step that moves no thread. -/
theorem Attended.still {g : Stage} (h : Attended s g) (hstage : s'.At g) (hpcs : s'.pc = s.pc)
    (hi : s'.initialized = s.initialized)
    (hfini : s'.finis = 0 ∧ (s'.fini = .idle ∨ s'.fini = .testing ∨ s'.fini = .stopping)) :
    Attended s' g where
  at_stage := hstage
  fini := hfini
  clear := by rw [hi]; exact h.clear
  begins := by rw [hpcs, hi]; exact h.begins
  launches := by rw [hpcs, hi]; exact h.launches
  begun := by rw [hpcs, hi]; exact h.begun
  launched := by rw [hpcs]; exact h.launched
  asks := by rw [hpcs]; exact h.asks

/-- **Every step keeps it** that does not stop the queue. -/
theorem attended_next (hso : Sound s) {g : Stage} (h : Attended s g) (hen : Enabled s a)
    (hq : (next s a).queueStopped = false) : ∃ g, Attended (next s a) g := by
  have hsame : Same s s := ⟨rfl, rfl, rfl, rfl, rfl, rfl, rfl⟩
  cases a with
  | call t c =>
    have hrest : (s.pc t).resting = true := hen
    have hpc : (s.pc t).begins = false ∧ (s.pc t).isLaunching = false := by
      cases hp : s.pc t <;> rw [hp] at hrest <;> first | exact ⟨rfl, rfl⟩ | cases hrest
    have hsame' : Same s { s with call := Function.update s.call t c } :=
      ⟨rfl, rfl, rfl, rfl, rfl, rfl, rfl⟩
    refine ⟨g, ?_⟩
    cases c with
    | checkNngInit => exact h.setPc hsame' rfl hpc.1.symm hpc.2.symm rfl
    | initializeNng args => exact h.setPc hsame' rfl hpc.1.symm hpc.2.symm rfl
  | test t =>
    have hat : s.pc t = .testing := hen
    refine ⟨g, ?_⟩
    dsimp only [next]
    split <;> exact h.setPc hsame rfl (by rw [hat]; rfl) (by rw [hat]; rfl) rfl
  | acquire t =>
    have hat : s.pc t = .locking := hen.1
    have hsame' : Same s { s with lock := some t } := ⟨rfl, rfl, rfl, rfl, rfl, rfl, rfl⟩
    exact ⟨g, h.setPc hsame' rfl (by rw [hat]; rfl) (by rw [hat]; rfl) rfl⟩
  | testAgain t =>
    have hat : s.pc t = .locked := hen
    refine ⟨g, ?_⟩
    dsimp only [next]
    split <;> exact h.setPc hsame rfl (by rw [hat]; rfl) (by rw [hat]; rfl) rfl
  | nngInit t rc =>
    have hat : s.pc t = .initialising := hen
    refine ⟨g, ?_⟩
    dsimp only [next]
    split
    · have hsame' : Same s { s with nng := some (s.call t).params, inits := s.inits + 1 } :=
        ⟨rfl, rfl, rfl, rfl, rfl, rfl, rfl⟩
      exact h.setPc hsame' rfl (by rw [hat]; rfl) (by rw [hat]; rfl) rfl
    · exact h.setPc hsame rfl (by rw [hat]; rfl) (by rw [hat]; rfl) rfl
  | setFlag t =>
    obtain ⟨n, hat⟩ := exists_of_isFlagging hen
    have hfit := hso.fits t
    rw [hat] at hfit
    obtain rfl : g = .none := h.clear hfit.1
    have hb : (Pc.starting n).begins = true ↔ Stage.none = .none := ⟨fun _ => rfl, fun _ => rfl⟩
    have hl : (Pc.starting n).isLaunching = true ↔ Stage.none = .made := ⟨nofun, nofun⟩
    have hstage : State.At { s with initialized := true } .none := h.at_stage
    dsimp only [next]
    rw [hat]
    exact ⟨.none, .move hso (by rw [hat]; rfl) hstage rfl h.fini rfl hb hl rfl⟩
  | testThread t =>
    obtain ⟨n, hat⟩ := exists_of_isStarting hen
    obtain ⟨-, rfl⟩ := h.begins t (by rw [hat]; rfl)
    obtain ⟨-, hnone, -⟩ := h.at_stage
    dsimp only [next]
    rw [hat]
    dsimp only
    -- there is no thread that could be alive
    rw [if_pos hnone]
    exact ⟨.none, h.setPc hsame rfl (by rw [hat]; rfl) (by rw [hat]; rfl) rfl⟩
  | readThread t =>
    obtain ⟨n, hat⟩ := exists_of_isAsking hen
    have hno := h.asks t
    rw [hat] at hno
    cases hno
  | askThread t =>
    obtain ⟨n, d, hat⟩ := exists_of_isProbing hen
    have hno := h.asks t
    rw [hat] at hno
    cases hno
  | makeThread t =>
    obtain ⟨n, hat⟩ := exists_of_isCreating hen
    obtain ⟨hi, rfl⟩ := h.begins t (by rw [hat]; rfl)
    obtain ⟨hmade, -, hfailed⟩ := h.at_stage
    have hb : (Pc.launching n).begins = true ↔ Stage.made = .none := ⟨nofun, nofun⟩
    have hl : (Pc.launching n).isLaunching = true ↔ Stage.made = .made :=
      ⟨fun _ => rfl, fun _ => rfl⟩
    have hstage : State.At { s with
        dispatchThread := some s.made
        threads := Function.update s.threads s.made .initial
        made := s.made + 1 } .made := by
      refine ⟨by rw [hmade], by rw [hmade], ?_, hfailed⟩
      show Function.update s.threads s.made .initial 0 = .initial
      rw [hmade, Function.update_self]
    dsimp only [next]
    rw [hat]
    exact ⟨.made, .move hso (by rw [hat]; rfl) hstage rfl h.fini hi hb hl rfl⟩
  | startThread t starts =>
    obtain ⟨n, hat⟩ := exists_of_isLaunching hen
    obtain ⟨hi, rfl⟩ := h.launches t (by rw [hat]; rfl)
    obtain ⟨hmade, hthread, hinitial, hfailed⟩ := h.at_stage
    have hb : ∀ o g, g ≠ Stage.none → ((Pc.releasing o).begins = true ↔ g = .none) :=
      fun _ _ hg => ⟨nofun, fun h' => absurd h' hg⟩
    have hl : ∀ o g, g ≠ Stage.made → ((Pc.releasing o).isLaunching = true ↔ g = .made) :=
      fun _ _ hg => ⟨nofun, fun h' => absurd h' hg⟩
    have hstarted : State.At { s with
        dispatchThread := some 0
        threads := Function.update s.threads 0 .alive } .started := by
      refine ⟨hmade, rfl, .inl ?_⟩
      show Function.update s.threads 0 .alive 0 = .alive
      rw [Function.update_self]
    have hfailed : State.At { s with dispatchThread := some 0, startFailed := true } .failed :=
      ⟨hmade, rfl, rfl⟩
    dsimp only [next]
    rw [hat, hthread]
    cases starts with
    | true =>
      have hne : Stage.started ≠ .none ∧ Stage.started ≠ .made := by decide
      exact ⟨.started, .move hso (by rw [hat]; rfl) hstarted rfl h.fini hi (hb _ _ hne.1)
        (hl _ _ hne.2) rfl⟩
    | false =>
      have hne : Stage.failed ≠ .none ∧ Stage.failed ≠ .made := by decide
      exact ⟨.failed, .move hso (by rw [hat]; rfl) hfailed rfl h.fini hi (hb _ _ hne.1)
        (hl _ _ hne.2) rfl⟩
  | release t =>
    obtain ⟨o, hat⟩ := exists_of_isReleasing hen
    dsimp only [next]
    rw [hat]
    have hsame' : Same s { s with lock := Option.none } := ⟨rfl, rfl, rfl, rfl, rfl, rfl, rfl⟩
    exact ⟨g, h.setPc hsame' rfl (by rw [hat]; rfl) (by rw [hat]; rfl) rfl⟩
  | threadEnds d =>
    have halive : s.threads d = .alive := hen
    refine ⟨g, h.still ?_ rfl rfl h.fini⟩
    have hat := h.at_stage
    cases g with
    | none => exact hat
    | failed => exact hat
    | made =>
      obtain ⟨hmade, hthread, hinitial, hfailed⟩ := hat
      have hd : (0 : ℕ) ≠ d := by
        rintro rfl
        rw [hinitial] at halive
        cases halive
      refine ⟨hmade, hthread, ?_, hfailed⟩
      show Function.update s.threads d .stopped 0 = .initial
      rw [Function.update_of_ne hd]
      exact hinitial
    | started =>
      obtain ⟨hmade, hthread, hst⟩ := hat
      refine ⟨hmade, hthread, ?_⟩
      show Function.update s.threads d .stopped 0 = .alive ∨
        Function.update s.threads d .stopped 0 = .stopped
      by_cases hd : (0 : ℕ) = d
      · subst hd
        rw [Function.update_self]
        exact .inr rfl
      · rw [Function.update_of_ne hd]
        exact hst
  | callFini =>
    exact ⟨g, h.still (by cases g <;> exact h.at_stage) rfl rfl ⟨h.fini.1, .inr (.inl rfl)⟩⟩
  | fini =>
    have hq : s.finiStep.queueStopped = false := hq
    show ∃ g, Attended s.finiStep g
    unfold State.finiStep at hq ⊢
    rcases h.fini.2 with hp | hp | hp <;> rw [hp] at hq ⊢
    · exact ⟨g, h⟩
    · refine ⟨g, h.still (by cases g <;> exact h.at_stage) rfl rfl ⟨h.fini.1, ?_⟩⟩
      cases s.initialized
      · exact .inl rfl
      · exact .inr (.inr rfl)
    · cases hq
  | joinTimeout =>
    obtain ⟨d, hp, -⟩ := exists_of_waits hen
    rcases h.fini.2 with hf | hf | hf <;> rw [hp] at hf <;> cases hf

theorem attended_init : Attended library.init .none where
  at_stage := ⟨rfl, rfl, rfl⟩
  fini := ⟨rfl, .inl rfl⟩
  clear _ := rfl
  begins _ hq := absurd hq nofun
  launches _ hq := absurd hq nofun
  begun hi := absurd hi nofun
  launched hg := absurd hg nofun
  asks _ := rfl

/-- The queue is never started again. -/
theorem stopped_next (hq : s.queueStopped = true) : (next s a).queueStopped = true := by
  cases a with
  | call t c => exact hq
  | test t | testAgain t | acquire t => exact hq
  | nngInit t rc =>
    dsimp only [next]
    split <;> exact hq
  | setFlag t | testThread t | readThread t | askThread t | makeThread t | release t =>
    dsimp only [next]
    split <;> exact hq
  | startThread t starts =>
    dsimp only [next]
    split
    · exact hq
    · split <;> exact hq
    · exact hq
  | threadEnds d | callFini | joinTimeout => exact hq
  | fini =>
    show s.finiStep.queueStopped = true
    unfold State.finiStep
    split <;> first | exact hq | rfl

theorem attended_of_reach (hs : library.Reach s) (hq : s.queueStopped = false) :
    ∃ g, Attended s g := by
  induction hs with
  | init => exact ⟨.none, attended_init⟩
  | @step s _ hs _ hen ih =>
    cases hbefore : s.queueStopped with
    | true => exact absurd (hq.symm.trans (stopped_next hbefore)) Bool.false_ne_true
    | false =>
      obtain ⟨g, hg⟩ := ih hbefore
      exact attended_next (sound_of_reach hs) hg hen hq

/-! ## What it says of the dispatcher -/

/-- **Until the queue is stopped nng has not been shut down, and where the flag
is set there is a dispatcher**: the one that was ever made has been started,
or the holder of `_nng_init_lock` is on its way to start it, or it could not
be started. -/
theorem dispatcher_attends (hs : library.Reach s) (hq : s.queueStopped = false) :
    s.finis = 0 ∧ s.made ≤ 1 ∧
      (s.initialized = true →
        s.startFailed = true ∨
          (∃ t, s.lock = some t ∧ ((s.pc t).begins = true ∨ (s.pc t).isLaunching = true)) ∨
          s.dispatchThread = some 0 ∧ (s.threads 0 = .alive ∨ s.threads 0 = .stopped)) := by
  obtain ⟨g, h⟩ := attended_of_reach hs hq
  have hlock : ∀ {t}, (s.pc t).holds = true → s.lock = some t :=
    fun {t} hheld => (sound_of_reach hs).locked t |>.mpr hheld
  have hat := h.at_stage
  refine ⟨h.fini.1, ?_, fun hi => ?_⟩
  · cases g with
    | none =>
      rw [hat.1]
      exact Nat.zero_le 1
    | made | failed | started => exact Nat.le_of_eq hat.1
  · cases g with
    | none =>
      obtain ⟨t, ht⟩ := h.begun hi rfl
      exact .inr (.inl ⟨t, hlock (holds_of_begins ht), .inl ht⟩)
    | made =>
      obtain ⟨t, ht⟩ := h.launched rfl
      exact .inr (.inl ⟨t, hlock (holds_of_isLaunching ht), .inr ht⟩)
    | failed => exact .inl hat.2.2
    | started => exact .inr (.inr ⟨hat.2.1, hat.2.2⟩)

theorem dispatcher_attends_race :
    (library.final library.init raceToInitialize).threads 0 = .alive ∧
      (library.final library.init raceToInitialize).made ≤ 1 :=
  ⟨by decide, (dispatcher_attends reach_race (by decide)).2.1⟩

end Library

end PyNng
