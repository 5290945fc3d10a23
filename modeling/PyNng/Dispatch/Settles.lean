import PyNng.Common.Measure
import PyNng.Dispatch.Monitor
/-!
# Dispatch — no wakeup is lost on the condition variable

The loop goes to sleep only after it has found the queue empty and the flag
clear with the mutex held, and whoever changes either has still to notify.
So a sleeper with something to do is about to be woken (`awake_of_reach`).
Where no more is pushed, the threads come to rest by themselves, with every
id dispatched unless the loop has ended: the 150 ms after which `wait_for`
looks again are not needed for that (`settles`).
-/

namespace PyNng

namespace Monitor

variable {Pusher : Type*} [DecidableEq Pusher] {s s' : State Pusher} {p : Pusher}
variable {a : Act Pusher}

/-! ## Whoever sleeps with something to do is about to be woken -/

/-- A notification is still to come. -/
def PushPc.owes : PushPc → Bool
  | .pushed _ | .notifying _ => true
  | _ => false

def StopPc.owes : StopPc → Bool
  | .flagged | .notifying => true
  | _ => false

/-- Somebody is about to notify. -/
def State.Notified (s : State Pusher) : Prop :=
  (∃ p, (s.pusher p).owes = true) ∨ s.stopper.owes = true

/-- **The sleeper has nothing to do, or is about to be woken.** -/
def State.Awake (s : State Pusher) : Prop :=
  s.loop = .asleep → s.ready = true → s.Notified

omit [DecidableEq Pusher] in
theorem notify_ne_asleep (pc : LoopPc) : pc.notify ≠ .asleep := by cases pc <;> nofun

theorem awake_pushStep (h : s.Awake) (p : Pusher) : (s.pushStep p).Awake := by
  have hkeep : ∀ (s' : State Pusher) (pc : PushPc), s'.pusher = s.pusher →
      s'.stopper = s.stopper → s'.loop = s.loop → s'.queue = s.queue → s'.stopped = s.stopped →
      ((s.pusher p).owes = true → pc.owes = true) → (s'.setPusher p pc).Awake := by
    intro s' pc hp hst hl hq hsd howes hasleep hready
    have hready' : s.ready = true := by
      unfold State.ready
      rw [← hq, ← hsd]
      exact hready
    rcases h (hl ▸ hasleep) hready' with ⟨q, hq⟩ | hstop
    · refine .inl ⟨q, ?_⟩
      show (Function.update s'.pusher p pc q).owes = true
      by_cases hqp : q = p
      · subst hqp
        rw [Function.update_self]
        exact howes hq
      · rw [Function.update_of_ne hqp, hp]
        exact hq
    · exact .inr (show s'.stopper.owes = true by rw [hst]; exact hstop)
  unfold State.pushStep
  cases hpc : s.pusher p with
  | idle => exact h
  | entering id => exact hkeep _ _ rfl rfl rfl rfl rfl (by rw [hpc]; nofun)
  | locked id =>
    refine fun _ _ => .inl ⟨p, ?_⟩
    show (Function.update s.pusher p (PushPc.pushed _) p).owes = true
    rw [Function.update_self]
    rfl
  | pushed k => exact hkeep _ _ rfl rfl rfl rfl rfl fun _ => rfl
  | notifying k => exact fun hasleep => absurd hasleep (notify_ne_asleep s.loop)

omit [DecidableEq Pusher] in
theorem awake_stopStep (h : s.Awake) : s.stopStep.Awake := by
  have hpushers : (∀ {s' : State Pusher}, s'.pusher = s.pusher → s.Notified →
      s.stopper.owes = false → s'.Notified) := by
    intro s' hp hn hst
    rcases hn with hq | hstop
    · exact .inl (by rw [hp]; exact hq)
    · rw [hst] at hstop
      cases hstop
  unfold State.stopStep
  cases hpc : s.stopper with
  | before => exact h
  | done => exact h
  | entering =>
    exact fun hasleep hready => hpushers rfl (h hasleep hready) (by rw [hpc]; rfl)
  | locked => exact fun _ _ => .inr rfl
  | flagged => exact fun _ _ => .inr rfl
  | notifying => exact fun hasleep => absurd hasleep (notify_ne_asleep s.loop)

omit [DecidableEq Pusher] in
/-- The loop goes to sleep when it has found nothing to do. -/
theorem awake_loopStep (h : s.Awake) : s.loopStep.Awake := by
  intro hasleep hready
  unfold State.loopStep at hasleep hready ⊢
  cases hpc : s.loop <;> rw [hpc] at hasleep hready <;> dsimp only at hasleep hready ⊢
  case asleep => exact h hpc hready
  case predicate late =>
    by_cases hr : s.ready = true
    · rw [if_pos hr] at hasleep
      cases hasleep
    · rw [if_neg hr] at hasleep hready
      by_cases hlate : late = true
      · rw [if_pos hlate] at hasleep
        cases hasleep
      · rw [if_neg hlate] at hready
        exact absurd hready hr
  case looked got => cases got <;> cases hasleep
  case taken got => cases got <;> cases hasleep
  case testing => split at hasleep <;> cases hasleep
  case waited woken => split at hasleep <;> cases hasleep
  all_goals first | cases hasleep | (rw [hpc] at hasleep; cases hasleep)

theorem awake_next (h : s.Awake) (hen : Enabled s a) : (next s a).Awake := by
  cases a with
  | callPush q id =>
    intro hasleep hready
    have hidle : s.pusher q = .idle := hen
    rcases h hasleep hready with ⟨r, hr⟩ | hstop
    · refine .inl ⟨r, ?_⟩
      have hrq : r ≠ q := by
        rintro rfl
        rw [hidle] at hr
        cases hr
      show (Function.update s.pusher q (PushPc.entering id) r).owes = true
      rw [Function.update_of_ne hrq]
      exact hr
    · exact .inr hstop
  | push q => exact awake_pushStep h q
  | callStop =>
    intro hasleep hready
    have hbefore : s.stopper = .before := hen
    rcases h hasleep hready with hp | hstop
    · exact .inl hp
    · rw [hbefore] at hstop
      cases hstop
  | stop => exact awake_stopStep h
  | loop => exact awake_loopStep h
  | dispatchRaises | spurious | timeout => exact nofun

theorem awake_of_reach (hs : (monitor Pusher).Reach s) : s.Awake := by
  induction hs with
  | init => exact nofun
  | step _ _ hen ih => exact awake_next ih hen

/-! ## Where nobody can take a step -/

/-- The machine of the threads at work: nobody calls `push` or `stop`, no time
is over and nobody wakes unless notified. -/
def working (Pusher : Type*) [DecidableEq Pusher] : Machine (State Pusher) (Act Pusher) where
  init := (monitor Pusher).init
  Enabled s
    | .callPush .. | .callStop | .spurious | .timeout => False
    | a => Enabled s a
  next := next

instance (s : State Pusher) : ∀ a, Decidable ((working Pusher).Enabled s a)
  | .callPush .. | .callStop | .spurious | .timeout => inferInstanceAs (Decidable False)
  | .push p => inferInstanceAs (Decidable (Enabled s (.push p)))
  | .stop => inferInstanceAs (Decidable (Enabled s .stop))
  | .loop => inferInstanceAs (Decidable (Enabled s .loop))
  | .dispatchRaises => inferInstanceAs (Decidable (Enabled s .dispatchRaises))

theorem enabled_of_working (hen : (working Pusher).Enabled s a) : Enabled s a := by
  cases a <;> first | exact hen | exact hen.elim

/-- **The threads are at rest**: every push has returned, and the loop has
ended, or sleeps with every id dispatched and the flag clear. -/
def State.Settled (s : State Pusher) : Prop :=
  (∀ p, s.pusher p = .idle) ∧
    (s.loop = .returned ∨ s.loop = .raised ∨
      (s.loop = .asleep ∧ s.stopped = false ∧ s.dispatched = s.pushed))

theorem PushPc.goes_of_holds {pc : PushPc} (h : pc.holds = true) :
    pc.rests = false ∧ pc.wants = false := by
  cases pc <;> first | exact ⟨rfl, rfl⟩ | cases h

theorem StopPc.goes_of_holds {pc : StopPc} (h : pc.holds = true) :
    pc.rests = false ∧ pc.wants = false := by
  cases pc <;> first | exact ⟨rfl, rfl⟩ | cases h

theorem LoopPc.goes_of_holds {pc : LoopPc} (h : pc.holds = true) :
    pc.rests = false ∧ pc.wants = false := by
  cases pc <;> first | exact ⟨rfl, rfl⟩ | cases h

/-- Whoever holds the mutex can take its step. -/
theorem goes_of_holds {h : Holder Pusher} (hh : s.holds h = true) :
    ∃ a, (working Pusher).Enabled s a := by
  have hgoes : ∀ {rests wants : Bool}, rests = false ∧ wants = false →
      rests = false ∧ (wants = true → s.mutex = none) := by
    rintro _ _ ⟨rfl, rfl⟩
    exact ⟨rfl, nofun⟩
  cases h with
  | pusher p => exact ⟨.push p, hgoes (PushPc.goes_of_holds hh)⟩
  | stopper => exact ⟨.stop, hgoes (StopPc.goes_of_holds hh)⟩
  | loop => exact ⟨.loop, hgoes (LoopPc.goes_of_holds hh)⟩

/-- A call of `stop` that rests has notified. -/
theorem StopPc.owes_of_rests {pc : StopPc} (h : pc.rests = true) : pc.owes = false := by
  cases pc <;> first | rfl | cases h

/-- **Threads that cannot go on are at rest.** -/
theorem settled_of_stuck (hs : (monitor Pusher).Reach s)
    (hno : ∀ a, ¬ (working Pusher).Enabled s a) : s.Settled := by
  have hfree : s.mutex = none :=
    (locked_of_reach hs).free_iff.mpr fun h hh => not_exists.mpr hno (goes_of_holds hh)
  have hpush : ∀ p, s.pusher p = .idle := by
    intro p
    by_contra hne
    refine hno (.push p) ⟨?_, fun _ => hfree⟩
    cases hpc : s.pusher p <;> first | rfl | exact absurd hpc hne
  have hstop : s.stopper.rests = true := by
    by_contra hne
    exact hno .stop ⟨Bool.eq_false_iff.mpr hne, fun _ => hfree⟩
  have hloop : s.loop.rests = true := by
    by_contra hne
    exact hno .loop ⟨Bool.eq_false_iff.mpr hne, fun _ => hfree⟩
  refine ⟨hpush, ?_⟩
  cases hpc : s.loop <;> rw [hpc] at hloop <;> try cases hloop
  case returned => exact .inl rfl
  case raised => exact .inr (.inl rfl)
  case asleep =>
    have hnot : ¬ s.Notified := by
      rintro (⟨p, hp⟩ | hst)
      · rw [hpush p] at hp
        cases hp
      · rw [StopPc.owes_of_rests hstop] at hst
        cases hst
    have hready : s.ready = false := Bool.eq_false_iff.mpr fun h => hnot (awake_of_reach hs hpc h)
    obtain ⟨hq, hstopped⟩ := Bool.or_eq_false_iff.mp hready
    have hempty : s.queue = [] := by simpa using hq
    refine .inr (.inr ⟨rfl, hstopped, ?_⟩)
    -- every id is dispatched, in hand or queued
    have hsplit := (DispatchQueue.accounted_of_reach (refines_dispatcher.reach hs)).split
    have hhand : s.abs.loop.inHand = [] := by
      show s.loop.abs.inHand = []
      rw [hpc]
      rfl
    rw [hhand, show s.abs.queue = [] from hempty, List.append_nil, List.append_nil] at hsplit
    exact hsplit

/-! ## The threads do come to rest -/

/-- What a push has still to do; what the loop does for its id is in it. -/
def PushPc.work : PushPc → ℕ
  | .idle => 0
  | .entering _ => 100
  | .locked _ => 80
  | .pushed _ => 40
  | .notifying _ => 20

def StopPc.work : StopPc → ℕ
  | .before | .done => 0
  | .entering => 80
  | .locked => 60
  | .flagged => 40
  | .notifying => 20

/-- What the loop has still to do before it sleeps, or before it ends where the
flag is set. -/
def LoopPc.work : Bool → LoopPc → ℕ
  | _, .asleep | _, .returned | _, .raised => 0
  | true, .woken _ | true, .entering => 12
  | true, .predicate _ => 11
  | true, .waited _ => 10
  | true, .taken _ | true, .looked (some _) => 9
  | true, .dispatching _ => 8
  | true, .draining => 7
  | true, .looking => 6
  | true, .looked none => 5
  | true, .testing => 4
  | false, .woken true => 16
  | false, .predicate true => 15
  | false, .waited false => 14
  | false, .taken _ | false, .looked (some _) => 13
  | false, .dispatching _ => 12
  | false, .draining => 11
  | false, .looking => 10
  | false, .looked none => 9
  | false, .testing => 8
  | false, .entering | false, .woken false => 7
  | false, .predicate false => 6
  | false, .waited true => 5

variable [Fintype Pusher]

/-- What all of them have still to do. -/
def State.work (s : State Pusher) : ℕ :=
  ∑ p, (s.pusher p).work + s.stopper.work + 20 * s.queue.length + s.loop.work s.stopped

/-- A notification wakes the loop, at most. -/
theorem work_notify_le (stopped : Bool) (pc : LoopPc) :
    pc.notify.work stopped ≤ pc.work stopped + 12 := by
  cases pc with
  | asleep => cases stopped <;> decide
  | _ => exact Nat.le_add_right ..

/-- The flag makes the loop's way to its end a little longer. -/
theorem work_flag_le (stopped : Bool) (pc : LoopPc) : pc.work true ≤ pc.work stopped + 5 := by
  cases stopped with
  | true => exact Nat.le_add_right ..
  | false =>
    cases pc with
    | looked got | taken got => cases got <;> exact Nat.le_of_ble_eq_true rfl
    | predicate b | woken b | waited b => cases b <;> exact Nat.le_of_ble_eq_true rfl
    | _ => exact Nat.le_of_ble_eq_true rfl

/-- **Every step of a push lowers the work.** -/
theorem work_pushStep_lt (hen : Enabled s (.push p)) : (s.pushStep p).work < s.work := by
  have hrests := hen.1
  unfold State.pushStep
  cases hpc : s.pusher p <;> rw [hpc] at hrests
  case idle => cases hrests
  case entering id =>
    have hsum := sum_work_update PushPc.work s.pusher p (.locked id)
    rw [hpc] at hsum
    simp only [State.work, State.setPusher, PushPc.work] at hsum ⊢
    omega
  case locked id =>
    have hsum := sum_work_update PushPc.work s.pusher p (.pushed s.pushed.length)
    rw [hpc] at hsum
    simp only [State.work, State.setPusher, PushPc.work, List.length_append, List.length_cons,
      List.length_nil] at hsum ⊢
    omega
  case pushed k =>
    have hsum := sum_work_update PushPc.work s.pusher p (.notifying k)
    rw [hpc] at hsum
    simp only [State.work, State.setPusher, PushPc.work] at hsum ⊢
    omega
  case notifying k =>
    have hsum := sum_work_update PushPc.work s.pusher p .idle
    have hloop := work_notify_le s.stopped s.loop
    rw [hpc] at hsum
    simp only [State.work, State.setPusher, PushPc.work] at hsum ⊢
    omega

omit [DecidableEq Pusher] in
theorem work_stopStep_lt (hrests : s.stopper.rests = false) : s.stopStep.work < s.work := by
  have hnotify := work_notify_le s.stopped s.loop
  have hflag := work_flag_le s.stopped s.loop
  unfold State.stopStep
  cases hpc : s.stopper <;> rw [hpc] at hrests
  case before | done => cases hrests
  all_goals
    simp only [State.work, hpc, StopPc.work]
    omega

omit [DecidableEq Pusher] in
/-- Only the queue and the loop have changed. -/
theorem work_lt_of_loop (hp : s'.pusher = s.pusher) (hst : s'.stopper = s.stopper)
    (hlt : 20 * s'.queue.length + s'.loop.work s'.stopped <
      20 * s.queue.length + s.loop.work s.stopped) : s'.work < s.work := by
  unfold State.work
  rw [hp, hst]
  omega

omit [DecidableEq Pusher] in
/-- **Every step of the loop lowers the work.** A wait that is over because the
predicate held has an id to take, or is on the way to the end. -/
theorem work_loopStep_lt (hw : ∀ woken, s.loop = .waited woken → s.ready = woken)
    (hrests : s.loop.rests = false) : s.loopStep.work < s.work := by
  unfold State.loopStep
  cases hpc : s.loop <;> rw [hpc] at hrests <;> dsimp only
  case asleep | returned | raised => cases hrests
  case draining | dispatching | entering =>
    refine work_lt_of_loop rfl rfl ?_
    rw [hpc]
    cases s.stopped <;> simp only [LoopPc.work] <;> omega
  case woken late =>
    refine work_lt_of_loop rfl rfl ?_
    rw [hpc]
    cases s.stopped <;> cases late <;> simp only [LoopPc.work] <;> omega
  case looked got | taken got =>
    refine work_lt_of_loop rfl rfl ?_
    rw [hpc]
    cases s.stopped <;> cases got <;> simp only [LoopPc.goesOn, LoopPc.work] <;> omega
  case testing =>
    refine work_lt_of_loop rfl rfl ?_
    rw [hpc]
    cases hst : s.stopped <;> simp [LoopPc.work]
  case looking =>
    refine work_lt_of_loop rfl rfl ?_
    rw [hpc]
    dsimp only [State.take]
    cases s.stopped <;> cases s.queue <;> simp [LoopPc.work] <;> omega
  case predicate late =>
    split
    · refine work_lt_of_loop rfl rfl ?_
      rw [hpc]
      cases s.stopped <;> cases late <;> simp only [LoopPc.work] <;> omega
    · split
      · rename_i hno hlate
        subst hlate
        refine work_lt_of_loop rfl rfl ?_
        rw [hpc]
        cases s.stopped <;> simp only [LoopPc.work] <;> omega
      · refine work_lt_of_loop rfl rfl ?_
        rw [hpc]
        cases s.stopped <;> cases late <;> simp only [LoopPc.work] <;> omega
  case waited woken =>
    have hready := hw woken hpc
    unfold State.ready at hready
    cases woken with
    | false =>
      rw [if_neg Bool.false_ne_true]
      refine work_lt_of_loop rfl rfl ?_
      rw [hpc]
      cases s.stopped <;> simp only [LoopPc.work] <;> omega
    | true =>
      rw [if_pos rfl]
      refine work_lt_of_loop rfl rfl ?_
      rw [hpc]
      dsimp only [State.take]
      cases hq : s.queue with
      | cons id queue =>
        simp only [List.tail_cons, List.head?_cons, List.length_cons]
        cases s.stopped <;> simp only [LoopPc.work] <;> omega
      | nil =>
        have hst : s.stopped = true := by
          rw [hq] at hready
          simpa using hready
        rw [hst]
        simp only [List.tail_nil, LoopPc.work]
        omega

/-- Every step of the threads at work lowers it. -/
theorem work_lt (hs : (monitor Pusher).Reach s) (hen : (working Pusher).Enabled s a) :
    (next s a).work < s.work := by
  cases a with
  | callPush | callStop | spurious | timeout => exact hen.elim
  | push p => exact work_pushStep_lt hen
  | stop => exact work_stopStep_lt hen.1
  | loop => exact work_loopStep_lt (fun _ => ready_of_waited hs) hen.1
  | dispatchRaises =>
    have hat : s.loop = .dispatching 0 := hen
    refine work_lt_of_loop rfl rfl ?_
    rw [hat]
    show 20 * s.queue.length + LoopPc.raised.work s.stopped <
      20 * s.queue.length + (LoopPc.dispatching 0).work s.stopped
    cases s.stopped <;> simp only [LoopPc.work] <;> omega

/-- **No wakeup is lost.** From any state reached, where no more is pushed, the
threads come to rest without any wait running out of time: every push
returns, and the loop has ended, or sleeps with every id dispatched. -/
theorem settles (s : State Pusher) (hs : (monitor Pusher).Reach s) :
    (working Pusher).EndsIn State.Settled s := by
  have hstep : ∀ s a, (monitor Pusher).Reach s → (working Pusher).Enabled s a →
      (monitor Pusher).Reach ((working Pusher).next s a) ∧
        ((working Pusher).next s a).work < s.work :=
    fun s a hr hen => ⟨hr.step trivial (enabled_of_working hen), work_lt hr hen⟩
  exact .of_lowers hstep (fun _ hr hno => settled_of_stuck hr hno) hs

/-- The loop falls asleep, and a push has changed the queue and not yet notified. -/
def pushedToSleeper : List (Act Bool) :=
  [.loop, .loop, .loop, .loop, .loop, .loop, .callPush true 7, .push true, .push true]

theorem settles_pushedToSleeper :
    ((monitor Bool).final (monitor Bool).init pushedToSleeper).loop = .asleep ∧
      (working Bool).EndsIn State.Settled
        ((monitor Bool).final (monitor Bool).init pushedToSleeper) :=
  ⟨by decide, settles _ (Machine.reach_final (by decide))⟩

end Monitor

end PyNng
