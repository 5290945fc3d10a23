import PyNng.Common.Exclusion
import PyNng.Common.Simulation
import PyNng.Dispatch.Drain
import PyNng.Dispatch.Model.Monitor
/-!
# Dispatch — mutex and condition variable refine the dispatch queue

`DispatchQueue` takes a push, a stop, a `get_ready` and a `wait_for` each as
one step under the mutex. `refines_dispatcher` says that this is right of the
code with its mutex and its condition variable: a push is the `push_back`, a
stop the assignment, and `wait_for` is what it does when the wait is over,
because the mutex is held from the last test of the predicate to there. So
everything known of the reached states of `dispatcher` is known of this
machine's.
-/

namespace PyNng

namespace Monitor

variable {Pusher : Type*} [DecidableEq Pusher] {s s' : State Pusher} {p : Pusher}
variable {a : Act Pusher}

/-! ## Who holds the mutex -/

def PushPc.holds : PushPc → Bool
  | .locked _ | .pushed _ => true
  | _ => false

def StopPc.holds : StopPc → Bool
  | .locked | .flagged => true
  | _ => false

def LoopPc.holds : LoopPc → Bool
  | .looking | .looked _ | .predicate _ | .waited _ | .taken _ => true
  | _ => false

/-- The thread stands where the mutex is held. -/
def State.holds (s : State Pusher) : Holder Pusher → Bool
  | .pusher p => (s.pusher p).holds
  | .stopper => s.stopper.holds
  | .loop => s.loop.holds

theorem notify_holds (pc : LoopPc) : pc.notify.holds = pc.holds := by cases pc <;> rfl

theorem goesOn_holds {empty : LoopPc} (h : empty.holds = false) (got : Option ℕ) :
    (LoopPc.goesOn empty got).holds = false := by
  cases got with
  | none => exact h
  | some id => rfl

/-- The mutex is held by whoever stands where it is held. -/
abbrev State.Locked (s : State Pusher) : Prop := Exclusive s.mutex fun h => s.holds h = true

/-- Only this thread has gone to another place. -/
def Moved (h : Holder Pusher) (s s' : State Pusher) : Prop := ∀ g, g ≠ h → s'.holds g = s.holds g

theorem holds_setPusher (p : Pusher) (pc : PushPc) (s : State Pusher) :
    (s.setPusher p pc).holds (.pusher p) = pc.holds := by
  show (Function.update s.pusher p pc p).holds = pc.holds
  rw [Function.update_self]

theorem moved_setPusher {pc : PushPc} (hp : s'.pusher = s.pusher) (hst : s'.stopper = s.stopper)
    (hl : s'.loop.holds = s.loop.holds) : Moved (.pusher p) s (s'.setPusher p pc) := by
  intro g hne
  cases g with
  | pusher q =>
    have hq : q ≠ p := fun he => hne (he ▸ rfl)
    show (Function.update s'.pusher p pc q).holds = (s.pusher q).holds
    rw [Function.update_of_ne hq, hp]
  | stopper => exact congrArg StopPc.holds hst
  | loop => exact hl

omit [DecidableEq Pusher] in
theorem moved_stopper (hp : s'.pusher = s.pusher) (hl : s'.loop.holds = s.loop.holds) :
    Moved .stopper s s' := by
  intro g hne
  cases g with
  | pusher q => exact congrArg (fun f => PushPc.holds (f q)) hp
  | stopper => exact absurd rfl hne
  | loop => exact hl

omit [DecidableEq Pusher] in
theorem moved_loop (hp : s'.pusher = s.pusher) (hst : s'.stopper = s.stopper) :
    Moved .loop s s' := by
  intro g hne
  cases g with
  | pusher q => exact congrArg (fun f => PushPc.holds (f q)) hp
  | stopper => exact congrArg StopPc.holds hst
  | loop => exact absurd rfl hne

namespace State.Locked

variable {h : Holder Pusher}

omit [DecidableEq Pusher] in
theorem keep (hx : s.Locked) (hmv : Moved h s s') (hm : s'.mutex = s.mutex)
    (hh : s'.holds h = s.holds h) : s'.Locked := by
  unfold State.Locked
  rw [hm]
  exact Exclusive.keep hx (by rw [hh]) fun g hne => by rw [hmv g hne]

omit [DecidableEq Pusher] in
theorem acquire (hx : s.Locked) (hmv : Moved h s s') (hfree : s.mutex = none)
    (hm : s'.mutex = some h) (hh : s'.holds h = true) : s'.Locked := by
  unfold State.Locked
  rw [hm]
  exact Exclusive.acquire hx hfree hh fun g hne => by rw [hmv g hne]

omit [DecidableEq Pusher] in
theorem release (hx : s.Locked) (hmv : Moved h s s') (hheld : s.holds h = true)
    (hm : s'.mutex = none) (hh : s'.holds h = false) : s'.Locked := by
  unfold State.Locked
  rw [hm]
  exact Exclusive.release hx hheld (by rw [hh]; exact Bool.false_ne_true)
    fun g hne => by rw [hmv g hne]

end State.Locked

theorem locked_pushStep (hx : s.Locked) (hen : Enabled s (.push p)) : (s.pushStep p).Locked := by
  have hpl : s.holds (.pusher p) = (s.pusher p).holds := rfl
  unfold State.pushStep
  cases hpc : s.pusher p with
  | idle => exact hx
  | entering id =>
    exact hx.acquire (moved_setPusher rfl rfl rfl) (hen.2 (by rw [hpc]; rfl)) rfl
      (holds_setPusher ..)
  | locked id =>
    exact hx.keep (moved_setPusher rfl rfl rfl) rfl
      ((holds_setPusher ..).trans (by rw [hpl, hpc]; rfl))
  | pushed k =>
    exact hx.release (moved_setPusher rfl rfl rfl) (by rw [hpl, hpc]; rfl) rfl (holds_setPusher ..)
  | notifying k =>
    exact hx.keep (moved_setPusher rfl rfl (notify_holds _)) rfl
      ((holds_setPusher ..).trans (by rw [hpl, hpc]; rfl))

omit [DecidableEq Pusher] in
theorem locked_stopStep (hx : s.Locked) (hen : Enabled s .stop) : s.stopStep.Locked := by
  have hpl : s.holds .stopper = s.stopper.holds := rfl
  unfold State.stopStep
  cases hpc : s.stopper with
  | before => exact hx
  | done => exact hx
  | entering => exact hx.acquire (moved_stopper rfl rfl) (hen.2 (by rw [hpc]; rfl)) rfl rfl
  | locked => exact hx.keep (moved_stopper rfl rfl) rfl (by rw [hpl, hpc]; rfl)
  | flagged => exact hx.release (moved_stopper rfl rfl) (by rw [hpl, hpc]; rfl) rfl rfl
  | notifying =>
    exact hx.keep (moved_stopper rfl (notify_holds _)) rfl (by rw [hpl, hpc]; rfl)

omit [DecidableEq Pusher] in
theorem locked_loopStep (hx : s.Locked) (hen : Enabled s .loop) : s.loopStep.Locked := by
  have hpl : s.holds .loop = s.loop.holds := rfl
  unfold State.loopStep
  cases hpc : s.loop with
  | asleep => exact hx
  | returned => exact hx
  | raised => exact hx
  | draining | entering | woken =>
    exact hx.acquire (moved_loop rfl rfl) (hen.2 (by rw [hpc]; rfl)) rfl rfl
  | looking => exact hx.keep (moved_loop rfl rfl) rfl (by rw [hpl, hpc]; rfl)
  | looked got =>
    exact hx.release (moved_loop rfl rfl) (by rw [hpl, hpc]; rfl) rfl (goesOn_holds rfl got)
  | taken got =>
    exact hx.release (moved_loop rfl rfl) (by rw [hpl, hpc]; rfl) rfl (goesOn_holds rfl got)
  | dispatching id => exact hx.keep (moved_loop rfl rfl) rfl (by rw [hpl, hpc]; rfl)
  | testing =>
    refine hx.keep (moved_loop rfl rfl) rfl ?_
    rw [hpl, hpc]
    show (if s.stopped then LoopPc.returned else LoopPc.entering).holds = LoopPc.testing.holds
    split <;> rfl
  | predicate late =>
    dsimp only
    split
    · exact hx.keep (moved_loop rfl rfl) rfl (by rw [hpl, hpc]; rfl)
    · split
      · exact hx.keep (moved_loop rfl rfl) rfl (by rw [hpl, hpc]; rfl)
      · exact hx.release (moved_loop rfl rfl) (by rw [hpl, hpc]; rfl) rfl rfl
  | waited woken =>
    dsimp only
    split <;> exact hx.keep (moved_loop rfl rfl) rfl (by rw [hpl, hpc]; rfl)

/-- Every step keeps the mutex and its holder in step. -/
theorem locked_next (hx : s.Locked) (hen : Enabled s a) : (next s a).Locked := by
  cases a with
  | callPush q id =>
    have hidle : s.pusher q = .idle := hen
    exact hx.keep (moved_setPusher rfl rfl rfl) rfl
      ((holds_setPusher ..).trans (congrArg PushPc.holds hidle).symm)
  | push q => exact locked_pushStep hx hen
  | callStop =>
    have hbefore : s.stopper = .before := hen
    exact hx.keep (moved_stopper rfl rfl) rfl (congrArg StopPc.holds hbefore).symm
  | stop => exact locked_stopStep hx hen
  | loop => exact locked_loopStep hx hen
  | dispatchRaises =>
    have hpc : s.loop = .dispatching 0 := hen
    exact hx.keep (moved_loop rfl rfl) rfl (congrArg LoopPc.holds hpc).symm
  | spurious | timeout =>
    have hpc : s.loop = .asleep := hen
    exact hx.keep (moved_loop rfl rfl) rfl (congrArg LoopPc.holds hpc).symm

theorem locked_of_reach (hs : (monitor Pusher).Reach s) : s.Locked := by
  induction hs with
  | init =>
    intro h
    cases h <;> exact ⟨nofun, nofun⟩
  | step _ _ hen ih => exact locked_next ih hen

/-! ## What the predicate said -/

/-- Whoever does not hold the mutex changes neither the queue nor the flag. -/
theorem same_of_not_holds (hen : Enabled s a)
    (hp : ∀ p, a = .push p → (s.pusher p).holds = false)
    (hst : a = .stop → s.stopper.holds = false) (hl : a ≠ .loop) :
    (next s a).queue = s.queue ∧ (next s a).stopped = s.stopped := by
  cases a with
  | callPush q id => exact ⟨rfl, rfl⟩
  | push q =>
    have hq := hp q rfl
    dsimp only [next, State.pushStep]
    cases hpc : s.pusher q with
    | locked id =>
      rw [hpc] at hq
      cases hq
    | idle | entering | pushed | notifying => exact ⟨rfl, rfl⟩
  | callStop => exact ⟨rfl, rfl⟩
  | stop =>
    have hh := hst rfl
    dsimp only [next, State.stopStep]
    cases hpc : s.stopper with
    | locked =>
      rw [hpc] at hh
      cases hh
    | before | entering | flagged | notifying | done => exact ⟨rfl, rfl⟩
  | loop => exact absurd rfl hl
  | dispatchRaises | spurious | timeout => exact ⟨rfl, rfl⟩

/-- **While the loop holds the mutex** nobody else changes the queue or the flag. -/
theorem same_of_loop_holds (hx : s.Locked) (hh : s.loop.holds = true) (hen : Enabled s a)
    (hl : a ≠ .loop) : (next s a).queue = s.queue ∧ (next s a).stopped = s.stopped := by
  have hloop : s.holds .loop = true := hh
  have hout : ∀ h : Holder Pusher, h ≠ .loop → s.holds h = false := fun h hne =>
    Bool.eq_false_iff.mpr fun hhold => hne (Exclusive.unique hx hhold hloop)
  exact same_of_not_holds hen (fun p _ => hout (.pusher p) nofun) (fun _ => hout .stopper nofun) hl

/-- **A step that is not the loop's own** leaves it where it is, or wakes it, or
is the end of it. -/
theorem loop_next (hen : Enabled s a) (hl : a ≠ .loop) :
    (next s a).loop = s.loop ∨ (s.loop = .asleep ∧ ∃ late, (next s a).loop = .woken late) ∨
      (s.loop = .dispatching 0 ∧ (next s a).loop = .raised) := by
  have hnotify : s.loop.notify = s.loop ∨
      (s.loop = .asleep ∧ ∃ late, s.loop.notify = .woken late) := by
    cases hpc : s.loop with
    | asleep => exact .inr ⟨rfl, false, rfl⟩
    | _ => exact .inl rfl
  cases a with
  | callPush q id => exact .inl rfl
  | push q =>
    dsimp only [next, State.pushStep]
    cases s.pusher q with
    | notifying k => exact hnotify.imp_right .inl
    | idle | entering | locked | pushed => exact .inl rfl
  | callStop => exact .inl rfl
  | stop =>
    dsimp only [next, State.stopStep]
    cases s.stopper with
    | notifying => exact hnotify.imp_right .inl
    | before | entering | locked | flagged | done => exact .inl rfl
  | loop => exact absurd rfl hl
  | dispatchRaises => exact .inr (.inr ⟨hen, rfl⟩)
  | spurious => exact .inr (.inl ⟨hen, false, rfl⟩)
  | timeout => exact .inr (.inl ⟨hen, true, rfl⟩)

omit [DecidableEq Pusher] in
/-- The loop's wait is over when it has tested the predicate, and nothing else
has changed by that. -/
theorem waited_of_loopStep {b : Bool} (hb : s.loopStep.loop = .waited b) :
    s.loopStep.ready = b := by
  unfold State.loopStep at hb ⊢
  cases hpc : s.loop <;> rw [hpc] at hb <;> dsimp only at hb ⊢
  case predicate late =>
    by_cases hready : s.ready = true
    · rw [if_pos hready] at hb ⊢
      cases hb
      exact hready
    · rw [if_neg hready] at hb ⊢
      by_cases hlate : late = true
      · rw [if_pos hlate] at hb ⊢
        cases hb
        exact Bool.eq_false_iff.mpr hready
      · rw [if_neg hlate] at hb
        cases hb
  case looked got => cases got <;> cases hb
  case taken got => cases got <;> cases hb
  case testing => split at hb <;> cases hb
  case waited woken => split at hb <;> cases hb
  all_goals first | cases hb | (rw [hpc] at hb; cases hb)

/-- **What the predicate said still holds** when the loop acts on it. -/
theorem ready_of_waited (hs : (monitor Pusher).Reach s) {woken : Bool}
    (hw : s.loop = .waited woken) : s.ready = woken := by
  induction hs with
  | init => cases hw
  | @step s a hr _ hen ih =>
    by_cases hl : a = .loop
    · subst hl
      exact waited_of_loopStep hw
    · have hw : (next s a).loop = .waited woken := hw
      rcases loop_next hen hl with h | ⟨-, late, h⟩ | ⟨-, h⟩
      · rw [h] at hw
        obtain ⟨hq, hst⟩ := same_of_loop_holds (locked_of_reach hr) (by rw [hw]; rfl) hen hl
        show (next s a).ready = woken
        unfold State.ready
        rw [hq, hst]
        exact ih hw
      · rw [h] at hw
        cases hw
      · rw [h] at hw
        cases hw

/-! ## The refinement -/

/-- What the push is to `DispatchQueue`: it begins with the `push_back`. -/
def PushPc.abs : PushPc → DispatchQueue.PushPc
  | .idle | .entering _ | .locked _ => .idle
  | .pushed k | .notifying k => .notifying k

def StopPc.abs : StopPc → DispatchQueue.StopPc
  | .before => .before
  | .entering | .locked => .called
  | .flagged | .notifying | .done => .done

/-- What it has taken is in hand, whether the mutex is released yet or not. -/
def LoopPc.abs : LoopPc → DispatchQueue.LoopPc
  | .draining | .looking | .taken none => .draining
  | .looked (some id) | .taken (some id) | .dispatching id => .dispatching id
  | .looked none | .testing => .testing
  | .entering | .predicate _ | .asleep | .woken _ | .waited _ => .waiting
  | .returned => .returned
  | .raised => .raised

def State.abs (s : State Pusher) : DispatchQueue.State Pusher where
  queue := s.queue
  stopped := s.stopped
  pusher := fun p => (s.pusher p).abs
  stopper := s.stopper.abs
  loop := s.loop.abs
  pushed := s.pushed
  completed := s.completed
  atStop := s.atStop
  dispatched := s.dispatched

/-- The step of `DispatchQueue` that a step of a push is. -/
def PushPc.label (p : Pusher) : PushPc → Option (DispatchQueue.Act Pusher)
  | .locked id => some (.enqueue p id)
  | .notifying _ => some (.notify p)
  | _ => none

def StopPc.label : StopPc → Option (DispatchQueue.Act Pusher)
  | .locked => some .setStopped
  | _ => none

def LoopPc.label : LoopPc → Option (DispatchQueue.Act Pusher)
  | .looking => some .getReady
  | .dispatching _ => some .dispatch
  | .testing => some .isStopped
  | .waited _ => some .waitFor
  | _ => none

def label (s : State Pusher) : Act Pusher → Option (DispatchQueue.Act Pusher)
  | .push p => (s.pusher p).label p
  | .callStop => some .callStop
  | .stop => s.stopper.label
  | .loop => s.loop.label
  | .dispatchRaises => some .dispatchRaises
  | .callPush .. | .spurious | .timeout => none

theorem abs_setPusher (p : Pusher) (pc : PushPc) (s : State Pusher) :
    (s.setPusher p pc).abs =
      { s.abs with pusher := Function.update s.abs.pusher p pc.abs } := by
  have hf : (fun q => (Function.update s.pusher p pc q).abs) =
      Function.update (fun q => (s.pusher q).abs) p pc.abs :=
    funext fun q => Function.apply_update (fun _ => PushPc.abs) s.pusher p pc q
  exact congrArg (fun f => { s.abs with pusher := f }) hf

theorem abs_setPusher_same {pc : PushPc} (h : pc.abs = (s.pusher p).abs) :
    (s.setPusher p pc).abs = s.abs := by
  rw [abs_setPusher, h]
  show { s.abs with pusher := Function.update s.abs.pusher p (s.abs.pusher p) } = s.abs
  rw [Function.update_eq_self]

theorem notify_abs (pc : LoopPc) : pc.notify.abs = pc.abs := by cases pc <;> rfl

/-- A step of a push. -/
theorem refines_pushStep (s : State Pusher) (p : Pusher) :
    (∀ b, (s.pusher p).label p = some b →
      DispatchQueue.Enabled s.abs b ∧ (s.pushStep p).abs = DispatchQueue.next s.abs b) ∧
    ((s.pusher p).label p = none → (s.pushStep p).abs = s.abs) := by
  have habs : s.abs.pusher p = (s.pusher p).abs := rfl
  unfold State.pushStep
  cases hpc : s.pusher p with
  | idle => exact ⟨nofun, fun _ => rfl⟩
  | entering id =>
    refine ⟨nofun, fun _ => ?_⟩
    exact abs_setPusher_same (s := { s with mutex := some (.pusher p) })
      (by dsimp only; rw [hpc]; rfl)
  | locked id =>
    refine ⟨fun b hb => ?_, nofun⟩
    cases hb
    exact ⟨by show s.abs.pusher p = _; rw [habs, hpc]; rfl, abs_setPusher ..⟩
  | pushed k =>
    refine ⟨nofun, fun _ => ?_⟩
    exact abs_setPusher_same (s := { s with mutex := none }) (by dsimp only; rw [hpc]; rfl)
  | notifying k =>
    refine ⟨fun b hb => ?_, nofun⟩
    cases hb
    have hat : s.abs.pusher p = .notifying k := by rw [habs, hpc]; rfl
    refine ⟨⟨k, hat⟩, ?_⟩
    rw [abs_setPusher]
    dsimp only [DispatchQueue.next]
    rw [hat]
    dsimp only [State.abs]
    rw [notify_abs]
    rfl

/-- A step of `stop`. -/
theorem refines_stopStep (s : State Pusher) :
    (∀ b, (s.stopper.label : Option (DispatchQueue.Act Pusher)) = some b →
      DispatchQueue.Enabled s.abs b ∧ s.stopStep.abs = DispatchQueue.next s.abs b) ∧
    ((s.stopper.label : Option (DispatchQueue.Act Pusher)) = none → s.stopStep.abs = s.abs) := by
  have habs : s.abs.stopper = s.stopper.abs := rfl
  unfold State.stopStep
  cases hpc : s.stopper with
  | before => exact ⟨nofun, fun _ => rfl⟩
  | done => exact ⟨nofun, fun _ => rfl⟩
  | locked =>
    refine ⟨fun b hb => ?_, nofun⟩
    cases hb
    exact ⟨by show s.abs.stopper = _; rw [habs, hpc]; rfl, rfl⟩
  | entering | flagged =>
    refine ⟨nofun, fun _ => ?_⟩
    rw [hpc] at habs
    exact congrArg (fun x => { s.abs with stopper := x }) habs.symm
  | notifying =>
    refine ⟨nofun, fun _ => ?_⟩
    rw [hpc] at habs
    show { s.abs with loop := s.loop.notify.abs, stopper := .done } = s.abs
    rw [notify_abs]
    exact congrArg (fun x => { s.abs with stopper := x }) habs.symm

omit [DecidableEq Pusher] in
/-- What the loop takes is what `pop` takes. -/
theorem abs_take {pc : Option ℕ → LoopPc} {empty : DispatchQueue.LoopPc}
    (hnone : (pc none).abs = empty) (hsome : ∀ id, (pc (some id)).abs = .dispatching id) :
    (s.take pc).abs = s.abs.pop empty := by
  unfold State.take DispatchQueue.State.pop
  have hq : s.abs.queue = s.queue := rfl
  rw [hq]
  cases hqueue : s.queue with
  | nil =>
    dsimp only [State.abs, List.tail_nil, List.head?_nil]
    rw [hnone]
  | cons id queue =>
    dsimp only [State.abs, List.tail_cons, List.head?_cons]
    rw [hsome]

omit [DecidableEq Pusher] in
/-- A step of the loop that is its own business. -/
theorem abs_setLoop {mutex : Option (Holder Pusher)} {pc : LoopPc} (h : pc.abs = s.loop.abs) :
    ({ s with mutex, loop := pc } : State Pusher).abs = s.abs :=
  congrArg (fun x => { s.abs with loop := x }) h

omit [DecidableEq Pusher] in
theorem goesOn_abs (empty : LoopPc) (got : Option ℕ) :
    (LoopPc.goesOn empty got).abs = got.elim empty.abs .dispatching := by cases got <;> rfl

/-- A step of the loop. `hw` is what the last test of the predicate said. -/
theorem refines_loopStep (hw : ∀ woken, s.loop = .waited woken → s.ready = woken) :
    (∀ b : DispatchQueue.Act Pusher, s.loop.label = some b →
      DispatchQueue.Enabled s.abs b ∧ s.loopStep.abs = DispatchQueue.next s.abs b) ∧
    ((s.loop.label : Option (DispatchQueue.Act Pusher)) = none → s.loopStep.abs = s.abs) := by
  have habs : s.abs.loop = s.loop.abs := rfl
  unfold State.loopStep
  cases hpc : s.loop with
  | asleep | returned | raised => exact ⟨nofun, fun _ => rfl⟩
  | draining | entering | woken late =>
    exact ⟨nofun, fun _ => abs_setLoop (by rw [hpc]; rfl)⟩
  | looking =>
    refine ⟨fun b hb => ?_, nofun⟩
    cases hb
    exact ⟨by show s.abs.loop = _; rw [habs, hpc]; rfl, abs_take rfl fun _ => rfl⟩
  | looked got | taken got =>
    refine ⟨nofun, fun _ => abs_setLoop ?_⟩
    rw [goesOn_abs, hpc]
    cases got <;> rfl
  | dispatching id =>
    refine ⟨fun b hb => ?_, nofun⟩
    cases hb
    have hat : s.abs.loop = .dispatching id := by rw [habs, hpc]; rfl
    refine ⟨⟨id, hat⟩, ?_⟩
    dsimp only [DispatchQueue.next]
    rw [hat]
    rfl
  | testing =>
    refine ⟨fun b hb => ?_, nofun⟩
    cases hb
    refine ⟨by show s.abs.loop = _; rw [habs, hpc]; rfl, ?_⟩
    dsimp only [State.abs, DispatchQueue.next]
    cases s.stopped <;> rfl
  | predicate late =>
    refine ⟨nofun, fun _ => ?_⟩
    dsimp only
    split
    · exact abs_setLoop (by rw [hpc]; rfl)
    · split <;> exact abs_setLoop (by rw [hpc]; rfl)
  | waited woken =>
    refine ⟨fun b hb => ?_, nofun⟩
    cases hb
    refine ⟨by show s.abs.loop = _; rw [habs, hpc]; rfl, ?_⟩
    dsimp only
    cases woken with
    | true => exact abs_take rfl fun _ => rfl
    | false =>
      -- the time was over and the predicate false: there is nothing to take
      have hempty : s.queue = [] := by
        have hno := hw false hpc
        unfold State.ready at hno
        simpa using (Bool.or_eq_false_iff.mp hno).1
      rw [if_neg Bool.false_ne_true]
      dsimp only [DispatchQueue.next, DispatchQueue.State.pop, State.abs]
      rw [hempty]
      rfl

/-- **The code refines the queue.** A run of the threads over their mutex and
condition variable is a run of `dispatcher`. -/
theorem refines_dispatcher :
    Machine.Refines (monitor Pusher) (DispatchQueue.dispatcher Pusher) State.abs
      fun s a => (label s a).toList := by
  refine .of_option rfl (fun s a b hs hen hl => ?_) fun s a hs hen hl => ?_
  · cases a with
    | callPush | spurious | timeout => cases hl
    | push p => exact (refines_pushStep s p).1 b hl
    | callStop =>
      cases hl
      have hbefore : s.stopper = .before := hen
      exact ⟨by show s.stopper.abs = _; rw [hbefore]; rfl, rfl⟩
    | stop => exact (refines_stopStep s).1 b hl
    | loop => exact (refines_loopStep fun _ => ready_of_waited hs).1 b hl
    | dispatchRaises =>
      cases hl
      have hat : s.loop = .dispatching 0 := hen
      exact ⟨by show s.loop.abs = _; rw [hat]; rfl, rfl⟩
  · cases a with
    | callPush p id =>
      have hidle : s.pusher p = .idle := hen
      exact abs_setPusher_same (by rw [hidle]; rfl)
    | push p => exact (refines_pushStep s p).2 hl
    | callStop | dispatchRaises => cases hl
    | stop => exact (refines_stopStep s).2 hl
    | loop => exact (refines_loopStep fun _ => ready_of_waited hs).2 hl
    | spurious | timeout =>
      have hat : s.loop = .asleep := hen
      exact congrArg (fun x => { s.abs with loop := x }) (congrArg LoopPc.abs hat).symm

/-- **Its runs are runs of the queue**, step for step, and end in the same queue,
with the same ids dispatched. -/
theorem run_refines {as : List (Act Pusher)}
    (hv : (monitor Pusher).Valid (monitor Pusher).init as) :
    (DispatchQueue.dispatcher Pusher).Valid (DispatchQueue.dispatcher Pusher).init
        ((monitor Pusher).labels (fun s a => (label s a).toList) (monitor Pusher).init as) ∧
      ((monitor Pusher).final (monitor Pusher).init as).abs =
        (DispatchQueue.dispatcher Pusher).final (DispatchQueue.dispatcher Pusher).init
          ((monitor Pusher).labels (fun s a => (label s a).toList) (monitor Pusher).init as) :=
  refines_dispatcher.run .init hv

/-- The loop sleeps, is woken by a push, and takes the id. -/
def wokenByPush : List (Act Unit) :=
  [.loop, .loop, .loop, .loop, .loop, .loop, .callPush () 7, .push (), .push (), .push (), .push (),
    .loop, .loop, .loop, .loop, .loop]

theorem run_refines_wokenByPush :
    ((DispatchQueue.dispatcher Unit).final (DispatchQueue.dispatcher Unit).init
        ((monitor Unit).labels (fun s a => (label s a).toList) (monitor Unit).init
          wokenByPush)).dispatched = [7] := by
  rw [← (@run_refines Unit _ wokenByPush (by decide)).2]
  decide

end Monitor

end PyNng
