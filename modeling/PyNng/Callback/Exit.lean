import PyNng.Callback.Futures
import PyNng.Common.Simulation
/-!
# Callback — the operations that are in the queue when it is stopped

To the dispatch queue the operations are pushers, and a callable is what
happens while an id is in hand (`refines_dispatcher`). So what is known of
the queue is known of the operations: where the loop leaves no id behind, it
leaves no future pending whose trampoline had returned before the stop.
-/

namespace PyNng

namespace Callback

variable {s : State} {a : Act} {i : ℕ}

/-- What a step is to the dispatch queue. -/
def label (s : State) : Act → Option (DispatchQueue.Act (ℕ ⊕ ℕ))
  | .fire i => some (.enqueue (.inl i) (s.op i).addr)
  | .fired i => some (.notify (.inl i))
  | .pipeEvent p => some (.enqueue (.inr p) 0)
  | .pipeEventDone p => some (.notify (.inr p))
  | .callStop => some .callStop
  | .setStopped => some .setStopped
  | .getReady => some .getReady
  | .isStopped => some .isStopped
  | .waitFor => some .waitFor
  | .drainPipes raises => some (if raises then .dispatchRaises else .dispatch)
  | .test =>
    match s.hand with
    | .called i =>
      if (s.op i).hasFuture ∧ (s.op i).fut = .pending then none else some .dispatch
    | _ => none
  | .set | .schedule => some .dispatch
  | .create .. | .prepareSubmit _ | .submit .. | .complete .. | .popCallable | .deliver _
  | .closeLoop _ | .interrupt .. | .waited _ | .drop _ | .free _ => none

/-- A callable runs while its id is in hand. -/
theorem enabled_dispatch (h : Kept s) (hop : s.hand.op = some i) :
    DispatchQueue.Enabled s.disp .dispatch :=
  ⟨_, ((h.row i).hand hop).1⟩

/-- **The operations keep to the dispatch queue.** -/
theorem refines_dispatcher :
    Machine.Refines callbacks (DispatchQueue.dispatcher (ℕ ⊕ ℕ)) State.disp
      fun s a => (label s a).toList := by
  refine .of_option rfl (fun s a b hs hen hl => ?_) fun s a hs hen hl => ?_
  · have hk := kept_of_reach hs
    have hen : Enabled s a := hen
    show DispatchQueue.Enabled s.disp b ∧ (next s a).disp = DispatchQueue.next s.disp b
    cases a with
    | fire i =>
      obtain rfl := Option.some.inj hl
      exact ⟨hk.pusher_idle hen, rfl⟩
    | fired i =>
      obtain rfl := Option.some.inj hl
      exact ⟨(hk.row i).pushing.mp hen, rfl⟩
    | pipeEvent p | pipeEventDone p | callStop | setStopped | getReady | isStopped | waitFor =>
      obtain rfl := Option.some.inj hl
      exact ⟨hen, rfl⟩
    | drainPipes raises =>
      obtain rfl := Option.some.inj hl
      have hloop : s.disp.loop = .dispatching 0 := hen
      cases raises with
      | true => exact ⟨hloop, rfl⟩
      | false => exact ⟨⟨0, hloop⟩, rfl⟩
    | test =>
      obtain ⟨i, hhand, -, -⟩ := exists_of_calls hen
      have hdisp : DispatchQueue.Enabled s.disp .dispatch :=
        enabled_dispatch hk (i := i) (by rw [hhand]; rfl)
      dsimp only [label, next] at hl ⊢
      rw [hhand] at hl ⊢
      dsimp only at hl ⊢
      split at hl
      · cases hl
      · rename_i hno
        obtain rfl := Option.some.inj hl
        refine ⟨hdisp, ?_⟩
        split
        · rename_i hhas
          rw [if_neg fun hf => hno ⟨hhas, hf⟩]
          rfl
        · rfl
    | set =>
      obtain ⟨i, hhand⟩ := exists_of_isSetting hen
      obtain rfl := Option.some.inj hl
      refine ⟨enabled_dispatch hk (i := i) (by rw [hhand]; rfl), ?_⟩
      dsimp only [next]
      rw [hhand]
      rfl
    | schedule =>
      obtain ⟨i, hhand, -, -⟩ := exists_of_calls hen
      obtain rfl := Option.some.inj hl
      refine ⟨enabled_dispatch hk (i := i) (by rw [hhand]; rfl), ?_⟩
      dsimp only [next]
      rw [hhand]
      rfl
    | _ => cases hl
  · have hk := kept_of_reach hs
    have hen : Enabled s a := hen
    show (next s a).disp = s.disp
    cases a with
    | create | prepareSubmit | submit | complete | closeLoop | interrupt | waited | drop | free =>
      rfl
    | popCallable =>
      obtain ⟨hhand, hid⟩ := hen
      obtain ⟨id, hloop, hne⟩ := exists_of_hasId hid
      obtain ⟨i, -, -, hpop, -⟩ := hk.popId hloop hne hhand
      dsimp only [next]
      rw [hloop]
      dsimp only
      rw [hpop]
    | deliver i =>
      dsimp only [next]
      split <;> rfl
    | test =>
      obtain ⟨i, hhand, -, -⟩ := exists_of_calls hen
      dsimp only [label, next] at hl ⊢
      rw [hhand] at hl ⊢
      dsimp only at hl ⊢
      split at hl
      · rename_i hpending
        rw [if_pos hpending.1, if_pos hpending.2]
        rfl
      · cases hl
    | _ => cases hl

/-- **What had fired before the stop is called before the loop ends**, where
the flag is not set between a `get_ready` that found the queue empty and the
`is_stopped` after it: the operation's callable has been called and its
future has been told. -/
theorem called_before_exit {as : List Act} (hv : callbacks.Valid callbacks.init as)
    (hret : (callbacks.final callbacks.init as).disp.loop = .returned)
    (hcalm : (DispatchQueue.dispatcher (ℕ ⊕ ℕ)).Meets DispatchQueue.Calm
      (DispatchQueue.dispatcher (ℕ ⊕ ℕ)).init
      (callbacks.labels (fun s a => (label s a).toList) callbacks.init as))
    {k i : ℕ} (hstop : (callbacks.final callbacks.init as).disp.atStop k = true)
    (hfired : (callbacks.final callbacks.init as).fired[k]? = some (some i)) :
    i ∈ (callbacks.final callbacks.init as).called ∧
      ((callbacks.final callbacks.init as).op i).hasFuture = false := by
  have hs : callbacks.Reach (callbacks.final callbacks.init as) := Machine.reach_final hv
  have hk := kept_of_reach hs
  obtain ⟨hvalid, hfinal⟩ := refines_dispatcher.run .init hv
  have hend : (callbacks.final callbacks.init as).disp =
      (DispatchQueue.dispatcher (ℕ ⊕ ℕ)).final (DispatchQueue.dispatcher (ℕ ⊕ ℕ)).init
        (callbacks.labels (fun s a => (label s a).toList) callbacks.init as) := hfinal
  have hserved : DispatchQueue.Served (callbacks.final callbacks.init as).disp := by
    have hret' := hret
    rw [hend] at hret' ⊢
    exact ((DispatchQueue.drained_iff hvalid hret').mpr hcalm).served
  have hk' := hserved k hstop
  have hcalled : i ∈ (callbacks.final callbacks.init as).called := by
    rw [hk.mem_called_iff, List.mem_take_iff_getElem]
    obtain ⟨hlt, hat⟩ := List.getElem?_eq_some_iff.mp hfired
    refine ⟨k, ?_, hat⟩
    have hle : (callbacks.final callbacks.init as).disp.dispatched.length ≤
        (callbacks.final callbacks.init as).taken := Nat.le_add_right ..
    omega
  refine ⟨hcalled, ?_⟩
  rw [← Bool.not_eq_true, (told_of_reach hs i).fresh]
  rintro (hno | hhand)
  · exact hno hcalled
  · have hloop := ((hk.row i).hand (by rw [hhand]; rfl)).1
    rw [hret] at hloop
    cases hloop

/-- The operation fires and the queue is stopped while the loop waits. -/
def firedThenStopped : List Act :=
  [.getReady, .isStopped] ++ received 0 ++
    [.fired 0, .callStop, .setStopped, .waitFor, .popCallable, .test, .set, .getReady, .isStopped]

theorem called_before_exit_waiting :
    0 ∈ (callbacks.final callbacks.init firedThenStopped).called ∧
      ((callbacks.final callbacks.init firedThenStopped).op 0).hasFuture = false := by
  have hcalm : (DispatchQueue.dispatcher (ℕ ⊕ ℕ)).Meets DispatchQueue.Calm
      (DispatchQueue.dispatcher (ℕ ⊕ ℕ)).init
      (callbacks.labels (fun s a => (label s a).toList) callbacks.init firedThenStopped) := by
    -- the flag is set while the loop waits
    refine ⟨trivial, trivial, trivial, trivial, trivial, fun h => absurd h ?_, trivial, trivial,
      trivial, trivial, trivial⟩
    decide
  exact called_before_exit (k := 0) (i := 0) (by decide) (by decide) hcalm (by decide) (by decide)

end Callback

end PyNng
