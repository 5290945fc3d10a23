import PyNng.Proactor.Ended
/-!
# Proactor — a released manager gives its descriptors back

`release` waits for nothing. What is left is for the loop to run what it
has ready, or to be closed, for what the task reads to come or not, and for
the references and the operations to go, in whatever order.
-/

namespace PyNng

namespace DrainTask

variable {s : State} {a : Act} {n : ℕ}

/-- What is left to do once nothing uses the manager any more. -/
def Winding : Act → Prop
  | .run _ | .callback | .goRound | .recvDone | .recvFails | .closeLoop | .drop | .endOp | .free
  | .closeQueue => True
  | _ => False

/-- **The machine of what is left.** -/
def winding : Machine State Act where
  init := task.init
  Enabled := fun s a => Enabled s a ∧ Winding a
  next := next

/-! ## What is left to do -/

/-- How many steps the task may still take or cause. -/
@[simp]
def Drain.work : Drain → ℕ
  | .absent | .ended _ => 0
  | .unstarted | .received | .failed | .recvCancelled => 1
  | .receiving => 3
  | .dispatching callbacks => callbacks + 1

def State.left (s : State) : ℕ :=
  s.drain.work + s.ready.length + s.refs + s.ops + (if s.closed then 0 else 1) +
    (if s.freed then 0 else 1) + if s.queueOpen then 1 else 0

/-- A cancellation may make a step ready, but it ends the waiting. -/
theorem left_cancelTask : s.cancelTask.left ≤ s.left := by
  unfold State.cancelTask
  split
  · exact Nat.le_refl _
  · exact Nat.le_refl _
  · rename_i hat
    unfold State.left
    dsimp only
    rw [hat, List.length_append, List.length_singleton]
    dsimp only [Drain.work]
    omega
  · exact Nat.le_refl _

theorem left_endTask {o : Outcome} {b c : Bool} :
    ({ s with drain := .ended o, mustCancel := b, taskUserCancelled := c } : State).left ≤
      s.left := by
  unfold State.left
  dsimp only [Drain.work]
  omega

/-- A task that is released ends at its next step. -/
theorem left_stepTask (h : Dropped s) : (s.stepTask n).left ≤ s.left := by
  have hround : s.goRound.left ≤ s.left := by
    unfold State.goRound
    rw [if_neg (by rw [h.hasLoop]; exact Bool.false_ne_true)]
    exact left_endTask
  unfold State.stepTask
  split
  · split
    · exact left_endTask
    · exact hround
  · exact left_endTask
  · split
    · exact left_endTask
    · rw [if_neg (by rw [h.hasCallables]; exact Bool.false_ne_true)]
      exact left_endTask
  · split
    · exact left_endTask
    · exact left_endTask
  · exact Nat.le_refl _

theorem left_ready {x : Scheduled} {rest : List Scheduled} (hready : s.ready = x :: rest) :
    ({ s with ready := rest } : State).left + 1 = s.left := by
  unfold State.left
  rw [hready, List.length_cons]
  dsimp only
  omega

/-- **One step less.** -/
theorem Released.left_lt (h : Released s) (hen : winding.Enabled s a) :
    (winding.next s a).left < s.left := by
  obtain ⟨hen, hwind⟩ := hen
  show (DrainTask.next s a).left < s.left
  cases a with
  | run n =>
    unfold DrainTask.next
    dsimp only
    split
    · rename_i hready
      exact absurd hready hen.1
    · rename_i rest hready
      have hle := left_stepTask (s := { s with ready := rest }) (n := n)
        ⟨h.made, h.hasLoop, h.hasCallables⟩
      have hlt := left_ready hready
      omega
    · rename_i rest hready
      have hle := left_cancelTask (s := { s with ready := rest })
      have hlt := left_ready hready
      omega
  | callback =>
    have hpos : 0 < s.drain.callbacks := hen
    have hwork : s.drain.work = s.drain.callbacks + 1 :=
      congrArg Drain.work (Drain.eq_dispatching hen)
    have hnext : (Drain.dispatching (s.drain.callbacks - 1)).work = s.drain.callbacks - 1 + 1 := rfl
    unfold DrainTask.next State.left
    dsimp only
    omega
  | goRound =>
    have hat : s.drain = .dispatching 0 := hen
    unfold DrainTask.next State.goRound
    rw [if_neg (by rw [h.hasLoop]; exact Bool.false_ne_true)]
    unfold State.left
    rw [hat]
    dsimp only [Drain.work]
    omega
  | recvDone | recvFails =>
    obtain ⟨hat, -⟩ := hen
    unfold DrainTask.next State.left
    dsimp only
    rw [hat, List.length_append, List.length_singleton]
    dsimp only [Drain.work]
    omega
  | closeLoop =>
    obtain ⟨-, hopen, -⟩ := hen
    unfold DrainTask.next State.left
    dsimp only
    rw [hopen, if_pos rfl, if_neg Bool.false_ne_true, List.length_nil]
    omega
  | drop | endOp =>
    unfold DrainTask.next State.left
    unfold Enabled at hen
    dsimp only
    omega
  | free =>
    obtain ⟨-, hfreed, -⟩ := hen
    unfold DrainTask.next State.left
    dsimp only
    rw [hfreed, if_neg Bool.false_ne_true, if_pos rfl]
    omega
  | closeQueue =>
    obtain ⟨-, -, hqueue⟩ := hen
    unfold DrainTask.next State.left
    dsimp only
    rw [hqueue, if_neg Bool.false_ne_true, if_pos rfl]
    omega
  | create | share | startOp | userCancel | release => exact hwind.elim

/-! ## Where nothing is left -/

/-- **The manager is gone.** -/
structure Gone (s : State) : Prop where
  freed : s.freed = true
  sock : s.sockOpen = false
  queue : s.queueOpen = false
  task : s.closed = false → s.drain.isOver = true

theorem Released.gone (h : Released s) (hno : ∀ a, ¬ winding.Enabled s a) : Gone s := by
  have hsound := h.sound
  have hrefs : s.refs = 0 := Nat.eq_zero_of_not_pos fun hpos => hno .drop ⟨hpos, trivial⟩
  have hops : s.ops = 0 := Nat.eq_zero_of_not_pos fun hpos => hno .endOp ⟨hpos, trivial⟩
  have hidle : s.drain.isDispatching = false := by
    cases hat : s.drain with
    | dispatching n =>
      cases n with
      | zero => exact (hno .goRound ⟨hat, trivial⟩).elim
      | succ n =>
        refine (hno .callback ⟨?_, trivial⟩).elim
        unfold Enabled
        rw [hat]
        exact n.succ_pos
    | _ => rfl
  have hready : s.ready = [] := by
    cases hat : s.ready with
    | nil => rfl
    | cons x rest =>
      exact (hno (.run 0) ⟨⟨by rw [hat]; exact List.cons_ne_nil _ _, hidle⟩, trivial⟩).elim
  -- a task that is not over has a step or its cancellation ready
  have hover : s.closed = false → s.drain.isOver = true := by
    intro hopen
    rw [← Bool.not_eq_false]
    intro hunder
    by_cases hat : s.drain = .receiving
    · have hhead := hsound.receiving hat h.hasLoop hopen
      rw [hready] at hhead
      cases hhead
    · have hcount := hsound.step hopen
      rw [hready, Drain.steps_eq hunder hidle hat] at hcount
      cases hcount
  have hfreed : s.freed = true := by
    rw [← Bool.not_eq_false]
    intro hheld
    refine hno .free ⟨⟨h.made, hheld, hrefs, ?_⟩, trivial⟩
    rintro ⟨hunder, hopen⟩
    rw [hover hopen] at hunder
    cases hunder
  refine ⟨hfreed, (hsound.freed hfreed).1, ?_, hover⟩
  rw [← Bool.not_eq_true]
  intro hqueue
  exact hno .closeQueue ⟨⟨hfreed, hops, hqueue⟩, trivial⟩

/-- **Both descriptors are given back.** From a release on, nothing that is left to
do goes on forever, and when nothing is left the task is over, unless its loop
was closed under it, the manager is freed, and the socket that the task read
from and the queue are closed. -/
theorem given_back (hs : task.Reach s) (hrefs : 0 < s.refs) :
    winding.EndsIn Gone (next s .release) := by
  have hstep : ∀ (s : State) (a : Act), Released s → winding.Enabled s a →
      Released (winding.next s a) ∧ (winding.next s a).left < s.left :=
    fun _ _ h hen => ⟨h.next hen.1, h.left_lt hen⟩
  exact .of_lowers hstep (fun _ h hno => h.gone hno) ((sound_of_reach hs).released hrefs)

/-- Both are open after the release, and the task is not over. -/
theorem given_back_dispatchingTwo :
    let released := next (task.final task.init dispatchingTwo) .release
    (released.sockOpen = true ∧ released.queueOpen = true ∧ released.drain.isOver = false) ∧
      winding.EndsIn Gone released :=
  ⟨by decide, given_back (Machine.reach_final (by decide)) (by decide)⟩

end DrainTask

end PyNng
