import PyNng.Common.Measure
import PyNng.Dispatch.Wakeup
/-!
# Dispatch — the event loop gets every id

Once nobody begins another `push`, the bytes still to write and the
reader's drains come to an end in every order, and the reader has then had
everything that was pushed. A byte is written at most once for each time
the queue was empty, and the reader is called only while the buffer has
one; so neither the pushers nor the reader can go on forever.
-/

namespace PyNng

namespace SockQueue

variable {Pusher Id : Type*} [DecidableEq Pusher] {capacity : ℕ}
variable {s : State Pusher Id} {a : Act Pusher Id}

/-- The machine without new pushes. -/
def serving (Pusher Id : Type*) [DecidableEq Pusher] (capacity : ℕ) :
    Machine (State Pusher Id) (Act Pusher Id) where
  init := (wakeup Pusher Id capacity).init
  Enabled s
    | .enqueue .. => False
    | a => Enabled s a
  next := next capacity

theorem enabled_of_serving (hen : (serving Pusher Id capacity).Enabled s a) : Enabled s a := by
  cases a with
  | enqueue p id => exact hen.elim
  | send p | drainWakeup | drainReady => exact hen

/-- Everything pushed is handed over, and nobody has anything to do. -/
structure State.Served (s : State Pusher Id) : Prop where
  idle : ∀ p, s.pusher p = .idle
  waiting : s.reader = .waiting
  handed : s.handed = s.pushed

theorem served_of_stuck (h : Covered s)
    (hno : ∀ a, ¬ (serving Pusher Id capacity).Enabled s a) : s.Served := by
  have hidle : ∀ p, s.pusher p = .idle := fun p => by
    cases hp : s.pusher p with
    | idle => rfl
    | wakes => exact absurd hp (hno (.send p))
  have hwaiting : s.reader = .waiting := by
    cases hr : s.reader with
    | waiting => rfl
    | drained => exact absurd hr (hno .drainReady)
  have hempty : s.buffer = 0 :=
    Nat.eq_zero_of_not_pos fun hpos => hno .drainWakeup ⟨hwaiting, hpos⟩
  have hqueue : s.queue = [] := by
    by_contra hne
    rcases h.wakes hne with hb | ⟨p, hp⟩ | hr
    · omega
    · rw [hidle p] at hp
      cases hp
    · rw [hwaiting] at hr
      cases hr
  refine ⟨hidle, hwaiting, ?_⟩
  have hsplit := h.split
  rwa [hqueue, List.append_nil] at hsplit

/-! ## What is still to do -/

def PushPc.work : PushPc → ℕ
  | .idle => 0
  | .wakes => 3

def ReadPc.work : ReadPc → ℕ
  | .waiting => 0
  | .drained => 1

variable [Fintype Pusher]

/-- A byte to write is a byte to read, and a byte to read is a drain to do. -/
def State.work (s : State Pusher Id) : ℕ :=
  ∑ p, (s.pusher p).work + 2 * s.buffer + s.reader.work

theorem work_lt (hen : (serving Pusher Id capacity).Enabled s a) :
    (next capacity s a).work < s.work := by
  cases a with
  | enqueue p id => exact hen.elim
  | send p =>
    have hp : s.pusher p = .wakes := hen
    have hsum := sum_work_update PushPc.work s.pusher p .idle
    rw [hp] at hsum
    have hwork : PushPc.wakes.work = 3 ∧ PushPc.idle.work = 0 := ⟨rfl, rfl⟩
    have hsend : send capacity s.buffer ≤ s.buffer + 1 := by
      unfold send
      split <;> omega
    show ∑ q, (Function.update s.pusher p .idle q).work + 2 * send capacity s.buffer +
      s.reader.work < ∑ q, (s.pusher q).work + 2 * s.buffer + s.reader.work
    omega
  | drainWakeup =>
    obtain ⟨hr, hpos⟩ : s.reader = .waiting ∧ 0 < s.buffer := hen
    show ∑ q, (s.pusher q).work + 2 * drainWakeup s.buffer + 1
      < ∑ q, (s.pusher q).work + 2 * s.buffer + s.reader.work
    rw [drainWakeup_eq_zero]
    omega
  | drainReady =>
    have hr : s.reader = .drained := hen
    show ∑ q, (s.pusher q).work + 2 * s.buffer + 0
      < ∑ q, (s.pusher q).work + 2 * s.buffer + s.reader.work
    rw [hr]
    exact Nat.lt_succ_self _

/-- **Every id reaches the event loop.** From any reachable state, and without new
pushes, the steps of the pushing threads and of the reader come to an end in
whatever order they are taken, and then everything pushed has been handed over. -/
theorem all_served (hcap : 1 ≤ capacity) (h : (wakeup Pusher Id capacity).Reach s) :
    (serving Pusher Id capacity).EndsIn State.Served s := by
  have hstep : ∀ (s : State Pusher Id) (a : Act Pusher Id), Covered s →
      (serving Pusher Id capacity).Enabled s a →
      Covered ((serving Pusher Id capacity).next s a) ∧
        ((serving Pusher Id capacity).next s a).work < s.work :=
    fun s a hs hen => ⟨hs.next hcap (enabled_of_serving hen), work_lt hen⟩
  exact .of_lowers hstep (fun _ hs hno => served_of_stuck hs hno) (covered_of_reach hcap h)

/-- A byte crosses a drain: the second push finds the queue empty and is still to
write when the reader has already had its id. -/
def crossed : List (Act Bool ℕ) :=
  [.enqueue false 7, .send false, .drainWakeup, .drainReady, .enqueue true 8, .enqueue false 9]

theorem all_served_crossed :
    ((wakeup Bool ℕ 1).final (wakeup Bool ℕ 1).init crossed).handed = [7] ∧
      (serving Bool ℕ 1).EndsIn State.Served
        ((wakeup Bool ℕ 1).final (wakeup Bool ℕ 1).init crossed) :=
  ⟨by decide, all_served (Nat.le_refl 1) (Machine.reach_final (by
    simp [Machine.Valid, wakeup, Enabled, next, send, crossed]))⟩

end SockQueue

end PyNng
