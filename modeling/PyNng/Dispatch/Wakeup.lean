import PyNng.Dispatch.Model.SockQueue
/-!
# Dispatch — no wakeup is lost

The byte is written outside the mutex and only on the transition from
empty to non-empty, so a byte may cross a drain in either direction. What
carries is that a non-empty queue always has somebody behind it: a byte in
the buffer, a thread about to write one, or a reader about to take the
queue. `drain_wakeup` before `drain_ready` is what makes it inductive —
the reader that removes the bytes is itself the next witness.
-/

namespace PyNng

namespace SockQueue

variable {Pusher Id : Type*} [DecidableEq Pusher] {capacity : ℕ}
variable {s : State Pusher Id}

/-- **Somebody is behind the queue.** -/
structure Covered (s : State Pusher Id) : Prop where
  /-- A non-empty queue has a byte, a byte to come, or a reader about to take it. -/
  wakes : s.queue ≠ [] →
    1 ≤ s.buffer ∨ (∃ p, s.pusher p = .wakes) ∨ s.reader = .drained
  /-- The reader has had a prefix of the ids pushed, and the queue is the rest. -/
  split : s.handed ++ s.queue = s.pushed

/-- Each atomic step keeps the queue covered. -/
theorem Covered.next (hcap : 1 ≤ capacity) (h : Covered s) {a : Act Pusher Id}
    (hen : Enabled s a) : Covered (SockQueue.next capacity s a) := by
  obtain ⟨hwakes, hsplit⟩ := h
  cases a with
  | enqueue p id =>
    refine ⟨fun _ => ?_, by simp [SockQueue.next, ← hsplit]⟩
    by_cases hq : s.queue = []
    · exact Or.inr (Or.inl ⟨p, by simp [SockQueue.next, hq]⟩)
    · -- the queue was covered already, and the pusher at `p` was not the cover
      rcases hwakes hq with hb | ⟨p', hp'⟩ | hr
      · exact Or.inl hb
      · have hne : p' ≠ p := by
          rintro rfl
          rw [show s.pusher p' = .idle from hen] at hp'
          cases hp'
        exact Or.inr (Or.inl ⟨p', by simp [SockQueue.next, hne, hp']⟩)
      · exact Or.inr (Or.inr hr)
  | send p => exact ⟨fun _ => Or.inl (send_pos hcap s.buffer), hsplit⟩
  | drainWakeup => exact ⟨fun _ => Or.inr (Or.inr rfl), hsplit⟩
  | drainReady =>
    refine ⟨fun hq => absurd rfl hq, ?_⟩
    simpa [SockQueue.next, SockQueue.drainReady] using hsplit

/-- The queue is covered in every reachable state. -/
theorem covered_of_reach (hcap : 1 ≤ capacity) (h : (wakeup Pusher Id capacity).Reach s) :
    Covered s :=
  h.invariant ⟨fun hq => absurd rfl hq, rfl⟩ fun _ _ _ hs _ hen => hs.next hcap hen

/-- What `drain_ready` returned along the run, then what is still queued, are what was
queued before and what the run's pushes put on the queue. -/
theorem returned_append_queue (s : State Pusher Id) (as : List (Act Pusher Id)) :
    returned capacity s as ++ ((wakeup Pusher Id capacity).final s as).queue =
      s.queue ++ enqueued as := by
  induction as generalizing s with
  | nil => simp [returned, enqueued]
  | cons a as ih =>
    have hnext := ih (SockQueue.next capacity s a)
    rw [Machine.final_cons]
    cases a with
    | enqueue p id =>
      rw [returned, enqueued]
      · exact hnext.trans (List.append_assoc ..)
      · intro h; cases h
    | send p | drainWakeup => exact hnext
    | drainReady =>
      rw [returned, enqueued, List.append_assoc]
      · exact congrArg (s.queue ++ ·) hnext
      · intro _ _ h; cases h

/-- **No lost wakeup.** After any run, and so in every reachable state, a non-empty
queue has a byte in the buffer, a pusher with its byte still to send, or the reader
between its two drains; so no id stays queued behind an unreadable fd with nobody
left to write. What `drain_ready` returned along the run, then the queue, are the
ids of the run's pushes, each once and in push order. -/
theorem no_lost_wakeup (hcap : 1 ≤ capacity) {as : List (Act Pusher Id)}
    (hv : (wakeup Pusher Id capacity).Valid (wakeup Pusher Id capacity).init as) :
    let s := (wakeup Pusher Id capacity).final (wakeup Pusher Id capacity).init as
    (s.queue ≠ [] → 1 ≤ s.buffer ∨ (∃ p, s.pusher p = .wakes) ∨ s.reader = .drained) ∧
      ¬ (s.queue ≠ [] ∧ s.buffer = 0 ∧ (∀ p, s.pusher p = .idle) ∧ s.reader = .waiting) ∧
      returned capacity (wakeup Pusher Id capacity).init as ++ s.queue = enqueued as := by
  intro s
  have hwakes := (covered_of_reach hcap (Machine.reach_final hv)).wakes
  refine ⟨hwakes, ?_, returned_append_queue _ as⟩
  rintro ⟨hq, hb, hp, hr⟩
  rcases hwakes hq with h1 | ⟨p, h2⟩ | h3
  · exact absurd hb (Nat.ne_of_gt h1)
  · exact PushPc.noConfusion ((hp p).symm.trans h2)
  · exact ReadPc.noConfusion (hr.symm.trans h3)

/-- A push onto the empty queue with its byte, a second push that writes none, the two
drains, and a push onto the queue that is empty again, whose byte is still to write. -/
def crossing : List (Act ℕ ℕ) :=
  [.enqueue 0 7, .send 0, .enqueue 1 8, .drainWakeup, .drainReady, .enqueue 0 9]

theorem no_lost_wakeup_crossing :
    let s := (wakeup ℕ ℕ 1).final (wakeup ℕ ℕ 1).init crossing
    returned 1 (wakeup ℕ ℕ 1).init crossing = [7, 8] ∧ s.queue = [9] ∧
      enqueued crossing = [7, 8, 9] ∧ s.pusher 0 = .wakes ∧
      (s.queue ≠ [] → 1 ≤ s.buffer ∨ (∃ p, s.pusher p = .wakes) ∨ s.reader = .drained) ∧
      ¬ (s.queue ≠ [] ∧ s.buffer = 0 ∧ (∀ p, s.pusher p = .idle) ∧ s.reader = .waiting) ∧
      returned 1 (wakeup ℕ ℕ 1).init crossing ++ s.queue = enqueued crossing :=
  ⟨by decide, by decide, by decide, by decide,
    no_lost_wakeup (Nat.le_refl 1) (by
      simp [Machine.Valid, wakeup, Enabled, next, send, crossing])⟩

/-- **Draining is always within reach.** From every reachable state at most
one send and the reader's two drains hand over everything pushed. -/
theorem drains_of_reach (hcap : 1 ≤ capacity) (h : (wakeup Pusher Id capacity).Reach s)
    (hq : s.queue ≠ []) :
    ∃ as, as.length ≤ 3 ∧ (∀ p id, .enqueue p id ∉ as) ∧ (wakeup Pusher Id capacity).Valid s as ∧
      ((wakeup Pusher Id capacity).final s as).handed = s.pushed := by
  have hsplit := (covered_of_reach hcap h).split
  cases hr : s.reader with
  | drained => exact ⟨[.drainReady], by simp, by simp, ⟨hr, trivial⟩, hsplit⟩
  | waiting =>
    by_cases hb : 0 < s.buffer
    · exact ⟨[.drainWakeup, .drainReady], by simp, by simp, ⟨⟨hr, hb⟩, rfl, trivial⟩, hsplit⟩
    · rcases (covered_of_reach hcap h).wakes hq with h1 | ⟨p, h2⟩ | h3
      · omega
      · exact ⟨[.send p, .drainWakeup, .drainReady], by simp, by simp,
          ⟨h2, ⟨hr, send_pos hcap s.buffer⟩, rfl, trivial⟩, hsplit⟩
      · rw [hr] at h3; cases h3

end SockQueue

end PyNng
