import PyNng.Message.Equality.Model
/-!
# Message — what `__eq__` does with locks that have no mutex

The two locks are declared and never associated with the mutexes of the
messages, as `lock_gil_friendly` does everywhere else. The first statement
after the type check then throws, whatever the messages hold and whatever
the other threads do, and nothing after it is reached.
-/

namespace PyNng

namespace Equality

variable {T : Type*} [DecidableEq T] {msg : ℕ → Option (List UInt8)} {s : State T} {t u : T}

/-- A comparison that has begun has thrown, or will with its next statement. -/
structure Unlocked (f : Frame) : Prop where
  pc : f.pc = .idle ∨ f.pc = .begun ∨ f.pc = .ended (.systemError .operationNotPermitted)
  lock1 : f.lock1.mutex = none
  lock2 : f.lock2.mutex = none

@[simp] theorem setFrame_frame_self (f : Frame) : (s.setFrame t f).frame t = f := by
  simp [State.setFrame]

theorem setFrame_frame_of_ne (h : u ≠ t) (f : Frame) :
    (s.setFrame t f).frame u = s.frame u := by
  simp [State.setFrame, h]

/-- **The first `try_lock` throws.** -/
theorem step_of_begun (h : Unlocked (s.frame t)) (hpc : (s.frame t).pc = .begun) :
    s.step t = s.setFrame t
      { s.frame t with
        pc := .ended (.systemError .operationNotPermitted), lock1 := {}, lock2 := {} } := by
  unfold State.step
  simp only [hpc]
  unfold State.onFirst
  rw [UniqueLock.tryLock_of_mutex_none h.lock1]
  simp only [State.leave, UniqueLock.destroy_of_mutex_none h.lock1,
    UniqueLock.destroy_of_mutex_none h.lock2]

/-- One step. -/
theorem unlocked_next (h : ∀ t, Unlocked (s.frame t)) {a : Act T} (hen : Enabled s a) (u : T) :
    Unlocked ((next declared s a).frame u) := by
  cases a with
  | begin t a b =>
    show Unlocked ((s.setFrame t _).frame u)
    by_cases hut : u = t
    · subst hut
      rw [setFrame_frame_self]
      exact ⟨Or.inr (Or.inl rfl), rfl, rfl⟩
    · rw [setFrame_frame_of_ne hut]
      exact h u
  | step t =>
    show Unlocked ((s.step t).frame u)
    have hbegun : (s.frame t).pc = .begun := by
      rcases (h t).pc with hpc | hpc | hpc
      · exact absurd hen.1 (by simp [hpc, Pc.running])
      · exact hpc
      · exact absurd hen.1 (by simp [hpc, Pc.running])
    rw [step_of_begun (h t) hbegun]
    by_cases hut : u = t
    · subst hut
      rw [setFrame_frame_self]
      exact ⟨Or.inr (Or.inr rfl), rfl, rfl⟩
    · rw [setFrame_frame_of_ne hut]
      exact h u
  | hold t m | letGo t m | steal t m => exact h u

theorem unlocked_of_reach (hr : (comparisons declared T msg).Reach s) (t : T) :
    Unlocked (s.frame t) := by
  induction hr generalizing t with
  | init => exact ⟨Or.inl rfl, rfl, rfl⟩
  | step _ _ hen ih => exact unlocked_next ih hen t

/-- **No two messages are ever compared.** Whatever the messages, the threads
and the order of their steps, no evaluation of `a == b` for two messages
returns, raises `NngClosed` or gets to the comparison of the bodies: its
first statement is never held up, and throws `std::system_error`. -/
theorem never_compares (hr : (comparisons declared T msg).Reach s) (t : T) :
    (∀ equal, (s.frame t).pc ≠ .ended (.returned equal)) ∧ (s.frame t).pc ≠ .ended .closed ∧
      (s.frame t).pc ≠ .comparing ∧
      ((s.frame t).pc = .begun →
        Enabled s (.step t) ∧
        ((next declared s (.step t)).frame t).pc =
          .ended (.systemError .operationNotPermitted)) := by
  have h := unlocked_of_reach hr t
  refine ⟨fun equal hpc => ?_, fun hpc => ?_, fun hpc => ?_, fun hpc => ⟨?_, ?_⟩⟩
  · rcases h.pc with h | h | h <;> simp [hpc] at h
  · rcases h.pc with h | h | h <;> simp [hpc] at h
  · rcases h.pc with h | h | h <;> simp [hpc] at h
  · simp [Enabled, State.waits, hpc, Pc.running]
  · show ((s.step t).frame t).pc = _
    rw [step_of_begun h hpc, setFrame_frame_self]

/-- Two live messages of equal bodies, and one thread. -/
def twins : ℕ → Option (List UInt8) := fun _ => some [1, 2]

theorem never_compares_twins :
    let s := (comparisons declared ℕ twins).final (comparisons declared ℕ twins).init
      [.begin 0 8 16]
    (∀ equal, (s.frame 0).pc ≠ .ended (.returned equal)) ∧ (s.frame 0).pc ≠ .ended .closed ∧
      (s.frame 0).pc ≠ .comparing ∧
      ((s.frame 0).pc = .begun →
        Enabled s (.step 0) ∧
        ((next declared s (.step 0)).frame 0).pc =
          .ended (.systemError .operationNotPermitted)) :=
  never_compares (Machine.reach_final (by decide)) 0

/-- **A comparison that does not complete**, of two live messages nobody else has. -/
theorem comparison_throws :
    ¬ ∀ as : List (Act ℕ),
        (comparisons declared ℕ twins).Valid (comparisons declared ℕ twins).init as →
        ∀ t r, (((comparisons declared ℕ twins).final
            (comparisons declared ℕ twins).init as).frame t).pc = .ended r →
          ∃ equal, r = .returned equal := by
  intro hclaim
  obtain ⟨equal, heq⟩ := hclaim [.begin 0 8 16, .step 0] (by decide) 0
    (.systemError .operationNotPermitted) (by decide)
  exact Outcome.noConfusion heq

end Equality

end PyNng
