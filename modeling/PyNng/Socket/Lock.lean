import PyNng.Socket.Model
/-!
# Socket — who holds `_pipe_mutex`

A thread holds the mutex exactly while it stands at a place of
`update_pipes` or `close` inside the locked section, so no two threads are
inside at once. Every invariant of the locked sections rests on this.
-/

namespace PyNng

namespace Socket

variable {σ : Type} {cfg : Config σ} {s s' : State σ}

/-- The places of `update_pipes` inside the locked section. -/
def CallPc.holds : CallPc → Bool
  | .checking | .snapshotting | .creating | .reading => true
  | _ => false

/-- The places of `close` inside the locked section. -/
def ClosePc.holds : ClosePc → Bool
  | .locked | .pipesCleared | .collectionCleared | .filterCleared => true
  | _ => false

/-- A thread stands inside the locked section. -/
def State.holds (s : State σ) : Holder → Bool
  | .call t => (s.calls t).pc.holds
  | .closer c => (s.closing c).pc.holds

/-- **The mutex is held by the thread inside, and by nobody else.** -/
def Locked (s : State σ) : Prop := ∀ h, s.holds h = true ↔ s.lock = some h

theorem holds_setCall {t : ℕ} {call : Call} (h : Holder) :
    (State.setCall t call s).holds h = if h = .call t then call.pc.holds else s.holds h := by
  cases h with
  | call u =>
    by_cases hut : u = t
    · subst hut; simp [State.holds, State.setCall]
    · simp [State.holds, State.setCall, hut]
  | closer c => rfl

theorem holds_setClosing {c : Closer} {run : CloseRun} (h : Holder) :
    (State.setClosing c run s).holds h = if h = .closer c then run.pc.holds else s.holds h := by
  cases h with
  | call u => rfl
  | closer d =>
    by_cases hdc : d = c
    · subst hdc; simp [State.holds, State.setClosing]
    · simp [State.holds, State.setClosing, hdc]

/-- A thread that enters is in no other call. -/
theorem CanEnter.resting {t : ℕ} (h : CanEnter s t) :
    (s.calls t).pc = .idle ∨ (s.calls t).pc = .returned ∨ (s.calls t).pc = .raised := by
  cases t with
  | zero => exact h.1.imp_right Or.inl
  | succ t => exact h

/-! ## The hook's run of `close` -/

/-- Only a call inside its hook has a run of `close`. -/
def HooksIdle (s : State σ) : Prop :=
  ∀ t, (s.calls t).pc ≠ .hooking → (s.closing (.hook t)).pc = .idle

namespace HooksIdle

theorem of_same (h : HooksIdle s) (hcalls : s'.calls = s.calls)
    (hclosing : s'.closing = s.closing) : HooksIdle s' := fun t => by
  rw [hcalls, hclosing]
  exact h t

theorem setCall (h : HooksIdle s) {t : ℕ} {call : Call} (hcalls : s'.calls = s.calls)
    (hclosing : s'.closing = s.closing) (hpc : (s.calls t).pc ≠ .hooking) :
    HooksIdle (State.setCall t call s') := by
  intro u hu
  simp only [State.setCall, hcalls, hclosing] at hu ⊢
  by_cases hut : u = t
  · subst hut; exact h u hpc
  · rw [Function.update_of_ne hut] at hu; exact h u hu

theorem setClosing (h : HooksIdle s) {c : Closer} {run : CloseRun} (hcalls : s'.calls = s.calls)
    (hclosing : s'.closing = s.closing) (hc : ∀ t, c = .hook t → (s.calls t).pc = .hooking) :
    HooksIdle (State.setClosing c run s') := by
  intro u hu
  simp only [State.setClosing, hcalls, hclosing] at hu ⊢
  by_cases huc : .hook u = c
  · exact absurd (hc u huc.symm) hu
  · rw [Function.update_of_ne huc]; exact h u hu

/-- A run of `close` that can go on is a user's, or the hook's of a call in it. -/
theorem hooking (h : HooksIdle s) {c : Closer} (hen : CanClose s c) :
    ∀ t, c = .hook t → (s.calls t).pc = .hooking := by
  rintro t rfl
  by_contra hpc
  simp only [CanClose, h t hpc] at hen
  obtain ⟨n, hn⟩ := hen
  cases hn

theorem closeStep (h : HooksIdle s) {c : Closer} (hen : CanClose s c) :
    HooksIdle (closeStep s c) := by
  have hc := h.hooking hen
  cases hpc : (s.closing c).pc with
  | locked => simp only [Socket.closeStep, hpc]; split <;> exact h.setClosing rfl rfl hc
  | closed => simp only [Socket.closeStep, hpc]; split <;> exact h.setClosing rfl rfl hc
  | done => simpa only [Socket.closeStep, hpc] using h
  | _ => simp only [Socket.closeStep, hpc]; exact h.setClosing rfl rfl hc

theorem next (h : HooksIdle s) {a : Act} (hen : Enabled s a) : HooksIdle (next cfg s a) := by
  cases a with
  | event p ev => simp only [Socket.next]; split <;> exact h.of_same rfl rfl
  | enter t =>
    refine h.setCall rfl rfl ?_
    rcases CanEnter.resting hen with hpc | hpc | hpc <;> simp [hpc]
  | acquire t => exact h.setCall rfl rfl (by simp [hen.1])
  | check t =>
    have hpc : (s.calls t).pc = .checking := hen
    simp only [Socket.next]
    split <;> exact h.setCall rfl rfl (by simp [hpc])
  | snapshot t =>
    have hpc : (s.calls t).pc = .snapshotting := hen
    exact h.setCall rfl rfl (by simp [hpc])
  | create t =>
    simp only [Socket.next]
    split
    · exact h
    · exact h.setCall rfl rfl (by simp [hen.1])
  | sample t => exact h.setCall rfl rfl (by simp [hen.1])
  | read t =>
    simp only [Socket.next]
    split
    · exact h.setCall rfl rfl (by simp [hen.1])
    · exact h
  | hook t =>
    simp only [Socket.next]
    split
    · -- the run that begins is that of the call now in its hook
      intro u hu
      by_cases hut : u = t
      · subst hut; simp [State.setCall] at hu
      · simp only [State.setCall, State.setClosing, Function.update_of_ne hut] at hu ⊢
        rw [Function.update_of_ne (by simpa using hut)]
        exact h u hu
    · exact h.setCall rfl rfl (by simp [hen.1])
  | hookDone t =>
    intro u hu
    by_cases hut : u = t
    · subst hut; simp [Socket.next, State.setCall, State.setClosing]
    · simp only [Socket.next, State.setCall, State.setClosing, Function.update_of_ne hut] at hu ⊢
      rw [Function.update_of_ne (by simpa using hut)]
      exact h u hu
  | assign t => exact h.setCall rfl rfl (by simp [hen.1])
  | unlock t => exact h.setCall rfl rfl (by simp [hen.1])
  | status t o => exact h.setCall rfl rfl (by simp [hen.1])
  | announce t o => exact h.setCall rfl rfl (by simp [hen.1])
  | ret t => exact h.setCall rfl rfl (by simp [hen.1])
  | close c => exact h.closeStep hen
  | _ => exact h.of_same rfl rfl

end HooksIdle

theorem hooksIdle_of_reach (h : (socket cfg).Reach s) : HooksIdle s :=
  h.invariant (fun _ _ => rfl) fun _ _ _ hs _ hen => hs.next hen

/-! ## The mutex -/

namespace Locked

/-- The thread inside is the only one. -/
theorem eq_of_holds (hl : Locked s) {h h' : Holder} (hh : s.holds h = true)
    (hh' : s.holds h' = true) : h = h' :=
  Option.some.inj (((hl h).mp hh).symm.trans ((hl h').mp hh'))

theorem of_same (hl : Locked s) (hlock : s'.lock = s.lock)
    (hholds : ∀ h, s'.holds h = s.holds h) : Locked s' := fun h => by
  rw [hholds h, hlock]; exact hl h

/-- Nobody was inside, and one thread gets in. -/
theorem take (hl : Locked s) (h₀ : Holder) (hfree : s.lock = none) (hlock : s'.lock = some h₀)
    (hin : s'.holds h₀ = true) (hholds : ∀ h, h ≠ h₀ → s'.holds h = s.holds h) : Locked s' := by
  intro h
  by_cases hh : h = h₀
  · subst hh; exact ⟨fun _ => hlock, fun _ => hin⟩
  · -- the lock was free, so nobody else was inside
    rw [hholds h hh, hlock, hl h, hfree]
    exact ⟨fun hc => absurd hc (by simp), fun hc => absurd (Option.some.inj hc).symm hh⟩

/-- The thread inside gets out. -/
theorem release (hl : Locked s) (h₀ : Holder) (hin : s.holds h₀ = true) (hlock : s'.lock = none)
    (hout : s'.holds h₀ = false) (hholds : ∀ h, h ≠ h₀ → s'.holds h = s.holds h) :
    Locked s' := by
  intro h
  rw [hlock]
  by_cases hh : h = h₀
  · subst hh; simp [hout]
  · rw [hholds h hh, hl h, (hl h₀).mp hin]
    exact ⟨fun hc => absurd (Option.some.inj hc).symm hh, fun hc => absurd hc (by simp)⟩

/-- A call moves on its side of the mutex. -/
theorem setCall (hl : Locked s) {t : ℕ} {call : Call} (hlock : s'.lock = s.lock)
    (hcalls : s'.calls = s.calls) (hclosing : s'.closing = s.closing)
    (hpc : call.pc.holds = (s.calls t).pc.holds) : Locked (State.setCall t call s') := by
  have hs' : ∀ h, s'.holds h = s.holds h := by
    intro h
    cases h with
    | call u => simp only [State.holds, hcalls]
    | closer c => simp only [State.holds, hclosing]
  refine hl.of_same hlock fun h => ?_
  rw [holds_setCall]
  split
  · rename_i hh; subst hh; exact hpc
  · exact hs' h

/-- A run of `close` moves on its side of the mutex. -/
theorem setClosing (hl : Locked s) {c : Closer} {run : CloseRun} (hlock : s'.lock = s.lock)
    (hcalls : s'.calls = s.calls) (hclosing : s'.closing = s.closing)
    (hpc : run.pc.holds = (s.closing c).pc.holds) : Locked (State.setClosing c run s') := by
  refine hl.of_same hlock fun h => ?_
  rw [holds_setClosing]
  split
  · rename_i hh; subst hh; exact hpc
  · cases h with
    | call u => simp only [State.holds, hcalls]
    | closer d => simp only [State.holds, hclosing]

/-- A run of `close` unlocks. -/
theorem releaseClosing (hl : Locked s) {c : Closer} {run : CloseRun} (hlock : s'.lock = none)
    (hcalls : s'.calls = s.calls) (hclosing : s'.closing = s.closing)
    (hin : (s.closing c).pc.holds = true) (hout : run.pc.holds = false) :
    Locked (State.setClosing c run s') := by
  refine hl.release (.closer c) hin hlock ?_ fun h hh => ?_
  · rw [holds_setClosing, if_pos rfl, hout]
  · rw [holds_setClosing, if_neg hh]
    cases h with
    | call u => simp only [State.holds, hcalls]
    | closer d => simp only [State.holds, hclosing]

/-- A call unlocks. -/
theorem releaseCall (hl : Locked s) {t : ℕ} {call : Call} (hlock : s'.lock = none)
    (hcalls : s'.calls = s.calls) (hclosing : s'.closing = s.closing)
    (hin : (s.calls t).pc.holds = true) (hout : call.pc.holds = false) :
    Locked (State.setCall t call s') := by
  refine hl.release (.call t) hin hlock ?_ fun h hh => ?_
  · rw [holds_setCall, if_pos rfl, hout]
  · rw [holds_setCall, if_neg hh]
    cases h with
    | call u => simp only [State.holds, hcalls]
    | closer d => simp only [State.holds, hclosing]

theorem closeStep (hl : Locked s) {c : Closer} (hen : CanClose s c) :
    Locked (closeStep s c) := by
  cases hpc : (s.closing c).pc with
  | locking =>
    simp only [CanClose, hpc] at hen
    simp only [Socket.closeStep, hpc]
    refine hl.take (.closer c) hen rfl ?_ fun h hh => ?_
    · rw [holds_setClosing, if_pos rfl]; rfl
    · rw [holds_setClosing, if_neg hh]; cases h <;> rfl
  | locked =>
    simp only [Socket.closeStep, hpc]
    split
    · exact hl.setClosing rfl rfl rfl (by rw [hpc]; rfl)
    -- already closed: it returns, and the lock with it
    · exact hl.releaseClosing rfl rfl rfl (by rw [hpc]; rfl) rfl
  | filterCleared =>
    simp only [Socket.closeStep, hpc]
    exact hl.releaseClosing rfl rfl rfl (by rw [hpc]; rfl) rfl
  | unlocked =>
    simp only [Socket.closeStep, hpc]
    exact hl.setClosing rfl rfl rfl (by rw [hpc]; split <;> rfl)
  | closed =>
    simp only [Socket.closeStep, hpc]
    split <;> exact hl.setClosing rfl rfl rfl (by simp [hpc, ClosePc.holds])
  | done => simpa only [Socket.closeStep, hpc] using hl
  | _ =>
    simp only [Socket.closeStep, hpc]
    exact hl.setClosing rfl rfl rfl (by rw [hpc]; rfl)

/-- **Each step keeps the mutex with the thread inside.** -/
theorem next (hl : Locked s) (hh : HooksIdle s) {a : Act} (hen : Enabled s a) :
    Locked (Socket.next cfg s a) := by
  cases a with
  | event p ev =>
    simp only [Socket.next]
    split <;> exact hl.of_same rfl fun h => by cases h <;> rfl
  | enter t =>
    refine hl.setCall rfl rfl rfl ?_
    rcases CanEnter.resting hen with hpc | hpc | hpc <;> rw [hpc] <;> rfl
  | acquire t =>
    refine hl.take (.call t) hen.2 rfl ?_ fun h hh => ?_
    · simp only [Socket.next]; rw [holds_setCall, if_pos rfl]; rfl
    · simp only [Socket.next]; rw [holds_setCall, if_neg hh]; cases h <;> rfl
  | check t =>
    have hpc : (s.calls t).pc = .checking := hen
    simp only [Socket.next]
    split
    · exact hl.setCall rfl rfl rfl (by rw [hpc]; rfl)
    · exact hl.releaseCall rfl rfl rfl (by rw [hpc]; rfl) rfl
  | snapshot t =>
    have hpc : (s.calls t).pc = .snapshotting := hen
    exact hl.setCall rfl rfl rfl (by rw [hpc]; rfl)
  | create t =>
    simp only [Socket.next]
    split
    · exact hl
    · exact hl.setCall rfl rfl rfl rfl
  | assign t => exact hl.setCall rfl rfl rfl (by rw [hen.1]; rfl)
  | sample t => exact hl.setCall rfl rfl rfl rfl
  | read t =>
    simp only [Socket.next]
    split
    · exact hl.setCall rfl rfl rfl rfl
    · exact hl
  | unlock t => exact hl.releaseCall rfl rfl rfl (by rw [hen.1]; rfl) rfl
  | status t o => exact hl.setCall rfl rfl rfl (by rw [hen.1]; split <;> rfl)
  | hook t =>
    simp only [Socket.next]
    split
    · -- a hook that begins had no run of `close` before it
      have hidle := hh t (by simp [hen.1])
      exact (hl.setClosing rfl rfl rfl (by rw [hidle]; rfl)).setCall rfl rfl rfl
        (by simp only [State.setClosing, hen.1]; rfl)
    · exact hl.setCall rfl rfl rfl rfl
  | hookDone t =>
    exact (hl.setClosing rfl rfl rfl (by rw [hen.2]; rfl)).setCall rfl rfl rfl
      (by simp only [State.setClosing, hen.1]; rfl)
  | announce t o => exact hl.setCall rfl rfl rfl (by rw [hen.1]; split <;> rfl)
  | ret t => exact hl.setCall rfl rfl rfl (by rw [hen.1]; rfl)
  | close c => exact hl.closeStep hen
  | _ => exact hl.of_same rfl fun h => by cases h <;> rfl

end Locked

/-- The mutex is with the thread inside in every reachable state. -/
theorem locked_of_reach (h : (socket cfg).Reach s) : Locked s :=
  h.invariant
    (fun h => by
      cases h <;> simp [socket, State.holds, CallPc.holds, ClosePc.holds, Call.start])
    fun _ _ hr hs _ hen => hs.next (hooksIdle_of_reach hr) hen

end Socket

end PyNng
