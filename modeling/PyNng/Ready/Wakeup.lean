import PyNng.Ready.Model
/-!
# Ready — whether a waiting generator is woken

A generator in its `try` relies on the loop's one callback for its fd
being its own. Opening a generator puts its callback there whatever was
there, and closing one takes away whatever is there: with two generators
on one fd the older is left without a callback, or the younger loses its.

`awake_iff` says that this is all that can go wrong.
-/

namespace PyNng

namespace Ready

open Async (Fut)

variable {s : State} {a : Act}

/-! ## What is asked of a state -/

/-- **Every waiting generator has a wakeup**, and closing one takes away no
other's. -/
structure Awake (s : State) : Prop where
  registered : ∀ g, (s.gen g).phase = .awaiting → s.reader (s.gen g).fd = some g
  /-- When the fd becomes readable, the future is resolved. -/
  resolves : ∀ g, (s.gen g).phase = .awaiting →
    ((next s (.wakeup (s.gen g).fd)).gen g).fut ≠ .pending
  spares : ∀ g h, h ≠ g → Enabled s (.close g) →
    ∀ fd, s.reader fd = some h → (next s (.close g)).reader fd = some h

/-- No generator is opened while another is open on its fd. -/
def Alone (s : State) (a : Act) : Prop :=
  match a with
  | .open _ dir answer _ | .selectorRaises _ dir answer =>
    ∀ g, (s.gen g).phase.isOpen = true → (s.gen g).fd ≠ s.fdFor dir answer
  | _ => True

/-! ## What a run keeps -/

/-- **Every open generator is registered.** -/
def Registered (s : State) : Prop :=
  ∀ g, (s.gen g).phase.isOpen = true → s.reader (s.gen g).fd = some g

theorem fut_set_ne_pending (fut : Fut) : fut.set 0 ≠ .pending := by
  cases fut <;> simp [Fut.set]

theorem awake_of_registered (h : Registered s) : Awake s := by
  have hopen : ∀ g, (s.gen g).phase = .awaiting → s.reader (s.gen g).fd = some g :=
    fun g hg => h g (by rw [hg]; rfl)
  refine ⟨hopen, fun g hg => ?_, fun g k hne hen fd hfd => ?_⟩
  · simp only [next, hopen g hg, setGen_gen_self, Gen.wakeup]
    exact fut_set_ne_pending _
  · -- the callback there is another's, so the fd is another one
    have hfds : fd ≠ (s.gen g).fd := by
      intro heq
      rw [heq, h g hen] at hfd
      exact hne (Option.some.inj hfd).symm
    show Function.update s.reader (s.gen g).fd none fd = some k
    rw [Function.update_of_ne hfds, hfd]

/-- A step on one generator that keeps its fd, and leaves the readers. -/
theorem Registered.setGen (h : Registered s) {g : ℕ} {x : Gen}
    (hx : x.phase.isOpen = true → s.reader x.fd = some g) : Registered (s.setGen g x) := by
  intro k hk
  by_cases hkg : k = g
  · subst hkg
    rw [setGen_gen_self] at hk ⊢
    exact hx hk
  · rw [setGen_gen_of_ne hkg] at hk ⊢
    exact h k hk

/-- With no other generator open on the fd, a new reader replaces nobody's. -/
theorem Registered.addReader (h : Registered s) {g : ℕ} {dir : Dir} {answer : ℤ}
    (halone : ∀ k, (s.gen k).phase.isOpen = true → (s.gen k).fd ≠ s.fdFor dir answer) :
    Registered (s.addReader g dir answer) := by
  intro k hk
  show Function.update s.reader (s.fdFor dir answer) (some g) (s.gen k).fd = some k
  rw [Function.update_of_ne (halone k hk)]
  exact h k hk

/-- **One step.** -/
theorem Registered.next (h : Registered s) (halone : Alone s a) (hen : Enabled s a) :
    Registered (next s a) := by
  cases a with
  | «open» g dir answer ready =>
    refine (h.addReader halone).setGen fun _ => ?_
    rw [check_fd]
    exact Function.update_self ..
  | openRaises g | drop g => exact h.setGen fun hx => Bool.noConfusion hx
  | selectorRaises g dir answer =>
    exact (h.addReader halone).setGen fun hx => Bool.noConfusion hx
  | advance g ready =>
    have hpc : (s.gen g).phase = .yielded := hen
    refine h.setGen fun _ => ?_
    rw [check_fd]
    exact h g (by rw [hpc]; rfl)
  | resume g ready =>
    refine h.setGen fun _ => ?_
    rw [check_fd]
    exact h g (by rw [hen.1]; rfl)
  | wakeup fd =>
    simp only [Ready.next]
    cases s.reader fd with
    | none => exact h
    | some g => exact h.setGen (h g)
  | close g =>
    intro k hk
    by_cases hkg : k = g
    · subst hkg
      simp [Ready.next, Phase.isOpen] at hk
    · have hk' : (s.gen k).phase.isOpen = true := by
        simpa [Ready.next, State.setGen, State.removeReader, hkg] using hk
      have hfd : (s.gen k).fd ≠ (s.gen g).fd := by
        intro heq
        have hreader := h k hk'
        rw [heq, h g hen] at hreader
        exact hkg (Option.some.inj hreader).symm
      show Function.update s.reader (s.gen g).fd none ((State.setGen g _ _).gen k).fd = some k
      rw [setGen_gen_of_ne hkg]
      exact (Function.update_of_ne hfd ..).trans (h k hk')

/-! ## Two generators on one fd -/

/-- **The older generator of an fd has no wakeup**, or its close takes away
the younger's. -/
theorem not_awake_of_addReader {g k : ℕ} {dir : Dir} {answer : ℤ} {x : Gen}
    (hopen : (s.gen k).phase.isOpen = true) (hfd : (s.gen k).fd = s.fdFor dir answer)
    (hne : k ≠ g) : ¬ Awake ((s.addReader g dir answer).setGen g x) := by
  intro h
  generalize hs' : (s.addReader g dir answer).setGen g x = s' at h
  have hgen : s'.gen k = s.gen k := by
    rw [← hs', setGen_gen_of_ne hne]
    rfl
  have hreader : s'.reader (s.gen k).fd = some g := by
    rw [← hs', hfd]
    exact Function.update_self ..
  have hen : Enabled s' (.close k) := by
    show (s'.gen k).phase.isOpen = true
    rw [hgen, hopen]
  have hkept := h.spares k g hne.symm hen (s.gen k).fd hreader
  have hgone : (next s' (.close k)).reader (s.gen k).fd = none := by
    show Function.update s'.reader (s'.gen k).fd none (s.gen k).fd = none
    rw [hgen]
    exact Function.update_self ..
  rw [hgone] at hkept
  exact absurd hkept (by simp)

theorem not_awake_of_not_alone (hen : Enabled s a) (halone : ¬ Alone s a) : ¬ Awake (next s a) := by
  cases a with
  | «open» g dir answer ready | selectorRaises g dir answer =>
    simp only [Alone, not_forall, not_not] at halone
    obtain ⟨k, hopen, hfd⟩ := halone
    refine not_awake_of_addReader hopen hfd fun hkg => ?_
    rw [hkg, hen.1] at hopen
    exact Bool.noConfusion hopen
  | _ => exact absurd trivial halone

/-- **When every waiting generator has a wakeup.** All along a run of a
socket's readiness generators, each one waiting has its callback registered
and is woken by its fd, and closing one would take away no other's callback,
exactly when no generator is opened while another is open on the same fd. -/
theorem awake_iff {as : List Act} (hv : generators.Valid generators.init as) :
    generators.Throughout Awake generators.init as ↔ generators.Meets Alone generators.init as := by
  have hinit : Registered generators.init := fun _ h => Bool.noConfusion h
  have hP : ∀ s, Registered s → Awake s := fun _ => awake_of_registered
  exact Machine.throughout_iff_meets hP (fun _ _ _ h halone hen => h.next halone hen)
    (fun _ _ _ _ hen halone => not_awake_of_not_alone hen halone) .init hinit hv

/-- A generator in each direction, the receiving one woken and closed, and another after it. -/
theorem awake_iff_both_directions :
    let as : List Act := [.open 0 .recv 5 false, .open 1 .send 6 false, .wakeup 5, .resume 0 true,
      .close 0, .open 2 .recv 5 true, .wakeup 6, .resume 1 false]
    generators.Throughout Awake generators.init as ↔
      generators.Meets Alone generators.init as :=
  awake_iff (by decide)

/-- **A generator nobody wakes.** Two `arecv_ready` wait; the loop has the
callback of the second only, and none after the second is closed. -/
theorem waits_without_wakeup :
    ¬ ∀ as : List Act, generators.Valid generators.init as →
        generators.Throughout Awake generators.init as := by
  intro hclaim
  have h := (hclaim [.open 0 .recv 5 false, .open 1 .recv 5 false, .close 1] (by decide)).final
  exact absurd (h.registered 0 (by decide)) (by decide)

end Ready

end PyNng
