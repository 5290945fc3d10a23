import PyNng.Mutex.Model
/-!
# Mutex — where the owner stands

What `count_` holds depends on where the owner stands: until
`count_.store(1)` it is left over, after the last `fetch_sub` it is zero
while the owner is still one deep, and at all other times it is the
owner's depth. No other thread writes either atomic while there is an
owner, so what one thread's step says about the others is that nothing
changed for them (`Untouched`).
-/

namespace PyNng

namespace DCGMutex

variable {T : Type*} {s s' : State T} {t u : T}

/-- Where only the owner can stand. -/
def Pc.needsOwner : Pc → Bool
  | .storeOne _ | .fetchAdd _ | .fetchSub | .clearOwner => true
  | .idle | .exchange _ | .loadOwner => false

/-- What the count and the owner's depth are while it stands there. -/
def Pc.Agrees (p : Pc) (count : ℤ) (depth : ℕ) : Prop :=
  match p with
  | .storeOne _ => depth = 1
  | .clearOwner => count = 0 ∧ depth = 1
  | .idle | .exchange _ | .fetchAdd _ | .loadOwner | .fetchSub => count = depth ∧ 0 < depth

/-- **The invariant, for one thread.** -/
structure State.Fits (s : State T) (t : T) : Prop where
  given_le : s.given t ≤ s.taken t
  outside : s.owner ≠ some t → s.depth t = 0 ∧ (s.pc t).needsOwner = false
  inside : s.owner = some t → (s.pc t).Agrees s.count (s.depth t)

theorem Pc.Agrees.pos {p : Pc} {count : ℤ} {depth : ℕ} (h : p.Agrees count depth) :
    0 < depth := by
  cases p <;> simp only [Pc.Agrees] at h <;> omega

/-- A thread outside gave back what it took. -/
theorem State.Fits.given_eq (hs : s.Fits t) (ho : s.owner ≠ some t) : s.given t = s.taken t := by
  have hdepth := (hs.outside ho).1
  have hle := hs.given_le
  unfold State.depth at hdepth
  omega

/-- **Inside is owning.** -/
theorem State.Fits.inside_iff (hs : s.Fits t) : s.Inside t ↔ s.owner = some t := by
  unfold State.Inside
  constructor
  · intro h
    by_contra ho
    have := hs.given_eq ho
    omega
  · intro ho
    have := (hs.inside ho).pos
    unfold State.depth at this
    omega

theorem State.Fits.owner_of_needsOwner (hs : s.Fits t) (h : (s.pc t).needsOwner = true) :
    s.owner = some t := by
  by_contra ho
  rw [(hs.outside ho).2] at h
  simp at h

/-! ## The other threads -/

/-- A step of another thread: it may take a free mutex, and touches nothing
of an owner. -/
structure Untouched (u : T) (s s' : State T) : Prop where
  pc : s'.pc u = s.pc u
  taken : s'.taken u = s.taken u
  given : s'.given u = s.given u
  owner : s'.owner = some u ↔ s.owner = some u
  count : s.owner = some u → s'.count = s.count

theorem Untouched.depth (h : Untouched u s s') : s'.depth u = s.depth u := by
  unfold State.depth
  rw [h.taken, h.given]

/-- **It leaves the thread's invariant.** -/
theorem State.Fits.untouched (hs : s.Fits u) (h : Untouched u s s') : s'.Fits u where
  given_le := by
    rw [h.given, h.taken]
    exact hs.given_le
  outside := by
    intro ho
    rw [h.depth, h.pc]
    exact hs.outside (mt h.owner.mpr ho)
  inside := by
    intro ho
    have hown := h.owner.mp ho
    rw [h.depth, h.pc, h.count hown]
    exact hs.inside hown

theorem Untouched.refl (u : T) (s : State T) : Untouched u s s :=
  ⟨rfl, rfl, rfl, Iff.rfl, fun _ => rfl⟩

theorem Untouched.trans {s'' : State T} (h : Untouched u s s') (h' : Untouched u s' s'') :
    Untouched u s s'' where
  pc := h'.pc.trans h.pc
  taken := h'.taken.trans h.taken
  given := h'.given.trans h.given
  owner := h'.owner.trans h.owner
  count := fun ho => (h'.count (h.owner.mpr ho)).trans (h.count ho)

/-- The count is written by the owner only. -/
theorem untouched_count (hu : u ≠ t) (ho : s.owner = some t) (c : ℤ) :
    Untouched u s { s with count := c } where
  pc := rfl
  taken := rfl
  given := rfl
  owner := Iff.rfl
  count := by
    intro hown
    rw [ho] at hown
    exact absurd (Option.some.inj hown).symm hu

/-- Ownership passes between others. -/
theorem untouched_owner {o : Option T} (ho : s.owner ≠ some u) (ho' : o ≠ some u) :
    Untouched u s { s with owner := o } where
  pc := rfl
  taken := rfl
  given := rfl
  owner := iff_of_false ho' ho
  count := fun _ => rfl

theorem some_ne_some (hu : u ≠ t) : some t ≠ some u := fun h => hu (Option.some.inj h).symm

variable [DecidableEq T]

theorem untouched_setPc (hu : u ≠ t) (p : Pc) (s : State T) : Untouched u s (s.setPc t p) :=
  ⟨Function.update_of_ne hu _ _, rfl, rfl, Iff.rfl, fun _ => rfl⟩

theorem untouched_setTried (b : Option Bool) (s : State T) : Untouched u s (s.setTried t b) :=
  ⟨rfl, rfl, rfl, Iff.rfl, fun _ => rfl⟩

theorem untouched_addTaken (hu : u ≠ t) (s : State T) : Untouched u s (s.addTaken t) :=
  ⟨rfl, Function.update_of_ne hu _ _, rfl, Iff.rfl, fun _ => rfl⟩

theorem untouched_addGiven (hu : u ≠ t) (s : State T) : Untouched u s (s.addGiven t) :=
  ⟨rfl, rfl, Function.update_of_ne hu _ _, Iff.rfl, fun _ => rfl⟩

theorem untouched_returns (hu : u ≠ t) (how : Taking) (b : Bool) (s : State T) :
    Untouched u s (s.returns t how b) := by
  cases how with
  | lock => exact untouched_setPc hu _ _
  | tryLock => exact (untouched_setTried _ _).trans (untouched_setPc hu _ _)

theorem untouched_exchange (hu : u ≠ t) (how : Taking) (s : State T) :
    Untouched u s (s.exchange t how) := by
  unfold State.exchange
  split
  · rename_i ho
    have hown : s.owner ≠ some u := by
      rw [ho]
      simp
    exact ((untouched_owner hown (some_ne_some hu)).trans (untouched_addTaken hu _)).trans
      (untouched_setPc hu _ _)
  · split
    · exact untouched_setPc hu _ _
    · cases how with
      | lock => exact .refl u s
      | tryLock => exact untouched_returns hu .tryLock false s

theorem untouched_fetchSub (hu : u ≠ t) (ho : s.owner = some t) :
    Untouched u s (s.fetchSub t) := by
  unfold State.fetchSub
  split
  · exact (untouched_count hu ho _).trans (untouched_setPc hu _ _)
  · exact ((untouched_count hu ho _).trans (untouched_addGiven hu _)).trans
      (untouched_setPc hu _ _)

/-- **An operation of one thread leaves the others untouched.** -/
theorem untouched_step (hu : u ≠ t) (hs : s.Fits t) : Untouched u s (s.step t) := by
  have hown := hs.owner_of_needsOwner
  unfold State.step
  cases hp : s.pc t with
  | idle => exact .refl u s
  | exchange how => exact untouched_exchange hu how s
  | storeOne how =>
    exact (untouched_count hu (hown (by rw [hp]; rfl)) _).trans (untouched_returns hu _ _ _)
  | fetchAdd how =>
    exact ((untouched_count hu (hown (by rw [hp]; rfl)) _).trans (untouched_addTaken hu _)).trans
      (untouched_returns hu _ _ _)
  | loadOwner =>
    dsimp only
    split <;> exact untouched_setPc hu _ _
  | fetchSub => exact untouched_fetchSub hu (hown (by rw [hp]; rfl))
  | clearOwner =>
    have ho : s.owner ≠ some u := by
      rw [hown (by rw [hp]; rfl)]
      exact some_ne_some hu
    exact ((untouched_owner ho (by simp)).trans (untouched_addGiven hu _)).trans
      (untouched_setPc hu _ _)

theorem untouched_start (hu : u ≠ t) (f : Call) : Untouched u s (s.start t f) := by
  cases f with
  | take how =>
    cases how with
    | lock => exact untouched_setPc hu _ _
    | tryLock => exact (untouched_setTried _ _).trans (untouched_setPc hu _ _)
  | unlock => exact untouched_setPc hu _ _

/-! ## The thread itself -/

theorem setPc_pc (t : T) (p : Pc) (s : State T) : (s.setPc t p).pc t = p :=
  Function.update_self ..

/-- What a return leaves. -/
structure Returned (t : T) (s s' : State T) : Prop where
  pc : s'.pc t = .idle
  owner : s'.owner = s.owner
  count : s'.count = s.count
  taken : s'.taken = s.taken
  given : s'.given = s.given

theorem returned_returns (how : Taking) (b : Bool) (s : State T) :
    Returned t s (s.returns t how b) := by
  cases how <;> exact ⟨Function.update_self .., rfl, rfl, rfl, rfl⟩

omit [DecidableEq T] in
theorem Returned.fits (h : Returned t s s') (hle : s.given t ≤ s.taken t)
    (hout : s.owner ≠ some t → s.depth t = 0)
    (hin : s.owner = some t → s.count = s.depth t ∧ 0 < s.depth t) : s'.Fits t := by
  have hd : s'.depth t = s.depth t := by
    unfold State.depth
    rw [h.taken, h.given]
  refine ⟨?_, ?_, ?_⟩
  · rw [h.given, h.taken]
    exact hle
  · intro ho
    rw [h.owner] at ho
    rw [hd, h.pc]
    exact ⟨hout ho, rfl⟩
  · intro ho
    rw [h.owner] at ho
    rw [hd, h.pc, h.count]
    exact hin ho

/-- Standing somewhere else. -/
theorem State.Fits.setPc (hs : s.Fits t) {p : Pc} (hout : s.owner ≠ some t → p.needsOwner = false)
    (hin : ∀ c d, (s.pc t).Agrees c d → p.Agrees c d) : (s.setPc t p).Fits t where
  given_le := hs.given_le
  outside := by
    intro ho
    rw [setPc_pc]
    exact ⟨(hs.outside ho).1, hout ho⟩
  inside := by
    intro ho
    rw [setPc_pc]
    exact hin _ _ (hs.inside ho)

theorem fits_exchange (hs : s.Fits t) {how : Taking} (hp : s.pc t = .exchange how) :
    (s.exchange t how).Fits t := by
  unfold State.exchange
  by_cases ho : s.owner = none
  · have hgiven := hs.given_eq (by rw [ho]; simp)
    rw [if_pos ho]
    refine ⟨?_, fun h => absurd rfl h, fun _ => ?_⟩
    · simp only [State.setPc, State.addTaken, Function.update_self]
      omega
    · simp only [State.depth, State.setPc, State.addTaken, Function.update_self, Pc.Agrees]
      omega
  · rw [if_neg ho]
    by_cases hown : s.owner = some t
    · rw [if_pos hown]
      refine hs.setPc (fun h => absurd hown h) fun c d h => ?_
      rw [hp] at h
      exact h
    · rw [if_neg hown]
      cases how with
      | lock => exact hs
      | tryLock =>
        exact (returned_returns .tryLock false s).fits hs.given_le (fun h => (hs.outside h).1)
          (fun h => absurd h hown)

theorem fits_fetchSub (hs : s.Fits t) (hp : s.pc t = .fetchSub) : (s.fetchSub t).Fits t := by
  have ho := hs.owner_of_needsOwner (by rw [hp]; rfl)
  have hag := hs.inside ho
  have hle := hs.given_le
  rw [hp] at hag
  simp only [Pc.Agrees, State.depth] at hag
  unfold State.fetchSub
  by_cases hc : s.count = 1
  · rw [if_pos hc]
    refine ⟨hle, fun h => absurd ho h, fun _ => ?_⟩
    simp only [State.depth, State.setPc, Function.update_self, Pc.Agrees]
    omega
  · rw [if_neg hc]
    refine ⟨?_, fun h => absurd ho h, fun _ => ?_⟩
    · simp only [State.setPc, State.addGiven, Function.update_self]
      omega
    · simp only [State.depth, State.setPc, State.addGiven, Function.update_self, Pc.Agrees]
      omega

/-- **The thread whose operation it is.** -/
theorem fits_step (hs : s.Fits t) : (s.step t).Fits t := by
  have hown := hs.owner_of_needsOwner
  have hag := hs.inside
  have hle := hs.given_le
  unfold State.step
  cases hp : s.pc t with
  | idle => exact hs
  | exchange how => exact fits_exchange hs hp
  | storeOne how =>
    have ho := hown (by rw [hp]; rfl)
    rw [hp] at hag
    have hd : s.depth t = 1 := hag ho
    exact (returned_returns _ _ _).fits hle (fun h => absurd ho h)
      (fun _ => ⟨by rw [show ({ s with count := 1 } : State T).depth t = 1 from hd]; rfl,
        by rw [show ({ s with count := 1 } : State T).depth t = 1 from hd]; omega⟩)
  | fetchAdd how =>
    have ho := hown (by rw [hp]; rfl)
    rw [hp] at hag
    have hd := hag ho
    simp only [Pc.Agrees, State.depth] at hd
    refine (returned_returns _ _ _).fits ?_ (fun h => absurd ho h) fun _ => ?_
    · simp only [State.addTaken, Function.update_self]
      omega
    · simp only [State.depth, State.addTaken, Function.update_self]
      omega
  | loadOwner =>
    dsimp only
    rw [hp] at hag
    split
    · rename_i ho
      exact hs.setPc (fun h => absurd ho h) fun c d h => by rw [hp] at h; exact h
    · exact hs.setPc (fun _ => rfl) fun c d h => by rw [hp] at h; exact h
  | fetchSub => exact fits_fetchSub hs hp
  | clearOwner =>
    have ho := hown (by rw [hp]; rfl)
    rw [hp] at hag
    have hd := hag ho
    simp only [Pc.Agrees, State.depth] at hd
    refine ⟨?_, fun _ => ⟨?_, ?_⟩, fun h => ?_⟩
    · simp only [State.setPc, State.addGiven, Function.update_self]
      omega
    · simp only [State.depth, State.setPc, State.addGiven, Function.update_self]
      omega
    · simp only [State.setPc, Function.update_self]
      rfl
    · simp [State.setPc, State.addGiven] at h

theorem fits_start (hs : s.Fits t) (hp : s.pc t = .idle) (f : Call) : (s.start t f).Fits t := by
  have hmove : ∀ p : Pc, (∀ c d, p.Agrees c d ↔ c = d ∧ 0 < d) → p.needsOwner = false →
      ∀ s' : State T, s'.Fits t → s'.pc t = .idle → (s'.setPc t p).Fits t := by
    intro p hag hno s' hs' hp'
    refine hs'.setPc (fun _ => hno) fun c d h => ?_
    rw [hp'] at h
    exact (hag c d).mpr h
  cases f with
  | take how =>
    cases how with
    | lock => exact hmove _ (fun _ _ => Iff.rfl) rfl s hs hp
    | tryLock =>
      exact hmove _ (fun _ _ => Iff.rfl) rfl (s.setTried t none)
        ⟨hs.given_le, hs.outside, hs.inside⟩ hp
  | unlock => exact hmove _ (fun _ _ => Iff.rfl) rfl s hs hp

end DCGMutex

end PyNng
