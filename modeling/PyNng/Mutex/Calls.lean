import PyNng.Mutex.Owner
/-!
# Mutex — what a call does to its thread

A call that returns has changed the depth of the thread that made it as its
name says: `lock` has made it one deeper, `try_lock` too where it returned
true, and `unlock` one shallower where the thread was inside. Between the
operations of the call the other threads may take theirs, and none of these
touches the caller; so the depth at the return is the depth at the call,
changed by the caller's own operations alone (`Call.Stands`).
-/

namespace PyNng

namespace DCGMutex

variable {T : Type*} [DecidableEq T] {s s' : State T} {t u : T} {how : Taking}

/-! ## Runs -/

theorem fits_init (t : T) : (dcgMutex.init : State T).Fits t :=
  ⟨Nat.le_refl 0, fun _ => ⟨rfl, rfl⟩, fun h => by simp [dcgMutex] at h⟩

/-- Every action keeps every thread's invariant. -/
theorem fits_next (hs : ∀ t, s.Fits t) {a : Act T} (hen : Enabled s a) (t : T) :
    (next s a).Fits t := by
  cases a with
  | call u f =>
    by_cases ht : t = u
    · subst ht
      exact fits_start (hs t) hen f
    · exact (hs t).untouched (untouched_start ht f)
  | step u =>
    by_cases ht : t = u
    · subst ht
      exact fits_step (hs t)
    · exact (hs t).untouched (untouched_step ht (hs u))

/-- **In every state that is reached, every thread fits.** -/
theorem fits_of_reach (hs : dcgMutex.Reach s) : ∀ t, s.Fits t := by
  induction hs with
  | init => exact fits_init
  | step _ _ hen ih => exact fits_next ih hen

theorem inside_iff_owner (hs : dcgMutex.Reach s) : s.Inside t ↔ s.owner = some t :=
  (fits_of_reach hs t).inside_iff

/-- **At most one thread is inside.** -/
theorem eq_of_inside (hs : dcgMutex.Reach s) (ht : s.Inside t) (hu : s.Inside u) : t = u := by
  rw [inside_iff_owner hs] at ht hu
  rw [ht] at hu
  exact Option.some.inj hu

/-- **Between its operations** the owner's depth is the count. -/
theorem count_eq_depth (hs : dcgMutex.Reach s) (hp : s.pc t = .idle) (ht : s.Inside t) :
    s.owner = some t ∧ s.count = s.depth t := by
  have ho := (inside_iff_owner hs).mp ht
  have hag := (fits_of_reach hs t).inside ho
  rw [hp] at hag
  exact ⟨ho, hag.1⟩

/-- Another thread is inside exactly when the exchange finds neither no owner
nor its own thread. -/
theorem other_inside_iff (hs : dcgMutex.Reach s) :
    (∃ u, u ≠ t ∧ s.Inside u) ↔ s.owner ≠ none ∧ s.owner ≠ some t := by
  constructor
  · rintro ⟨u, hu, hin⟩
    rw [inside_iff_owner hs] at hin
    rw [hin]
    exact ⟨by simp, some_ne_some (Ne.symm hu)⟩
  · rintro ⟨hnone, hne⟩
    obtain ⟨u, ho⟩ := Option.ne_none_iff_exists'.mp hnone
    refine ⟨u, ?_, (inside_iff_owner hs).mpr ho⟩
    rintro rfl
    exact hne ho

/-! ## The depth after an operation -/

theorem depth_returns (t : T) (how : Taking) (b : Bool) (s : State T) :
    (s.returns t how b).depth = s.depth := by
  cases how <;> rfl

theorem depth_addTaken (hle : s.given t ≤ s.taken t) :
    (s.addTaken t).depth t = s.depth t + 1 := by
  simp only [State.depth, State.addTaken, Function.update_self]
  omega

theorem depth_addGiven (s : State T) : (s.addGiven t).depth t = s.depth t - 1 := by
  simp only [State.depth, State.addGiven, Function.update_self]
  omega

omit [DecidableEq T] in
theorem inside_iff_depth : s.Inside t ↔ 0 < s.depth t := by
  unfold State.Inside State.depth
  omega

/-- An exchange that finds another thread inside: `lock` stays where it is, and
`try_lock` returns false. -/
theorem exchange_refused (hs : dcgMutex.Reach s) (hp : s.pc t = .exchange how)
    (hother : ∃ u, u ≠ t ∧ s.Inside u) : s.step t = s.refuse t how := by
  obtain ⟨hnone, hne⟩ := (other_inside_iff hs).mp hother
  unfold State.step
  rw [hp]
  dsimp only [State.exchange]
  rw [if_neg hnone, if_neg hne]

/-- Where no other thread is inside, the exchange takes the free mutex, or the
thread is the owner and goes on to make the count larger. -/
theorem exchange_goes_on (hs : dcgMutex.Reach s) (hp : s.pc t = .exchange how)
    (hno : ¬ ∃ u, u ≠ t ∧ s.Inside u) :
    ((s.step t).pc t = .storeOne how ∧ (s.step t).depth t = s.depth t + 1) ∨
      ((s.step t).pc t = .fetchAdd how ∧ (s.step t).depth t = s.depth t) := by
  rw [other_inside_iff hs] at hno
  have hle := (fits_of_reach hs t).given_le
  unfold State.step
  rw [hp]
  dsimp only [State.exchange]
  by_cases ho : s.owner = none
  · rw [if_pos ho]
    refine .inl ⟨setPc_pc .., ?_⟩
    exact depth_addTaken (s := { s with owner := some t }) hle
  · rw [if_neg ho, if_pos (by_contra fun h => hno ⟨ho, h⟩)]
    exact .inr ⟨setPc_pc .., rfl⟩

/-- What a call that took the mutex leaves: the thread inside, and told so. -/
structure State.Took (s : State T) (t : T) (how : Taking) (depth : ℕ) : Prop where
  pc : s.pc t = .idle
  inside : s.Inside t
  depth_eq : s.depth t = depth
  tried : how = .tryLock → s.tried t = some true

theorem took_returns (hpos : 0 < s.depth t) : (s.returns t how true).Took t how (s.depth t) where
  pc := (returned_returns how true s).pc
  inside := by
    rw [inside_iff_depth, depth_returns]
    exact hpos
  depth_eq := congrFun (depth_returns t how true s) t
  tried := by
    rintro rfl
    exact Function.update_self ..

/-- `count_.store(1)` is the last operation of a call that took a free mutex. -/
theorem storeOne_returns (hs : s.Fits t) (hp : s.pc t = .storeOne how) :
    (s.step t).Took t how (s.depth t) := by
  have hin := hs.inside (hs.owner_of_needsOwner (by rw [hp]; rfl))
  unfold State.step
  rw [hp]
  exact took_returns (s := { s with count := 1 }) hin.pos

/-- `count_.fetch_add(1)` is the last operation of one that goes deeper. -/
theorem fetchAdd_returns (hs : s.Fits t) (hp : s.pc t = .fetchAdd how) :
    (s.step t).Took t how (s.depth t + 1) := by
  have hdepth : (({ s with count := s.count + 1 } : State T).addTaken t).depth t = s.depth t + 1 :=
    depth_addTaken (s := { s with count := s.count + 1 }) hs.given_le
  unfold State.step
  rw [hp, ← hdepth]
  exact took_returns (by rw [hdepth]; omega)

/-- **`unlock` by a thread that is not inside** changes nothing. -/
theorem unlock_of_outside (hs : dcgMutex.Reach s) (hp : s.pc t = .loadOwner)
    (ht : ¬ s.Inside t) : s.step t = s.setPc t .idle := by
  rw [inside_iff_owner hs] at ht
  unfold State.step
  rw [hp]
  exact if_neg ht

/-- `unlock` by the thread inside goes on to the count. -/
theorem unlock_of_inside (hs : s.Fits t) (hp : s.pc t = .loadOwner) (ht : s.Inside t) :
    (s.step t).pc t = .fetchSub ∧ (s.step t).depth t = s.depth t := by
  unfold State.step
  rw [hp]
  dsimp only
  rw [if_pos (hs.inside_iff.mp ht)]
  exact ⟨setPc_pc .., rfl⟩

/-- `count_.fetch_sub(1)` is the last operation of an `unlock` that leaves the
mutex owned, and the one before the last of an `unlock` that frees it. -/
theorem fetchSub_depth (hs : s.Fits t) (hp : s.pc t = .fetchSub) :
    (1 < s.depth t ∧ (s.step t).pc t = .idle ∧ (s.step t).depth t + 1 = s.depth t) ∨
      (s.depth t = 1 ∧ (s.step t).pc t = .clearOwner ∧ (s.step t).depth t = s.depth t) := by
  have hag := hs.inside (hs.owner_of_needsOwner (by rw [hp]; rfl))
  rw [hp] at hag
  obtain ⟨hcount, hpos⟩ : s.count = s.depth t ∧ 0 < s.depth t := hag
  unfold State.step
  rw [hp]
  dsimp only [State.fetchSub]
  by_cases hc : s.count = 1
  · rw [if_pos hc]
    exact .inr ⟨by omega, setPc_pc .., rfl⟩
  · rw [if_neg hc]
    refine .inl ⟨by omega, setPc_pc .., ?_⟩
    have hsub : ((({ s with count := s.count - 1 } : State T).addGiven t).setPc t .idle).depth t =
        s.depth t - 1 := depth_addGiven (t := t) { s with count := s.count - 1 }
    rw [hsub]
    omega

/-- The store that clears `owner_` is the last operation of the `unlock` that frees it. -/
theorem clearOwner_returns (hs : s.Fits t) (hp : s.pc t = .clearOwner) :
    (s.step t).pc t = .idle ∧ (s.step t).depth t + 1 = s.depth t := by
  have hag := hs.inside (hs.owner_of_needsOwner (by rw [hp]; rfl))
  rw [hp] at hag
  have hone : s.depth t = 1 := hag.2
  unfold State.step
  rw [hp]
  refine ⟨setPc_pc .., ?_⟩
  have hsub : ((({ s with owner := none } : State T).addGiven t).setPc t .idle).depth t =
      s.depth t - 1 := depth_addGiven (t := t) { s with owner := none }
  dsimp only
  rw [hsub]
  omega

/-! ## From the call to its return -/

/-- Where a call that was made at depth `d` stands, and how deep its thread is there. -/
def Call.Stands (f : Call) (d : ℕ) (p : Pc) (depth : ℕ) : Prop :=
  match f, p with
  | .take how, .exchange how' => how' = how ∧ depth = d
  | .take how, .storeOne how' => how' = how ∧ depth = d + 1
  | .take how, .fetchAdd how' => how' = how ∧ depth = d
  | .unlock, .loadOwner => depth = d
  | .unlock, .fetchSub => depth = d
  | .unlock, .clearOwner => depth = d
  | _, _ => False

/-- What a call that was made at depth `d` has done when it has returned. -/
def Call.Did (f : Call) (d : ℕ) (t : T) (s : State T) : Prop :=
  match f with
  | .take .lock => s.Inside t ∧ s.depth t = d + 1
  | .take .tryLock =>
    (s.tried t = some true ∧ s.Inside t ∧ s.depth t = d + 1) ∨
      (s.tried t = some false ∧ s.depth t = d)
  | .unlock => s.depth t = d - 1

theorem stands_start (f : Call) (s : State T) :
    f.Stands (s.depth t) ((s.start t f).pc t) ((s.start t f).depth t) := by
  cases f with
  | take how =>
    cases how with
    | lock | tryLock =>
      simp only [State.start, setPc_pc]
      exact ⟨rfl, rfl⟩
  | unlock =>
    simp only [State.start, setPc_pc]
    exact rfl

omit [DecidableEq T] in
theorem did_of_took {d : ℕ} (h : s.Took t how (d + 1)) : (Call.take how).Did d t s := by
  cases how with
  | lock => exact ⟨h.inside, h.depth_eq⟩
  | tryLock => exact .inl ⟨h.tried rfl, h.inside, h.depth_eq⟩

/-- A call is still under way, or has returned with its work done. -/
def Call.Goes (f : Call) (d : ℕ) (t : T) (s : State T) : Prop :=
  f.Stands d (s.pc t) (s.depth t) ∨ (s.pc t = .idle ∧ f.Did d t s)

theorem goes_exchange (hs : dcgMutex.Reach s) (hp : s.pc t = .exchange how) :
    (Call.take how).Goes (s.depth t) t (s.step t) := by
  by_cases hother : ∃ u, u ≠ t ∧ s.Inside u
  · cases how with
    | lock =>
      refine .inl ?_
      rw [exchange_refused hs hp hother]
      dsimp only [State.refuse]
      rw [hp]
      exact ⟨rfl, rfl⟩
    | tryLock =>
      rw [exchange_refused hs hp hother]
      exact .inr ⟨setPc_pc .., .inr ⟨Function.update_self .., rfl⟩⟩
  · refine .inl ?_
    rcases exchange_goes_on hs hp hother with ⟨hpc, hdepth⟩ | ⟨hpc, hdepth⟩
    · rw [hpc]
      exact ⟨rfl, hdepth⟩
    · rw [hpc]
      exact ⟨rfl, hdepth⟩

theorem goes_loadOwner (hs : dcgMutex.Reach s) (hp : s.pc t = .loadOwner) :
    Call.unlock.Goes (s.depth t) t (s.step t) := by
  by_cases ht : s.Inside t
  · obtain ⟨hpc, hdepth⟩ := unlock_of_inside (fits_of_reach hs t) hp ht
    refine .inl ?_
    rw [hpc]
    exact hdepth
  · have hzero : s.depth t = 0 := by
      rw [inside_iff_depth] at ht
      omega
    rw [unlock_of_outside hs hp ht]
    refine .inr ⟨setPc_pc .., ?_⟩
    show s.depth t = s.depth t - 1
    omega

theorem goes_fetchSub (hs : dcgMutex.Reach s) (hp : s.pc t = .fetchSub) :
    Call.unlock.Goes (s.depth t) t (s.step t) := by
  rcases fetchSub_depth (fits_of_reach hs t) hp with ⟨-, hpc, hdepth⟩ | ⟨-, hpc, hdepth⟩
  · refine .inr ⟨hpc, ?_⟩
    show (s.step t).depth t = s.depth t - 1
    omega
  · refine .inl ?_
    rw [hpc]
    exact hdepth

theorem goes_clearOwner (hs : dcgMutex.Reach s) (hp : s.pc t = .clearOwner) :
    Call.unlock.Goes (s.depth t) t (s.step t) := by
  obtain ⟨hpc, hdepth⟩ := clearOwner_returns (fits_of_reach hs t) hp
  refine .inr ⟨hpc, ?_⟩
  show (s.step t).depth t = s.depth t - 1
  omega

/-- **The caller's own operation** takes its call on, or returns with its work done. -/
theorem goes_step (hs : dcgMutex.Reach s) {f : Call} {d : ℕ}
    (h : f.Stands d (s.pc t) (s.depth t)) : f.Goes d t (s.step t) := by
  cases f with
  | take how =>
    cases hp : s.pc t with
    | exchange how' =>
      rw [hp] at h
      obtain ⟨rfl, hd⟩ := h
      rw [← hd]
      exact goes_exchange hs hp
    | storeOne how' =>
      rw [hp] at h
      obtain ⟨rfl, hd⟩ := h
      have htook := storeOne_returns (fits_of_reach hs t) hp
      rw [hd] at htook
      exact .inr ⟨htook.pc, did_of_took htook⟩
    | fetchAdd how' =>
      rw [hp] at h
      obtain ⟨rfl, hd⟩ := h
      have htook := fetchAdd_returns (fits_of_reach hs t) hp
      rw [hd] at htook
      exact .inr ⟨htook.pc, did_of_took htook⟩
    | idle | loadOwner | fetchSub | clearOwner =>
      rw [hp] at h
      exact h.elim
  | unlock =>
    cases hp : s.pc t with
    | loadOwner =>
      rw [hp] at h
      obtain rfl : s.depth t = d := h
      exact goes_loadOwner hs hp
    | fetchSub =>
      rw [hp] at h
      obtain rfl : s.depth t = d := h
      exact goes_fetchSub hs hp
    | clearOwner =>
      rw [hp] at h
      obtain rfl : s.depth t = d := h
      exact goes_clearOwner hs hp
    | idle | exchange | storeOne | fetchAdd =>
      rw [hp] at h
      exact h.elim

/-- **One step of anybody.** While the call is under way, the steps of the other
threads leave it where it stands. -/
theorem goes_next (hs : dcgMutex.Reach s) {f : Call} {d : ℕ} (hrun : s.pc t ≠ .idle)
    (h : f.Stands d (s.pc t) (s.depth t)) {a : Act T} (hen : Enabled s a) :
    f.Goes d t (next s a) := by
  have hother : ∀ {s'}, Untouched t s s' → f.Goes d t s' := fun hun => by
    refine .inl ?_
    rw [hun.pc, hun.depth]
    exact h
  cases a with
  | call u g =>
    refine hother (untouched_start ?_ g)
    rintro rfl
    exact hrun hen
  | step u =>
    by_cases hu : t = u
    · subst hu
      exact goes_step hs h
    · exact hother (untouched_step hu (fits_of_reach hs u))

/-- No call that is under way stands between calls. -/
theorem Call.not_stands_idle {f : Call} {d depth : ℕ} : ¬ f.Stands d .idle depth := by
  intro h
  cases f <;> exact h

/-- The run of a call: while it is under way it stands somewhere, and the step by
which it is no longer under way has done its work. -/
theorem did_of_run {f : Call} {d : ℕ} {as : List (Act T)} {a : Act T} (hs : dcgMutex.Reach s)
    (hst : f.Stands d (s.pc t) (s.depth t)) (hv : dcgMutex.Valid s as)
    (hrun : dcgMutex.Throughout (fun s => s.pc t ≠ .idle) s as)
    (hen : Enabled (dcgMutex.final s as) a)
    (hret : (next (dcgMutex.final s as) a).pc t = .idle) :
    f.Did d t (next (dcgMutex.final s as) a) := by
  induction as generalizing s with
  | nil =>
    rcases goes_next hs hrun hst hen with h | h
    · rw [show (next s a).pc t = .idle from hret] at h
      exact absurd h Call.not_stands_idle
    · exact h.2
  | cons b as ih =>
    rcases goes_next hs hrun.1 hst hv.1 with h | h
    · exact ih (hs.step trivial hv.1) h hv.2 hrun.2 hen hret
    · exact absurd h.1 hrun.2.head

/-- **A call from its start to its return.** Whatever the other threads do in
between, it returns with its work done. -/
theorem did_of_returns (hs : dcgMutex.Reach s) (t : T) (f : Call) {as : List (Act T)}
    (hv : dcgMutex.Valid s (.call t f :: as))
    (hrun : dcgMutex.Throughout (fun s => s.pc t ≠ .idle) (next s (.call t f)) as) {a : Act T}
    (hen : Enabled (dcgMutex.final s (.call t f :: as)) a)
    (hret : (next (dcgMutex.final s (.call t f :: as)) a).pc t = .idle) :
    f.Did (s.depth t) t (next (dcgMutex.final s (.call t f :: as)) a) := by
  have hcall : dcgMutex.Reach (next s (.call t f)) := hs.step trivial hv.1
  have hdid := did_of_run hcall (stands_start f s) hv.2 hrun hen hret
  exact hdid

end DCGMutex

end PyNng
