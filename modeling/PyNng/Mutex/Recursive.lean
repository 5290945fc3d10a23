import PyNng.Mutex.Calls
import PyNng.Common.UniqueLock
import Mathlib.Algebra.Group.Int.Defs
import Mathlib.Algebra.Group.Nat.Defs
/-!
# Mutex — it is a recursive mutex

At most one thread is inside, the count is its depth between its
operations, and every step of the atomics is an operation of `RecMutex` or
nothing to it (`refines_recMutex`). The locks of the other modules are
taken and given back in one step each, which this allows.
-/

namespace PyNng

namespace DCGMutex

variable {T : Type*} [DecidableEq T] {s s' : State T} {t u : T}

/-! ## `try_lock` and `unlock` -/

/-- **`try_lock` fails** exactly where another thread is inside at its
exchange, and then it has changed nothing. -/
theorem tryLock_fails_iff (hs : dcgMutex.Reach s) (hp : s.pc t = .exchange .tryLock) :
    s.step t = s.returns t .tryLock false ↔ ∃ u, u ≠ t ∧ s.Inside u := by
  rw [other_inside_iff hs]
  have hidle : (s.returns t .tryLock false).pc t = .idle := (returned_returns _ _ s).pc
  unfold State.step
  rw [hp]
  dsimp only [State.exchange]
  constructor
  · intro h
    constructor
    · intro ho
      rw [if_pos ho] at h
      rw [← h, setPc_pc] at hidle
      simp at hidle
    · intro ho
      rw [if_neg (by rw [ho]; simp), if_pos ho] at h
      rw [← h, setPc_pc] at hidle
      simp at hidle
  · rintro ⟨hnone, hne⟩
    rw [if_neg hnone, if_neg hne]
    rfl

/-- Where it does not fail it goes on to return true. -/
theorem tryLock_goes_on (hs : dcgMutex.Reach s) (hp : s.pc t = .exchange .tryLock)
    (hno : ¬ ∃ u, u ≠ t ∧ s.Inside u) :
    (s.step t).pc t = .storeOne .tryLock ∨ (s.step t).pc t = .fetchAdd .tryLock :=
  (exchange_goes_on hs hp hno).imp And.left And.left

theorem tryLock_succeeds (hs : dcgMutex.Reach s)
    (hp : s.pc t = .storeOne .tryLock ∨ s.pc t = .fetchAdd .tryLock) :
    (s.step t).pc t = .idle ∧ (s.step t).tried t = some true ∧ (s.step t).Inside t := by
  rcases hp with hp | hp
  · have htook := storeOne_returns (fits_of_reach hs t) hp
    exact ⟨htook.pc, htook.tried rfl, htook.inside⟩
  · have htook := fetchAdd_returns (fits_of_reach hs t) hp
    exact ⟨htook.pc, htook.tried rfl, htook.inside⟩

/-! ## `lock` and the owner's `unlock` -/

/-- **The operations of a `lock`.** -/
structure State.Locks (s : State T) (t : T) : Prop where
  /-- While another thread is inside it stays at its exchange, and nothing changes. -/
  waits : s.pc t = .exchange .lock → (∃ u, u ≠ t ∧ s.Inside u) → s.step t = s
  /-- Otherwise it takes the free mutex, or goes on to a count of one more. -/
  goesOn : s.pc t = .exchange .lock → (¬ ∃ u, u ≠ t ∧ s.Inside u) →
    ((s.step t).pc t = .storeOne .lock ∧ (s.step t).depth t = s.depth t + 1) ∨
      ((s.step t).pc t = .fetchAdd .lock ∧ (s.step t).depth t = s.depth t)
  /-- It returns inside, with the depth the exchange gave it. -/
  storeOne : s.pc t = .storeOne .lock →
    (s.step t).pc t = .idle ∧ (s.step t).Inside t ∧ (s.step t).depth t = s.depth t
  /-- It returns inside, one deeper. -/
  fetchAdd : s.pc t = .fetchAdd .lock →
    (s.step t).pc t = .idle ∧ (s.step t).Inside t ∧ (s.step t).depth t = s.depth t + 1
  /-- It returns by no other operation. -/
  only : ∀ a, Enabled s a → s.pc t = .exchange .lock → (next s a).pc t ≠ .idle

/-- No step takes a `lock` from its exchange to its return. -/
theorem exchange_not_idle (hs : dcgMutex.Reach s) {a : Act T} (hen : Enabled s a)
    (hp : s.pc t = .exchange .lock) : (next s a).pc t ≠ .idle := by
  have hother : Untouched t s (next s a) → (next s a).pc t ≠ .idle := by
    intro h
    rw [h.pc, hp]
    simp
  cases a with
  | call u f =>
    refine hother (untouched_start ?_ f)
    rintro rfl
    rw [show s.pc t = .idle from hen] at hp
    simp at hp
  | step u =>
    by_cases hu : t = u
    · subst hu
      show (s.step t).pc t ≠ .idle
      by_cases hin : ∃ u, u ≠ t ∧ s.Inside u
      · rw [exchange_refused hs hp hin]
        dsimp only [State.refuse]
        rw [hp]
        simp
      · rcases exchange_goes_on hs hp hin with h | h
        · rw [h.1]
          simp
        · rw [h.1]
          simp
    · exact hother (untouched_step hu (fits_of_reach hs u))

theorem locks_of_reach (hs : dcgMutex.Reach s) (t : T) : s.Locks t where
  waits := exchange_refused hs
  goesOn := exchange_goes_on hs
  storeOne := by
    intro hp
    have htook := storeOne_returns (fits_of_reach hs t) hp
    exact ⟨htook.pc, htook.inside, htook.depth_eq⟩
  fetchAdd := by
    intro hp
    have htook := fetchAdd_returns (fits_of_reach hs t) hp
    exact ⟨htook.pc, htook.inside, htook.depth_eq⟩
  only := fun _ hen hp => exchange_not_idle hs hen hp

/-- **The operations of the owner's `unlock`.** -/
structure State.Unlocks (s : State T) (t : T) : Prop where
  /-- The owner goes on to the count. -/
  loadOwner : s.pc t = .loadOwner → s.Inside t →
    (s.step t).pc t = .fetchSub ∧ (s.step t).depth t = s.depth t
  /-- It returns one shallower where it stays inside, and else goes on to free the mutex. -/
  fetchSub : s.pc t = .fetchSub →
    (1 < s.depth t ∧ (s.step t).pc t = .idle ∧ (s.step t).depth t + 1 = s.depth t) ∨
      (s.depth t = 1 ∧ (s.step t).pc t = .clearOwner ∧ (s.step t).depth t = s.depth t)
  /-- It returns one shallower. -/
  clearOwner : s.pc t = .clearOwner →
    (s.step t).pc t = .idle ∧ (s.step t).depth t + 1 = s.depth t

theorem unlocks_of_reach (hs : dcgMutex.Reach s) (t : T) : s.Unlocks t where
  loadOwner := unlock_of_inside (fits_of_reach hs t)
  fetchSub := fetchSub_depth (fits_of_reach hs t)
  clearOwner := clearOwner_returns (fits_of_reach hs t)

/-! ## When the mutex becomes free -/

/-- An owner is never replaced by another thread in one step. -/
theorem owner_next (ho : s.owner = some t) (a : Act T) :
    (next s a).owner = some t ∨ (next s a).owner = none := by
  have hret : ∀ u how b (s' : State T), (s'.returns u how b).owner = s'.owner :=
    fun u how b s' => (returned_returns how b s').owner
  cases a with
  | call u f =>
    refine .inl (Eq.trans ?_ ho)
    rcases f with ⟨_ | _⟩ | _ <;> rfl
  | step u =>
    dsimp only [next, State.step]
    cases s.pc u with
    | idle | storeOne | fetchAdd => exact .inl (by simp [hret, State.addTaken, ho])
    | exchange how =>
      dsimp only [State.exchange]
      rw [if_neg (by rw [ho]; simp)]
      split
      · exact .inl ho
      · cases how with
        | lock => exact .inl ho
        | tryLock => exact .inl ho
    | loadOwner =>
      dsimp only
      split <;> exact .inl ho
    | fetchSub =>
      dsimp only [State.fetchSub]
      split <;> exact .inl ho
    | clearOwner => exact .inr rfl

/-- **The mutex becomes free** in exactly the steps that bring the depth of
the thread inside back to zero. -/
theorem freed_iff (hs : dcgMutex.Reach s) {a : Act T} (hen : Enabled s a) :
    (s.owner ≠ none ∧ (next s a).owner = none) ↔ ∃ t, s.Inside t ∧ (next s a).depth t = 0 := by
  have hs' : dcgMutex.Reach (next s a) := hs.step trivial hen
  constructor
  · rintro ⟨hne, hnone⟩
    obtain ⟨t, ho⟩ := Option.ne_none_iff_exists'.mp hne
    refine ⟨t, (inside_iff_owner hs).mpr ho, ((fits_of_reach hs' t).outside ?_).1⟩
    rw [hnone]
    simp
  · rintro ⟨t, ht, hd⟩
    have ho := (inside_iff_owner hs).mp ht
    have hout : (next s a).owner ≠ some t := by
      intro h
      have := ((fits_of_reach hs' t).inside h).pos
      omega
    refine ⟨by rw [ho]; simp, ?_⟩
    rcases owner_next ho a with h | h
    · exact absurd h hout
    · exact h

/-! ## The mutex as one value -/

/-- The recursive mutex that the atomics stand for. -/
def State.view (s : State T) : RecMutex T := ⟨s.owner, s.owner.elim 0 s.depth⟩

omit [DecidableEq T] in
theorem view_of_owner (ho : s.owner = some t) : s.view = ⟨some t, s.depth t⟩ := by
  unfold State.view
  rw [ho]
  rfl

omit [DecidableEq T] in
theorem view_of_free (ho : s.owner = none) : s.view = {} := by
  unfold State.view
  rw [ho]
  rfl

/-- What a step of the atomics is to the recursive mutex: nothing, or one of
its operations by the thread. -/
inductive Simulates (t : T) (m m' : RecMutex T) : Prop
  | stutter (h : m' = m)
  | acquire (h : m.available t = true) (h' : m' = m.acquire t)
  | unlock (h : m' = m.unlock t)

omit [DecidableEq T] in
theorem view_congr (ho : s'.owner = s.owner) (ht : s'.taken = s.taken) (hg : s'.given = s.given) :
    s'.view = s.view := by
  have hd : s'.depth = s.depth := by
    funext t
    unfold State.depth
    rw [ht, hg]
  unfold State.view
  rw [ho, hd]

theorem view_returns (how : Taking) (b : Bool) (s : State T) :
    (s.returns t how b).view = s.view := by
  have h := returned_returns (t := t) how b s
  exact view_congr h.owner h.taken h.given

theorem simulates_exchange (hs : s.Fits t) (how : Taking) :
    Simulates t s.view (s.exchange t how).view := by
  unfold State.exchange
  by_cases ho : s.owner = none
  · have hgiven := hs.given_eq (by rw [ho]; simp)
    rw [if_pos ho]
    refine .acquire ?_ ?_
    · rw [view_of_free ho]
      simp [RecMutex.available]
    · rw [view_of_free ho, view_of_owner (t := t) rfl]
      simp only [State.depth, State.setPc, State.addTaken, Function.update_self, RecMutex.acquire,
        RecMutex.mk.injEq, true_and]
      omega
  · rw [if_neg ho]
    split
    · exact .stutter (view_congr rfl rfl rfl)
    · cases how with
      | lock => exact .stutter rfl
      | tryLock => exact .stutter (view_returns .tryLock false s)

theorem simulates_fetchSub (hs : s.Fits t) (hp : s.pc t = .fetchSub) :
    Simulates t s.view (s.fetchSub t).view := by
  have ho := hs.owner_of_needsOwner (by rw [hp]; rfl)
  have hag := hs.inside ho
  rw [hp] at hag
  simp only [Pc.Agrees, State.depth] at hag
  unfold State.fetchSub
  by_cases hc : s.count = 1
  · rw [if_pos hc]
    exact .stutter (view_congr rfl rfl rfl)
  · rw [if_neg hc]
    refine .unlock ?_
    rw [view_of_owner ho]
    refine (view_of_owner (t := t) (by exact ho)).trans ?_
    simp only [RecMutex.unlock, ne_eq, not_true_eq_false, if_false]
    rw [if_neg (by unfold State.depth; omega)]
    simp only [State.depth, State.setPc, State.addGiven, Function.update_self, RecMutex.mk.injEq,
      true_and]
    omega

/-- **The atomics refine the recursive mutex.** -/
theorem refines_recMutex (hs : dcgMutex.Reach s) (t : T) :
    Simulates t s.view (s.step t).view := by
  have hfit := fits_of_reach hs t
  have hown := hfit.owner_of_needsOwner
  have hag := hfit.inside
  unfold State.step
  cases hp : s.pc t with
  | idle => exact .stutter rfl
  | exchange how => exact simulates_exchange hfit how
  | storeOne how => exact .stutter ((view_returns how true _).trans (view_congr rfl rfl rfl))
  | fetchAdd how =>
    have ho := hown (by rw [hp]; rfl)
    have hle := hfit.given_le
    refine .acquire ?_ ?_
    · rw [view_of_owner ho]
      simp [RecMutex.available]
    · dsimp only
      rw [view_returns, view_of_owner ho]
      refine (view_of_owner (t := t) (by exact ho)).trans ?_
      simp only [State.depth, State.addTaken, Function.update_self, RecMutex.acquire,
        RecMutex.mk.injEq, true_and]
      omega
  | loadOwner =>
    dsimp only
    split <;> exact .stutter (view_congr rfl rfl rfl)
  | fetchSub => exact simulates_fetchSub hfit hp
  | clearOwner =>
    have ho := hown (by rw [hp]; rfl)
    rw [hp] at hag
    have hd : s.depth t = 1 := (hag ho).2
    refine .unlock ?_
    rw [view_of_owner ho, view_of_free rfl, hd]
    simp [RecMutex.unlock]

/-! ## The range of the count -/

theorem natAbs_count_next (s : State T) (a : Act T) :
    (next s a).count.natAbs ≤ s.count.natAbs + 1 := by
  have hret : ∀ u how b (s' : State T), (s'.returns u how b).count = s'.count :=
    fun u how b s' => (returned_returns how b s').count
  cases a with
  | call u f =>
    rcases f with ⟨_ | _⟩ | _ <;> exact Nat.le_succ _
  | step u =>
    dsimp only [next, State.step]
    cases s.pc u with
    | idle => exact Nat.le_succ _
    | storeOne =>
      dsimp only
      rw [hret]
      dsimp only
      omega
    | fetchAdd =>
      dsimp only
      rw [hret]
      dsimp only [State.addTaken]
      omega
    | exchange how =>
      dsimp only [State.exchange]
      split
      · exact Nat.le_succ _
      · split
        · exact Nat.le_succ _
        · cases how <;> exact Nat.le_succ _
    | loadOwner =>
      dsimp only
      split <;> exact Nat.le_succ _
    | fetchSub =>
      dsimp only [State.fetchSub]
      split <;> dsimp only [State.setPc, State.addGiven] <;> omega
    | clearOwner => exact Nat.le_succ _

/-- **`count_` is an `int64_t`**, and no run of fewer than 2^63 steps takes it out
of that range. -/
theorem count_in_range {as : List (Act T)} (hlen : as.length < 2 ^ 63) :
    -2 ^ 63 ≤ (dcgMutex.final dcgMutex.init as).count ∧
      (dcgMutex.final dcgMutex.init as).count < 2 ^ 63 := by
  have hgen : ∀ (as : List (Act T)) (s : State T),
      (dcgMutex.final s as).count.natAbs ≤ s.count.natAbs + as.length := by
    intro as
    induction as with
    | nil => exact fun s => Nat.le_refl _
    | cons a as ih =>
      intro s
      have h := ih (next s a)
      have h' := natAbs_count_next s a
      rw [Machine.final_cons, List.length_cons]
      exact Nat.le_trans h (by omega)
  have h := hgen as dcgMutex.init
  have h0 : (dcgMutex.init : State T).count.natAbs = 0 := rfl
  rw [h0] at h
  omega

/-! ## The law -/

/-- **`DCGMutex` is a recursive mutex.** In every state of every interleaving at
most one thread is inside; between its operations the thread inside is the
owner and the count is its depth; `try_lock` fails exactly where another
thread is inside at its exchange, and otherwise goes on to return true;
`unlock` by a thread that is not inside changes nothing; and the mutex becomes
free in exactly the steps that bring the depth back to zero. `lock` waits where
another thread is inside and returns by no operation but the one that ends its
taking of the mutex, `unlock` by the owner returns one shallower; and whatever
the others do between the call and its return, `lock` returns with the caller
inside and one deeper than at the call, `try_lock` the same or false and no
deeper, and `unlock` one shallower. -/
theorem dcgMutex_recursive (hs : dcgMutex.Reach s) :
    (∀ t u, s.Inside t → s.Inside u → t = u) ∧
      (∀ t, s.pc t = .idle → s.Inside t → s.owner = some t ∧ s.count = s.depth t) ∧
      (∀ t, s.pc t = .exchange .tryLock →
        (s.step t = s.returns t .tryLock false ↔ ∃ u, u ≠ t ∧ s.Inside u) ∧
        ((¬ ∃ u, u ≠ t ∧ s.Inside u) →
          (s.step t).pc t = .storeOne .tryLock ∨ (s.step t).pc t = .fetchAdd .tryLock)) ∧
      (∀ t, s.pc t = .storeOne .tryLock ∨ s.pc t = .fetchAdd .tryLock →
        (s.step t).pc t = .idle ∧ (s.step t).tried t = some true ∧ (s.step t).Inside t) ∧
      (∀ t, s.pc t = .loadOwner → ¬ s.Inside t → s.step t = s.setPc t .idle) ∧
      (∀ a, Enabled s a → ((s.owner ≠ none ∧ (next s a).owner = none) ↔
        ∃ t, s.Inside t ∧ (next s a).depth t = 0)) ∧
      (∀ t, s.Locks t) ∧
      (∀ t, s.Unlocks t) ∧
      (∀ t f as a, dcgMutex.Valid s (.call t f :: as) →
        dcgMutex.Throughout (fun s => s.pc t ≠ .idle) (next s (.call t f)) as →
        Enabled (dcgMutex.final s (.call t f :: as)) a →
        (next (dcgMutex.final s (.call t f :: as)) a).pc t = .idle →
        f.Did (s.depth t) t (next (dcgMutex.final s (.call t f :: as)) a)) :=
  ⟨fun _ _ => eq_of_inside hs, fun _ => count_eq_depth hs,
    fun _ hp => ⟨tryLock_fails_iff hs hp, tryLock_goes_on hs hp⟩, fun _ => tryLock_succeeds hs,
    fun _ => unlock_of_outside hs, fun _ => freed_iff hs, locks_of_reach hs, unlocks_of_reach hs,
    fun t f _ _ hv hrun hen hret => did_of_returns hs t f hv hrun hen hret⟩

/-- Thread 0 locks twice, and then the others call. -/
def nested : List (Act ℕ) :=
  [.call 0 (.take .lock), .step 0, .step 0, .call 0 (.take .tryLock), .step 0, .step 0,
    .call 1 (.take .tryLock), .call 2 .unlock, .call 3 (.take .lock)]

/-- Thread 0 is two deep, thread 1 is about to see that in its `try_lock`, thread 2
about to unlock what it does not own, and thread 3 waits in its `lock`. The next
`unlock` of thread 0, with a step of thread 3 in between, leaves it one deep. -/
theorem dcgMutex_recursive_nested :
    let s := dcgMutex.final dcgMutex.init nested
    s.depth 0 = 2 ∧ s.count = s.depth 0 ∧ s.step 1 = s.returns 1 .tryLock false ∧
      s.step 2 = s.setPc 2 .idle ∧ s.step 3 = s ∧
      (dcgMutex.final s [.call 0 .unlock, .step 0, .step 3, .step 0]).depth 0 = 1 := by
  intro s
  have hs : dcgMutex.Reach s := Machine.reach_final (by decide)
  obtain ⟨-, hcount, htry, -, hunlock, -, hlock, -, hcall⟩ := dcgMutex_recursive hs
  have hother : ∀ u, u ≠ 0 → ∃ v, v ≠ u ∧ s.Inside v := fun u hu => ⟨0, hu.symm, by decide⟩
  refine ⟨by decide, (hcount 0 (by decide) (by decide)).2,
    (htry 1 (by decide)).1.mpr (hother 1 (by decide)), hunlock 2 (by decide) (by decide),
    (hlock 3).waits (by decide) (hother 3 (by decide)), ?_⟩
  exact hcall 0 .unlock [.step 0, .step 3] (.step 0) (by decide)
    ⟨by decide, by decide, show _ ≠ Pc.idle by decide⟩ (by decide) (by decide)

end DCGMutex

end PyNng
