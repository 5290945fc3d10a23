import PyNng.Gil.Owned
/-!
# Gil — every step keeps the invariant

A step of the loop is read off where `m` stands (`tryLock_of_available`
and its like); no `std::system_error` is raised.
-/

namespace PyNng

namespace Gil

variable {T M : Type*} [DecidableEq T] [DecidableEq M]
variable {s : State T M} {t : T} {m : M}

/-! ## What the operations of the loop do -/

theorem tryLock_of_available (hlock : (s.thread t).lock = ⟨some m, false⟩)
    (hav : (s.locks m).available t = true) :
    s.tryLock t = ⟨s.gil, Function.update s.locks m ((s.locks m).acquire t),
      Function.update s.thread t ⟨.running, {}, ⟨some m, true⟩ :: (s.thread t).held⟩⟩ := by
  unfold State.tryLock
  rw [hlock, UniqueLock.tryLock_deferred, if_pos hav]
  rfl

theorem tryLock_of_not_available (hlock : (s.thread t).lock = ⟨some m, false⟩)
    (hav : (s.locks m).available t = false) :
    s.tryLock t = ⟨s.gil, s.locks,
      Function.update s.thread t ⟨.dropping, ⟨some m, false⟩, (s.thread t).held⟩⟩ := by
  unfold State.tryLock
  rw [hlock, UniqueLock.tryLock_deferred, if_neg (by rw [hav]; simp)]
  rfl

theorem lock_of_deferred (hlock : (s.thread t).lock = ⟨some m, false⟩) :
    s.lock t = ⟨s.gil, Function.update s.locks m ((s.locks m).acquire t),
      Function.update s.thread t ⟨.unlocking, ⟨some m, true⟩, (s.thread t).held⟩⟩ := by
  unfold State.lock
  rw [hlock, UniqueLock.lock_deferred]
  rfl

theorem unlock_of_owning (hlock : (s.thread t).lock = ⟨some m, true⟩) :
    s.unlock t = ⟨s.gil, Function.update s.locks m ((s.locks m).unlock t),
      Function.update s.thread t ⟨.retaking, ⟨some m, false⟩, (s.thread t).held⟩⟩ := by
  unfold State.unlock
  rw [hlock, UniqueLock.unlock_owning]
  rfl

theorem release_of_owning :
    s.release t ⟨some m, true⟩ = ⟨s.gil, Function.update s.locks m ((s.locks m).unlock t),
      Function.update s.thread t { s.thread t with
        held := ⟨some m, false⟩ :: (s.thread t).held.erase ⟨some m, true⟩ }⟩ := by
  unfold State.release
  rw [UniqueLock.unlock_owning]
  rfl

/-! ## Every step keeps the invariant -/

variable [LT M]

/-- A thread that does not hold the mutex does not own it. -/
theorem State.Inv.owner_ne (hs : s.Inv) (hlock : (s.thread t).lock.owns = false)
    (hheld : ⟨some m, true⟩ ∉ (s.thread t).held) : (s.locks m).owner ≠ some t := by
  intro ho
  have hpos := (hs.wellFormed m).share_pos ho
  rw [(accounts_cons_of_not_owns hlock).mp (hs.accounts t) m, List.count_eq_zero.mpr hheld] at hpos
  exact Nat.lt_irrefl 0 hpos

theorem State.Inv.owner_of_mem (hs : s.Inv) (hheld : ⟨some m, true⟩ ∈ (s.thread t).held) :
    (s.locks m).owner = some t := by
  refine RecMutex.owner_of_share ?_
  rw [hs.accounts t m]
  exact List.count_pos_iff.mpr (List.mem_cons_of_mem _ hheld)

theorem State.Inv.setPc (hs : s.Inv) {p : Pc} {g : Option T} (hgil : Passes t s g p.hasGil)
    (hsound : SoundAt (s.thread t).lock (s.thread t).held p) :
    (({ s with gil := g } : State T M).setPc t p).Inv :=
  hs.set hsound (hs.named t) hgil (.refl t s.locks) (hs.accounts t)

/-! One lemma for each action that does more than move the thread. -/

theorem State.Inv.tryLock (hs : s.Inv)
    (hpc : (s.thread t).pc = .trying ∨ (s.thread t).pc = .retrying) : (s.tryLock t).Inv := by
  have hsound := hs.sound t
  have hgil : (s.thread t).pc.hasGil = true := by
    rcases hpc with hpc | hpc <;> rw [hpc] <;> rfl
  obtain ⟨m, hlock, hnest⟩ :
      ∃ m, (s.thread t).lock = ⟨some m, false⟩ ∧ MayNest (s.thread t).held m := by
    rcases hpc with hpc | hpc
    · rw [hpc] at hsound
      exact hsound
    · rw [hpc] at hsound
      obtain ⟨m, hlock, hbelow⟩ := hsound
      exact ⟨m, hlock, .inr hbelow⟩
  have hacc := hs.accounts t
  rw [hlock] at hacc
  by_cases hav : (s.locks m).available t = true
  · rw [tryLock_of_available hlock hav]
    refine hs.set (x := ⟨.running, {}, ⟨some m, true⟩ :: (s.thread t).held⟩) rfl ?_ ?_
      (moves_acquire hav) ?_
    · intro u hu
      rcases List.mem_cons.mp hu with rfl | hu
      · simp
      · exact hs.named t u hu
    · exact .of_eq hgil.symm
    · exact (accounts_cons_of_not_owns rfl).mpr
        (((accounts_cons_of_not_owns rfl).mp hacc).acquire (hs.wellFormed m) hav)
  · rw [Bool.not_eq_true] at hav
    rw [tryLock_of_not_available hlock hav]
    refine hs.set (x := ⟨.dropping, ⟨some m, false⟩, (s.thread t).held⟩) ⟨m, rfl, ?_⟩
      (hs.named t) (.of_eq hgil.symm) (.refl t s.locks) hacc
    rcases hnest with hmem | hbelow
    · -- it cannot be one of those held: it is another thread's
      obtain ⟨u, hu, ho⟩ := RecMutex.owner_of_not_available hav
      rw [hs.owner_of_mem hmem] at ho
      exact absurd (Option.some.inj ho).symm hu
    · exact hbelow

theorem State.Inv.lock (hs : s.Inv) (hpc : (s.thread t).pc = .locking)
    (hfree : (s.thread t).lock.blocked t s.locks = false) : (s.lock t).Inv := by
  have hsound := hs.sound t
  rw [hpc] at hsound
  obtain ⟨m, hlock, hbelow⟩ := hsound
  have hacc := hs.accounts t
  rw [hlock] at hacc hfree
  have hav : (s.locks m).available t = true := by
    rw [UniqueLock.blocked_deferred] at hfree
    simpa using hfree
  rw [lock_of_deferred hlock]
  exact hs.set (x := ⟨.unlocking, ⟨some m, true⟩, (s.thread t).held⟩) ⟨m, rfl, hbelow⟩
    (hs.named t) (.of_eq (by rw [hpc]; rfl)) (moves_acquire hav)
    (((accounts_cons_of_not_owns rfl).mp hacc).acquire (hs.wellFormed m) hav)

theorem State.Inv.unlock (hs : s.Inv) (hpc : (s.thread t).pc = .unlocking) :
    (s.unlock t).Inv := by
  have hsound := hs.sound t
  rw [hpc] at hsound
  obtain ⟨m, hlock, hbelow⟩ := hsound
  have hacc := (hs.accounts t).unlock (m := m)
  rw [hlock, List.erase_cons_head] at hacc
  rw [unlock_of_owning hlock]
  exact hs.set (x := ⟨.retaking, ⟨some m, false⟩, (s.thread t).held⟩) ⟨m, rfl, hbelow⟩
    (hs.named t) (.of_eq (by rw [hpc]; rfl)) (moves_unlock s.locks m)
    ((accounts_cons_of_not_owns rfl).mpr hacc)

/-- In the caller's code. -/
theorem State.Inv.lock_eq_empty (hs : s.Inv)
    (hpc : (s.thread t).pc = .running ∨ (s.thread t).pc = .released) :
    (s.thread t).lock = {} := by
  have hsound := hs.sound t
  rcases hpc with hpc | hpc <;> rw [hpc] at hsound <;> exact hsound

theorem State.Inv.accounts_held (hs : s.Inv)
    (hpc : (s.thread t).pc = .running ∨ (s.thread t).pc = .released) :
    Accounts t s.locks (s.thread t).held := by
  have hacc := hs.accounts t
  rw [hs.lock_eq_empty hpc] at hacc
  exact (accounts_cons_of_not_owns rfl).mp hacc

theorem State.Inv.release (hs : s.Inv)
    (hpc : (s.thread t).pc = .running ∨ (s.thread t).pc = .released) {u : UniqueLock M}
    (hu : u ∈ (s.thread t).held) (howns : u.owns = true) : (s.release t u).Inv := by
  obtain ⟨mutex, owns⟩ := u
  obtain ⟨m, rfl⟩ := Option.ne_none_iff_exists'.mp (hs.named t _ hu)
  obtain rfl : owns = true := howns
  have hlock := hs.lock_eq_empty hpc
  rw [release_of_owning]
  refine hs.set (x := { s.thread t with held := _ }) ?_ ?_ .keep (moves_unlock s.locks m) ?_
  · rcases hpc with hpc | hpc <;> rw [hpc] <;> exact hlock
  · intro v hv
    rcases List.mem_cons.mp hv with rfl | hv
    · simp
    · exact hs.named t v (List.mem_of_mem_erase hv)
  · rw [hlock]
    exact (accounts_cons_of_not_owns rfl).mpr ((accounts_cons_of_not_owns rfl).mpr
      (hs.accounts_held hpc).unlock)

theorem State.Inv.destroy (hs : s.Inv)
    (hpc : (s.thread t).pc = .running ∨ (s.thread t).pc = .released) (u : UniqueLock M) :
    (s.destroy t u).Inv := by
  have hlock := hs.lock_eq_empty hpc
  refine hs.set (x := { s.thread t with held := _ }) ?_ ?_ .keep (moves_destroy u s.locks) ?_
  · rcases hpc with hpc | hpc <;> rw [hpc] <;> exact hlock
  · exact fun v hv => hs.named t v (List.mem_of_mem_erase hv)
  · rw [hlock]
    exact (accounts_cons_of_not_owns rfl).mpr ((hs.accounts_held hpc).destroy u)

theorem State.Inv.call (hs : s.Inv) (hpc : (s.thread t).pc = .running) {u : UniqueLock M}
    (hnest : MayNest ((s.thread t).held.erase u) m) : (s.call t u m).Inv := by
  refine hs.set (x := ⟨.trying, ⟨some m, false⟩, (s.thread t).held.erase u⟩) ⟨m, rfl, hnest⟩
    (fun v hv => hs.named t v (List.mem_of_mem_erase hv)) (.of_eq (by rw [hpc]; rfl))
    (moves_destroy u s.locks) ?_
  exact (accounts_cons_of_not_owns rfl).mpr ((hs.accounts_held (.inl hpc)).destroy u)

theorem State.Inv.takeGil (hs : s.Inv) (hwants : (s.thread t).pc.wantsGil = true)
    (hgil : s.gil = none) :
    (({ s with gil := some t } : State T M).setPc t (s.thread t).pc.withGil).Inv := by
  have hsound := hs.sound t
  cases hpc : (s.thread t).pc with
  | starting =>
    rw [hpc] at hsound
    exact hs.setPc (.take hgil) hsound.1
  | returning | retaking =>
    rw [hpc] at hsound
    exact hs.setPc (.take hgil) hsound
  | _ =>
    rw [hpc] at hwants
    exact Bool.noConfusion hwants

/-- **The step lemma.** -/
theorem State.Inv.next (hs : s.Inv) {a : Act T M} (hen : Enabled s a) : (Gil.next s a).Inv := by
  have hsound := hs.sound
  cases a with
  | start t =>
    have hpc : (s.thread t).pc = .outside := hen
    have hx := hs.sound t
    rw [hpc] at hx
    exact hs.setPc (.of_eq (by rw [hpc]; rfl)) hx
  | takeGil t => exact hs.takeGil hen.1 hen.2
  | releaseGil t =>
    have hpc : (s.thread t).pc = .running := hen
    exact hs.setPc (.drop (by rw [hpc]; rfl)) (hs.lock_eq_empty (.inl hpc))
  | wantGil t =>
    have hpc : (s.thread t).pc = .released := hen
    exact hs.setPc (.of_eq (by rw [hpc]; rfl)) (hs.lock_eq_empty (.inr hpc))
  | call t u m => exact hs.call hen.1 hen.2.2
  | tryLock t => exact hs.tryLock hen
  | dropGil t =>
    have hpc : (s.thread t).pc = .dropping := hen
    have hx := hs.sound t
    rw [hpc] at hx
    exact hs.setPc (.drop (by rw [hpc]; rfl)) hx
  | lock t => exact hs.lock hen.1 hen.2
  | spin t => exact hs
  | unlock t => exact hs.unlock hen
  | release t u => exact hs.release hen.1 hen.2.1 hen.2.2
  | destroy t u => exact hs.destroy hen.1 u
  | finish t =>
    have hpc : (s.thread t).pc = .running := hen.1
    exact hs.setPc (.drop (by rw [hpc]; rfl)) ⟨hs.lock_eq_empty (.inl hpc), hen.2⟩

theorem inv_init : ((threads T M).init).Inv where
  sound := fun _ => ⟨rfl, rfl⟩
  named := fun _ _ h => by simp [threads] at h
  gil := fun _ => by simp [threads, Pc.hasGil]
  accounts := fun _ _ => rfl
  wellFormed := fun _ => RecMutex.wellFormed_free
  finite := by simp [threads]

theorem inv_of_reach (hs : (threads T M).Reach s) : s.Inv := by
  induction hs with
  | init => exact inv_init
  | step _ _ hen ih => exact ih.next hen

end Gil

end PyNng
