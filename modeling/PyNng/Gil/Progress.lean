import PyNng.Gil.Kept
import Mathlib.Order.Preorder.Finite
/-!
# Gil — no deadlock between the mutexes and the GIL

A thread in `lock()` has given the GIL away, one that waits for the GIL
has not the mutex it is taking, and so the waits go upward: for a mutex
above all that the waiting thread holds. Were every thread waiting for a
mutex, the one on the highest mutex owned would wait for a higher one.
-/

namespace PyNng

namespace Gil

variable {T M : Type*} [DecidableEq T] [DecidableEq M] [PartialOrder M]
variable {s : State T M} {t : T} {m : M}

/-! ## The waits -/

/-- The loop of `lock` found the mutex taken. -/
def Act.failedSpin : Act T M → Bool
  | .spin _ => true
  | .start _ | .takeGil _ | .releaseGil _ | .wantGil _ | .call .. | .tryLock _ | .dropGil _
  | .lock _ | .unlock _ | .release .. | .destroy .. | .finish _ => false

/-- Whose step it is. -/
def Act.thread : Act T M → T
  | .start t | .takeGil t | .releaseGil t | .wantGil t | .call t _ _ | .tryLock t | .dropGil t
  | .lock t | .spin t | .unlock t | .release t _ | .destroy t _ | .finish t => t

/-- Some thread that is there can take a step that is not a failed spin, and that
changes the state. -/
def State.CanStep (s : State T M) : Prop :=
  ∃ a, Enabled s a ∧ a.failedSpin = false ∧ (s.thread a.thread).pc ≠ .outside ∧ next s a ≠ s

omit [DecidableEq T] [DecidableEq M] [PartialOrder M] in
theorem ne_of_pc {s' : State T M} (h : (s'.thread t).pc ≠ (s.thread t).pc) : s' ≠ s := by
  rintro rfl
  exact h rfl

omit [DecidableEq T] [DecidableEq M] [PartialOrder M] in
theorem ne_of_held {s' : State T M} (h : (s'.thread t).held ≠ (s.thread t).held) : s' ≠ s := by
  rintro rfl
  exact h rfl

omit [DecidableEq M] [PartialOrder M] in
theorem thread_setThread (t : T) (x : Thread M) (s : State T M) :
    (s.setThread t x).thread t = x := Function.update_self ..

omit [DecidableEq M] [PartialOrder M] in
theorem setPc_ne {s' : State T M} {p : Pc} (h : p ≠ (s.thread t).pc) : s'.setPc t p ≠ s := by
  refine ne_of_pc (t := t) ?_
  rw [State.setPc, thread_setThread]
  exact h

/-- A lock that is given up is no longer held as it was. -/
theorem State.Inv.release_ne (hs : s.Inv) {u : UniqueLock M} (hu : u ∈ (s.thread t).held)
    (ho : u.owns = true) : s.release t u ≠ s := by
  obtain ⟨m, hm⟩ := Option.ne_none_iff_exists'.mp (hs.named t u hu)
  obtain ⟨mutex, owns⟩ := u
  obtain rfl : mutex = some m := hm
  obtain rfl : owns = true := ho
  rw [release_of_owning]
  refine ne_of_held (t := t) ?_
  dsimp only
  rw [Function.update_self]
  intro hheld
  have hcount := congrArg (List.count ⟨some m, true⟩) hheld
  have hpos := List.count_pos_iff.mpr hu
  rw [List.count_cons_of_ne (by simp), List.count_erase_self] at hcount
  omega

/-- **A step that is not a failed spin** changes the state. -/
theorem State.Inv.next_ne (hs : s.Inv) {a : Act T M} (hen : Enabled s a)
    (hspin : a.failedSpin = false) : Gil.next s a ≠ s := by
  cases a with
  | spin => exact Bool.noConfusion hspin
  | start t | wantGil t | dropGil t =>
    have hpc : (s.thread t).pc = _ := hen
    exact setPc_ne (by rw [hpc]; simp)
  | releaseGil t =>
    have hpc : (s.thread t).pc = .running := hen
    exact setPc_ne (by rw [hpc]; simp)
  | finish t =>
    have hpc : (s.thread t).pc = .running := hen.1
    exact setPc_ne (by rw [hpc]; simp)
  | takeGil t =>
    have hwants := hen.1
    refine setPc_ne ?_
    revert hwants
    cases (s.thread t).pc <;> simp [Pc.wantsGil, Pc.withGil]
  | call t u m =>
    have hpc : (s.thread t).pc = .running := hen.1
    refine ne_of_pc (t := t) ?_
    dsimp only [Gil.next, State.call]
    rw [thread_setThread, hpc]
    simp
  | tryLock t =>
    refine ne_of_pc (t := t) ?_
    have hnot : ∀ p, p ≠ .trying → p ≠ .retrying → p ≠ (s.thread t).pc := by
      rintro p htry hretry rfl
      exact hen.elim htry hretry
    dsimp only [Gil.next, State.tryLock]
    split
    · rw [State.setPc, thread_setThread]
      exact hnot _ (by simp) (by simp)
    · rw [thread_setThread]
      split
      · exact hnot _ (by simp) (by simp)
      · exact hnot _ (by simp) (by simp)
  | lock t =>
    have hpc : (s.thread t).pc = .locking := hen.1
    refine ne_of_pc (t := t) ?_
    dsimp only [Gil.next, State.lock]
    split
    · rw [State.setPc, thread_setThread, hpc]
      simp
    · rw [thread_setThread, hpc]
      simp
  | unlock t =>
    have hpc : (s.thread t).pc = .unlocking := hen
    refine ne_of_pc (t := t) ?_
    dsimp only [Gil.next, State.unlock]
    split
    · rw [State.setPc, thread_setThread, hpc]
      simp
    · rw [thread_setThread, hpc]
      simp
  | release t u => exact hs.release_ne hen.2.1 hen.2.2
  | destroy t u =>
    refine ne_of_held (t := t) ?_
    dsimp only [Gil.next, State.destroy]
    rw [thread_setThread]
    intro hheld
    have hlength := congrArg List.length hheld
    rw [List.length_erase_of_mem hen.2] at hlength
    have hpos := List.length_pos_of_mem hen.2
    omega

theorem State.Inv.canStep_of (hs : s.Inv) {a : Act T M} {p : Pc} (hen : Enabled s a)
    (hspin : a.failedSpin = false) (hpc : (s.thread a.thread).pc = p) (hp : p ≠ .outside) :
    s.CanStep :=
  ⟨a, hen, hspin, by rw [hpc]; exact hp, hs.next_ne hen hspin⟩

/-- **Whoever has the GIL can go on.** -/
theorem State.Inv.canStep_of_gil (hs : s.Inv) (hgil : s.gil = some t) : s.CanStep := by
  have hhas := (hs.gil t).mpr hgil
  cases hpc : (s.thread t).pc with
  | running =>
    cases hheld : (s.thread t).held with
    | nil => exact hs.canStep_of (a := .finish t) ⟨hpc, hheld⟩ rfl hpc (by simp)
    | cons u us =>
      have hu : u ∈ (s.thread t).held := by
        rw [hheld]
        exact List.mem_cons_self
      exact hs.canStep_of (a := .destroy t u) ⟨.inl hpc, hu⟩ rfl hpc (by simp)
  | trying => exact hs.canStep_of (a := .tryLock t) (.inl hpc) rfl hpc (by simp)
  | retrying => exact hs.canStep_of (a := .tryLock t) (.inr hpc) rfl hpc (by simp)
  | dropping => exact hs.canStep_of (a := .dropGil t) hpc rfl hpc (by simp)
  | outside | starting | released | returning | locking | unlocking | retaking | threw =>
    rw [hpc] at hhas
    exact Bool.noConfusion hhas

/-- The thread waits in `lock()` for a mutex above all it holds. -/
def State.WaitsFor (s : State T M) (t : T) (m : M) : Prop :=
  (s.thread t).pc = .locking ∧ (s.thread t).lock = ⟨some m, false⟩ ∧ Below (s.thread t).held m ∧
    (s.locks m).owner ≠ none

/-- **Where nothing can step**, every thread there is waits for a mutex. -/
theorem State.Inv.waits_of_stuck (hs : s.Inv) (hstuck : ¬ s.CanStep)
    (ht : (s.thread t).pc ≠ .outside) : ∃ m, s.WaitsFor t m := by
  have hfree : s.gil = none := by
    by_contra hgil
    obtain ⟨u, hu⟩ := Option.ne_none_iff_exists'.mp hgil
    exact hstuck (hs.canStep_of_gil hu)
  have hgil : (s.thread t).pc.hasGil = true → False := by
    intro h
    rw [(hs.gil t).mp h] at hfree
    simp at hfree
  have hsound := hs.sound t
  cases hpc : (s.thread t).pc with
  | outside => exact absurd hpc ht
  | starting | returning | retaking =>
    refine absurd ?_ hstuck
    exact hs.canStep_of (a := .takeGil t) ⟨by rw [hpc]; rfl, hfree⟩ rfl hpc (by simp)
  | running | trying | dropping | retrying => exact (hgil (by rw [hpc]; rfl)).elim
  | released => exact absurd (hs.canStep_of (a := .wantGil t) hpc rfl hpc (by simp)) hstuck
  | unlocking => exact absurd (hs.canStep_of (a := .unlock t) hpc rfl hpc (by simp)) hstuck
  | threw =>
    rw [hpc] at hsound
    exact hsound.elim
  | locking =>
    rw [hpc] at hsound
    obtain ⟨m, hlock, hbelow⟩ := hsound
    refine ⟨m, hpc, hlock, hbelow, fun hnone => hstuck ?_⟩
    refine hs.canStep_of (a := .lock t) ⟨hpc, ?_⟩ rfl hpc (by simp)
    rw [hlock, UniqueLock.blocked_deferred]
    unfold RecMutex.available
    rw [hnone]
    simp

/-- Who owns a mutex has a lock on it. -/
theorem State.Inv.mem_of_owner (hs : s.Inv) (ho : (s.locks m).owner = some t) :
    ⟨some m, true⟩ ∈ (s.thread t).lock :: (s.thread t).held := by
  have hpos := (hs.wellFormed m).share_pos ho
  rw [hs.accounts t m] at hpos
  exact List.count_pos_iff.mp hpos

/-- The owner of a mutex, where nothing can step, waits for one above it. -/
theorem State.Inv.waits_above (hs : s.Inv) (hstuck : ¬ s.CanStep)
    (ho : (s.locks m).owner = some t) : ∃ m', m < m' ∧ (s.locks m').owner ≠ none := by
  have hmem := hs.mem_of_owner ho
  have ht : (s.thread t).pc ≠ .outside := by
    intro hpc
    have hsound := hs.sound t
    rw [hpc] at hsound
    rw [hsound.1, hsound.2] at hmem
    simp at hmem
  obtain ⟨m', -, hlock, hbelow, howned⟩ := hs.waits_of_stuck hstuck ht
  rw [hlock] at hmem
  rcases List.mem_cons.mp hmem with he | hheld
  · simp at he
  · exact ⟨m', hbelow _ hheld rfl m rfl, howned⟩

/-- **Somebody can step.** -/
theorem State.Inv.canStep (hs : s.Inv) (ht : (s.thread t).pc ≠ .outside) : s.CanStep := by
  by_contra hstuck
  obtain ⟨m, -, -, -, howned⟩ := hs.waits_of_stuck hstuck ht
  obtain ⟨top, htop⟩ := hs.finite.exists_maximal ⟨m, howned⟩
  obtain ⟨u, ho⟩ := Option.ne_none_iff_exists'.mp htop.1
  obtain ⟨m', hlt, howned'⟩ := hs.waits_above hstuck ho
  exact absurd hlt (htop.not_gt howned')

/-! ## The calls -/

/-- The thread is in `lock_gil_friendly`. -/
def Pc.inCall : Pc → Bool
  | .trying | .dropping | .locking | .unlocking | .retaking | .retrying => true
  | .outside | .starting | .running | .released | .returning | .threw => false

/-- **The loop without the GIL** has not the mutex it is taking. -/
theorem State.Inv.owner_ne_of_retaking (hs : s.Inv) (hpc : (s.thread t).pc = .retaking)
    (hm : (s.thread t).lock.mutex = some m) : (s.locks m).owner ≠ some t := by
  have hsound := hs.sound t
  rw [hpc] at hsound
  obtain ⟨m', hlock, hbelow⟩ := hsound
  rw [hlock] at hm
  obtain rfl : m' = m := Option.some.inj hm
  exact hs.owner_ne (by rw [hlock]) fun hmem => lt_irrefl m' (hbelow _ hmem rfl m' rfl)

/-- **When it returns** the caller has the GIL and the mutex. -/
theorem State.Inv.returned (hs : s.Inv)
    (hpc : (s.thread t).pc = .trying ∨ (s.thread t).pc = .retrying)
    (hm : (s.thread t).lock.mutex = some m) (hret : ((s.tryLock t).thread t).pc = .running) :
    (s.tryLock t).gil = some t ∧ ((s.tryLock t).locks m).owner = some t := by
  have hsound := hs.sound t
  obtain ⟨m', hlock⟩ : ∃ m', (s.thread t).lock = ⟨some m', false⟩ := by
    rcases hpc with hpc | hpc <;> rw [hpc] at hsound <;> exact ⟨_, hsound.choose_spec.1⟩
  rw [hlock] at hm
  obtain rfl : m' = m := Option.some.inj hm
  have hgil : s.gil = some t := (hs.gil t).mp (by rcases hpc with hpc | hpc <;> rw [hpc] <;> rfl)
  by_cases hav : (s.locks m').available t = true
  · rw [tryLock_of_available hlock hav]
    refine ⟨hgil, ?_⟩
    dsimp only
    rw [Function.update_self]
    rfl
  · rw [tryLock_of_not_available hlock (by simpa using hav)] at hret
    simp at hret

omit [PartialOrder M] in
theorem thread_next_of_ne {a : Act T M} (ht : t ≠ a.thread) :
    (Gil.next s a).thread t = s.thread t := by
  have hset : ∀ (s' : State T M) x, (s'.setThread a.thread x).thread t = s'.thread t :=
    fun s' x => Function.update_of_ne ht _ _
  cases a with
  | spin => rfl
  | start | takeGil | releaseGil | wantGil | call | dropGil | destroy | finish => exact hset _ _
  | tryLock u =>
    dsimp only [Gil.next, State.tryLock]
    split <;> exact hset _ _
  | lock u =>
    dsimp only [Gil.next, State.lock]
    split <;> exact hset _ _
  | unlock u =>
    dsimp only [Gil.next, State.unlock]
    split <;> exact hset _ _
  | release u v =>
    dsimp only [Gil.next, State.release]
    split <;> exact hset _ _

/-- What the operations of the loop leave in `m`. -/
theorem State.Inv.mutex_of_loop (hs : s.Inv) {a : Act T M} (hen : Enabled s a)
    (ha : a = .tryLock t ∨ a = .lock t ∨ a = .unlock t)
    (hcall' : ((Gil.next s a).thread t).pc.inCall = true) :
    ((Gil.next s a).thread t).lock.mutex = (s.thread t).lock.mutex := by
  have hsound := hs.sound t
  rcases ha with rfl | rfl | rfl
  · obtain ⟨m, hlock⟩ : ∃ m, (s.thread t).lock = ⟨some m, false⟩ := by
      rcases hen with hpc | hpc <;> rw [hpc] at hsound <;> exact ⟨_, hsound.choose_spec.1⟩
    dsimp only [Gil.next] at hcall' ⊢
    by_cases hav : (s.locks m).available t = true
    · rw [tryLock_of_available hlock hav] at hcall'
      dsimp only at hcall'
      rw [Function.update_self] at hcall'
      exact Bool.noConfusion hcall'
    · rw [tryLock_of_not_available hlock (by simpa using hav), hlock]
      dsimp only
      rw [Function.update_self]
  · rw [hen.1] at hsound
    obtain ⟨m, hlock, -⟩ := hsound
    dsimp only [Gil.next]
    rw [lock_of_deferred hlock, hlock]
    dsimp only
    rw [Function.update_self]
  · rw [show (s.thread t).pc = .unlocking from hen] at hsound
    obtain ⟨m, hlock, -⟩ := hsound
    dsimp only [Gil.next]
    rw [unlock_of_owning hlock, hlock]
    dsimp only
    rw [Function.update_self]

/-- The `m` of a call is about the same mutex from its first statement to its
return. -/
theorem State.Inv.mutex_kept (hs : s.Inv) {a : Act T M} (hen : Enabled s a)
    (hcall : (s.thread t).pc.inCall = true) (hcall' : ((Gil.next s a).thread t).pc.inCall = true) :
    ((Gil.next s a).thread t).lock.mutex = (s.thread t).lock.mutex := by
  by_cases ht : t = a.thread
  · have hself : ∀ (s' : State T M) x, ((s'.setThread t x).thread t).lock.mutex = x.lock.mutex :=
      fun s' x => by rw [State.setThread]; dsimp only; rw [Function.update_self]
    have hout : ∀ p, (s.thread t).pc = p → p.inCall = false →
        ((Gil.next s a).thread t).lock.mutex = (s.thread t).lock.mutex := by
      intro p hpc hno
      rw [hpc, hno] at hcall
      exact Bool.noConfusion hcall
    subst ht
    cases a with
    | spin => rfl
    | takeGil | dropGil => exact hself _ _
    | tryLock => exact hs.mutex_of_loop hen (.inl rfl) hcall'
    | lock => exact hs.mutex_of_loop hen (.inr (.inl rfl)) hcall'
    | unlock => exact hs.mutex_of_loop hen (.inr (.inr rfl)) hcall'
    | start | releaseGil | wantGil => exact hout _ hen rfl
    | call | finish => exact hout _ hen.1 rfl
    | release | destroy => rcases hen.1 with hpc | hpc <;> exact hout _ hpc rfl
  · rw [thread_next_of_ne ht]

/-- **A call is left** by returning, with the GIL and the mutex. -/
theorem State.Inv.left (hs : s.Inv) {a : Act T M} (hen : Enabled s a)
    (hcall : (s.thread t).pc.inCall = true) (hm : (s.thread t).lock.mutex = some m)
    (hleft : ((Gil.next s a).thread t).pc.inCall = false) :
    ((Gil.next s a).thread t).pc = .running ∧ (Gil.next s a).gil = some t ∧
      ((Gil.next s a).locks m).owner = some t := by
  by_cases ht : t = a.thread
  · have hin : ∀ p, ((Gil.next s a).thread t).pc = p → p.inCall = true → False := by
      intro p hpc hno
      rw [hpc, hno] at hleft
      exact Bool.noConfusion hleft
    have hout : ∀ p, (s.thread t).pc = p → p.inCall = false → False := by
      intro p hpc hno
      rw [hpc, hno] at hcall
      exact Bool.noConfusion hcall
    have hsound := hs.sound t
    cases a with
    | spin => exact (hin _ rfl hcall).elim
    | dropGil u =>
      obtain rfl : t = u := ht
      exact (hin .locking (congrArg Thread.pc (thread_setThread _ _ _)) rfl).elim
    | takeGil u =>
      obtain rfl : t = u := ht
      -- of the places that wait for the GIL only the loop's is in the call
      have hretaking : (s.thread t).pc = .retaking := by
        have hwants := hen.1
        revert hwants hcall
        cases (s.thread t).pc <;> simp [Pc.wantsGil, Pc.inCall]
      refine (hin .retrying ?_ rfl).elim
      refine (congrArg Thread.pc (thread_setThread _ _ _)).trans ?_
      rw [hretaking]
      rfl
    | tryLock u =>
      obtain rfl : t = u := ht
      have hrunning : ((s.tryLock t).thread t).pc = .running := by
        obtain ⟨m', hlock⟩ : ∃ m', (s.thread t).lock = ⟨some m', false⟩ := by
          rcases hen with hpc | hpc <;> rw [hpc] at hsound <;> exact ⟨_, hsound.choose_spec.1⟩
        by_cases hav : (s.locks m').available t = true
        · rw [tryLock_of_available hlock hav]
          dsimp only
          rw [Function.update_self]
        · have hpc : ((s.tryLock t).thread t).pc = .dropping := by
            rw [tryLock_of_not_available hlock (by simpa using hav)]
            dsimp only
            rw [Function.update_self]
          exact (hin .dropping hpc rfl).elim
      exact ⟨hrunning, hs.returned hen hm hrunning⟩
    | lock u =>
      obtain rfl : t = u := ht
      rw [hen.1] at hsound
      obtain ⟨m', hlock, -⟩ := hsound
      have hpc : ((s.lock t).thread t).pc = .unlocking := by
        rw [lock_of_deferred hlock]
        dsimp only
        rw [Function.update_self]
      exact (hin .unlocking hpc rfl).elim
    | unlock u =>
      obtain rfl : t = u := ht
      rw [show (s.thread t).pc = .unlocking from hen] at hsound
      obtain ⟨m', hlock, -⟩ := hsound
      have hpc : ((s.unlock t).thread t).pc = .retaking := by
        rw [unlock_of_owning hlock]
        dsimp only
        rw [Function.update_self]
      exact (hin .retaking hpc rfl).elim
    | start u | releaseGil u | wantGil u =>
      obtain rfl : t = u := ht
      exact (hout _ hen rfl).elim
    | call u | finish u =>
      obtain rfl : t = u := ht
      exact (hout _ hen.1 rfl).elim
    | release u | destroy u =>
      obtain rfl : t = u := ht
      rcases hen.1 with hpc | hpc
      · exact (hout _ hpc rfl).elim
      · exact (hout _ hpc rfl).elim
  · rw [thread_next_of_ne ht, hcall] at hleft
    exact Bool.noConfusion hleft

/-! ## The law -/

/-- **`lock_gil_friendly` cannot deadlock with the GIL.** In every state of every
interleaving: who is in `lock()` has not the GIL; who waits for the GIL in the
loop does not own the mutex it is taking; whatever step takes a thread out of its
call leaves it back in the caller's code with the GIL and the mutex it was called
for; and while any thread is there, some thread can take a step that is not a
failed spin and changes the state. -/
theorem lock_gil_friendly_never_deadlocks (hs : (threads T M).Reach s) :
    (∀ t, (s.thread t).pc = .locking → s.gil ≠ some t) ∧
      (∀ t m, (s.thread t).pc = .retaking → (s.thread t).lock.mutex = some m →
        (s.locks m).owner ≠ some t) ∧
      (∀ t m a, Enabled s a → (s.thread t).pc.inCall = true →
        (s.thread t).lock.mutex = some m → ((next s a).thread t).pc.inCall = false →
        ((next s a).thread t).pc = .running ∧ (next s a).gil = some t ∧
          ((next s a).locks m).owner = some t) ∧
      (∀ t a, Enabled s a → (s.thread t).pc.inCall = true →
        ((next s a).thread t).pc.inCall = true →
        ((next s a).thread t).lock.mutex = (s.thread t).lock.mutex) ∧
      ((∃ t, (s.thread t).pc ≠ .outside) → s.CanStep) := by
  have hinv := inv_of_reach hs
  refine ⟨fun t hpc hgil => ?_, fun _ _ => hinv.owner_ne_of_retaking,
    fun _ _ _ hen => hinv.left hen, fun _ _ => hinv.mutex_kept,
    fun ⟨_, ht⟩ => hinv.canStep ht⟩
  have hhas := (hinv.gil t).mpr hgil
  rw [hpc] at hhas
  exact Bool.noConfusion hhas

/-- Thread 0 has mutex 0 and waits for the GIL; thread 1 has mutex 1 and has
given the GIL away to lock mutex 2, which thread 2 has. -/
def crossed : List (Act ℕ ℕ) :=
  [.start 0, .start 1, .start 2,
    .takeGil 0, .call 0 {} 0, .tryLock 0, .releaseGil 0, .wantGil 0,
    .takeGil 2, .call 2 {} 2, .tryLock 2, .releaseGil 2,
    .takeGil 1, .call 1 {} 1, .tryLock 1, .call 1 {} 2, .tryLock 1, .dropGil 1]

theorem lock_gil_friendly_never_deadlocks_crossed :
    ((threads ℕ ℕ).final (threads ℕ ℕ).init crossed).gil ≠ some 1 ∧
      ((threads ℕ ℕ).final (threads ℕ ℕ).init crossed).CanStep := by
  obtain ⟨hlock, -, -, -, hstep⟩ := lock_gil_friendly_never_deadlocks
    (s := (threads ℕ ℕ).final (threads ℕ ℕ).init crossed) (Machine.reach_final (by decide))
  exact ⟨hlock 1 (by decide), hstep ⟨1, by decide⟩⟩

end Gil

end PyNng
