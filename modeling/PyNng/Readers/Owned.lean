import PyNng.Readers.Model
/-!
# Readers — a loop watches only what a living manager's queue has open

The bound method the loop holds keeps the manager, and the manager keeps
the queue's descriptor open, until the `remove_reader` has run. So the
number cannot have gone to anyone else by then, and what the removal
removes is the reader of the manager that scheduled it.
-/

namespace PyNng

namespace Readers

variable {s : State} {k l m fd : ℕ} {g : Manager}

/-- **The invariant.** -/
structure Sound (s : State) : Prop where
  fresh : ∀ m, s.made ≤ m → s.mgr m = {}
  /-- A reader is of a manager that is not freed. -/
  reader : ∀ l fd m, s.readers l fd = some m →
    (s.mgr m).loop = l ∧ (s.mgr m).mode = .poll ∧ (s.mgr m).readFd = some fd ∧
      (s.mgr m).freed = false
  /-- A queue that something holds has its descriptor open. -/
  held : ∀ m fd, (s.mgr m).mode = .poll → (s.mgr m).readFd = some fd →
    (s.mgr m).freed = false ∨ 0 < (s.mgr m).ops → s.fds fd = some (.queue m)
  owned : ∀ fd m, s.fds fd = some (.queue m) → (s.mgr m).readFd = some fd
  live : ∀ m, (s.mgr m).freed = true → (s.mgr m).locals = 0
  dict : ∀ k, ∀ m ∈ s.managers k, (s.mgr m).sock = k ∧ (s.mgr m).freed = false ∧ m < s.made
  todo : ∀ k, ∀ m ∈ (s.closing k).getD [],
    (s.mgr m).sock = k ∧ (s.mgr m).freed = false ∧ m < s.made
  /-- A manager that has its loop is watched by it. -/
  watching : ∀ m fd, (s.mgr m).hasLoop = true → (s.mgr m).mode = .poll →
    s.closed (s.mgr m).loop = false → (s.mgr m).readFd = some fd →
      s.readers (s.mgr m).loop fd = some m
  /-- What is scheduled is to remove the manager's own reader, -/
  scheduled : ∀ l, ∀ r ∈ s.scheduled l,
    s.readers l r.fd = some r.mgr ∧ (s.mgr r.mgr).hasLoop = false
  nodup : ∀ l, (s.scheduled l).Nodup
  /-- and it is scheduled for every manager that has let go of its loop. -/
  pending : ∀ l fd m, s.readers l fd = some m → (s.mgr m).hasLoop = false →
    ⟨fd, m⟩ ∈ s.scheduled l
  shut : ∀ l, s.closed l = true → ∀ fd, s.readers l fd = none

/-! ## The bookkeeping of one manager -/

@[simp] theorem setMgr_mgr_self : (s.setMgr m g).mgr m = g := Function.update_self ..

theorem setMgr_mgr_of_ne {n : ℕ} (h : n ≠ m) : (s.setMgr m g).mgr n = s.mgr n :=
  Function.update_of_ne h ..

/-- It is the same manager: who refers to it may differ. -/
structure SameManager (g g' : Manager) : Prop where
  sock : g'.sock = g.sock
  loop : g'.loop = g.loop
  mode : g'.mode = g.mode
  readFd : g'.readFd = g.readFd

theorem SameManager.rfl {g : Manager} : SameManager g g :=
  ⟨Eq.refl _, Eq.refl _, Eq.refl _, Eq.refl _⟩

theorem Sound.referred_of_reader (h : Sound s) (hr : s.readers l fd = some m) :
    s.Referred m := by
  obtain ⟨hl, -, hfd, -⟩ := h.reader l fd m hr
  subst hl
  exact .inr (.inr (.inr ⟨fd, hfd, hr⟩))

/-- **A step on one manager.** It may be freed if nothing refers to it, and let go
of its loop if what is then scheduled is to remove its own reader. -/
theorem Sound.change (h : Sound s) (hm : m < s.made) (hsame : SameManager (s.mgr m) g)
    (hback : (s.mgr m).freed = true → g.freed = true)
    (hfreed : g.freed = true → (s.mgr m).freed = true ∨ ¬ s.Referred m)
    (hops : 0 < g.ops → (s.mgr m).freed = false ∨ 0 < (s.mgr m).ops)
    (hlive : g.freed = true → g.locals = 0) (hloop : g.hasLoop = true → (s.mgr m).hasLoop = true)
    {S : ℕ → List Removal} (hold : ∀ l, ∀ r ∈ s.scheduled l, r ∈ S l)
    (hnew : ∀ l, ∀ r ∈ S l, r ∈ s.scheduled l ∨
      r.mgr = m ∧ g.hasLoop = false ∧ s.readers l r.fd = some m)
    (hnodup : ∀ l, (S l).Nodup)
    (hself : g.hasLoop = false → ∀ l fd, s.readers l fd = some m → ⟨fd, m⟩ ∈ S l) :
    Sound { s.setMgr m g with scheduled := S } := by
  have hat : (s.setMgr m g).mgr m = g := setMgr_mgr_self
  have hoff : ∀ {j}, j ≠ m → (s.setMgr m g).mgr j = s.mgr j := fun hj => setMgr_mgr_of_ne hj
  have hkind : ∀ j, SameManager (s.mgr j) ((s.setMgr m g).mgr j) := by
    intro j
    by_cases hj : j = m
    · subst hj
      rw [hat]
      exact hsame
    · rw [hoff hj]
      exact .rfl
  -- what is referred to is not freed
  have hkept : ∀ j, (s.mgr j).freed = false → s.Referred j →
      ((s.setMgr m g).mgr j).freed = false := by
    intro j hj href
    by_cases hjm : j = m
    · subst hjm
      rw [hat]
      refine Bool.eq_false_iff.mpr fun hg => (hfreed hg).elim (fun hf => ?_) fun hn => hn href
      rw [hj] at hf
      cases hf
    · rwa [hoff hjm]
  refine
    { fresh := fun j hj => ?_, reader := fun l fd j hr => ?_, held := fun j fd hp hfd hor => ?_,
      owned := fun fd j hfd => ?_, live := fun j hf => ?_, dict := fun i j hj => ?_,
      todo := fun i j hj => ?_, watching := fun j fd hl hp hclosed hfd => ?_,
      scheduled := fun l r hr => ?_, nodup := hnodup, pending := fun l fd j hr hl => ?_,
      shut := h.shut }
  all_goals dsimp only at *
  · rw [hoff (Nat.ne_of_gt (Nat.lt_of_lt_of_le hm hj))]
    exact h.fresh j hj
  · obtain ⟨h1, h2, h3, h4⟩ := h.reader l fd j hr
    rw [(hkind j).loop, (hkind j).mode, (hkind j).readFd]
    exact ⟨h1, h2, h3, hkept j h4 (h.referred_of_reader hr)⟩
  · rw [(hkind j).mode] at hp
    rw [(hkind j).readFd] at hfd
    refine h.held j fd hp hfd ?_
    by_cases hj : j = m
    · subst hj
      rw [hat] at hor
      refine hor.elim (fun hf => .inl (Bool.eq_false_iff.mpr fun hfr => ?_)) hops
      rw [hback hfr] at hf
      cases hf
    · rwa [hoff hj] at hor
  · rw [(hkind j).readFd]
    exact h.owned fd j hfd
  · by_cases hj : j = m
    · subst hj
      rw [hat] at hf ⊢
      exact hlive hf
    · rw [hoff hj] at hf ⊢
      exact h.live j hf
  · obtain ⟨rfl, hf, hlt⟩ := h.dict i j hj
    exact ⟨(hkind j).sock, hkept j hf (.inr (.inl hj)), hlt⟩
  · obtain ⟨rfl, hf, hlt⟩ := h.todo i j hj
    exact ⟨(hkind j).sock, hkept j hf (.inr (.inr (.inl hj))), hlt⟩
  · rw [(hkind j).mode] at hp
    rw [(hkind j).loop] at hclosed ⊢
    rw [(hkind j).readFd] at hfd
    refine h.watching j fd ?_ hp hclosed hfd
    by_cases hj : j = m
    · subst hj
      rw [hat] at hl
      exact hloop hl
    · rwa [hoff hj] at hl
  · rcases hnew l r hr with hr | ⟨hrm, hg, hread⟩
    · obtain ⟨h1, h2⟩ := h.scheduled l r hr
      refine ⟨h1, ?_⟩
      by_cases hj : r.mgr = m
      · rw [hj] at h2 ⊢
        rw [hat]
        refine Bool.eq_false_iff.mpr fun hg => ?_
        rw [hloop hg] at h2
        cases h2
      · rwa [hoff hj]
    · rw [hrm, hat]
      exact ⟨hread, hg⟩
  · by_cases hj : j = m
    · subst hj
      rw [hat] at hl
      exact hself hl l fd hr
    · rw [hoff hj] at hl
      exact hold l _ (h.pending l fd j hr hl)

/-- A step that counts references to one manager, or frees it. -/
theorem Sound.count (h : Sound s) (hm : m < s.made) (hsame : SameManager (s.mgr m) g)
    (hback : (s.mgr m).freed = true → g.freed = true)
    (hfreed : g.freed = true → (s.mgr m).freed = true ∨ ¬ s.Referred m)
    (hops : 0 < g.ops → (s.mgr m).freed = false ∨ 0 < (s.mgr m).ops)
    (hlive : g.freed = true → g.locals = 0) (hloop : g.hasLoop = (s.mgr m).hasLoop) :
    Sound (s.setMgr m g) :=
  h.change hm hsame hback hfreed hops hlive (fun hg => hloop ▸ hg) (fun _ _ hr => hr)
    (fun _ _ hr => .inl hr) h.nodup fun hg l fd hr => h.pending l fd m hr (hloop ▸ hg)

theorem Sound.lt_made (h : Sound s) (hne : s.mgr m ≠ {}) : m < s.made :=
  Nat.lt_of_not_le fun hle => hne (h.fresh m hle)

/-- A descriptor a loop watches is open. -/
theorem Sound.fds_of_reader (h : Sound s) (hr : s.readers l fd = some m) :
    s.fds fd = some (.queue m) := by
  obtain ⟨-, hmode, hfd, hfreed⟩ := h.reader l fd m hr
  exact h.held m fd hmode hfd (.inl hfreed)

theorem Sound.reader_lt (h : Sound s) (hr : s.readers l fd = some m) : m < s.made := by
  refine h.lt_made fun hempty => ?_
  have hmode := (h.reader l fd m hr).2.1
  rw [hempty] at hmode
  cases hmode

theorem Sound.removal_lt (h : Sound s) {r : Removal} (hr : r ∈ s.scheduled l) : r.mgr < s.made :=
  h.reader_lt (h.scheduled l r hr).1

/-! ## The dict and `close` -/

/-- A step that drops references from the dict or from a `close`, or copies the
dict. -/
theorem Sound.refer (h : Sound s) {managers : ℕ → List ℕ} {closing : ℕ → Option (List ℕ)}
    (hdict : ∀ k, ∀ m ∈ managers k, m ∈ s.managers k)
    (htodo : ∀ k, ∀ m ∈ (closing k).getD [], m ∈ (s.closing k).getD [] ∨ m ∈ s.managers k) :
    Sound { s with managers := managers, closing := closing } :=
  { h with
    dict := fun k m hm => h.dict k m (hdict k m hm)
    todo := fun k m hm => (htodo k m hm).elim (h.todo k m) (h.dict k m) }

theorem Sound.beginClose (h : Sound s) (k : ℕ) :
    Sound (next s (.beginClose k)) := by
  refine h.refer (fun _ _ hm => hm) fun j m hm => ?_
  by_cases hj : j = k
  · subst hj
    rw [Function.update_self] at hm
    exact .inr hm
  · rw [Function.update_of_ne hj] at hm
    exact .inl hm

theorem Sound.endClose (h : Sound s) (k : ℕ) : Sound (next s (.endClose k)) := by
  refine h.refer (fun j m hm => ?_) fun j m hm => ?_
  · by_cases hj : j = k
    · subst hj
      rw [Function.update_self] at hm
      exact absurd hm List.not_mem_nil
    · rwa [Function.update_of_ne hj] at hm
  · by_cases hj : j = k
    · subst hj
      rw [Function.update_self] at hm
      exact absurd hm List.not_mem_nil
    · rw [Function.update_of_ne hj] at hm
      exact .inl hm

theorem Sound.forget (h : Sound s) (k : ℕ) : Sound (next s (.forget k)) := by
  refine h.refer (fun j m hm => ?_) fun k m (hm : m ∈ (s.closing k).getD []) => .inl hm
  by_cases hj : j = k
  · subst hj
    rw [Function.update_self] at hm
    exact absurd hm List.not_mem_nil
  · rwa [Function.update_of_ne hj] at hm

/-! ## A new manager -/

theorem update_update_apply {f : ℕ → ℕ → Option ℕ} {v : Option ℕ} {l' fd' : ℕ}
    (hne : ¬ (l' = l ∧ fd' = fd)) :
    Function.update f l (Function.update (f l) fd v) l' fd' = f l' fd' := by
  by_cases hl : l' = l
  · subst hl
    rw [Function.update_self, Function.update_of_ne fun he => hne ⟨rfl, he⟩]
  · rw [Function.update_of_ne hl]

theorem update_update_self (f : ℕ → ℕ → Option ℕ) (v : Option ℕ) :
    Function.update f l (Function.update (f l) fd v) l fd = v := by
  rw [Function.update_self, Function.update_self]

@[simp] theorem addManager_mgr_self : (s.addManager k g).mgr s.made = g := Function.update_self ..

theorem addManager_mgr_of_ne {j : ℕ} (h : j ≠ s.made) : (s.addManager k g).mgr j = s.mgr j :=
  Function.update_of_ne h ..

theorem addManager_mgr_of_lt {j : ℕ} (h : j < s.made) : (s.addManager k g).mgr j = s.mgr j :=
  addManager_mgr_of_ne (Nat.ne_of_lt h)

theorem mem_addManager {i j : ℕ} (h : j ∈ (s.addManager k g).managers i) :
    j ∈ s.managers i ∨ i = k ∧ j = s.made := by
  have h : j ∈ Function.update s.managers k (s.managers k ++ [s.made]) i := h
  by_cases hi : i = k
  · subst hi
    rw [Function.update_self] at h
    exact (List.mem_append.mp h).imp_right fun h => ⟨rfl, List.mem_singleton.mp h⟩
  · rw [Function.update_of_ne hi] at h
    exact .inl h

/-- **The new manager**: the readers that were there are, and there may be one of
its own. -/
theorem Sound.addManager (h : Sound s) {R : ℕ → ℕ → Option ℕ} {F : ℕ → Option Owner}
    (hsock : g.sock = k) (hfreed : g.freed = false) (hloop : g.hasLoop = true)
    (hold : ∀ l fd j, s.readers l fd = some j → R l fd = some j)
    (hnew : ∀ l fd j, R l fd = some j → s.readers l fd = some j ∨
      j = s.made ∧ g.loop = l ∧ g.mode = .poll ∧ g.readFd = some fd ∧ s.closed l = false)
    (hfds : ∀ fd m, s.fds fd = some (.queue m) → F fd = some (.queue m))
    (howned : ∀ fd m, F fd = some (.queue m) → s.fds fd = some (.queue m) ∨
      m = s.made ∧ g.readFd = some fd)
    (hopen : ∀ fd, g.mode = .poll → g.readFd = some fd →
      F fd = some (.queue s.made) ∧ R g.loop fd = some s.made) :
    Sound ({ s with readers := R, fds := F }.addManager k g) := by
  have hmgr : ∀ {j}, j < s.made →
      ({ s with readers := R, fds := F }.addManager k g).mgr j = s.mgr j := fun hj =>
    addManager_mgr_of_lt (s := { s with readers := R, fds := F }) hj
  have hmade : ({ s with readers := R, fds := F }.addManager k g).mgr s.made = g :=
    addManager_mgr_self (s := { s with readers := R, fds := F })
  have hne : ∀ {j}, j ≠ s.made →
      ({ s with readers := R, fds := F }.addManager k g).mgr j = s.mgr j := fun hj =>
    addManager_mgr_of_ne (s := { s with readers := R, fds := F }) hj
  refine
    { fresh := fun j hj => ?_, reader := fun l fd j hr => ?_, held := fun j fd hm hfd hor => ?_,
      owned := fun fd j hfd => ?_, live := fun j hf => ?_, dict := fun i j hj => ?_,
      todo := fun i j hj => ?_,
      watching := fun j fd hl hm hclosed hfd => ?_, scheduled := fun l r hr => ?_,
      nodup := h.nodup, pending := fun l fd j hr hl => ?_, shut := fun l hl fd => ?_ }
  · rw [hne (Nat.ne_of_gt hj)]
    exact h.fresh j (Nat.le_of_lt hj)
  · rcases hnew l fd j hr with hr | ⟨rfl, hlp, hm, hfd, -⟩
    · rw [hmgr (h.reader_lt hr)]
      exact h.reader l fd j hr
    · rw [hmade]
      exact ⟨hlp, hm, hfd, hfreed⟩
  · by_cases hj : j = s.made
    · subst hj
      rw [hmade] at hm hfd
      exact (hopen fd hm hfd).1
    · rw [hne hj] at hm hfd hor
      exact hfds fd j (h.held j fd hm hfd hor)
  · rcases howned fd j hfd with hold | ⟨rfl, hg⟩
    · have hlt : j < s.made := h.lt_made fun hempty => by
        have hread := h.owned fd j hold
        rw [hempty] at hread
        cases hread
      rw [hmgr hlt]
      exact h.owned fd j hold
    · rw [hmade]
      exact hg
  · by_cases hj : j = s.made
    · subst hj
      rw [hmade, hfreed] at hf
      cases hf
    · rw [hne hj] at hf ⊢
      exact h.live j hf
  · rcases mem_addManager hj with hj | ⟨rfl, rfl⟩
    · obtain ⟨h1, h2, h3⟩ := h.dict i j hj
      rw [hmgr h3]
      exact ⟨h1, h2, Nat.lt_succ_of_lt h3⟩
    · rw [hmade]
      exact ⟨hsock, hfreed, Nat.lt_succ_self _⟩
  · obtain ⟨h1, h2, h3⟩ := h.todo i j hj
    rw [hmgr h3]
    exact ⟨h1, h2, Nat.lt_succ_of_lt h3⟩
  · by_cases hj : j = s.made
    · subst hj
      rw [hmade] at hm hfd ⊢
      exact (hopen fd hm hfd).2
    · rw [hne hj] at hl hm hclosed hfd ⊢
      exact hold _ fd j (h.watching j fd hl hm hclosed hfd)
  · obtain ⟨h1, h2⟩ := h.scheduled l r hr
    rw [hmgr (h.removal_lt hr)]
    exact ⟨hold l r.fd r.mgr h1, h2⟩
  · rcases hnew l fd j hr with hr | ⟨rfl, -⟩
    · rw [hmgr (h.reader_lt hr)] at hl
      exact h.pending l fd j hr hl
    · rw [hmade, hloop] at hl
      cases hl
  · show R l fd = none
    cases hR : R l fd with
    | none => rfl
    | some j =>
      rcases hnew l fd j hR with hr | ⟨-, -, -, -, hopened⟩
      · rw [h.shut l hl fd] at hr
        cases hr
      · rw [show s.closed l = true from hl] at hopened
        cases hopened

theorem Sound.create (h : Sound s) {attempt : Attempt} (hl : s.closed l = false)
    (hfree : attempt.Free s) : Sound (s.create k l attempt) := by
  have hplain : ∀ g : Manager, g.sock = k → g.freed = false → g.hasLoop = true →
      g.mode = .fallback → Sound (s.addManager k g) := fun g hsock hfreed hloop hmode =>
    h.addManager hsock hfreed hloop (fun _ _ _ hr => hr) (fun _ _ _ hr => .inl hr)
      (fun _ _ hm => hm) (fun _ _ hm => .inl hm) fun fd hm => by rw [hmode] at hm; cases hm
  cases attempt with
  | fails => exact hplain _ rfl rfl rfl rfl
  | opens fd addReader =>
    cases addReader with
    | false => exact hplain _ rfl rfl rfl rfl
    | true =>
      have hnone : s.fds fd = none := hfree
      -- nobody has the descriptor, so no loop watches it
      have hunread : ∀ l' j, s.readers l' fd ≠ some j := fun l' j hr => by
        rw [h.fds_of_reader hr] at hnone
        cases hnone
      refine h.addManager rfl rfl rfl (fun l' fd' j hr => ?_) (fun l' fd' j hr => ?_)
        (fun fd' m hm => ?_) (fun fd' m hm => ?_) fun fd' _ hfd => ?_
      · rw [update_update_apply]
        · exact hr
        · rintro ⟨rfl, rfl⟩
          exact hunread l' j hr
      · by_cases hat : l' = l ∧ fd' = fd
        · obtain ⟨rfl, rfl⟩ := hat
          rw [update_update_self] at hr
          exact .inr ⟨(Option.some.inj hr).symm, rfl, rfl, rfl, hl⟩
        · rw [update_update_apply hat] at hr
          exact .inl hr
      · rw [Function.update_of_ne]
        · exact hm
        · rintro rfl
          rw [hm] at hnone
          cases hnone
      · by_cases hat : fd' = fd
        · subst hat
          rw [Function.update_self] at hm
          exact .inr ⟨(Owner.queue.inj (Option.some.inj hm)).symm, rfl⟩
        · rw [Function.update_of_ne hat] at hm
          exact .inl hm
      · obtain rfl := Option.some.inj hfd
        exact ⟨Function.update_self .., update_update_self ..⟩

/-! ## Letting go of a loop -/

@[simp] theorem release_mgr :
    (s.release m).mgr = Function.update s.mgr m { s.mgr m with hasLoop := false } := by
  unfold State.release
  dsimp only
  split
  · split <;> rfl
  · rfl

@[simp] theorem release_managers : (s.release m).managers = s.managers := by
  unfold State.release
  dsimp only
  split
  · split <;> rfl
  · rfl

@[simp] theorem release_closing : (s.release m).closing = s.closing := by
  unfold State.release
  dsimp only
  split
  · split <;> rfl
  · rfl

/-- **A manager lets go of its loop.** -/
theorem Sound.letGo (h : Sound s) (hm : m < s.made) {S : ℕ → List Removal}
    (hold : ∀ l, ∀ r ∈ s.scheduled l, r ∈ S l)
    (hnew : ∀ l, ∀ r ∈ S l, r ∈ s.scheduled l ∨ r.mgr = m ∧ s.readers l r.fd = some m)
    (hnodup : ∀ l, (S l).Nodup) (hself : ∀ l fd, s.readers l fd = some m → ⟨fd, m⟩ ∈ S l) :
    Sound { s.setMgr m { s.mgr m with hasLoop := false } with scheduled := S } :=
  h.change (g := { s.mgr m with hasLoop := false }) hm ⟨rfl, rfl, rfl, rfl⟩ id .inl .inr (h.live m)
    (fun hg => absurd hg Bool.false_ne_true) hold
    (fun l r hr => (hnew l r hr).imp_right fun hself => ⟨hself.1, rfl, hself.2⟩) hnodup
    fun _ => hself

theorem Sound.release (h : Sound s) (hm : m < s.made) : Sound (s.release m) := by
  -- a reader of it is a reason to schedule the removal, or has one scheduled
  have hwhy : ∀ l fd, s.readers l fd = some m → ⟨fd, m⟩ ∈ s.scheduled l ∨
      (s.mgr m).loop = l ∧ (s.mgr m).readFd = some fd ∧ (s.mgr m).hasLoop = true ∧
        s.closed (s.mgr m).loop = false ∧ (s.mgr m).mode = .poll := by
    intro l fd hr
    obtain ⟨rfl, hmode, hfd, -⟩ := h.reader l fd m hr
    cases hloop : (s.mgr m).hasLoop with
    | false => exact .inl (h.pending _ fd m hr hloop)
    | true =>
      refine .inr ⟨rfl, hfd, rfl, Bool.eq_false_iff.mpr fun hcl => ?_, hmode⟩
      rw [h.shut _ hcl fd] at hr
      cases hr
  have hplain : (∀ l fd, s.readers l fd = some m → ⟨fd, m⟩ ∈ s.scheduled l) →
      Sound (s.setMgr m { s.mgr m with hasLoop := false }) := fun hall =>
    h.letGo hm (fun _ _ hr => hr) (fun _ _ hr => .inl hr) h.nodup hall
  unfold State.release
  dsimp only
  split
  · rename_i hcond
    obtain ⟨hloop, hcl, hmode⟩ := hcond
    split
    · rename_i hfd
      refine hplain fun l fd hr => (hwhy l fd hr).resolve_right fun hw => ?_
      rw [hfd] at hw
      cases hw.2.1
    · rename_i fd hfd
      have hread := h.watching m fd hloop hmode hcl hfd
      have hnot : ⟨fd, m⟩ ∉ s.scheduled (s.mgr m).loop := fun hmem => by
        rw [(h.scheduled _ _ hmem).2] at hloop
        cases hloop
      refine h.letGo hm (fun l r hr => ?_) (fun l r hr => ?_) (fun l => ?_) fun l fd' hr => ?_
      all_goals by_cases hl : l = (s.mgr m).loop
      · subst hl
        rw [Function.update_self]
        exact List.mem_append_left _ hr
      · rwa [Function.update_of_ne hl]
      · subst hl
        rw [Function.update_self] at hr
        refine (List.mem_append.mp hr).imp_right fun hr => ?_
        obtain rfl := List.mem_singleton.mp hr
        exact ⟨rfl, hread⟩
      · rw [Function.update_of_ne hl] at hr
        exact .inl hr
      · subst hl
        rw [Function.update_self]
        refine List.nodup_append.mpr ⟨h.nodup _, List.pairwise_singleton _ _, fun r hr r' hr' => ?_⟩
        obtain rfl := List.mem_singleton.mp hr'
        rintro rfl
        exact hnot hr
      · rw [Function.update_of_ne hl]
        exact h.nodup l
      · subst hl
        rw [Function.update_self]
        refine List.mem_append.mpr ((hwhy _ fd' hr).imp_right fun hw => ?_)
        obtain rfl : fd = fd' := Option.some.inj (hfd.symm.trans hw.2.1)
        exact List.mem_singleton.mpr rfl
      · rw [Function.update_of_ne hl]
        exact (hwhy l fd' hr).resolve_right fun hw => hl hw.1.symm
  · rename_i hcond
    exact hplain fun l fd hr => (hwhy l fd hr).resolve_right fun hw => hcond hw.2.2

/-! ## The loop and the descriptors -/

/-- **Readers go**, and what was scheduled to remove them. -/
theorem Sound.unwatch (h : Sound s) {R : ℕ → ℕ → Option ℕ} {S : ℕ → List Removal} {C : ℕ → Bool}
    (hread : ∀ l fd j, R l fd = some j → s.readers l fd = some j ∧
      (⟨fd, j⟩ ∈ s.scheduled l → ⟨fd, j⟩ ∈ S l))
    (hwatch : ∀ l fd j, s.readers l fd = some j → (s.mgr j).hasLoop = true → C l = false →
      R l fd = some j)
    (hsched : ∀ l, ∀ r ∈ S l, r ∈ s.scheduled l ∧ R l r.fd = some r.mgr)
    (hnodup : ∀ l, (S l).Nodup) (hclosed : ∀ l, C l = false → s.closed l = false)
    (hshut : ∀ l, C l = true → ∀ fd, R l fd = none) :
    Sound { s with readers := R, scheduled := S, closed := C } :=
  { h with
    reader := fun l fd j hr => h.reader l fd j (hread l fd j hr).1
    watching := fun j fd hl hp hcl hfd =>
      hwatch _ fd j (h.watching j fd hl hp (hclosed _ hcl) hfd) hl hcl
    scheduled := fun l r hr =>
      ⟨(hsched l r hr).2, (h.scheduled l r (hsched l r hr).1).2⟩
    nodup := hnodup
    pending := fun l fd j hr hl =>
      (hread l fd j hr).2 (h.pending l fd j (hread l fd j hr).1 hl)
    shut := hshut }

theorem Sound.runScheduled (h : Sound s) (l : ℕ) : Sound (next s (.runScheduled l)) := by
  unfold next
  dsimp only
  split
  · exact h
  · rename_i r rest hat
    obtain ⟨hreader, hlet⟩ := h.scheduled l r (by rw [hat]; exact List.mem_cons_self)
    have hnodup := h.nodup l
    rw [hat] at hnodup
    obtain ⟨hnot, hrest⟩ := List.nodup_cons.mp hnodup
    refine h.unwatch (fun l' fd j hr => ?_) (fun l' fd j hr hl _ => ?_) (fun l' r' hr => ?_)
      (fun l' => ?_) (fun _ hcl => hcl) fun l' hcl fd => ?_
    · by_cases hthis : l' = l ∧ fd = r.fd
      · obtain ⟨rfl, rfl⟩ := hthis
        rw [update_update_self] at hr
        cases hr
      · rw [update_update_apply hthis] at hr
        refine ⟨hr, fun hmem => ?_⟩
        by_cases hl : l' = l
        · subst hl
          rw [Function.update_self]
          rw [hat] at hmem
          refine (List.mem_cons.mp hmem).resolve_left fun he => hthis ⟨rfl, ?_⟩
          rw [← he]
        · rwa [Function.update_of_ne hl]
    · rw [update_update_apply]
      · exact hr
      · rintro ⟨rfl, rfl⟩
        obtain rfl := Option.some.inj (hreader.symm.trans hr)
        rw [hlet] at hl
        cases hl
    · by_cases hl : l' = l
      · subst hl
        rw [Function.update_self] at hr
        have hmem : r' ∈ s.scheduled l' := by
          rw [hat]
          exact List.mem_cons_of_mem _ hr
        obtain ⟨hread', -⟩ := h.scheduled l' r' hmem
        refine ⟨hmem, ?_⟩
        rw [update_update_apply]
        · exact hread'
        · rintro ⟨-, hfd⟩
          -- the descriptor has one reader, and its removal is scheduled once
          rw [hfd, hreader] at hread'
          have : r' = r := by
            cases r
            cases r'
            simp_all
          exact hnot (this ▸ hr)
      · rw [Function.update_of_ne hl] at hr
        refine ⟨hr, ?_⟩
        rw [update_update_apply fun hthis => hl hthis.1]
        exact (h.scheduled l' r' hr).1
    · by_cases hl : l' = l
      · subst hl
        rw [Function.update_self]
        exact hrest
      · rw [Function.update_of_ne hl]
        exact h.nodup l'
    · by_cases hthis : l' = l ∧ fd = r.fd
      · obtain ⟨rfl, rfl⟩ := hthis
        rw [update_update_self]
      · rw [update_update_apply hthis]
        exact h.shut l' hcl fd

theorem Sound.closeLoop (h : Sound s) (l : ℕ) : Sound (next s (.closeLoop l)) := by
  refine h.unwatch (fun l' fd j hr => ?_) (fun l' fd j hr _ hcl => ?_) (fun l' r hr => ?_)
    (fun l' => ?_) (fun l' hcl => ?_) fun l' hcl fd => ?_
  all_goals by_cases hl : l' = l
  · subst hl
    rw [Function.update_self] at hr
    cases hr
  · rw [Function.update_of_ne hl] at hr
    rw [Function.update_of_ne hl]
    exact ⟨hr, id⟩
  · subst hl
    rw [Function.update_self] at hcl
    cases hcl
  · rwa [Function.update_of_ne hl]
  · subst hl
    rw [Function.update_self] at hr
    exact absurd hr List.not_mem_nil
  · rw [Function.update_of_ne hl] at hr
    rw [Function.update_of_ne hl]
    exact ⟨hr, (h.scheduled l' r hr).1⟩
  · subst hl
    rw [Function.update_self]
    exact List.nodup_nil
  · rw [Function.update_of_ne hl]
    exact h.nodup l'
  · subst hl
    rw [Function.update_self] at hcl
    cases hcl
  · rwa [Function.update_of_ne hl] at hcl
  · subst hl
    rw [Function.update_self]
  · rw [Function.update_of_ne hl] at hcl ⊢
    exact h.shut l' hcl fd

/-- **Descriptors change hands**: none that a queue held by something has. -/
theorem Sound.setFd (h : Sound s) {o : Option Owner} (ho : ∀ j, o ≠ some (.queue j))
    (hkeep : ∀ j, s.fds fd = some (.queue j) →
      (s.mgr j).freed = true ∧ (s.mgr j).ops = 0) :
    Sound { s with fds := Function.update s.fds fd o } := by
  refine { h with held := fun j fd' hp hfd hor => ?_, owned := fun fd' j hfd => ?_ }
  · have hopen := h.held j fd' hp hfd hor
    show Function.update s.fds fd o fd' = _
    rw [Function.update_of_ne]
    · exact hopen
    · rintro rfl
      obtain ⟨hf, hzero⟩ := hkeep j hopen
      refine hor.elim (fun hor => ?_) fun hor => Nat.ne_of_gt hor hzero
      rw [hf] at hor
      cases hor
  · have hfd : Function.update s.fds fd o fd' = some (.queue j) := hfd
    by_cases hat : fd' = fd
    · subst hat
      rw [Function.update_self] at hfd
      exact absurd hfd (ho j)
    · rw [Function.update_of_ne hat] at hfd
      exact h.owned fd' j hfd

/-! ## Every step -/

theorem sound_init : Sound readers.init where
  fresh _ _ := rfl
  reader _ _ _ hr := absurd hr (Option.some_ne_none _).symm
  held _ _ hp := Mode.noConfusion hp
  owned _ _ hfd := absurd hfd (Option.some_ne_none _).symm
  live _ hf := Bool.noConfusion hf
  dict _ _ hm := absurd hm List.not_mem_nil
  todo _ _ hm := absurd hm List.not_mem_nil
  watching _ _ hl := Bool.noConfusion hl
  scheduled _ _ hr := absurd hr List.not_mem_nil
  nodup _ := List.nodup_nil
  pending _ _ _ hr := absurd hr (Option.some_ne_none _).symm
  shut _ hl := Bool.noConfusion hl

/-- One more local variable has a manager that is not freed. -/
theorem Sound.addLocal (h : Sound s) (hm : m < s.made) (hf : (s.mgr m).freed = false) :
    Sound (s.setMgr m { s.mgr m with locals := (s.mgr m).locals + 1 }) := by
  refine h.count hm ⟨rfl, rfl, rfl, rfl⟩ id .inl .inr (fun hg => ?_) rfl
  rw [show (s.mgr m).freed = true from hg] at hf
  cases hf

/-- **The step rule.** -/
theorem Sound.step (h : Sound s) {a : Act} (hen : Enabled s a) : Sound (next s a) := by
  cases a with
  | get k l attempt =>
    obtain ⟨-, hcl, hfree⟩ := hen
    unfold next
    dsimp only
    split
    · rename_i m hfound
      obtain ⟨-, hf, hm⟩ := h.dict k m (List.mem_of_find?_eq_some hfound)
      exact h.addLocal hm hf
    · exact h.create hcl hfree
  | dropLocal m =>
    have hpos : 0 < (s.mgr m).locals := hen
    have hm : m < s.made := h.lt_made fun hempty => by
      rw [hempty] at hpos
      exact absurd hpos (Nat.lt_irrefl 0)
    refine h.count hm ⟨rfl, rfl, rfl, rfl⟩ id .inl .inr (fun hg => ?_) rfl
    have := h.live m hg
    omega
  | poll l fd =>
    unfold next
    dsimp only
    split
    · exact h
    · rename_i m hr
      exact h.addLocal (h.reader_lt hr) (h.reader l fd m hr).2.2.2
  | startOp m =>
    obtain ⟨hpos, -⟩ := hen
    have hm : m < s.made := h.lt_made fun hempty => by
      rw [hempty] at hpos
      exact absurd hpos (Nat.lt_irrefl 0)
    have hf : (s.mgr m).freed = false := Bool.eq_false_iff.mpr fun hf => by
      have := h.live m hf
      omega
    exact h.count hm ⟨rfl, rfl, rfl, rfl⟩ id .inl (fun _ => .inl hf) (h.live m) rfl
  | endOp m =>
    have hpos : 0 < (s.mgr m).ops := hen
    have hm : m < s.made := h.lt_made fun hempty => by
      rw [hempty] at hpos
      exact absurd hpos (Nat.lt_irrefl 0)
    exact h.count hm ⟨rfl, rfl, rfl, rfl⟩ id .inl (fun _ => .inr hpos) (h.live m) rfl
  | beginClose k => exact h.beginClose k
  | release k =>
    unfold next
    dsimp only
    split
    · rename_i m todo hclosing
      have hmem : ∀ j ∈ m :: todo, j ∈ (s.closing k).getD [] := by
        rw [hclosing]
        exact fun _ hj => hj
      have hm := (h.todo k m (hmem m List.mem_cons_self)).2.2
      have hrel : Sound (s.release m) := h.release hm
      rw [← release_closing (s := s) (m := m)]
      refine hrel.refer (fun j i (hi : i ∈ (s.release m).managers j) => hi) fun j i hi => ?_
      by_cases hj : j = k
      · subst hj
        rw [Function.update_self] at hi
        rw [release_closing]
        exact .inl (hmem i (List.mem_cons_of_mem _ hi))
      · rw [Function.update_of_ne hj] at hi
        exact .inl hi
    · exact h
  | endClose k => exact h.endClose k
  | forget k => exact h.forget k
  | runScheduled l => exact h.runScheduled l
  | closeLoop l => exact h.closeLoop l
  | free m =>
    obtain ⟨hm, -, hno⟩ := hen
    refine h.count hm ⟨rfl, rfl, rfl, rfl⟩ (fun _ => rfl) (fun _ => .inr hno) .inr (fun _ => ?_) rfl
    exact Nat.eq_zero_of_not_pos fun hpos => hno (.inl hpos)
  | closeQueue m =>
    obtain ⟨hf, hzero, fd, hfd, hopen⟩ := hen
    have hread : (s.mgr m).readFd = some fd := hfd
    unfold next
    dsimp only
    rw [hread]
    refine h.setFd (fun _ hj => absurd hj (Option.some_ne_none _).symm) fun j hj => ?_
    obtain rfl : m = j := Owner.queue.inj (Option.some.inj (hopen.symm.trans hj))
    exact ⟨hf, hzero⟩
  | openFd fd =>
    have hnone : s.fds fd = none := hen
    refine h.setFd (fun j hj => Owner.noConfusion (Option.some.inj hj)) fun j hj => ?_
    rw [hnone] at hj
    cases hj
  | closeFd fd =>
    have hother : s.fds fd = some .other := hen
    refine h.setFd (fun _ hj => absurd hj (Option.some_ne_none _).symm) fun j hj => ?_
    rw [hother] at hj
    cases hj

theorem sound_of_reach (hs : readers.Reach s) : Sound s := by
  induction hs with
  | init => exact sound_init
  | step _ _ hen ih => exact ih.step hen

/-- **A loop watches its own.** Whenever a loop watches a descriptor, the manager
whose method it will call is not freed and is of that loop, and its queue has the
descriptor open. What a closing socket has scheduled on the loop removes the
reader of the manager that scheduled it, and of no other. -/
theorem readers_owned (hs : readers.Reach s) :
    (∀ l fd m, s.readers l fd = some m →
      (s.mgr m).freed = false ∧ (s.mgr m).loop = l ∧ s.fds fd = some (.queue m)) ∧
      ∀ l, ∀ r ∈ s.scheduled l, s.readers l r.fd = some r.mgr := by
  have h := sound_of_reach hs
  refine ⟨fun l fd m hr => ?_, fun l r hr => (h.scheduled l r hr).1⟩
  obtain ⟨hl, -, -, hf⟩ := h.reader l fd m hr
  exact ⟨hf, hl, h.fds_of_reader hr⟩

/-- A socket is closed while an operation holds the queue; the number of its
descriptor goes to the queue of another socket's manager. -/
def reusing : List Act :=
  [.get 0 0 (.opens 5 true), .startOp 0, .dropLocal 0, .beginClose 0, .release 0, .endClose 0,
    .runScheduled 0, .free 0, .endOp 0, .closeQueue 0, .get 1 0 (.opens 5 true)]

/-- The loop calls the second manager, and the number is its queue's. -/
theorem readers_owned_reusing :
    (readers.final readers.init reusing).readers 0 5 = some 1 ∧
      (readers.final readers.init reusing).fds 5 = some (.queue 1) :=
  have hread : (readers.final readers.init reusing).readers 0 5 = some 1 := by decide
  ⟨hread, ((readers_owned (Machine.reach_final (by decide))).1 0 5 1 hread).2.2⟩

end Readers

end PyNng
