import PyNng.Readers.Owned
/-!
# Readers — a closed socket gives its descriptors back

`close` waits for nothing: it only schedules the `remove_reader`s. What is
left is for the loop to run what it has scheduled and for the references
to go away, in whatever order, and no step more is needed for a manager's
descriptor to be closed.
-/

namespace PyNng

namespace Readers

variable {s : State} {k l m fd : ℕ} {a : Act} {g : Manager}

/-! ## What a `close` has done -/

/-- The managers of a socket that is closing are released or still to be. -/
def Swept (s : State) : Prop :=
  ∀ k todo, s.closing k = some todo → ∀ m ∈ s.managers k, m ∈ todo ∨ (s.mgr m).hasLoop = false

theorem setMgr_hasLoop (hg : g.hasLoop = (s.mgr m).hasLoop) (j : ℕ) :
    ((s.setMgr m g).mgr j).hasLoop = (s.mgr j).hasLoop := by
  by_cases hj : j = m
  · subst hj
    rw [setMgr_mgr_self, hg]
  · rw [setMgr_mgr_of_ne hj]

theorem Swept.setMgr (h : Swept s) (hg : g.hasLoop = (s.mgr m).hasLoop) :
    Swept (s.setMgr m g) := by
  intro k todo hclosing j hj
  rw [setMgr_hasLoop hg]
  exact h k todo hclosing j hj

theorem create_closing (attempt : Attempt) : (s.create k l attempt).closing = s.closing := by
  unfold State.create
  split <;> rfl

theorem create_managers (attempt : Attempt) {j : ℕ} (hj : j ≠ k) :
    (s.create k l attempt).managers j = s.managers j := by
  unfold State.create
  split <;> exact Function.update_of_ne hj ..

theorem create_mgr (attempt : Attempt) {j : ℕ} (hj : j < s.made) :
    (s.create k l attempt).mgr j = s.mgr j := by
  unfold State.create
  split <;> exact Function.update_of_ne (Nat.ne_of_lt hj) ..

theorem Swept.release (h : Swept s) {todo : List ℕ} (hclosing : s.closing k = some (m :: todo)) :
    Swept { s.release m with closing := Function.update s.closing k (some todo) } := by
  intro i rest hi j hj
  rw [release_managers] at hj
  dsimp only at hi ⊢
  rw [release_mgr]
  by_cases hjm : j = m
  · subst hjm
    rw [Function.update_self]
    exact .inr rfl
  · rw [Function.update_of_ne hjm]
    by_cases hik : i = k
    · subst hik
      rw [Function.update_self] at hi
      obtain rfl := Option.some.inj hi
      refine (h i _ hclosing j hj).imp_left fun hmem => ?_
      exact (List.mem_cons.mp hmem).resolve_left hjm
    · rw [Function.update_of_ne hik] at hi
      exact h i rest hi j hj

theorem Swept.step (h : Swept s) (hsound : Sound s) (hen : Enabled s a) : Swept (next s a) := by
  cases a with
  | get k l attempt =>
    obtain ⟨hnone, -, -⟩ := hen
    unfold next
    dsimp only
    split
    · exact h.setMgr rfl
    · intro i todo hi j hj
      rw [create_closing] at hi
      have hik : i ≠ k := by
        rintro rfl
        rw [hnone] at hi
        cases hi
      rw [create_managers _ hik] at hj
      rw [create_mgr _ (hsound.dict i j hj).2.2]
      exact h i todo hi j hj
  | poll l fd =>
    unfold next
    dsimp only
    split
    · exact h
    · exact h.setMgr rfl
  | dropLocal m | startOp m | endOp m | free m => exact h.setMgr rfl
  | beginClose k =>
    intro i todo hi j hj
    have hi : Function.update s.closing k (some (s.managers k)) i = some todo := hi
    by_cases hik : i = k
    · subst hik
      rw [Function.update_self] at hi
      obtain rfl := Option.some.inj hi
      exact .inl hj
    · rw [Function.update_of_ne hik] at hi
      exact h i todo hi j hj
  | release k =>
    unfold next
    dsimp only
    split
    · rename_i m todo hclosing
      exact h.release hclosing
    · exact h
  | endClose k =>
    intro i todo hi j hj
    have hi : Function.update s.closing k none i = some todo := hi
    have hj : j ∈ Function.update s.managers k [] i := hj
    by_cases hik : i = k
    · subst hik
      rw [Function.update_self] at hi
      cases hi
    · rw [Function.update_of_ne hik] at hi hj
      exact h i todo hi j hj
  | forget k =>
    intro i todo hi j hj
    have hj : j ∈ Function.update s.managers k [] i := hj
    by_cases hik : i = k
    · subst hik
      rw [Function.update_self] at hj
      exact absurd hj List.not_mem_nil
    · rw [Function.update_of_ne hik] at hj
      exact h i todo hi j hj
  | runScheduled l =>
    unfold next
    dsimp only
    split <;> exact h
  | closeQueue m =>
    unfold next
    dsimp only
    split <;> exact h
  | closeLoop l | openFd fd | closeFd fd => exact h

theorem swept_of_reach (hs : readers.Reach s) : Swept s := by
  induction hs with
  | init => exact fun _ _ hclosing => absurd hclosing (Option.some_ne_none _).symm
  | step hr _ hen ih => exact ih.step (sound_of_reach hr) hen

/-! ## What is left to do -/

/-- What is left once nothing uses the manager: the loop runs what is scheduled,
the references go away, and what nothing holds is freed. -/
def Winding (s : State) (m : ℕ) : Act → Prop
  | .runScheduled l => l = (s.mgr m).loop
  | .dropLocal j | .endOp j | .free j | .closeQueue j => j = m
  | _ => False

/-- **The machine of what is left.** -/
def winding (m : ℕ) : Machine State Act where
  init := readers.init
  Enabled := fun s a => Enabled s a ∧ Winding s m a
  next := next

/-- The manager's queue has its descriptor open. -/
def State.HasOpen (s : State) (m : ℕ) : Prop :=
  ∃ fd ∈ (s.mgr m).readFd, s.fds fd = some (.queue m)

instance (s : State) (m : ℕ) : Decidable (s.HasOpen m) :=
  inferInstanceAs (Decidable (∃ fd ∈ _, _))

/-- How many steps are left at most. -/
def State.left (m : ℕ) (s : State) : ℕ :=
  (s.scheduled (s.mgr m).loop).length + (s.mgr m).locals + (s.mgr m).ops +
    (if (s.mgr m).freed then 0 else 1) + if s.HasOpen m then 1 else 0

/-- The socket has let go of the manager, and the manager of its loop. -/
structure LetGo (m : ℕ) (s : State) : Prop where
  sound : Sound s
  made : m < s.made
  hasLoop : (s.mgr m).hasLoop = false
  dict : m ∉ s.managers (s.mgr m).sock
  todo : m ∉ (s.closing (s.mgr m).sock).getD []

theorem LetGo.count (h : LetGo m s) (hnext : Sound (s.setMgr m g)) (hloop : g.hasLoop = false)
    (hsock : g.sock = (s.mgr m).sock) : LetGo m (s.setMgr m g) where
  sound := hnext
  made := h.made
  hasLoop := by rw [setMgr_mgr_self, hloop]
  dict := by
    rw [setMgr_mgr_self, hsock]
    exact h.dict
  todo := by
    rw [setMgr_mgr_self, hsock]
    exact h.todo

theorem left_setMgr (hloop : g.loop = (s.mgr m).loop) (hfd : g.readFd = (s.mgr m).readFd) :
    (s.setMgr m g).left m = (s.scheduled (s.mgr m).loop).length + g.locals + g.ops +
      (if g.freed then 0 else 1) + if s.HasOpen m then 1 else 0 := by
  have hopen : (s.setMgr m g).HasOpen m ↔ s.HasOpen m := by
    unfold State.HasOpen
    rw [setMgr_mgr_self, hfd]
    exact Iff.rfl
  unfold State.left
  rw [setMgr_mgr_self, hloop]
  simp only [hopen]
  rfl

theorem next_runScheduled {r : Removal} {rest : List Removal} (hat : s.scheduled l = r :: rest) :
    next s (.runScheduled l) =
      { s with
        readers := Function.update s.readers l (Function.update (s.readers l) r.fd none)
        scheduled := Function.update s.scheduled l rest } := by
  unfold next
  dsimp only
  rw [hat]

theorem next_closeQueue (hfd : (s.mgr m).readFd = some fd) :
    next s (.closeQueue m) = { s with fds := Function.update s.fds fd none } := by
  unfold next
  dsimp only
  rw [hfd]

/-- **One step less.** -/
theorem LetGo.step (h : LetGo m s) (hen : (winding m).Enabled s a) :
    LetGo m (next s a) ∧ (next s a).left m < s.left m := by
  obtain ⟨hen, hwind⟩ := hen
  have hnext : Sound (next s a) := h.sound.step hen
  cases a with
  | runScheduled l =>
    obtain rfl : l = (s.mgr m).loop := hwind
    obtain ⟨r, rest, hat⟩ := List.exists_cons_of_ne_nil hen
    rw [next_runScheduled hat] at hnext ⊢
    refine ⟨⟨hnext, h.made, h.hasLoop, h.dict, h.todo⟩, ?_⟩
    unfold State.left
    dsimp only
    rw [Function.update_self, hat, List.length_cons]
    show rest.length + _ + _ + _ + (if s.HasOpen m then 1 else 0) < _
    omega
  | dropLocal j =>
    obtain rfl : j = m := hwind
    have hpos : 0 < (s.mgr j).locals := hen
    refine ⟨h.count hnext h.hasLoop rfl, ?_⟩
    show (s.setMgr j { s.mgr j with locals := (s.mgr j).locals - 1 }).left j < _
    rw [left_setMgr (g := { s.mgr j with locals := (s.mgr j).locals - 1 }) rfl rfl]
    unfold State.left
    dsimp only
    omega
  | endOp j =>
    obtain rfl : j = m := hwind
    have hpos : 0 < (s.mgr j).ops := hen
    refine ⟨h.count hnext h.hasLoop rfl, ?_⟩
    show (s.setMgr j { s.mgr j with ops := (s.mgr j).ops - 1 }).left j < _
    rw [left_setMgr (g := { s.mgr j with ops := (s.mgr j).ops - 1 }) rfl rfl]
    unfold State.left
    dsimp only
    omega
  | free j =>
    obtain rfl : j = m := hwind
    obtain ⟨-, hf, -⟩ := hen
    refine ⟨h.count hnext h.hasLoop rfl, ?_⟩
    show (s.setMgr j { s.mgr j with freed := true }).left j < _
    rw [left_setMgr (g := { s.mgr j with freed := true }) rfl rfl]
    unfold State.left
    dsimp only
    rw [hf, if_pos rfl, if_neg Bool.false_ne_true]
    omega
  | closeQueue j =>
    obtain rfl : j = m := hwind
    obtain ⟨hf, hzero, fd, hfd, hopen⟩ := hen
    have hread : (s.mgr j).readFd = some fd := hfd
    rw [next_closeQueue hread] at hnext ⊢
    refine ⟨⟨hnext, h.made, h.hasLoop, h.dict, h.todo⟩, ?_⟩
    have hhad : s.HasOpen j := ⟨fd, hfd, hopen⟩
    have hnot : ¬ State.HasOpen { s with fds := Function.update s.fds fd none } j := by
      rintro ⟨fd', hfd', hopen'⟩
      obtain rfl : fd = fd' := Option.some.inj (hread.symm.trans hfd')
      dsimp only at hopen'
      rw [Function.update_self] at hopen'
      cases hopen'
    unfold State.left
    rw [if_pos hhad, if_neg hnot]
    dsimp only
    omega
  | get | poll | startOp | beginClose | release | endClose | forget | closeLoop | openFd
  | closeFd => exact hwind.elim

/-- Where nothing is left to do, the descriptor is closed. -/
theorem LetGo.closed_of_stuck (h : LetGo m s) (hno : ∀ a, ¬ (winding m).Enabled s a) (fd : ℕ) :
    s.fds fd ≠ some (.queue m) := by
  intro hopen
  have hread := h.sound.owned fd m hopen
  have hlocals : (s.mgr m).locals = 0 :=
    Nat.eq_zero_of_not_pos fun hpos => hno (.dropLocal m) ⟨hpos, rfl⟩
  have hops : (s.mgr m).ops = 0 := Nat.eq_zero_of_not_pos fun hpos => hno (.endOp m) ⟨hpos, rfl⟩
  have hscheduled : s.scheduled (s.mgr m).loop = [] := by
    by_contra hne
    exact hno (.runScheduled _) ⟨hne, rfl⟩
  -- the loop's reader, were it there, would have its removal scheduled
  have hunread : ∀ fd', s.readers (s.mgr m).loop fd' ≠ some m := fun fd' hr => by
    have hmem := h.sound.pending _ fd' m hr h.hasLoop
    rw [hscheduled] at hmem
    exact absurd hmem List.not_mem_nil
  have hfreed : (s.mgr m).freed = true := by
    by_contra hf
    refine hno (.free m) ⟨⟨h.made, Bool.eq_false_iff.mpr hf, ?_⟩, rfl⟩
    rintro (hpos | hdict | htodo | ⟨fd', -, hr⟩)
    · omega
    · exact h.dict hdict
    · exact h.todo htodo
    · exact hunread fd' hr
  exact hno (.closeQueue m) ⟨⟨hfreed, hops, fd, hread, hopen⟩, rfl⟩

theorem LetGo.endsIn (h : LetGo m s) :
    (winding m).EndsIn (fun s => ∀ fd, s.fds fd ≠ some (.queue m)) s := by
  have hstep : ∀ (s : State) (a : Act), LetGo m s → (winding m).Enabled s a →
      LetGo m ((winding m).next s a) ∧ ((winding m).next s a).left m < s.left m :=
    fun _ _ hs hen => hs.step hen
  exact .of_lowers hstep (fun _ hs hno => hs.closed_of_stuck hno) h

/-- **Every descriptor is given back.** From the moment `close` drops the socket's
managers, each of them needs nothing but what is left: the loop to run what is
scheduled on it, and the operations and calls under way to end. No order of these
goes on forever, and when there is none left its queue has no descriptor. -/
theorem descriptors_closed (hs : readers.Reach s) (hclosing : s.closing k = some [])
    (hm : m ∈ s.managers k) :
    (winding m).EndsIn (fun s => ∀ fd, s.fds fd ≠ some (.queue m)) (next s (.endClose k)) := by
  have hsound := sound_of_reach hs
  obtain ⟨hsock, -, hlt⟩ := hsound.dict k m hm
  have hloop := (swept_of_reach hs k [] hclosing m hm).resolve_left List.not_mem_nil
  refine LetGo.endsIn ⟨hsound.endClose k, hlt, hloop, ?_, ?_⟩
  · show m ∉ Function.update s.managers k [] (s.mgr m).sock
    rw [hsock, Function.update_self]
    exact List.not_mem_nil
  · show m ∉ (Function.update s.closing k none (s.mgr m).sock).getD []
    rw [hsock, Function.update_self]
    exact List.not_mem_nil

/-- Two loops, and a call and an operation under way, when the socket is closed. -/
def closingTwo : List Act :=
  [.get 0 0 (.opens 5 true), .startOp 0, .get 0 1 (.opens 6 true), .dropLocal 1, .beginClose 0,
    .release 0, .release 0]

/-- The descriptor of the first one's queue is open when the managers are dropped. -/
theorem descriptors_closed_closingTwo :
    (next (readers.final readers.init closingTwo) (.endClose 0)).fds 5 = some (.queue 0) ∧
      (winding 0).EndsIn (fun s => ∀ fd, s.fds fd ≠ some (.queue 0))
        (next (readers.final readers.init closingTwo) (.endClose 0)) :=
  ⟨by decide, descriptors_closed (Machine.reach_final (by decide)) (by decide) (by decide)⟩

end Readers

end PyNng
