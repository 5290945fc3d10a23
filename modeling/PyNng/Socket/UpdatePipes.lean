import PyNng.Socket.Announce
/-!
# Socket — `update_pipes` mirrors the collection

Every event raises the flag and pushes a sentinel after it. While the flag
is up, or somebody other than the dispatcher has lowered it and not yet
assigned the list, a sentinel is still on its way or the dispatcher is on
its way to the mutex; so when nothing is on its way and the dispatcher is
at rest, the list is the collection.

So it is along every run in which no status callback ends, by a
`BaseException`, a call that still has pipes to announce, and there each new
pipe is announced once. `announcement_lost` is a run with such a callback.
-/

namespace PyNng

namespace Socket

variable {σ : Type} {cfg : Config σ} {s s' : State σ}

/-! ## Sentinels -/

/-- A sentinel is on its way, or the dispatcher to the mutex. -/
def Outstanding (s : State σ) : Prop :=
  0 < s.inFlight ∨ 0 < s.sentinels ∨ (s.calls 0).pc = .entering

/-- **The dispatcher will look.** -/
structure Woken (s : State σ) : Prop where
  flag : s.coll.flag = true → Outstanding s ∨ (s.calls 0).pc = .checking
  dirty : ∀ t, t ≠ 0 → (s.calls t).pc.dirty = true → Outstanding s

theorem Woken.of_outstanding (h : Outstanding s) : Woken s :=
  ⟨fun _ => Or.inl h, fun _ _ _ => h⟩

/-- Nothing moves but what does not matter here. -/
theorem Woken.of_same (h : Woken s) (hflag : s'.coll.flag = s.coll.flag)
    (hfly : s'.inFlight = s.inFlight) (hsent : s'.sentinels = s.sentinels)
    (hcalls : s'.calls = s.calls) : Woken s' := by
  exact ⟨by rw [hflag, Outstanding, hfly, hsent, hcalls]; exact h.flag,
    by simp only [Outstanding, hfly, hsent, hcalls]; exact h.dirty⟩

/-- A call moves that is not on its way to look, and does not get dirty. -/
theorem Woken.setCall (h : Woken s) {t : ℕ} {call : Call}
    (hflag : s'.coll.flag = true → s.coll.flag = true)
    (hfly : s'.inFlight = s.inFlight) (hsent : s'.sentinels = s.sentinels)
    (hcalls : s'.calls = s.calls) (hent : (s.calls t).pc ≠ .entering ∨ t ≠ 0)
    (hchk : (s.calls t).pc ≠ .checking ∨ t ≠ 0)
    (hdirty : call.pc.dirty = true → (s.calls t).pc.dirty = true) :
    Woken (State.setCall t call s') := by
  have hout : Outstanding s → Outstanding (State.setCall t call s') := by
    rintro (ho | ho | ho)
    · exact Or.inl (by simpa [State.setCall, hfly] using ho)
    · exact Or.inr (Or.inl (by simpa [State.setCall, hsent] using ho))
    · refine Or.inr (Or.inr ?_)
      have ht : t ≠ 0 := by
        rintro rfl
        rcases hent with hent | hent
        · exact hent ho
        · exact hent rfl
      simpa [State.setCall, ht.symm, hcalls] using ho
  refine ⟨fun hf => ?_, fun u hu hd => ?_⟩
  · rcases h.flag (hflag hf) with ho | ho
    · exact Or.inl (hout ho)
    · have ht : t ≠ 0 := by
        rintro rfl
        rcases hchk with hchk | hchk
        · exact hchk ho
        · exact hchk rfl
      exact Or.inr (by simpa [State.setCall, ht.symm, hcalls] using ho)
  · by_cases hut : u = t
    · subst hut
      simp only [State.setCall, Function.update_self] at hd
      exact hout (h.dirty u hu (hdirty hd))
    · simp only [State.setCall, Function.update_of_ne hut, hcalls] at hd
      exact hout (h.dirty u hu hd)

/-- A call moves on that has assigned the list. -/
theorem Woken.moveCall (h : Woken s) {t : ℕ} {call : Call} (hflag : s'.coll.flag = s.coll.flag)
    (hfly : s'.inFlight = s.inFlight) (hsent : s'.sentinels = s.sentinels)
    (hcalls : s'.calls = s.calls) (hpc : (s.calls t).pc.running = true)
    (hcall : call.pc.dirty = false) : Woken (State.setCall t call s') := by
  have hne : (s.calls t).pc ≠ .entering ∧ (s.calls t).pc ≠ .checking := by
    revert hpc
    cases (s.calls t).pc <;> simp [CallPc.running]
  refine h.setCall (by rw [hflag]; exact id) hfly hsent hcalls (Or.inl hne.1) (Or.inl hne.2)
    fun hd => ?_
  rw [hcall] at hd
  cases hd

/-- A dirty call holds the mutex. -/
theorem Locked.dirty_holds {t : ℕ} (hd : (s.calls t).pc.dirty = true) :
    s.holds (.call t) = true := by
  revert hd
  simp only [State.holds]
  cases (s.calls t).pc <;> simp [CallPc.dirty, CallPc.holds]

/-- **The dispatcher gets to look**: nobody dirty is in its way. -/
theorem Woken.acquire (h : Woken s) (hl : Locked s) {t : ℕ}
    (hpc : (s.calls t).pc = .entering) (hfree : s.lock = none) :
    Woken (next cfg s (.acquire t)) := by
  have hclean : ∀ u, (s.calls u).pc.dirty = false := by
    intro u
    by_contra hd
    have hlock := (hl (.call u)).mp (Locked.dirty_holds (by simpa using hd))
    rw [hfree] at hlock
    cases hlock
  by_cases ht : t = 0
  · subst ht
    refine ⟨fun _ => Or.inr (by simp [next, State.setCall]), fun u hu hd => ?_⟩
    simp only [next, State.setCall, Function.update_of_ne hu] at hd
    rw [hclean u] at hd
    cases hd
  · exact h.setCall (fun hf => hf) rfl rfl rfl (Or.inr ht) (Or.inr ht) fun hd => by cases hd

/-- **Whoever lowers the flag** owes the list, and the dispatcher comes after. -/
theorem Woken.check (h : Woken s) (hl : Locked s) {t : ℕ} (hpc : (s.calls t).pc = .checking) :
    Woken (next cfg s (.check t)) := by
  have hin : s.holds (.call t) = true := by simp [State.holds, hpc, CallPc.holds]
  simp only [next]
  split
  · rename_i hflag
    rw [PipeCollection.fst_hadEvents] at hflag
    by_cases ht : t = 0
    · -- the dispatcher lowers it itself, and nobody else is dirty
      subst ht
      refine ⟨fun hf => ?_, fun u hu hd => ?_⟩
      · simp [State.setCall] at hf
      · simp only [State.setCall, Function.update_of_ne hu] at hd
        exact absurd (Holder.call.inj (hl.eq_of_holds (Locked.dirty_holds hd) hin)) hu
    · -- another caller: the event that raised the flag has its sentinel on the way
      have ho : Outstanding s := by
        rcases h.flag hflag with ho | ho
        · exact ho
        · have h0 : s.holds (.call 0) = true := by simp [State.holds, ho, CallPc.holds]
          exact absurd (Holder.call.inj (hl.eq_of_holds hin h0)) ht
      refine Woken.of_outstanding ?_
      rcases ho with ho | ho | ho
      · exact Or.inl ho
      · exact Or.inr (Or.inl ho)
      · exact Or.inr (Or.inr (by simpa [State.setCall, (Ne.symm ht)] using ho))
  · rename_i hflag
    rw [PipeCollection.fst_hadEvents, Bool.not_eq_true] at hflag
    refine ⟨fun hf => ?_, fun u hu hd => ?_⟩
    · have hf' : s.coll.flag = true := hf
      rw [hflag] at hf'
      cases hf'
    · by_cases hut : u = t
      · subst hut; simp [State.setCall, CallPc.dirty] at hd
      · simp only [State.setCall, Function.update_of_ne hut] at hd
        exact absurd (Holder.call.inj (hl.eq_of_holds (Locked.dirty_holds hd) hin)) hut

theorem Woken.event (h : Woken s) {p : ℕ} {ev : PipeEv} : Woken (next cfg s (.event p ev)) := by
  simp only [next]
  split
  · exact Woken.of_outstanding (Or.inl (Nat.succ_pos _))
  · exact h.of_same rfl rfl rfl rfl

/-- **Each step leaves the dispatcher a reason to look**, but for the
`clear` of a `close`: that raises the flag without a sentinel. -/
theorem Woken.next (h : Woken s) (hl : Locked s) {a : Act} (hen : Enabled s a)
    (hclear : ∀ c, a = .close c → (s.closing c).pc ≠ .pipesCleared) :
    Woken (Socket.next cfg s a) := by
  cases a with
  | event p ev => exact h.event
  | push => exact Woken.of_outstanding (Or.inr (Or.inl (Nat.succ_pos _)))
  | otherPush => exact Woken.of_outstanding (Or.inr (Or.inl (Nat.succ_pos _)))
  | acquire t => exact h.acquire hl hen.1 hen.2
  | check t => exact h.check hl hen
  | enter t =>
    by_cases ht : t = 0
    · subst ht
      refine Woken.of_outstanding (Or.inr (Or.inr ?_))
      simp [Socket.next, State.setCall, Call.start]
    · refine h.setCall (fun hf => hf) rfl (by simp [ht]) rfl (Or.inr ht) (Or.inr ht)
        fun hd => by cases hd
  | snapshot t =>
    have hpc : (s.calls t).pc = .snapshotting := hen
    exact h.setCall (fun hf => hf) rfl rfl rfl (Or.inl (by simp [hpc])) (Or.inl (by simp [hpc]))
      fun _ => by rw [hpc]; rfl
  | create t =>
    simp only [Socket.next]
    split
    · exact h
    · exact h.setCall (fun hf => hf) rfl rfl rfl (Or.inl (by simp [hen.1]))
        (Or.inl (by simp [hen.1])) fun _ => by rw [hen.1]; rfl
  | assign t =>
    exact h.setCall (fun hf => hf) rfl rfl rfl (Or.inl (by simp [hen.1]))
      (Or.inl (by simp [hen.1])) fun hd => by cases hd
  | sample t => exact h.moveCall rfl rfl rfl rfl (by rw [hen.1]; rfl) (by rw [hen.1]; rfl)
  | read t =>
    simp only [Socket.next]
    split
    · exact h.moveCall rfl rfl rfl rfl (by rw [hen.1]; rfl) (by rw [hen.1]; rfl)
    · exact h
  | unlock t => exact h.moveCall rfl rfl rfl rfl (by rw [hen.1]; rfl) rfl
  | status t o => exact h.moveCall rfl rfl rfl rfl (by rw [hen.1]; rfl) (by cases o <;> rfl)
  | hook t =>
    simp only [Socket.next]
    split
    · exact h.moveCall rfl rfl rfl rfl (by rw [hen.1]; rfl) rfl
    · exact h.moveCall rfl rfl rfl rfl (by rw [hen.1]; rfl) (by rw [hen.1]; rfl)
  | hookDone t => exact h.moveCall rfl rfl rfl rfl (by rw [hen.1]; rfl) rfl
  | announce t o => exact h.moveCall rfl rfl rfl rfl (by rw [hen.1]; rfl) (by cases o <;> rfl)
  | ret t => exact h.moveCall rfl rfl rfl rfl (by rw [hen.1]; rfl) rfl
  | close c =>
    cases hpc : (s.closing c).pc <;> simp only [Socket.next, closeStep, hpc]
    case pipesCleared => exact absurd hpc (hclear c rfl)
    case locked => split <;> exact h.of_same rfl rfl rfl rfl
    case closed => split <;> exact h.of_same rfl rfl rfl rfl
    all_goals exact h.of_same rfl rfl rfl rfl
  | _ => exact h.of_same rfl rfl rfl rfl

theorem woken_of_reach (h : (socket cfg).Reach s) (hcb : s.closeBegun = false) : Woken s := by
  induction h with
  | init => exact ⟨fun hf => Bool.noConfusion hf, fun _ _ hd => Bool.noConfusion hd⟩
  | step hr _ hen ih =>
    have hbefore := closeBegun_of_next hcb
    refine (ih hbefore).next (locked_of_reach hr) hen fun c _ hpc => ?_
    have hearly := (mirrored_of_reach hr hbefore).early c
    rw [hpc] at hearly
    cases hearly

/-- No sentinel is on its way and the dispatcher is at rest. -/
def Quiet (s : State σ) : Prop :=
  s.inFlight = 0 ∧ s.sentinels = 0 ∧ ((s.calls 0).pc = .idle ∨ (s.calls 0).pc = .returned)

/-- **After the last sentinel nobody owes the list anything**: the flag is
down, and whoever lowered it has assigned the list. -/
theorem Woken.settled (hw : Woken s) (h0 : s.inFlight = 0) (hs0 : s.sentinels = 0)
    (hent : (s.calls 0).pc ≠ .entering) (hchk : (s.calls 0).pc ≠ .checking)
    (hd0 : (s.calls 0).pc.dirty = false) :
    s.coll.flag = false ∧ ∀ t, (s.calls t).pc.dirty = false := by
  have hout : ¬ Outstanding s := by
    rintro (ho | ho | ho)
    · omega
    · omega
    · exact hent ho
  refine ⟨?_, fun t => ?_⟩
  · by_contra hf
    rcases hw.flag (by simpa using hf) with ho | ho
    · exact hout ho
    · exact hchk ho
  · by_cases ht : t = 0
    · rw [ht]; exact hd0
    · -- another dirty call would mean a sentinel on its way
      by_contra hd
      exact hout (hw.dirty t ht (by simpa using hd))

/-- **After the last sentinel the list is the collection.** -/
theorem ids_of_quiet (h : (socket cfg).Reach s) (hcb : s.closeBegun = false)
    (h0 : s.inFlight = 0) (hs0 : s.sentinels = 0) (hent : (s.calls 0).pc ≠ .entering)
    (hchk : (s.calls 0).pc ≠ .checking) (hd0 : (s.calls 0).pc.dirty = false) :
    s.ids = s.coll.ids := by
  obtain ⟨hflag, hdirty⟩ := (woken_of_reach h hcb).settled h0 hs0 hent hchk hd0
  exact (mirrored_of_reach h hcb).clean hflag hdirty

/-! ## The guarantees -/

/-- **What `update_pipes` guarantees.** -/
structure Faithful (s : State σ) : Prop where
  /-- Past its look, a call sees the list as the collection was since it began. -/
  current : ∀ t, (s.calls t).pc = .returned ∨ (s.calls t).pc = .raised →
    ∃ k, (s.calls t).since ≤ k ∧ s.log[k]? = some s.ids
  /-- A pipe in two successive lists is one object. -/
  sameObject : ∀ x ∈ s.before, ∀ y ∈ s.pipes, x.id = y.id → x = y
  /-- No object is announced twice. -/
  atMostOnce : ∀ x, s.announced.count x ≤ 1
  /-- With the callback set all along and not raising, an object placed is
  announced once, unless the call that made it is still at it. -/
  exactlyOnce : s.cbThroughout = true → s.cbRaised = false → ∀ x ∈ s.placed,
    s.announced.count x = 1 ∨ ∃ t, (s.calls t).pc.running = true ∧ x ∈ (s.calls t).fresh
  /-- After the last sentinel the list is the collection. -/
  settled : Quiet s → s.ids = s.coll.ids

/-- **`update_pipes` mirrors the collection.** In every state of a socket
that is not being closed, along every run in which no status callback ends
by a `BaseException` a call that has pipes to announce. -/
theorem update_pipes_faithful (cfg : Config σ)
    (h : (socket cfg).ReachWhen SparesAnnouncements s) (hcb : s.closeBegun = false) :
    Faithful s := by
  have hm := mirrored_of_reach h.reach hcb
  have ho := owned_of_reach h.reach
  refine ⟨fun t ht => ?_, hm.sameObject, fun x => List.nodup_iff_count_le_one.mp ho.once x,
    fun hset hr x hx => ?_, fun ⟨h0, hs0, hpc⟩ => ?_⟩
  · obtain ⟨k, hk, hset⟩ := hm.seen
    refine ⟨k, hset t ?_, hk⟩
    rcases ht with ht | ht <;> rw [ht] <;> rfl
  · rcases (heralded_of_reachWhen h).placed hset hr x hx with hx | ⟨t, hrun, -, hx⟩
    · exact Or.inl (List.count_eq_one_of_mem ho.once hx)
    · exact Or.inr ⟨t, hrun, hx⟩
  · rcases hpc with hpc | hpc <;>
      exact ids_of_quiet h.reach hcb h0 hs0 (by simp [hpc]) (by simp [hpc]) (by rw [hpc]; rfl)

/-! ## A lost announcement -/

/-- A listener without a filter, with `on_new_pipe` set. -/
def announcing : Config Unit where
  nng := fun _ => { peerAddr := .other 1, peerPid := -1, dialer := 0, listener := 1 }
  filter := none
  objects := ()
  onNewPipe := true
  closeOnDisconnect := false

/-- Pipe 1 comes and is announced. -/
def firstPipe : List Act :=
  [.event 1 .addPre, .push, .enter 0, .acquire 0, .check 0, .snapshot 0, .create 0, .assign 0,
    .unlock 0, .announce 0 .returns, .ret 0]

/-- Its status callback is set, it becomes active, and pipe 2 comes. -/
def secondPipe : List Act :=
  [.setCallback 0 true, .event 1 .addPost, .push, .event 2 .addPre, .push, .enter 0, .acquire 0,
    .check 0, .snapshot 0, .create 0, .assign 0, .sample 0, .read 0, .unlock 0]

theorem update_pipes_faithful_first :
    Faithful ((socket announcing).final (socket announcing).init firstPipe) :=
  update_pipes_faithful announcing
    (Machine.reachWhen_final (by decide) (by
      simp [Machine.Meets, firstPipe, SparesAnnouncements]))
    (by decide)

/-- **The announcement of pipe 2 is lost** when the status callback of pipe 1
raises `SystemExit`: `on_new_pipe` is set throughout and never raises, and
the call is over. -/
theorem announcement_lost :
    ¬ (∀ s, (socket announcing).Reach s → s.closeBegun = false → Faithful s) := by
  intro hclaim
  have hf := hclaim ((socket announcing).final (socket announcing).init
    (firstPipe ++ secondPipe ++ [.status 0 .raisesBase])) (Machine.reach_final (by decide))
    (by decide)
  rcases hf.exactlyOnce (by decide) (by decide)
    ⟨1, { ref := 1, id := 2, nng := announcing.nng 2 }⟩ (by decide) with hone | ⟨t, hrun, hx⟩
  · revert hone; decide
  · -- the dispatcher's call is over, and no other was made
    cases t with
    | zero => revert hrun; decide
    | succ t => exact Bool.false_ne_true hrun

end Socket

end PyNng
