import PyNng.Socket.Lock
import Mathlib.Data.List.Nodup
/-!
# Socket — the pipe list follows the collection

While no `close` has begun, the collection only loses pipes and gains new
ones at the end, so `_pipes`, taken from it at some moment, has evolved to
it ever since, and so has the list a call is building. The greedy match is
then exact. `_had_events` lowered is a promise that whoever lowered it will
make the list agree; a caller that finds it lowered holds the mutex, so
nobody is between the promise and the assignment.
-/

namespace PyNng

namespace Socket

variable {σ : Type} {cfg : Config σ} {s s' : State σ}

/-- The call has had its look at the collection: its own update is in
`_pipes`, or it found nothing to do. -/
def CallPc.settled : CallPc → Bool
  | .reading | .calling | .hooking | .returned | .raised => true
  | _ => false

/-- The call has lowered the flag and not yet assigned `_pipes`. -/
def CallPc.dirty : CallPc → Bool
  | .snapshotting | .creating => true
  | _ => false

/-- The run of `close` has cleared nothing. -/
def ClosePc.early : ClosePc → Bool
  | .idle | .locking | .locked => true
  | _ => false

/-- The ids of the pipes the call found new. -/
def Call.newIds (call : Call) : List ℕ :=
  call.fresh.map Pipe.id ++ call.handles.map PipeHandle.id

/-- The ids `_pipes` will have once the call assigns it. -/
def Call.target (call : Call) : List ℕ := call.still.map Pipe.id ++ call.newIds

/-- No settled call began after the moment `k`. -/
def State.SettledBy (s : State σ) (k : ℕ) : Prop :=
  ∀ t, (s.calls t).pc.settled = true → (s.calls t).since ≤ k

/-- What holds of a call that is creating the new pipes. -/
structure Building (s : State σ) (call : Call) : Prop where
  prev : call.prev = s.pipes
  still : call.still.Sublist s.pipes
  novel : ∀ p ∈ call.newIds, p ∉ s.ids
  kept : Evolves call.target s.coll.ids
  /-- The list was the collection's, after every settled call had begun. -/
  seen : ∃ k, s.log[k]? = some call.target ∧ call.since ≤ k ∧ s.SettledBy k
  clean : s.coll.flag = false → call.target = s.coll.ids

/-- **The pipe list follows the collection.** -/
structure Mirrored (s : State σ) : Prop where
  isOpen : s.isOpen = true
  heard : ∀ ev, s.notify ev = true
  early : ∀ c, (s.closing c).pc.early = true
  /-- The collection holds the pipes that live. -/
  live : ∀ p, p ∈ s.coll.ids ↔ s.stage p = .pre ∨ s.stage p = .post
  last : s.log.getLast? = some s.coll.ids
  born : ∀ l ∈ s.log, ∀ p ∈ l, s.stage p ≠ .unborn
  nodup : ∀ l ∈ s.log, l.Nodup
  since : ∀ t, (s.calls t).since < s.log.length
  kept : Evolves s.ids s.coll.ids
  /-- The list was the collection's, after every settled call had begun. -/
  seen : ∃ k, s.log[k]? = some s.ids ∧ s.SettledBy k
  clean : s.coll.flag = false → (∀ t, (s.calls t).pc.dirty = false) → s.ids = s.coll.ids
  building : ∀ t, (s.calls t).pc = .creating → Building s (s.calls t)
  /-- A pipe in the list and in the one before it is the same object. -/
  sameObject : ∀ x ∈ s.before, ∀ y ∈ s.pipes, x.id = y.id → x = y

namespace Mirrored

theorem ids_mem_log (h : Mirrored s) : s.ids ∈ s.log := by
  obtain ⟨k, hk, -⟩ := h.seen
  exact List.mem_of_getElem? hk

theorem log_pos (h : Mirrored s) : 0 < s.log.length := Nat.zero_lt_of_lt (h.since 0)

theorem getElem?_last (h : Mirrored s) : s.log[s.log.length - 1]? = some s.coll.ids := by
  rw [← List.getLast?_eq_getElem?]; exact h.last

theorem coll_mem_log (h : Mirrored s) : s.coll.ids ∈ s.log := List.mem_of_getElem? h.getElem?_last

theorem settledBy_last (h : Mirrored s) : s.SettledBy (s.log.length - 1) := fun t _ => by
  have := h.since t
  omega

end Mirrored

/-! ## Steps that leave the list and the collection alone -/

/-- A call moves on: one that was not dirty without settling or building,
one that is building with the same list in view. -/
def Moved (n : ℕ) (c c' : Call) : Prop :=
  c' = c ∨
    (c.pc.dirty = false ∧ c'.since < n ∧ c'.pc ≠ .creating ∧
      (c'.pc.settled = true → c.pc.settled = true ∧ c'.since = c.since)) ∨
    (c.pc = .creating ∧ c'.pc = .creating ∧ c'.prev = c.prev ∧ c'.still = c.still ∧
      c'.newIds = c.newIds ∧ c'.since = c.since)

/-- The two states have the same list and the same collection. -/
structure SameList (s s' : State σ) : Prop where
  isOpen : s'.isOpen = s.isOpen
  notify : s'.notify = s.notify
  stage : s'.stage = s.stage
  coll : s'.coll = s.coll
  pipes : s'.pipes = s.pipes
  before : s'.before = s.before
  log : s'.log = s.log
  early : ∀ c, (s'.closing c).pc.early = true
  calls : ∀ t, Moved s.log.length (s.calls t) (s'.calls t)

theorem moved_setCall {n t : ℕ} {call : Call} (hcalls : s'.calls = s.calls)
    (h : Moved n (s.calls t) call) (u : ℕ) :
    Moved n (s.calls u) ((State.setCall t call s').calls u) := by
  by_cases hut : u = t
  · subst hut; simpa [State.setCall] using h
  · exact Or.inl (by simp [State.setCall, hut, hcalls])

theorem SameList.settledBy (h : SameList s s') {k : ℕ} (hk : s.SettledBy k) : s'.SettledBy k := by
  intro t ht
  rcases h.calls t with hc | ⟨-, -, -, hset⟩ | ⟨-, hpc, -⟩
  · rw [hc] at ht ⊢; exact hk t ht
  · obtain ⟨hst, hsince⟩ := hset ht
    rw [hsince]; exact hk t hst
  · rw [hpc] at ht; cases ht

theorem Building.of_sameList {c c' : Call} (hb : Building s c) (h : SameList s s')
    (hprev : c'.prev = c.prev) (hstill : c'.still = c.still) (hnew : c'.newIds = c.newIds)
    (hsince : c'.since = c.since) : Building s' c' := by
  have hids : s'.ids = s.ids := by simp only [State.ids, h.pipes]
  have htarget : c'.target = c.target := by simp only [Call.target, hstill, hnew]
  obtain ⟨k, hk, hck, hset⟩ := hb.seen
  exact ⟨by rw [hprev, h.pipes]; exact hb.prev, by rw [hstill, h.pipes]; exact hb.still,
    by rw [hnew, hids]; exact hb.novel, by rw [htarget, h.coll]; exact hb.kept,
    ⟨k, by rw [h.log, htarget]; exact hk, by rw [hsince]; exact hck, h.settledBy hset⟩,
    by rw [h.coll, htarget]; exact hb.clean⟩

theorem Mirrored.of_sameList (hm : Mirrored s) (h : SameList s s') : Mirrored s' := by
  have hids : s'.ids = s.ids := by simp only [State.ids, h.pipes]
  refine ⟨by rw [h.isOpen]; exact hm.isOpen, by rw [h.notify]; exact hm.heard, h.early,
    by rw [h.coll, h.stage]; exact hm.live, by rw [h.log, h.coll]; exact hm.last,
    by rw [h.log, h.stage]; exact hm.born, by rw [h.log]; exact hm.nodup, fun t => ?_,
    by rw [hids, h.coll]; exact hm.kept, ?_, ?_, fun t ht => ?_,
    by rw [h.before, h.pipes]; exact hm.sameObject⟩
  · rw [h.log]
    rcases h.calls t with hc | ⟨-, hsince, -⟩ | ⟨-, -, -, -, -, hsince⟩
    · rw [hc]; exact hm.since t
    · exact hsince
    · rw [hsince]; exact hm.since t
  · obtain ⟨k, hk, hset⟩ := hm.seen
    exact ⟨k, by rw [h.log, hids]; exact hk, h.settledBy hset⟩
  · rw [hids, h.coll]
    refine fun hflag hdirty => hm.clean hflag fun t => ?_
    rcases h.calls t with hc | ⟨hclean, -⟩ | ⟨-, hpc, -⟩
    · rw [← hc]; exact hdirty t
    · exact hclean
    · exact absurd (hdirty t) (by simp [hpc, CallPc.dirty])
  · rcases h.calls t with hc | ⟨-, -, hne, -⟩ | ⟨hpc, -, hprev, hstill, hnew, hsince⟩
    · rw [hc] at ht ⊢
      exact (hm.building t ht).of_sameList h rfl rfl rfl rfl
    · exact absurd ht hne
    · exact (hm.building t hpc).of_sameList h hprev hstill hnew hsince

/-- **A call moves on** that is not dirty: it builds nothing, and settles
only if it was settled. -/
theorem Mirrored.moveCall (h : Mirrored s) {t : ℕ} {call : Call} (hs : SameList s s')
    (hcalls : s'.calls = s.calls) (hclean : (s.calls t).pc.dirty = false)
    (hsince : call.since = (s.calls t).since) (hbuild : call.pc ≠ .creating)
    (hsettled : call.pc.settled = true → (s.calls t).pc.settled = true) :
    Mirrored (State.setCall t call s') := by
  have hlt : call.since < s.log.length := by rw [hsince]; exact h.since t
  exact h.of_sameList ⟨hs.isOpen, hs.notify, hs.stage, hs.coll, hs.pipes, hs.before, hs.log,
    hs.early, moved_setCall hcalls
      (Or.inr (Or.inl ⟨hclean, hlt, hbuild, fun hset => ⟨hsettled hset, hsince⟩⟩))⟩

/-! ## Pipe events -/

/-- Nothing but `ADD_PRE` adds a pipe while the collection holds those that
live, so a list the pipe has not been in goes on evolving to it. -/
theorem Mirrored.evolves_handleEvent (h : Mirrored s) {p : ℕ} {ev : PipeEv} {a : List ℕ}
    {n : NngPipe} (hen : Delivers s p ev) (ha : Evolves a s.coll.ids) (hmem : a ∈ s.log) :
    Evolves a (s.coll.handleEvent n p ev).1.ids := by
  cases ev with
  | none => exact hen.elim
  | addPre =>
    rw [PipeCollection.handleEvent_addPre.2.1]
    split
    · exact ha
    · exact ha.append fun hp => h.born a hmem p hp hen
  | addPost =>
    rw [PipeCollection.handleEvent_addPost.2.1, if_pos ((h.live p).mpr (Or.inl hen))]
    exact ha
  | remPost =>
    rw [PipeCollection.handleEvent_remPost.2.1]
    exact ha.sublist List.erase_sublist

/-- An event that leaves the flag lowered left the ids alone. -/
theorem flag_handleEvent {c : PipeCollection σ} {n : NngPipe} {p : ℕ} {ev : PipeEv}
    (hflag : (c.handleEvent n p ev).1.flag = false) :
    c.flag = false ∧ (c.handleEvent n p ev).1.ids = c.ids := by
  cases ev with
  | none => cases hflag
  | addPre =>
    obtain ⟨-, hids, hfl⟩ := PipeCollection.handleEvent_addPre (c := c) (n := n) (p := p)
    rw [hfl, Bool.or_eq_false_iff, Bool.not_eq_false'] at hflag
    rw [hids, if_pos hflag.1]
    exact ⟨hflag.2, rfl⟩
  | addPost => rw [PipeCollection.handleEvent_addPost.2.2] at hflag; cases hflag
  | remPost => rw [PipeCollection.handleEvent_remPost.2.2] at hflag; cases hflag

/-- The collection goes on holding the pipes that live. -/
theorem Mirrored.live_handle (h : Mirrored s) {p : ℕ} {ev : PipeEv} (hen : Delivers s p ev)
    (q : ℕ) : q ∈ (handle cfg s p ev).coll.ids ↔
      (handle cfg s p ev).stage q = .pre ∨ (handle cfg s p ev).stage q = .post := by
  have hnodup := h.nodup _ h.coll_mem_log
  simp only [handle]
  cases ev with
  | none => exact hen.elim
  | addPre =>
    have hp : p ∉ s.coll.ids := fun hp => h.born _ h.coll_mem_log p hp hen
    rw [PipeCollection.handleEvent_addPre.2.1]
    by_cases hqp : q = p
    · subst hqp
      cases hr : s.coll.refuses (cfg.nng q) q <;> simp [stageAfter, hr, h.heard, hp]
    · rw [Function.update_of_ne hqp, ← h.live q]
      split
      · rfl
      · simp [hqp]
  | addPost =>
    have hp : p ∈ s.coll.ids := (h.live p).mpr (Or.inl hen)
    rw [PipeCollection.handleEvent_addPost.2.1, if_pos hp]
    by_cases hqp : q = p
    · subst hqp; simp [stageAfter, hp]
    · rw [Function.update_of_ne hqp, ← h.live q]
  | remPost =>
    rw [PipeCollection.handleEvent_remPost.2.1, hnodup.mem_erase_iff]
    by_cases hqp : q = p
    · subst hqp; simp [stageAfter]
    · rw [Function.update_of_ne hqp, ← h.live q]
      simp [hqp]

theorem Mirrored.nodup_handleEvent (h : Mirrored s) {p : ℕ} {ev : PipeEv} {n : NngPipe}
    (hen : Delivers s p ev) : (s.coll.handleEvent n p ev).1.ids.Nodup := by
  have hnodup := h.nodup _ h.coll_mem_log
  cases ev with
  | none => exact hen.elim
  | addPre =>
    rw [PipeCollection.handleEvent_addPre.2.1]
    split
    · exact hnodup
    · exact List.nodup_append.mpr ⟨hnodup, by simp, fun a ha b hb hab => by
        rw [List.mem_singleton.mp hb] at hab
        subst hab
        exact h.born _ h.coll_mem_log a ha hen⟩
  | addPost =>
    rw [PipeCollection.handleEvent_addPost.2.1, if_pos ((h.live p).mpr (Or.inl hen))]
    exact hnodup
  | remPost =>
    rw [PipeCollection.handleEvent_remPost.2.1]
    exact hnodup.erase p

theorem getElem?_log_append {l : List ℕ} {log : List (List ℕ)} {k : ℕ} (x : List ℕ)
    (h : log[k]? = some l) : (log ++ [x])[k]? = some l := by
  rw [List.getElem?_append_left (List.getElem?_eq_some_iff.mp h).1]
  exact h

/-- **An event keeps the mirror.** -/
theorem Mirrored.event (h : Mirrored s) {p : ℕ} {ev : PipeEv} (hen : Delivers s p ev) :
    Mirrored (next cfg s (.event p ev)) := by
  rw [next_event_of_notify (h.heard ev)]
  have hstage : ∀ q, s.stage q ≠ .unborn → (handle cfg s p ev).stage q ≠ .unborn := by
    intro q hq
    simp only [handle]
    by_cases hqp : q = p
    · subst hqp
      rw [Function.update_self]
      cases ev <;> simp only [stageAfter]
      · exact hq
      · split <;> simp
      · simp
      · simp
    · rwa [Function.update_of_ne hqp]
  refine ⟨h.isOpen, h.heard, h.early, h.live_handle hen, by simp [handle], fun l hl q hq => ?_,
    fun l hl => ?_, fun t => ?_, h.evolves_handleEvent hen h.kept h.ids_mem_log, ?_,
    fun hflag hd => ?_,
    fun t ht => ?_, h.sameObject⟩
  · rcases List.mem_append.mp hl with hl | hl
    · exact hstage q (h.born l hl q hq)
    · rw [List.mem_singleton.mp hl] at hq
      rcases (h.live_handle hen q).mp hq with hst | hst <;> simp [hst]
  · rcases List.mem_append.mp hl with hl | hl
    · exact h.nodup l hl
    · rw [List.mem_singleton.mp hl]; exact h.nodup_handleEvent hen
  · have := h.since t
    simp only [handle, List.length_append, List.length_singleton]
    omega
  · obtain ⟨k, hk, hset⟩ := h.seen
    exact ⟨k, getElem?_log_append _ hk, hset⟩
  · obtain ⟨hfl, hids⟩ := flag_handleEvent hflag
    exact (h.clean hfl hd).trans hids.symm
  · obtain ⟨hprev, hstill, hnovel, hkept, ⟨k, hk, hsince, hset⟩, hclean⟩ := h.building t ht
    refine ⟨hprev, hstill, hnovel, h.evolves_handleEvent hen hkept (List.mem_of_getElem? hk),
      ⟨k, getElem?_log_append _ hk, hsince, hset⟩, fun hflag => ?_⟩
    obtain ⟨hfl, hids⟩ := flag_handleEvent hflag
    exact (hclean hfl).trans hids.symm

/-! ## The locked section -/

/-- While a call is inside the locked section no other is building. -/
theorem Locked.eq_of_creating (hl : Locked s) {t u : ℕ} (ht : (s.calls t).pc.holds = true)
    (hu : (s.calls u).pc = .creating) : u = t := by
  have huh : s.holds (.call u) = true := by simp [State.holds, hu, CallPc.holds]
  exact Holder.call.inj (hl.eq_of_holds huh ht)

theorem not_creating_setCall (hl : Locked s) {t : ℕ} {call : Call} (hcalls : s'.calls = s.calls)
    (ht : (s.calls t).pc.holds = true) (hcall : call.pc ≠ .creating) (u : ℕ) :
    ((State.setCall t call s').calls u).pc ≠ .creating := by
  by_cases hut : u = t
  · subst hut; simpa [State.setCall] using hcall
  · intro hu
    simp only [State.setCall, Function.update_of_ne hut, hcalls] at hu
    exact hut (hl.eq_of_creating ht hu)

theorem settledBy_setCall {t k : ℕ} {call : Call} (hcalls : s'.calls = s.calls)
    (hk : s.SettledBy k) (hcall : call.pc.settled = true → call.since ≤ k) :
    (State.setCall t call s').SettledBy k := by
  intro u hu
  by_cases hut : u = t
  · subst hut
    simp only [State.setCall, Function.update_self] at hu ⊢
    exact hcall hu
  · simp only [State.setCall, Function.update_of_ne hut, hcalls] at hu ⊢
    exact hk u hu

theorem Mirrored.since_setCall (h : Mirrored s) {t : ℕ} {call : Call} (hcalls : s'.calls = s.calls)
    (hcall : call.since = (s.calls t).since) (u : ℕ) :
    ((State.setCall t call s').calls u).since < s.log.length := by
  by_cases hut : u = t
  · subst hut
    simp only [State.setCall, Function.update_self, hcall]
    exact h.since u
  · simp only [State.setCall, Function.update_of_ne hut, hcalls]
    exact h.since u

/-- **The look at the flag.** Found lowered by a caller inside the section,
it says that the list agrees with the collection now. -/
theorem Mirrored.check (h : Mirrored s) (hl : Locked s) {t : ℕ}
    (hpc : (s.calls t).pc = .checking) : Mirrored (next cfg s (.check t)) := by
  have hin : (s.calls t).pc.holds = true := by rw [hpc]; rfl
  simp only [next]
  split
  · refine ⟨h.isOpen, h.heard, h.early, fun p => ?_, ?_, h.born, h.nodup, h.since_setCall rfl rfl,
      ?_, ?_, fun _ hd => ?_, fun u hu => ?_, h.sameObject⟩
    · simpa [State.setCall] using h.live p
    · simpa [State.setCall] using h.last
    · simpa [State.setCall, State.ids] using h.kept
    · obtain ⟨k, hk, hset⟩ := h.seen
      exact ⟨k, hk, settledBy_setCall rfl hset fun hc => by cases hc⟩
    · exact absurd (hd t) (by simp [State.setCall, CallPc.dirty])
    · exact absurd hu (not_creating_setCall hl rfl hin (by simp) u)
  · -- nobody else is inside, so nobody owes the list an assignment
    rename_i hflag
    rw [PipeCollection.fst_hadEvents, Bool.not_eq_true] at hflag
    have hnow : s.ids = s.coll.ids := h.clean hflag fun u => by
      by_contra hu
      have huh : s.holds (.call u) = true := by
        revert hu
        simp only [State.holds]
        cases (s.calls u).pc <;> simp [CallPc.dirty, CallPc.holds]
      obtain rfl : u = t := Holder.call.inj (hl.eq_of_holds huh hin)
      rw [hpc] at hu
      exact hu rfl
    refine ⟨h.isOpen, h.heard, h.early, h.live, h.last, h.born, h.nodup, h.since_setCall rfl rfl,
      h.kept, ⟨s.log.length - 1, ?_, settledBy_setCall rfl h.settledBy_last fun _ => ?_⟩,
      fun _ _ => hnow, fun u hu => ?_, h.sameObject⟩
    · exact hnow ▸ h.getElem?_last
    · have := h.since t
      simp only
      omega
    · exact absurd hu (not_creating_setCall hl rfl hin (by simp) u)

/-- **The snapshot.** The greedy match finds all that was kept. -/
theorem Mirrored.snapshot (h : Mirrored s) (hl : Locked s) {t : ℕ}
    (hpc : (s.calls t).pc = .snapshotting) : Mirrored (next cfg s (.snapshot t)) := by
  have hin : (s.calls t).pc.holds = true := by rw [hpc]; rfl
  obtain ⟨hmap, hsub, hnovel⟩ :=
    @greedyMatch_spec _ _ _ _ Pipe.id PipeHandle.id s.pipes s.coll.pipes h.kept
  have hset : ∀ k, s.SettledBy k → (next cfg s (.snapshot t)).SettledBy k := fun k hk =>
    settledBy_setCall rfl hk fun hc => by cases hc
  refine ⟨h.isOpen, h.heard, h.early, h.live, h.last, h.born, h.nodup, h.since_setCall rfl rfl,
    h.kept, ?_, fun _ hd => ?_, fun u hu => ?_, h.sameObject⟩
  · obtain ⟨k, hk, hk'⟩ := h.seen
    exact ⟨k, hk, hset k hk'⟩
  · exact absurd (hd t) (by simp [next, State.setCall, CallPc.dirty])
  · obtain rfl : u = t := by
      by_contra hut
      simp only [next, State.setCall, Function.update_of_ne hut] at hu
      exact hut (hl.eq_of_creating hin hu)
    have htarget : ((next cfg s (.snapshot u)).calls u).target = s.coll.ids := by
      simp only [next, State.setCall, Function.update_self, Call.target]
      exact hmap
    refine ⟨?_, ?_, ?_, ?_, ⟨s.log.length - 1, ?_, ?_, hset _ h.settledBy_last⟩, fun _ => htarget⟩
    · simp [next, State.setCall]
    · simp only [next, State.setCall, Function.update_self]
      exact hsub
    · simp only [next, State.setCall, Function.update_self]
      exact hnovel
    · rw [htarget]; exact Evolves.refl _
    · rw [htarget]; exact h.getElem?_last
    · have := h.since u
      simp only [next, State.setCall, Function.update_self]
      omega

/-- **The assignment.** The list becomes the one that was built. -/
theorem Mirrored.assign (h : Mirrored s) (hl : Locked s) {t : ℕ}
    (hpc : (s.calls t).pc = .creating) (hdone : (s.calls t).handles = []) :
    Mirrored (next cfg s (.assign t)) := by
  have hin : (s.calls t).pc.holds = true := by rw [hpc]; rfl
  obtain ⟨-, hstill, hnovel, hkept, ⟨k, hk, hsince, hset⟩, hclean⟩ := h.building t hpc
  have hids : (next cfg s (.assign t)).ids = (s.calls t).target := by
    simp [next, State.ids, State.setCall, Call.target, Call.newIds, hdone]
  refine ⟨h.isOpen, h.heard, h.early, h.live, h.last, h.born, h.nodup, h.since_setCall rfl rfl,
    by rw [hids]; exact hkept,
    ⟨k, by rw [hids]; exact hk, settledBy_setCall rfl hset fun _ => hsince⟩,
    fun hflag _ => by rw [hids]; exact hclean hflag, fun u hu => ?_, fun x hx y hy hxy => ?_⟩
  · exact absurd hu (not_creating_setCall hl rfl hin (by simp) u)
  · rcases List.mem_append.mp (by simpa [next, State.setCall] using hy :
      y ∈ (s.calls t).still ++ (s.calls t).fresh) with hy | hy
    · -- taken over: both are in the old list, which has each id once
      exact List.inj_on_of_nodup_map (h.nodup _ h.ids_mem_log) hx (hstill.subset hy) hxy
    · -- made by this call: its id is not in the old list
      have hyid : y.id ∉ s.ids :=
        hnovel _ (List.mem_append_left _ (List.mem_map_of_mem hy))
      rw [← hxy] at hyid
      exact absurd (List.mem_map_of_mem hx) hyid

/-! ## Every step -/

/-- A `close` that has begun has begun for good. -/
theorem closeBegun_next {a : Act} (h : s.closeBegun = true) :
    (next cfg s a).closeBegun = true := by
  cases a with
  | event p ev => simp only [next]; split <;> exact h
  | check t => simp only [next]; split <;> exact h
  | create t => simp only [next]; split <;> exact h
  | read t => simp only [next]; split <;> exact h
  | hook t => simp only [next]; split <;> exact h
  | close c =>
    cases hpc : (s.closing c).pc <;> simp only [next, closeStep, hpc]
    case locked => split <;> first | rfl | exact h
    case closed => split <;> exact h
    all_goals exact h
  | _ => exact h

theorem closeBegun_of_next {a : Act} (h : (next cfg s a).closeBegun = false) :
    s.closeBegun = false := by
  by_contra hbegun
  rw [closeBegun_next (by simpa using hbegun)] at h
  cases h

theorem Mirrored.closeStep (h : Mirrored s) {c : Closer}
    (hcb : (closeStep s c).closeBegun = false) : Mirrored (closeStep s c) := by
  have hearly := h.early c
  have hset : ∀ (run : CloseRun), run.pc.early = true →
      ∀ d, (Function.update s.closing c run d).pc.early = true := by
    intro run hrun d
    by_cases hdc : d = c
    · subst hdc; rwa [Function.update_self]
    · rw [Function.update_of_ne hdc]; exact h.early d
  have hcalls : ∀ t, Moved s.log.length (s.calls t) (s.calls t) := fun _ => Or.inl rfl
  cases hpc : (s.closing c).pc with
  | idle =>
    simp only [Socket.closeStep, hpc]
    exact h.of_sameList ⟨rfl, rfl, rfl, rfl, rfl, rfl, rfl, hset _ rfl, hcalls⟩
  | locking =>
    simp only [Socket.closeStep, hpc]
    exact h.of_sameList ⟨rfl, rfl, rfl, rfl, rfl, rfl, rfl, hset _ rfl, hcalls⟩
  | locked =>
    simp only [Socket.closeStep, hpc, h.isOpen, if_true] at hcb
    cases hcb
  | _ => rw [hpc] at hearly; cases hearly

/-- **Each step keeps the mirror**, as long as no `close` begins. -/
theorem Mirrored.next (h : Mirrored s) (hl : Locked s) {a : Act} (hen : Enabled s a)
    (hcb : (Socket.next cfg s a).closeBegun = false) : Mirrored (Socket.next cfg s a) := by
  have hsame : ∀ t, Moved s.log.length (s.calls t) (s.calls t) := fun _ => Or.inl rfl
  have hlast := h.log_pos
  have hhook : ∀ (t : ℕ) (run : CloseRun), run.pc.early = true →
      ∀ c, (Function.update s.closing (.hook t) run c).pc.early = true := by
    intro t run hrun c
    by_cases hc : c = .hook t
    · subst hc; rwa [Function.update_self]
    · rw [Function.update_of_ne hc]; exact h.early c
  cases a with
  | event p ev => exact h.event hen
  | check t => exact h.check hl hen
  | snapshot t => exact h.snapshot hl hen
  | create t =>
    cases hh : (s.calls t).handles with
    | nil => exact absurd hh hen.2
    | cons x xs =>
      simp only [Socket.next, hh]
      exact h.of_sameList ⟨rfl, rfl, rfl, rfl, rfl, rfl, rfl, h.early, moved_setCall rfl
        (Or.inr (Or.inr ⟨hen.1, hen.1, rfl, rfl, by simp [Call.newIds, hh, Pipe.id], rfl⟩))⟩
  | assign t => exact h.assign hl hen.1 hen.2
  | close c => exact h.closeStep hcb
  | enter t =>
    have hpc := CanEnter.resting hen
    refine h.of_sameList ⟨rfl, rfl, rfl, rfl, rfl, rfl, rfl, h.early, moved_setCall rfl
      (Or.inr (Or.inl ⟨?_, ?_, by simp [Call.start], fun hc => by cases hc⟩))⟩
    · rcases hpc with hpc | hpc | hpc <;> rw [hpc] <;> rfl
    · simp only [Call.start]; omega
  | acquire t =>
    refine h.moveCall ⟨rfl, rfl, rfl, rfl, rfl, rfl, rfl, h.early, hsame⟩ rfl ?_ rfl (by simp)
      fun hset => by cases hset
    rw [hen.1]; rfl
  | sample t =>
    refine h.moveCall ⟨rfl, rfl, rfl, rfl, rfl, rfl, rfl, h.early, hsame⟩ rfl ?_ rfl ?_ id
    · rw [hen.1]; rfl
    · simp [hen.1]
  | read t =>
    simp only [Socket.next]
    split
    · refine h.moveCall ⟨rfl, rfl, rfl, rfl, rfl, rfl, rfl, h.early, hsame⟩ rfl ?_ rfl ?_ id
      · rw [hen.1]; rfl
      · simp [hen.1]
    · exact h
  | unlock t =>
    refine h.moveCall ⟨rfl, rfl, rfl, rfl, rfl, rfl, rfl, h.early, hsame⟩ rfl ?_ rfl (by simp)
      fun _ => ?_
    all_goals rw [hen.1]; rfl
  | status t o =>
    refine h.moveCall ⟨rfl, rfl, rfl, rfl, rfl, rfl, rfl, h.early, hsame⟩ rfl ?_ rfl ?_ fun _ => ?_
    · rw [hen.1]; rfl
    · simp only
      split <;> simp
    · rw [hen.1]; rfl
  | hook t =>
    simp only [Socket.next]
    split
    · refine h.moveCall ⟨rfl, rfl, rfl, rfl, rfl, rfl, rfl, hhook t _ rfl, hsame⟩ rfl ?_ rfl
        (by simp) fun _ => ?_
      all_goals rw [hen.1]; rfl
    · refine h.moveCall ⟨rfl, rfl, rfl, rfl, rfl, rfl, rfl, h.early, hsame⟩ rfl ?_ rfl ?_ id
      · rw [hen.1]; rfl
      · simp [hen.1]
  | hookDone t =>
    refine h.moveCall ⟨rfl, rfl, rfl, rfl, rfl, rfl, rfl, hhook t _ rfl, hsame⟩ rfl ?_ rfl
      (by simp) fun _ => ?_
    all_goals rw [hen.1]; rfl
  | announce t o =>
    refine h.moveCall ⟨rfl, rfl, rfl, rfl, rfl, rfl, rfl, h.early, hsame⟩ rfl ?_ rfl ?_ fun _ => ?_
    · rw [hen.1]; rfl
    · simp only
      split <;> simp
    · rw [hen.1]; rfl
  | ret t =>
    refine h.moveCall ⟨rfl, rfl, rfl, rfl, rfl, rfl, rfl, h.early, hsame⟩ rfl ?_ rfl (by simp)
      fun _ => ?_
    all_goals rw [hen.1]; rfl
  | _ => exact h.of_sameList ⟨rfl, rfl, rfl, rfl, rfl, rfl, rfl, h.early, hsame⟩

theorem mirrored_init (cfg : Config σ) : Mirrored (socket cfg).init where
  isOpen := rfl
  heard := fun _ => rfl
  early := fun _ => rfl
  live := fun p => by simp [socket, PipeCollection.new, PipeCollection.ids]
  last := rfl
  born := fun l hl p hp => by
    rw [List.mem_singleton.mp hl] at hp; cases hp
  nodup := fun l hl => by rw [List.mem_singleton.mp hl]; exact List.nodup_nil
  since := fun _ => Nat.zero_lt_one
  kept := Evolves.refl _
  seen := ⟨0, rfl, fun _ ht => by cases ht⟩
  clean := fun _ _ => rfl
  building := fun _ ht => by cases ht
  sameObject := fun _ hx => by cases hx

/-- The list follows the collection in every reachable state of a socket
that is not being closed. -/
theorem mirrored_of_reach (h : (socket cfg).Reach s) (hcb : s.closeBegun = false) :
    Mirrored s := by
  induction h with
  | init => exact mirrored_init cfg
  | step hr _ hen ih =>
    exact (ih (closeBegun_of_next hcb)).next (locked_of_reach hr) hen hcb

end Socket

end PyNng
