import PyNng.Socket.Disconnect
import PyNng.Socket.Shadow
/-!
# Socket — what `close` leaves behind

`close` clears the list and the collection, and unregisters the three
notifications afterwards. Until they are gone a pipe may come in, or be
added again by its `ADD_POST`, and `update_pipes` makes a `Pipe` of it. If
its `REM_POST` is heard before that is unregistered too, nothing is left
once the sentinels are processed (`EachLeaves`); if not, it stays in the
collection for good.
-/

namespace PyNng

namespace Socket

variable {σ : Type} {cfg : Config σ} {s s' : State σ}

/-! ## After the clear -/

/-- The collection and the list are empty, and no call is going to fill it. -/
structure Blank (s : State σ) : Prop where
  coll : s.coll.pipes = []
  pipes : s.pipes = []
  goal : ∀ t, (s.calls t).pc = .creating → (s.calls t).goal = []

namespace Blank

theorem of_same (h : Blank s) (hcoll : s'.coll.pipes = s.coll.pipes) (hpipes : s'.pipes = s.pipes)
    (hcalls : s'.calls = s.calls) : Blank s' :=
  ⟨hcoll.trans h.coll, hpipes.trans h.pipes, by rw [hcalls]; exact h.goal⟩

theorem setCall (h : Blank s) {t : ℕ} {call : Call} (hcoll : s'.coll.pipes = s.coll.pipes)
    (hpipes : s'.pipes = s.pipes) (hcalls : s'.calls = s.calls)
    (hcall : call.pc = .creating → call.goal = []) : Blank (State.setCall t call s') := by
  have h' := h.of_same hcoll hpipes hcalls
  exact ⟨h'.coll, h'.pipes,
    @forall_setCall _ s' t call (fun c => c.pc = .creating → c.goal = []) hcall h'.goal⟩

theorem closeStep (h : Blank s) (c : Closer) : Blank (closeStep s c) := by
  cases hpc : (s.closing c).pc <;> simp only [Socket.closeStep, hpc]
  case locked =>
    split
    · exact ⟨h.coll, rfl, h.goal⟩
    · exact h.of_same rfl rfl rfl
  case pipesCleared => exact ⟨rfl, h.pipes, h.goal⟩
  case closed => split <;> exact h.of_same rfl rfl rfl
  all_goals exact h.of_same rfl rfl rfl

theorem of_spares (h : Blank s) (hs : SparesPipes s s') : Blank s' :=
  ⟨by rw [hs.coll]; exact h.coll, hs.pipes.trans h.pipes, fun t ht => by
    have hsame := hs.creating ht
    rw [hsame] at ht ⊢
    exact h.goal t ht⟩

/-- **Only an event that is heard fills it again.** -/
theorem next (h : Blank s) {a : Act} (hen : Enabled s a)
    (hev : ∀ p ev, a = .event p ev → s.notify ev = false) : Blank (Socket.next cfg s a) := by
  cases a with
  | event p ev =>
    rw [next_event_of_not_notify (hev p ev rfl)]
    exact h.of_same rfl rfl rfl
  | check t =>
    simp only [Socket.next]
    split
    · exact h.setCall (PipeCollection.sameHandles_hadEvents _).pipes rfl rfl (by simp)
    · exact h.setCall rfl rfl rfl (by simp)
  | snapshot t =>
    refine h.setCall rfl rfl rfl fun _ => ?_
    simp [PipeCollection.getPipes, h.coll, h.pipes, greedyMatch, Call.goal]
  | create t =>
    simp only [Socket.next]
    split
    · exact h
    · -- there is nothing to create
      rename_i x xs hh
      have hgoal := h.goal t hen.1
      simp [Call.goal, hh] at hgoal
  | assign t =>
    have hgoal := h.goal t hen.1
    simp only [Call.goal, List.append_eq_nil_iff, List.map_eq_nil_iff] at hgoal
    obtain ⟨hstill, hfresh, -⟩ := hgoal
    have hb : Blank { s with pipes := (s.calls t).still ++ (s.calls t).fresh } :=
      ⟨h.coll, by simp [hstill, hfresh], h.goal⟩
    exact hb.setCall rfl rfl rfl (by simp)
  | hook t =>
    simp only [Socket.next]
    split
    · exact h.setCall rfl rfl rfl (by simp)
    · exact h.setCall rfl rfl rfl (by simp [hen.1])
  | hookDone t => exact h.setCall rfl rfl rfl (by simp)
  | close c => exact h.closeStep c
  | _ => exact h.of_spares (sparesPipes_next cfg hen rfl)

end Blank

/-- **The dispatcher will look, or there is nothing to see**: `clear` raises
the flag without a sentinel, and empties both. -/
theorem woken_or_blank (h : (socket cfg).Reach s) : Woken s ∨ Blank s := by
  induction h with
  | init => exact Or.inl ⟨fun hf => Bool.noConfusion hf, fun _ _ hd => Bool.noConfusion hd⟩
  | @step s a hr _ hen ih =>
    have hl := locked_of_reach hr
    by_cases hev : ∃ p ev, a = .event p ev ∧ s.notify ev = true
    · obtain ⟨p, ev, rfl, hn⟩ := hev
      refine Or.inl (Woken.of_outstanding (Or.inl ?_))
      show 0 < (next cfg s (.event p ev)).inFlight
      rw [next_event_of_notify hn]
      exact Nat.succ_pos _
    · by_cases hclear : ∃ c, a = .close c ∧ (s.closing c).pc = .pipesCleared
      · obtain ⟨c, rfl, hpc⟩ := hclear
        have hnone := (shadowed_of_reach hr).emptied c hpc
        refine Or.inr ?_
        show Blank (closeStep s c)
        simp only [closeStep, hpc]
        exact ⟨rfl, hnone, fun t ht => absurd ht (hl.not_creating (by rw [hpc]; rfl) t)⟩
      · rcases ih with hw | hb
        · exact Or.inl (hw.next hl hen fun c hc hpc => hclear ⟨c, hc, hpc⟩)
        · refine Or.inr (hb.next hen fun p ev ha => ?_)
          by_contra hn
          exact hev ⟨p, ev, ha, by simpa using hn⟩

/-! ## The notifications -/

/-- No pipe is in the collection, and none comes in any more. -/
structure Sealed (s : State σ) : Prop where
  noAddPre : s.notify .addPre = false
  noAddPost : s.notify .addPost = false
  empty : s.coll.pipes = []

/-- The places of `close` where `ADD_PRE` is unregistered and the socket
not yet closed. -/
def ClosePc.pastAddPre : ClosePc → Bool
  | .noAddPre | .noAddPost | .noRemPost => true
  | _ => false

/-- The same of `ADD_POST`. -/
def ClosePc.pastAddPost : ClosePc → Bool
  | .noAddPost | .noRemPost => true
  | _ => false

/-- **`close` seals the collection** before it closes the socket. -/
structure Seals (s : State σ) : Prop where
  noAddPre : ∀ c, (s.closing c).pc.pastAddPre = true → s.notify .addPre = false
  noAddPost : ∀ c, (s.closing c).pc.pastAddPost = true → s.notify .addPost = false
  closed : s.isOpen = false → Sealed s
  /-- Whoever is out of `SocketHandle::close` has seen the socket closed. -/
  returned : ∀ c, (s.closing c).pc = .closed ∨ (s.closing c).pc = .done → s.isOpen = false

/-- **The socket is closed when the collection is empty**: the pipes that
came in after the clear have gone again. -/
def ClosesEmpty (s : State σ) : Act → Prop
  | .close c => (s.closing c).pc = .noRemPost → s.coll.pipes = []
  | _ => True

instance (s : State σ) : ∀ a, Decidable (ClosesEmpty s a)
  | .close _ => inferInstanceAs (Decidable (_ → _))
  | .event .. | .push | .otherPush | .setOnNewPipe _ | .setCallback .. | .closePipe ..
  | .pipeCallback _ | .enter _ | .acquire _ | .check _ | .snapshot _ | .create _ | .assign _
  | .sample _ | .read _ | .unlock _ | .status .. | .hook _ | .hookDone _ | .announce ..
  | .ret _ => inferInstanceAs (Decidable True)

/-- Notifications go and the collection stays empty. -/
theorem Sealed.mono (h : Sealed s) (hnotify : ∀ ev, s.notify ev = false → s'.notify ev = false)
    (hempty : s.coll.pipes = [] → s'.coll.pipes = []) : Sealed s' :=
  ⟨hnotify _ h.noAddPre, hnotify _ h.noAddPost, hempty h.empty⟩

/-- **A sealed collection stays empty.** -/
theorem Sealed.event (h : Sealed s) {p : ℕ} {ev : PipeEv} (hen : Delivers s p ev) :
    Sealed (next cfg s (.event p ev)) := by
  cases hn : s.notify ev with
  | false =>
    rw [next_event_of_not_notify hn]
    exact h.mono (fun _ hev => hev) fun hc => hc
  | true =>
    rw [next_event_of_notify hn]
    refine h.mono (fun _ hev => hev) fun hc => ?_
    cases ev with
    | none => exact hen.elim
    | addPre => rw [h.noAddPre] at hn; cases hn
    | addPost => rw [h.noAddPost] at hn; cases hn
    | remPost =>
      have hids : (handle cfg s p .remPost).coll.ids = s.coll.ids.erase p :=
        (@PipeCollection.handleEvent_remPost _ s.coll (cfg.nng p) p).2.1
      simpa [PipeCollection.ids, hc] using hids

namespace Seals

theorem of_same (h : Seals s) (hnotify : s'.notify = s.notify) (hopen : s'.isOpen = s.isOpen)
    (hcoll : s'.coll.pipes = s.coll.pipes) (hclosing : s'.closing = s.closing) : Seals s' := by
  have hsealed : Sealed s → Sealed s' := fun hs =>
    hs.mono (fun ev => by rw [hnotify]; exact id) fun hc => hcoll.trans hc
  exact ⟨by rw [hclosing, hnotify]; exact h.noAddPre, by rw [hclosing, hnotify]; exact h.noAddPost,
    by rw [hopen]; exact fun ho => hsealed (h.closed ho),
    by rw [hclosing, hopen]; exact h.returned⟩

/-- A run of `close` moves: notifications may go, and the socket close. -/
theorem setClosing (h : Seals s) {c : Closer} {run : CloseRun} (hclosing : s'.closing = s.closing)
    (hnotify : ∀ ev, s.notify ev = false → s'.notify ev = false)
    (hempty : s.coll.pipes = [] → s'.coll.pipes = [])
    (hopen : s'.isOpen = s.isOpen ∨ s'.isOpen = false ∧ Sealed s)
    (hpre : run.pc.pastAddPre = true → s'.notify .addPre = false)
    (hpost : run.pc.pastAddPost = true → s'.notify .addPost = false)
    (hret : run.pc = .closed ∨ run.pc = .done → s'.isOpen = false) :
    Seals (State.setClosing c run s') := by
  have hsealed : Sealed s → Sealed s' := fun hs => hs.mono hnotify hempty
  have hmoved : Sealed s' → Sealed (State.setClosing c run s') := fun hs =>
    hs.mono (fun _ hev => hev) fun hc => hc
  have hclosed : s.isOpen = false → s'.isOpen = false := fun ho => by
    rcases hopen with hopen | ⟨hopen, -⟩
    · rw [hopen]; exact ho
    · exact hopen
  refine ⟨@forall_setClosing _ s' c run
      (fun r => r.pc.pastAddPre = true → s'.notify .addPre = false) hpre ?_,
    @forall_setClosing _ s' c run
      (fun r => r.pc.pastAddPost = true → s'.notify .addPost = false) hpost ?_,
    fun ho => hmoved ?_,
    @forall_setClosing _ s' c run
      (fun r => r.pc = .closed ∨ r.pc = .done → s'.isOpen = false) hret ?_⟩
  · rw [hclosing]; exact fun d hd => hnotify _ (h.noAddPre d hd)
  · rw [hclosing]; exact fun d hd => hnotify _ (h.noAddPost d hd)
  · have ho : s'.isOpen = false := ho
    rcases hopen with hopen | ⟨-, hs⟩
    · rw [hopen] at ho
      exact hsealed (h.closed ho)
    · exact hsealed hs
  · rw [hclosing]; exact fun d hd => hclosed (h.returned d hd)

/-- A run of `close` moves that has unregistered nothing yet. -/
theorem moveClosing (h : Seals s) {c : Closer} {run : CloseRun} (hclosing : s'.closing = s.closing)
    (hnotify : s'.notify = s.notify) (hopen : s'.isOpen = s.isOpen)
    (hempty : s.coll.pipes = [] → s'.coll.pipes = []) (hpost : run.pc.pastAddPre = false)
    (hret : run.pc = .closed ∨ run.pc = .done → s.isOpen = false) :
    Seals (State.setClosing c run s') := by
  refine h.setClosing hclosing (by rw [hnotify]; exact fun _ => id) hempty (Or.inl hopen) ?_ ?_
    (by rw [hopen]; exact hret)
  all_goals
    intro hpc
    revert hpc hpost
    cases run.pc <;> simp [ClosePc.pastAddPre, ClosePc.pastAddPost]

theorem closeStep (h : Seals s) {c : Closer} (hok : ClosesEmpty s (.close c)) :
    Seals (closeStep s c) := by
  have hupdate : ∀ ev ev', s.notify ev' = false →
      Function.update s.notify ev false ev' = false := fun ev ev' hev' => by
    by_cases hee : ev' = ev
    · rw [hee, Function.update_self]
    · rw [Function.update_of_ne hee]; exact hev'
  cases hpc : (s.closing c).pc with
  | locked =>
    simp only [Socket.closeStep, hpc]
    split
    · exact h.moveClosing rfl rfl rfl id rfl (by simp)
    · rename_i hopen
      exact h.moveClosing rfl rfl rfl id rfl fun _ => by simpa using hopen
  | pipesCleared =>
    simp only [Socket.closeStep, hpc]
    exact h.moveClosing rfl rfl rfl (fun _ => rfl) rfl (by simp)
  | unlocked =>
    simp only [Socket.closeStep, hpc]
    refine h.moveClosing rfl rfl rfl id ?_ ?_
    · simp only
      split <;> rfl
    · cases ho : s.isOpen <;> simp
  | entered =>
    have hself : Function.update s.notify .addPre false .addPre = false := Function.update_self ..
    simp only [Socket.closeStep, hpc]
    exact h.setClosing rfl (hupdate _) id (Or.inl rfl) (fun _ => hself)
      (by simp [ClosePc.pastAddPost]) (by simp)
  | noAddPre =>
    have hpre := hupdate .addPost .addPre (h.noAddPre c (by rw [hpc]; rfl))
    have hself : Function.update s.notify .addPost false .addPost = false := Function.update_self ..
    simp only [Socket.closeStep, hpc]
    exact h.setClosing rfl (hupdate _) id (Or.inl rfl) (fun _ => hpre) (fun _ => hself) (by simp)
  | noAddPost =>
    have hpre := hupdate .remPost .addPre (h.noAddPre c (by rw [hpc]; rfl))
    have hpost := hupdate .remPost .addPost (h.noAddPost c (by rw [hpc]; rfl))
    simp only [Socket.closeStep, hpc]
    exact h.setClosing rfl (hupdate _) id (Or.inl rfl) (fun _ => hpre) (fun _ => hpost) (by simp)
  | noRemPost =>
    have hsealed : Sealed s :=
      ⟨h.noAddPre c (by rw [hpc]; rfl), h.noAddPost c (by rw [hpc]; rfl), hok hpc⟩
    simp only [Socket.closeStep, hpc]
    exact h.setClosing rfl (fun _ => id) id (Or.inr ⟨rfl, hsealed⟩) (by simp [ClosePc.pastAddPre])
      (by simp [ClosePc.pastAddPost]) fun _ => rfl
  | closed =>
    have hclosed := h.returned c (Or.inl hpc)
    simp only [Socket.closeStep, hpc]
    split <;> exact h.moveClosing rfl rfl rfl id (by simp [ClosePc.pastAddPre]) fun _ => hclosed
  | done => simpa only [Socket.closeStep, hpc] using h
  | _ =>
    simp only [Socket.closeStep, hpc]
    exact h.moveClosing rfl rfl rfl id rfl (by simp)

/-- **Each step keeps the seal**, as long as the socket is closed when the
collection is empty. -/
theorem next (h : Seals s) {a : Act} (hok : ClosesEmpty s a) (hen : Enabled s a) :
    Seals (Socket.next cfg s a) := by
  cases a with
  | event p ev =>
    have hnotify : (Socket.next cfg s (.event p ev)).notify = s.notify := by
      simp only [Socket.next]
      split <;> rfl
    have hopen : (Socket.next cfg s (.event p ev)).isOpen = s.isOpen := by
      simp only [Socket.next]
      split <;> rfl
    have hclosing : (Socket.next cfg s (.event p ev)).closing = s.closing := by
      simp only [Socket.next]
      split <;> rfl
    exact ⟨by rw [hclosing, hnotify]; exact h.noAddPre,
      by rw [hclosing, hnotify]; exact h.noAddPost,
      by rw [hopen]; exact fun ho => (h.closed ho).event hen,
      by rw [hclosing, hopen]; exact h.returned⟩
  | check t =>
    simp only [Socket.next]
    split
    · exact h.of_same rfl rfl (PipeCollection.sameHandles_hadEvents _).pipes rfl
    · exact h.of_same rfl rfl rfl rfl
  | create t => simp only [Socket.next]; split <;> exact h.of_same rfl rfl rfl rfl
  | read t => simp only [Socket.next]; split <;> exact h.of_same rfl rfl rfl rfl
  | hook t =>
    simp only [Socket.next]
    split
    · have h' := @moveClosing _ s s h (.hook t) ⟨.locking, [], none⟩ rfl rfl rfl id rfl (by simp)
      exact h'.of_same rfl rfl rfl rfl
    · exact h.of_same rfl rfl rfl rfl
  | hookDone t =>
    have h' := @moveClosing _ s s h (.hook t) ⟨.idle, [], none⟩ rfl rfl rfl id rfl (by simp)
    exact h'.of_same rfl rfl rfl rfl
  | close c => exact h.closeStep hok
  | _ => exact h.of_same rfl rfl rfl rfl

end Seals

theorem seals_of_reachWhen (h : (socket cfg).ReachWhen ClosesEmpty s) : Seals s :=
  h.invariant
    ⟨fun _ hc => Bool.noConfusion hc, fun _ hc => Bool.noConfusion hc,
      fun ho => Bool.noConfusion ho, fun _ hc => absurd hc (by simp [socket])⟩
    fun _ _ _ hs hok hen => hs.next hok hen

/-! ## What is left -/

/-- Nothing of the socket's pipes is left. -/
structure Drained (s : State σ) : Prop where
  coll : s.coll.pipes = []
  pipes : s.pipes = []
  removed : ∀ x ∈ s.made, s.pipeStatus x = .remPost

/-- Whoever returns from `close` leaves a closed socket, and once every sentinel
is processed nothing of a closed socket's pipes is left. -/
def LeavesNothing (s : State σ) : Prop :=
  (∀ c, (s.closing c).pc = .done → s.isOpen = false) ∧
    (s.isOpen = false → Processed s → Drained s)

/-- A socket that is closed when its collection is empty leaves nothing. -/
theorem leavesNothing_of_closesEmpty (h : (socket cfg).ReachWhen ClosesEmpty s) :
    LeavesNothing s := by
  have hs := seals_of_reachWhen h
  have hk := known_of_reach h.reach
  have hsh := shadowed_of_reach h.reach
  refine ⟨fun c hc => hs.returned c (Or.inr hc), fun hclosed ⟨h0, hs0, hrest⟩ => ?_⟩
  have hempty := (hs.closed hclosed).empty
  refine ⟨hempty, ?_, fun x hx => ?_⟩
  · by_cases hcleared : ∃ c, (s.closing c).pc = .pipesCleared
    · obtain ⟨c, hc⟩ := hcleared
      exact hsh.emptied c hc
    · rcases woken_or_blank h.reach with hw | hb
      · -- the dispatcher has looked since, and the list is the collection
        have hpc0 : (s.calls 0).pc ≠ .entering ∧ (s.calls 0).pc ≠ .checking ∧
            (s.calls 0).pc.dirty = false := by
          revert hrest
          cases (s.calls 0).pc <;> simp [CallPc.resting, CallPc.dirty]
        obtain ⟨hflag, hdirty⟩ := hw.settled h0 hs0 hpc0.1 hpc0.2.1 hpc0.2.2
        have hids := hsh.clean hflag hdirty fun c hc => hcleared ⟨c, hc⟩
        simpa [State.ids, PipeCollection.ids, hempty] using hids
      · exact hb.pipes
  · have hgone : s.coll.status x.handle.ref = .remPost :=
      hk.tracks.gone _ (hk.refs x hx) (by simp [PipeCollection.refs, hempty])
    unfold State.pipeStatus
    rw [hgone, ite_self]

/-! ## The events -/

/-- The pipe that an event lets into the collection, where it is heard. -/
def entering (cfg : Config σ) (s : State σ) : Act → Option ℕ
  | .event p .addPre =>
    if s.notify .addPre && !s.coll.refuses (cfg.nng p) p then some p else none
  | .event p .addPost => if s.notify .addPost then some p else none
  | _ => none

/-- The pipe's `REM_POST` is heard, or a run of `close` clears the collection. -/
def Leaves (s : State σ) (p : ℕ) : Act → Prop
  | .event q ev => q = p ∧ ev = .remPost ∧ s.notify .remPost = true
  | .close c => (s.closing c).pc = .pipesCleared
  | _ => False

/-- A run of `close` comes to `nng_socket_close`. -/
def ClosesSocket (s : State σ) : Act → Prop
  | .close c => (s.closing c).pc = .noRemPost
  | _ => False

instance (s : State σ) (p : ℕ) : ∀ a, Decidable (Leaves s p a)
  | .event .. => inferInstanceAs (Decidable (_ ∧ _ ∧ _))
  | .close _ => inferInstanceAs (Decidable (_ = _))
  | .push | .otherPush | .setOnNewPipe _ | .setCallback .. | .closePipe .. | .pipeCallback _
  | .enter _ | .acquire _ | .check _ | .snapshot _ | .create _ | .assign _ | .sample _ | .read _
  | .unlock _ | .status .. | .hook _ | .hookDone _ | .announce .. | .ret _ =>
    inferInstanceAs (Decidable False)

instance (s : State σ) : ∀ a, Decidable (ClosesSocket s a)
  | .close _ => inferInstanceAs (Decidable (_ = _))
  | .event .. | .push | .otherPush | .setOnNewPipe _ | .setCallback .. | .closePipe ..
  | .pipeCallback _ | .enter _ | .acquire _ | .check _ | .snapshot _ | .create _ | .assign _
  | .sample _ | .read _ | .unlock _ | .status .. | .hook _ | .hookDone _ | .announce ..
  | .ret _ => inferInstanceAs (Decidable False)

/-- Along the actions to come the pipe leaves before the socket is closed, if it is. -/
def LeavesInTime (cfg : Config σ) (p : ℕ) : State σ → List Act → Prop
  | _, [] => True
  | s, a :: as => Leaves s p a ∨ (¬ ClosesSocket s a ∧ LeavesInTime cfg p (next cfg s a) as)

/-- **Each pipe that comes in leaves in time**: after an `ADD_PRE` that lets it in,
and after an `ADD_POST`, its `REM_POST` is heard or `close` clears the collection,
before the socket is closed. -/
def EachLeaves (cfg : Config σ) : State σ → List Act → Prop
  | _, [] => True
  | s, a :: as =>
    (∀ p ∈ entering cfg s a, LeavesInTime cfg p (next cfg s a) as) ∧
      EachLeaves cfg (next cfg s a) as

instance decidableLeavesInTime (cfg : Config σ) (p : ℕ) :
    ∀ (s : State σ) (as : List Act), Decidable (LeavesInTime cfg p s as)
  | _, [] => inferInstanceAs (Decidable True)
  | s, a :: as =>
    have := decidableLeavesInTime cfg p (next cfg s a) as
    inferInstanceAs (Decidable (_ ∨ (_ ∧ _)))

instance decidableEachLeaves (cfg : Config σ) :
    ∀ (s : State σ) (as : List Act), Decidable (EachLeaves cfg s as)
  | _, [] => inferInstanceAs (Decidable True)
  | s, a :: as =>
    have := decidableEachLeaves cfg (next cfg s a) as
    inferInstanceAs (Decidable ((∀ p ∈ entering cfg s a, _) ∧ _))

theorem ids_closeStep {c : Closer} (hpc : (s.closing c).pc ≠ .pipesCleared) :
    (closeStep s c).coll.ids = s.coll.ids := by
  cases hat : (s.closing c).pc <;> simp only [closeStep, hat]
  case pipesCleared => exact absurd hat hpc
  case locked => split <;> rfl
  case closed => split <;> rfl
  all_goals rfl

/-- What is in the collection after a step has come in by it, or was in before and
has not left. -/
theorem mem_ids_next (hnodup : s.coll.ids.Nodup) {a : Act} {p : ℕ}
    (hp : p ∈ (next cfg s a).coll.ids) :
    p ∈ entering cfg s a ∨ (p ∈ s.coll.ids ∧ ¬ Leaves s p a) := by
  cases a with
  | event q ev =>
    cases hn : s.notify ev with
    | false =>
      rw [next_event_of_not_notify hn] at hp
      refine .inr ⟨hp, ?_⟩
      rintro ⟨-, rfl, hheard⟩
      rw [hn] at hheard
      cases hheard
    | true =>
      rw [next_event_of_notify hn] at hp
      have hids : p ∈ (s.coll.handleEvent (cfg.nng q) q ev).1.ids := hp
      rcases PipeCollection.mem_ids_handleEvent hids with hold | ⟨rfl, ⟨rfl, hlet⟩ | rfl⟩
      · refine .inr ⟨hold, ?_⟩
        rintro ⟨rfl, rfl, -⟩
        rw [PipeCollection.handleEvent_remPost.2.1] at hids
        exact hnodup.not_mem_erase hids
      · refine .inl ?_
        simp [entering, hn, hlet]
      · refine .inl ?_
        simp [entering, hn]
  | close c =>
    by_cases hpc : (s.closing c).pc = .pipesCleared
    · have hnone : (next cfg s (.close c)).coll.ids = [] := by
        simp only [next, closeStep, hpc]
        exact PipeCollection.ids_clear
      rw [hnone] at hp
      exact absurd hp List.not_mem_nil
    · have hsame : (next cfg s (.close c)).coll.ids = s.coll.ids := ids_closeStep hpc
      rw [hsame] at hp
      exact .inr ⟨hp, hpc⟩
  | check t =>
    refine .inr ⟨?_, id⟩
    simp only [next] at hp
    split at hp
    · exact PipeCollection.ids_hadEvents (c := s.coll) ▸ hp
    · exact hp
  | create t | read t | hook t =>
    refine .inr ⟨?_, id⟩
    simp only [next] at hp
    split at hp <;> exact hp
  | _ => exact .inr ⟨hp, id⟩

/-- **Where each pipe leaves in time**, those in the collection too, the socket is
closed when the collection is empty. -/
theorem closesEmpty_of_eachLeaves {as : List Act} (hr : (socket cfg).Reach s)
    (hv : (socket cfg).Valid s as) (hin : ∀ p ∈ s.coll.ids, LeavesInTime cfg p s as)
    (hall : EachLeaves cfg s as) : (socket cfg).Meets ClosesEmpty s as := by
  induction as generalizing s with
  | nil => trivial
  | cons a as ih =>
    refine ⟨?_, ih (hr.step trivial hv.1) hv.2 (fun p hp => ?_) hall.2⟩
    · cases a with
      | close c =>
        intro hpc
        by_contra hne
        obtain ⟨x, xs, hx⟩ := List.exists_cons_of_ne_nil hne
        have hmem : x.id ∈ s.coll.ids := by
          unfold PipeCollection.ids
          rw [hx]
          exact List.mem_cons_self
        rcases hin _ hmem with hleaves | ⟨hnot, -⟩
        · have hcleared : (s.closing c).pc = .pipesCleared := hleaves
          rw [hpc] at hcleared
          cases hcleared
        · exact hnot hpc
      | _ => trivial
    · rcases mem_ids_next (shadowed_of_reach hr).nodup hp with henter | ⟨hold, hstay⟩
      · exact hall.1 p henter
      · exact ((hin p hold).resolve_left hstay).2

/-- **Nothing stays live after `close`**, in any state of a run in which each pipe
that an event lets in leaves again before the socket is closed: by its `REM_POST`
heard while that is registered, or by the clear of a `close`. -/
theorem drained_of_close (cfg : Config σ) {as : List Act}
    (hv : (socket cfg).Valid (socket cfg).init as)
    (hall : EachLeaves cfg (socket cfg).init as) :
    (socket cfg).Throughout
      (fun s => (∀ c, (s.closing c).pc = .done → s.isOpen = false) ∧
        (s.isOpen = false → Processed s → Drained s)) (socket cfg).init as := by
  have hmeets : (socket cfg).Meets ClosesEmpty (socket cfg).init as :=
    closesEmpty_of_eachLeaves .init hv (fun p hp => absurd hp List.not_mem_nil) hall
  exact Machine.Meets.throughout (fun _ hs => leavesNothing_of_closesEmpty hs)
    (fun _ _ _ hs hok hen => Machine.ReachWhen.step hs hok hen) .init .init hv hmeets

/-- The steps of `close` by a user thread, up to where `ADD_PRE` is
unregistered. -/
def closeBegins : List Act := List.replicate 8 (.close (.user 0))

/-- Its last steps, with one pipe to tell. -/
def closeEnds : List Act := List.replicate 6 (.close (.user 0))

/-- The dispatcher's call that finds nothing in the collection. -/
def findsNothing : List Act :=
  [.enter 0, .acquire 0, .check 0, .snapshot 0, .assign 0, .unlock 0, .ret 0]

/-- A socket with one pipe is closed. The pipe's `ADD_POST` adds it again after the
clear, and its `REM_POST` is heard before that is unregistered. -/
def goneInTime : List Act :=
  seenAdding ++ closeBegins ++ [.event 1 .addPost, .push, .event 1 .remPost, .push] ++ closeEnds ++
    findsNothing ++ [.enter 0, .acquire 0, .check 0]

/-- Nothing of it is left. -/
theorem drained_of_close_goneInTime :
    let s := (socket plainListener).final (socket plainListener).init goneInTime
    (s.closing (.user 0)).pc = .done ∧ s.made.map Pipe.id = [1] ∧ Processed s ∧ Drained s := by
  have hprocessed : Processed ((socket plainListener).final (socket plainListener).init
      goneInTime) := ⟨by decide, by decide, by decide⟩
  have hv : (socket plainListener).Valid (socket plainListener).init goneInTime := by decide
  have hall := drained_of_close plainListener hv (by decide)
  exact ⟨by decide, by decide, hprocessed, hall.final.2 (by decide) hprocessed⟩

/-- **A pipe stays live.** It is cleared while it is being added, and its
`ADD_POST` adds it again before the notification is unregistered; `close`
returns, the dispatcher makes a `Pipe` of it, and nothing removes it. -/
theorem pipe_left_live :
    ¬ (∀ s, (socket plainListener).Reach s →
      (∀ c, (s.closing c).pc = .done → s.isOpen = false) ∧
        (s.isOpen = false → Processed s → Drained s)) := by
  intro hclaim
  have hd := (hclaim ((socket plainListener).final (socket plainListener).init
    (seenAdding ++ closeBegins ++ [.event 1 .addPost, .push] ++ closeEnds ++
      [.enter 0, .acquire 0, .check 0, .snapshot 0, .create 0, .assign 0, .unlock 0, .ret 0]))
    (Machine.reach_final (by decide))).2 (by decide) ⟨by decide, by decide, by decide⟩
  have hempty := hd.coll
  revert hempty
  decide

end Socket

end PyNng
