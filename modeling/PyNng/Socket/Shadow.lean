import PyNng.Socket.Filter
import PyNng.Socket.Status
import PyNng.Socket.UpdatePipes
/-!
# Socket — the pipe list follows the collection through `close`

`close` clears `_pipes` and then the collection, and pipe events may bring
pipes back into the collection until the notifications are gone. The list
goes on following the collection all the same: an empty list follows
anything, and after `clear` a pipe is added once, by its `ADD_PRE` or by
the `ADD_POST` of a pipe that was cleared. So a pipe the list has is in the
collection, with the very handle, or is gone for good; and a pipe that
drops out of the list is one whose handle was removed.
-/

namespace PyNng

namespace Socket

variable {σ : Type} {cfg : Config σ} {s s' : State σ}

/-- The handles `_pipes` will have once the call assigns it. -/
def Call.goal (call : Call) : List PipeHandle :=
  call.still.map Pipe.handle ++ (call.fresh.map Pipe.handle ++ call.handles)

theorem Call.map_id_goal (call : Call) : call.goal.map PipeHandle.id = call.target := by
  have hid : Pipe.id = PipeHandle.id ∘ Pipe.handle := rfl
  simp [Call.goal, Call.target, Call.newIds, hid]

theorem State.map_id_handles (s : State σ) :
    (s.pipes.map Pipe.handle).map PipeHandle.id = s.ids := by
  have hid : Pipe.id = PipeHandle.id ∘ Pipe.handle := rfl
  simp [State.ids, hid]

/-- The pipe has come and gone, and so has its handle. -/
structure Left (coll : PipeCollection σ) (stage : ℕ → Stage) (h : PipeHandle) : Prop where
  gone : stage h.id = .gone
  out : h.id ∉ coll.ids
  made : h.ref < coll.made
  removed : coll.status h.ref = .remPost

/-- **A list of handles that follows the collection.** -/
structure Follows (coll : PipeCollection σ) (stage : ℕ → Stage) (l : List PipeHandle) : Prop where
  nodup : (l.map PipeHandle.id).Nodup
  evolves : Evolves (l.map PipeHandle.id) coll.ids
  inside : ∀ h ∈ l, h ∈ coll.pipes ∨ Left coll stage h

/-- What holds of a call that is creating the new pipes. -/
structure Assembling (coll : PipeCollection σ) (stage : ℕ → Stage) (pipes : List Pipe)
    (call : Call) : Prop where
  prev : call.prev = pipes
  goal : Follows coll stage call.goal
  clean : coll.flag = false → call.target = coll.ids
  /-- A pipe the call has not taken over is removed. -/
  dropped : ∀ x ∈ call.prev, x ∉ call.still → coll.status x.handle.ref = .remPost

/-- **The pipe list follows the collection**, whatever `close` is doing. -/
structure Shadowed (s : State σ) : Prop where
  nodup : s.coll.ids.Nodup
  born : ∀ p ∈ s.coll.ids, s.stage p ≠ .unborn
  list : Follows s.coll s.stage (s.pipes.map Pipe.handle)
  /-- `close` clears the list before the collection. -/
  emptied : ∀ c, (s.closing c).pc = .pipesCleared → s.pipes = []
  assembling : ∀ t, (s.calls t).pc = .creating →
    Assembling s.coll s.stage s.pipes (s.calls t)
  clean : s.coll.flag = false → (∀ t, (s.calls t).pc.dirty = false) →
    (∀ c, (s.closing c).pc ≠ .pipesCleared) → s.ids = s.coll.ids

/-- An empty list follows any collection. -/
theorem follows_nil (coll : PipeCollection σ) (stage : ℕ → Stage) : Follows coll stage [] :=
  ⟨List.nodup_nil, ⟨[], coll.ids, rfl, List.Sublist.refl _, fun _ _ => List.not_mem_nil⟩,
    fun _ hh => absurd hh List.not_mem_nil⟩

/-! ## Steps that leave the list and the collection alone -/

/-- The two states have the same list and the same collection. -/
structure SamePlace (s s' : State σ) : Prop where
  stage : s'.stage = s.stage
  coll : s.coll.SameHandles s'.coll
  lowered : s'.coll.flag = false → s.coll.flag = false
  pipes : s'.pipes = s.pipes

theorem ids_of_pipes {c c' : PipeCollection σ} (h : c'.pipes = c.pipes) : c'.ids = c.ids := by
  unfold PipeCollection.ids
  rw [h]

theorem SamePlace.ids (h : SamePlace s s') : s'.coll.ids = s.coll.ids := ids_of_pipes h.coll.pipes

theorem SamePlace.refl (s : State σ) : SamePlace s s := ⟨rfl, ⟨rfl, rfl, rfl⟩, id, rfl⟩

theorem Left.of_same {h : PipeHandle} (hg : Left s.coll s.stage h) (hs : SamePlace s s') :
    Left s'.coll s'.stage h :=
  ⟨by rw [hs.stage]; exact hg.gone, by rw [hs.ids]; exact hg.out,
    by rw [hs.coll.made]; exact hg.made, by rw [hs.coll.status]; exact hg.removed⟩

theorem Follows.of_same {l : List PipeHandle} (h : Follows s.coll s.stage l)
    (hs : SamePlace s s') : Follows s'.coll s'.stage l :=
  ⟨h.nodup, by rw [hs.ids]; exact h.evolves, fun x hx => by
    rw [hs.coll.pipes]
    exact (h.inside x hx).imp_right fun hg => hg.of_same hs⟩

theorem Assembling.of_same {call call' : Call} (h : Assembling s.coll s.stage s.pipes call)
    (hs : SamePlace s s') (hprev : call'.prev = call.prev) (hstill : call'.still = call.still)
    (hgoal : call'.goal = call.goal) : Assembling s'.coll s'.stage s'.pipes call' where
  prev := by rw [hprev, hs.pipes]; exact h.prev
  goal := by rw [hgoal]; exact h.goal.of_same hs
  clean := fun hflag => by
    rw [← Call.map_id_goal, hgoal, Call.map_id_goal, hs.ids]
    exact h.clean (hs.lowered hflag)
  dropped := by rw [hprev, hstill, hs.coll.status]; exact h.dropped

/-- A pipe whose handle the collection has is taken over. -/
theorem Assembling.mem_still {coll : PipeCollection σ} {stage : ℕ → Stage} {pipes : List Pipe}
    {call : Call} (h : Assembling coll stage pipes call) (ht : coll.Tracks) {x : Pipe}
    (hx : x ∈ pipes) (hin : x.handle ∈ coll.pipes) : x ∈ call.still := by
  by_contra hout
  exact ht.ne_remPost hin (h.dropped x (by rw [h.prev]; exact hx) hout)

namespace Shadowed

theorem of_same (h : Shadowed s) (hs : SamePlace s s') (hcalls : s'.calls = s.calls)
    (hclosing : s'.closing = s.closing) : Shadowed s' where
  nodup := by rw [hs.ids]; exact h.nodup
  born := by rw [hs.ids, hs.stage]; exact h.born
  list := by rw [hs.pipes]; exact h.list.of_same hs
  emptied := by rw [hclosing, hs.pipes]; exact h.emptied
  assembling := fun t ht => by
    rw [hcalls] at ht ⊢
    exact (h.assembling t ht).of_same hs rfl rfl rfl
  clean := by
    rw [hcalls, hclosing, State.ids, hs.pipes, hs.ids]
    exact fun hflag => h.clean (hs.lowered hflag)

/-- A call moves that owes the list nothing, or owes it still. -/
theorem setCall (h : Shadowed s) {t : ℕ} {call : Call} (hs : SamePlace s s')
    (hcalls : s'.calls = s.calls) (hclosing : s'.closing = s.closing)
    (hdirty : (s.calls t).pc.dirty = true → call.pc.dirty = true)
    (hcall : call.pc = .creating → Assembling s.coll s.stage s.pipes call) :
    Shadowed (State.setCall t call s') := by
  have h' := h.of_same hs hcalls hclosing
  refine ⟨h'.nodup, h'.born, h'.list, h'.emptied, fun u hu => ?_, fun hflag hd hc => ?_⟩
  · by_cases hut : u = t
    · subst hut
      simp only [State.setCall, Function.update_self] at hu ⊢
      exact (hcall hu).of_same hs rfl rfl rfl
    · simp only [State.setCall, Function.update_of_ne hut] at hu ⊢
      exact h'.assembling u hu
  · refine h'.clean hflag (fun u => ?_) hc
    by_cases hut : u = t
    · subst hut
      have hd' : call.pc.dirty = false := by simpa [State.setCall] using hd u
      rw [hcalls]
      by_contra hu
      rw [hdirty (by simpa using hu)] at hd'
      cases hd'
    · simpa [State.setCall, hut] using hd u

/-- A call moves outside the stretch from the flag to the assignment. -/
theorem moveCall (h : Shadowed s) {t : ℕ} {call : Call} (hs : SamePlace s s')
    (hcalls : s'.calls = s.calls) (hclosing : s'.closing = s.closing)
    (hclean : (s.calls t).pc.dirty = false) (hcall : call.pc ≠ .creating) :
    Shadowed (State.setCall t call s') :=
  h.setCall hs hcalls hclosing (fun hd => by rw [hclean] at hd; cases hd) fun hpc =>
    absurd hpc hcall

/-- A run of `close` moves, not to or from the moment between its two clears. -/
theorem setClosing (h : Shadowed s) {c : Closer} {run : CloseRun} (hs : SamePlace s s')
    (hcalls : s'.calls = s.calls) (hclosing : s'.closing = s.closing)
    (hpc : (s.closing c).pc ≠ .pipesCleared) (hrun : run.pc ≠ .pipesCleared) :
    Shadowed (State.setClosing c run s') := by
  have h' := h.of_same hs hcalls hclosing
  refine ⟨h'.nodup, h'.born, h'.list, fun d hd => ?_, h'.assembling, fun hflag hd hc => ?_⟩
  · by_cases hdc : d = c
    · subst hdc
      simp only [State.setClosing, Function.update_self] at hd
      exact absurd hd hrun
    · simp only [State.setClosing, Function.update_of_ne hdc] at hd
      exact h'.emptied d hd
  · refine h'.clean hflag hd fun d => ?_
    by_cases hdc : d = c
    · subst hdc; rw [hclosing]; exact hpc
    · simpa [State.setClosing, hdc] using hc d

end Shadowed

/-! ## Steps that spare the pipes -/

/-- The steps that touch neither the list nor the collection, and move no
run of `close`. -/
def Act.sparesPipes : Act → Bool
  | .event .. | .check _ | .snapshot _ | .create _ | .assign _ | .hook _ | .hookDone _
  | .close _ => false
  | _ => true

/-- What such a step leaves as it was; a call that moves is outside the
stretch from the flag to the assignment. -/
structure SparesPipes (s s' : State σ) : Prop where
  stage : s'.stage = s.stage
  coll : s'.coll = s.coll
  pipes : s'.pipes = s.pipes
  closing : s'.closing = s.closing
  calls : ∀ t, s'.calls t = s.calls t ∨
    (s.calls t).pc.dirty = false ∧ (s'.calls t).pc.dirty = false

theorem SparesPipes.setCall {t : ℕ} {call : Call} (hcalls : s'.calls = s.calls)
    (hstage : s'.stage = s.stage) (hcoll : s'.coll = s.coll) (hpipes : s'.pipes = s.pipes)
    (hclosing : s'.closing = s.closing) (hpc : (s.calls t).pc.dirty = false)
    (hcall : call.pc.dirty = false) : SparesPipes s (State.setCall t call s') := by
  refine ⟨hstage, hcoll, hpipes, hclosing, fun u => ?_⟩
  by_cases hut : u = t
  · subst hut
    exact Or.inr ⟨hpc, by simpa [State.setCall] using hcall⟩
  · exact Or.inl (by simp [State.setCall, hut, hcalls])

theorem sparesPipes_next (cfg : Config σ) {a : Act} (hen : Enabled s a)
    (ha : a.sparesPipes = true) : SparesPipes s (next cfg s a) := by
  cases a with
  | event | check | snapshot | create | assign | hook | hookDone | close => cases ha
  | enter t =>
    refine .setCall rfl rfl rfl rfl rfl ?_ rfl
    rcases CanEnter.resting hen with hpc | hpc | hpc <;> rw [hpc] <;> rfl
  | acquire t => exact .setCall rfl rfl rfl rfl rfl (by rw [hen.1]; rfl) rfl
  | sample t =>
    have hpc : (s.calls t).pc.dirty = false := by rw [hen.1]; rfl
    exact .setCall rfl rfl rfl rfl rfl hpc hpc
  | read t =>
    have hpc : (s.calls t).pc.dirty = false := by rw [hen.1]; rfl
    simp only [next]
    split
    · exact .setCall rfl rfl rfl rfl rfl hpc hpc
    · exact ⟨rfl, rfl, rfl, rfl, fun _ => Or.inl rfl⟩
  | unlock t => exact .setCall rfl rfl rfl rfl rfl (by rw [hen.1]; rfl) rfl
  | status t o => exact .setCall rfl rfl rfl rfl rfl (by rw [hen.1]; rfl) (by cases o <;> rfl)
  | announce t o => exact .setCall rfl rfl rfl rfl rfl (by rw [hen.1]; rfl) (by cases o <;> rfl)
  | ret t => exact .setCall rfl rfl rfl rfl rfl (by rw [hen.1]; rfl) rfl
  | _ => exact ⟨rfl, rfl, rfl, rfl, fun _ => Or.inl rfl⟩

/-- A call that is creating was the same before. -/
theorem SparesPipes.creating (h : SparesPipes s s') {t : ℕ} (ht : (s'.calls t).pc = .creating) :
    s'.calls t = s.calls t := by
  rcases h.calls t with hsame | ⟨-, hclean⟩
  · exact hsame
  · rw [ht] at hclean
    cases hclean

theorem Shadowed.of_spares (h : Shadowed s) (hs : SparesPipes s s') : Shadowed s' := by
  have hplace : SamePlace s s' := ⟨hs.stage, by rw [hs.coll]; exact ⟨rfl, rfl, rfl⟩,
    by rw [hs.coll]; exact id, hs.pipes⟩
  refine ⟨by rw [hplace.ids]; exact h.nodup, by rw [hplace.ids, hs.stage]; exact h.born,
    by rw [hs.pipes]; exact h.list.of_same hplace, by rw [hs.closing, hs.pipes]; exact h.emptied,
    fun t ht => ?_, fun hflag hd hc => ?_⟩
  · have hsame := hs.creating ht
    rw [hsame] at ht ⊢
    exact (h.assembling t ht).of_same hplace rfl rfl rfl
  · rw [hs.closing] at hc
    rw [State.ids, hs.pipes, hplace.ids]
    refine h.clean (hplace.lowered hflag) (fun t => ?_) hc
    rcases hs.calls t with hsame | ⟨hclean, -⟩
    · rw [← hsame]; exact hd t
    · exact hclean

/-! ## Pipe events -/

/-- An event does not come for a pipe that is gone. -/
theorem stage_gone_event {p q : ℕ} {ev : PipeEv} (hen : Delivers s p ev) (hq : s.stage q = .gone) :
    q ≠ p := by
  rintro rfl
  cases ev <;> simp [Delivers, hq] at hen

theorem stage_gone_handle {p q : ℕ} {ev : PipeEv} (hen : Delivers s p ev)
    (hq : s.stage q = .gone) : (handle cfg s p ev).stage q = .gone := by
  simp only [handle, Function.update_of_ne (stage_gone_event hen hq)]
  exact hq

/-- **What an event makes of the collection**: the same pipes, one more that
was not there, or all but its own. -/
theorem Shadowed.event_cases (h : Shadowed s) {p : ℕ} {ev : PipeEv} (hen : Delivers s p ev) :
    (handle cfg s p ev).coll.pipes = s.coll.pipes ∨
      (∃ x : PipeHandle, x.id = p ∧ p ∉ s.coll.ids ∧
        (handle cfg s p ev).coll.pipes = s.coll.pipes ++ [x]) ∨
      ev = .remPost ∧
        (handle cfg s p ev).coll.pipes = s.coll.pipes.eraseP fun h => h.id = p := by
  rcases PipeCollection.handleEvent_handles s.coll (cfg.nng p) p ev with
    hs | ⟨hev, hs⟩ | ⟨x, hx, hs⟩ | ⟨hev, hs⟩
  · exact Or.inl hs.pipes
  · refine Or.inr (Or.inl ⟨_, rfl, ?_, hs.pipes⟩)
    rcases hev with rfl | ⟨-, hout⟩
    · exact fun hp => h.born p hp hen
    · exact hout
  · exact Or.inl hs.pipes
  · exact Or.inr (Or.inr ⟨hev, hs.pipes.trans PipeCollection.pipes_remove⟩)

theorem ids_of_pipes_append {c c' : PipeCollection σ} {x : PipeHandle}
    (h : c'.pipes = c.pipes ++ [x]) : c'.ids = c.ids ++ [x.id] := by
  unfold PipeCollection.ids
  rw [h, List.map_append]
  rfl

/-- A pipe that has left stays away, unless it is added again. -/
theorem Left.handle {x : PipeHandle} (hg : Left s.coll s.stage x) (hk : Known s) {p : ℕ}
    {ev : PipeEv} (hen : Delivers s p ev) (hout : x.id ∉ (handle cfg s p ev).coll.ids) :
    Left (handle cfg s p ev).coll (handle cfg s p ev).stage x := by
  have hadv := (@PipeCollection.Tracks.handleEvent _ _ (cfg.nng p) p ev hk.tracks).2
  exact ⟨stage_gone_handle hen hg.gone, hout, Nat.lt_of_lt_of_le hg.made hadv.made,
    hadv.remPost hg.made hg.removed⟩

/-- **A handle leaves the collection by the `REM_POST` of its pipe only.** -/
theorem Shadowed.kept_or_left (h : Shadowed s) (hk : Known s) {p : ℕ} {ev : PipeEv}
    (hen : Delivers s p ev) {y : PipeHandle} (hy : y ∈ s.coll.pipes) :
    y ∈ (handle cfg s p ev).coll.pipes ∨ ev = .remPost ∧ y.id = p ∧
      Left (handle cfg s p ev).coll (handle cfg s p ev).stage y := by
  rcases @Shadowed.event_cases _ cfg _ h p ev hen with hs | ⟨x, hx, hout, hs⟩ | ⟨rfl, hs⟩
  · exact Or.inl (by rw [hs]; exact hy)
  · exact Or.inl (by rw [hs]; exact List.mem_append_left _ hy)
  · by_cases hyp : y.id = p
    · -- the one handle of the pipe is let go
      obtain ⟨ht, ha⟩ := @PipeCollection.Tracks.handleEvent _ _ (cfg.nng p) p .remPost hk.tracks
      have hout : y.id ∉ (handle cfg s p .remPost).coll.ids := by
        rw [show (handle cfg s p .remPost).coll.ids = s.coll.ids.erase p from
          (@PipeCollection.handleEvent_remPost _ s.coll (cfg.nng p) p).2.1, hyp]
        exact h.nodup.not_mem_erase
      have href : y.ref < (handle cfg s p .remPost).coll.made :=
        Nat.lt_of_lt_of_le (hk.tracks.made _ (List.mem_map_of_mem hy)) ha.made
      have hgone : (handle cfg s p .remPost).stage y.id = .gone := by
        simp [Socket.handle, hyp, stageAfter]
      refine Or.inr ⟨rfl, hyp, hgone, hout, href, ht.gone _ href fun hr => ?_⟩
      obtain ⟨z, hz, hzy⟩ := List.mem_map.mp hr
      have hzin : z ∈ s.coll.pipes := List.mem_of_mem_eraseP
        (show z ∈ s.coll.pipes.eraseP (fun h => h.id = p) from hs ▸ hz)
      obtain rfl := List.inj_on_of_nodup_map hk.tracks.nodup hzin hy hzy
      exact hout (List.mem_map_of_mem hz)
    · rw [hs]
      exact Or.inl ((List.mem_eraseP_of_neg (by simpa using hyp)).mpr hy)

/-- **A list that follows the collection goes on doing so.** -/
theorem Follows.event {l : List PipeHandle} (h : Follows s.coll s.stage l) (hsh : Shadowed s)
    (hk : Known s) {p : ℕ} {ev : PipeEv} (hen : Delivers s p ev) :
    Follows (handle cfg s p ev).coll (handle cfg s p ev).stage l := by
  refine ⟨h.nodup, ?_, fun y hy => ?_⟩
  · rcases @Shadowed.event_cases _ cfg _ hsh p ev hen with hs | ⟨x, hx, hout, hs⟩ | ⟨rfl, hs⟩
    · rw [ids_of_pipes hs]; exact h.evolves
    · -- the pipe that comes in is in no list yet
      rw [ids_of_pipes_append hs, hx]
      refine h.evolves.append fun hp => ?_
      obtain ⟨y, hy, rfl⟩ := List.mem_map.mp hp
      rcases h.inside y hy with hin | hg
      · exact hout (List.mem_map_of_mem hin)
      · exact stage_gone_event hen hg.gone rfl
    · rw [show (handle cfg s p .remPost).coll.ids = s.coll.ids.erase p from
        (@PipeCollection.handleEvent_remPost _ s.coll (cfg.nng p) p).2.1]
      exact h.evolves.sublist List.erase_sublist
  · rcases h.inside y hy with hin | hg
    · exact (hsh.kept_or_left hk hen hin).imp_right fun hleft => hleft.2.2
    · refine Or.inr (hg.handle hk hen fun hin => ?_)
      rcases PipeCollection.mem_ids_handleEvent hin with hin | ⟨hyp, -⟩
      · exact hg.out hin
      · exact stage_gone_event hen hg.gone hyp

/-- Pipes that go unheard are gone all the same. -/
theorem Follows.of_stage {coll : PipeCollection σ} {stage stage' : ℕ → Stage}
    {l : List PipeHandle} (h : Follows coll stage l)
    (hgone : ∀ q, stage q = .gone → stage' q = .gone) : Follows coll stage' l :=
  ⟨h.nodup, h.evolves, fun x hx => (h.inside x hx).imp_right fun hg =>
    ⟨hgone _ hg.gone, hg.out, hg.made, hg.removed⟩⟩

/-- **An event.** -/
theorem Shadowed.event (h : Shadowed s) (hk : Known s) {p : ℕ} {ev : PipeEv}
    (hen : Delivers s p ev) : Shadowed (next cfg s (.event p ev)) := by
  have hborn : stageAfter s (cfg.nng p) p ev ≠ .unborn := stageAfter_ne_unborn hen
  have hstage := @born_event _ cfg _ _ _ hen
  cases hn : s.notify ev with
  | false =>
    rw [next_event_of_not_notify hn]
    have hgone : ∀ q, s.stage q = .gone →
        Function.update s.stage p (stageAfter s (cfg.nng p) p ev) q = .gone := fun q hq => by
      rwa [Function.update_of_ne (stage_gone_event hen hq)]
    exact ⟨h.nodup, fun q hq => hstage q (h.born q hq), h.list.of_stage hgone, h.emptied,
      fun t ht => ⟨(h.assembling t ht).prev, (h.assembling t ht).goal.of_stage hgone,
        (h.assembling t ht).clean, (h.assembling t ht).dropped⟩, h.clean⟩
  | true =>
    rw [next_event_of_notify hn]
    have hadv := (@PipeCollection.Tracks.handleEvent _ _ (cfg.nng p) p ev hk.tracks).2
    refine ⟨?_, fun q hq => ?_, h.list.event h hk hen, h.emptied,
      fun t ht => ⟨(h.assembling t ht).prev, (h.assembling t ht).goal.event h hk hen,
        fun hflag => ?_, fun x hx hout => ?_⟩,
      fun hflag hd hc => ?_⟩
    · rcases @Shadowed.event_cases _ cfg _ h p ev hen with hs | ⟨x, hx, hout, hs⟩ | ⟨rfl, hs⟩
      · rw [ids_of_pipes hs]; exact h.nodup
      · rw [ids_of_pipes_append hs, hx]
        exact List.nodup_append.mpr ⟨h.nodup, by simp, fun a ha b hb hab =>
          hout (List.mem_singleton.mp hb ▸ hab ▸ ha)⟩
      · rw [show (handle cfg s p .remPost).coll.ids = _ from
          (@PipeCollection.handleEvent_remPost _ s.coll (cfg.nng p) p).2.1]
        exact h.nodup.erase p
    · rcases PipeCollection.mem_ids_handleEvent hq with hq | ⟨rfl, -⟩
      · exact hstage q (h.born q hq)
      · simpa only [handle, Function.update_self] using hborn
    · obtain ⟨hfl, hids⟩ := flag_handleEvent hflag
      exact ((h.assembling t ht).clean hfl).trans hids.symm
    · exact hadv.remPost (hk.refs x (hk.mem_prev hx)) ((h.assembling t ht).dropped x hx hout)
    · obtain ⟨hfl, hids⟩ := flag_handleEvent hflag
      exact (h.clean hfl hd hc).trans hids.symm

/-! ## The locked section -/

/-- While a run of `close` is inside the locked section no call is. -/
theorem Locked.not_creating (hl : Locked s) {c : Closer} (hc : (s.closing c).pc.holds = true)
    (t : ℕ) : (s.calls t).pc ≠ .creating := by
  intro ht
  have hh : s.holds (.call t) = true := by simp [State.holds, ht, CallPc.holds]
  cases hl.eq_of_holds (h := .closer c) hc hh

/-- **The look at the flag.** -/
theorem Shadowed.check (h : Shadowed s) (hl : Locked s) {t : ℕ}
    (hpc : (s.calls t).pc = .checking) : Shadowed (next cfg s (.check t)) := by
  have hin : (s.calls t).pc.holds = true := by rw [hpc]; rfl
  have hids : s.coll.hadEvents.2.ids = s.coll.ids := PipeCollection.ids_hadEvents
  have hs := PipeCollection.sameHandles_hadEvents s.coll
  simp only [next]
  split
  · refine ⟨?_, ?_, ⟨h.list.nodup, ?_, ?_⟩, h.emptied, fun u hu => ?_, fun _ hd => ?_⟩
    · show s.coll.hadEvents.2.ids.Nodup
      rw [hids]; exact h.nodup
    · show ∀ p ∈ s.coll.hadEvents.2.ids, s.stage p ≠ .unborn
      rw [hids]; exact h.born
    · show Evolves _ s.coll.hadEvents.2.ids
      rw [hids]; exact h.list.evolves
    · intro x hx
      show x ∈ s.coll.hadEvents.2.pipes ∨ Left s.coll.hadEvents.2 s.stage x
      rw [hs.pipes]
      refine (h.list.inside x hx).imp_right fun hg => ⟨hg.gone, ?_, ?_, ?_⟩
      · rw [hids]; exact hg.out
      · rw [hs.made]; exact hg.made
      · rw [hs.status]; exact hg.removed
    · exact absurd hu (not_creating_setCall hl rfl hin (by simp) u)
    · exact absurd (hd t) (by simp [State.setCall, CallPc.dirty])
  · exact h.moveCall ⟨rfl, ⟨rfl, rfl, rfl⟩, id, rfl⟩ rfl rfl (by rw [hpc]; rfl) (by simp)

/-- **The snapshot.** The greedy match finds all that was kept, with the
handle it had, and what it does not find is removed. -/
theorem Shadowed.snapshot (h : Shadowed s) {t : ℕ} : Shadowed (next cfg s (.snapshot t)) := by
  have hev : Evolves (s.pipes.map Pipe.id) (s.coll.pipes.map PipeHandle.id) := by
    have hlist := h.list.evolves
    rw [State.map_id_handles] at hlist
    exact hlist
  obtain ⟨hmap, hsub, hnovel⟩ := greedyMatch_spec hev
  obtain ⟨hstill, hhandles⟩ := greedyMatch_subset Pipe.id PipeHandle.id s.pipes s.coll.pipes
  have hnd : (s.pipes.map Pipe.id).Nodup := by
    have hlist := h.list.nodup
    rw [State.map_id_handles] at hlist
    exact hlist
  -- a pipe whose id is in the collection is there with its own handle
  have hthere : ∀ x ∈ s.pipes, x.id ∈ s.coll.ids → x.handle ∈ s.coll.pipes := fun x hx hid => by
    rcases h.list.inside x.handle (List.mem_map_of_mem hx) with hin | hg
    · exact hin
    · exact absurd hid hg.out
  refine h.setCall (.refl s) rfl rfl (fun _ => rfl) fun _ => ?_
  have htarget : ∀ call : Call, call.still = (greedyMatch Pipe.id PipeHandle.id s.pipes
      s.coll.pipes).1 → call.fresh = [] → call.handles = (greedyMatch Pipe.id PipeHandle.id s.pipes
      s.coll.pipes).2 → call.target = s.coll.ids := fun call h1 h2 h3 => by
    simp only [Call.target, Call.newIds, h1, h2, h3, List.map_nil, List.nil_append]
    exact hmap
  refine ⟨rfl, ⟨?_, ?_, fun x hx => ?_⟩, fun _ => htarget _ rfl rfl rfl, fun x hx hout => ?_⟩
  · rw [Call.map_id_goal, htarget _ rfl rfl rfl]
    exact h.nodup
  · rw [Call.map_id_goal, htarget _ rfl rfl rfl]
    exact Evolves.refl _
  · refine Or.inl ?_
    simp only [Call.goal, List.map_nil, List.nil_append, List.mem_append, List.mem_map] at hx
    rcases hx with ⟨y, hy, rfl⟩ | hx
    · refine hthere y (hstill y hy) ?_
      show y.id ∈ s.coll.pipes.map PipeHandle.id
      rw [← hmap]
      exact List.mem_append_left _ (List.mem_map_of_mem hy)
    · exact hhandles x hx
  · -- its id is not in the collection, so neither is its handle
    have hx : x ∈ s.pipes := hx
    have hid : x.id ∉ s.coll.pipes.map PipeHandle.id := by
      rw [← hmap]
      intro hid
      rcases List.mem_append.mp hid with hid | hid
      · obtain ⟨y, hy, hyx⟩ := List.mem_map.mp hid
        exact hout (List.inj_on_of_nodup_map hnd (hstill y hy) hx hyx ▸ hy)
      · exact hnovel _ hid (List.mem_map_of_mem hx)
    rcases h.list.inside x.handle (List.mem_map_of_mem hx) with hin | hg
    · exact absurd (List.mem_map_of_mem hin) hid
    · exact hg.removed

/-- **A pipe is made** of a handle: where the list is going is the same. -/
theorem Shadowed.create (h : Shadowed s) {t : ℕ} (hpc : (s.calls t).pc = .creating) :
    Shadowed (next cfg s (.create t)) := by
  cases hh : (s.calls t).handles with
  | nil => simpa only [next, hh] using h
  | cons x xs =>
    simp only [next, hh]
    refine h.setCall ⟨rfl, ⟨rfl, rfl, rfl⟩, id, rfl⟩ rfl rfl (fun hd => hd) fun _ => ?_
    exact (h.assembling t hpc).of_same (.refl s) rfl rfl (by simp [Call.goal, hh])

/-- **The assignment.** The list gets where the call was going. -/
theorem Shadowed.assign (h : Shadowed s) (hl : Locked s) {t : ℕ}
    (hpc : (s.calls t).pc = .creating) (hdone : (s.calls t).handles = []) :
    Shadowed (next cfg s (.assign t)) := by
  have hin : (s.calls t).pc.holds = true := by rw [hpc]; rfl
  have hgoal : ((s.calls t).still ++ (s.calls t).fresh).map Pipe.handle = (s.calls t).goal := by
    simp [Call.goal, hdone]
  have hids : (next cfg s (.assign t)).ids = (s.calls t).target := by
    simp [next, State.ids, State.setCall, Call.target, Call.newIds, hdone]
  refine ⟨h.nodup, h.born, ?_, fun c hc => ?_, fun u hu => ?_, fun hflag _ _ => ?_⟩
  · show Follows s.coll s.stage (((s.calls t).still ++ (s.calls t).fresh).map Pipe.handle)
    rw [hgoal]
    exact (h.assembling t hpc).goal
  · have hc : (s.closing c).pc = .pipesCleared := hc
    exact absurd hpc (hl.not_creating (by rw [hc]; rfl) t)
  · exact absurd hu (not_creating_setCall hl rfl hin (by simp) u)
  · rw [hids]
    exact (h.assembling t hpc).clean hflag

/-- **The clears**: the list is emptied first, and the collection next. -/
theorem Shadowed.closeStep (h : Shadowed s) (hl : Locked s) (c : Closer) :
    Shadowed (closeStep s c) := by
  have halone : (s.closing c).pc.holds = true → ∀ t, (s.calls t).pc ≠ .creating := fun hc =>
    hl.not_creating hc
  cases hpc : (s.closing c).pc with
  | locked =>
    simp only [Socket.closeStep, hpc]
    split
    · refine ⟨h.nodup, h.born, follows_nil _ _, fun _ _ => rfl, fun t ht => ?_, fun _ _ hc => ?_⟩
      · exact absurd ht (halone (by rw [hpc]; rfl) t)
      · exact absurd (hc c) (by simp [State.setClosing])
    · exact h.setClosing ⟨rfl, ⟨rfl, rfl, rfl⟩, id, rfl⟩ rfl rfl (by simp [hpc]) (by simp)
  | pipesCleared =>
    have hnone := h.emptied c hpc
    simp only [Socket.closeStep, hpc]
    refine ⟨List.nodup_nil, fun _ hp => absurd hp List.not_mem_nil, ?_, fun _ _ => hnone,
      fun t ht => ?_, fun hflag => ?_⟩
    · show Follows s.coll.clear s.stage (s.pipes.map Pipe.handle)
      rw [hnone]
      exact follows_nil _ _
    · exact absurd ht (halone (by rw [hpc]; rfl) t)
    · exact absurd hflag (by simp [State.setClosing, PipeCollection.clear])
  | unlocked =>
    simp only [Socket.closeStep, hpc]
    refine h.setClosing (.refl s) rfl rfl (by simp [hpc]) ?_
    simp only
    split <;> simp
  | closed =>
    simp only [Socket.closeStep, hpc]
    split
    · exact h.setClosing (.refl s) rfl rfl (by simp [hpc]) (by simp)
    · exact h.setClosing (.refl s) rfl rfl (by simp [hpc]) (by simp)
    · exact h.setClosing ⟨rfl, ⟨rfl, rfl, rfl⟩, id, rfl⟩ rfl rfl (by simp [hpc]) (by simp)
  | done => simpa only [Socket.closeStep, hpc] using h
  | _ =>
    simp only [Socket.closeStep, hpc]
    exact h.setClosing ⟨rfl, ⟨rfl, rfl, rfl⟩, id, rfl⟩ rfl rfl (by simp [hpc]) (by simp)

/-! ## Every step -/

/-- **Each step keeps the list behind the collection.** -/
theorem Shadowed.next (h : Shadowed s) (hk : Known s) (hl : Locked s) (hh : HooksIdle s) {a : Act}
    (hen : Enabled s a) : Shadowed (Socket.next cfg s a) := by
  cases a with
  | event p ev => exact h.event hk hen
  | check t => exact h.check hl hen
  | snapshot t => exact h.snapshot
  | create t => exact h.create hen.1
  | assign t => exact h.assign hl hen.1 hen.2
  | close c => exact h.closeStep hl c
  | hook t =>
    simp only [Socket.next]
    split
    · -- a hook that begins had no run of `close` before it
      have hidle := hh t (by simp [hen.1])
      have h' := @Shadowed.setClosing _ s s h (.hook t) ⟨.locking, [], none⟩ (.refl s) rfl rfl
        (by simp [hidle]) (by simp)
      exact h'.moveCall (.refl _) rfl rfl (by simp [State.setClosing, hen.1, CallPc.dirty])
        (by simp)
    · exact h.moveCall (.refl s) rfl rfl (by rw [hen.1]; rfl) (by simp [hen.1])
  | hookDone t =>
    have h' := @Shadowed.setClosing _ s s h (.hook t) ⟨.idle, [], none⟩ (.refl s) rfl rfl
      (by simp [hen.2]) (by simp)
    exact h'.moveCall (.refl _) rfl rfl (by simp [State.setClosing, hen.1, CallPc.dirty]) (by simp)
  | _ => exact h.of_spares (sparesPipes_next cfg hen rfl)

/-- **The list follows the collection** in every reachable state. -/
theorem shadowed_of_reach (h : (socket cfg).Reach s) : Shadowed s :=
  h.invariant
    ⟨List.nodup_nil, fun _ hp => absurd hp List.not_mem_nil, follows_nil _ _, fun _ _ => rfl,
      fun _ ht => absurd ht (by simp [socket, Call.start]), fun _ _ _ => rfl⟩
    fun _ _ hr hs _ hen =>
      hs.next (known_of_reach hr) (locked_of_reach hr) (hooksIdle_of_reach hr) hen

end Socket

end PyNng
