import PyNng.Message.Pipe.Model
import PyNng.Socket.Present
/-!
# Message — what `_PIPE_REGISTRY` has

The registry has an entry for a pipe's id only under that id, of the object
made last, and has it while the object is listed: the list keeps it alive,
and no pipe of the same id is made meanwhile.
-/

namespace PyNng

namespace MessagePipe

open Socket (Arrived Accounted Known Paced Locked Shadowed HooksIdle PresentSince droppedAfter
  known_of_reach paced_of_reach locked_of_reach shadowed_of_reach hooksIdle_of_reach)

variable {σ : Type} {cfg : Config σ} {s : State σ}

/-- Whatever the reads do, the socket takes a step of its own or none. -/
theorem sock_next {a : Act} (hen : Enabled cfg s a) :
    (next cfg s a).sock = s.sock ∨
      ∃ b, Socket.Enabled s.sock b ∧ (next cfg s a).sock = Socket.next cfg.socket s.sock b := by
  cases a with
  | sock b => exact Or.inr ⟨b, hen.1, rfl⟩
  | start n msg =>
    refine Or.inl ?_
    cases msg with
    | none => rfl
    | some p => simp only [next]; split <;> rfl
  | look n =>
    cases hpc : s.reads n with
    | unlocked p =>
      refine Or.inl ?_
      simp only [next, hpc]
      split <;> rfl
    | updating p =>
      refine Or.inl ?_
      simp only [next, hpc]
      rfl
    | missed p =>
      simp only [Enabled, CanLook, hpc] at hen
      simp only [next, hpc]
      split
      · rename_i hfound
        exact Or.inr ⟨.enter (n + 1), hen hfound, rfl⟩
      · exact Or.inl rfl
    | _ => exact Or.inl (by simp only [next, hpc])
  | _ => exact Or.inl rfl

theorem sock_reach (h : (pipeReads cfg).Reach s) :
    (Socket.socket cfg.socket).Reach s.sock := by
  induction h with
  | init => exact .init
  | @step s a _ _ hen ih =>
    rcases sock_next hen with hsock | ⟨b, hb, hsock⟩
    · rw [show ((pipeReads cfg).next s a).sock = s.sock from hsock]
      exact ih
    · rw [show ((pipeReads cfg).next s a).sock = _ from hsock]
      exact ih.step trivial hb

theorem Config.pipeId_eq (cfg : Config σ) {p q : ℕ} (hq : 0 < q)
    (h : cfg.pipeId p = cfg.pipeId q) : p = q := by
  rw [cfg.pipeId_pipe q hq] at h
  have hp : 0 < p := by
    rcases Nat.eq_zero_or_pos p with rfl | hp
    · have := cfg.pipeId_null
      omega
    · exact hp
  rw [cfg.pipeId_pipe p hp] at h
  omega

/-- **What the registry has**, and what the reads may rely on. -/
structure Registered (cfg : Config σ) (s : State σ) : Prop where
  account : Accounted s.sock s.dropped
  /-- The ids of pipes are positive. -/
  zero : s.sock.stage 0 = .unborn
  destroyed : ∀ p, s.destroyed p = true → s.sock.stage p ≠ .unborn
  entry : ∀ k x, s.registry k = some x → x ∈ s.sock.made ∧ k = cfg.pipeId x.id
  found : ∀ x, s.sock.Listed x → x.handle ∈ s.sock.coll.pipes →
    s.registry (cfg.pipeId x.id) = some x
  asked : ∀ n p, (s.reads n).asked = some p → 0 < p → Arrived s.sock p
  updating : ∀ n p, s.reads n = .updating p →
    0 < p ∧ PresentSince s.sock p (s.sock.calls (n + 1)).since

/-- A listed pipe was made. -/
theorem mem_made_of_listed {s : Socket.State σ} (hk : Known s) {x : Pipe} (hx : s.Listed x) :
    x ∈ s.made := by
  rcases hx with hx | ⟨t, -, hx⟩
  · exact hk.pipes x hx
  · exact hk.mem_fresh hx

namespace Registered

theorem id_pos (h : Registered cfg s) {x : Pipe} (hx : x ∈ s.sock.made) : 0 < x.id := by
  rcases Nat.eq_zero_or_pos x.id with h0 | hpos
  · exact absurd h.zero (by rw [← h0]; exact h.account.born x hx)
  · exact hpos

/-- **What is found under a pipe's id** is a `Pipe` of that pipe. -/
theorem id_eq (h : Registered cfg s) {p : ℕ} {x : Pipe}
    (hx : s.registry (cfg.pipeId p) = some x) : x ∈ s.sock.made ∧ 0 < p ∧ x.id = p := by
  obtain ⟨hmade, hkey⟩ := h.entry _ x hx
  have hpos := h.id_pos hmade
  have hid := cfg.pipeId_eq hpos hkey
  exact ⟨hmade, by omega, hid.symm⟩

/-- The read moves on. -/
theorem setRead (h : Registered cfg s) {n : ℕ} {pc : Pc}
    (hasked : ∀ p, pc.asked = some p → 0 < p → Arrived s.sock p)
    (hupd : ∀ p, pc = .updating p →
      0 < p ∧ PresentSince s.sock p (s.sock.calls (n + 1)).since) :
    Registered cfg (s.setRead n pc) := by
  refine ⟨h.account, h.zero, h.destroyed, h.entry, h.found, fun m p hm => ?_, fun m p hm => ?_⟩
  · by_cases hmn : m = n
    · subst hmn
      exact hasked p (by simpa [State.setRead] using hm)
    · exact h.asked m p (by simpa [State.setRead, hmn] using hm)
  · by_cases hmn : m = n
    · subst hmn
      exact hupd p (by simpa [State.setRead] using hm)
    · exact h.updating m p (by simpa [State.setRead, hmn] using hm)

/-- The user's references are no matter of the registry's. -/
theorem answer (h : Registered cfg s) (n p : ℕ) (pipe : Option Pipe) :
    Registered cfg (s.answer n p pipe) := by
  have hheld : ∀ held, Registered cfg { s with held } := fun _ =>
    ⟨h.account, h.zero, h.destroyed, h.entry, h.found, h.asked, h.updating⟩
  exact (hheld _).setRead nofun nofun

/-- **An object dies**, and no other's entry with it: a listed object is referred to. -/
theorem collect (h : Registered cfg s) {x : Pipe} (hreg : s.registry (cfg.pipeId x.id) = some x)
    (hx : ¬ Referenced s x) : Registered cfg (next cfg s (.collect x)) := by
  refine ⟨h.account, h.zero, h.destroyed, fun k y hk => ?_, fun y hy hyin => ?_, h.asked,
    h.updating⟩
  · by_cases hkx : k = cfg.pipeId x.id
    · simp [next, hkx] at hk
    · exact h.entry k y (by simpa [next, hkx] using hk)
  · have hfound := h.found y hy hyin
    have hkey : cfg.pipeId y.id ≠ cfg.pipeId x.id := by
      intro hkey
      rw [hkey, hreg] at hfound
      obtain rfl := Option.some.inj hfound
      refine hx (Or.inr ?_)
      rcases hy with hy | ⟨t, ht, hy⟩
      · exact Or.inl hy
      · have ht : (s.sock.calls t).pc = .creating := ht
        have hy : x ∈ (s.sock.calls t).fresh := hy
        exact Or.inr (Or.inl ⟨t, by rw [ht]; rfl, by simp [Socket.Call.pipes, hy]⟩)
    show Function.update s.registry _ none _ = some y
    rw [Function.update_of_ne hkey]
    exact hfound

/-! ## A step of the socket -/

/-- **The registry follows the list**: what is listed after the step was
listed before it and is not written over, or is what the step makes. -/
theorem found_stepSock (h : Registered cfg s) (hr : (Socket.socket cfg.socket).Reach s.sock)
    {a : Socket.Act} (hen : Socket.Enabled s.sock a)
    (haccount : Accounted (s.stepSock cfg a).sock (s.stepSock cfg a).dropped) {x : Pipe}
    (hx : (s.stepSock cfg a).sock.Listed x) (hxin : x.handle ∈ (s.stepSock cfg a).sock.coll.pipes) :
    s.registryAfter cfg a (cfg.pipeId x.id) = some x := by
  have hk := known_of_reach hr
  have hk' : Known (Socket.next cfg.socket s.sock a) := hk.next hen
  -- an object made before was listed before, and in the registry
  have hold : x ∈ s.sock.made → s.sock.Listed x ∧ x.handle ∈ s.sock.coll.pipes := fun hmade => by
    have hin := h.account.mem_of_advances hk hk'.tracks
      (Socket.Advances.next hk (paced_of_reach hr) hen).coll hmade hxin
    exact ⟨h.account.listed_of_next haccount hk hmade hin hx, hin⟩
  have hmade : x ∈ (Socket.next cfg.socket s.sock a).made := mem_made_of_listed hk' hx
  by_cases ha : ∃ t, a = .create t
  · obtain ⟨t, rfl⟩ := ha
    cases hh : (s.sock.calls t).handles with
    | nil =>
      simp only [Socket.next, hh] at hmade
      simp only [State.registryAfter, hh]
      exact h.found x (hold hmade).1 (hold hmade).2
    | cons y ys =>
      simp only [Socket.next, hh] at hmade
      simp only [State.registryAfter, hh]
      rcases List.mem_append.mp hmade with hmade | hnew
      · obtain ⟨hlisted, hin⟩ := hold hmade
        have hne := (shadowed_of_reach hr).handle_ne_of_listed hk (locked_of_reach hr) hlisted hin
          hen.1 (h := y) (by rw [hh]; exact List.mem_cons_self)
        rw [Function.update_of_ne fun hkey => hne (cfg.pipeId_eq (h.id_pos hmade) hkey.symm)]
        exact h.found x hlisted hin
      · obtain rfl := List.mem_singleton.mp hnew
        exact Function.update_self ..
  · have hsame : s.registryAfter cfg a = s.registry := by
      cases a with
      | create t => exact absurd ⟨t, rfl⟩ ha
      | _ => rfl
    rw [Socket.made_next cfg.socket fun t ht => ha ⟨t, ht⟩] at hmade
    rw [hsame]
    exact h.found x (hold hmade).1 (hold hmade).2

/-- Whatever the registry has after the step was made, and under its id. -/
theorem entry_stepSock (h : Registered cfg s) (hr : (Socket.socket cfg.socket).Reach s.sock)
    {a : Socket.Act} (hen : Socket.Enabled s.sock a) {k : ℤ} {x : Pipe}
    (hx : s.registryAfter cfg a k = some x) :
    x ∈ (Socket.next cfg.socket s.sock a).made ∧ k = cfg.pipeId x.id := by
  have hmade := (@Socket.Advances.next _ cfg.socket _ (known_of_reach hr) (paced_of_reach hr) _
    hen).made
  have hold : s.registry k = some x →
      x ∈ (Socket.next cfg.socket s.sock a).made ∧ k = cfg.pipeId x.id := fun hx =>
    ⟨hmade x (h.entry k x hx).1, (h.entry k x hx).2⟩
  by_cases ha : ∃ t, a = .create t
  · obtain ⟨t, rfl⟩ := ha
    cases hh : (s.sock.calls t).handles with
    | nil => exact hold (by simpa only [State.registryAfter, hh] using hx)
    | cons y ys =>
      simp only [State.registryAfter, hh] at hx
      by_cases hky : k = cfg.pipeId y.id
      · subst hky
        rw [Function.update_self] at hx
        obtain rfl := Option.some.inj hx
        exact ⟨by simp [Socket.next, hh, Socket.State.setCall], rfl⟩
      · exact hold (by rwa [Function.update_of_ne hky] at hx)
  · refine hold ?_
    cases a with
    | create t => exact absurd ⟨t, rfl⟩ ha
    | _ => exact hx

/-- **A step of the socket.** -/
theorem stepSock (h : Registered cfg s) (hr : (Socket.socket cfg.socket).Reach s.sock)
    {a : Socket.Act} (hen : Socket.Enabled s.sock a) (hord : Orderly s a) :
    Registered cfg (s.stepSock cfg a) := by
  have hr' : (Socket.socket cfg.socket).Reach (Socket.next cfg.socket s.sock a) :=
    hr.step trivial hen
  have haccount : Accounted (s.stepSock cfg a).sock (s.stepSock cfg a).dropped :=
    h.account.next (shadowed_of_reach hr) (known_of_reach hr) (locked_of_reach hr)
      (hooksIdle_of_reach hr) hen
  refine ⟨haccount, ?_, fun p hp => Socket.born_next hen (h.destroyed p hp),
    fun k x hx => h.entry_stepSock hr hen hx,
    fun x hx hxin => h.found_stepSock hr hen haccount hx hxin,
    fun n p hn hp => (h.asked n p hn hp).next hen, fun n p hn => ?_⟩
  · -- no event comes for the pipe `0`
    by_cases ha : ∃ p ev, a = .event p ev
    · obtain ⟨p, ev, rfl⟩ := ha
      have hp : 0 < p := by
        cases ev with
        | remPost => exact hord.1
        | _ => exact hord
      show (Socket.next cfg.socket s.sock (.event p ev)).stage 0 = .unborn
      rw [Socket.stage_event, Function.update_of_ne (Nat.ne_of_lt hp)]
      exact h.zero
    · show (Socket.next cfg.socket s.sock a).stage 0 = .unborn
      rw [Socket.stage_next cfg.socket fun p ev hev => ha ⟨p, ev, hev⟩]
      exact h.zero
  · -- a thread in `update_pipes` does not call it again
    replace hn : s.reads n = .updating p := hn
    obtain ⟨hp, hpresent⟩ := h.updating n p hn
    have hsince : ((Socket.next cfg.socket s.sock a).calls (n + 1)).since =
        (s.sock.calls (n + 1)).since := by
      refine Socket.since_next cfg.socket fun ha => ?_
      subst ha
      have hfree : (s.reads n).isUpdating = false := hord
      rw [hn] at hfree
      cases hfree
    refine ⟨hp, ?_⟩
    rw [show ((s.stepSock cfg a).sock.calls (n + 1)).since = _ from hsince]
    exact hpresent.next hr (h.asked n p (by rw [hn]; rfl) hp) hen

/-! ## Every step -/

/-- A read that runs `update_pipes` enters it with its pipe come. -/
theorem enter (h : Registered cfg s) (hr : (Socket.socket cfg.socket).Reach s.sock) {n p : ℕ}
    (hn : s.reads n = .missed p) (hp : 0 < p) (hen : Socket.CanEnter s.sock (n + 1)) :
    Registered cfg ((s.stepSock cfg (.enter (n + 1))).setRead n (.updating p)) := by
  have hen' : Socket.Enabled s.sock (.enter (n + 1)) := hen
  have hord : Orderly s (.enter (n + 1)) := by
    show (s.reads n).isUpdating = false
    rw [hn]
    rfl
  have harr : Arrived (Socket.next cfg.socket s.sock (.enter (n + 1))) p :=
    (h.asked n p (by rw [hn]; rfl) hp).next hen'
  refine (h.stepSock hr hen' hord).setRead (fun q hq _ => ?_) fun q hq => ?_
  · obtain rfl : p = q := Option.some.inj hq
    exact harr
  · obtain rfl : p = q := by simpa using hq
    have hr' : (Socket.socket cfg.socket).Reach
        ((Socket.socket cfg.socket).next s.sock (.enter (n + 1))) := hr.step trivial hen'
    have hpresent := Socket.presentSince_last hr' harr
    have hsince : ((s.stepSock cfg (.enter (n + 1))).sock.calls (n + 1)).since =
        s.sock.log.length - 1 := by
      simp [State.stepSock, Socket.next, Socket.State.setCall, Socket.Call.start]
    rw [hsince]
    exact ⟨hp, hpresent⟩

theorem next (h : Registered cfg s) (hr : (Socket.socket cfg.socket).Reach s.sock) {a : Act}
    (hen : Enabled cfg s a) : Registered cfg (next cfg s a) := by
  cases a with
  | sock a => exact h.stepSock hr hen.1 hen.2
  | destroy p =>
    refine ⟨h.account, h.zero, fun q hq => ?_, h.entry, h.found, h.asked, h.updating⟩
    by_cases hqp : q = p
    · subst hqp
      rcases hen.2 with hst | hst | hst <;>
      · show s.sock.stage q ≠ .unborn
        rw [hst]
        exact nofun
    · exact h.destroyed q (by simpa [MessagePipe.next, hqp] using hq)
  | hold x => exact ⟨h.account, h.zero, h.destroyed, h.entry, h.found, h.asked, h.updating⟩
  | release x => exact ⟨h.account, h.zero, h.destroyed, h.entry, h.found, h.asked, h.updating⟩
  | collect x => exact h.collect hen.1 hen.2
  | start n msg =>
    cases msg with
    | none => exact h.setRead nofun nofun
    | some p =>
      simp only [MessagePipe.next]
      split
      · exact h.answer n p none
      · refine h.setRead (fun q hq hpos => ?_) nofun
        obtain rfl : p = q := Option.some.inj hq
        exact hen.2 p rfl hpos
  | look n =>
    cases hpc : s.reads n with
    | unlocked p =>
      simp only [MessagePipe.next, hpc]
      split
      · exact h.answer n p _
      · refine h.setRead (fun q hq hpos => ?_) nofun
        obtain rfl : p = q := Option.some.inj hq
        exact h.asked n p (by rw [hpc]; rfl) hpos
    | missed p =>
      simp only [Enabled, CanLook, hpc] at hen
      simp only [MessagePipe.next, hpc]
      split
      · rename_i hfound
        have hp : 0 < p := by
          simp only [State.findsSocket, Bool.and_eq_true, decide_eq_true_eq] at hfound
          exact hfound.1
        exact h.enter hr hpc hp (hen hfound)
      · exact h.answer n p none
    | updating p =>
      simp only [MessagePipe.next, hpc]
      exact h.answer n p _
    | _ => simpa only [MessagePipe.next, hpc] using h
  | fail n => exact h.setRead nofun nofun

end Registered

/-- **The registry is as said** in every reachable state. -/
theorem registered_of_reach (h : (pipeReads cfg).Reach s) : Registered cfg s :=
  h.invariant
    { account :=
        { born := fun _ hx => absurd hx List.not_mem_nil
          inside := fun _ hx => absurd hx List.not_mem_nil
          handles := fun _ _ _ hh => absurd hh List.not_mem_nil
          still := fun _ _ _ hx => absurd hx List.not_mem_nil
          bound := Nat.le_refl _
          window := fun _ hc => Socket.ClosePc.noConfusion hc
          listed := fun _ hx => absurd hx List.not_mem_nil
          since := fun _ _ => Nat.zero_le _ }
      zero := rfl
      destroyed := fun _ hp => Bool.noConfusion hp
      entry := nofun
      found := fun x hx => by
        rcases hx with hx | ⟨t, -, hx⟩ <;> exact absurd hx List.not_mem_nil
      asked := nofun
      updating := nofun }
    fun _ _ hr hs _ hen => hs.next (sock_reach hr) hen

end MessagePipe

end PyNng
