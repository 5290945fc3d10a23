import PyNng.Socket.Mirror
/-!
# Socket — every pipe is announced once

A `Pipe` object belongs to the call that made it: until the call has
announced it, it is in that call's `new_pipes` and nowhere else. What can
lose an announcement is an exception that ends the call early, and that is
a `BaseException` of a status callback, which the `except Exception` around
the callbacks lets through.
-/

namespace PyNng

namespace Socket

variable {σ : Type} {cfg : Config σ} {s s' : State σ}

/-- **Objects belong to the call that made them.** -/
structure Owned (s : State σ) : Prop where
  made : ∀ t, ∀ x ∈ (s.calls t).fresh, x.obj < s.created
  announcedMade : ∀ x ∈ s.announced, x.obj < s.created
  nodup : ∀ t, (s.calls t).fresh.Nodup
  apart : ∀ t u, t ≠ u → ∀ x ∈ (s.calls t).fresh, x ∉ (s.calls u).fresh
  unannounced : ∀ t, ∀ x ∈ (s.calls t).fresh, x ∉ s.announced
  once : s.announced.Nodup

/-- Calls only drop objects. -/
theorem Owned.of_sublist (h : Owned s) (hcreated : s'.created = s.created)
    (hann : s'.announced = s.announced)
    (hfresh : ∀ t, (s'.calls t).fresh.Sublist (s.calls t).fresh) : Owned s' where
  made := fun t x hx => by rw [hcreated]; exact h.made t x ((hfresh t).subset hx)
  announcedMade := by rw [hann, hcreated]; exact h.announcedMade
  nodup := fun t => (h.nodup t).sublist (hfresh t)
  apart := fun t u htu x hx hxu =>
    h.apart t u htu x ((hfresh t).subset hx) ((hfresh u).subset hxu)
  unannounced := fun t x hx => by rw [hann]; exact h.unannounced t x ((hfresh t).subset hx)
  once := by rw [hann]; exact h.once

theorem Owned.setCall (h : Owned s) {t : ℕ} {call : Call} (hcreated : s'.created = s.created)
    (hann : s'.announced = s.announced) (hcalls : s'.calls = s.calls)
    (hfresh : call.fresh.Sublist (s.calls t).fresh) : Owned (State.setCall t call s') := by
  refine h.of_sublist hcreated hann fun u => ?_
  by_cases hut : u = t
  · subst hut; simpa [State.setCall] using hfresh
  · simp [State.setCall, hut, hcalls]

/-- A new object is nobody's yet. -/
theorem Owned.create (h : Owned s) (t : ℕ) : Owned (next cfg s (.create t)) := by
  cases hh : (s.calls t).handles with
  | nil => simpa only [next, hh] using h
  | cons hd tl =>
    have hnew : ∀ u, (⟨s.created, hd⟩ : Pipe) ∉ (s.calls u).fresh := fun u hx =>
      absurd (h.made u _ hx) (Nat.lt_irrefl _)
    have hcases : ∀ u x, x ∈ ((next cfg s (.create t)).calls u).fresh →
        x ∈ (s.calls u).fresh ∨ u = t ∧ x = ⟨s.created, hd⟩ := by
      intro u x hx
      by_cases hut : u = t
      · subst hut
        simp only [next, hh, State.setCall, Function.update_self, List.mem_append,
          List.mem_singleton] at hx
        exact hx.imp_right fun hx => ⟨rfl, hx⟩
      · simp only [next, hh, State.setCall, Function.update_of_ne hut] at hx
        exact Or.inl hx
    have hcreated : (next cfg s (.create t)).created = s.created + 1 := by
      simp only [next, hh]; rfl
    have hann : (next cfg s (.create t)).announced = s.announced := by
      simp only [next, hh]; rfl
    refine ⟨fun u x hx => ?_, fun x hx => ?_, fun u => ?_, fun u v huv x hxu hxv => ?_,
      fun u x hx => ?_, by rw [hann]; exact h.once⟩
    · rw [hcreated]
      rcases hcases u x hx with hx | ⟨-, rfl⟩
      · have := h.made u x hx; omega
      · simp
    · rw [hann] at hx
      have := h.announcedMade x hx
      omega
    · by_cases hut : u = t
      · subst hut
        simp only [next, hh, State.setCall, Function.update_self]
        exact List.nodup_append.mpr ⟨h.nodup u, by simp, fun a ha b hb hab => by
          rw [List.mem_singleton.mp hb] at hab
          subst hab
          exact hnew u ha⟩
      · simp only [next, hh, State.setCall, Function.update_of_ne hut]
        exact h.nodup u
    · -- only `t` has the new object, and no call had it before
      rcases hcases u x hxu with hu | ⟨hut, hx⟩
      · rcases hcases v x hxv with hv | ⟨-, hx⟩
        · exact h.apart u v huv x hu hv
        · rw [hx] at hu; exact hnew u hu
      · rcases hcases v x hxv with hv | ⟨hvt, -⟩
        · rw [hx] at hv; exact hnew v hv
        · exact huv (hut.trans hvt.symm)
    · rw [hann]
      rcases hcases u x hx with hx | ⟨-, rfl⟩
      · exact h.unannounced u x hx
      · exact fun hx => absurd (h.announcedMade _ hx) (Nat.lt_irrefl _)

/-- The head of `new_pipes` is announced. -/
theorem Owned.announce (h : Owned s) (t : ℕ) (o : PyOutcome) :
    Owned (next cfg s (.announce t o)) := by
  cases hf : (s.calls t).fresh with
  | nil =>
    refine h.setCall rfl ?_ rfl ?_
    · simp [hf]
    · exact List.tail_sublist _
  | cons x xs =>
    have hnd : x ∉ xs ∧ xs.Nodup := by
      have := h.nodup t
      rwa [hf, List.nodup_cons] at this
    have hsub : ∀ u, ((next cfg s (.announce t o)).calls u).fresh.Sublist (s.calls u).fresh := by
      intro u
      by_cases hut : u = t
      · subst hut
        simp only [next, State.setCall, Function.update_self]
        exact List.tail_sublist _
      · simp [next, State.setCall, hut]
    have hann : (next cfg s (.announce t o)).announced = s.announced ++ [x] := by
      simp [next, State.setCall, hf]
    have hx : ∀ u, x ∉ ((next cfg s (.announce t o)).calls u).fresh := by
      intro u hxu
      by_cases hut : u = t
      · subst hut
        simp only [next, State.setCall, Function.update_self, hf, List.tail_cons] at hxu
        exact hnd.1 hxu
      · exact h.apart u t hut x ((hsub u).subset hxu) (by rw [hf]; exact List.mem_cons_self)
    have hxt : x ∈ (s.calls t).fresh := by rw [hf]; exact List.mem_cons_self
    refine ⟨fun u y hy => h.made u y ((hsub u).subset hy), fun y hy => ?_,
      fun u => (h.nodup u).sublist (hsub u), fun u v huv y hyu hyv =>
        h.apart u v huv y ((hsub u).subset hyu) ((hsub v).subset hyv), fun u y hy hya => ?_, ?_⟩
    · rw [hann] at hy
      rcases List.mem_append.mp hy with hy | hy
      · exact h.announcedMade y hy
      · rw [List.mem_singleton.mp hy]; exact h.made t x hxt
    · rw [hann] at hya
      rcases List.mem_append.mp hya with hya | hya
      · exact h.unannounced u y ((hsub u).subset hy) hya
      · rw [List.mem_singleton.mp hya] at hy; exact hx u hy
    · rw [hann]
      exact List.nodup_append.mpr ⟨h.once, by simp, fun a ha b hb hab => by
        rw [List.mem_singleton.mp hb] at hab
        subst hab
        exact h.unannounced t a hxt ha⟩

theorem Owned.next (h : Owned s) {a : Act} : Owned (Socket.next cfg s a) := by
  have hsame : ∀ t, (s.calls t).fresh.Sublist (s.calls t).fresh := fun _ => List.Sublist.refl _
  cases a with
  | create t => exact h.create t
  | announce t o => exact h.announce t o
  | event p ev => simp only [Socket.next]; split <;> exact h.of_sublist rfl rfl hsame
  | enter t => exact h.setCall rfl rfl rfl (List.nil_sublist _)
  | acquire t => exact h.setCall rfl rfl rfl (hsame t)
  | check t => simp only [Socket.next]; split <;> exact h.setCall rfl rfl rfl (hsame t)
  | snapshot t => exact h.setCall rfl rfl rfl (List.nil_sublist _)
  | assign t => exact h.setCall rfl rfl rfl (hsame t)
  | sample t => exact h.setCall rfl rfl rfl (hsame t)
  | read t =>
    simp only [Socket.next]
    split
    · exact h.setCall rfl rfl rfl (hsame t)
    · exact h
  | unlock t => exact h.setCall rfl rfl rfl (hsame t)
  | status t o => exact h.setCall rfl rfl rfl (hsame t)
  | hook t => simp only [Socket.next]; split <;> exact h.setCall rfl rfl rfl (hsame t)
  | hookDone t => exact h.setCall rfl rfl rfl (hsame t)
  | ret t => exact h.setCall rfl rfl rfl (hsame t)
  | close c =>
    have hs := sparesCalls_closeStep s c
    exact h.of_sublist hs.created hs.announced fun t => by
      rw [show (Socket.next cfg s (.close c)).calls = s.calls from hs.calls]
  | _ => exact h.of_sublist rfl rfl hsame

theorem owned_of_reach (h : (socket cfg).Reach s) : Owned s :=
  h.invariant
    ⟨fun _ _ hx => absurd hx List.not_mem_nil, fun _ hx => absurd hx List.not_mem_nil,
      fun _ => List.nodup_nil, fun _ _ _ _ hx => absurd hx List.not_mem_nil,
      fun _ _ hx => absurd hx List.not_mem_nil, List.nodup_nil⟩
    fun _ _ _ hs _ _ => hs.next

/-! ## Nothing is left unannounced -/

/-- The call has assigned `_pipes` and is not over. -/
def CallPc.running : CallPc → Bool
  | .reading | .calling | .hooking => true
  | _ => false

/-- No status callback ends a call that has pipes to announce. -/
def SparesAnnouncements (s : State σ) : Act → Prop
  | .status t .raisesBase => (s.calls t).creationCb = true → (s.calls t).fresh = []
  | _ => True

/-- **Placed is announced, or about to be**: with the callback set all along
and never raising, every object placed was announced or is among those a
running call still has to announce. -/
structure Heralded (s : State σ) : Prop where
  callback : s.cbThroughout = true → s.onNewPipe = true
  placed : s.cbThroughout = true → s.cbRaised = false → ∀ x ∈ s.placed, x ∈ s.announced ∨
    ∃ t, (s.calls t).pc.running = true ∧ (s.calls t).creationCb = true ∧ x ∈ (s.calls t).fresh

/-- Running calls keep what they have to announce. -/
theorem Heralded.of_running (h : Heralded s)
    (hcb : s'.cbThroughout = true → s.cbThroughout = true ∧ s'.onNewPipe = true)
    (hraised : s'.cbRaised = s.cbRaised) (hplaced : s'.placed = s.placed)
    (hann : s'.announced = s.announced)
    (hcalls : ∀ t, (s.calls t).pc.running = true → (s.calls t).creationCb = true →
      (s.calls t).fresh ≠ [] → (s'.calls t).pc.running = true ∧ (s'.calls t).creationCb = true ∧
        (s'.calls t).fresh = (s.calls t).fresh) : Heralded s' := by
  refine ⟨fun hset => (hcb hset).2, fun hset hr x hx => ?_⟩
  rw [hplaced] at hx
  rw [hann]
  rcases h.placed (hcb hset).1 (by rw [← hraised]; exact hr) x hx with hx | ⟨t, hpc, hct, hx⟩
  · exact Or.inl hx
  · obtain ⟨hpc', hct', hf⟩ := hcalls t hpc hct (List.ne_nil_of_mem hx)
    exact Or.inr ⟨t, hpc', hct', by rw [hf]; exact hx⟩

theorem Heralded.setCall (h : Heralded s) {t : ℕ} {call : Call}
    (hcb : s'.cbThroughout = s.cbThroughout) (hnew : s'.onNewPipe = s.onNewPipe)
    (hraised : s'.cbRaised = s.cbRaised) (hplaced : s'.placed = s.placed)
    (hann : s'.announced = s.announced) (hcalls : s'.calls = s.calls)
    (hcall : (s.calls t).pc.running = true → (s.calls t).creationCb = true →
      (s.calls t).fresh ≠ [] → call.pc.running = true ∧ call.creationCb = true ∧
        call.fresh = (s.calls t).fresh) : Heralded (State.setCall t call s') := by
  refine h.of_running (fun hset => ⟨hcb ▸ hset, hnew.trans (h.callback (hcb ▸ hset))⟩) hraised
    hplaced hann fun u hpc hct hf => ?_
  by_cases hut : u = t
  · subst hut
    simp only [State.setCall, Function.update_self]
    exact hcall hpc hct hf
  · simp only [State.setCall, Function.update_of_ne hut, hcalls]
    exact ⟨hpc, hct, trivial⟩

theorem Heralded.assign (h : Heralded s) {t : ℕ} (hpc : (s.calls t).pc = .creating) :
    Heralded (next cfg s (.assign t)) := by
  refine ⟨h.callback, fun hset hr x hx => ?_⟩
  rcases List.mem_append.mp hx with hx | hx
  · rcases h.placed hset hr x hx with hx | ⟨u, hu, hcu, hx⟩
    · exact Or.inl hx
    · have hut : u ≠ t := by
        intro hut
        rw [hut, hpc] at hu
        cases hu
      exact Or.inr ⟨u, by simpa [next, State.setCall, hut] using ⟨hu, hcu, hx⟩⟩
  · exact Or.inr ⟨t, by simpa [next, State.setCall, CallPc.running] using ⟨h.callback hset, hx⟩⟩

theorem Heralded.announce (h : Heralded s) {t : ℕ} (o : PyOutcome)
    (hpc : (s.calls t).pc = .calling) : Heralded (next cfg s (.announce t o)) := by
  refine ⟨h.callback, fun hset hr x hplaced => ?_⟩
  obtain ⟨hraised, rfl⟩ : s.cbRaised = false ∧ o = .returns := by
    simpa [next, State.setCall] using hr
  rcases h.placed hset hraised x hplaced with hx | ⟨u, hu, hcu, hx⟩
  · exact Or.inl (List.mem_append_left _ hx)
  · by_cases hut : u = t
    · subst hut
      cases hf : (s.calls u).fresh with
      | nil => rw [hf] at hx; cases hx
      | cons y ys =>
        rw [hf] at hx
        rcases List.mem_cons.mp hx with rfl | hx
        · exact Or.inl (by simp [next, State.setCall, hf])
        · exact Or.inr ⟨u, by simp [next, State.setCall, hf, CallPc.running, hcu, hx]⟩
    · exact Or.inr ⟨u, by simpa [next, State.setCall, hut] using ⟨hu, hcu, hx⟩⟩

theorem Heralded.next (h : Heralded s) {a : Act} (hok : SparesAnnouncements s a)
    (hen : Enabled s a) : Heralded (Socket.next cfg s a) := by
  have hsame : ∀ t, (s.calls t).pc.running = true → (s.calls t).creationCb = true →
      (s.calls t).fresh ≠ [] → (s.calls t).pc.running = true ∧ (s.calls t).creationCb = true ∧
        (s.calls t).fresh = (s.calls t).fresh := fun _ hpc hct _ => ⟨hpc, hct, rfl⟩
  have hid : s.cbThroughout = true → s.cbThroughout = true ∧ s.onNewPipe = true := fun hset =>
    ⟨hset, h.callback hset⟩
  cases a with
  | assign t => exact h.assign hen.1
  | announce t o => exact h.announce o hen.1
  | setOnNewPipe set =>
    refine h.of_running (fun hset => ?_) rfl rfl rfl hsame
    simpa [Socket.next] using hset
  | event p ev => simp only [Socket.next]; split <;> exact h.of_running hid rfl rfl rfl hsame
  | enter t =>
    have hpc := CanEnter.resting hen
    refine h.setCall rfl rfl rfl rfl rfl rfl fun hrun => ?_
    rcases hpc with hpc | hpc | hpc <;> rw [hpc] at hrun <;> cases hrun
  | acquire t =>
    exact h.setCall rfl rfl rfl rfl rfl rfl fun hrun => by rw [hen.1] at hrun; cases hrun
  | check t =>
    have hpc : (s.calls t).pc = .checking := hen
    simp only [Socket.next]
    split <;> exact h.setCall rfl rfl rfl rfl rfl rfl fun hrun => by rw [hpc] at hrun; cases hrun
  | snapshot t =>
    have hpc : (s.calls t).pc = .snapshotting := hen
    exact h.setCall rfl rfl rfl rfl rfl rfl fun hrun => by rw [hpc] at hrun; cases hrun
  | create t =>
    simp only [Socket.next]
    split
    · exact h
    · exact h.setCall rfl rfl rfl rfl rfl rfl fun hrun => by rw [hen.1] at hrun; cases hrun
  | sample t => exact h.setCall rfl rfl rfl rfl rfl rfl fun hpc hct _ => ⟨hpc, hct, rfl⟩
  | read t =>
    simp only [Socket.next]
    split
    · exact h.setCall rfl rfl rfl rfl rfl rfl fun hpc hct _ => ⟨hpc, hct, rfl⟩
    · exact h
  | unlock t => exact h.setCall rfl rfl rfl rfl rfl rfl fun _ hct _ => ⟨rfl, hct, rfl⟩
  | status t o =>
    refine h.setCall rfl rfl rfl rfl rfl rfl fun _ hct hf => ⟨?_, hct, rfl⟩
    cases o with
    -- the one case in which the call ends with pipes to announce
    | raisesBase => exact absurd (hok hct) hf
    | _ => rfl
  | hook t =>
    simp only [Socket.next]
    split
    · exact h.setCall rfl rfl rfl rfl rfl rfl fun _ hct _ => ⟨rfl, hct, rfl⟩
    · exact h.setCall rfl rfl rfl rfl rfl rfl fun hpc hct _ => ⟨hpc, hct, rfl⟩
  | hookDone t => exact h.setCall rfl rfl rfl rfl rfl rfl fun _ hct _ => ⟨rfl, hct, rfl⟩
  | ret t => exact h.setCall rfl rfl rfl rfl rfl rfl fun _ hct hf => absurd (hen.2.2.2 hct) hf
  | close c =>
    cases hpc : (s.closing c).pc <;> simp only [Socket.next, closeStep, hpc]
    case locked =>
      split
      · exact h.of_running (fun hset => by cases hset) rfl rfl rfl hsame
      · exact h.of_running hid rfl rfl rfl hsame
    case closed => split <;> exact h.of_running hid rfl rfl rfl hsame
    all_goals exact h.of_running hid rfl rfl rfl hsame
  | _ => exact h.of_running hid rfl rfl rfl hsame

theorem heralded_of_reachWhen (h : (socket cfg).ReachWhen SparesAnnouncements s) : Heralded s :=
  h.invariant ⟨fun hset => hset, fun _ _ _ hx => absurd hx List.not_mem_nil⟩
    fun _ _ _ hs hok hen => hs.next hok hen

end Socket

end PyNng
