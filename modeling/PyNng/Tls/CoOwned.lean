import PyNng.Tls.Config
/-!
# Tls — the endpoint does not own its configuration

`set_tls` puts the reference into the handle of the call, and no move
takes it along: it stays behind in a local and goes with it. So a
configuration is owned exactly while its `TlsConfig` object exists, and
what the endpoint objects are promised holds as long as the program keeps
that object.
-/

namespace PyNng

namespace TlsOwners

variable {s : State} {k c : ℕ} {l : Loc} {p : Option ℕ}

/-! ## What is owned -/

/-- **The invariant.** -/
structure Inv (s : State) : Prop where
  config : ∀ k, s.ptrs.ref (.config k) = if s.config k = true then some k else none
  object : ∀ o, s.ptrs.ref (.tlsCfg (.object o)) = none
  handles : ∀ c i k, s.ptrs.ref (.tlsCfg (.local c i)) = some k →
    (s.call c).stage ≠ .idle ∧ (s.call c).tls = some k ∧ i ∈ (s.call c).locals
  call : ∀ c k, (s.call c).stage ≠ .idle → (s.call c).tls = some k → s.config k = true
  fresh : ∀ c, (s.call c).stage = .made → 0 ∈ (s.call c).locals
  calls : ∀ c, (s.call c).stage ≠ .idle → c ∈ s.calls
  made : ∀ k, s.config k = true → s.made k = true
  frees : ∀ k, s.frees k = if s.made k = true ∧ s.config k = false then 1 else 0
  objects : ∀ o, s.object o ≠ none → o ∈ s.objects

/-- **A configuration is owned while its `TlsConfig` object exists**, by whomever. -/
theorem Inv.owned_iff (hs : Inv s) : s.ptrs.Owned k ↔ s.config k = true := by
  rw [SharedPtrs.owned_iff]
  constructor
  · rintro ⟨l, hl⟩
    rcases l with k' | ⟨c, i⟩ | o
    · rw [hs.config k'] at hl
      split at hl
      · rename_i hk
        rw [← Option.some.inj hl]
        exact hk
      · simp at hl
    · obtain ⟨hstage, htls, -⟩ := hs.handles c i k hl
      exact hs.call c k hstage htls
    · rw [hs.object o] at hl
      simp at hl
  · intro hk
    exact ⟨.config k, by rw [hs.config k, if_pos hk]⟩

/-- Whatever a pointer does, the objects stay. -/
theorem State.point_eq (l : Loc) (p : Option ℕ) (s : State) :
    ∃ ptrs frees, s.point l p = { s with ptrs := ptrs, frees := frees } := by
  unfold State.point
  cases s.ptrs.ref l with
  | none => exact ⟨_, s.frees, rfl⟩
  | some k =>
    by_cases howned : (s.ptrs.set l p).Owned k
    · exact ⟨_, s.frees, if_pos howned⟩
    · exact ⟨_, _, if_neg howned⟩

/-- No reference is the last one but that of the `TlsConfig` object. -/
theorem point_of_owned (h : ∀ k, s.ptrs.ref l = some k → (s.ptrs.set l p).Owned k) :
    s.point l p = { s with ptrs := s.ptrs.set l p } := by
  unfold State.point
  cases hl : s.ptrs.ref l with
  | none => rfl
  | some k => exact if_pos (h k hl)

theorem Inv.owned_set (hs : Inv s) (hl : ∀ k, l ≠ .config k) (hk : s.ptrs.ref l = some k) :
    (s.ptrs.set l p).Owned k := by
  have hconfig := hs.owned_iff.mp (SharedPtrs.owned_of_ref hk)
  refine SharedPtrs.owned_of_ref (l := .config k) ?_
  rw [SharedPtrs.ref_set_of_ne (Ne.symm (hl k)), hs.config k, if_pos hconfig]

/-! ## Every step keeps it -/

/-- Steps that change neither a pointer nor a call. -/
theorem Inv.congr (hs : Inv s) {s' : State} (hptrs : s'.ptrs = s.ptrs)
    (hconfig : s'.config = s.config) (hmade : s'.made = s.made) (hfrees : s'.frees = s.frees)
    (hcall : s'.call = s.call) (hcalls : ∀ c ∈ s.calls, c ∈ s'.calls)
    (hobjects : ∀ o, s'.object o ≠ none → o ∈ s'.objects) : Inv s' where
  config := by
    intro k
    rw [hptrs, hconfig]
    exact hs.config k
  object := by
    intro o
    rw [hptrs]
    exact hs.object o
  handles := by
    intro c i k
    rw [hptrs, hcall]
    exact hs.handles c i k
  call := by
    intro c k
    rw [hcall, hconfig]
    exact hs.call c k
  fresh := by
    intro c
    rw [hcall]
    exact hs.fresh c
  calls := by
    intro c
    rw [hcall]
    exact fun hc => hcalls c (hs.calls c hc)
  made := by
    intro k
    rw [hconfig, hmade]
    exact hs.made k
  frees := by
    intro k
    rw [hfrees, hmade, hconfig]
    exact hs.frees k
  objects := hobjects

theorem Inv.handle (hs : Inv s) (h : Place → Option EndpointHandle) :
    Inv { s with handle := h } :=
  hs.congr rfl rfl rfl rfl rfl (fun _ hc => hc) hs.objects

/-- What holds of every call, and of what one of them becomes. -/
theorem State.forall_setCall {P : ℕ → Call → Prop} {x : Call} (hself : P c x)
    (hother : ∀ c, P c (s.call c)) (c' : ℕ) : P c' ((s.setCall c x).call c') := by
  unfold State.setCall
  dsimp only
  by_cases hc : c' = c
  · subst hc
    rw [Function.update_self]
    exact hself
  · rw [Function.update_of_ne hc]
    exact hother c'

/-- A call goes on: it keeps its `tls`, and those of its locals that hold a
reference. -/
theorem Inv.setCall (hs : Inv s) {x : Call}
    (htls : ∀ k, x.stage ≠ .idle → x.tls = some k → s.config k = true)
    (hhandles : ∀ i k, s.ptrs.ref (.tlsCfg (.local c i)) = some k →
      x.stage ≠ .idle ∧ x.tls = some k ∧ i ∈ x.locals)
    (hfresh : x.stage = .made → 0 ∈ x.locals)
    (hcalls : x.stage ≠ .idle → c ∈ s.calls) : Inv (s.setCall c x) where
  config := hs.config
  object := hs.object
  handles := State.forall_setCall
    (P := fun c y => ∀ i k, s.ptrs.ref (.tlsCfg (.local c i)) = some k →
      y.stage ≠ .idle ∧ y.tls = some k ∧ i ∈ y.locals) hhandles hs.handles
  call := State.forall_setCall
    (P := fun _ y => ∀ k, y.stage ≠ .idle → y.tls = some k → s.config k = true) htls hs.call
  fresh := State.forall_setCall
    (P := fun _ y => y.stage = .made → 0 ∈ y.locals) hfresh hs.fresh
  calls := State.forall_setCall (P := fun c y => y.stage ≠ .idle → c ∈ s.calls) hcalls hs.calls
  made := hs.made
  frees := hs.frees
  objects := hs.objects

/-- A call that is under way goes on, with the locals it has or more. -/
theorem Inv.setCall_under_way (hs : Inv s) {x : Call} (hstage : (s.call c).stage ≠ .idle)
    (htls : x.tls = (s.call c).tls) (hlocals : ∀ i ∈ (s.call c).locals, i ∈ x.locals)
    (hx : x.stage = .configured ∨ x.stage = .leaving) : Inv (s.setCall c x) := by
  have hidle : x.stage ≠ .idle := by
    rcases hx with h | h <;> rw [h] <;> simp
  have hmade : x.stage ≠ .made := by
    rcases hx with h | h <;> rw [h] <;> simp
  refine hs.setCall ?_ ?_ (fun h => absurd h hmade) fun _ => hs.calls c hstage
  · intro k _ hk
    rw [htls] at hk
    exact hs.call c k hstage hk
  · intro i k hk
    obtain ⟨-, hk', hi⟩ := hs.handles c i k hk
    exact ⟨hidle, htls.trans hk', hlocals i hi⟩

/-- **No move carries the reference.** -/
theorem State.moveConstruct_eq (src dst : Place) :
    ∃ h, s.moveConstruct src dst = { s with handle := h } := by
  unfold State.moveConstruct
  cases s.handle src with
  | none => exact ⟨s.handle, rfl⟩
  | some h => exact ⟨_, rfl⟩

theorem State.moveAssign_eq (src dst : Place) :
    ∃ h, s.moveAssign src dst = { s with handle := h } := by
  unfold State.moveAssign
  cases s.handle src with
  | none => exact ⟨s.handle, rfl⟩
  | some h =>
    cases s.handle dst with
    | none => exact ⟨s.handle, rfl⟩
    | some old =>
      by_cases heq : src = dst
      · exact ⟨s.handle, if_pos heq⟩
      · exact ⟨_, if_neg heq⟩

/-- `Dialer.create` makes an object, and what it moves is no reference. -/
theorem State.create_eq (c i o : ℕ) (s : State) :
    ∃ h, s.create c i o = ({ s with
      handle := h
      object := Function.update s.object o (some ⟨(s.call c).kind, (s.call c).tls⟩)
      objects := o :: s.objects } : State).setCall c { s.call c with stage := .leaving } := by
  unfold State.create
  obtain ⟨h, heq⟩ := State.moveAssign_eq (s := ({ s with
      object := Function.update s.object o (some ⟨(s.call c).kind, (s.call c).tls⟩)
      objects := o :: s.objects } : State).setHandle (.object o)
        (some { kind := (s.call c).kind })) (.local c i) (.object o)
  exact ⟨h, by rw [heq]; rfl⟩

/-- A `_tls_cfg` of a call is set or cleared: nothing is freed. -/
theorem Inv.point_tlsCfg (hs : Inv s) (q : Place) :
    s.point (.tlsCfg q) p = { s with ptrs := s.ptrs.set (.tlsCfg q) p } :=
  point_of_owned fun _ hk => hs.owned_set (by simp) hk

theorem Inv.alloc (hs : Inv s) (h : s.made k = false) : Inv (owners.next s (.alloc k)) where
  config := by
    intro k'
    show (s.ptrs.set (.config k) (some k)).ref (.config k') =
      if Function.update s.config k true k' = true then some k' else none
    by_cases hk : k' = k
    · subst hk
      rw [SharedPtrs.ref_set_self, Function.update_self, if_pos rfl]
    · rw [SharedPtrs.ref_set_of_ne (by simpa using hk), Function.update_of_ne hk]
      exact hs.config k'
  object := by
    intro o
    exact (SharedPtrs.ref_set_of_ne (by simp)).trans (hs.object o)
  handles := by
    intro c i k' hk'
    exact hs.handles c i k' ((SharedPtrs.ref_set_of_ne (by simp)).symm.trans hk')
  call := by
    intro c k' hstage htls
    show Function.update s.config k true k' = true
    by_cases hk : k' = k
    · rw [hk, Function.update_self]
    · rw [Function.update_of_ne hk]
      exact hs.call c k' hstage htls
  fresh := hs.fresh
  calls := hs.calls
  made := by
    intro k'
    show Function.update s.config k true k' = true → Function.update s.made k true k' = true
    by_cases hk : k' = k
    · intro _
      rw [hk, Function.update_self]
    · rw [Function.update_of_ne hk, Function.update_of_ne hk]
      exact hs.made k'
  frees := by
    intro k'
    show s.frees k' = if Function.update s.made k true k' = true ∧
      Function.update s.config k true k' = false then 1 else 0
    rw [hs.frees k']
    by_cases hk : k' = k
    · subst hk
      simp [h]
    · rw [Function.update_of_ne hk, Function.update_of_ne hk]
  objects := hs.objects

theorem Inv.begin (hs : Inv s) {kind : Kind} {tls : Option ℕ} {endpoint socket : ℕ}
    (hidle : (s.call c).stage = .idle) (htls : ∀ k ∈ tls, s.config k = true) :
    Inv (owners.next s (.begin c kind tls endpoint socket)) := by
  have hs' : Inv (({ s with calls := c :: s.calls } : State).setHandle (.local c 0)
      (some ⟨kind, ⟨endpoint⟩, some socket⟩)) :=
    hs.congr rfl rfl rfl rfl rfl (fun _ hc => List.mem_cons_of_mem c hc) hs.objects
  refine hs'.setCall ?_ ?_ (fun _ => List.mem_cons_self) fun _ => List.mem_cons_self
  · intro k _ hk
    exact htls k hk
  · intro i k hk
    exact absurd hidle (hs.handles c i k hk).1

theorem Inv.setTls (hs : Inv s) {rv : ℕ} (hstage : (s.call c).stage = .made) :
    Inv (owners.next s (.setTls c rv)) := by
  show Inv (s.setTls c rv)
  have hidle : (s.call c).stage ≠ .idle := by rw [hstage]; simp
  unfold State.setTls
  cases htls : (s.call c).tls with
  | none => exact hs
  | some k =>
    have hconfig : s.config k = true := hs.call c k hidle htls
    dsimp only
    rw [hs.point_tlsCfg, hs.config k, if_pos hconfig]
    have hs' : Inv { s with ptrs := s.ptrs.set (.tlsCfg (.local c 0)) (some k) } :=
      { hs with
        config := fun k' => (SharedPtrs.ref_set_of_ne (by simp)).trans (hs.config k')
        object := fun o => (SharedPtrs.ref_set_of_ne (by simp)).trans (hs.object o)
        handles := by
          intro c' i k' hk'
          dsimp only at hk' ⊢
          by_cases hl : Loc.tlsCfg (.local c' i) = .tlsCfg (.local c 0)
          · rw [hl, SharedPtrs.ref_set_self] at hk'
            obtain ⟨rfl, rfl⟩ : c' = c ∧ i = 0 := by simpa using hl
            rw [← Option.some.inj hk']
            exact ⟨hidle, htls, hs.fresh c' hstage⟩
          · rw [SharedPtrs.ref_set_of_ne hl] at hk'
            exact hs.handles c' i k' hk' }
    refine hs'.setCall_under_way hidle rfl (fun _ hi => hi) ?_
    by_cases hrv : rv = 0
    · exact .inl (if_pos hrv)
    · exact .inr (if_neg hrv)

theorem Inv.create (hs : Inv s) {i o : ℕ} (hstage : (s.call c).stage = .configured) :
    Inv (owners.next s (.create c i o)) := by
  obtain ⟨h, heq⟩ := State.create_eq c i o s
  show Inv (s.create c i o)
  rw [heq]
  have hidle : (s.call c).stage ≠ .idle := by rw [hstage]; simp
  have hs' : Inv { s with
      handle := h
      object := Function.update s.object o (some ⟨(s.call c).kind, (s.call c).tls⟩)
      objects := o :: s.objects } := by
    refine hs.congr rfl rfl rfl rfl rfl (fun _ hc => hc) ?_
    intro o' ho'
    show o' ∈ o :: s.objects
    by_cases h : o' = o
    · rw [h]
      exact List.mem_cons_self
    · refine List.mem_cons_of_mem o (hs.objects o' ?_)
      exact fun hnone => ho' ((Function.update_of_ne h _ _).trans hnone)
  exact hs'.setCall_under_way hidle rfl (fun _ hi => hi) (.inr rfl)

/-- A local that held a reference is not the last to do so. -/
theorem Inv.destroyLocal (hs : Inv s) (hstage : (s.call c).stage = .leaving) :
    Inv (owners.next s (.destroyLocal c)) := by
  show Inv (s.destroyLocal c)
  unfold State.destroyLocal
  cases hlocals : (s.call c).locals with
  | nil => exact hs
  | cons i rest =>
    have hidle : (s.call c).stage ≠ .idle := by rw [hstage]; simp
    have hs' : Inv (s.setHandle (.local c i) none) := hs.handle _
    dsimp only
    unfold State.destroyHandle
    rw [hs'.point_tlsCfg]
    have hs'' : Inv { s.setHandle (.local c i) none with
        ptrs := s.ptrs.set (.tlsCfg (.local c i)) none } :=
      { hs' with
        config := fun k' => (SharedPtrs.ref_set_of_ne (by simp)).trans (hs.config k')
        object := fun o => (SharedPtrs.ref_set_of_ne (by simp)).trans (hs.object o)
        handles := fun c' i' k hk => hs.handles c' i' k (SharedPtrs.ref_of_set_none hk).2 }
    refine hs''.setCall ?_ ?_ ?_ fun _ => hs.calls c hidle
    · exact fun k _ hk => hs.call c k hidle hk
    · intro i' k hk
      obtain ⟨hne, href⟩ := SharedPtrs.ref_of_set_none hk
      obtain ⟨-, htls, hi'⟩ := hs.handles c i' k href
      rw [hlocals] at hi'
      refine ⟨hidle, htls, (List.mem_cons.mp hi').resolve_left ?_⟩
      rintro rfl
      exact hne rfl
    · intro hmade
      have hmade' : (s.call c).stage = .made := hmade
      rw [hstage] at hmade'
      simp at hmade'

theorem Inv.leave (hs : Inv s) (hlocals : (s.call c).locals = []) :
    Inv (owners.next s (.leave c)) := by
  refine hs.setCall (fun _ h => absurd rfl h) ?_ (by simp) fun h => absurd rfl h
  intro i k hk
  obtain ⟨-, -, hi⟩ := hs.handles c i k hk
  rw [hlocals] at hi
  simp at hi

theorem Inv.close (hs : Inv s) (o : ℕ) : Inv (owners.next s (.close o)) := by
  show Inv (s.close o)
  unfold State.close
  cases s.handle (.object o) with
  | none => exact hs
  | some h => exact hs.handle _

/-- The handle of an endpoint object has no reference to give up. -/
theorem Inv.dropObject (hs : Inv s) (o : ℕ) : Inv (owners.next s (.dropObject o)) := by
  have hs' : Inv (({ s with object := Function.update s.object o none } : State).setHandle
      (.object o) none) := by
    refine hs.congr rfl rfl rfl rfl rfl (fun _ hc => hc) ?_
    intro o' ho'
    refine hs.objects o' fun hnone => ho' ?_
    show Function.update s.object o none o' = none
    by_cases h : o' = o
    · rw [h, Function.update_self]
    · rw [Function.update_of_ne h, hnone]
  show Inv (State.point _ _ _)
  rw [hs'.point_tlsCfg]
  exact { hs' with
    config := fun k => (SharedPtrs.ref_set_of_ne (by simp)).trans (hs.config k)
    object := by
      intro o'
      dsimp only
      by_cases h : o' = o
      · rw [h, SharedPtrs.ref_set_self]
      · exact (SharedPtrs.ref_set_of_ne (by simpa using h)).trans (hs.object o')
    handles := fun c i k hk => hs.handles c i k (SharedPtrs.ref_of_set_none hk).2 }

/-- **The last reference is that of the `TlsConfig`**, and it frees the
configuration. -/
theorem Inv.dropConfig_eq (hs : Inv s) (hk : s.config k = true)
    (hcalls : ∀ c ∈ s.calls, (s.call c).stage ≠ .idle → (s.call c).tls ≠ some k) :
    owners.next s (.dropConfig k) = { s with
      config := Function.update s.config k false
      ptrs := s.ptrs.set (.config k) none
      frees := Function.update s.frees k (s.frees k + 1) } := by
  show State.point _ _ _ = _
  unfold State.point
  dsimp only
  rw [hs.config k, if_pos hk]
  refine if_neg ?_
  rw [SharedPtrs.owned_iff]
  rintro ⟨l, hl⟩
  obtain ⟨hne, href⟩ := SharedPtrs.ref_of_set_none hl
  rcases l with k' | ⟨c, i⟩ | o
  · rw [hs.config k'] at href
    split at href
    · exact hne (by rw [Option.some.inj href])
    · simp at href
  · obtain ⟨hstage, htls, -⟩ := hs.handles c i k href
    exact hcalls c (hs.calls c hstage) hstage htls
  · rw [hs.object o] at href
    simp at href

theorem Inv.dropConfig (hs : Inv s) (hk : s.config k = true)
    (hcalls : ∀ c ∈ s.calls, (s.call c).stage ≠ .idle → (s.call c).tls ≠ some k) :
    Inv (owners.next s (.dropConfig k)) := by
  rw [hs.dropConfig_eq hk hcalls]
  exact { hs with
    config := by
      intro k'
      show (s.ptrs.set (.config k) none).ref (.config k') =
        if Function.update s.config k false k' = true then some k' else none
      by_cases h : k' = k
      · rw [h, SharedPtrs.ref_set_self, Function.update_self, if_neg (by simp)]
      · rw [SharedPtrs.ref_set_of_ne (by simpa using h), Function.update_of_ne h]
        exact hs.config k'
    object := fun o => (SharedPtrs.ref_set_of_ne (by simp)).trans (hs.object o)
    handles := fun c i k' hk' => hs.handles c i k' (SharedPtrs.ref_of_set_none hk').2
    call := by
      intro c k' hstage htls
      dsimp only at hstage htls ⊢
      have h : k' ≠ k := by
        rintro rfl
        exact hcalls c (hs.calls c hstage) hstage htls
      rw [Function.update_of_ne h]
      exact hs.call c k' hstage htls
    made := by
      intro k'
      dsimp only
      by_cases h : k' = k
      · rw [h, Function.update_self]
        simp
      · rw [Function.update_of_ne h]
        exact hs.made k'
    frees := by
      intro k'
      show Function.update s.frees k (s.frees k + 1) k' =
        if s.made k' = true ∧ Function.update s.config k false k' = false then 1 else 0
      by_cases h : k' = k
      · rw [h, Function.update_self, Function.update_self, hs.frees k, if_neg (by simp [hk]),
          if_pos ⟨hs.made k hk, rfl⟩]
      · rw [Function.update_of_ne h, Function.update_of_ne h]
        exact hs.frees k' }

theorem Inv.next (hs : Inv s) {a : Act} (ha : Enabled s a) : Inv (owners.next s a) := by
  cases a with
  | alloc k => exact hs.alloc ha
  | begin c kind tls endpoint socket => exact hs.begin ha.1 ha.2
  | setTls c rv => exact hs.setTls ha
  | raise c =>
    refine hs.setCall_under_way ?_ rfl (fun _ hi => hi) (.inr rfl)
    rw [show (s.call c).stage = .configured from ha]
    simp
  | moveConstruct c i j =>
    obtain ⟨h, heq⟩ := State.moveConstruct_eq (s := s) (.local c i) (.local c j)
    show Inv (State.setCall _ _ _)
    rw [heq]
    have hidle : (s.call c).stage ≠ .idle := by rw [ha.1]; simp
    exact (hs.handle h).setCall_under_way hidle rfl (fun _ hi => List.mem_cons_of_mem j hi)
      (.inl ha.1)
  | moveAssign c i j =>
    obtain ⟨h, heq⟩ := State.moveAssign_eq (s := s) (.local c i) (.local c j)
    show Inv (State.moveAssign _ _ _)
    rw [heq]
    exact hs.handle h
  | create c i o => exact hs.create ha.1
  | destroyLocal c => exact hs.destroyLocal ha.1
  | leave c => exact hs.leave ha.2
  | close o => exact hs.close o
  | dropObject o => exact hs.dropObject o
  | dropConfig k => exact hs.dropConfig ha.1 ha.2

theorem Inv.init : Inv owners.init where
  config := fun _ => rfl
  object := fun _ => rfl
  handles := by
    intro c i k hk
    rw [show owners.init.ptrs.ref (.tlsCfg (.local c i)) = none from rfl] at hk
    simp at hk
  call := fun _ _ h => absurd rfl h
  fresh := by
    intro c h
    rw [show (owners.init.call c).stage = .idle from rfl] at h
    simp at h
  calls := fun _ h => absurd rfl h
  made := by
    intro k hk
    rw [show owners.init.config k = false from rfl] at hk
    simp at hk
  frees := fun _ => rfl
  objects := fun _ h => absurd rfl h

theorem inv_of_reach (h : owners.Reach s) : Inv s :=
  h.invariant Inv.init fun _ _ _ hs _ ha => hs.next ha

/-! ## What the endpoints are promised -/

/-- **Co-owned**: the configuration of an endpoint that exists is owned and
not freed, and a configuration is freed once, when its last owner is gone. -/
structure CoOwned (s : State) : Prop where
  alive : ∀ o x k, s.object o = some x → x.tls = some k → s.ptrs.Owned k ∧ s.frees k = 0
  freed : ∀ k, s.frees k = if s.made k = true ∧ ¬ s.ptrs.Owned k then 1 else 0

/-- No `TlsConfig` object goes before the endpoints that were created with it. -/
def Keeps (s : State) : Act → Prop
  | .dropConfig k => ∀ o ∈ s.objects, ∀ x ∈ s.object o, x.tls ≠ some k
  | _ => True

instance decidableKeeps (s : State) : ∀ a, Decidable (Keeps s a)
  | .dropConfig k => inferInstanceAs (Decidable (∀ o ∈ s.objects, ∀ x ∈ s.object o, x.tls ≠ some k))
  | .alloc _ | .begin .. | .setTls .. | .raise _ | .moveConstruct .. | .moveAssign .. | .create ..
  | .destroyLocal _ | .leave _ | .close _ | .dropObject _ => inferInstanceAs (Decidable True)

/-- The `TlsConfig` object of every endpoint exists. -/
def Kept (s : State) : Prop :=
  ∀ o x k, s.object o = some x → x.tls = some k → s.config k = true

theorem Kept.coOwned (hkept : Kept s) (hs : Inv s) : CoOwned s where
  alive := by
    intro o x k hx hk
    have hconfig := hkept o x k hx hk
    refine ⟨hs.owned_iff.mpr hconfig, ?_⟩
    rw [hs.frees k, if_neg (by simp [hconfig])]
  freed := by
    intro k
    rw [hs.frees k]
    simp only [hs.owned_iff, Bool.not_eq_true]

theorem Kept.congr (hkept : Kept s) {s' : State}
    (hobject : ∀ o x, s'.object o = some x → s.object o = some x)
    (hconfig : ∀ k, s.config k = true → s'.config k = true) : Kept s' :=
  fun o x k hx hk => hconfig k (hkept o x k (hobject o x hx) hk)

/-- A step that leaves the objects alone. -/
theorem Kept.same (hkept : Kept s) {s' : State} (hobject : s'.object = s.object)
    (hconfig : s'.config = s.config) : Kept s' :=
  hkept.congr (fun o x hx => by rwa [hobject] at hx) fun k hk => by rwa [hconfig]

/-- An object is created by a call, and the call keeps its `TlsConfig`. -/
theorem Kept.create (hkept : Kept s) (hs : Inv s) {i o : ℕ}
    (hstage : (s.call c).stage = .configured) : Kept (owners.next s (.create c i o)) := by
  obtain ⟨h, heq⟩ := State.create_eq c i o s
  show Kept (s.create c i o)
  rw [heq]
  intro o' x k hx hk
  show s.config k = true
  have hx' : Function.update s.object o (some ⟨(s.call c).kind, (s.call c).tls⟩) o' = some x := hx
  by_cases ho : o' = o
  · rw [ho, Function.update_self, Option.some.injEq] at hx'
    have hidle : (s.call c).stage ≠ .idle := by rw [hstage]; simp
    refine hs.call c k hidle ?_
    rw [← hk, ← hx']
  · rw [Function.update_of_ne ho] at hx'
    exact hkept o' x k hx' hk

theorem Kept.next (hkept : Kept s) (hs : Inv s) {a : Act} (ha : Enabled s a) (hok : Keeps s a) :
    Kept (owners.next s a) := by
  cases a with
  | alloc k =>
    refine hkept.congr (fun _ _ hx => hx) fun k' hk' => ?_
    show Function.update s.config k true k' = true
    by_cases h : k' = k
    · rw [h, Function.update_self]
    · rw [Function.update_of_ne h]
      exact hk'
  | begin c kind tls endpoint socket => exact hkept.same rfl rfl
  | setTls c rv =>
    show Kept (s.setTls c rv)
    unfold State.setTls
    cases (s.call c).tls with
    | none => exact hkept
    | some k =>
      obtain ⟨ptrs, frees, heq⟩ :=
        State.point_eq (.tlsCfg (.local c 0)) (s.ptrs.ref (.config k)) s
      dsimp only
      rw [heq]
      exact hkept.same rfl rfl
  | raise c => exact hkept.same rfl rfl
  | moveConstruct c i j =>
    obtain ⟨h, heq⟩ := State.moveConstruct_eq (s := s) (.local c i) (.local c j)
    show Kept (State.setCall _ _ _)
    rw [heq]
    exact hkept.same rfl rfl
  | moveAssign c i j =>
    obtain ⟨h, heq⟩ := State.moveAssign_eq (s := s) (.local c i) (.local c j)
    show Kept (State.moveAssign _ _ _)
    rw [heq]
    exact hkept.same rfl rfl
  | create c i o => exact hkept.create hs ha.1
  | destroyLocal c =>
    show Kept (s.destroyLocal c)
    unfold State.destroyLocal
    cases (s.call c).locals with
    | nil => exact hkept
    | cons i rest =>
      obtain ⟨ptrs, frees, heq⟩ :=
        State.point_eq (.tlsCfg (.local c i)) none (s.setHandle (.local c i) none)
      dsimp only
      unfold State.destroyHandle
      rw [heq]
      exact hkept.same rfl rfl
  | leave c => exact hkept.same rfl rfl
  | close o =>
    show Kept (s.close o)
    unfold State.close
    cases s.handle (.object o) with
    | none => exact hkept
    | some h => exact hkept.same rfl rfl
  | dropObject o =>
    show Kept (State.point _ _ _)
    obtain ⟨ptrs, frees, heq⟩ := State.point_eq (.tlsCfg (.object o)) none
      (({ s with object := Function.update s.object o none } : State).setHandle (.object o) none)
    rw [heq]
    refine hkept.congr (fun o' x hx => ?_) fun _ hk => hk
    have hx' : Function.update s.object o none o' = some x := hx
    by_cases h : o' = o
    · rw [h, Function.update_self] at hx'
      simp at hx'
    · rwa [Function.update_of_ne h] at hx'
  | dropConfig k =>
    rw [hs.dropConfig_eq ha.1 ha.2]
    intro o x k' hx hk'
    have h : k' ≠ k := by
      rintro rfl
      have ho : o ∈ s.objects := hs.objects o fun hnone => by
        rw [show s.object o = some x from hx] at hnone
        simp at hnone
      exact hok o ho x hx hk'
    show Function.update s.config k false k' = true
    rw [Function.update_of_ne h]
    exact hkept o x k' hx hk'

/-- **What a drop too early breaks**: the configuration is freed. -/
theorem not_coOwned_of_not_keeps (hs : Inv s) {a : Act} (ha : Enabled s a) (hok : ¬ Keeps s a) :
    ¬ CoOwned (owners.next s a) := by
  cases a with
  | dropConfig k =>
    intro h
    have hinv := hs.dropConfig ha.1 ha.2
    rw [hs.dropConfig_eq ha.1 ha.2] at h hinv
    refine hok fun o _ x hx hk => ?_
    have howned := hinv.owned_iff.mp (h.alive o x k hx hk).1
    simp at howned
  | _ => exact absurd trivial hok

/-- **The configuration of an endpoint that exists is owned, and not freed,
in exactly the runs that drop no `TlsConfig` object before the endpoints
that were created with it.** The endpoint itself never owns it. -/
theorem tls_config_co_owned_iff {as : List Act} (hv : owners.Valid owners.init as) :
    (owners.Throughout CoOwned owners.init as ↔ owners.Meets Keeps owners.init as) ∧
      ∀ o, (owners.final owners.init as).ptrs.ref (.tlsCfg (.object o)) = none := by
  refine ⟨?_, (inv_of_reach (Machine.reach_final hv)).object⟩
  have hP : ∀ s, Inv s ∧ Kept s → CoOwned s := fun s hs => hs.2.coOwned hs.1
  refine Machine.throughout_iff_meets hP ?_ ?_ .init ⟨Inv.init, ?_⟩ hv
  · exact fun s a _ hs hok ha => ⟨hs.1.next ha, hs.2.next hs.1 ha hok⟩
  · exact fun s a _ hs ha hok => not_coOwned_of_not_keeps hs.1 ha hok
  · intro o x k hx
    rw [show owners.init.object o = none from rfl] at hx
    simp at hx

/-- Two endpoints share a configuration, the last one goes before the
`TlsConfig` does. -/
theorem tls_config_co_owned_shared :
    owners.Throughout CoOwned owners.init
        [.alloc 1, .begin 1 .dialer (some 1) 5 9, .setTls 1 0, .moveConstruct 1 0 1, .create 1 1 1,
          .destroyLocal 1, .destroyLocal 1, .leave 1, .begin 2 .listener (some 1) 6 9, .setTls 2 0,
          .create 2 0 2, .destroyLocal 2, .leave 2, .dropObject 1, .dropObject 2, .dropConfig 1] :=
  (tls_config_co_owned_iff (by decide)).1.mpr (by decide)

/-- A program that lets go of the `TlsConfig` it passed: the `Dialer` is left
with a configuration that nothing refers to and that was freed. -/
theorem tls_config_freed_under_dialer :
    let as : List Act := [.alloc 1, .begin 1 .dialer (some 1) 5 9, .setTls 1 0,
      .moveConstruct 1 0 1, .create 1 1 1, .destroyLocal 1, .destroyLocal 1, .leave 1,
      .dropConfig 1]
    owners.Valid owners.init as ∧
      (owners.final owners.init as).object 1 = some ⟨.dialer, some 1⟩ ∧
      ¬ (owners.final owners.init as).ptrs.Owned 1 ∧
      (owners.final owners.init as).frees 1 = 1 ∧
      ¬ owners.Throughout CoOwned owners.init as := by
  intro as
  have hfrees : (owners.final owners.init as).frees 1 = 1 := by decide
  refine ⟨by decide, by decide, by decide, hfrees, fun h => ?_⟩
  have hnone := (h.final.alive 1 ⟨.dialer, some 1⟩ 1 (by decide) rfl).2
  rw [hfrees] at hnone
  simp at hnone

end TlsOwners

end PyNng
