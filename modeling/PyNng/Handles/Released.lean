import PyNng.Handles.Held
/-!
# Handles — destructors

A destructor takes away: it clears members, empties handles and
deallocates them, and touches no variable. Each is called for a handle
that nothing refers to any more, and leaves the invariant without it; on
its way it makes the calls to nng, and what each of them finds is kept
beside the call.
-/

namespace PyNng

namespace Handles

variable {s s' s'' : State} {w w' w'' : World} {g : Prop} {d : List ℕ} {a b n k : ℕ} {l : Loc}
  {K : Kind} {t : Option ℕ}

/-! ## What is only taken away -/

/-- The one world is what is left of the other. -/
structure World.Shrinks (w w' : World) : Prop where
  var : ∀ v, w'.ptrs.ref (.var v) = w.ptrs.ref (.var v)
  ref : ∀ l, w'.ptrs.ref l = w.ptrs.ref l ∨ w'.ptrs.ref l = none
  kind : ∀ a, w'.kind a = w.kind a ∨ w'.kind a = none
  res : ∀ a, (w'.res a).id = (w.res a).id ∨ (w'.res a).id = 0

namespace World.Shrinks

theorem refl (w : World) : w.Shrinks w :=
  ⟨fun _ => rfl, fun _ => .inl rfl, fun _ => .inl rfl, fun _ => .inl rfl⟩

theorem trans (h : w.Shrinks w') (h' : w'.Shrinks w'') : w.Shrinks w'' where
  var := fun v => (h'.var v).trans (h.var v)
  ref := by
    intro l
    rcases h'.ref l with heq | hnone
    · rw [heq]
      exact h.ref l
    · exact .inr hnone
  kind := by
    intro a
    rcases h'.kind a with heq | hnone
    · rw [heq]
      exact h.kind a
    · exact .inr hnone
  res := by
    intro a
    rcases h'.res a with heq | hzero
    · rw [heq]
      exact h.res a
    · exact .inr hzero

theorem not_owned (h : w.Shrinks w') (ha : ¬ w.ptrs.Owned a) : ¬ w'.ptrs.Owned a := by
  intro howned
  obtain ⟨l, hl⟩ := SharedPtrs.owned_iff.mp howned
  rcases h.ref l with heq | hnone
  · exact ha (SharedPtrs.owned_of_ref (heq.symm.trans hl))
  · rw [hnone] at hl
    simp at hl

theorem ref_none (h : w.Shrinks w') (hl : w.ptrs.ref l = none) : w'.ptrs.ref l = none := by
  rcases h.ref l with heq | hnone
  · exact heq.trans hl
  · exact hnone

theorem kind_ne (h : w.Shrinks w') (hK : w.kind a ≠ some K) : w'.kind a ≠ some K := by
  rcases h.kind a with heq | hnone
  · rw [heq]
    exact hK
  · rw [hnone]
    simp

theorem res_zero (h : w.Shrinks w') (ha : (w.res a).id = 0) : (w'.res a).id = 0 := by
  rcases h.res a with heq | hzero
  · exact heq.trans ha
  · exact hzero

theorem idle (h : w.Shrinks w') (ha : w.Idle a) : w'.Idle a := by
  intro K hK hclose
  rcases h.kind a with heq | hnone
  · exact h.res_zero (ha K (heq.symm.trans hK) hclose)
  · rw [hnone] at hK
    simp at hK

end World.Shrinks

theorem shrinks_close (w : World) (a : ℕ) : w.Shrinks (w.close a) where
  var := fun _ => rfl
  ref := fun _ => .inl rfl
  kind := fun _ => .inl rfl
  res := by
    intro b
    unfold World.close
    dsimp only
    by_cases hne : b = a
    · rw [hne, Function.update_self]
      exact .inr rfl
    · rw [Function.update_of_ne hne]
      exact .inl rfl

theorem shrinks_dealloc (w : World) (a : ℕ) : w.Shrinks (w.dealloc a) where
  var := fun _ => rfl
  ref := fun _ => .inl rfl
  kind := by
    intro b
    by_cases hne : b = a
    · rw [hne]
      exact .inr (Function.update_self ..)
    · exact .inl (Function.update_of_ne hne _ _)
  res := (shrinks_close w a).res

theorem shrinks_point (w : World) (a : ℕ) (m : Member) :
    w.Shrinks (w.point (.member a m) none) where
  var := fun _ => SharedPtrs.ref_set_of_ne (by simp)
  ref := by
    intro l
    by_cases hne : l = .member a m
    · rw [hne]
      exact .inr SharedPtrs.ref_set_self
    · exact .inl (SharedPtrs.ref_set_of_ne hne)
  kind := fun _ => .inl rfl
  res := fun _ => .inl rfl

theorem shrinks_closeRes (s : State) (K : Kind) (a : ℕ) (explicit : Bool) :
    s.now.Shrinks (s.closeRes K a explicit).now := by
  unfold State.closeRes
  split
  · exact shrinks_close s.now a
  · exact .refl _

theorem shrinks_destroySocket (s : State) (k : ℕ) : s.now.Shrinks (s.destroySocket k).now :=
  (shrinks_closeRes s _ k _).trans (shrinks_dealloc _ k)

theorem shrinks_settleSocket (s : State) (t : Option ℕ) :
    s.now.Shrinks (s.settleSocket t).now := by
  cases t with
  | none => exact .refl _
  | some k =>
    unfold State.settleSocket
    dsimp only
    split
    · exact .refl _
    · exact shrinks_destroySocket s k

theorem shrinks_releaseSocket (s : State) (a : ℕ) : s.now.Shrinks (s.releaseSocket a).now :=
  (shrinks_point s.now a .socket).trans
    (shrinks_settleSocket (s.update (.point (.member a .socket) none)) _)

theorem shrinks_destroyContext (s : State) (c : ℕ) : s.now.Shrinks (s.destroyContext c).now :=
  ((shrinks_closeRes s _ c _).trans (shrinks_releaseSocket _ c)).trans (shrinks_dealloc _ c)

theorem shrinks_settleContext (s : State) (t : Option ℕ) :
    s.now.Shrinks (s.settleContext t).now := by
  cases t with
  | none => exact .refl _
  | some c =>
    unfold State.settleContext
    dsimp only
    split
    · exact .refl _
    · exact shrinks_destroyContext s c

theorem shrinks_releaseContext (s : State) (a : ℕ) : s.now.Shrinks (s.releaseContext a).now :=
  (shrinks_point s.now a .context).trans
    (shrinks_settleContext (s.update (.point (.member a .context) none)) _)

theorem shrinks_freeAio (s : State) (a : ℕ) : s.now.Shrinks (s.freeAio a).now := by
  unfold State.freeAio
  split
  · exact ((shrinks_closeRes s _ a _).trans (shrinks_releaseContext _ a)).trans
      (shrinks_releaseSocket _ a)
  · exact .refl _

/-! ## What a call to nng finds -/

/-- Everything that was made on the socket, and that its handle closes, is
closed: the contexts, and the `nng_aio`s whose anchor is among `P`. -/
def Closing.Closed (P : Anchor → Prop) (e : Closing) : Prop :=
  ∀ n r, e.world.made n = some r → r.kind.closesItself = true → P r.anchor → e.world.closes n = 1

/-- The handle still refers to what the resource was made on. -/
def Closing.Held (e : Closing) : Prop :=
  ∀ r, e.world.made e.id = some r → r.kind.closesItself = true →
    ∃ a, e.world.Owns a e.id ∧ ∀ q ∈ r.anchor.ref, e.world.ptrs.ref (.member a q.1) = some q.2

structure Closing.Orderly (g : Prop) (e : Closing) : Prop where
  held : e.Held
  closed : e.kind = .socket → e.explicit = false →
    e.Closed fun anchor => anchor = .socket e.id ∨ g ∧ anchor.Of e.id

/-- The calls made for a resource. -/
def State.calls (n : ℕ) (s : State) : ℕ := s.closings.countP fun e => e.id = n

/-- The invariant, and that the calls so far were in order. -/
structure Orderly (g : Prop) (d : List ℕ) (s : State) : Prop where
  inv : Inv g d s.now
  closings : ∀ e ∈ s.closings, e.Orderly g
  counted : ∀ n, s.calls n = s.now.closes n

namespace Orderly

theorem dealloc (h : Orderly g (a :: d) s) (ha : ¬ s.now.ptrs.Owned a)
    (hmembers : ∀ m, s.now.ptrs.ref (.member a m) = none) (hidle : s.now.Idle a) :
    Orderly g d (s.update (.dealloc a)) :=
  ⟨h.inv.dealloc ha hmembers hidle, h.closings, h.counted⟩

theorem settled (h : Orderly g (a :: d) s) (ha : s.now.ptrs.Owned a) : Orderly g d s :=
  ⟨h.inv.settled ha, h.closings, h.counted⟩

/-- A call to close what a handle has. That of a destructor for a socket finds
nothing that refers to it. -/
theorem closeRes (h : Orderly g d s) {explicit : Bool}
    (hk : K = .socket → explicit = false →
      (∀ K', s.now.kind a = some K' → K' = .socket) ∧ ¬ s.now.ptrs.Owned a) :
    Orderly g d (s.closeRes K a explicit) := by
  unfold State.closeRes
  split
  · rename_i hopen
    have hid : (s.now.res a).id ≠ 0 := by simpa [Handle.isOpen] using hopen
    have hown : s.now.Owns a (s.now.res a).id := ⟨hid, rfl⟩
    refine ⟨h.inv.close hid, fun e he => ?_, fun n => ?_⟩
    · rcases List.mem_cons.mp he with rfl | he
      · refine ⟨fun r hr hclose => ⟨a, hown, h.inv.anchored a _ r hown hr hclose⟩, ?_⟩
        intro hK hexplicit n r hr hclose hanchor
        obtain ⟨hkind, hfree⟩ := hk hK hexplicit
        obtain ⟨r', -, hr'⟩ := h.inv.typed a _ hown
        have heq := h.inv.socket a _ (by rw [hr', hkind _ hr']) hown
        dsimp only at hanchor
        rw [heq] at hanchor
        exact h.inv.closed_of_not_owned hfree hr hclose hanchor
      · exact h.closings e he
    · have hcount := h.counted n
      unfold State.calls at hcount ⊢
      dsimp only
      rw [List.countP_cons, hcount]
      by_cases hn : (s.now.res a).id = n
      · subst hn
        rw [Inv.close_closes_self, if_pos (by simp)]
      · rw [Inv.close_closes_of_ne (Ne.symm hn), if_neg (by simpa using hn)]
        omega
  · exact h

theorem closeRes_res (s : State) (K : Kind) (a : ℕ) (explicit : Bool) :
    ((s.closeRes K a explicit).now.res a).id = 0 := by
  unfold State.closeRes
  split
  · show (Function.update s.now.res a .empty a).id = 0
    rw [Function.update_self]
    rfl
  · rename_i hopen
    simpa [Handle.isOpen] using hopen

/-! ## The destructors -/

/-- A class has the members it has. -/
theorem member_none (h : Orderly g d s) {m : Member}
    (hK : ∀ K, s.now.kind a = some K → K.has m = false) : s.now.ptrs.ref (.member a m) = none := by
  cases href : s.now.ptrs.ref (.member a m) with
  | none => rfl
  | some t =>
    obtain ⟨K, hkind, hhas⟩ := h.inv.holder a m t href
    rw [hK K hkind] at hhas
    simp at hhas

theorem destroySocket (h : Orderly g (k :: d) s)
    (hkind : ∀ K, s.now.kind k = some K → K = .socket)
    (hk : ¬ s.now.ptrs.Owned k) : Orderly g d (s.destroySocket k) := by
  have hshrinks := shrinks_closeRes s .socket k false
  have h' : Orderly g (k :: d) (s.closeRes .socket k false) :=
    h.closeRes fun _ _ => ⟨hkind, hk⟩
  refine h'.dealloc (hshrinks.not_owned hk) (fun m => ?_) fun _ _ _ => closeRes_res s _ k _
  refine hshrinks.ref_none (h.member_none fun K hK => ?_)
  rw [hkind K hK]
  rfl

theorem settleSocket (h : Orderly g (t.toList ++ d) s)
    (ht : ∀ k ∈ t, ∀ K, s.now.kind k = some K → K = .socket) : Orderly g d (s.settleSocket t) := by
  cases t with
  | none => exact h
  | some k =>
    unfold State.settleSocket
    dsimp only
    split
    · rename_i howned
      exact h.settled howned
    · rename_i howned
      exact h.destroySocket (ht k rfl) howned

/-- **The reference to the socket is released**, after what the handle has is
closed. A context handle does so in its destructor alone. -/
theorem releaseSocket (h : Orderly g d s) (hidle : s.now.Idle a)
    (ha : s.now.kind a = some .context → ¬ s.now.ptrs.Owned a) :
    Orderly g d (s.releaseSocket a) := by
  have hinv := h.inv.clear (l := .member a .socket)
    (fun b m hb => by rw [← (Loc.member.inj hb).1]; exact hidle)
    (fun x hx => by rw [← (Loc.member.inj hx).1]; exact ha)
  have h' : Orderly g ((s.now.ptrs.ref (.member a .socket)).toList ++ d)
      (s.update (.point (.member a .socket) none)) := ⟨hinv, h.closings, h.counted⟩
  refine h'.settleSocket fun k hk K hK => ?_
  have htarget := h.inv.target a .socket k hk
  rw [show s.now.kind k = some K from hK] at htarget
  exact Option.some.inj htarget

theorem releaseSocket_ref (s : State) (a : ℕ) :
    (s.releaseSocket a).now.ptrs.ref (.member a .socket) = none :=
  (shrinks_settleSocket _ _).ref_none SharedPtrs.ref_set_self

/-- **A context handle is destroyed**: `nng_ctx_close` comes before the release
of its socket. -/
theorem destroyContext (h : Orderly g (a :: d) s) (hkind : s.now.kind a = some .context)
    (ha : ¬ s.now.ptrs.Owned a) : Orderly g d (s.destroyContext a) := by
  have hclose := shrinks_closeRes s .context a false
  have hrelease := shrinks_releaseSocket (s.closeRes .context a false) a
  have h₁ : Orderly g (a :: d) (s.closeRes .context a false) := h.closeRes fun hK => by simp at hK
  have hidle : (s.closeRes .context a false).now.Idle a := fun _ _ _ => closeRes_res s _ a _
  have h₂ := h₁.releaseSocket hidle fun _ => hclose.not_owned ha
  refine h₂.dealloc ((hclose.trans hrelease).not_owned ha) (fun m => ?_) (hrelease.idle hidle)
  cases m with
  | socket => exact releaseSocket_ref _ a
  | context =>
    refine (hclose.trans hrelease).ref_none (h.member_none fun K hK => ?_)
    rw [hkind, Option.some.injEq] at hK
    rw [← hK]
    rfl

theorem settleContext (h : Orderly g (t.toList ++ d) s)
    (ht : ∀ c, t = some c → s.now.kind c = some .context) : Orderly g d (s.settleContext t) := by
  cases t with
  | none => exact h
  | some c =>
    unfold State.settleContext
    dsimp only
    split
    · rename_i howned
      exact h.settled howned
    · rename_i howned
      exact h.destroyContext (ht c rfl) howned

theorem releaseContext (h : Orderly g d s) (hidle : s.now.Idle a) :
    Orderly g d (s.releaseContext a) := by
  have hinv := h.inv.clear (l := .member a .context)
    (fun b m hb => by rw [← (Loc.member.inj hb).1]; exact hidle)
    (fun x hx => by simp at hx)
  have h' : Orderly g ((s.now.ptrs.ref (.member a .context)).toList ++ d)
      (s.update (.point (.member a .context) none)) := ⟨hinv, h.closings, h.counted⟩
  exact h'.settleContext fun c hc => h.inv.target a .context c hc

theorem releaseContext_ref (s : State) (a : ℕ) :
    (s.releaseContext a).now.ptrs.ref (.member a .context) = none :=
  (shrinks_settleContext _ _).ref_none SharedPtrs.ref_set_self

theorem destroyEndpoint (h : Orderly g (a :: d) s)
    (hkind : s.now.kind a = some .dialer ∨ s.now.kind a = some .listener)
    (ha : ¬ s.now.ptrs.Owned a) : Orderly g d (s.destroyEndpoint a) := by
  have hrelease := shrinks_releaseSocket s a
  have hidle : s.now.Idle a := by
    intro K hK hclose
    rcases hkind with heq | heq <;>
    · rw [heq, Option.some.injEq] at hK
      rw [← hK] at hclose
      simp [Kind.closesItself] at hclose
  have h' := h.releaseSocket hidle fun heq => by rcases hkind with hk | hk <;> simp [hk] at heq
  refine h'.dealloc (hrelease.not_owned ha) (fun m => ?_) (hrelease.idle hidle)
  cases m with
  | socket => exact releaseSocket_ref _ a
  | context =>
    refine hrelease.ref_none (h.member_none fun K hK => ?_)
    rcases hkind with heq | heq <;>
    · rw [heq, Option.some.injEq] at hK
      rw [← hK]
      rfl

/-- **`AioHandle::destroy`**: the anchors are released after `nng_aio_free`. -/
theorem freeAio (h : Orderly g d s) (hkind : s.now.kind a = some .aio) :
    Orderly g d (s.freeAio a) := by
  unfold State.freeAio
  split
  · have hclose := shrinks_closeRes s .aio a false
    have hrelease := shrinks_releaseContext (s.closeRes .aio a false) a
    have hidle : (s.closeRes .aio a false).now.Idle a := fun _ _ _ => closeRes_res s _ a _
    have h₁ : Orderly g d (s.closeRes .aio a false) := h.closeRes fun hK => by simp at hK
    have hne : s.now.kind a ≠ some .context := by rw [hkind]; simp
    refine (h₁.releaseContext hidle).releaseSocket (hrelease.idle hidle) fun heq => ?_
    exact absurd heq ((hclose.trans hrelease).kind_ne hne)
  · exact h

theorem freeAio_res (s : State) (a : ℕ) : ((s.freeAio a).now.res a).id = 0 := by
  unfold State.freeAio
  split
  · exact ((shrinks_releaseContext _ a).trans (shrinks_releaseSocket _ a)).res_zero
      (closeRes_res s .aio a false)
  · rename_i hopen
    simpa [Handle.isOpen] using hopen

theorem destroyAio (h : Orderly g (a :: d) s) (hkind : s.now.kind a = some .aio)
    (ha : ¬ s.now.ptrs.Owned a) : Orderly g d (s.destroyAio a) := by
  have hfree := shrinks_freeAio s a
  have hsocket := shrinks_releaseSocket (s.freeAio a) a
  have hcontext := shrinks_releaseContext ((s.freeAio a).releaseSocket a) a
  have hidle : (s.freeAio a).now.Idle a := fun _ _ _ => freeAio_res s a
  have hne : s.now.kind a ≠ some .context := by rw [hkind]; simp
  have h₁ := (h.freeAio hkind).releaseSocket hidle fun heq => absurd heq (hfree.kind_ne hne)
  have h₂ := h₁.releaseContext (hsocket.idle hidle)
  refine h₂.dealloc (((hfree.trans hsocket).trans hcontext).not_owned ha) (fun m => ?_)
    ((hsocket.trans hcontext).idle hidle)
  cases m with
  | socket => exact hcontext.ref_none (releaseSocket_ref _ a)
  | context => exact releaseContext_ref _ a

/-- **Every destructor** leaves the rest in order. -/
theorem destroy (h : Orderly g (a :: d) s) (hkind : s.now.kind a = some K)
    (ha : ¬ s.now.ptrs.Owned a) : Orderly g d (s.destroy K a) := by
  cases K with
  | socket =>
    refine h.destroySocket (fun K hK => ?_) ha
    rw [hkind, Option.some.injEq] at hK
    exact hK.symm
  | context => exact h.destroyContext hkind ha
  | dialer => exact h.destroyEndpoint (.inl hkind) ha
  | listener => exact h.destroyEndpoint (.inr hkind) ha
  | aio => exact h.destroyAio hkind ha

end Orderly

end Handles

end PyNng
