import PyNng.Handles.Model
/-!
# Handles — what is held

A handle that exists is owned, save those a destructor has begun with. A
resource that its handle closes is open as long as some handle has it, and
that handle refers to what the resource was made on. What closing a
resource, clearing a pointer and deallocating a handle do to that is said
here of one `World` and the next.
-/

namespace PyNng

namespace Handles

variable {w w' : World} {g : Prop} {d : List ℕ} {a b n : ℕ} {l : Loc}

/-- The handle owns the resource. -/
def World.Owns (w : World) (a n : ℕ) : Prop := n ≠ 0 ∧ (w.res a).id = n

/-- The handle may let go of what its members refer to. -/
def World.Idle (w : World) (a : ℕ) : Prop :=
  ∀ K, w.kind a = some K → K.closesItself = true → (w.res a).id = 0

/-- **The invariant**, with the handles `d` that are being destroyed. Where `g`
holds, context handles keep their socket as long as they are an anchor. -/
structure Inv (g : Prop) (d : List ℕ) (w : World) : Prop where
  var : ∀ v a, w.ptrs.ref (.var v) = some a → w.kind a ≠ none
  target : ∀ a m t, w.ptrs.ref (.member a m) = some t → w.kind t = some m.target
  holder : ∀ a m t, w.ptrs.ref (.member a m) = some t → ∃ K, w.kind a = some K ∧ K.has m = true
  owned : ∀ a, w.kind a ≠ none → w.ptrs.Owned a ∨ a ∈ d
  unclosed : ∀ a n, w.Owns a n → w.closes n = 0
  typed : ∀ a n, w.Owns a n → ∃ r, w.made n = some r ∧ w.kind a = some r.kind
  anchored : ∀ a n r, w.Owns a n → w.made n = some r → r.kind.closesItself = true →
    ∀ q ∈ r.anchor.ref, w.ptrs.ref (.member a q.1) = some q.2
  unique : ∀ a b n, w.Owns a n → w.Owns b n → a = b
  kept : ∀ n r, w.made n = some r → r.kind.closesItself = true → w.closes n = 0 → ∃ a, w.Owns a n
  socket : ∀ a n, w.kind a = some .socket → w.Owns a n → n = a
  once : ∀ n, w.closes n ≤ 1
  unmade : ∀ n, w.made n = none → w.closes n = 0
  zero : w.made 0 = none
  rooted : g → ∀ n r x k, w.made n = some r → r.kind.closesItself = true →
    r.anchor = .context x k → w.closes n = 0 → w.ptrs.ref (.member x .socket) = k

/-- A handle that was emptied owns nothing, and the others what they did. -/
theorem owns_emptied_iff (hres : w'.res = Function.update w.res a .empty) :
    w'.Owns b n ↔ b ≠ a ∧ w.Owns b n := by
  unfold World.Owns
  rw [hres]
  by_cases hne : b = a
  · subst hne
    rw [Function.update_self]
    constructor
    · rintro ⟨hn, hid⟩
      exact absurd hid.symm hn
    · rintro ⟨hne, -⟩
      exact absurd rfl hne
  · rw [Function.update_of_ne hne]
    exact ⟨fun h => ⟨hne, h⟩, fun h => h.2⟩

namespace Inv

/-- A resource that is not closed has a handle that refers to its anchor. -/
theorem exists_holder (h : Inv g d w) {r : Resource} (hr : w.made n = some r)
    (hclose : r.kind.closesItself = true) (hn : w.closes n = 0) :
    ∃ a, w.Owns a n ∧ ∀ q ∈ r.anchor.ref, w.ptrs.ref (.member a q.1) = some q.2 := by
  obtain ⟨a, ha⟩ := h.kept n r hr hclose hn
  exact ⟨a, ha, h.anchored a n r ha hr hclose⟩

theorem closes_eq_one (h : Inv g d w) (hn : w.closes n ≠ 0) : w.closes n = 1 := by
  have := h.once n
  omega

/-- The anchor of a resource that is not closed is owned. -/
theorem anchor_owned (h : Inv g d w) {r : Resource} {q : Member × ℕ} (hr : w.made n = some r)
    (hclose : r.kind.closesItself = true) (hn : w.closes n = 0) (hq : q ∈ r.anchor.ref) :
    w.ptrs.Owned q.2 := by
  obtain ⟨a, -, ha⟩ := h.exists_holder hr hclose hn
  exact SharedPtrs.owned_of_ref (ha q hq)

/-- And is a handle of the class of the member that refers to it. -/
theorem anchor_kind (h : Inv g d w) {r : Resource} {q : Member × ℕ} (hr : w.made n = some r)
    (hclose : r.kind.closesItself = true) (hn : w.closes n = 0) (hq : q ∈ r.anchor.ref) :
    w.kind q.2 = some q.1.target := by
  obtain ⟨a, -, ha⟩ := h.exists_holder hr hclose hn
  exact h.target a q.1 q.2 (ha q hq)

/-- **Of a socket that nothing refers to, everything is closed.** -/
theorem closed_of_not_owned (h : Inv g d w) {k : ℕ} (hk : ¬ w.ptrs.Owned k) {r : Resource}
    (hr : w.made n = some r) (hclose : r.kind.closesItself = true)
    (hanchor : r.anchor = .socket k ∨ g ∧ r.anchor.Of k) : w.closes n = 1 := by
  refine h.closes_eq_one fun hn => hk ?_
  have hsocket : r.anchor = .socket k → w.ptrs.Owned k := by
    intro heq
    refine h.anchor_owned (q := (.socket, k)) hr hclose hn ?_
    rw [heq]
    rfl
  rcases hanchor with heq | ⟨hg, hof⟩
  · exact hsocket heq
  · cases heq : r.anchor with
    | none =>
      rw [heq] at hof
      exact hof.elim
    | socket k' =>
      rw [heq] at hof
      rw [← show k' = k from hof] at hsocket ⊢
      exact hsocket heq
    | context x k' =>
      rw [heq] at hof
      rw [show k' = some k from hof] at heq
      exact SharedPtrs.owned_of_ref (h.rooted hg n r x _ hr hclose heq hn)

/-- What it owns is still open where a handle that is idle lets go: it is a
`DialerHandle` or a `ListenerHandle`. -/
theorem not_closesItself (h : Inv g d w) (hidle : w.Idle a) (hown : w.Owns a n) {r : Resource}
    (hr : w.made n = some r) : r.kind.closesItself = false := by
  obtain ⟨r', hr', hkind⟩ := h.typed a n hown
  rw [hr, Option.some.injEq] at hr'
  subst hr'
  cases hclose : r.kind.closesItself with
  | false => rfl
  | true => exact absurd (hown.2.symm.trans (hidle r.kind hkind hclose)) hown.1

/-! ## Closing, clearing, deallocating -/

theorem close_closes_of_ne (hn : n ≠ (w.res a).id) : (w.close a).closes n = w.closes n :=
  Function.update_of_ne hn _ _

theorem close_closes_self : (w.close a).closes (w.res a).id = w.closes (w.res a).id + 1 :=
  Function.update_self ..

/-- **A resource is closed** by the handle that has it. -/
theorem close (h : Inv g d w) (hopen : (w.res a).id ≠ 0) : Inv g d (w.close a) := by
  have hself : w.Owns a (w.res a).id := ⟨hopen, rfl⟩
  have hother : ∀ b n, (w.close a).Owns b n → w.Owns b n ∧ n ≠ (w.res a).id := by
    intro b n hown
    obtain ⟨hne, hown⟩ := (owns_emptied_iff rfl).mp hown
    refine ⟨hown, ?_⟩
    rintro rfl
    exact hne (h.unique b a _ hown hself)
  have hclosed : ∀ n, (w.close a).closes n = 0 → w.closes n = 0 ∧ n ≠ (w.res a).id := by
    intro n hn
    have hne : n ≠ (w.res a).id := by
      rintro rfl
      rw [close_closes_self] at hn
      omega
    rw [close_closes_of_ne hne] at hn
    exact ⟨hn, hne⟩
  exact {
    var := h.var
    target := h.target
    holder := h.holder
    owned := h.owned
    unclosed := by
      intro b n hown
      obtain ⟨hown, hne⟩ := hother b n hown
      rw [close_closes_of_ne hne]
      exact h.unclosed b n hown
    typed := fun b n hown => h.typed b n (hother b n hown).1
    anchored := fun b n r hown => h.anchored b n r (hother b n hown).1
    unique := fun b c n hb hc => h.unique b c n (hother b n hb).1 (hother c n hc).1
    kept := by
      intro n r hr hclose hn
      obtain ⟨hn, hne⟩ := hclosed n hn
      obtain ⟨b, hb⟩ := h.kept n r hr hclose hn
      refine ⟨b, (owns_emptied_iff rfl).mpr ⟨?_, hb⟩⟩
      rintro rfl
      exact hne hb.2.symm
    socket := fun b n hkind hown => h.socket b n hkind (hother b n hown).1
    once := by
      intro n
      by_cases hne : n = (w.res a).id
      · have hzero := h.unclosed a _ hself
        rw [hne, close_closes_self]
        omega
      · rw [close_closes_of_ne hne]
        exact h.once n
    unmade := by
      intro n hn
      have hne : n ≠ (w.res a).id := by
        rintro rfl
        obtain ⟨r, hr, -⟩ := h.typed a _ hself
        rw [show w.made _ = none from hn] at hr
        simp at hr
      rw [close_closes_of_ne hne]
      exact h.unmade n hn
    zero := h.zero
    rooted := fun hg n r x k hr hclose heq hn =>
      h.rooted hg n r x k hr hclose heq (hclosed n hn).1 }

/-- **A pointer is cleared.** What it referred to may be left to be destroyed. -/
theorem clear (h : Inv g d w) (hidle : ∀ a m, l = .member a m → w.Idle a)
    (hsocket : ∀ x, l = .member x .socket → w.kind x = some .context → ¬ w.ptrs.Owned x) :
    Inv g ((w.ptrs.ref l).toList ++ d) (w.point l none) where
  var := fun v a ha => h.var v a (SharedPtrs.ref_of_set_none ha).2
  target := fun a m t ht => h.target a m t (SharedPtrs.ref_of_set_none ht).2
  holder := fun a m t ht => h.holder a m t (SharedPtrs.ref_of_set_none ht).2
  owned := by
    intro a ha
    by_cases hl : w.ptrs.ref l = some a
    · right
      rw [hl]
      simp
    · refine (h.owned a ha).imp (fun howned => howned.set hl) fun hd => ?_
      exact List.mem_append_right _ hd
  unclosed := h.unclosed
  typed := h.typed
  anchored := by
    intro a n r hown hr hclose q hq
    have hne : Loc.member a q.1 ≠ l := by
      intro heq
      have := h.not_closesItself (hidle a q.1 heq.symm) hown hr
      rw [hclose] at this
      simp at this
    exact (SharedPtrs.ref_set_of_ne hne).trans (h.anchored a n r hown hr hclose q hq)
  unique := h.unique
  kept := h.kept
  socket := h.socket
  once := h.once
  unmade := h.unmade
  zero := h.zero
  rooted := by
    intro hg n r x k hr hclose heq hn
    have hq : (Member.context, x) ∈ r.anchor.ref := by
      rw [heq]
      rfl
    have hne : Loc.member x .socket ≠ l := by
      intro hl
      exact hsocket x hl.symm (h.anchor_kind hr hclose hn hq) (h.anchor_owned hr hclose hn hq)
    exact (SharedPtrs.ref_set_of_ne hne).trans (h.rooted hg n r x k hr hclose heq hn)

theorem dealloc_kind_of_ne (hne : b ≠ a) : (w.dealloc a).kind b = w.kind b :=
  Function.update_of_ne hne _ _

/-- **A handle is gone**, with nothing left in it. -/
theorem dealloc (h : Inv g (a :: d) w) (ha : ¬ w.ptrs.Owned a)
    (hmembers : ∀ m, w.ptrs.ref (.member a m) = none) (hidle : w.Idle a) :
    Inv g d (w.dealloc a) where
  var := by
    intro v b hb
    have hne : b ≠ a := by
      rintro rfl
      exact ha (SharedPtrs.owned_of_ref hb)
    rw [dealloc_kind_of_ne hne]
    exact h.var v b hb
  target := by
    intro b m t ht
    have hne : t ≠ a := by
      rintro rfl
      exact ha (SharedPtrs.owned_of_ref ht)
    rw [dealloc_kind_of_ne hne]
    exact h.target b m t ht
  holder := by
    intro b m t ht
    have hne : b ≠ a := by
      rintro rfl
      have hnone : w.ptrs.ref (.member b m) = some t := ht
      rw [hmembers m] at hnone
      simp at hnone
    rw [dealloc_kind_of_ne hne]
    exact h.holder b m t ht
  owned := by
    intro b hb
    have hne : b ≠ a := by
      rintro rfl
      exact hb (Function.update_self ..)
    rw [dealloc_kind_of_ne hne] at hb
    refine (h.owned b hb).imp id fun hmem => ?_
    exact (List.mem_cons.mp hmem).resolve_left hne
  unclosed := fun b n hown => h.unclosed b n ((owns_emptied_iff rfl).mp hown).2
  typed := by
    intro b n hown
    obtain ⟨hne, hown⟩ := (owns_emptied_iff rfl).mp hown
    obtain ⟨r, hr, hkind⟩ := h.typed b n hown
    exact ⟨r, hr, (dealloc_kind_of_ne hne).trans hkind⟩
  anchored := fun b n r hown => h.anchored b n r ((owns_emptied_iff rfl).mp hown).2
  unique := fun b c n hb hc =>
    h.unique b c n ((owns_emptied_iff rfl).mp hb).2 ((owns_emptied_iff rfl).mp hc).2
  kept := by
    intro n r hr hclose hn
    obtain ⟨b, hb⟩ := h.kept n r hr hclose hn
    have hne : b ≠ a := by
      rintro rfl
      have := h.not_closesItself hidle hb hr
      rw [hclose] at this
      simp at this
    exact ⟨b, (owns_emptied_iff rfl).mpr ⟨hne, hb⟩⟩
  socket := by
    intro b n hkind hown
    obtain ⟨hne, hown⟩ := (owns_emptied_iff rfl).mp hown
    rw [dealloc_kind_of_ne hne] at hkind
    exact h.socket b n hkind hown
  once := h.once
  unmade := h.unmade
  zero := h.zero
  rooted := h.rooted

/-- What is owned is not being destroyed. -/
theorem settled (h : Inv g (a :: d) w) (ha : w.ptrs.Owned a) : Inv g d w :=
  { h with
    owned := by
      intro b hb
      rcases h.owned b hb with howned | hmem
      · exact .inl howned
      · rcases List.mem_cons.mp hmem with rfl | hmem
        · exact .inl ha
        · exact .inr hmem }

end Inv

end Handles

end PyNng
