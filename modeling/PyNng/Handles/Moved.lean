import PyNng.Handles.Released
/-!
# Handles — construction and moves

The statements of a program, one by one. A constructor makes an owner
before anything else, and a move takes a resource along with the reference
to what it was made on; the two never part. A context handle that is moved
leaves behind those whose anchor it is.
-/

namespace PyNng

namespace Handles

variable {s : State} {w : World} {g : Prop} {d : List ℕ} {a b n v : ℕ} {K : Kind} {p : Option ℕ}

namespace Inv

/-! ## Variables and constructors -/

/-- A free variable is made to refer to a handle that exists. -/
theorem point_var (h : Inv g d w) (hfree : w.ptrs.ref (.var v) = none)
    (hp : ∀ a, p = some a → w.kind a ≠ none) : Inv g d (w.point (.var v) p) where
  var := by
    intro v' a ha
    by_cases hv : v' = v
    · subst hv
      exact hp a (SharedPtrs.ref_set_self.symm.trans ha)
    · exact h.var v' a ((SharedPtrs.ref_set_of_ne (by simpa using hv)).symm.trans ha)
  target := fun a m t ht => h.target a m t ((SharedPtrs.ref_set_of_ne (by simp)).symm.trans ht)
  holder := fun a m t ht => h.holder a m t ((SharedPtrs.ref_set_of_ne (by simp)).symm.trans ht)
  owned := by
    intro a ha
    refine (h.owned a ha).imp (fun howned => howned.set ?_) id
    rw [hfree]
    simp
  unclosed := h.unclosed
  typed := h.typed
  anchored := fun a n r hown hr hclose q hq =>
    (SharedPtrs.ref_set_of_ne (by simp)).trans (h.anchored a n r hown hr hclose q hq)
  unique := h.unique
  kept := h.kept
  socket := h.socket
  once := h.once
  unmade := h.unmade
  zero := h.zero
  rooted := fun hg n r x k hr hclose heq hn =>
    (SharedPtrs.ref_set_of_ne (by simp)).trans (h.rooted hg n r x k hr hclose heq hn)

theorem kind_of_owned (h : Inv g d w) (ha : w.ptrs.Owned a) : w.kind a ≠ none := by
  obtain ⟨l, hl⟩ := SharedPtrs.owned_iff.mp ha
  cases l with
  | var v => exact h.var v a hl
  | member b m =>
    rw [h.target b m a hl]
    simp

/-- A handle that does not exist has no resource. -/
theorem not_owns (h : Inv g d w) (ha : w.kind a = none) : ¬ w.Owns a n := by
  intro hown
  obtain ⟨r, -, hkind⟩ := h.typed a n hown
  rw [ha] at hkind
  simp at hkind

/-- A handle appears. -/
theorem create (h : Inv g d w) (ha : w.kind a = none) :
    Inv g (a :: d) { w with kind := Function.update w.kind a (some K) } := by
  have hkind : ∀ b, w.kind b ≠ none → Function.update w.kind a (some K) b = w.kind b := by
    intro b hb
    refine Function.update_of_ne ?_ _ _
    rintro rfl
    exact hb ha
  exact { h with
    var := by
      intro v b hb
      have := h.var v b hb
      rwa [← hkind b this] at this
    target := by
      intro b m t ht
      have := h.target b m t ht
      exact (hkind t (by rw [this]; simp)).trans this
    holder := by
      intro b m t ht
      obtain ⟨K', hK', hhas⟩ := h.holder b m t ht
      exact ⟨K', (hkind b (by rw [hK']; simp)).trans hK', hhas⟩
    owned := by
      intro b hb
      by_cases hne : b = a
      · exact .inr (by rw [hne]; exact List.mem_cons_self)
      · have hb' : w.kind b ≠ none := fun hnone => hb ((Function.update_of_ne hne _ _).trans hnone)
        exact (h.owned b hb').imp id (List.mem_cons_of_mem a)
    typed := by
      intro b n hown
      obtain ⟨r, hr, hK'⟩ := h.typed b n hown
      exact ⟨r, hr, (hkind b (by rw [hK']; simp)).trans hK'⟩
    socket := by
      intro b n hb hown
      obtain ⟨r, -, hK'⟩ := h.typed b n hown
      exact h.socket b n ((hkind b (by rw [hK']; simp)).symm.trans hb) hown }

/-- **The default constructor.** -/
theorem construct (h : Inv g d w) (hfree : w.ptrs.ref (.var v) = none) (ha : w.kind a = none) :
    Inv g d (w.construct v K a) := by
  have hcreate : Inv g (a :: d) { w with kind := Function.update w.kind a (some K) } := h.create ha
  have hpoint := hcreate.point_var (p := some a) hfree fun b hb => by
    rw [← Option.some.inj hb]
    show Function.update w.kind a (some K) a ≠ none
    rw [Function.update_self]
    simp
  exact hpoint.settled (SharedPtrs.owned_of_ref SharedPtrs.ref_set_self)

theorem owns_acquire_iff {anchor : Anchor} (ha : (w.res a).id = 0) (ha0 : a ≠ 0) :
    (w.acquire a K anchor).Owns b n ↔ b = a ∧ n = a ∨ w.Owns b n := by
  unfold World.Owns World.acquire
  dsimp only
  by_cases hne : b = a
  · subst hne
    rw [Function.update_self]
    constructor
    · rintro ⟨-, hid⟩
      exact .inl ⟨rfl, hid.symm⟩
    · rintro (⟨-, rfl⟩ | ⟨hn, hid⟩)
      · exact ⟨ha0, rfl⟩
      · exact absurd (hid.symm.trans ha) hn
  · rw [Function.update_of_ne hne]
    exact ⟨.inr, fun h => h.resolve_left fun h' => hne h'.1⟩

theorem acquire_ref_of_ne {anchor : Anchor} {l : Loc}
    (hl : ∀ q ∈ anchor.ref, l ≠ .member a q.1) :
    (w.acquire a K anchor).ptrs.ref l = w.ptrs.ref l := by
  unfold World.acquire
  dsimp only
  cases hq : anchor.ref with
  | none => rfl
  | some q => exact SharedPtrs.ref_set_of_ne (hl q hq)

theorem acquire_ref {anchor : Anchor} (hmembers : ∀ m, w.ptrs.ref (.member a m) = none) {l : Loc}
    {t : ℕ} : (w.acquire a K anchor).ptrs.ref l = some t ↔
      (∃ q ∈ anchor.ref, l = .member a q.1 ∧ t = q.2) ∨ w.ptrs.ref l = some t := by
  unfold World.acquire
  dsimp only
  cases hq : anchor.ref with
  | none => simp
  | some q =>
    dsimp only
    by_cases hl : l = .member a q.1
    · subst hl
      rw [SharedPtrs.ref_set_self, hmembers q.1]
      simp [eq_comm]
    · rw [SharedPtrs.ref_set_of_ne hl]
      simp [hl]

/-- **A new handle is given a resource**, and the reference to its anchor. -/
theorem acquire (h : Inv g d w) {anchor : Anchor} (hkind : w.kind a = some K) (ha0 : a ≠ 0)
    (hmade : w.made a = none) (hres : (w.res a).id = 0)
    (hmembers : ∀ m, w.ptrs.ref (.member a m) = none)
    (hfree : ∀ y m, w.ptrs.ref (.member y m) ≠ some a)
    (hanchor : ∀ q ∈ anchor.ref, w.kind q.2 = some q.1.target ∧ K.has q.1 = true)
    (hroot : ∀ x k, anchor = .context x k → w.ptrs.ref (.member x .socket) = k) :
    Inv g d (w.acquire a K anchor) := by
  have hold : ∀ n r, n ≠ a → ((w.acquire a K anchor).made n = some r ↔ w.made n = some r) := by
    intro n r hne
    rw [show (w.acquire a K anchor).made n = w.made n from Function.update_of_ne hne _ _]
  have hnew : (w.acquire a K anchor).made a = some ⟨K, anchor⟩ := Function.update_self ..
  have howned : ∀ b n, w.Owns b n → n ≠ a := by
    rintro b n hown rfl
    obtain ⟨r, hr, -⟩ := h.typed b n hown
    rw [hmade] at hr
    simp at hr
  have hclosed : w.closes a = 0 := h.unmade a hmade
  exact {
    var := by
      intro v b hb
      rcases (acquire_ref hmembers).mp hb with ⟨q, -, hl, -⟩ | hb
      · simp at hl
      · exact h.var v b hb
    target := by
      intro b m t ht
      rcases (acquire_ref hmembers).mp ht with ⟨q, hq, hl, rfl⟩ | ht
      · rw [(Loc.member.inj hl).2]
        exact (hanchor q hq).1
      · exact h.target b m t ht
    holder := by
      intro b m t ht
      rcases (acquire_ref hmembers).mp ht with ⟨q, hq, hl, -⟩ | ht
      · obtain ⟨rfl, rfl⟩ := Loc.member.inj hl
        exact ⟨K, hkind, (hanchor q hq).2⟩
      · exact h.holder b m t ht
    owned := by
      intro b hb
      refine (h.owned b hb).imp (fun howned => ?_) id
      obtain ⟨l, hl⟩ := SharedPtrs.owned_iff.mp howned
      exact SharedPtrs.owned_of_ref ((acquire_ref hmembers).mpr (.inr hl))
    unclosed := by
      intro b n hown
      rcases (owns_acquire_iff hres ha0).mp hown with ⟨-, rfl⟩ | hown
      · exact hclosed
      · exact h.unclosed b n hown
    typed := by
      intro b n hown
      rcases (owns_acquire_iff hres ha0).mp hown with ⟨rfl, rfl⟩ | hown
      · exact ⟨⟨K, anchor⟩, hnew, hkind⟩
      · obtain ⟨r, hr, hr'⟩ := h.typed b n hown
        exact ⟨r, (hold n r (howned b n hown)).mpr hr, hr'⟩
    anchored := by
      intro b n r hown hr hclose q hq
      refine (acquire_ref hmembers).mpr ?_
      rcases (owns_acquire_iff hres ha0).mp hown with ⟨rfl, rfl⟩ | hown
      · rw [hnew, Option.some.injEq] at hr
        subst hr
        exact .inl ⟨q, hq, rfl, rfl⟩
      · exact .inr (h.anchored b n r hown ((hold n r (howned b n hown)).mp hr) hclose q hq)
    unique := by
      intro b c n hb hc
      rcases (owns_acquire_iff hres ha0).mp hb with ⟨hba, hna⟩ | hb'
      · rcases (owns_acquire_iff hres ha0).mp hc with ⟨hca, -⟩ | hc'
        · exact hba.trans hca.symm
        · exact absurd hna (howned c n hc')
      · rcases (owns_acquire_iff hres ha0).mp hc with ⟨-, hna⟩ | hc'
        · exact absurd hna (howned b n hb')
        · exact h.unique b c n hb' hc'
    kept := by
      intro n r hr hclose hn
      by_cases hne : n = a
      · exact ⟨a, (owns_acquire_iff hres ha0).mpr (.inl ⟨rfl, hne⟩)⟩
      · obtain ⟨b, hb⟩ := h.kept n r ((hold n r hne).mp hr) hclose hn
        exact ⟨b, (owns_acquire_iff hres ha0).mpr (.inr hb)⟩
    socket := by
      intro b n hb hown
      rcases (owns_acquire_iff hres ha0).mp hown with ⟨rfl, rfl⟩ | hown
      · rfl
      · exact h.socket b n hb hown
    once := h.once
    unmade := by
      intro n hn
      have hne : n ≠ a := by
        rintro rfl
        rw [hnew] at hn
        simp at hn
      rw [show (w.acquire a K anchor).made n = w.made n from Function.update_of_ne hne _ _] at hn
      exact h.unmade n hn
    zero := (Function.update_of_ne ha0.symm _ _).trans h.zero
    rooted := by
      intro hg n r x k hr hclose heq hn
      by_cases hne : n = a
      · subst hne
        rw [hnew, Option.some.injEq] at hr
        have hanc : anchor = .context x k := by
          rw [← heq, ← hr]
        rw [acquire_ref_of_ne fun q hq => ?_]
        · exact hroot x k hanc
        · rw [hanc] at hq
          rw [show q = (Member.context, x) from (Option.some.inj hq).symm]
          simp
      · have hr' := (hold n r hne).mp hr
        obtain ⟨y, -, hy⟩ := h.exists_holder hr' hclose hn
        have hyx : w.ptrs.ref (.member y .context) = some x :=
          hy (.context, x) (by rw [heq]; rfl)
        have hxa : x ≠ a := by
          rintro rfl
          exact hfree y _ hyx
        rw [acquire_ref_of_ne fun q _ => by simp [hxa]]
        exact h.rooted hg n r x k hr' hclose heq hn }

/-! ## Moves -/

theorem take_ref_src {m : Member} : (w.take b a).ptrs.ref (.member a m) = none := by
  unfold World.take
  dsimp only
  cases m with
  | socket => exact SharedPtrs.ref_move_src
  | context =>
    by_cases hne : a = b
    · subst hne
      rw [SharedPtrs.ref_move_of_ne (by simp) (by simp)]
      exact SharedPtrs.ref_move_src
    · rw [SharedPtrs.ref_move_of_ne (by simp) (by simp)]
      exact SharedPtrs.ref_move_src

theorem take_ref_dst (hne : a ≠ b) {m : Member} :
    (w.take b a).ptrs.ref (.member b m) = w.ptrs.ref (.member a m) := by
  have hne' : ∀ m, Loc.member b m ≠ .member a m := fun m h => hne (Loc.member.inj h).1.symm
  unfold World.take
  dsimp only
  cases m with
  | socket =>
    rw [SharedPtrs.ref_move_dst (hne' _), SharedPtrs.ref_move_of_ne (by simp) (by simp)]
  | context =>
    rw [SharedPtrs.ref_move_of_ne (by simp) (by simp), SharedPtrs.ref_move_dst (hne' _)]

theorem take_ref_var : (w.take b a).ptrs.ref (.var v) = w.ptrs.ref (.var v) :=
  (SharedPtrs.ref_move_of_ne (by simp) (by simp)).trans
    (SharedPtrs.ref_move_of_ne (by simp) (by simp))

theorem take_ref_of_ne {x : ℕ} {m : Member} (ha : x ≠ a) (hb : x ≠ b) :
    (w.take b a).ptrs.ref (.member x m) = w.ptrs.ref (.member x m) :=
  (SharedPtrs.ref_move_of_ne (by simp [ha]) (by simp [hb])).trans
    (SharedPtrs.ref_move_of_ne (by simp [ha]) (by simp [hb]))

/-- Where a member that refers to something after a move was before it. -/
theorem take_ref_some (hne : a ≠ b) {x t : ℕ} {m : Member}
    (h : (w.take b a).ptrs.ref (.member x m) = some t) :
    x = b ∧ w.ptrs.ref (.member a m) = some t ∨
      x ≠ b ∧ w.ptrs.ref (.member x m) = some t := by
  by_cases hb : x = b
  · subst hb
    rw [take_ref_dst hne] at h
    exact .inl ⟨rfl, h⟩
  · by_cases ha : x = a
    · subst ha
      rw [take_ref_src] at h
      simp at h
    · rw [take_ref_of_ne ha hb] at h
      exact .inr ⟨hb, h⟩

theorem owns_take_iff {x : ℕ} (hne : a ≠ b) :
    (w.take b a).Owns x n ↔ x = b ∧ w.Owns a n ∨ x ≠ a ∧ x ≠ b ∧ w.Owns x n := by
  have hres : (w.take b a).res =
      Function.update (Function.update w.res b (w.res a)) a .empty := rfl
  unfold World.Owns
  rw [hres]
  by_cases ha : x = a
  · subst ha
    rw [Function.update_self]
    constructor
    · rintro ⟨hn, hid⟩
      exact absurd hid.symm hn
    · rintro (⟨hb, -⟩ | ⟨hx, -⟩)
      · exact absurd hb hne
      · exact absurd rfl hx
  · rw [Function.update_of_ne ha]
    by_cases hb : x = b
    · subst hb
      rw [Function.update_self]
      exact ⟨fun h => .inl ⟨rfl, h⟩, fun h => h.elim (fun h => h.2) fun h => absurd rfl h.2.1⟩
    · rw [Function.update_of_ne hb]
      exact ⟨fun h => .inr ⟨ha, hb, h⟩, fun h => h.elim (fun h => absurd h.1 hb) fun h => h.2.2⟩

/-- **A move takes the resource along with its anchor.** What the destination
referred to may be left to be destroyed. -/
theorem take (h : Inv g d w) (hne : a ≠ b) (ha : w.kind a = some K) (hb : w.kind b = some K)
    (hK : K ≠ .socket) (hres : (w.res b).id = 0)
    (hgentle : g → ∀ y, w.ptrs.ref (.member y .context) ≠ some a ∧
      w.ptrs.ref (.member y .context) ≠ some b) :
    Inv g ((w.ptrs.ref (.member b .context)).toList ++
      ((w.ptrs.ref (.member b .socket)).toList ++ d)) (w.take b a) where
  var := by
    intro v c hc
    rw [take_ref_var] at hc
    exact h.var v c hc
  target := by
    intro x m t ht
    rcases take_ref_some hne ht with ⟨-, ht⟩ | ⟨-, ht⟩
    · exact h.target a m t ht
    · exact h.target x m t ht
  holder := by
    intro x m t ht
    rcases take_ref_some hne ht with ⟨rfl, ht'⟩ | ⟨-, ht'⟩
    · obtain ⟨K', hK', hhas⟩ := h.holder a m t ht'
      rw [ha, Option.some.injEq] at hK'
      exact ⟨K, hb, by rw [hK']; exact hhas⟩
    · exact h.holder x m t ht'
  owned := by
    intro c hc
    rcases h.owned c hc with howned | hd
    · obtain ⟨l, hl⟩ := SharedPtrs.owned_iff.mp howned
      cases l with
      | var v => exact .inl (SharedPtrs.owned_of_ref (take_ref_var.trans hl))
      | member x m =>
        by_cases hxa : x = a
        · subst hxa
          exact .inl (SharedPtrs.owned_of_ref ((take_ref_dst hne).trans hl))
        · by_cases hxb : x = b
          · subst hxb
            right
            cases m <;> rw [hl] <;> simp
          · exact .inl (SharedPtrs.owned_of_ref ((take_ref_of_ne hxa hxb).trans hl))
    · exact .inr (List.mem_append_right _ (List.mem_append_right _ hd))
  unclosed := by
    intro x n hown
    rcases (owns_take_iff hne).mp hown with ⟨-, hown⟩ | ⟨-, -, hown⟩
    · exact h.unclosed a n hown
    · exact h.unclosed x n hown
  typed := by
    intro x n hown
    rcases (owns_take_iff hne).mp hown with ⟨rfl, hown'⟩ | ⟨-, -, hown'⟩
    · obtain ⟨r, hr, hkind⟩ := h.typed a n hown'
      exact ⟨r, hr, hb.trans (ha.symm.trans hkind)⟩
    · exact h.typed x n hown'
  anchored := by
    intro x n r hown hr hclose q hq
    rcases (owns_take_iff hne).mp hown with ⟨rfl, hown'⟩ | ⟨hxa, hxb, hown'⟩
    · exact (take_ref_dst hne).trans (h.anchored a n r hown' hr hclose q hq)
    · exact (take_ref_of_ne hxa hxb).trans (h.anchored x n r hown' hr hclose q hq)
  unique := by
    intro x y n hx hy
    rcases (owns_take_iff hne).mp hx with ⟨hxb, hx'⟩ | ⟨hxa, -, hx'⟩
    · rcases (owns_take_iff hne).mp hy with ⟨hyb, -⟩ | ⟨hya, -, hy'⟩
      · exact hxb.trans hyb.symm
      · exact absurd (h.unique y a n hy' hx') hya
    · rcases (owns_take_iff hne).mp hy with ⟨-, hy'⟩ | ⟨-, -, hy'⟩
      · exact absurd (h.unique x a n hx' hy') hxa
      · exact h.unique x y n hx' hy'
  kept := by
    intro n r hr hclose hn
    obtain ⟨x, hx⟩ := h.kept n r hr hclose hn
    by_cases hxa : x = a
    · subst hxa
      exact ⟨b, (owns_take_iff hne).mpr (.inl ⟨rfl, hx⟩)⟩
    · have hxb : x ≠ b := by
        rintro rfl
        exact hx.1 (hx.2.symm.trans hres)
      exact ⟨x, (owns_take_iff hne).mpr (.inr ⟨hxa, hxb, hx⟩)⟩
  socket := by
    intro x n hx hown
    rcases (owns_take_iff hne).mp hown with ⟨rfl, -⟩ | ⟨-, -, hown⟩
    · exact absurd (Option.some.inj (hb.symm.trans hx)) hK
    · exact h.socket x n hx hown
  once := h.once
  unmade := h.unmade
  zero := h.zero
  rooted := by
    intro hg n r x k hr hclose heq hn
    obtain ⟨y, -, hy⟩ := h.exists_holder hr hclose hn
    have hyx : w.ptrs.ref (.member y .context) = some x := hy (.context, x) (by rw [heq]; rfl)
    have hxa : x ≠ a := by
      rintro rfl
      exact (hgentle hg y).1 hyx
    have hxb : x ≠ b := by
      rintro rfl
      exact (hgentle hg y).2 hyx
    exact (take_ref_of_ne hxa hxb).trans (h.rooted hg n r x k hr hclose heq hn)

end Inv

end Handles

end PyNng
