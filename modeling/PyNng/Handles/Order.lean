import PyNng.Handles.Moved
/-!
# Handles — children before parents

Every statement of a program keeps the order: a socket is closed by its
destructor when everything made on it is, an `nng_aio` is freed while its
handle still refers to its anchor, and nothing is closed twice. Handles
refer to each other in one direction, so that when the last variable is
gone all of them are.
-/

namespace PyNng

namespace Handles

variable {s : State} {w : World} {g : Prop} {d : List ℕ} {a b v : ℕ} {K : Kind}

theorem World.handle_eq_some : w.handle v = some (a, K) ↔
    w.ptrs.ref (.var v) = some a ∧ w.kind a = some K := by
  unfold World.handle
  simp only [Option.bind_eq_some_iff, Option.map_eq_some_iff, Prod.mk.injEq]
  constructor
  · rintro ⟨a', ha', K', hK', rfl, rfl⟩
    exact ⟨ha', hK'⟩
  · rintro ⟨ha, hK⟩
    exact ⟨a, ha, K, hK, rfl, rfl⟩

def Loc.isAnchor : Loc → Bool
  | .member _ .context => true
  | .member _ .socket | .var _ => false

/-- No `AioHandle` has it as its anchor. -/
def World.Unanchored (w : World) (a : ℕ) : Prop :=
  ∀ l ∈ w.ptrs.held, l.isAnchor = true → w.ptrs.ref l ≠ some a

instance (w : World) (a : ℕ) : Decidable (w.Unanchored a) :=
  inferInstanceAs (Decidable (∀ l ∈ w.ptrs.held, l.isAnchor = true → w.ptrs.ref l ≠ some a))

theorem World.Unanchored.ref (h : w.Unanchored a) (y : ℕ) :
    w.ptrs.ref (.member y .context) ≠ some a := by
  intro hy
  exact h _ (w.ptrs.mem_held _ (by rw [hy]; simp)) rfl hy

/-- No handle that is an anchor is moved or assigned to. -/
def Gentle (s : State) : Act → Prop
  | .moveNew v _ _ => ∀ h ∈ s.now.handle v, s.now.Unanchored h.1
  | .moveAssign v w => (∀ h ∈ s.now.handle v, s.now.Unanchored h.1) ∧
      ∀ h ∈ s.now.handle w, s.now.Unanchored h.1
  | _ => True

instance decidableGentle (s : State) : ∀ a, Decidable (Gentle s a)
  | .moveNew v _ _ => inferInstanceAs (Decidable (∀ h ∈ s.now.handle v, s.now.Unanchored h.1))
  | .moveAssign v w => inferInstanceAs (Decidable ((∀ h ∈ s.now.handle v, s.now.Unanchored h.1) ∧
      ∀ h ∈ s.now.handle w, s.now.Unanchored h.1))
  | .construct .. | .make .. | .copy .. | .drop _ | .close _ => inferInstanceAs (Decidable True)

namespace Orderly

/-! ## Every statement keeps the order -/

/-- **A move**, and the release of what the destination referred to. -/
theorem take (h : Orderly g d s) (hne : a ≠ b) (ha : s.now.kind a = some K)
    (hb : s.now.kind b = some K) (hK : K ≠ .socket) (hres : (s.now.res b).id = 0)
    (hgentle : g → ∀ y, s.now.ptrs.ref (.member y .context) ≠ some a ∧
      s.now.ptrs.ref (.member y .context) ≠ some b) : Orderly g d (s.take b a) := by
  have hraw : Orderly g ((s.now.ptrs.ref (.member b .context)).toList ++
      ((s.now.ptrs.ref (.member b .socket)).toList ++ d)) (s.update (.take b a)) :=
    ⟨h.inv.take hne ha hb hK hres hgentle, h.closings, h.counted⟩
  have hcontext := hraw.settleContext fun c hc => h.inv.target b .context c hc
  refine hcontext.settleSocket fun k hk K' hK' => ?_
  have hkind : s.now.kind k = some .socket := h.inv.target b .socket k hk
  rcases (shrinks_settleContext (s.update (.take b a)) _).kind k with heq | hnone
  · rw [heq, show (s.update (.take b a)).now.kind k = s.now.kind k from rfl, hkind] at hK'
    exact (Option.some.inj hK').symm
  · rw [hnone] at hK'
    simp at hK'

theorem drop (h : Orderly g d s) : Orderly g d (s.drop v) := by
  unfold State.drop
  cases hhandle : s.now.handle v with
  | none => exact h
  | some q =>
    obtain ⟨hv, hkind⟩ := World.handle_eq_some.mp hhandle
    have hinv := h.inv.clear (l := .var v) (fun b m hb => by simp at hb) fun x hx => by simp at hx
    rw [hv] at hinv
    have h' : Orderly g (q.1 :: d) (s.update (.point (.var v) none)) :=
      ⟨hinv, h.closings, h.counted⟩
    dsimp only
    split
    · rename_i howned
      exact h'.settled howned
    · rename_i howned
      exact h'.destroy hkind howned

/-- What `operator=` does first leaves the destination empty. -/
theorem vacate (h : Orderly g d s) (hb : s.now.kind b = some K) (hK : K ≠ .socket) :
    Orderly g d (s.vacate K b) ∧ s.now.Shrinks (s.vacate K b).now ∧
      ((s.vacate K b).now.res b).id = 0 := by
  have hclose : ∀ K, K ≠ .socket → Orderly g d (s.closeRes K b false) ∧
      s.now.Shrinks (s.closeRes K b false).now ∧ ((s.closeRes K b false).now.res b).id = 0 :=
    fun K hK => ⟨h.closeRes fun heq => absurd heq hK, shrinks_closeRes s K b _,
      closeRes_res s K b _⟩
  cases K with
  | socket => exact absurd rfl hK
  | context => exact hclose _ hK
  | dialer => exact hclose _ hK
  | listener => exact hclose _ hK
  | aio => exact ⟨h.freeAio hb, shrinks_freeAio s b, freeAio_res s b⟩

theorem moveAssign {v' : ℕ} (h : Orderly g d s) (ha : s.now.handle v = some (a, K))
    (hb : s.now.handle v' = some (b, K)) (hK : K ≠ .socket)
    (hgentle : g → s.now.Unanchored a ∧ s.now.Unanchored b) :
    Orderly g d (s.moveAssign v v') := by
  unfold State.moveAssign
  rw [ha, hb]
  dsimp only
  by_cases hne : a = b
  · rw [if_pos hne]
    exact h
  · rw [if_neg hne]
    obtain ⟨hva, hka⟩ := World.handle_eq_some.mp ha
    obtain ⟨hvb, hkb⟩ := World.handle_eq_some.mp hb
    obtain ⟨h', hshrinks, hres⟩ := h.vacate hkb hK
    have hkind : ∀ c u, s.now.ptrs.ref (.var u) = some c → s.now.kind c = some K →
        (s.vacate K b).now.kind c = some K := by
      intro c u hu hc
      have hlive := h'.inv.var u c ((hshrinks.var u).trans hu)
      exact ((hshrinks.kind c).resolve_right hlive).trans hc
    refine h'.take hne (hkind a v hva hka) (hkind b v' hvb hkb) hK hres fun hg y => ?_
    rcases hshrinks.ref (.member y .context) with heq | hnone
    · rw [heq]
      exact ⟨(hgentle hg).1.ref y, (hgentle hg).2.ref y⟩
    · rw [hnone]
      simp

/-- Nothing refers to a handle that does not exist yet. -/
theorem not_ref_of_fresh (h : Orderly g d s) (hb : s.now.kind b = none) (l : Loc) :
    s.now.ptrs.ref l ≠ some b :=
  fun hl => h.inv.kind_of_owned (SharedPtrs.owned_of_ref hl) hb

theorem construct_ref {m : Member} {y : ℕ} :
    (s.now.construct v K a).ptrs.ref (.member y m) = s.now.ptrs.ref (.member y m) :=
  SharedPtrs.ref_set_of_ne (by simp)

theorem moveNew {v' : ℕ} (h : Orderly g d s) (ha : s.now.handle v = some (a, K))
    (hfree : s.now.ptrs.ref (.var v') = none) (hfresh : s.now.kind b = none) (hK : K ≠ .socket)
    (hgentle : g → s.now.Unanchored a) : Orderly g d (s.moveNew v v' b) := by
  unfold State.moveNew
  rw [ha]
  obtain ⟨hv, hkind⟩ := World.handle_eq_some.mp ha
  have h' : Orderly g d (s.update (.construct v' K b)) :=
    ⟨h.inv.construct hfree hfresh, h.closings, h.counted⟩
  have hne : a ≠ b := by
    rintro rfl
    rw [hkind] at hfresh
    simp at hfresh
  refine h'.take hne ((Function.update_of_ne hne _ _).trans hkind) (Function.update_self ..) hK
    ?_ fun hg y => ?_
  · by_contra hres
    exact h.inv.not_owns hfresh ⟨hres, rfl⟩
  · show (s.now.construct v' K b).ptrs.ref (.member y .context) ≠ some a ∧
      (s.now.construct v' K b).ptrs.ref (.member y .context) ≠ some b
    rw [construct_ref]
    exact ⟨(hgentle hg).ref y, h.not_ref_of_fresh hfresh _⟩

end Orderly

theorem World.Makes.anchor {anchor : Anchor} (h : w.Makes K anchor) :
    ∀ q ∈ anchor.ref, w.kind q.2 = some q.1.target ∧ K.has q.1 = true := by
  intro q hq
  cases anchor with
  | none => simp [Anchor.ref] at hq
  | socket k =>
    rw [show q = (Member.socket, k) from (Option.some.inj hq).symm]
    cases K with
    | socket => exact h.elim
    | context => exact ⟨h.1, rfl⟩
    | dialer => exact ⟨h.1, rfl⟩
    | listener => exact ⟨h.1, rfl⟩
    | aio => exact ⟨h, rfl⟩
  | context x k =>
    rw [show q = (Member.context, x) from (Option.some.inj hq).symm]
    cases K with
    | aio => exact ⟨h, rfl⟩
    | socket => exact h.elim
    | context => exact h.elim
    | dialer => exact h.elim
    | listener => exact h.elim

theorem World.anchor_root {on : Option (Member × ℕ)} {x : ℕ} {k : Option ℕ}
    (h : w.anchor on = .context x k) : w.ptrs.ref (.member x .socket) = k := by
  match on with
  | none => simp [World.anchor] at h
  | some (.socket, v) =>
    unfold World.anchor at h
    cases hv : w.ptrs.ref (.var v) <;> simp [hv] at h
  | some (.context, v) =>
    unfold World.anchor at h
    cases hv : w.ptrs.ref (.var v) with
    | none => simp [hv] at h
    | some y =>
      simp only [hv, Anchor.context.injEq] at h
      rw [← h.1]
      exact h.2

/-- **A constructor that is given a resource.** -/
theorem Orderly.make {on : Option (Member × ℕ)} (h : Orderly g d s)
    (hfree : s.now.ptrs.ref (.var v) = none) (hfresh : s.now.Fresh a)
    (hmakes : s.now.Makes K (s.now.anchor on)) :
    Orderly g d (program.next s (.make v K a on)) := by
  obtain ⟨ha0, hkind, hmade⟩ := hfresh
  have hconstruct := h.inv.construct (K := K) hfree hkind
  refine ⟨hconstruct.acquire (Function.update_self ..) ha0 hmade ?_ ?_ ?_ ?_ ?_, h.closings,
    h.counted⟩
  · show (s.now.res a).id = 0
    by_contra hres
    exact h.inv.not_owns hkind ⟨hres, rfl⟩
  · intro m
    show (s.now.construct v K a).ptrs.ref (.member a m) = none
    rw [construct_ref]
    exact h.member_none fun K' hK' => by rw [hkind] at hK'; simp at hK'
  · intro y m
    show (s.now.construct v K a).ptrs.ref (.member y m) ≠ some a
    rw [construct_ref]
    exact h.not_ref_of_fresh hkind _
  · intro q hq
    obtain ⟨htarget, hhas⟩ := hmakes.anchor q hq
    have hne : q.2 ≠ a := by
      rintro rfl
      rw [hkind] at htarget
      simp at htarget
    exact ⟨(Function.update_of_ne hne _ _).trans htarget, hhas⟩
  · intro x k hx
    show (s.now.construct v K a).ptrs.ref (.member x .socket) = k
    rw [construct_ref]
    exact World.anchor_root hx

theorem Orderly.next (h : Orderly g d s) {act : Act} (hact : Enabled s act)
    (hgentle : g → Gentle s act) : Orderly g d (program.next s act) := by
  cases act with
  | construct v K a => exact ⟨h.inv.construct hact.1 hact.2.2.1, h.closings, h.counted⟩
  | make v K a on => exact h.make hact.1 hact.2.1 hact.2.2
  | copy v v' =>
    exact ⟨h.inv.point_var hact.1 fun a ha => h.inv.var v a ha, h.closings, h.counted⟩
  | drop v => exact h.drop
  | close v =>
    show Orderly g d (Handles.next s (.close v))
    unfold Handles.next
    dsimp only
    cases s.now.handle v with
    | none => exact h
    | some q => exact h.closeRes fun _ hfalse => by simp at hfalse
  | moveNew v v' b =>
    obtain ⟨hfree, hfresh, q, hq, hK⟩ := hact
    exact h.moveNew hq hfree hfresh.2.1 hK fun hg => hgentle hg q hq
  | moveAssign v v' =>
    obtain ⟨q, hq, q', hq', heq, hK⟩ := hact
    refine h.moveAssign (K := q.2) hq ?_ hK fun hg =>
      ⟨(hgentle hg).1 q hq, (hgentle hg).2 q' hq'⟩
    rw [heq]
    exact hq'

theorem orderly_init (g : Prop) : Orderly g [] program.init where
  inv :=
    { var := fun v a h => by simp [program, SharedPtrs.empty] at h
      target := fun a m t h => by simp [program, SharedPtrs.empty] at h
      holder := fun a m t h => by simp [program, SharedPtrs.empty] at h
      owned := fun a h => absurd rfl h
      unclosed := fun a n h => absurd h.2.symm h.1
      typed := fun a n h => absurd h.2.symm h.1
      anchored := fun a n r h => absurd h.2.symm h.1
      unique := fun a b n h => absurd h.2.symm h.1
      kept := fun n r h => by simp [program] at h
      socket := fun a n h => by simp [program] at h
      once := fun n => Nat.zero_le 1
      unmade := fun n _ => rfl
      zero := rfl
      rooted := fun _ n r x k h => by simp [program] at h }
  closings := fun e he => by simp [program] at he
  counted := fun n => rfl

theorem orderly_of_reachWhen {ok : State → Act → Prop} (hok : g → ∀ s a, ok s a → Gentle s a)
    (h : program.ReachWhen ok s) : Orderly g [] s :=
  h.invariant (orderly_init g) fun _ _ _ hs hokay ha => hs.next ha fun hg => hok hg _ _ hokay

/-! ## When the last reference is dropped -/

/-- **Handles refer in one direction**: an aio handle to a context handle, and
both to a socket handle. Without a variable there are none. -/
theorem Inv.none_left (h : Inv g [] w) (hvars : ∀ v, w.ptrs.ref (.var v) = none) :
    ∀ a, w.kind a = none := by
  have howner : ∀ a K, w.kind a = some K →
      ∃ b m, w.ptrs.ref (.member b m) = some a ∧ K = m.target := by
    intro a K hK
    obtain ⟨l, hl⟩ := SharedPtrs.owned_iff.mp
      ((h.owned a (by rw [hK]; simp)).resolve_right (by simp))
    cases l with
    | var v =>
      rw [hvars v] at hl
      simp at hl
    | member b m => exact ⟨b, m, hl, Option.some.inj (hK.symm.trans (h.target b m a hl))⟩
  have hleaf : ∀ a, w.kind a ≠ some .dialer ∧ w.kind a ≠ some .listener ∧ w.kind a ≠ some .aio := by
    intro a
    refine ⟨fun hK => ?_, fun hK => ?_, fun hK => ?_⟩ <;>
    · obtain ⟨b, m, -, hm⟩ := howner a _ hK
      cases m <;> simp [Member.target] at hm
  have hcontext : ∀ a, w.kind a ≠ some .context := by
    intro a hK
    obtain ⟨b, m, hb, hm⟩ := howner a _ hK
    obtain ⟨K, hkind, hhas⟩ := h.holder b m a hb
    cases m with
    | socket => simp [Member.target] at hm
    | context =>
      cases K <;> simp [Kind.has] at hhas
      exact (hleaf b).2.2 hkind
  have hsocket : ∀ a, w.kind a ≠ some .socket := by
    intro a hK
    obtain ⟨b, m, hb, -⟩ := howner a _ hK
    obtain ⟨K, hkind, hhas⟩ := h.holder b m a hb
    cases K with
    | socket => simp [Kind.has] at hhas
    | context => exact hcontext b hkind
    | dialer => exact (hleaf b).1 hkind
    | listener => exact (hleaf b).2.1 hkind
    | aio => exact (hleaf b).2.2 hkind
  intro a
  cases hK : w.kind a with
  | none => rfl
  | some K =>
    cases K with
    | socket => exact absurd hK (hsocket a)
    | context => exact absurd hK (hcontext a)
    | dialer => exact absurd hK (hleaf a).1
    | listener => exact absurd hK (hleaf a).2.1
    | aio => exact absurd hK (hleaf a).2.2

theorem Inv.all_closed (h : Inv g [] w) (hvars : ∀ v, w.ptrs.ref (.var v) = none) {n : ℕ}
    {r : Resource} (hr : w.made n = some r) (hclose : r.kind.closesItself = true) :
    w.closes n = 1 := by
  refine h.closes_eq_one fun hn => ?_
  obtain ⟨a, ha⟩ := h.kept n r hr hclose hn
  exact h.not_owns (h.none_left hvars a) ha

/-! ## Children before parents -/

/-- **The order of a program's calls.** -/
structure ChildrenFirst (s : State) : Prop where
  /-- No resource is closed, or freed, twice. -/
  once : ∀ n, s.calls n ≤ 1
  /-- A destructor closes a socket after its contexts, and after the `nng_aio`s
  whose anchor it is. -/
  closed : ∀ e ∈ s.closings, e.kind = .socket → e.explicit = false →
    e.Closed fun anchor => anchor = .socket e.id
  /-- An `nng_aio` is freed while its handle refers to its anchor, -/
  freed : ∀ e ∈ s.closings, e.Held
  /-- as it does until then. -/
  held : ∀ n r, s.now.made n = some r → r.kind.closesItself = true → s.calls n = 0 →
    ∃ a, s.now.Owns a n ∧ ∀ q ∈ r.anchor.ref, s.now.ptrs.ref (.member a q.1) = some q.2
  /-- Once every reference is dropped everything was closed. -/
  all : (∀ v, s.now.ptrs.ref (.var v) = none) →
    ∀ n r, s.now.made n = some r → r.kind.closesItself = true → s.calls n = 1

theorem Orderly.childrenFirst (h : Orderly g [] s) : ChildrenFirst s where
  once := by
    intro n
    rw [h.counted n]
    exact h.inv.once n
  closed := fun e he hkind hexplicit n r hr hclose hanchor =>
    (h.closings e he).closed hkind hexplicit n r hr hclose (.inl hanchor)
  freed := fun e he => (h.closings e he).held
  held := fun n r hr hclose hn => h.inv.exists_holder hr hclose ((h.counted n).symm.trans hn)
  all := fun hvars n r hr hclose => (h.counted n).trans (h.inv.all_closed hvars hr hclose)

/-- **Children are closed before their parents, once.** In the programs that
move no context handle, and assign to none, while it is an anchor, the
destructor of a socket also finds freed what was anchored to its contexts. -/
theorem children_closed_first {as : List Act} (hv : program.Valid program.init as) :
    ChildrenFirst (program.final program.init as) ∧
      (program.Meets Gentle program.init as →
        ∀ e ∈ (program.final program.init as).closings, e.kind = .socket → e.explicit = false →
          e.Closed fun anchor => anchor.Of e.id) := by
  constructor
  · have hreach := Machine.reach_final hv
    exact (orderly_of_reachWhen (g := False) (fun hfalse => hfalse.elim) hreach).childrenFirst
  · intro hgentle e he hkind hexplicit n r hr hclose hanchor
    have hreach := Machine.reachWhen_final hv hgentle
    have h := orderly_of_reachWhen (g := True) (fun _ _ _ hok => hok) hreach
    exact (h.closings e he).closed hkind hexplicit n r hr hclose (.inr ⟨trivial, hanchor⟩)

/-- A socket with a listener, and a context whose handle is moved before an
`nng_aio` is anchored to it. -/
def nested : List Act :=
  [.make 0 .socket 1 none, .make 1 .context 2 (some (.socket, 0)),
    .make 2 .listener 3 (some (.socket, 0)), .moveNew 1 3 4, .construct 4 .aio 5,
    .make 5 .aio 6 (some (.context, 3)), .make 6 .aio 7 (some (.socket, 0)), .moveAssign 5 4]

/-- The listener is closed, and the variables go in the order of creation. -/
def lettingGo : List Act :=
  [.close 2, .drop 0, .drop 1, .drop 2, .drop 3, .drop 4, .drop 5, .drop 6]

/-- The resources are there, none of them closed; and then they are closed, the
last one first in the list. -/
theorem children_closed_first_nested :
    let before := program.final program.init nested
    let after := program.final program.init (nested ++ lettingGo)
    (before.now.made 2 = some ⟨.context, .socket 1⟩ ∧
        before.now.made 3 = some ⟨.listener, .socket 1⟩ ∧
        before.now.made 6 = some ⟨.aio, .context 4 (some 1)⟩ ∧
        before.now.made 7 = some ⟨.aio, .socket 1⟩ ∧ before.closings.length = 0) ∧
      after.closings.map (fun e => (e.kind, e.id)) =
        [(.socket, 1), (.aio, 7), (.context, 2), (.aio, 6), (.listener, 3)] ∧
      ChildrenFirst after ∧
      ∀ e ∈ after.closings, e.kind = .socket → e.explicit = false →
        e.Closed fun anchor => anchor.Of e.id := by
  obtain ⟨hfirst, hgentle⟩ := @children_closed_first (nested ++ lettingGo) (by decide)
  exact ⟨by decide, by decide, hfirst, hgentle (by decide)⟩

/-- The handle of a context is moved from under an `nng_aio`: the socket is
closed by its destructor and the `nng_aio` is not freed. -/
theorem aio_left_behind :
    let as : List Act := [.make 0 .socket 1 none, .make 1 .context 2 (some (.socket, 0)),
      .make 2 .aio 3 (some (.context, 1)), .moveNew 1 3 4, .drop 0, .drop 3]
    program.Valid program.init as ∧
      ∃ e ∈ (program.final program.init as).closings, e.kind = .socket ∧ e.explicit = false ∧
        e.world.made 2 = some ⟨.context, .socket e.id⟩ ∧
        e.world.made 3 = some ⟨.aio, .context 2 (some e.id)⟩ ∧ e.world.closes 3 = 0 := by
  decide

end Handles

end PyNng
