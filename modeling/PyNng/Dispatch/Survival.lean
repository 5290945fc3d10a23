import PyNng.Dispatch.Model.Loop
/-!
# Dispatch — what the dispatcher thread survives

An operation's callable runs under `except BaseException` and outside the
walk over the registry, so it can do as it likes. The pipe callbacks run
under `except Exception` and inside the walk: a `SystemExit` comes out of
`update_pipes`, and a registry of another size, whoever changed it, raises
at the iterator's `next`, as does one with more to come to than there was.
Either ends the thread, and with it every dispatch after it.

`loop_survives_iff` says that these are the two ways to end it. Sockets
may be freed while a walk goes on (`steady_of_frees`): their removals are
put off. A socket created, or a removal that somebody's look-up commits,
is what changes the size.
-/

namespace PyNng

namespace Dispatch

variable {w : World}

/-! ## One update -/

/-- The callbacks that run under `except Exception`. -/
def Update.guarded (u : Update) : List Callback := u.status ++ u.creation.getD []

/-- The calls due for one socket, in order. -/
def Update.due (socket : ℕ) (u : Update) : List Ran :=
  u.status.map (fun cb => .status socket cb.pipe) ++
    (u.removed.map (fun r => .removed socket r.1) ++
      (u.creation.getD []).map fun cb => .creation socket cb.pipe)

/-- The callback loop gets through unless one raises a `BaseException`. -/
theorem guardedCalls_eq (ran : ℕ → Ran) (cbs : List Callback) (w : World) :
    (guardedCalls ran cbs w).2 = false ↔ ∀ cb ∈ cbs, cb.outcome ≠ .raisesBase := by
  induction cbs generalizing w with
  | nil => simp [guardedCalls]
  | cons cb cbs ih =>
    simp only [guardedCalls, List.mem_cons, forall_eq_or_imp]
    split
    · rename_i hb; simp [hb]
    · rename_i hb; rw [ih]; simp [hb]

/-- Where it gets through, every callback has run. -/
theorem guardedCalls_world (ran : ℕ → Ran) (cbs : List Callback) (w : World)
    (h : ∀ cb ∈ cbs, cb.outcome ≠ .raisesBase) :
    guardedCalls ran cbs w =
      ({ registry := w.registry.after (cbs.flatMap Callback.ops)
         ran := w.ran ++ cbs.map fun cb => ran cb.pipe }, false) := by
  induction cbs generalizing w with
  | nil => simp [guardedCalls]
  | cons cb cbs ih =>
    have hcb : cb.outcome ≠ .raisesBase := h cb List.mem_cons_self
    rw [guardedCalls, if_neg hcb, ih _ fun c hc => h c (List.mem_cons_of_mem _ hc)]
    simp [World.call]

/-- **`update_pipes` lets an exception through** exactly when a callback
raises a `BaseException`. -/
theorem updatePipes_raises_iff (socket : ℕ) (u : Update) (w : World) :
    (updatePipes socket u w).2 = false ↔ ∀ cb ∈ u.guarded, cb.outcome ≠ .raisesBase := by
  simp only [Update.guarded, List.mem_append]
  by_cases hs : ∀ cb ∈ u.status, cb.outcome ≠ .raisesBase
  · simp only [updatePipes, guardedCalls_world _ _ _ hs]
    cases hc : u.creation with
    | none => simpa using hs
    | some cbs =>
      simp only [guardedCalls_eq, Option.getD_some]
      exact ⟨fun h cb hcb => hcb.elim (hs cb) (h cb), fun h cb hcb => h cb (Or.inr hcb)⟩
  · have hraise : (guardedCalls (.status socket) u.status w).2 = true := by
      rw [← Bool.not_eq_false, guardedCalls_eq]; exact hs
    have hsplit :
        updatePipes socket u w = ((guardedCalls (.status socket) u.status w).1, true) := by
      unfold updatePipes
      split
      · rename_i heq; rw [heq]
      · rename_i heq; rw [heq] at hraise; cases hraise
    rw [hsplit]
    exact ⟨fun h => Bool.noConfusion h, fun h => absurd (fun cb hcb => h cb (Or.inl hcb)) hs⟩

/-- Where it does not, every callback due has run. -/
theorem updatePipes_world (socket : ℕ) (u : Update) (w : World)
    (h : ∀ cb ∈ u.guarded, cb.outcome ≠ .raisesBase) :
    updatePipes socket u w =
      ({ registry := w.registry.after (u.guarded.flatMap Callback.ops)
         ran := w.ran ++ u.due socket }, false) := by
  have hs : ∀ cb ∈ u.status, cb.outcome ≠ .raisesBase := fun cb hcb =>
    h cb (List.mem_append_left _ hcb)
  simp only [updatePipes, guardedCalls_world _ _ _ hs]
  cases hc : u.creation with
  | none => simp [Update.guarded, Update.due, removedHooks, hc]
  | some cbs =>
    have hcbs : ∀ cb ∈ cbs, cb.outcome ≠ .raisesBase := fun cb hcb =>
      h cb (List.mem_append_right _ (by simpa [hc] using hcb))
    simp only [guardedCalls_world _ _ _ hcbs]
    simp [Update.guarded, Update.due, removedHooks, hc]

/-! ## One walk -/

/-- The callbacks that the `next` leads to and that run under `except Exception`. -/
def Visit.guarded (v : Visit) : List Callback :=
  match v.found with
  | none => []
  | some (_, u) => u.guarded

/-- The calls due where it leads to. -/
def Visit.due (v : Visit) : List Ran :=
  match v.found with
  | none => []
  | some (socket, u) => u.due socket

/-- What happens to the registry before the `next` and until the one after it. -/
def Visit.ops (v : Visit) : List RegistryOp := v.before ++ v.guarded.flatMap Callback.ops

/-- **The walk is steady**: at each `next`, the last one too, the registry has the
size it had when the walk began, no more is come to than that, and no callback
raises a `BaseException`. -/
def Steady (size : ℕ) (last : List RegistryOp) : ℕ → List Visit → Registry → Prop
  | _, [], r => (r.after last).size = size
  | left, v :: vs, r =>
    ((r.after v.before).size = size ∧ left ≠ 0) ∧
      (∀ cb ∈ v.guarded, cb.outcome ≠ .raisesBase) ∧
      Steady size last (left - 1) vs (r.after v.ops)

/-- What happens to the registry during the walk. -/
def Walk.ops (walk : Walk) : List RegistryOp := walk.visits.flatMap Visit.ops ++ walk.last

section Visit

variable {size left : ℕ} {last : List RegistryOp} {v : Visit} {vs : List Visit}

/-- A registry of another size raises, and so does one entry too many. -/
theorem walkFrom_of_changed (hsize : ¬ ((w.registry.after v.before).size = size ∧ left ≠ 0)) :
    walkFrom size last left (v :: vs) w = (w.meanwhile v.before, true) := by
  rw [walkFrom]
  refine if_pos ?_
  rwa [not_and_or, not_not] at hsize

/-- Past a visit that is steady, the walk goes on from what the visit leaves. -/
theorem walkFrom_of_steady (hsize : (w.registry.after v.before).size = size ∧ left ≠ 0)
    (hb : ∀ cb ∈ v.guarded, cb.outcome ≠ .raisesBase) :
    walkFrom size last left (v :: vs) w = walkFrom size last (left - 1) vs
      { registry := w.registry.after v.ops, ran := w.ran ++ v.due } := by
  have hsame : ¬ ((w.meanwhile v.before).registry.size ≠ size ∨ left = 0) :=
    not_or.mpr ⟨not_not_intro hsize.1, hsize.2⟩
  rw [walkFrom, if_neg hsame]
  cases hf : v.found with
  | none => simp [Visit.ops, Visit.guarded, Visit.due, hf, World.meanwhile]
  | some found =>
    obtain ⟨socket, u⟩ := found
    have hu : ∀ cb ∈ u.guarded, cb.outcome ≠ .raisesBase := by
      simpa [Visit.guarded, hf] using hb
    simp [updatePipes_world socket u _ hu, Visit.ops, Visit.guarded, Visit.due, hf,
      World.meanwhile]

/-- A `BaseException` of a callback comes out of the walk. -/
theorem walkFrom_of_raises (hsize : (w.registry.after v.before).size = size ∧ left ≠ 0)
    (hb : ¬ ∀ cb ∈ v.guarded, cb.outcome ≠ .raisesBase) :
    (walkFrom size last left (v :: vs) w).2 = true := by
  have hsame : ¬ ((w.meanwhile v.before).registry.size ≠ size ∨ left = 0) :=
    not_or.mpr ⟨not_not_intro hsize.1, hsize.2⟩
  rw [walkFrom, if_neg hsame]
  cases hf : v.found with
  | none => exact absurd (fun cb hcb => by simp [Visit.guarded, hf] at hcb) hb
  | some found =>
    obtain ⟨socket, u⟩ := found
    have hu : (updatePipes socket u (w.meanwhile v.before)).2 = true := by
      rw [← Bool.not_eq_false, updatePipes_raises_iff]
      simpa [Visit.guarded, hf] using hb
    dsimp only
    split
    · rfl
    · rename_i heq
      rw [heq] at hu
      cases hu

end Visit

/-- **The walk gets through** exactly when it is steady, and then every callback
due has run. -/
theorem walkFrom_iff (size : ℕ) (last : List RegistryOp) (left : ℕ) (visits : List Visit)
    (w : World) :
    ((walkFrom size last left visits w).2 = false ↔ Steady size last left visits w.registry) ∧
      (Steady size last left visits w.registry → walkFrom size last left visits w =
        ({ registry := w.registry.after (visits.flatMap Visit.ops ++ last)
           ran := w.ran ++ visits.flatMap Visit.due }, false)) := by
  induction visits generalizing left w with
  | nil =>
    refine ⟨?_, fun hsize => ?_⟩
    · rw [walkFrom, Steady, World.meanwhile, decide_eq_false_iff_not, ne_eq, Classical.not_not]
    · have hsize' : (w.registry.after last).size = size := hsize
      simp [walkFrom, World.meanwhile, hsize']
  | cons v vs ih =>
    by_cases hok : ((w.registry.after v.before).size = size ∧ left ≠ 0) ∧
        ∀ cb ∈ v.guarded, cb.outcome ≠ .raisesBase
    · obtain ⟨hsize, hb⟩ := hok
      obtain ⟨hiff, hworld⟩ :=
        ih (left - 1) { registry := w.registry.after v.ops, ran := w.ran ++ v.due }
      rw [walkFrom_of_steady hsize hb]
      refine ⟨?_, fun hall => ?_⟩
      · rw [hiff]
        exact ⟨fun h => ⟨hsize, hb, h⟩, fun h => h.2.2⟩
      · rw [hworld hall.2.2]
        simp
    · have hraise : (walkFrom size last left (v :: vs) w).2 = true := by
        by_cases hsize : (w.registry.after v.before).size = size ∧ left ≠ 0
        · exact walkFrom_of_raises hsize fun hb => hok ⟨hsize, hb⟩
        · rw [walkFrom_of_changed hsize]
      have hnot : ¬ Steady size last left (v :: vs) w.registry := fun h => hok ⟨h.1, h.2.1⟩
      exact ⟨⟨fun h => Bool.noConfusion (hraise.symm.trans h), fun h => absurd h hnot⟩,
        fun h => absurd h hnot⟩

/-- **Sockets may be freed while the walk goes on**: where nothing else happens to
the registry and no callback raises a `BaseException`, the walk is steady. -/
theorem steady_of_frees {size left : ℕ} {last : List RegistryOp} {visits : List Visit}
    {r : Registry} (hr : r.iterating = true) (hsize : r.size = size)
    (hleft : visits.length ≤ left)
    (hb : ∀ v ∈ visits, ∀ cb ∈ v.guarded, cb.outcome ≠ .raisesBase)
    (hops : ∀ op ∈ visits.flatMap Visit.ops ++ last, ∃ key, op = .free key) :
    Steady size last left visits r := by
  induction visits generalizing r left with
  | nil => exact (WeakDict.size_after_frees hr hops).1.trans hsize
  | cons v vs ih =>
    rw [List.flatMap_cons, List.append_assoc] at hops
    rw [List.length_cons] at hleft
    have hv : ∀ op ∈ v.ops, ∃ key, op = .free key := fun op hop =>
      hops op (List.mem_append_left _ hop)
    have hbefore := WeakDict.size_after_frees hr fun op hop =>
      hv op (List.mem_append_left _ hop)
    have hafter := WeakDict.size_after_frees hr hv
    exact ⟨⟨hbefore.1.trans hsize, by omega⟩, hb v List.mem_cons_self,
      ih hafter.2 (hafter.1.trans hsize) (by omega)
        (fun v' hv' => hb v' (List.mem_cons_of_mem _ hv'))
        fun op hop => hops op (List.mem_append_right _ hop)⟩

/-! ## The loop -/

/-- The calls an item makes due. -/
def Item.due : Item → List Ran
  | .op _ none => []
  | .op id (some _) => [.op id]
  | .sentinel _ walk => walk.visits.flatMap Visit.due

/-- The registry as the walk finds it. -/
def registryAt (before : List RegistryOp) (r : Registry) : Registry :=
  (r.after before).beginIteration

/-- The registry after an item that got through. -/
def Item.registryAfter (r : Registry) : Item → Registry
  | .op _ none => r
  | .op _ (some cb) => r.after cb.ops
  | .sentinel before walk => ((registryAt before r).after walk.ops).endIteration

/-- An operation is always harmless, a sentinel where its walk is steady. -/
def Item.Harmless (r : Registry) : Item → Prop
  | .op _ _ => True
  | .sentinel before walk =>
    Steady (registryAt before r).size walk.last (registryAt before r).size walk.visits
      (registryAt before r)

/-- **Every item is harmless** at the registry its predecessors leave. -/
def AllHarmless : Registry → List Item → Prop
  | _, [] => True
  | r, item :: items => item.Harmless r ∧ AllHarmless (item.registryAfter r) items

theorem dispatchOne_iff (w : World) (item : Item) :
    ((dispatchOne w item).2 = false ↔ item.Harmless w.registry) ∧
      (item.Harmless w.registry → dispatchOne w item =
        ({ registry := item.registryAfter w.registry, ran := w.ran ++ item.due }, false)) := by
  cases item with
  | op id callable =>
    cases callable <;> simp [dispatchOne, Item.Harmless, Item.registryAfter, Item.due, World.call]
  | sentinel before walk =>
    obtain ⟨hiff, hworld⟩ := walkFrom_iff (registryAt before w.registry).size walk.last
      (registryAt before w.registry).size walk.visits
      { registry := registryAt before w.registry, ran := w.ran }
    refine ⟨hiff, fun hst => ?_⟩
    have hrun := hworld hst
    simp only [dispatchOne, drainPipeEvents, World.meanwhile]
    unfold registryAt at hrun
    rw [hrun]
    rfl

/-- The items one after the other, however they are taken off the queue. -/
theorem dispatchReady_iff (items : List Item) (w : World) :
    ((dispatchReady items w).2 = false ↔ AllHarmless w.registry items) ∧
      (AllHarmless w.registry items →
        (dispatchReady items w).1.ran = w.ran ++ items.flatMap Item.due) := by
  induction items generalizing w with
  | nil => simp [dispatchReady, AllHarmless]
  | cons item items ih =>
    obtain ⟨hiff, hworld⟩ := dispatchOne_iff w item
    by_cases hitem : item.Harmless w.registry
    · have hstep := hworld hitem
      have hready : dispatchReady (item :: items) w = dispatchReady items
          { registry := item.registryAfter w.registry, ran := w.ran ++ item.due } := by
        simp [dispatchReady, hstep]
      obtain ⟨hrest, hran⟩ := ih
        { registry := item.registryAfter w.registry, ran := w.ran ++ item.due }
      rw [hready]
      refine ⟨?_, fun hall => ?_⟩
      · rw [hrest]; simp [AllHarmless, hitem]
      · rw [hran hall.2]; simp
    · have hraise : (dispatchOne w item).2 = true := by
        rw [← Bool.not_eq_false, hiff]; exact hitem
      have hready : dispatchReady (item :: items) w = ((dispatchOne w item).1, true) := by
        unfold dispatchReady
        split
        · rename_i heq; rw [heq]
        · rename_i heq; rw [heq] at hraise; cases hraise
      rw [hready]
      exact ⟨⟨fun h => Bool.noConfusion h, fun h => absurd h.1 hitem⟩,
        fun h => absurd h.1 hitem⟩

theorem dispatchReady_append (items items' : List Item) (w : World) :
    dispatchReady (items ++ items') w =
      match dispatchReady items w with
      | (w, true) => (w, true)
      | (w, false) => dispatchReady items' w := by
  induction items generalizing w with
  | nil => rfl
  | cons item items ih =>
    simp only [List.cons_append, dispatchReady]
    split
    · rfl
    · exact ih _

/-- **The loop is the dispatch of the items in push order.** -/
theorem aioDispatchLoop_eq (rounds : List Round) (w : World) :
    aioDispatchLoop rounds w = dispatchReady (rounds.flatMap Round.items) w := by
  induction rounds generalizing w with
  | nil => rfl
  | cons r rs ih =>
    rw [List.flatMap_cons, Round.items, List.append_assoc, dispatchReady_append]
    rcases hready : dispatchReady r.ready w with ⟨w', raised⟩
    cases raised with
    | true => simp only [aioDispatchLoop, hready]
    | false =>
      cases hwaited : r.waited with
      | none => simp [aioDispatchLoop, hready, hwaited, ih]
      | some item =>
        -- what `wait_for` returns is dispatched before the next round
        rcases hitem : dispatchOne w' item with ⟨w'', raised⟩
        cases raised <;> simp [aioDispatchLoop, dispatchReady, hready, hwaited, hitem, ih]

/-- **When the dispatcher survives.** However the items come to it, the
loop goes on to the last of them and every call due is made, exactly when
at every sentinel the registry has at each `next` of the walk the size it had
when the walk began, whatever the callbacks and other threads do to it, and
the walk comes to no more entries than that; and no status or creation
callback due at a socket the walk comes to raises a `BaseException` that is
no `Exception`. -/
theorem loop_survives_iff (rounds : List Round) (w : World) :
    ((aioDispatchLoop rounds w).2 = false ∧ (aioDispatchLoop rounds w).1.ran =
        w.ran ++ (rounds.flatMap Round.items).flatMap Item.due) ↔
      AllHarmless w.registry (rounds.flatMap Round.items) := by
  rw [aioDispatchLoop_eq]
  obtain ⟨hiff, hran⟩ := dispatchReady_iff (rounds.flatMap Round.items) w
  exact ⟨fun h => hiff.mp h.1, fun h => ⟨hiff.mpr h, hran h⟩⟩

/-- A callback of pipe 1 that ends so. -/
def ending (outcome : PyOutcome) (ops : List RegistryOp) : Callback := { pipe := 1, outcome, ops }

/-- At socket 1 the status callback is due, and `on_new_pipe` for pipe 2; a second
socket, if any, is come to after it. -/
def statusThenNew (cb : Callback) (others : List Visit) : Item :=
  .sentinel [] {
    visits := ⟨[], some (1, {
      status := [cb]
      removed := []
      creation := some [{ pipe := 2, outcome := .returns, ops := [] }] })⟩ :: others
    last := [] }

/-- **A status callback that raises `SystemExit` ends the dispatcher**, and so does
one that creates a socket, and one during which another thread frees socket 2 and
looks a pipe up: operation 5 is never dispatched. Freed without a look-up, socket 2
is skipped and the operation dispatched. -/
theorem dispatcher_dies :
    ¬ (∀ (rounds : List Round) (w : World), (aioDispatchLoop rounds w).2 = false ∧
        (aioDispatchLoop rounds w).1.ran =
          w.ran ++ (rounds.flatMap Round.items).flatMap Item.due) ∧
      aioDispatchLoop [⟨[statusThenNew (ending .raisesBase []) [],
        .op 5 (some (ending .returns []))], none⟩] ⟨.ofKeys [1], []⟩ =
          (⟨.ofKeys [1], [.status 1 1]⟩, true) ∧
      aioDispatchLoop [⟨[statusThenNew (ending .returns [.set 9]) [],
        .op 5 (some (ending .returns []))], none⟩] ⟨.ofKeys [1], []⟩ =
          (⟨.ofKeys [1, 9], [.status 1 1, .creation 1 2]⟩, true) ∧
      aioDispatchLoop [⟨[statusThenNew (ending .returns [.free 2, .get]) [⟨[], none⟩],
        .op 5 (some (ending .returns []))], none⟩] ⟨.ofKeys [1, 2], []⟩ =
          (⟨.ofKeys [1], [.status 1 1, .creation 1 2]⟩, true) ∧
      aioDispatchLoop [⟨[statusThenNew (ending .returns [.free 2]) [⟨[], none⟩],
        .op 5 (some (ending .returns []))], none⟩] ⟨.ofKeys [1, 2], []⟩ =
          (⟨.ofKeys [1], [.status 1 1, .creation 1 2, .op 5]⟩, false) := by
  refine ⟨fun hclaim => ?_, by decide, by decide, by decide, by decide⟩
  have hsurvives := (hclaim [⟨[statusThenNew (ending .raisesBase []) []], none⟩]
    ⟨.ofKeys [1], []⟩).1
  revert hsurvives
  decide

end Dispatch

end PyNng
