import PyNng.Common.Machine
import PyNng.Pipe.Status
/-!
# Pipe — what the collection represents

One collection under the events of any number of pipes, in any order the
pipes' own orders allow, with one filter or none for the whole run. The
filter may be shared: its objects change by other hands too.

`logged` is the filter with a list of the calls of its hooks beside its
objects. `handle_event` does the same with it (`logged_handleEvent`), and
so what it writes down is what the filter was told.
-/

namespace PyNng

variable {σ : Type}

/-! ## The calls of a filter's hooks -/

/-- A call of a hook, and what it was shown. -/
inductive HookCall
  | added (info : PipeFilterInfo)
  | removed (info : PipeFilterInfo)
  deriving DecidableEq, Repr

/-- It is `on_added`, of the pipe. -/
def HookCall.isAdded (p : ℕ) : HookCall → Bool
  | .added info => info.pipeId = p
  | .removed _ => false

/-- It is `on_removed`, of the pipe. -/
def HookCall.isRemoved (p : ℕ) : HookCall → Bool
  | .added _ => false
  | .removed info => info.pipeId = p

/-- The filter, which also writes down the calls of its hooks. -/
def IPipeFilter.logged (f : IPipeFilter σ) : IPipeFilter (σ × List HookCall) where
  allow info o := ((f.allow info o.1).1, (f.allow info o.1).2, o.2)
  onAdded info o := (f.onAdded info o.1, o.2 ++ [.added info])
  onRemoved info o := (f.onRemoved info o.1, o.2 ++ [.removed info])

namespace PipeCollection

variable {c : PipeCollection σ} {n : NngPipe} {p : ℕ} {ev : PipeEv}

/-- The collection with the logged filter. -/
def logged (c : PipeCollection σ) (log : List HookCall) : PipeCollection (σ × List HookCall) :=
  { pipes := c.pipes, status := c.status, made := c.made, flag := c.flag,
    filter := c.filter.map IPipeFilter.logged, objects := (c.objects, log) }

/-- The hooks an event calls. -/
def hookCalls (c : PipeCollection σ) (n : NngPipe) (p : ℕ) : PipeEv → List HookCall
  | .addPost =>
    match c.filter, c.find p with
    | some _, some _ => [.added (n.info p)]
    | _, _ => []
  | .remPost =>
    match c.filter, c.find p with
    | some _, some h => [.removed (h.nng.info h.id)]
    | _, _ => []
  | _ => []

theorem find_logged (c : PipeCollection σ) (log : List HookCall) (p : ℕ) :
    (c.logged log).find p = c.find p := rfl

theorem filter_logged (c : PipeCollection σ) (log : List HookCall) :
    (c.logged log).filter = c.filter.map IPipeFilter.logged := rfl

theorem logged_remove (c : PipeCollection σ) (log : List HookCall) (p : ℕ) :
    (c.logged log).remove p = (c.remove p).logged log := by
  cases hp : c.find p with
  | none => simp only [remove, find_logged, hp]
  | some h =>
    simp only [remove, find_logged, hp]
    rfl

/-- **The log changes nothing.** An event does to the collection what it
does without it, and the log grows by the hooks called. -/
theorem logged_handleEvent (c : PipeCollection σ) (log : List HookCall) (n : NngPipe) (p : ℕ)
    (ev : PipeEv) :
    (c.logged log).handleEvent n p ev =
      ((c.handleEvent n p ev).1.logged (log ++ c.hookCalls n p ev),
        (c.handleEvent n p ev).2) := by
  cases ev with
  | none =>
    simp only [handleEvent, hookCalls, List.append_nil]
    rfl
  | addPre =>
    cases hf : c.filter with
    | none =>
      simp only [handleEvent, hookCalls, filter_logged, hf, Option.map_none, List.append_nil]
      rfl
    | some f =>
      cases ha : (f.allow (n.info p) c.objects).1 with
      | true =>
        simp only [handleEvent, hookCalls, hf, Option.map_some, List.append_nil,
          IPipeFilter.logged, logged, ha, if_true]
        rfl
      | false =>
        simp only [handleEvent, hookCalls, hf, Option.map_some, List.append_nil,
          IPipeFilter.logged, logged, ha, Bool.false_eq_true, if_false]
  | addPost =>
    cases hp : c.find p with
    | none =>
      simp only [handleEvent, hookCalls, find_logged, hp]
      cases c.filter <;> simp only [List.append_nil] <;> rfl
    | some h =>
      cases hf : c.filter with
      | none =>
        simp only [handleEvent, hookCalls, find_logged, hp, setStatus, filter_logged, hf,
          Option.map_none, List.append_nil]
        rfl
      | some f =>
        simp only [handleEvent, hookCalls, find_logged, hp, setStatus, filter_logged, hf,
          Option.map_some]
        rfl
  | remPost =>
    cases hf : c.filter with
    | none =>
      simp only [handleEvent, hookCalls, filter_logged, hf, Option.map_none, List.append_nil,
        logged_remove]
      rfl
    | some f =>
      cases hp : c.find p with
      | none =>
        simp only [handleEvent, hookCalls, filter_logged, find_logged, hf, hp, Option.map_some,
          List.append_nil, logged_remove]
        rfl
      | some h =>
        -- the hook is called first, on the objects as they are
        have hremove := logged_remove { c with objects := f.onRemoved (h.nng.info h.id) c.objects }
          (log ++ [.removed (h.nng.info h.id)]) p
        rw [hf] at hremove
        simp only [handleEvent, hookCalls, filter_logged, find_logged, hf, hp, Option.map_some]
        exact Prod.ext (congrArg noteEvent hremove) rfl

/-- The hooks an event calls, told by the pipe: `on_added` as the handle
turns active, `on_removed` as it is let go, and only where there is a filter
and a handle. -/
theorem countP_hookCalls (c : PipeCollection σ) (n : NngPipe) (p : ℕ) (ev : PipeEv) (q : ℕ) :
    (c.hookCalls n p ev).countP (HookCall.isAdded q) =
        (if ev = .addPost ∧ q = p ∧ c.filter.isSome ∧ p ∈ c.ids then 1 else 0) ∧
      (c.hookCalls n p ev).countP (HookCall.isRemoved q) =
        if ev = .remPost ∧ q = p ∧ c.filter.isSome ∧ p ∈ c.ids then 1 else 0 := by
  have hid : ∀ h, c.find p = some h → h.id = p := fun h hp => by
    simpa using List.find?_some hp
  cases hf : c.filter with
  | none => cases ev <;> simp [hookCalls, hf]
  | some f =>
    cases hp : c.find p with
    | none =>
      have hout := find_eq_none_iff.mp hp
      cases ev <;> simp [hookCalls, hf, hp, hout]
    | some h =>
      have hin := find_isSome_iff.mp ⟨h, hp⟩
      have hsym : ∀ x : ℕ, x = q ↔ q = x := fun x => eq_comm
      cases ev <;>
        simp [hookCalls, hf, hp, hin, HookCall.isAdded, HookCall.isRemoved, NngPipe.info, hid h hp,
          List.countP_cons, hsym]

/-- What `remove` tells the handles. -/
theorem status_remove {h : PipeHandle} (hp : c.find p = some h) (r : ℕ) :
    (c.remove p).status r = if r = h.ref then .remPost else c.status r := by
  simp [remove, hp, setStatus, Function.update_apply]

end PipeCollection

/-! ## The events of many pipes -/

namespace PipeEvents

/-- The collection, and the history of the events. -/
structure State (σ : Type) where
  coll : PipeCollection σ
  /-- History: the calls of the filter's hooks. -/
  hooks : List HookCall
  /-- History: the pipe's latest event. -/
  latest : ℕ → PipeEv
  /-- History: the pipes whose `ADD_PRE` was accepted, in that order. -/
  accepted : List ℕ

inductive Act (σ : Type)
  /-- An event, with what nng's getters tell of the pipe then. -/
  | event (n : NngPipe) (p : ℕ) (ev : PipeEv)
  | hadEvents
  /-- The filter's objects change by other hands. -/
  | objects (o : σ)

/-- The order of one pipe's events. -/
def Orderly (s : State σ) (p : ℕ) : PipeEv → Prop
  | .none => False
  | .addPre => s.latest p = .none
  | .addPost => s.latest p = .addPre ∧ p ∈ s.accepted
  | .remPost => s.latest p = .addPre ∨ s.latest p = .addPost

instance (s : State σ) (p : ℕ) : ∀ ev, Decidable (Orderly s p ev)
  | .none => inferInstanceAs (Decidable False)
  | .addPre => inferInstanceAs (Decidable (_ = _))
  | .addPost => inferInstanceAs (Decidable (_ ∧ _))
  | .remPost => inferInstanceAs (Decidable (_ ∨ _))

def Enabled (s : State σ) : Act σ → Prop
  | .event _ p ev => Orderly s p ev
  | .hadEvents | .objects _ => True

instance (s : State σ) : ∀ a, Decidable (Enabled s a)
  | .event _ p ev => inferInstanceAs (Decidable (Orderly s p ev))
  | .hadEvents | .objects _ => inferInstanceAs (Decidable True)

def next (s : State σ) : Act σ → State σ
  | .event n p ev =>
    { coll := (s.coll.handleEvent n p ev).1
      hooks := ((s.coll.logged s.hooks).handleEvent n p ev).1.objects.2
      latest := Function.update s.latest p ev
      accepted :=
        if ev = .addPre ∧ s.coll.refuses n p = false then s.accepted ++ [p] else s.accepted }
  | .hadEvents => { s with coll := s.coll.hadEvents.2 }
  | .objects o => { s with coll := { s.coll with objects := o } }

/-- **The machine of one collection**, without `clear`. -/
def events (filter : Option (IPipeFilter σ)) (objects : σ) : Machine (State σ) (Act σ) where
  init := { coll := .new filter objects, hooks := [], latest := fun _ => .none, accepted := [] }
  Enabled := Enabled
  next := next

instance (filter : Option (IPipeFilter σ)) (objects : σ) (s : State σ) (a : Act σ) :
    Decidable ((events filter objects).Enabled s a) :=
  inferInstanceAs (Decidable (Enabled s a))

/-- How often `on_added` was called for the pipe. -/
def State.timesAdded (s : State σ) (p : ℕ) : ℕ := s.hooks.countP (HookCall.isAdded p)

/-- How often `on_removed` was. -/
def State.timesRemoved (s : State σ) (p : ℕ) : ℕ := s.hooks.countP (HookCall.isRemoved p)

variable {s : State σ} {n : NngPipe} {p : ℕ} {ev : PipeEv} {filter : Option (IPipeFilter σ)}
  {objects : σ}

theorem hooks_event : (next s (.event n p ev)).hooks = s.hooks ++ s.coll.hookCalls n p ev := by
  show ((s.coll.logged s.hooks).handleEvent n p ev).1.objects.2 = _
  rw [PipeCollection.logged_handleEvent]
  rfl

/-! ## What the collection holds -/

/-- **The representation**: what a collection holds, of the pipes accepted
and the latest event of each. -/
structure Represents (c : PipeCollection σ) (latest : ℕ → PipeEv) (accepted : List ℕ) : Prop where
  ids : c.ids = accepted.filter fun p => latest p ≠ .remPost
  nodup : accepted.Nodup
  seen : ∀ q ∈ accepted, latest q ≠ .none
  status : ∀ x ∈ c.pipes, c.status x.ref = latest x.id
  tracks : c.Tracks

namespace Represents

variable {c c' : PipeCollection σ} {latest : ℕ → PipeEv} {accepted : List ℕ}

theorem of_sameHandles (h : Represents c latest accepted)
    (hs : PipeCollection.SameHandles c c') : Represents c' latest accepted := by
  have hids : c'.ids = c.ids := by
    unfold PipeCollection.ids
    rw [hs.pipes]
  refine ⟨hids.trans h.ids, h.nodup, h.seen, fun x hx => ?_, hs.tracks h.tracks⟩
  rw [hs.status]
  exact h.status x (hs.pipes ▸ hx)

theorem mem_ids (h : Represents c latest accepted) {q : ℕ} :
    q ∈ c.ids ↔ q ∈ accepted ∧ latest q ≠ .remPost := by
  rw [h.ids]
  simp

/-- No id is held twice. -/
theorem nodup_ids (h : Represents c latest accepted) : c.ids.Nodup := by
  rw [h.ids]
  exact h.nodup.filter _

/-- A pipe before its `ADD_PRE` was not accepted, nor is it held. -/
theorem not_mem (h : Represents c latest accepted) (hp : latest p = .none) :
    p ∉ accepted ∧ ∀ x ∈ c.pipes, x.id ≠ p := by
  have hout : p ∉ accepted := fun hin => h.seen p hin hp
  exact ⟨hout, fun x hx hxp => hout (h.mem_ids.mp (List.mem_map.mpr ⟨x, hx, hxp⟩)).1⟩

/-- Handles of one reference are one handle, and so are handles of one id. -/
theorem eq_of_ref_or_id (h : Represents c latest accepted) {x y : PipeHandle} (hx : x ∈ c.pipes)
    (hy : y ∈ c.pipes) (hxy : x.ref = y.ref ∨ x.id = y.id) : x = y :=
  hxy.elim (List.inj_on_of_nodup_map h.tracks.nodup hx hy)
    (List.inj_on_of_nodup_map h.nodup_ids hx hy)

/-- An event of a pipe that was not accepted changes no accepted one. -/
theorem update_of_not_mem (latest : ℕ → PipeEv) (hp : p ∉ accepted) (ev : PipeEv) :
    ∀ q ∈ accepted, Function.update latest p ev q = latest q := by
  intro q hq
  refine Function.update_of_ne ?_ _ _
  rintro rfl
  exact hp hq

/-- An event of a pipe not held: a refused `ADD_PRE`, or its `REM_POST`. -/
theorem pass (h : Represents c latest accepted) (hp : p ∉ accepted) (ev : PipeEv) :
    Represents c (Function.update latest p ev) accepted := by
  have hold := update_of_not_mem latest hp ev
  refine ⟨?_, h.nodup, fun q hq => ?_, fun x hx => ?_, h.tracks⟩
  · rw [h.ids]
    exact List.filter_congr fun q hq => by rw [hold q hq]
  · rw [hold q hq]
    exact h.seen q hq
  · have hin := (h.mem_ids.mp (List.mem_map_of_mem hx)).1
    rw [hold x.id hin]
    exact h.status x hx

/-- `ADD_PRE`, let in. -/
theorem add (h : Represents c latest accepted) (hp : latest p = .none) :
    Represents (c.add p n .addPre) (Function.update latest p .addPre) (accepted ++ [p]) := by
  obtain ⟨hout, hne⟩ := h.not_mem hp
  have hold := update_of_not_mem latest hout .addPre
  refine ⟨?_, ?_, fun q hq => ?_, fun x hx => ?_, (h.tracks.add (Or.inl rfl)).1⟩
  · have hkeep : (accepted.filter fun q => Function.update latest p .addPre q ≠ .remPost) =
        c.ids := by
      rw [h.ids]
      exact List.filter_congr fun q hq => by rw [hold q hq]
    rw [PipeCollection.ids_add, List.filter_append, hkeep]
    simp
  · exact List.nodup_append.mpr ⟨h.nodup, by simp, fun a ha b hb hab => hout (by
      rw [List.mem_singleton.mp hb] at hab
      exact hab ▸ ha)⟩
  · rcases List.mem_append.mp hq with hq | hq
    · rw [hold q hq]
      exact h.seen q hq
    · rw [List.mem_singleton.mp hq, Function.update_self]
      exact PipeEv.noConfusion
  · show Function.update c.status c.made .addPre x.ref = Function.update latest p .addPre x.id
    rcases List.mem_append.mp (show x ∈ c.pipes ++ [⟨c.made, p, n⟩] from hx) with hx | hx
    · have hmade := h.tracks.made x.ref (List.mem_map_of_mem hx)
      rw [Function.update_of_ne (Nat.ne_of_lt hmade), Function.update_of_ne (hne x hx)]
      exact h.status x hx
    · rw [List.mem_singleton.mp hx, Function.update_self, Function.update_self]

/-- `ADD_POST` of a handle held. -/
theorem active (h : Represents c latest accepted) {x : PipeHandle} (hx : c.find p = some x)
    (hp : latest p ≠ .remPost) :
    Represents (c.setStatus x .addPost) (Function.update latest p .addPost) accepted := by
  have hmem : x ∈ c.pipes := List.mem_of_find?_eq_some hx
  have hid : x.id = p := by simpa using List.find?_some hx
  refine ⟨?_, h.nodup, fun q hq => ?_, fun y hy => ?_, (h.tracks.setActive hx).1⟩
  · rw [show (c.setStatus x .addPost).ids = c.ids from rfl, h.ids]
    refine List.filter_congr fun q _ => ?_
    by_cases hq : q = p
    · simp [hq, hp]
    · rw [Function.update_of_ne hq]
  · by_cases hqp : q = p
    · rw [hqp, Function.update_self]
      exact PipeEv.noConfusion
    · rw [Function.update_of_ne hqp]
      exact h.seen q hq
  · show Function.update c.status x.ref .addPost y.ref = Function.update latest p .addPost y.id
    by_cases hxy : y = x
    · rw [hxy, hid, Function.update_self, Function.update_self]
    · have href : y.ref ≠ x.ref := fun hr => hxy (h.eq_of_ref_or_id hy hmem (Or.inl hr))
      have hyp : y.id ≠ p := fun hr =>
        hxy (h.eq_of_ref_or_id hy hmem (Or.inr (hr.trans hid.symm)))
      rw [Function.update_of_ne href, Function.update_of_ne hyp]
      exact h.status y hy

/-- `REM_POST`. -/
theorem remove (h : Represents c latest accepted) (p : ℕ) :
    Represents (c.remove p) (Function.update latest p .remPost) accepted := by
  have hids : (c.remove p).ids =
      accepted.filter fun q => Function.update latest p .remPost q ≠ .remPost := by
    rw [PipeCollection.ids_remove, h.nodup_ids.erase_eq_filter, h.ids, List.filter_filter]
    refine List.filter_congr fun q _ => ?_
    by_cases hq : q = p <;> simp [hq]
  refine ⟨hids, h.nodup, fun q hq => ?_, fun y hy => ?_, h.tracks.remove.1⟩
  · by_cases hqp : q = p
    · rw [hqp, Function.update_self]
      exact PipeEv.noConfusion
    · rw [Function.update_of_ne hqp]
      exact h.seen q hq
  · have hyp : y.id ≠ p := by
      have hin : y.id ∈ (c.remove p).ids := List.mem_map_of_mem hy
      rw [PipeCollection.ids_remove] at hin
      exact fun hr => h.nodup_ids.not_mem_erase (hr ▸ hin)
    have hy' : y ∈ c.pipes := List.mem_of_mem_eraseP (PipeCollection.pipes_remove ▸ hy)
    rw [Function.update_of_ne hyp, ← h.status y hy']
    cases hx : c.find p with
    | none => rw [show c.remove p = c by simp [PipeCollection.remove, hx]]
    | some x =>
      have hid : x.id = p := by simpa using List.find?_some hx
      have hne : y.ref ≠ x.ref := fun hr => hyp (by
        rw [h.eq_of_ref_or_id hy' (List.mem_of_find?_eq_some hx) (Or.inl hr)]
        exact hid)
      rw [PipeCollection.status_remove hx, if_neg hne]

end Represents

/-- **Every event keeps the representation.** -/
theorem represents_event (h : Represents s.coll s.latest s.accepted) (hen : Orderly s p ev) :
    Represents (next s (.event n p ev)).coll (next s (.event n p ev)).latest
      (next s (.event n p ev)).accepted := by
  cases ev with
  | none => exact hen.elim
  | addPre =>
    cases hr : s.coll.refuses n p with
    | true =>
      have hpass := (h.pass (h.not_mem hen).1 .addPre).of_sameHandles
        (PipeCollection.handleEvent_refused hr)
      simpa [next, hr] using hpass
    | false =>
      have hadd := (h.add (n := n) hen).of_sameHandles (PipeCollection.handleEvent_let_in hr)
      simpa [next, hr] using hadd
  | addPost =>
    have hne : s.latest p ≠ .remPost := by
      rw [hen.1]
      exact PipeEv.noConfusion
    obtain ⟨x, hx⟩ := PipeCollection.find_isSome_iff.mpr (h.mem_ids.mpr ⟨hen.2, hne⟩)
    have hactive := (h.active hx hne).of_sameHandles (PipeCollection.handleEvent_active (n := n) hx)
    simpa [next] using hactive
  | remPost =>
    have hremove := (h.remove p).of_sameHandles
      (PipeCollection.handleEvent_removed s.coll n p)
    simpa [next] using hremove

theorem represents (hr : (events filter objects).Reach s) :
    Represents s.coll s.latest s.accepted := by
  induction hr with
  | init =>
    exact ⟨rfl, List.nodup_nil, fun _ hq => absurd hq List.not_mem_nil,
      fun _ hx => absurd hx List.not_mem_nil, PipeCollection.tracks_new filter objects⟩
  | @step s a _ _ hen ih =>
    cases a with
    | event n p ev => exact represents_event ih hen
    | hadEvents => exact ih.of_sameHandles (PipeCollection.sameHandles_hadEvents s.coll)
    | objects o => exact ih.of_sameHandles ⟨rfl, rfl, rfl⟩

/-! ## What the filter is told -/

/-- **The hooks called**, by how far each pipe has come. -/
structure Told (filter : Option (IPipeFilter σ)) (s : State σ) : Prop where
  installed : s.coll.filter = filter
  once : ∀ q, s.timesAdded q ≤ 1
  /-- Before its `ADD_POST`, or where it was not accepted, nothing was told. -/
  early : ∀ q, s.latest q = .none ∨ s.latest q = .addPre ∨ q ∉ s.accepted → s.timesAdded q = 0
  removed : ∀ q, s.timesRemoved q =
    if filter.isSome ∧ q ∈ s.accepted ∧ s.latest q = .remPost then 1 else 0

theorem timesAdded_event (q : ℕ) :
    (next s (.event n p ev)).timesAdded q = s.timesAdded q +
      if ev = .addPost ∧ q = p ∧ s.coll.filter.isSome ∧ p ∈ s.coll.ids then 1 else 0 := by
  unfold State.timesAdded
  rw [hooks_event, List.countP_append, (PipeCollection.countP_hookCalls s.coll n p ev q).1]

theorem timesRemoved_event (q : ℕ) :
    (next s (.event n p ev)).timesRemoved q = s.timesRemoved q +
      if ev = .remPost ∧ q = p ∧ s.coll.filter.isSome ∧ p ∈ s.coll.ids then 1 else 0 := by
  unfold State.timesRemoved
  rw [hooks_event, List.countP_append, (PipeCollection.countP_hookCalls s.coll n p ev q).2]

/-- Who is accepted after an event: who was, and the pipe let in. -/
theorem mem_accepted_event {q : ℕ} (hq : q ≠ p ∨ ev ≠ .addPre) :
    q ∈ (next s (.event n p ev)).accepted ↔ q ∈ s.accepted := by
  show q ∈ (if ev = .addPre ∧ s.coll.refuses n p = false then s.accepted ++ [p] else s.accepted) ↔ _
  split
  · rename_i h
    have hne : q ≠ p := hq.resolve_right (not_not.mpr h.1)
    simp [hne]
  · rfl

theorem told_event (h : Told filter s) (hrep : Represents s.coll s.latest s.accepted)
    (hen : Orderly s p ev) : Told filter (next s (.event n p ev)) := by
  have hother : ∀ q, q ≠ p → (next s (.event n p ev)).latest q = s.latest q := fun q hq =>
    Function.update_of_ne hq _ _
  have hself : (next s (.event n p ev)).latest p = ev := Function.update_self ..
  refine ⟨PipeCollection.filter_handleEvent.trans h.installed, fun q => ?_, fun q hq => ?_,
    fun q => ?_⟩
  · rw [timesAdded_event]
    split
    · rename_i hadd
      obtain ⟨rfl, rfl, -, -⟩ := hadd
      have := h.early q (Or.inr (Or.inl hen.1))
      omega
    · exact h.once q
  · rw [timesAdded_event]
    by_cases hqp : q = p
    · subst hqp
      rw [hself] at hq
      cases ev with
      | none => exact hen.elim
      | addPre => simpa using h.early q (Or.inl hen)
      | addPost =>
        have hmem := @mem_accepted_event _ s n q .addPost q (Or.inr PipeEv.noConfusion)
        exact absurd (hmem.mpr hen.2) (by simpa using hq)
      | remPost =>
        have hmem := @mem_accepted_event _ s n q .remPost q (Or.inr PipeEv.noConfusion)
        have hout : q ∉ s.accepted := fun hin => absurd (hmem.mpr hin) (by simpa using hq)
        simpa using h.early q (Or.inr (Or.inr hout))
    · rw [hother q hqp, mem_accepted_event (Or.inl hqp)] at hq
      simpa [hqp] using h.early q hq
  · rw [timesRemoved_event, h.removed q]
    by_cases hqp : q = p
    · subst hqp
      rw [hself]
      cases ev with
      | none => exact hen.elim
      | addPre => simp [show s.latest q = .none from hen]
      | addPost => simp [hen.1]
      | remPost =>
        have hne : s.latest q ≠ .remPost := by
          rcases hen with h | h <;> rw [h] <;> exact PipeEv.noConfusion
        have hmem := @mem_accepted_event _ s n q .remPost q (Or.inr PipeEv.noConfusion)
        simp [hmem, hne, hrep.mem_ids, h.installed]
    · have hmem := @mem_accepted_event _ s n p ev q (Or.inl hqp)
      simp only [hother q hqp, hmem]
      simp [hqp]

theorem told (hr : (events filter objects).Reach s) : Told filter s := by
  induction hr with
  | init =>
    exact ⟨rfl, fun _ => Nat.zero_le 1, fun _ _ => rfl, fun q => by
      simp [events, State.timesRemoved]⟩
  | @step s a hr _ hen ih =>
    cases a with
    | event n p ev => exact told_event ih (represents hr) hen
    | hadEvents =>
      exact ⟨PipeCollection.filter_hadEvents.trans ih.installed, ih.once, ih.early, ih.removed⟩
    | objects o => exact ⟨ih.installed, ih.once, ih.early, ih.removed⟩

/-! ## What is let go stays so -/

/-- Of a handle let go nothing changes any more. -/
structure Outlives (c c' : PipeCollection σ) : Prop where
  advances : PipeCollection.Advances c c'
  gone : ∀ r < c.made, r ∉ c.refs → r ∉ c'.refs

theorem Outlives.of_sameHandles (h : PipeCollection.SameHandles c c') : Outlives c c' :=
  ⟨h.advances, fun r _ hout => by rwa [h.refs]⟩

theorem Outlives.trans {c'' : PipeCollection σ} (h : Outlives c c') (h' : Outlives c' c'') :
    Outlives c c'' :=
  ⟨h.advances.trans h'.advances, fun r hr hout =>
    h'.gone r (Nat.lt_of_lt_of_le hr h.advances.made) (h.gone r hr hout)⟩

/-- A handle held after an event was held before, or is new. -/
theorem outlives_handleEvent (ht : c.Tracks) : Outlives c (c.handleEvent n p ev).1 := by
  refine ⟨ht.handleEvent.2, fun r hr hout => ?_⟩
  rcases PipeCollection.handleEvent_handles c n p ev with hs | ⟨-, hs⟩ | ⟨x, -, hs⟩ | ⟨-, hs⟩
  · rwa [hs.refs]
  · rw [hs.refs]
    have hrefs : (c.add p n ev).refs = c.refs ++ [c.made] := by
      simp [PipeCollection.add, PipeCollection.refs, PipeCollection.setStatus]
    rw [hrefs, List.mem_append, List.mem_singleton, not_or]
    exact ⟨hout, by omega⟩
  · rw [hs.refs]
    exact hout
  · rw [hs.refs]
    intro hin
    obtain ⟨x, hx, rfl⟩ := List.mem_map.mp hin
    exact hout (List.mem_map_of_mem
      (List.mem_of_mem_eraseP (PipeCollection.pipes_remove ▸ hx)))

theorem outlives (hr : (events filter objects).Reach s) {s' : State σ}
    (hl : (events filter objects).Leads s s') : Outlives s.coll s'.coll := by
  refine hl.relates (R := fun s s' => Outlives s.coll s'.coll) ?_ ?_ ?_ hr
  · exact fun s _ => .of_sameHandles ⟨rfl, rfl, rfl⟩
  · exact fun _ _ _ h h' => h.trans h'
  · intro s a hr _
    cases a with
    | event n p ev => exact outlives_handleEvent (represents hr).tracks
    | hadEvents => exact .of_sameHandles (PipeCollection.sameHandles_hadEvents s.coll)
    | objects o => exact .of_sameHandles ⟨rfl, rfl, rfl⟩

/-- **The collection represents its pipes.** It holds those accepted and
not removed, in the order of their `ADD_PRE` and none twice, each with its
latest event as its status; a handle let go is removed for good; and the
filter hears of an accepted pipe, once at its `ADD_POST` and once at its
`REM_POST`, and of no other. -/
theorem collection_represents (hr : (events filter objects).Reach s) :
    s.coll.ids = s.accepted.filter (fun p => s.latest p ≠ .remPost) ∧
      s.coll.ids.Nodup ∧
      (∀ x ∈ s.coll.pipes, s.coll.status x.ref = s.latest x.id) ∧
      (∀ s', (events filter objects).Leads s s' → ∀ r < s.coll.made, r ∉ s.coll.refs →
        r ∉ s'.coll.refs ∧ s'.coll.status r = .remPost) ∧
      ∀ p, s.timesAdded p ≤ 1 ∧
        (p ∈ s.accepted → filter.isSome →
          s.timesRemoved p = if s.latest p = .remPost then 1 else 0) ∧
        (p ∉ s.accepted → s.timesAdded p = 0 ∧ s.timesRemoved p = 0) := by
  have hrep := represents hr
  have htold := told hr
  refine ⟨hrep.ids, hrep.nodup_ids, hrep.status, fun s' hl r hmade hout => ?_, fun p => ?_⟩
  · have hlives := outlives hr hl
    exact ⟨hlives.gone r hmade hout,
      hlives.advances.remPost hmade (hrep.tracks.gone r hmade hout)⟩
  · refine ⟨htold.once p, fun hin hf => ?_, fun hout => ?_⟩
    · rw [htold.removed p]
      simp [hin, hf]
    · refine ⟨htold.early p (Or.inr (Or.inr hout)), ?_⟩
      rw [htold.removed p]
      simp [hout]

/-- Process 42 is let in twice, process 7 is refused, the first pipe goes. -/
theorem collection_represents_run :
    let filter := some (PipeFilter.pid ⟨.allow, [42]⟩).toIPipeFilter
    let peer : ℤ → NngPipe := fun peerPid =>
      { peerAddr := .other 1, peerPid, dialer := 0, listener := 1 }
    let s := (events filter fun _ => .new 0).final (events filter fun _ => .new 0).init
      [.event (peer 42) 1 .addPre, .event (peer 7) 2 .addPre, .event (peer 42) 1 .addPost,
        .event (peer 42) 3 .addPre, .event (peer 7) 2 .remPost, .event (peer 42) 1 .remPost]
    s.coll.ids = [3] ∧ s.timesAdded 1 ≤ 1 ∧ s.timesRemoved 1 = 1 ∧ s.timesRemoved 2 = 0 := by
  intro filter peer s
  have hr : (events filter fun _ => .new 0).Reach s := Machine.reach_final (by decide)
  have h := collection_represents hr
  exact ⟨h.1.trans (by decide), (h.2.2.2.2 1).1,
    ((h.2.2.2.2 1).2.1 (by decide) (by decide)).trans (by decide),
    ((h.2.2.2.2 2).2.2 (by decide)).2⟩

end PipeEvents

end PyNng
