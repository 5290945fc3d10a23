import PyNng.Pipe.Model
import Mathlib.Data.List.Nodup
/-!
# Pipe — the status of a handle only advances

The collection is the only writer of a handle's status, and it writes to
the handles it holds: `ADD_PRE` or `ADD_POST` as it adds one, `ADD_POST`
while it holds one, `REM_POST` as it lets one go. So a handle it holds is
adding or active, a handle it has let go is removed, and no status ever
moves backwards.
-/

namespace PyNng

/-- The place of a status in a pipe's life: `ADDING`, `ACTIVE`, `REMOVED`. -/
def PipeEv.rank : PipeEv → ℕ
  | .none => 0
  | .addPre => 1
  | .addPost => 2
  | .remPost => 3

namespace PipeEv

@[simp] theorem rank_none : PipeEv.none.rank = 0 := rfl

@[simp] theorem rank_addPre : PipeEv.addPre.rank = 1 := rfl

@[simp] theorem rank_addPost : PipeEv.addPost.rank = 2 := rfl

@[simp] theorem rank_remPost : PipeEv.remPost.rank = 3 := rfl

theorem rank_le (ev : PipeEv) : ev.rank ≤ 3 := by
  cases ev <;> simp

theorem rank_injective {ev ev' : PipeEv} (h : ev.rank = ev'.rank) : ev = ev' := by
  cases ev <;> cases ev' <;> first | rfl | cases h

/-- Nothing comes after `REMOVED`. -/
theorem eq_remPost {ev : PipeEv} (h : 3 ≤ ev.rank) : ev = .remPost :=
  rank_injective (Nat.le_antisymm ev.rank_le h)

end PipeEv

namespace PipeCollection

variable {σ : Type} {c c' : PipeCollection σ} {n : NngPipe} {p : ℕ} {ev : PipeEv}

/-- The references of the handles held. -/
def refs (c : PipeCollection σ) : List ℕ := c.pipes.map PipeHandle.ref

/-- **What the collection knows of its handles.** -/
structure Tracks (c : PipeCollection σ) : Prop where
  nodup : c.refs.Nodup
  made : ∀ r ∈ c.refs, r < c.made
  /-- What is held is adding or active. -/
  live : ∀ r ∈ c.refs, c.status r = .addPre ∨ c.status r = .addPost
  /-- What was let go is removed. -/
  gone : ∀ r < c.made, r ∉ c.refs → c.status r = .remPost

/-- Handles are made, and the status of none moves backwards. -/
structure Advances (c c' : PipeCollection σ) : Prop where
  made : c.made ≤ c'.made
  status : ∀ r < c.made, (c.status r).rank ≤ (c'.status r).rank

theorem Advances.refl (c : PipeCollection σ) : Advances c c :=
  ⟨Nat.le_refl _, fun _ _ => Nat.le_refl _⟩

theorem Advances.trans {c'' : PipeCollection σ} (h : Advances c c') (h' : Advances c' c'') :
    Advances c c'' :=
  ⟨Nat.le_trans h.made h'.made, fun r hr =>
    Nat.le_trans (h.status r hr) (h'.status r (Nat.lt_of_lt_of_le hr h.made))⟩

/-- A handle let go stays so. -/
theorem Advances.remPost (h : Advances c c') {r : ℕ} (hr : r < c.made)
    (hgone : c.status r = .remPost) : c'.status r = .remPost := by
  have hle := h.status r hr
  rw [hgone] at hle
  exact PipeEv.eq_remPost hle

/-- A handle made has a status. -/
theorem Tracks.one_le_rank (h : Tracks c) {r : ℕ} (hr : r < c.made) : 1 ≤ (c.status r).rank := by
  by_cases hin : r ∈ c.refs
  · rcases h.live r hin with hs | hs <;> simp [hs]
  · simp [h.gone r hr hin]

/-- A handle held is not removed. -/
theorem Tracks.ne_remPost (ht : Tracks c) {h : PipeHandle} (hh : h ∈ c.pipes) :
    c.status h.ref ≠ .remPost := by
  rcases ht.live _ (List.mem_map_of_mem hh) with hlive | hlive <;>
  · rw [hlive]
    exact nofun

/-! ## The handles an operation leaves -/

/-- The two have the same handles, in the same states. -/
structure SameHandles (c c' : PipeCollection σ) : Prop where
  pipes : c'.pipes = c.pipes
  status : c'.status = c.status
  made : c'.made = c.made

namespace SameHandles

theorem refs (h : SameHandles c c') : c'.refs = c.refs := by
  unfold PipeCollection.refs
  rw [h.pipes]

theorem tracks (h : SameHandles c c') (ht : Tracks c) : Tracks c' := by
  refine ⟨?_, ?_, ?_, ?_⟩
  · rw [h.refs]; exact ht.nodup
  · rw [h.refs, h.made]; exact ht.made
  · rw [h.refs, h.status]; exact ht.live
  · rw [h.refs, h.made, h.status]; exact ht.gone

theorem advances (h : SameHandles c c') : Advances c c' :=
  ⟨Nat.le_of_eq h.made.symm, fun r _ => Nat.le_of_eq (by rw [h.status])⟩

theorem remove (h : SameHandles c c') : SameHandles (c.remove p) (c'.remove p) := by
  have hfind : c'.find p = c.find p := by
    unfold find
    rw [h.pipes]
  cases hp : c.find p with
  | none => simpa [PipeCollection.remove, hfind, hp] using h
  | some x =>
    constructor <;> simp [PipeCollection.remove, hfind, hp, setStatus, h.pipes, h.status, h.made]

end SameHandles

/-- A pipe refused at `ADD_PRE` leaves the handles alone. -/
theorem handleEvent_refused (hr : c.refuses n p = true) :
    SameHandles c (c.handleEvent n p .addPre).1 := by
  cases hf : c.filter with
  | none => simp [refuses, hf] at hr
  | some f =>
    have ha : (f.allow (n.info p) c.objects).1 = false := by simpa [refuses, hf] using hr
    constructor <;> simp [handleEvent, hf, ha]

/-- Any other pipe gets a handle. -/
theorem handleEvent_let_in (hr : c.refuses n p = false) :
    SameHandles (c.add p n .addPre) (c.handleEvent n p .addPre).1 := by
  cases hf : c.filter with
  | none => constructor <;> simp [handleEvent, hf, noteEvent]
  | some f =>
    have ha : (f.allow (n.info p) c.objects).1 = true := by simpa [refuses, hf] using hr
    constructor <;> simp [handleEvent, hf, ha, noteEvent, add, setStatus]

/-- At `ADD_POST` the handle found is active. -/
theorem handleEvent_active {h : PipeHandle} (hp : c.find p = some h) :
    SameHandles (c.setStatus h .addPost) (c.handleEvent n p .addPost).1 := by
  cases hf : c.filter <;> constructor <;> simp [handleEvent, hp, setStatus, hf, noteEvent]

/-- At `REM_POST` the handle is let go. -/
theorem handleEvent_removed (c : PipeCollection σ) (n : NngPipe) (p : ℕ) :
    SameHandles (c.remove p) (c.handleEvent n p .remPost).1 := by
  cases hf : c.filter with
  | none => constructor <;> simp [handleEvent, hf, noteEvent]
  | some f =>
    cases hp : c.find p with
    | none => constructor <;> simp [handleEvent, hf, hp, noteEvent]
    | some h =>
      -- what `on_removed` leaves of the filter's objects is no business of the handles
      have hsame : SameHandles (c.remove p)
          ({ c with objects := f.onRemoved (h.nng.info h.id) c.objects }.remove p) :=
        SameHandles.remove ⟨rfl, rfl, rfl⟩
      rw [hf] at hsame
      constructor <;> simp only [handleEvent, hf, hp, noteEvent]
      exacts [hsame.pipes, hsame.status, hsame.made]

/-- **What an event does to the handles**: nothing, one more, one active,
one fewer. -/
theorem handleEvent_handles (c : PipeCollection σ) (n : NngPipe) (p : ℕ) (ev : PipeEv) :
    SameHandles c (c.handleEvent n p ev).1 ∨
      ((ev = .addPre ∨ ev = .addPost ∧ p ∉ c.ids) ∧
        SameHandles (c.add p n ev) (c.handleEvent n p ev).1) ∨
      (∃ h, c.find p = some h ∧ SameHandles (c.setStatus h .addPost) (c.handleEvent n p ev).1) ∨
      ev = .remPost ∧ SameHandles (c.remove p) (c.handleEvent n p ev).1 := by
  cases ev with
  | none => exact Or.inl ⟨rfl, rfl, rfl⟩
  | addPre =>
    cases hr : c.refuses n p with
    | true => exact Or.inl (handleEvent_refused hr)
    | false => exact Or.inr (Or.inl ⟨Or.inl rfl, handleEvent_let_in hr⟩)
  | addPost =>
    cases hp : c.find p with
    | none =>
      refine Or.inr (Or.inl ⟨Or.inr ⟨rfl, find_eq_none_iff.mp hp⟩, ?_⟩)
      constructor <;> simp [handleEvent, hp, noteEvent]
    | some h => exact Or.inr (Or.inr (Or.inl ⟨h, rfl, handleEvent_active hp⟩))
  | remPost => exact Or.inr (Or.inr (Or.inr ⟨rfl, handleEvent_removed c n p⟩))

/-- The handles that `remove` leaves. -/
theorem pipes_remove : (c.remove p).pipes = c.pipes.eraseP fun h => h.id = p := by
  cases hp : c.find p with
  | none =>
    rw [show c.remove p = c by simp [PipeCollection.remove, hp]]
    exact (List.eraseP_of_forall_not (List.find?_eq_none.mp hp)).symm
  | some h => simp [PipeCollection.remove, hp]

theorem mem_refs_of_find {h : PipeHandle} (hp : c.find p = some h) : h.ref ∈ c.refs :=
  List.mem_map_of_mem (List.mem_of_find?_eq_some hp)

theorem Tracks.add (ht : Tracks c) (hev : ev = .addPre ∨ ev = .addPost) :
    Tracks (c.add p n ev) ∧ Advances c (c.add p n ev) := by
  have hrefs : (c.add p n ev).refs = c.refs ++ [c.made] := by
    simp [PipeCollection.add, PipeCollection.refs, setStatus]
  have hstatus : (c.add p n ev).status = Function.update c.status c.made ev := rfl
  have hmade : (c.add p n ev).made = c.made + 1 := rfl
  have hold : ∀ r, r ≠ c.made → (c.add p n ev).status r = c.status r := fun r hr => by
    rw [hstatus, Function.update_of_ne hr]
  refine ⟨⟨?_, fun r hr => ?_, fun r hr => ?_, fun r hr hout => ?_⟩, by omega, fun r hr => ?_⟩
  · rw [hrefs]
    exact List.nodup_append.mpr ⟨ht.nodup, by simp, fun a ha b hb hab => by
      rw [List.mem_singleton.mp hb] at hab
      exact absurd (ht.made a ha) (by omega)⟩
  · rw [hrefs] at hr
    rcases List.mem_append.mp hr with hr | hr
    · have := ht.made r hr
      omega
    · rw [List.mem_singleton.mp hr]; omega
  · rw [hrefs] at hr
    rcases List.mem_append.mp hr with hr | hr
    · rw [hold r (Nat.ne_of_lt (ht.made r hr))]; exact ht.live r hr
    · rw [List.mem_singleton.mp hr, hstatus, Function.update_self]; exact hev
  · rw [hrefs, List.mem_append, List.mem_singleton, not_or] at hout
    rw [hold r hout.2]
    exact ht.gone r (by omega) hout.1
  · exact Nat.le_of_eq (by rw [hold r (Nat.ne_of_lt hr)])

theorem Tracks.setActive (ht : Tracks c) {h : PipeHandle} (hp : c.find p = some h) :
    Tracks (c.setStatus h .addPost) ∧ Advances c (c.setStatus h .addPost) := by
  have hin := mem_refs_of_find hp
  have hstatus : ∀ r, (c.setStatus h .addPost).status r =
      if r = h.ref then .addPost else c.status r := fun r => Function.update_apply ..
  refine ⟨⟨ht.nodup, ht.made, fun r hr => ?_, fun r hr hout => ?_⟩, Nat.le_refl _, fun r hr => ?_⟩
  · rw [hstatus]
    split
    · exact Or.inr rfl
    · exact ht.live r hr
  · have hne : r ≠ h.ref := by
      rintro rfl
      exact hout hin
    rw [hstatus, if_neg hne]
    exact ht.gone r hr hout
  · rw [hstatus]
    split
    · rename_i hrh
      subst hrh
      rcases ht.live _ hin with hs | hs <;> simp [hs]
    · exact Nat.le_refl _

/-- The handle erased is the one told. -/
theorem Tracks.remove (ht : Tracks c) : Tracks (c.remove p) ∧ Advances c (c.remove p) := by
  cases hp : c.find p with
  | none => rw [show c.remove p = c by simp [PipeCollection.remove, hp]]; exact ⟨ht, .refl c⟩
  | some h =>
    obtain ⟨hid, as, bs, hpipes, has⟩ := List.find?_eq_some_iff_append.mp hp
    have herase : (c.pipes.eraseP fun h => h.id = p) = as ++ bs := by
      rw [hpipes, List.eraseP_append_right _ fun a ha => by simpa using has a ha,
        List.eraseP_cons_of_pos (by simpa using hid)]
    have hrefs : (c.remove p).refs = as.map PipeHandle.ref ++ bs.map PipeHandle.ref := by
      simp [PipeCollection.remove, hp, PipeCollection.refs, herase]
    have hsplit : c.refs = as.map PipeHandle.ref ++ h.ref :: bs.map PipeHandle.ref := by
      simp [PipeCollection.refs, hpipes]
    have hstatus : ∀ r, (c.remove p).status r = if r = h.ref then .remPost else c.status r := by
      intro r
      simp [PipeCollection.remove, hp, setStatus, Function.update_apply]
    have hmade : (c.remove p).made = c.made := by simp [PipeCollection.remove, hp, setStatus]
    have hnd := ht.nodup
    rw [hsplit] at hnd
    have hout : h.ref ∉ (c.remove p).refs := by
      rw [hrefs]
      exact (List.nodup_cons.mp (List.nodup_middle.mp hnd)).1
    have hmem : ∀ r, r ≠ h.ref → (r ∈ (c.remove p).refs ↔ r ∈ c.refs) := fun r hr => by
      rw [hrefs, hsplit]
      simp [hr]
    have hne : ∀ r ∈ (c.remove p).refs, r ≠ h.ref := fun r hr hrh => hout (hrh ▸ hr)
    refine ⟨⟨?_, fun r hr => ?_, fun r hr => ?_, fun r hr hr' => ?_⟩, Nat.le_of_eq hmade.symm,
      fun r hr => ?_⟩
    · rw [hrefs]
      exact (List.nodup_cons.mp (List.nodup_middle.mp hnd)).2
    · rw [hmade]; exact ht.made r ((hmem r (hne r hr)).mp hr)
    · rw [hstatus, if_neg (hne r hr)]
      exact ht.live r ((hmem r (hne r hr)).mp hr)
    · rw [hstatus]
      split
      · rfl
      · rename_i hrh
        exact ht.gone r (hmade ▸ hr) fun hin => hr' ((hmem r hrh).mpr hin)
    · rw [hstatus]
      split
      · exact PipeEv.rank_le _
      · exact Nat.le_refl _

/-- **Every event keeps the handles tracked and moves no status backwards.** -/
theorem Tracks.handleEvent (ht : Tracks c) :
    Tracks (c.handleEvent n p ev).1 ∧ Advances c (c.handleEvent n p ev).1 := by
  rcases handleEvent_handles c n p ev with hs | ⟨hev, hs⟩ | ⟨h, hp, hs⟩ | ⟨-, hs⟩
  · exact ⟨hs.tracks ht, hs.advances⟩
  · have hadd := @add _ _ n p ev ht (hev.imp_right And.left)
    exact ⟨hs.tracks hadd.1, hadd.2.trans hs.advances⟩
  · have hset := ht.setActive hp
    exact ⟨hs.tracks hset.1, hset.2.trans hs.advances⟩
  · have hrem := @remove _ _ p ht
    exact ⟨hs.tracks hrem.1, hrem.2.trans hs.advances⟩

/-! ## `clear` -/

theorem status_foldl_setStatus (hs : List PipeHandle) (c : PipeCollection σ) (r : ℕ) :
    (hs.foldl (fun c h => c.setStatus h .remPost) c).status r =
        (if r ∈ hs.map PipeHandle.ref then .remPost else c.status r) ∧
      (hs.foldl (fun c h => c.setStatus h .remPost) c).made = c.made := by
  induction hs generalizing c with
  | nil => simp
  | cons h hs ih =>
    obtain ⟨hst, hm⟩ := ih (c.setStatus h .remPost)
    refine ⟨?_, hm⟩
    rw [List.foldl_cons, hst]
    by_cases hr : r ∈ hs.map PipeHandle.ref
    · simp [hr]
    · by_cases hrh : r = h.ref <;> simp [hr, hrh, setStatus]

theorem status_clear (c : PipeCollection σ) (r : ℕ) :
    c.clear.status r = if r ∈ c.refs then .remPost else c.status r :=
  (status_foldl_setStatus c.pipes c r).1

theorem made_clear (c : PipeCollection σ) : c.clear.made = c.made :=
  (status_foldl_setStatus c.pipes c 0).2

/-- **After `clear` every handle made is removed.** -/
theorem Tracks.clear (ht : Tracks c) :
    Tracks c.clear ∧ Advances c c.clear ∧ ∀ r < c.made, c.clear.status r = .remPost := by
  have hall : ∀ r < c.made, c.clear.status r = .remPost := by
    intro r hr
    rw [status_clear]
    split
    · rfl
    · rename_i hout
      exact ht.gone r hr hout
  refine ⟨⟨List.nodup_nil, fun _ hr => absurd hr List.not_mem_nil,
    fun _ hr => absurd hr List.not_mem_nil, fun r hr _ => hall r (made_clear c ▸ hr)⟩,
    ⟨Nat.le_of_eq (made_clear c).symm, fun r hr => ?_⟩, hall⟩
  rw [hall r hr]
  exact PipeEv.rank_le _

theorem sameHandles_hadEvents (c : PipeCollection σ) : SameHandles c c.hadEvents.2 := by
  unfold hadEvents
  split <;> exact ⟨rfl, rfl, rfl⟩

theorem tracks_new (filter : Option (IPipeFilter σ)) (objects : σ) :
    Tracks (PipeCollection.new filter objects) :=
  ⟨List.nodup_nil, fun _ hr => absurd hr List.not_mem_nil,
    fun _ hr => absurd hr List.not_mem_nil, fun _ hr _ => absurd hr (Nat.not_lt_zero _)⟩

end PipeCollection

end PyNng
