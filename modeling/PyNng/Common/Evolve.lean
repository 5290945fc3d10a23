import Mathlib.Data.List.Basic
/-!
# Common — lists that lose elements and gain new ones at the end

`Evolves a b` says that `b` came of `a` by removing elements anywhere and
appending elements `a` does not have. It is all that is known of a list
read twice while others remove from it and append to it.

`greedyMatch` is the one-pass merge of the older list with the newer one:
it walks the older one and takes an element over whenever its key is the
next key of the newer one. It relies on the order being kept, and on lists
one of which evolved from the other `greedyMatch_spec` says it finds all
that was kept and leaves exactly what is new.
-/

namespace PyNng

variable {Id α β : Type*}

/-- **What removals and appends make of a list.** -/
def Evolves (a b : List Id) : Prop :=
  ∃ keep new, b = keep ++ new ∧ keep.Sublist a ∧ ∀ x ∈ new, x ∉ a

namespace Evolves

variable {a b b' : List Id}

theorem refl (a : List Id) : Evolves a a :=
  ⟨a, [], (List.append_nil a).symm, List.Sublist.refl a, fun _ hx => absurd hx List.not_mem_nil⟩

/-- An element is appended that the older list does not have. -/
theorem append {x : Id} (h : Evolves a b) (hx : x ∉ a) : Evolves a (b ++ [x]) := by
  obtain ⟨keep, new, rfl, hkeep, hnew⟩ := h
  refine ⟨keep, new ++ [x], List.append_assoc .., hkeep, fun y hy => ?_⟩
  rcases List.mem_append.mp hy with hy | hy
  · exact hnew y hy
  · rw [List.mem_singleton.mp hy]; exact hx

/-- Elements are removed. -/
theorem sublist (h : Evolves a b) (hb : b'.Sublist b) : Evolves a b' := by
  obtain ⟨keep, new, rfl, hkeep, hnew⟩ := h
  obtain ⟨keep', new', rfl, hk, hn⟩ := List.sublist_append_iff.mp hb
  exact ⟨keep', new', rfl, hk.trans hkeep, fun y hy => hnew y (hn.subset hy)⟩

end Evolves

/-! ## The greedy match -/

variable [DecidableEq Id] (ka : α → Id) (kb : β → Id)

/-- The elements of the older list taken over, and the elements of the newer
list that are left. -/
def greedyMatch : List α → List β → List α × List β
  | [], bs => ([], bs)
  | _ :: _, [] => ([], [])
  | a :: as, b :: bs =>
    if ka a = kb b then (a :: (greedyMatch as bs).1, (greedyMatch as bs).2)
    else greedyMatch as (b :: bs)

variable {ka kb}

/-- The match, on a newer list cut into what was kept and what is new. -/
theorem greedyMatch_append {as : List α} {bs : List β} {keep new : List Id}
    (hbs : bs.map kb = keep ++ new) (hkeep : keep.Sublist (as.map ka))
    (hnew : ∀ x ∈ new, x ∉ as.map ka) :
    ((greedyMatch ka kb as bs).1.map ka = keep ∧ (greedyMatch ka kb as bs).1.Sublist as) ∧
      (greedyMatch ka kb as bs).2.map kb = new := by
  induction as generalizing bs keep with
  | nil =>
    obtain rfl : keep = [] := List.sublist_nil.mp hkeep
    exact ⟨⟨rfl, List.Sublist.refl _⟩, hbs⟩
  | cons a as ih =>
    have hnew' : ∀ x ∈ new, x ∉ as.map ka := fun x hx hxa =>
      hnew x hx (List.mem_cons_of_mem _ hxa)
    cases bs with
    | nil =>
      obtain ⟨rfl, rfl⟩ : keep = [] ∧ new = [] := List.append_eq_nil_iff.mp hbs.symm
      exact ⟨⟨rfl, List.nil_sublist _⟩, rfl⟩
    | cons b bs =>
      by_cases hab : ka a = kb b
      · -- the head was kept: a new element would not have the key of an old one
        cases keep with
        | nil =>
          have hhead : ka a ∈ new := by
            rw [← List.nil_append new, ← hbs, List.map_cons, hab]
            exact List.mem_cons_self
          exact absurd (List.mem_cons_self ..) (hnew _ hhead)
        | cons k keep =>
          obtain ⟨rfl, hrest⟩ : kb b = k ∧ bs.map kb = keep ++ new := by simpa using hbs
          rw [List.map_cons, ← hab] at hkeep
          obtain ⟨⟨hmap, hsub⟩, htail⟩ := ih hrest (List.cons_sublist_cons.mp hkeep) hnew'
          simp only [greedyMatch, if_pos hab]
          exact ⟨⟨by rw [List.map_cons, hmap, hab], hsub.cons_cons a⟩, htail⟩
      · -- the head was removed: what was kept lies in the rest
        have hkeep' : keep.Sublist (as.map ka) := by
          cases keep with
          | nil => exact List.nil_sublist _
          | cons k keep =>
            obtain ⟨rfl, -⟩ : kb b = k ∧ bs.map kb = keep ++ new := by simpa using hbs
            rcases List.sublist_cons_iff.mp hkeep with h | ⟨r, hr, -⟩
            · exact h
            · exact absurd (List.cons.inj hr).1.symm hab
        obtain ⟨⟨hmap, hsub⟩, htail⟩ := ih hbs hkeep' hnew'
        simp only [greedyMatch, if_neg hab]
        exact ⟨⟨hmap, hsub.cons a⟩, htail⟩

/-- Whatever the two lists are, each part is of its own one. -/
theorem greedyMatch_subset (ka : α → Id) (kb : β → Id) (as : List α) (bs : List β) :
    (∀ a ∈ (greedyMatch ka kb as bs).1, a ∈ as) ∧
      ∀ b ∈ (greedyMatch ka kb as bs).2, b ∈ bs := by
  fun_induction greedyMatch ka kb as bs with
  | case1 bs => exact ⟨fun _ h => h, fun _ h => h⟩
  | case2 a as => exact ⟨fun _ h => absurd h List.not_mem_nil, fun _ h => h⟩
  | case3 a as b bs hab ih =>
    refine ⟨fun x hx => ?_, fun x hx => List.mem_cons_of_mem _ (ih.2 x hx)⟩
    exact (List.mem_cons.mp hx).elim (fun h => h ▸ List.mem_cons_self)
      fun h => List.mem_cons_of_mem _ (ih.1 x h)
  | case4 a as b bs hab ih => exact ⟨fun x hx => List.mem_cons_of_mem _ (ih.1 x hx), ih.2⟩

/-- **The match of a list with what it evolved to.** Together the two parts
are the newer list, the first lies in the older one, and the second has
none of its keys. -/
theorem greedyMatch_spec {as : List α} {bs : List β} (h : Evolves (as.map ka) (bs.map kb)) :
    (greedyMatch ka kb as bs).1.map ka ++ (greedyMatch ka kb as bs).2.map kb = bs.map kb ∧
      (greedyMatch ka kb as bs).1.Sublist as ∧
      ∀ x ∈ (greedyMatch ka kb as bs).2.map kb, x ∉ as.map ka := by
  obtain ⟨keep, new, hbs, hkeep, hnew⟩ := h
  obtain ⟨⟨hmap, hsub⟩, htail⟩ := greedyMatch_append hbs hkeep hnew
  exact ⟨by rw [hmap, htail, hbs], hsub, by rw [htail]; exact hnew⟩

end PyNng
