import PyNng.Filter.Offers
/-!
# Filter — where an expression exposes its anchors

An object that is not anchored takes in every connection that comes to it,
whatever the leaves to its right go on to say. `exposures` reads off the
expression alone on which answers of its leaves that goes wrong: the
answers that lead the walk to the object, with the refusals further right
after which nothing accepts the connection any more. There are none where
every `&` has its `FirstWinsFilter` leaves on the right (`Guarded`), and
one for each way past a leaf on the left of an `&` (`guarded_iff`).
-/

namespace PyNng

variable {h : Anchors} {info : PipeFilterInfo} {r : ℕ} {b : Bool}

/-- A leaf of an expression. -/
inductive FilterLeaf
  | ip (f : IpFilter)
  | port (f : PortFilter)
  | pid (f : PidFilter)
  | firstWins (ref : ℕ)

/-- The leaf's own predicate of a connection, from the anchors before the walk. -/
def FilterLeaf.allows (h : Anchors) (info : PipeFilterInfo) : FilterLeaf → Bool
  | .ip f => f.allow info
  | .port f => f.allow info
  | .pid f => f.allow info
  | .firstWins ref => (h ref).admits info

/-- Every leaf of the list answers the connection as the list has it. -/
def Answered (h : Anchors) (info : PipeFilterInfo) (w : List (FilterLeaf × Bool)) : Prop :=
  ∀ a ∈ w, a.1.allows h info = a.2

theorem answered_append {u v : List (FilterLeaf × Bool)} :
    Answered h info (u ++ v) ↔ Answered h info u ∧ Answered h info v := by
  unfold Answered
  exact List.forall_mem_append

/-- Every list of the one side with every list of the other. -/
def alongside {α : Type*} (us vs : List (List α)) : List (List α) :=
  us.flatMap fun u => vs.map (u ++ ·)

theorem exists_mem_append {us vs : List (List (FilterLeaf × Bool))} :
    (∃ w ∈ us ++ vs, Answered h info w) ↔
      (∃ w ∈ us, Answered h info w) ∨ ∃ w ∈ vs, Answered h info w := by
  simp only [List.mem_append, or_and_right, exists_or]

theorem exists_mem_alongside {us vs : List (List (FilterLeaf × Bool))} :
    (∃ w ∈ alongside us vs, Answered h info w) ↔
      (∃ u ∈ us, Answered h info u) ∧ ∃ v ∈ vs, Answered h info v := by
  unfold alongside
  constructor
  · rintro ⟨w, hw, hans⟩
    obtain ⟨u, hu, hw⟩ := List.mem_flatMap.mp hw
    obtain ⟨v, hv, rfl⟩ := List.mem_map.mp hw
    obtain ⟨hansu, hansv⟩ := answered_append.mp hans
    exact ⟨⟨u, hu, hansu⟩, ⟨v, hv, hansv⟩⟩
  · rintro ⟨⟨u, hu, hansu⟩, ⟨v, hv, hansv⟩⟩
    exact ⟨u ++ v, List.mem_flatMap.mpr ⟨u, hu, List.mem_map.mpr ⟨v, hv, rfl⟩⟩,
      answered_append.mpr ⟨hansu, hansv⟩⟩

theorem alongside_ne_nil {α : Type*} {us vs : List (List α)} (hu : us ≠ []) (hv : vs ≠ []) :
    alongside us vs ≠ [] := by
  obtain ⟨u, us, rfl⟩ := List.exists_cons_of_ne_nil hu
  obtain ⟨v, vs, rfl⟩ := List.exists_cons_of_ne_nil hv
  simp [alongside]

theorem alongside_eq_nil_iff {α : Type*} {us vs : List (List α)} :
    alongside us vs = [] ↔ us = [] ∨ vs = [] := by
  constructor
  · intro hnil
    by_contra hne
    rw [not_or] at hne
    exact alongside_ne_nil hne.1 hne.2 hnil
  · rintro (rfl | rfl)
    · rfl
    · simp [alongside]

namespace PipeFilter

/-- The answers of leaves that settle the verdict as `b`, one list for each
way: `&` accepts by both operands and refuses by one, `|` the other way round. -/
def settling (b : Bool) : PipeFilter → List (List (FilterLeaf × Bool))
  | .ip f => [[(.ip f, b)]]
  | .port f => [[(.port f, b)]]
  | .pid f => [[(.pid f, b)]]
  | .firstWins ref => [[(.firstWins ref, b)]]
  | .all self other =>
    if b then alongside (self.settling b) (other.settling b)
    else self.settling b ++ other.settling b
  | .any self other =>
    if b then self.settling b ++ other.settling b
    else alongside (self.settling b) (other.settling b)

/-- The answers that lead the walk to the object, one list for each way. -/
def routes (r : ℕ) : PipeFilter → List (List (FilterLeaf × Bool))
  | .ip _ => []
  | .port _ => []
  | .pid _ => []
  | .firstWins ref => if ref = r then [[]] else []
  | .all self other => self.routes r ++ alongside (self.settling true) (other.routes r)
  | .any self other => self.routes r ++ alongside (self.settling false) (other.routes r)

/-- The answers that lead the walk to the object and then refuse the
connection: past the leaf in the left operand of an `&` the right operand
refuses, and no `|` around it goes on to accept. -/
def exposures (r : ℕ) : PipeFilter → List (List (FilterLeaf × Bool))
  | .ip _ => []
  | .port _ => []
  | .pid _ => []
  | .firstWins _ => []
  | .all self other =>
    self.exposures r ++ alongside (self.routes r) (other.settling false) ++
      alongside (self.settling true) (other.exposures r)
  | .any self other =>
    alongside (self.exposures r) (other.settling false) ++
      alongside (self.settling false) (other.exposures r)

/-! ## What the answers say of the walk -/

theorem leaf_iff (l : FilterLeaf) :
    l.allows h info = b ↔ ∃ w ∈ [[(l, b)]], Answered h info w := by
  simp only [List.mem_singleton, exists_eq_left, Answered, forall_eq]

theorem value_eq_iff (e : PipeFilter) (b : Bool) :
    e.value h info = b ↔ ∃ w ∈ e.settling b, Answered h info w := by
  induction e with
  | ip f => exact leaf_iff (.ip f)
  | port f => exact leaf_iff (.port f)
  | pid f => exact leaf_iff (.pid f)
  | firstWins ref => exact leaf_iff (.firstWins ref)
  | all self other ihs iho =>
    cases b with
    | true =>
      rw [settling, if_pos rfl, exists_mem_alongside, value, Bool.and_eq_true]
      exact and_congr ihs iho
    | false =>
      rw [settling, if_neg Bool.false_ne_true, exists_mem_append, value, Bool.and_eq_false_iff]
      exact or_congr ihs iho
  | any self other ihs iho =>
    cases b with
    | true =>
      rw [settling, if_pos rfl, exists_mem_append, value, Bool.or_eq_true]
      exact or_congr ihs iho
    | false =>
      rw [settling, if_neg Bool.false_ne_true, exists_mem_alongside, value, Bool.or_eq_false_iff]
      exact and_congr ihs iho

theorem mem_consulted_iff (e : PipeFilter) :
    r ∈ e.consulted h info ↔ ∃ w ∈ e.routes r, Answered h info w := by
  induction e with
  | ip | port | pid => simp [consulted, routes]
  | firstWins ref =>
    by_cases hr : ref = r
    · subst hr
      simp [consulted, routes, Answered]
    · simp [consulted, routes, hr, Ne.symm hr]
  | all self other ihs iho =>
    rw [routes, exists_mem_append, exists_mem_alongside, ← ihs, ← iho, ← value_eq_iff, consulted,
      List.mem_append]
    cases self.value h info <;> simp
  | any self other ihs iho =>
    rw [routes, exists_mem_append, exists_mem_alongside, ← ihs, ← iho, ← value_eq_iff, consulted,
      List.mem_append]
    cases self.value h info <;> simp

/-- **The exposures are exact**: for an object not yet anchored, they are the
answers of the leaves on which the walk comes to it and refuses. -/
theorem exposed_iff (e : PipeFilter) (hinit : (h r).initialized = false) :
    (∃ w ∈ e.exposures r, Answered h info w) ↔
      r ∈ e.consulted h info ∧ e.value h info = false := by
  induction e with
  | ip | port | pid => simp [consulted, exposures]
  | firstWins ref =>
    simp only [exposures, consulted, value, List.mem_singleton, List.not_mem_nil, false_and,
      exists_false, false_iff, not_and]
    rintro rfl
    simp [FirstWinsFilter.admits, hinit]
  | all self other ihs iho =>
    rw [exposures, exists_mem_append, exists_mem_append, exists_mem_alongside,
      exists_mem_alongside, ihs, iho, ← mem_consulted_iff, ← value_eq_iff, ← value_eq_iff,
      consulted, value, List.mem_append]
    cases self.value h info <;> cases other.value h info <;> simp
  | any self other ihs iho =>
    rw [exposures, exists_mem_append, exists_mem_alongside, exists_mem_alongside, ihs, iho,
      ← value_eq_iff, ← value_eq_iff, consulted, value, List.mem_append]
    cases self.value h info <;> cases other.value h info <;> simp

/-! ## Expressions without exposures -/

/-- No `FirstWinsFilter` leaf. -/
def Stateless : PipeFilter → Prop
  | .firstWins _ => False
  | .all self other => self.Stateless ∧ other.Stateless
  | .any self other => self.Stateless ∧ other.Stateless
  | _ => True

/-- Every `&` has its `FirstWinsFilter` leaves in its right operand. -/
def Guarded : PipeFilter → Prop
  | .all self other => self.Stateless ∧ other.Guarded
  | .any self other => self.Guarded ∧ other.Guarded
  | _ => True

/-- Each verdict can be settled. -/
theorem settling_ne_nil (e : PipeFilter) : e.settling b ≠ [] := by
  induction e with
  | ip | port | pid | firstWins => simp [settling]
  | all self other ihs iho =>
    rw [settling]
    split
    · exact alongside_ne_nil ihs iho
    · simp [ihs]
  | any self other ihs iho =>
    rw [settling]
    split
    · simp [ihs]
    · exact alongside_ne_nil ihs iho

/-- No way leads to an object exactly where there is none. -/
theorem stateless_iff (e : PipeFilter) : e.Stateless ↔ ∀ r, e.routes r = [] := by
  induction e with
  | ip | port | pid => simp [Stateless, routes]
  | firstWins ref =>
    simp only [Stateless, routes, false_iff, not_forall]
    exact ⟨ref, by simp⟩
  | all self other ihs iho | any self other ihs iho =>
    simp only [Stateless, routes, ihs, iho, List.append_eq_nil_iff, alongside_eq_nil_iff,
      settling_ne_nil, false_or, forall_and]

theorem Stateless.guarded {e : PipeFilter} (he : e.Stateless) : e.Guarded := by
  induction e with
  | ip | port | pid | firstWins => trivial
  | all self other _ iho => exact ⟨he.1, iho he.2⟩
  | any self other ihs iho => exact ⟨ihs he.1, iho he.2⟩

/-- **Guarded expressions** are those without exposures. -/
theorem guarded_iff (e : PipeFilter) : e.Guarded ↔ ∀ r, e.exposures r = [] := by
  induction e with
  | ip | port | pid | firstWins => simp [Guarded, exposures]
  | all self other ihs iho =>
    have hexp : self.Stateless → ∀ r, self.exposures r = [] := fun hs => ihs.mp hs.guarded
    simp only [Guarded, exposures, stateless_iff, iho, List.append_eq_nil_iff,
      alongside_eq_nil_iff, settling_ne_nil, or_false, false_or, forall_and] at hexp ⊢
    constructor
    · rintro ⟨hroutes, ho⟩
      exact ⟨⟨hexp hroutes, hroutes⟩, ho⟩
    · rintro ⟨⟨-, hroutes⟩, ho⟩
      exact ⟨hroutes, ho⟩
  | any self other ihs iho =>
    simp only [Guarded, exposures, ihs, iho, List.append_eq_nil_iff, alongside_eq_nil_iff,
      settling_ne_nil, or_false, false_or, forall_and]

end PipeFilter

end PyNng
