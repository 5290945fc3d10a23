import Mathlib.Data.Nat.Notation
import Mathlib.Logic.Relation
/-!
# Common — machines, their runs and their invariants

A machine is a start state with the actions that may happen in it: when
an action is enabled and the state it leads to. Threads, callbacks and
the library underneath are told apart by the actions they take, so an
interleaving is nothing but the order of a run's actions.

`ReachWhen ok` holds the states reached by runs all of whose steps meet
`ok`; `Reach` asks nothing of the steps. `Valid` and `final` read a run
off its list of actions and are decidable where the machine is, which is
how a concrete run is exhibited.
-/

namespace PyNng

/-- **A machine.** Every action has its guard and its effect. -/
structure Machine (State Act : Type*) where
  /-- The state runs start in. -/
  init : State
  /-- The guard of an action. -/
  Enabled : State → Act → Prop
  /-- The effect of an action, read only where it is enabled. -/
  next : State → Act → State

namespace Machine

variable {State Act : Type*} {M : Machine State Act} {ok ok' : State → Act → Prop}

/-- The states reached by the runs whose every step meets `ok`. -/
inductive ReachWhen (M : Machine State Act) (ok : State → Act → Prop) : State → Prop
  | init : ReachWhen M ok M.init
  | step {s : State} {a : Act} :
      ReachWhen M ok s → ok s a → M.Enabled s a → ReachWhen M ok (M.next s a)

/-- The states reached by any run. -/
abbrev Reach (M : Machine State Act) : State → Prop := M.ReachWhen fun _ _ => True

/-- **The invariant rule.** What the start state has and every step of a
run keeps, every state of the run has. The step may use that its source
is reached, and so any invariant proved before. -/
theorem ReachWhen.invariant {Inv : State → Prop} (hinit : Inv M.init)
    (hstep : ∀ s a, M.ReachWhen ok s → Inv s → ok s a → M.Enabled s a → Inv (M.next s a)) :
    ∀ {s}, M.ReachWhen ok s → Inv s := by
  intro s h
  induction h with
  | init => exact hinit
  | step hr hok hen ih => exact hstep _ _ hr ih hok hen

/-- A weaker condition on the steps reaches more states. -/
theorem ReachWhen.mono (hok : ∀ s a, ok s a → ok' s a) {s : State} (h : M.ReachWhen ok s) :
    M.ReachWhen ok' s := by
  induction h with
  | init => exact .init
  | step _ hs hen ih => exact .step ih (hok _ _ hs) hen

/-- Whatever is asked of the steps, the states reached are reachable. -/
theorem ReachWhen.reach {s : State} (h : M.ReachWhen ok s) : M.Reach s :=
  h.mono fun _ _ _ => trivial

/-! ## Runs as lists of actions -/

/-- The state a list of actions leads to. -/
def final (M : Machine State Act) (s : State) (as : List Act) : State := as.foldl M.next s

/-- Every action of the list is enabled where it is taken. -/
def Valid (M : Machine State Act) : State → List Act → Prop
  | _, [] => True
  | s, a :: as => M.Enabled s a ∧ M.Valid (M.next s a) as

/-- Every step of the list meets `ok`. -/
def Meets (M : Machine State Act) (ok : State → Act → Prop) : State → List Act → Prop
  | _, [] => True
  | s, a :: as => ok s a ∧ M.Meets ok (M.next s a) as

instance decidableValid [∀ s a, Decidable (M.Enabled s a)] :
    ∀ (s : State) (as : List Act), Decidable (M.Valid s as)
  | _, [] => inferInstanceAs (Decidable True)
  | s, a :: as =>
    have := decidableValid (M.next s a) as
    inferInstanceAs (Decidable (_ ∧ _))

instance decidableMeets [∀ s a, Decidable (ok s a)] :
    ∀ (s : State) (as : List Act), Decidable (M.Meets ok s as)
  | _, [] => inferInstanceAs (Decidable True)
  | s, a :: as =>
    have := decidableMeets (M.next s a) as
    inferInstanceAs (Decidable (_ ∧ _))

@[simp] theorem final_nil (s : State) : M.final s [] = s := rfl

@[simp] theorem final_cons (s : State) (a : Act) (as : List Act) :
    M.final s (a :: as) = M.final (M.next s a) as := rfl

theorem meets_append {s : State} {as bs : List Act} :
    M.Meets ok s (as ++ bs) ↔ M.Meets ok s as ∧ M.Meets ok (M.final s as) bs := by
  induction as generalizing s with
  | nil => simp [Meets]
  | cons a as ih => simp [Meets, ih, and_assoc]

/-- A list that meets a condition meets a weaker one. -/
theorem Meets.mono (hok : ∀ s a, ok s a → ok' s a) {s : State} {as : List Act}
    (h : M.Meets ok s as) : M.Meets ok' s as := by
  induction as generalizing s with
  | nil => trivial
  | cons a as ih => exact ⟨hok _ _ h.1, ih h.2⟩

theorem ReachWhen.final {s : State} (h : M.ReachWhen ok s) {as : List Act}
    (hv : M.Valid s as) (hm : M.Meets ok s as) : M.ReachWhen ok (M.final s as) := by
  induction as generalizing s with
  | nil => exact h
  | cons a as ih => exact ih (.step h hm.1 hv.1) hv.2 hm.2

/-- **A listed run reaches its last state.** -/
theorem reachWhen_final {as : List Act} (hv : M.Valid M.init as) (hm : M.Meets ok M.init as) :
    M.ReachWhen ok (M.final M.init as) :=
  ReachWhen.init.final hv hm

theorem meets_true (s : State) (as : List Act) : M.Meets (fun _ _ => True) s as := by
  induction as generalizing s with
  | nil => trivial
  | cons a as ih => exact ⟨trivial, ih _⟩

/-- The same where nothing is asked of the steps. -/
theorem reach_final {as : List Act} (hv : M.Valid M.init as) : M.Reach (M.final M.init as) :=
  reachWhen_final hv (meets_true _ _)

/-- A condition met in reachable states is met along a run. -/
theorem Meets.of_reach (hok : ∀ s a, M.Reach s → ok s a → ok' s a) {s : State} {as : List Act}
    (hr : M.Reach s) (hv : M.Valid s as) (h : M.Meets ok s as) : M.Meets ok' s as := by
  induction as generalizing s with
  | nil => trivial
  | cons a as ih => exact ⟨hok _ _ hr h.1, ih (.step hr trivial hv.1) hv.2 h.2⟩

/-- **The invariant rule from a state on.** What a reachable state has and
every step keeps that meets `ok`, the state a run of such steps leads to has. -/
theorem Meets.invariant {Inv : State → Prop}
    (hstep : ∀ s a, M.Reach s → Inv s → ok s a → M.Enabled s a → Inv (M.next s a)) {s : State}
    {as : List Act} (hr : M.Reach s) (hs : Inv s) (hv : M.Valid s as) (hm : M.Meets ok s as) :
    Inv (M.final s as) := by
  induction as generalizing s with
  | nil => exact hs
  | cons a as ih =>
    exact ih (.step hr trivial hv.1) (hstep s a hr hs hm.1 hv.1) hv.2 hm.2

/-- **Conditions that agree on the steps of reachable states** are met by the
same runs. -/
theorem meets_congr (hok : ∀ s a, M.Reach s → M.Enabled s a → (ok s a ↔ ok' s a)) {s : State}
    {as : List Act} (hr : M.Reach s) (hv : M.Valid s as) : M.Meets ok s as ↔ M.Meets ok' s as := by
  induction as generalizing s with
  | nil => exact Iff.rfl
  | cons a as ih => exact and_congr (hok s a hr hv.1) (ih (hr.step trivial hv.1) hv.2)

/-! ## What holds all along a run -/

/-- `P` holds in the state the list starts in and after each of its actions. -/
def Throughout (M : Machine State Act) (P : State → Prop) : State → List Act → Prop
  | s, [] => P s
  | s, a :: as => P s ∧ M.Throughout P (M.next s a) as

theorem Throughout.final {P : State → Prop} {s : State} {as : List Act}
    (h : M.Throughout P s as) : P (M.final s as) := by
  induction as generalizing s with
  | nil => exact h
  | cons a as ih => exact ih h.2

theorem Throughout.head {P : State → Prop} {s : State} {as : List Act}
    (h : M.Throughout P s as) : P s := by
  cases as with
  | nil => exact h
  | cons a as => exact h.1

/-- Where the steps that meet `ok` keep an invariant that gives `P`, `P` holds
all along a run of such steps. -/
theorem Meets.throughout {Inv P : State → Prop} (hP : ∀ s, Inv s → P s)
    (hstep : ∀ s a, M.Reach s → Inv s → ok s a → M.Enabled s a → Inv (M.next s a)) {s : State}
    {as : List Act} (hr : M.Reach s) (hs : Inv s) (hv : M.Valid s as) (hm : M.Meets ok s as) :
    M.Throughout P s as := by
  induction as generalizing s with
  | nil => exact hP s hs
  | cons a as ih =>
    exact ⟨hP s hs, ih (.step hr trivial hv.1) (hstep s a hr hs hm.1 hv.1) hv.2 hm.2⟩

/-- **The exact condition of a run.** Where the steps that meet `ok` keep an
invariant that gives `P`, and every other step breaks `P` at once, `P` holds
all along a run exactly when every step of it meets `ok`. -/
theorem throughout_iff_meets {Inv P : State → Prop} (hP : ∀ s, Inv s → P s)
    (hstep : ∀ s a, M.Reach s → Inv s → ok s a → M.Enabled s a → Inv (M.next s a))
    (hbreak : ∀ s a, M.Reach s → Inv s → M.Enabled s a → ¬ ok s a → ¬ P (M.next s a)) {s : State}
    {as : List Act} (hr : M.Reach s) (hs : Inv s) (hv : M.Valid s as) :
    M.Throughout P s as ↔ M.Meets ok s as := by
  induction as generalizing s with
  | nil => exact ⟨fun _ => trivial, fun _ => hP s hs⟩
  | cons a as ih =>
    have hnext : M.Reach (M.next s a) := hr.step trivial hv.1
    constructor
    · intro h
      by_cases hok : ok s a
      · exact ⟨hok, (ih hnext (hstep s a hr hs hok hv.1) hv.2).mp h.2⟩
      · exact absurd h.2.head (hbreak s a hr hs hv.1 hok)
    · intro h
      exact ⟨hP s hs, (ih hnext (hstep s a hr hs h.1 hv.1) hv.2).mpr h.2⟩

/-- **The mark of a bad step.** Where every step that does not meet `ok` leads to
a state that is `Bad`, and no step leads out of those, a run meets `ok` all
along or ends in one of them. -/
theorem meets_or_bad {Bad : State → Prop}
    (hbad : ∀ s a, M.Reach s → M.Enabled s a → ¬ ok s a → Bad (M.next s a))
    (hkeep : ∀ s a, M.Reach s → M.Enabled s a → Bad s → Bad (M.next s a)) {s : State}
    {as : List Act} (hr : M.Reach s) (hv : M.Valid s as) :
    M.Meets ok s as ∨ Bad (M.final s as) := by
  have hstay : ∀ (as : List Act) (s : State), M.Reach s → M.Valid s as → Bad s →
      Bad (M.final s as) := by
    intro as
    induction as with
    | nil => exact fun _ _ _ h => h
    | cons a as ih => exact fun s hr hv h => ih _ (hr.step trivial hv.1) hv.2 (hkeep s a hr hv.1 h)
  induction as generalizing s with
  | nil => exact .inl trivial
  | cons a as ih =>
    have hnext : M.Reach (M.next s a) := hr.step trivial hv.1
    by_cases hok : ok s a
    · rcases ih hnext hv.2 with hm | hb
      · exact .inl ⟨hok, hm⟩
      · exact .inr hb
    · exact .inr (hstay as _ hnext hv.2 (hbad s a hr hv.1 hok))

/-! ## Runs that come to an end -/

/-- From the state on no run goes on forever, and one that cannot go on has
come to `P`. -/
def EndsIn (M : Machine State Act) (P : State → Prop) (s : State) : Prop :=
  (∃ n, ∀ as, M.Valid s as → as.length ≤ n) ∧
    ∀ as, M.Valid s as → (∀ a, ¬ M.Enabled (M.final s as) a) → P (M.final s as)

/-- Where every step keeps an invariant and lowers a number, no run is longer
than the number. -/
theorem length_le_of_lowers {Inv : State → Prop} {μ : State → ℕ}
    (hstep : ∀ s a, Inv s → M.Enabled s a → Inv (M.next s a) ∧ μ (M.next s a) < μ s) {s : State}
    {as : List Act} (hs : Inv s) (hv : M.Valid s as) :
    as.length + μ (M.final s as) ≤ μ s ∧ Inv (M.final s as) := by
  induction as generalizing s with
  | nil => exact ⟨Nat.le_of_eq (Nat.zero_add _), hs⟩
  | cons a as ih =>
    obtain ⟨hnext, hlt⟩ := hstep s a hs hv.1
    obtain ⟨hle, hinv⟩ := ih hnext hv.2
    refine ⟨?_, hinv⟩
    rw [List.length_cons, final_cons]
    omega

/-- **The rule for runs that end.** -/
theorem EndsIn.of_lowers {P Inv : State → Prop} {μ : State → ℕ}
    (hstep : ∀ s a, Inv s → M.Enabled s a → Inv (M.next s a) ∧ μ (M.next s a) < μ s)
    (hstop : ∀ s, Inv s → (∀ a, ¬ M.Enabled s a) → P s) {s : State} (hs : Inv s) :
    M.EndsIn P s := by
  refine ⟨⟨μ s, fun as hv => ?_⟩, fun as hv hno => hstop _ (length_le_of_lowers hstep hs hv).2 hno⟩
  have := (length_le_of_lowers hstep hs hv).1
  omega

/-! ## From one state to a later one -/

/-- Some run leads from the one state to the other. -/
def Leads (M : Machine State Act) (s s' : State) : Prop :=
  ∃ as, M.Valid s as ∧ M.final s as = s'

theorem Leads.refl (M : Machine State Act) (s : State) : M.Leads s s := ⟨[], trivial, rfl⟩

theorem Leads.trans {s s' s'' : State} (h : M.Leads s s') (h' : M.Leads s' s'') :
    M.Leads s s'' := by
  obtain ⟨as, hv, rfl⟩ := h
  obtain ⟨bs, hv', rfl⟩ := h'
  refine ⟨as ++ bs, ?_, List.foldl_append ..⟩
  induction as generalizing s with
  | nil => exact hv'
  | cons a as ih => exact ⟨hv.1, ih hv.2 hv'⟩

theorem Leads.step {s : State} {a : Act} (h : M.Enabled s a) : M.Leads s (M.next s a) :=
  ⟨[a], ⟨h, trivial⟩, rfl⟩

/-- A listed run goes on. -/
theorem leads_final_append {s : State} {as bs : List Act} (hv : M.Valid (M.final s as) bs) :
    M.Leads (M.final s as) (M.final s (as ++ bs)) :=
  ⟨bs, hv, (List.foldl_append ..).symm⟩

theorem Leads.reach {s s' : State} (h : M.Leads s s') (hs : M.Reach s) : M.Reach s' := by
  obtain ⟨as, hv, rfl⟩ := h
  exact ReachWhen.final hs hv (meets_true _ _)

/-- **The rule for two states of a run.** A relation that holds across every
step, and that composes, holds between any state and a later one. -/
theorem Leads.relates {R : State → State → Prop} (hrefl : ∀ s, M.Reach s → R s s)
    (htrans : ∀ s s' s'', R s s' → R s' s'' → R s s'')
    (hstep : ∀ s a, M.Reach s → M.Enabled s a → R s (M.next s a)) {s s' : State}
    (hs : M.Reach s) (h : M.Leads s s') : R s s' := by
  obtain ⟨as, hv, rfl⟩ := h
  induction as generalizing s with
  | nil => exact hrefl s hs
  | cons a as ih =>
    exact htrans _ _ _ (hstep s a hs hv.1) (ih (.step hs trivial hv.1) hv.2)

end Machine

end PyNng
