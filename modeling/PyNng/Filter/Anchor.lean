import PyNng.Filter.Exposure
/-!
# Filter — who becomes an anchor

The documentation has the first connection to pass establish the anchor.
`allow` anchors a `FirstWinsFilter` as soon as the walk comes to it, before
an operand further right has been asked, so a connection the expression
refuses can become the anchor and refuse the next peer.

What that takes is read off the expression (`exposures`): answers of its
leaves that lead the walk past an object and on to a refusal. `Unexposed`
denies of one offer that the leaves answer so at an object that is not
anchored. Where every `&` has its `FirstWinsFilter` leaves on the right
there is nothing to deny (`unexposed_of_guarded`).
-/

namespace PyNng

variable {e : PipeFilter} {masks : ℕ → UInt32}

/-- An anchored object stores a connection the whole expression accepted. -/
def AnchorsAccepted (s : Offers) : Prop :=
  ∀ r, (s.anchors r).initialized = true →
    ∃ info, s.anchoredBy r = some (info, true) ∧ (s.anchors r).Stores info

/-- A refused offer changes no later verdict. -/
def RefusalInert (e : PipeFilter) (s : Offers) : OfferAct → Prop
  | .offer info => (e.allow info s.anchors).1 = false →
      ∀ later, verdicts e (e.allow info s.anchors).2 later = verdicts e s.anchors later
  | .reset _ => True

/-- At no object that is not anchored do the leaves answer the connection as one
of the expression's exposures has it. -/
def Unexposed (e : PipeFilter) (s : Offers) : OfferAct → Prop
  | .offer info => ∀ r, (s.anchors r).initialized = false →
      ∀ w ∈ e.exposures r, ¬ Answered s.anchors info w
  | .reset _ => True

/-- An unexposed connection is accepted, or comes to anchored objects only. -/
theorem unexposed_iff {s : Offers} {info : PipeFilterInfo} :
    Unexposed e s (.offer info) ↔ e.value s.anchors info = true ∨
      ∀ r ∈ e.consulted s.anchors info, (s.anchors r).initialized = true := by
  have hat : ∀ r, (s.anchors r).initialized = false →
      ((∀ w ∈ e.exposures r, ¬ Answered s.anchors info w) ↔
        (r ∈ e.consulted s.anchors info → e.value s.anchors info = true)) := by
    intro r hinit
    have hexp := not_congr (@PipeFilter.exposed_iff s.anchors info r e hinit)
    rw [not_exists, not_and, Bool.not_eq_false] at hexp
    simpa only [not_and] using hexp
  constructor
  · intro h
    by_cases hval : e.value s.anchors info = true
    · exact .inl hval
    · refine .inr fun r hr => ?_
      by_contra hinit
      rw [Bool.not_eq_true] at hinit
      exact hval ((hat r hinit).mp (h r hinit) hr)
  · intro h r hinit
    refine (hat r hinit).mpr fun hr => ?_
    rcases h with hval | hall
    · exact hval
    · rw [hall r hr] at hinit
      cases hinit

/-- Objects already anchored are left alone. -/
theorem shown_eq_of_initialized {h : Anchors} {info : PipeFilterInfo} {refs : List ℕ}
    (hr : ∀ r ∈ refs, (h r).initialized = true) : h.shown info refs = h := by
  funext r
  unfold Anchors.shown
  split
  · exact FirstWinsFilter.allow_snd_of_initialized (hr r ‹_›)
  · rfl

/-- An unexposed offer that is refused changes nothing. -/
theorem refusalInert_of_unexposed {s : Offers} {a : OfferAct} (hv : Unexposed e s a) :
    RefusalInert e s a := by
  cases a with
  | reset => trivial
  | offer info =>
    intro hrefused later
    rw [PipeFilter.allow_eq] at hrefused ⊢
    rcases unexposed_iff.mp hv with hval | hcons
    · rw [hval] at hrefused; cases hrefused
    · rw [shown_eq_of_initialized hcons]

/-- **An unexposed step keeps the anchors accepted.** -/
theorem AnchorsAccepted.next {s : Offers} {a : OfferAct} (hs : AnchorsAccepted s)
    (hv : Unexposed e s a) : AnchorsAccepted (s.next e a) := by
  cases a with
  | reset ref =>
    intro r hr
    by_cases hrr : r = ref
    · subst hrr; simp [Offers.next, FirstWinsFilter.reset] at hr
    · simp only [Offers.next, Function.update_of_ne hrr] at hr ⊢
      exact hs r hr
  | offer info =>
    intro r hr
    simp only [Offers.next, PipeFilter.allow_eq] at hr ⊢
    cases hinit : (s.anchors r).initialized with
    | true =>
      have hsame : s.anchors.shown info (e.consulted s.anchors info) r = s.anchors r := by
        unfold Anchors.shown
        split
        · exact FirstWinsFilter.allow_snd_of_initialized hinit
        · rfl
      simp only [hsame, hinit, Bool.not_true, Bool.and_false, Bool.false_eq_true, if_false]
      exact hs r hinit
    | false =>
      -- newly anchored, so the walk came to it, and an unexposed offer is then accepted
      have hmem : r ∈ e.consulted s.anchors info := by
        by_contra hmem
        rw [Anchors.shown, if_neg hmem, hinit] at hr
        cases hr
      have hval : e.value s.anchors info = true := by
        rcases unexposed_iff.mp hv with hval | hcons
        · exact hval
        · have hanch := hcons r hmem
          rw [hinit] at hanch
          cases hanch
      refine ⟨info, by rw [if_pos (by rw [hr]; rfl), hval], ?_⟩
      rw [Anchors.shown, if_pos hmem]
      exact FirstWinsFilter.allow_snd_stores hinit

/-- **An exposed step anchors a refused connection.** -/
theorem not_anchorsAccepted_next {s : Offers} {a : OfferAct} (hv : ¬ Unexposed e s a) :
    ¬ AnchorsAccepted (s.next e a) := by
  cases a with
  | reset => exact absurd trivial hv
  | offer info =>
    simp only [unexposed_iff, not_or, not_forall, Bool.not_eq_true] at hv
    obtain ⟨hval, r, hmem, hinit⟩ := hv
    have hafter : (s.anchors.shown info (e.consulted s.anchors info) r).initialized = true := by
      rw [Anchors.shown, if_pos hmem, FirstWinsFilter.allow_snd_initialized]
    intro hacc
    obtain ⟨info', hby, -⟩ := hacc r (by simpa only [Offers.next, PipeFilter.allow_eq] using hafter)
    simp only [Offers.next, PipeFilter.allow_eq, hafter, hinit, hval] at hby
    cases hby

/-- The run from any accepted state. -/
theorem anchorsAccepted_run_iff {s : Offers} (hs : AnchorsAccepted s) (as : List OfferAct) :
    ((∀ k, AnchorsAccepted ((offers e masks).final s (as.take k))) ∧
        (offers e masks).Meets (RefusalInert e) s as) ↔
      (offers e masks).Meets (Unexposed e) s as := by
  induction as generalizing s with
  | nil => simpa [Machine.Meets] using hs
  | cons a as ih =>
    constructor
    · rintro ⟨hacc, -, hinert⟩
      have hv : Unexposed e s a := by
        by_contra hv
        exact not_anchorsAccepted_next hv (hacc 1)
      exact ⟨hv, (ih (hs.next hv)).mp ⟨fun k => hacc (k + 1), hinert⟩⟩
    · rintro ⟨hv, hrest⟩
      obtain ⟨hacc, hinert⟩ := (ih (hs.next hv)).mpr hrest
      refine ⟨fun k => ?_, refusalInert_of_unexposed hv, hinert⟩
      cases k with
      | zero => exact hs
      | succ k => exact hacc k

/-- **When no refused connection becomes an anchor.** Over a run of offers
and resets, every anchor is a connection the whole expression accepted and
no refused peer changes a later verdict, exactly when at no offer the leaves of
the expression give the answers of an exposure of an object not yet anchored. -/
theorem anchors_accepted_iff (e : PipeFilter) (masks : ℕ → UInt32) (as : List OfferAct) :
    ((∀ k, AnchorsAccepted ((offers e masks).final (offers e masks).init (as.take k))) ∧
        (offers e masks).Meets (RefusalInert e) (offers e masks).init as) ↔
      (offers e masks).Meets (Unexposed e) (offers e masks).init as :=
  anchorsAccepted_run_iff (fun r hr => by simp [offers, FirstWinsFilter.new] at hr) as

/-! ## A refused anchor -/

/-- `FirstWinsFilter(on=FilterKey.PID) & PidFilter([42])`. -/
def onePeer : PipeFilter := .all (.firstWins 0) (.pid ⟨.allow, [42]⟩)

/-- An IPC connection of the given process. -/
def ipcPeer (pid : ℤ) : PipeFilterInfo :=
  { peerAddr := .other 1, peerPid := pid, pipeId := 1, dialer := 0, listener := 1 }

/-- **The refused peer is the anchor.** Process 7 is refused by the PID list
and anchors the object; process 42, which the expression would have
accepted, is refused after it. -/
theorem refused_peer_anchors :
    ¬ (∀ (e : PipeFilter) (masks : ℕ → UInt32) (as : List OfferAct),
        (∀ k, AnchorsAccepted ((offers e masks).final (offers e masks).init (as.take k))) ∧
          (offers e masks).Meets (RefusalInert e) (offers e masks).init as) ∧
      verdicts onePeer (fun _ => .new 1) [.offer (ipcPeer 42)] = [true] ∧
      verdicts onePeer (fun _ => .new 1) [.offer (ipcPeer 7), .offer (ipcPeer 42)] =
        [false, false] := by
  refine ⟨fun hclaim => ?_, by decide, by decide⟩
  have hacc := (hclaim onePeer (fun _ => 1) [.offer (ipcPeer 7)]).1 1
  obtain ⟨info, hby, -⟩ := hacc 0 (by decide)
  have hrefused : some (ipcPeer 7, false) = some (info, true) := hby
  cases hrefused

/-- **Guarded expressions expose no object**: putting the `FirstWinsFilter` last
keeps refused peers out. -/
theorem unexposed_of_guarded (he : e.Guarded) (s : Offers) (a : OfferAct) :
    Unexposed e s a := by
  cases a with
  | reset => trivial
  | offer info =>
    intro r _ w hw
    rw [e.guarded_iff.mp he r] at hw
    exact absurd hw List.not_mem_nil

/-- So whoever connects, in whatever order, their anchors are accepted connections. -/
theorem anchorsAccepted_of_guarded (he : e.Guarded) (as : List OfferAct) :
    AnchorsAccepted ((offers e masks).final (offers e masks).init as) := by
  have hmeets : ∀ (s : Offers) (as : List OfferAct), (offers e masks).Meets (Unexposed e) s as := by
    intro s as
    induction as generalizing s with
    | nil => trivial
    | cons a as ih => exact ⟨unexposed_of_guarded he s a, ih _⟩
  have hinit : AnchorsAccepted (offers e masks).init :=
    fun r hr => by simp [offers, FirstWinsFilter.new] at hr
  have hacc := ((anchorsAccepted_run_iff hinit as).mpr (hmeets _ as)).1 as.length
  rwa [List.take_length] at hacc

end PyNng
