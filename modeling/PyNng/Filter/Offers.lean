import PyNng.Common.Machine
import PyNng.Filter.Model
/-!
# Filter — an expression's walk, and runs of offers

`allow` writes to the anchors while a short-circuiting walk reads them.
`value` is the boolean value of the expression over its leaves' own
predicates and `consulted` the `FirstWinsFilter` objects the walk comes
to, both read from the anchors as they were before the walk.
`allow_eq` says the walk is these two: the verdict is the value, and the
objects consulted are exactly the ones that took the connection in. An
object met twice answers the second time as it did the first.
-/

namespace PyNng

variable {h : Anchors} {info : PipeFilterInfo}

/-! ## One filter object -/

namespace FirstWinsFilter

/-- The verdict of `allow`, from the object before the call. -/
def admits (f : FirstWinsFilter) (info : PipeFilterInfo) : Bool :=
  !f.initialized || f.agrees info

/-- The values of the selected keys are those of the connection. -/
def Stores (f : FirstWinsFilter) (info : PipeFilterInfo) : Prop :=
  (f.onPid → f.firstPid = info.peerPid) ∧ (f.onIp → f.firstAddr = info.peerAddr) ∧
    (f.onPort → f.firstPort = sockaddrPort info.peerAddr)

theorem allow_fst (f : FirstWinsFilter) : (f.allow info).1 = f.admits info := by
  unfold allow admits
  split <;> simp_all

@[simp] theorem allow_snd_initialized (f : FirstWinsFilter) :
    (f.allow info).2.initialized = true := by
  unfold allow anchor
  split <;> simp_all

theorem allow_snd_of_initialized {f : FirstWinsFilter} (hf : f.initialized = true) :
    (f.allow info).2 = f := by
  simp [allow, hf]

/-- An object not yet anchored stores the connection it is shown. -/
theorem allow_snd_stores {f : FirstWinsFilter} (hf : f.initialized = false) :
    (f.allow info).2.Stores info := by
  simp only [allow, hf, Bool.false_eq_true, if_false]
  refine ⟨fun hk => ?_, fun hk => ?_, fun hk => ?_⟩ <;> exact if_pos hk

theorem addrsEqualIp_self (a : SockAddr) : addrsEqualIp a a = true := by
  cases a <;> simp [addrsEqualIp]

/-- The connection an anchor was taken from agrees with it. -/
theorem agrees_anchor (f : FirstWinsFilter) : (f.anchor info).agrees info = true := by
  have hpid : (f.anchor info).onPid = f.onPid := rfl
  have hip : (f.anchor info).onIp = f.onIp := rfl
  have hport : (f.anchor info).onPort = f.onPort := rfl
  rw [agrees, hpid, hip, hport]
  cases h1 : f.onPid <;> cases h2 : f.onIp <;> cases h3 : f.onPort <;>
    simp [anchor, h1, h2, h3, addrsEqualIp_self]

/-- **Shown twice, answered alike**, and the second time nothing is written. -/
theorem allow_allow (f : FirstWinsFilter) :
    (f.allow info).2.allow info = f.allow info := by
  cases hf : f.initialized with
  | true => simp [allow, hf]
  | false =>
    have hinit : (f.anchor info).initialized = true := rfl
    simp [allow, hf, hinit, agrees_anchor]

end FirstWinsFilter

/-! ## The walk -/

/-- The anchors once the objects `refs` have been shown the connection. -/
def Anchors.shown (h : Anchors) (info : PipeFilterInfo) (refs : List ℕ) : Anchors :=
  fun r => if r ∈ refs then ((h r).allow info).2 else h r

@[simp] theorem Anchors.shown_nil : h.shown info [] = h := by
  funext r
  simp [Anchors.shown]

namespace PipeFilter

/-- The boolean value of the expression over its leaves. -/
def value (h : Anchors) (info : PipeFilterInfo) : PipeFilter → Bool
  | .ip f => f.allow info
  | .port f => f.allow info
  | .pid f => f.allow info
  | .firstWins ref => (h ref).admits info
  | .all self other => self.value h info && other.value h info
  | .any self other => self.value h info || other.value h info

/-- The `FirstWinsFilter` objects the walk comes to, left to right. -/
def consulted (h : Anchors) (info : PipeFilterInfo) : PipeFilter → List ℕ
  | .ip _ => []
  | .port _ => []
  | .pid _ => []
  | .firstWins ref => [ref]
  | .all self other =>
    self.consulted h info ++ if self.value h info then other.consulted h info else []
  | .any self other =>
    self.consulted h info ++ if self.value h info then [] else other.consulted h info

/-- The walk, from anchors some objects of which have been shown the
connection already. -/
theorem allow_shown (e : PipeFilter) (refs : List ℕ) :
    e.allow info (h.shown info refs) =
      (e.value h info, h.shown info (refs ++ e.consulted h info)) := by
  induction e generalizing refs with
  | ip f => simp [allow, value, consulted]
  | port f => simp [allow, value, consulted]
  | pid f => simp [allow, value, consulted]
  | firstWins ref =>
    have hat : (h.shown info refs ref).allow info = (h ref).allow info := by
      unfold Anchors.shown
      split
      · exact (h ref).allow_allow
      · rfl
    simp only [allow, hat, value, consulted, FirstWinsFilter.allow_fst, Prod.mk.injEq, true_and]
    funext r
    by_cases hr : r = ref
    · subst hr; simp [Anchors.shown]
    · simp [Anchors.shown, hr]
  | all self other ihs iho =>
    simp only [allow, AllFilter.allow, ihs, value, consulted]
    cases hs : self.value h info with
    | false => simp
    | true =>
      simp only [iho, List.append_assoc, if_true, Bool.true_and]
      cases other.value h info <;> rfl
  | any self other ihs iho =>
    simp only [allow, AnyFilter.allow, ihs, value, consulted]
    cases hs : self.value h info with
    | true => simp
    | false =>
      simp only [iho, List.append_assoc, Bool.false_or, Bool.false_eq_true, if_false]
      cases other.value h info <;> rfl

/-- **The walk of one offer**: the verdict is the boolean value, and the
objects written are those consulted. -/
theorem allow_eq (e : PipeFilter) (h : Anchors) (info : PipeFilterInfo) :
    e.allow info h = (e.value h info, h.shown info (e.consulted h info)) := by
  simpa using allow_shown (h := h) e []

end PipeFilter

/-! ## Runs of offers -/

/-- The anchors, and for each object the last connection it stored with the
verdict the whole expression gave that connection. -/
structure Offers where
  anchors : Anchors
  anchoredBy : ℕ → Option (PipeFilterInfo × Bool)

/-- A connection is offered to the expression, or an object is reset. -/
inductive OfferAct
  | offer (info : PipeFilterInfo)
  | reset (ref : ℕ)

/-- An offer records the connection at the objects it anchors. -/
def Offers.next (e : PipeFilter) (s : Offers) : OfferAct → Offers
  | .offer info =>
    let (verdict, anchors) := e.allow info s.anchors
    { anchors
      anchoredBy := fun r =>
        if (anchors r).initialized && !(s.anchors r).initialized then some (info, verdict)
        else s.anchoredBy r }
  | .reset ref =>
    { s with anchors := Function.update s.anchors ref (s.anchors ref).reset }

/-- **The machine of one expression**: any connections, any resets, any order. -/
def offers (e : PipeFilter) (masks : ℕ → UInt32) : Machine Offers OfferAct where
  init := { anchors := fun r => .new (masks r), anchoredBy := fun _ => none }
  Enabled := fun _ _ => True
  next := Offers.next e

/-- The verdicts a run of offers gets. -/
def verdicts (e : PipeFilter) : Anchors → List OfferAct → List Bool
  | _, [] => []
  | h, .offer info :: as => (e.allow info h).1 :: verdicts e (e.allow info h).2 as
  | h, .reset ref :: as => verdicts e (Function.update h ref (h ref).reset) as

end PyNng
