import PyNng.Endpoint.Model
/-!
# Endpoint — closing a socket and its objects in any order

A dialer, a listener or a context knows that it is closed by its handle,
and only its own `close` empties that. nng forgets the endpoint when the
socket is closed as well, so that an object first closed after its socket
asks nng to close what is not there, and raises what nng answers.

`closes_safely_iff` says which sequences of calls go well.
-/

namespace PyNng

namespace Endpoint

variable {ι : Type*} [DecidableEq ι] {kind : ι → Kind} {s₀ s : Objects ι}
variable {done : List (Obj ι)}

/-! ## What is open -/

/-- The object has a handle, and nng knows what the handle stands for. -/
def Objects.IsOpen (kind : ι → Kind) (s : Objects ι) : Obj ι → Prop
  | .socket => s.socket.isOpen = true
  | .child i => (s.handle i).isOpen = true ∧ s.nng (kind i) (s.handle i).id = true

/-- **A socket and the objects made from it**, none of them closed. -/
structure AllOpen (kind : ι → Kind) (s : Objects ι) : Prop where
  isOpen : ∀ x, s.IsOpen kind x
  distinct : ∀ i j, kind i = kind j → (s.handle i).id = (s.handle j).id → i = j

/-- The object was closed by one of the calls, or its socket was. -/
def ClosedBy (calls : List (Call ι)) (x : Obj ι) : Prop :=
  ∃ c ∈ calls, c.obj = x ∨ c.obj = .socket

/-- **The call goes well**: it does not raise, and does nothing to an object
that is closed already. -/
def GoesWell (kind : ι → Kind) (s : Objects ι) (c : Call ι) : Prop :=
  (s.call kind c).2 = none ∧ (¬ s.IsOpen kind c.obj → (s.call kind c).1 = s)

/-- The state the calls lead to. -/
def Objects.after (kind : ι → Kind) (s : Objects ι) (calls : List (Call ι)) : Objects ι :=
  (closing kind s).final s calls

/-- **`close` is safe in the order of the calls**: each of them goes well,
exactly the objects closed by them are closed, and any other calls that
close the same objects leave the same objects open. -/
structure ClosesSafely (kind : ι → Kind) (s : Objects ι) (calls : List (Call ι)) : Prop where
  goesWell : (closing kind s).Meets (GoesWell kind) s calls
  closed : ∀ x, ¬ (s.after kind calls).IsOpen kind x ↔ ClosedBy calls x
  same : ∀ calls', (∀ x, ClosedBy calls' x ↔ ClosedBy calls x) →
    ∀ x, (s.after kind calls').IsOpen kind x ↔ (s.after kind calls).IsOpen kind x

/-- From the socket's close on, only what was closed before is closed. -/
def InOrder : List (Obj ι) → List (Call ι) → Prop
  | _, [] => True
  | done, c :: calls => (.socket ∈ done → c.obj ∈ done) ∧ InOrder (c.obj :: done) calls

/-! ## What the handles and nng know of the calls -/

/-- **Each handle knows of its own closes**, nng of all of them. -/
structure Tracks (kind : ι → Kind) (s₀ : Objects ι) (done : List (Obj ι)) (s : Objects ι) :
    Prop where
  socket : s.socket.isOpen = true ↔ .socket ∉ done
  closed : ∀ i, .child i ∈ done → s.handle i = Handle.empty
  kept : ∀ i, .child i ∉ done → s.handle i = s₀.handle i
  live : ∀ i, s.nng (kind i) (s₀.handle i).id = true ↔ .socket ∉ done ∧ .child i ∉ done

omit [DecidableEq ι] in
theorem tracks_init (h : AllOpen kind s₀) : Tracks kind s₀ [] s₀ where
  socket := ⟨fun _ => List.not_mem_nil, fun _ => h.isOpen .socket⟩
  closed := fun _ hi => absurd hi List.not_mem_nil
  kept := fun _ _ => rfl
  live := fun i =>
    ⟨fun _ => ⟨List.not_mem_nil, List.not_mem_nil⟩, fun _ => (h.isOpen (.child i)).2⟩

omit [DecidableEq ι] in
/-- Closing again changes nothing in what is known. -/
theorem Tracks.again (h : Tracks kind s₀ done s) {x : Obj ι} (hx : x ∈ done) :
    Tracks kind s₀ (x :: done) s := by
  have hmem : ∀ y, y ∈ x :: done ↔ y ∈ done := by
    intro y
    rw [List.mem_cons]
    exact ⟨fun hy => hy.elim (fun hyx => hyx ▸ hx) id, Or.inr⟩
  refine ⟨?_, fun i hi => h.closed i ((hmem _).mp hi), fun i hi => h.kept i ?_, fun i => ?_⟩
  · rw [hmem]
    exact h.socket
  · rwa [hmem] at hi
  · rw [hmem, hmem]
    exact h.live i

theorem call_eq (s : Objects ι) (c : Call ι) :
    s.call kind c = s.closeObj kind c.obj c.invalid := by
  unfold Objects.call
  cases c.how <;> rfl

omit [DecidableEq ι] in
/-- The socket is closed the first time. -/
theorem Tracks.closeSocket (h : Tracks kind s₀ done s) (hx : .socket ∉ done) :
    Tracks kind s₀ (.socket :: done) s.closeSocket := by
  have hchild : ∀ i : ι, Obj.child i ∈ Obj.socket :: done ↔ Obj.child i ∈ done := by
    simp
  unfold Objects.closeSocket
  rw [if_pos (h.socket.mpr hx)]
  refine ⟨?_, fun i hi => h.closed i ((hchild i).mp hi), fun i hi => h.kept i ?_, fun i => ?_⟩
  · simp
  · rwa [hchild] at hi
  · simp

/-- The handle is empty: the call does nothing. -/
theorem closeChild_of_done (h : Tracks kind s₀ done s) {i : ι} {invalid : Invalid}
    (hi : .child i ∈ done) : s.closeChild kind i invalid = (s, none) := by
  unfold Objects.closeChild
  rw [h.closed i hi]
  rfl

/-- An object that was closed before: nothing happens. -/
theorem closeObj_of_done (h : Tracks kind s₀ done s) {x : Obj ι} {invalid : Invalid}
    (hx : x ∈ done) : s.closeObj kind x invalid = (s, none) := by
  cases x with
  | socket =>
    have hclosed : ¬ s.socket.isOpen = true := fun ho => h.socket.mp ho hx
    show (s.closeSocket, none) = (s, none)
    unfold Objects.closeSocket
    rw [if_neg hclosed]
  | child i => exact closeChild_of_done h hx

/-- The handle is asked for: nng is told to close the endpoint. -/
theorem closeChild_of_not_done (h₀ : AllOpen kind s₀) (h : Tracks kind s₀ done s) {i : ι}
    {invalid : Invalid} (hi : .child i ∉ done) :
    s.closeChild kind i invalid =
      if .socket ∈ done then
        ⟨{ s with handle := Function.update s.handle i Handle.empty }, some (.nng invalid.code)⟩
      else
        ⟨{ s with
            nng := s.nng.set (kind i) (s₀.handle i).id false
            handle := Function.update s.handle i Handle.empty }, none⟩ := by
  have hopen : (s₀.handle i).isOpen = true := (h₀.isOpen (.child i)).1
  unfold Objects.closeChild
  rw [h.kept i hi, if_pos hopen, Handle.close_of_open _ hopen]
  have hlive := h.live i
  by_cases hs : Obj.socket ∈ done
  · have hdead : s.nng (kind i) (s₀.handle i).id = false := by
      simpa [hs] using hlive
    have hcode : checkErr invalid.code = some (.nng invalid.code) := by
      cases invalid <;> rfl
    simp only [nngClose, hdead, if_pos hs, hcode, Bool.false_eq_true, if_false]
  · have halive : s.nng (kind i) (s₀.handle i).id = true := hlive.mpr ⟨hs, hi⟩
    simp only [nngClose, halive, if_neg hs, if_true]
    rfl

/-- A handle is emptied, and the endpoint it stood for is not live. -/
theorem Tracks.emptied (h : Tracks kind s₀ done s) {i : ι} {nng : Nng}
    (hlive : ∀ j, nng (kind j) (s₀.handle j).id = true ↔
      (.socket ∉ done ∧ .child j ∉ done) ∧ j ≠ i) :
    Tracks kind s₀ (.child i :: done)
      { s with nng, handle := Function.update s.handle i Handle.empty } := by
  refine ⟨?_, fun j hj => ?_, fun j hj => ?_, fun j => ?_⟩
  · simpa using h.socket
  · by_cases hji : j = i
    · subst hji
      exact Function.update_self ..
    · have hdone : Obj.child j ∈ done := by simpa [hji] using hj
      exact (Function.update_of_ne hji ..).trans (h.closed j hdone)
  · obtain ⟨hji, hdone⟩ : j ≠ i ∧ Obj.child j ∉ done := by simpa using hj
    exact (Function.update_of_ne hji ..).trans (h.kept j hdone)
  · show nng (kind j) (s₀.handle j).id = true ↔ _
    rw [hlive j]
    simp only [List.mem_cons, reduceCtorEq, Obj.child.injEq, false_or, not_or]
    exact ⟨fun ⟨⟨hs, hdone⟩, hji⟩ => ⟨hs, hji, hdone⟩, fun ⟨hs, hji, hdone⟩ => ⟨⟨hs, hdone⟩, hji⟩⟩

/-- **What is known after a call.** -/
theorem Tracks.call (h₀ : AllOpen kind s₀) (h : Tracks kind s₀ done s) (c : Call ι) :
    Tracks kind s₀ (c.obj :: done) (s.call kind c).1 := by
  rw [call_eq]
  by_cases hdone : c.obj ∈ done
  · rw [closeObj_of_done h hdone]
    exact h.again hdone
  · cases hobj : c.obj with
    | socket =>
      rw [hobj] at hdone
      exact h.closeSocket hdone
    | child i =>
      rw [hobj] at hdone
      show Tracks kind s₀ _ (s.closeChild kind i c.invalid).1
      rw [closeChild_of_not_done h₀ h hdone]
      split
      · rename_i hs
        refine h.emptied fun j => ?_
        rw [h.live j]
        simp [hs]
      · refine h.emptied fun j => ?_
        by_cases hji : j = i
        · subst hji
          simp
        · have hne : kind j ≠ kind i ∨ (s₀.handle j).id ≠ (s₀.handle i).id := by
            by_contra hsame
            rw [not_or, not_not, not_not] at hsame
            exact hji (h₀.distinct j i hsame.1 hsame.2)
          rw [set_of_ne hne, h.live j]
          simp [hji]

/-- What is closed, read off the calls. -/
theorem Tracks.isOpen_iff (h₀ : AllOpen kind s₀) (h : Tracks kind s₀ done s) (x : Obj ι) :
    s.IsOpen kind x ↔ .socket ∉ done ∧ x ∉ done := by
  cases x with
  | socket => simpa [Objects.IsOpen] using h.socket
  | child i =>
    by_cases hi : Obj.child i ∈ done
    · simp [Objects.IsOpen, h.closed i hi, hi]
    · have hopen := (h₀.isOpen (.child i)).1
      rw [Objects.IsOpen, h.kept i hi, hopen, h.live i]
      simp

/-- **Which calls go well**: after the socket's close, those on objects that
were closed before. -/
theorem Tracks.goesWell_iff (h₀ : AllOpen kind s₀) (h : Tracks kind s₀ done s) (c : Call ι) :
    GoesWell kind s c ↔ (.socket ∈ done → c.obj ∈ done) := by
  unfold GoesWell
  rw [h.isOpen_iff h₀, call_eq]
  by_cases hdone : c.obj ∈ done
  · rw [closeObj_of_done h hdone]
    exact ⟨fun _ _ => hdone, fun _ => ⟨rfl, fun _ => rfl⟩⟩
  · cases hobj : c.obj with
    | socket =>
      rw [hobj] at hdone
      exact ⟨fun _ hs => hs, fun _ => ⟨rfl, fun hclosed => absurd ⟨hdone, hdone⟩ hclosed⟩⟩
    | child i =>
      rw [hobj] at hdone
      show (s.closeChild kind i c.invalid).2 = none ∧
        (_ → (s.closeChild kind i c.invalid).1 = s) ↔ _
      rw [closeChild_of_not_done h₀ h hdone]
      by_cases hs : Obj.socket ∈ done
      · simp [hs, hdone]
      · simp [hs, hdone]

/-! ## Sequences of calls -/

theorem meets_iff (h₀ : AllOpen kind s₀) (h : Tracks kind s₀ done s) (calls : List (Call ι)) :
    (closing kind s₀).Meets (GoesWell kind) s calls ↔ InOrder done calls := by
  induction calls generalizing s done with
  | nil => exact Iff.rfl
  | cons c calls ih => exact and_congr (h.goesWell_iff h₀ c) (ih (h.call h₀ c))

theorem tracks_final (h₀ : AllOpen kind s₀) (h : Tracks kind s₀ done s)
    (calls : List (Call ι)) :
    Tracks kind s₀ ((calls.map Call.obj).reverse ++ done)
      ((closing kind s₀).final s calls) := by
  induction calls generalizing s done with
  | nil => exact h
  | cons c calls ih =>
    have := ih (h.call h₀ c)
    rw [List.map_cons, List.reverse_cons, List.append_assoc]
    exact this

/-- **Whatever the order, what the calls close is closed**, and nothing else. -/
theorem closed_iff (h₀ : AllOpen kind s₀) (calls : List (Call ι)) (x : Obj ι) :
    ¬ (s₀.after kind calls).IsOpen kind x ↔ ClosedBy calls x := by
  have h := tracks_final h₀ (tracks_init h₀) calls
  rw [Objects.after, h.isOpen_iff h₀]
  unfold ClosedBy
  simp only [List.append_nil, List.mem_reverse, List.mem_map]
  constructor
  · intro hx
    by_contra hno
    refine hx ⟨?_, ?_⟩
    · rintro ⟨c, hc, hobj⟩
      exact hno ⟨c, hc, Or.inr hobj⟩
    · rintro ⟨c, hc, hobj⟩
      exact hno ⟨c, hc, Or.inl hobj⟩
  · rintro ⟨c, hc, hobj⟩ ⟨hs, hx⟩
    exact hobj.elim (fun h => hx ⟨c, hc, h⟩) fun h => hs ⟨c, hc, h⟩

/-- **When closing is safe.** For any socket and objects made from it, and any
sequence of closes and exits of `with` blocks on them, whatever nng answers
for an endpoint it does not know: the calls are safe exactly when no object
is closed for the first time after its socket was. -/
theorem closes_safely_iff (h : AllOpen kind s) (calls : List (Call ι)) :
    ClosesSafely kind s calls ↔ InOrder [] calls := by
  have hmeets := meets_iff h (tracks_init h) calls
  refine ⟨fun hsafe => hmeets.mp hsafe.goesWell, fun horder => ?_⟩
  refine ⟨hmeets.mpr horder, closed_iff h calls, fun calls' hsame x => ?_⟩
  rw [← not_iff_not, closed_iff h calls', closed_iff h calls]
  exact hsame x

/-- A socket with a dialer and a context. -/
def pair : Objects Bool where
  socket := ⟨1⟩
  nng := fun _ n => decide (n = 1)
  handle := fun _ => ⟨1⟩

/-- The dialer, the context. -/
def pairKind : Bool → Kind
  | true => .dialer
  | false => .context

theorem pair_allOpen : AllOpen pairKind pair where
  isOpen := by
    rintro (_ | i)
    · rfl
    · exact ⟨rfl, rfl⟩
  distinct := by decide

/-- The dialer is closed in its `with` block, the socket after it, and both again. -/
theorem closes_safely_iff_nested :
    let calls : List (Call Bool) := [⟨.child true, .exit, .enoent⟩, ⟨.socket, .exit, .eclosed⟩,
      ⟨.child true, .close, .eclosed⟩, ⟨.socket, .close, .enoent⟩]
    ClosesSafely pairKind pair calls ↔ InOrder [] calls :=
  closes_safely_iff pair_allOpen _

/-- **A close that raises**: the socket is closed, then the dialer. -/
theorem close_after_socket_raises :
    ¬ ∀ calls : List (Call Bool), ClosesSafely pairKind pair calls := by
  intro hclaim
  have h := (hclaim [⟨.socket, .close, .eclosed⟩, ⟨.child true, .close, .enoent⟩]).goesWell.2.1.1
  exact absurd h (by decide)

end Endpoint

end PyNng
