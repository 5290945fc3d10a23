import PyNng.Endpoint.Model
/-!
# Endpoint — what a failed `add_dialer` or `add_listener` leaves

The endpoint is nng's before its options are set, and the handle that owns
it is destroyed when an option raises. The destructor is the default one:
the endpoint stays open, and no object refers to it.

`failed_add_unchanged_iff` says which failed calls leave the socket alone.
-/

namespace PyNng

namespace Endpoint

variable {destroy : Destructor} {kind : Kind} {s : Socket} {env : Env s kind}
variable {url : Except Err String} {options : List (Opt × Arg Value)} {id : ℕ} {e : Err}

/-- The endpoint nng creates in the call, if the call gets so far. -/
def createdId (s : Socket) (env : Env s kind) (url : Except Err String) : Option ℕ :=
  if s.isOpen = false then none
  else match url with
  | .error _ => none
  | .ok b =>
    match env.create b with
    | .fails _ _ => none
    | .opens id _ _ => some id

/-- What is raised once the endpoint is there. -/
def laterRaise (env : Env s kind) (id : ℕ) (options : List (Opt × Arg Value)) : Option Err :=
  match applyOptions (env.set id) options with
  | some e => some e
  | none => env.createRaises

/-- nng's endpoints and the lists of the socket are the same. -/
def Unchanged (s s' : Socket) : Prop := s'.nng = s.nng ∧ s'.objects = s.objects

/-! ## The three ways a call goes -/

theorem createdId_fresh (h : createdId s env url = some id) : id ≠ 0 ∧ s.nng kind id = false := by
  unfold createdId at h
  split at h
  · simp at h
  · split at h
    · simp at h
    · split at h
      · simp at h
      · rename_i pos fresh _
        obtain rfl := Option.some.inj h
        exact ⟨pos, fresh⟩

/-- The assignment of the temporary closes nothing. -/
theorem assignMade_eq (hempty : ∀ nng, destroy Handle.empty nng = nng) (nng : Nng) :
    assignMade destroy kind id nng = (⟨id⟩, nng) := by
  unfold assignMade
  rw [Handle.assign_empty]
  exact congrArg _ (hempty nng)

/-- **Nothing was created**: the call raises, and has done nothing. -/
theorem add_of_not_created (hempty : ∀ nng, destroy Handle.empty nng = nng)
    (h : createdId s env url = none) (options : List (Opt × Arg Value)) :
    ∃ e, add destroy kind s env url options = ⟨s, some e⟩ := by
  unfold createdId at h
  unfold add
  split at h
  · rename_i hclosed
    rw [if_pos hclosed]
    exact ⟨.closed, rfl⟩
  · rename_i hopen
    rw [if_neg hopen]
    cases url with
    | error e => exact ⟨e, rfl⟩
    | ok b =>
      simp only at h ⊢
      cases hcreate : env.create b with
      | fails rv error =>
        have hmade : assignMade destroy kind 0 s.nng = (Handle.empty, s.nng) :=
          assignMade_eq hempty s.nng
        refine ⟨.nng rv, ?_⟩
        simp only [hmade, hempty]
      | opens id' pos fresh =>
        rw [hcreate] at h
        simp at h

/-- The moves into the object close nothing, and leave the local empty. -/
theorem createObject_eq (hempty : ∀ nng, destroy Handle.empty nng = nng) (dh : Handle) (nng : Nng) :
    createObject destroy kind dh nng = (dh, Handle.empty, nng) := by
  unfold createObject
  simp only [Handle.moved, Handle.assign_empty, hempty]

/-- The call once the endpoint is created. -/
theorem add_of_created (hempty : ∀ nng, destroy Handle.empty nng = nng)
    (h : createdId s env url = some id) :
    add destroy kind s env url options =
      match laterRaise env id options with
      | some e => ⟨{ s with nng := destroy ⟨id⟩ (s.nng.set kind id true) }, some e⟩
      | none =>
        ⟨{ s with
            nng := s.nng.set kind id true
            objects := Function.update s.objects kind (s.objects kind ++ [⟨id⟩]) }, none⟩ := by
  unfold createdId at h
  unfold add
  split at h
  · simp at h
  · rename_i hopen
    rw [if_neg hopen]
    cases url with
    | error e => simp at h
    | ok b =>
      simp only at h ⊢
      cases hcreate : env.create b with
      | fails rv error =>
        rw [hcreate] at h
        simp at h
      | opens id' pos fresh =>
        rw [hcreate] at h
        obtain rfl := Option.some.inj h
        simp only [assignMade_eq hempty, laterRaise]
        cases applyOptions (env.set id') options with
        | some e => rfl
        | none =>
          cases env.createRaises with
          | some e => simp only [Handle.moved, hempty]
          | none => simp only [createObject_eq hempty, hempty]

/-! ## With the default destructor -/

/-- **A call that raises leaves the socket unchanged where nothing had been
created**, and there only. -/
theorem default_add_unchanged_iff
    (h : (add defaultDestructor kind s env url options).raised ≠ none) :
    Unchanged s (add defaultDestructor kind s env url options).sock ↔
      createdId s env url = none := by
  have hempty : ∀ nng, defaultDestructor Handle.empty nng = nng := fun _ => rfl
  constructor
  · intro hsame
    cases hcreated : createdId s env url with
    | none => rfl
    | some id =>
      exfalso
      obtain ⟨hpos, hfresh⟩ := createdId_fresh hcreated
      rw [add_of_created hempty hcreated] at h hsame
      cases hlater : laterRaise env id options with
      | some e =>
        rw [hlater] at hsame
        -- the endpoint is still open
        have hset : (s.nng.set kind id true) kind id = s.nng kind id := by
          rw [show s.nng.set kind id true = s.nng from hsame.1]
        rw [set_self, hfresh] at hset
        exact Bool.noConfusion hset
      | none =>
        rw [hlater] at h
        exact h rfl
  · intro hcreated
    obtain ⟨e, he⟩ := add_of_not_created hempty hcreated options
    rw [he]
    exact ⟨rfl, rfl⟩

/-- **When a failed call leaves the socket unchanged.** Whatever the socket,
the URL, the options and nng's answers, `add_dialer` or `add_listener` that
raises leaves nng's endpoints and the two lists as they were exactly when
the endpoint had not been created: the socket was closed, the URL could not
be encoded, or nng refused the creation. -/
theorem failed_add_unchanged_iff (s : Socket) (url : Except Err String) :
    (∀ (env : Env s .dialer) (o : DialerOptions), (addDialer s env url o).raised ≠ none →
      (Unchanged s (addDialer s env url o).sock ↔ createdId s env url = none)) ∧
    (∀ (env : Env s .listener) (o : ListenerOptions), (addListener s env url o).raised ≠ none →
      (Unchanged s (addListener s env url o).sock ↔ createdId s env url = none)) :=
  ⟨fun _ _ => default_add_unchanged_iff, fun _ _ => default_add_unchanged_iff⟩

/-- A socket without endpoints. -/
def fresh : Socket where
  isOpen := true
  nng := fun _ _ => false
  objects := fun _ => []

/-- nng creates the endpoint 1 and sets every option; no address is one. -/
def willing (kind : Kind) : Env fresh kind where
  create := fun _ => .opens 1 (by decide) rfl
  set := fun _ _ _ => 0
  inetPton := fun _ _ => none
  createRaises := none

/-- Two failed calls: the dialer stays open after a bad `tcp_local_addr`, and
nothing changes where the URL is no string. -/
theorem failed_add_unchanged_iff_both :
    (Unchanged fresh (addDialer fresh (willing .dialer) (.ok "tcp://127.0.0.1:9")
        { tcpLocalAddr := some (.ok "nowhere") }).sock ↔
      createdId fresh (willing .dialer) (.ok "tcp://127.0.0.1:9") = none) ∧
    (Unchanged fresh (addListener fresh (willing .listener) (.error .typeError) {}).sock ↔
      createdId fresh (willing .listener) (.error .typeError) = none) :=
  ⟨(failed_add_unchanged_iff fresh (.ok "tcp://127.0.0.1:9")).1 (willing .dialer)
      { tcpLocalAddr := some (.ok "nowhere") } (by decide),
    (failed_add_unchanged_iff fresh (.error .typeError)).2 (willing .listener) {} (by decide)⟩

/-- **A dialer nobody has.** `tcp_local_addr` is no address: the call raises,
and the dialer stays open in nng. -/
theorem dialer_left_open :
    ¬ ∀ (s : Socket) (env : Env s .dialer) (url : Except Err String) (o : DialerOptions),
        (addDialer s env url o).raised ≠ none → Unchanged s (addDialer s env url o).sock := by
  intro hclaim
  have h := hclaim fresh (willing .dialer) (.ok "tcp://127.0.0.1:9")
    { tcpLocalAddr := some (.ok "nowhere") } (by decide)
  exact absurd (congrFun (congrFun h.1 .dialer) 1) (by decide)

end Endpoint

end PyNng
