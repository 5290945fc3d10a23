import PyNng.Attribution.Model
import PyNng.Socket.Present
/-!
# Attribution — a `Pipe` refers to the endpoint nng made it for

A handle carries what nng said of its pipe when the pipe came, and keeps it
(`Genuine`). The endpoint was in the list by then: a pipe comes after its
endpoint was opened, and the id is given once. So the one loop of
`_create_pipe` finds that endpoint, or none where it was closed in between;
and what `Listener.pipes` lists for an open endpoint are the pipes nng made
for it, no more and no fewer.
-/

namespace PyNng

namespace Socket

variable {σ : Type} {cfg : Config σ} {s s' : State σ}

/-! ## What a handle says of its pipe -/

/-- The handle has what nng says of a pipe that has come. -/
def Came (cfg : Config σ) (stage : ℕ → Stage) (h : PipeHandle) : Prop :=
  h.nng = cfg.nng h.id ∧ stage h.id ≠ .unborn

/-- **Every handle is of a pipe that has come.** -/
structure Genuine (cfg : Config σ) (s : State σ) : Prop where
  coll : ∀ h ∈ s.coll.pipes, Came cfg s.stage h
  handles : ∀ t, ∀ h ∈ (s.calls t).handles, Came cfg s.stage h
  made : ∀ x ∈ s.made, Came cfg s.stage x.handle

namespace Genuine

/-- A step that brings in no handle. -/
theorem of_subset (h : Genuine cfg s) (hstage : s'.stage = s.stage)
    (hcoll : ∀ x ∈ s'.coll.pipes, x ∈ s.coll.pipes)
    (hcalls : ∀ t, ∀ x ∈ (s'.calls t).handles, x ∈ (s.calls t).handles)
    (hmade : s'.made = s.made) : Genuine cfg s' := by
  refine ⟨fun x hx => ?_, fun t x hx => ?_, fun x hx => ?_⟩
  · rw [hstage]
    exact h.coll x (hcoll x hx)
  · rw [hstage]
    exact h.handles t x (hcalls t x hx)
  · rw [hstage]
    rw [hmade] at hx
    exact h.made x hx

/-- A step of a call that gets no handle it had not. -/
theorem setCall (h : Genuine cfg s) {t : ℕ} {call : Call} (hstage : s'.stage = s.stage)
    (hcoll : ∀ x ∈ s'.coll.pipes, x ∈ s.coll.pipes) (hcalls : s'.calls = s.calls)
    (hmade : s'.made = s.made) (hcall : ∀ x ∈ call.handles, Came cfg s.stage x) :
    Genuine cfg (State.setCall t call s') := by
  have h' : Genuine cfg s' := h.of_subset hstage hcoll (fun _ _ hx => by rwa [hcalls] at hx) hmade
  have hcall' : ∀ x ∈ call.handles, Came cfg s'.stage x := by rwa [hstage]
  exact ⟨h'.coll, forall_setCall (P := fun c : Call => ∀ x ∈ c.handles, Came cfg s'.stage x) hcall'
    h'.handles, h'.made⟩

theorem event (h : Genuine cfg s) {p : ℕ} {ev : PipeEv} (hen : Delivers s p ev) :
    Genuine cfg (Socket.next cfg s (.event p ev)) := by
  have hborn : ∀ x : PipeHandle, Came cfg s.stage x →
      Came cfg (Socket.next cfg s (.event p ev)).stage x := by
    intro x hx
    refine ⟨hx.1, ?_⟩
    rw [stage_event]
    exact born_event hen x.id hx.2
  have hcalls : (Socket.next cfg s (.event p ev)).calls = s.calls := by
    rw [Socket.next]
    split <;> rfl
  have hmade : (Socket.next cfg s (.event p ev)).made = s.made := by
    rw [Socket.next]
    split <;> rfl
  refine ⟨fun x hx => ?_, fun t x hx => ?_, fun x hx => ?_⟩
  · by_cases hnotify : s.notify ev = true
    · rw [next_event_of_notify hnotify] at hx
      rcases PipeCollection.handleEvent_handles s.coll (cfg.nng p) p ev with
        hs | ⟨-, hs⟩ | ⟨y, -, hs⟩ | ⟨-, hs⟩
      · exact hborn x (h.coll x (hs.pipes ▸ hx))
      · rcases List.mem_append.mp (hs.pipes ▸ hx : x ∈ (s.coll.add p (cfg.nng p) ev).pipes)
          with hx | hx
        · exact hborn x (h.coll x hx)
        · obtain rfl := List.mem_singleton.mp hx
          refine ⟨rfl, ?_⟩
          rw [stage_event, Function.update_self]
          exact stageAfter_ne_unborn hen
      · exact hborn x (h.coll x (hs.pipes ▸ hx))
      · have hx' : x ∈ (s.coll.remove p).pipes := hs.pipes ▸ hx
        rw [PipeCollection.pipes_remove] at hx'
        exact hborn x (h.coll x (List.mem_of_mem_eraseP hx'))
    · rw [next_event_of_not_notify (Bool.eq_false_iff.mpr hnotify)] at hx
      exact hborn x (h.coll x hx)
  · rw [hcalls] at hx
    exact hborn x (h.handles t x hx)
  · rw [hmade] at hx
    exact hborn x.handle (h.made x hx)

theorem create (h : Genuine cfg s) (t : ℕ) : Genuine cfg (Socket.next cfg s (.create t)) := by
  cases hh : (s.calls t).handles with
  | nil =>
    rw [Socket.next, hh]
    exact h
  | cons y ys =>
    rw [Socket.next, hh]
    have hall := h.handles t
    rw [hh] at hall
    have hmade : Genuine cfg { s with made := s.made ++ [⟨s.created, y⟩] } := by
      refine ⟨h.coll, h.handles, fun x hx => ?_⟩
      rcases List.mem_append.mp hx with hx | hx
      · exact h.made x hx
      · rw [List.mem_singleton.mp hx]
        exact hall y List.mem_cons_self
    exact hmade.setCall rfl (fun _ hx => hx) rfl rfl fun x hx => hall x (List.mem_cons_of_mem _ hx)

theorem closeStep (h : Genuine cfg s) (c : Closer) : Genuine cfg (closeStep s c) := by
  have hspares := sparesCalls_closeStep s c
  refine h.of_subset ?_ (fun x hx => ?_) (fun t x hx => by rwa [hspares.calls] at hx) hspares.made
  · exact (nothingIn_closeStep c).stage
  · cases hpc : (s.closing c).pc <;> simp only [Socket.closeStep, hpc] at hx
    case locked =>
      split at hx <;> exact hx
    case closed =>
      split at hx <;> exact hx
    case pipesCleared => exact absurd hx List.not_mem_nil
    all_goals exact hx

theorem next (h : Genuine cfg s) {a : Act} (hen : Enabled s a) :
    Genuine cfg (Socket.next cfg s a) := by
  have hsame : ∀ t, ∀ x ∈ (s.calls t).handles, Came cfg s.stage x := h.handles
  cases a with
  | event p ev => exact h.event hen
  | create t => exact h.create t
  | close c => exact h.closeStep c
  | enter t =>
    exact h.setCall rfl (fun _ hx => hx) rfl rfl fun x hx => absurd hx List.not_mem_nil
  | check t =>
    rw [Socket.next]
    split
    · refine h.setCall rfl (fun x hx => ?_) rfl rfl (hsame t)
      have hpipes : s.coll.hadEvents.2.pipes = s.coll.pipes := by
        unfold PipeCollection.hadEvents
        split <;> rfl
      exact hpipes ▸ hx
    · exact h.setCall rfl (fun _ hx => hx) rfl rfl (hsame t)
  | snapshot t =>
    refine h.setCall rfl (fun _ hx => hx) rfl rfl fun x hx => ?_
    exact h.coll x ((greedyMatch_subset Pipe.id PipeHandle.id s.pipes s.coll.getPipes).2 x hx)
  | acquire t | assign t | sample t | unlock t | status t o | announce t o | ret t =>
    exact h.setCall rfl (fun _ hx => hx) rfl rfl (hsame t)
  | hookDone t => exact h.setCall rfl (fun _ hx => hx) rfl rfl (hsame t)
  | hook t =>
    rw [Socket.next]
    split <;> exact h.setCall rfl (fun _ hx => hx) rfl rfl (hsame t)
  | read t =>
    rw [Socket.next]
    split
    · exact h.setCall rfl (fun _ hx => hx) rfl rfl (hsame t)
    · exact h
  | _ => exact h.of_subset rfl (fun _ hx => hx) (fun _ _ hx => hx) rfl

end Genuine

theorem genuine_of_reach (hs : (socket cfg).Reach s) : Genuine cfg s := by
  induction hs with
  | init =>
    exact ⟨fun _ hx => absurd hx List.not_mem_nil, fun _ _ hx => absurd hx List.not_mem_nil,
      fun _ hx => absurd hx List.not_mem_nil⟩
  | step _ _ hen ih => exact ih.next hen

end Socket

namespace Attribution

/-! ## A list of endpoints -/

/-- **The list**: an id is given once, and kept until the endpoint is closed. -/
structure Listed (es : List Endpoint) : Prop where
  distinct : ∀ (i j : ℕ) (e e' : Endpoint), es[i]? = some e → es[j]? = some e' →
    e.given = e'.given → i = j
  handle : ∀ e ∈ es, e.given ≠ 0 ∧ (e.handle = ⟨e.given⟩ ∨ e.handle = Handle.empty)

/-- What a `Pipe` refers to: the endpoint with the id, which is found if it is
open. -/
def Attributed (es : List Endpoint) (id : ℕ) (o : Option ℕ) : Prop :=
  (∀ i, o = some i → ∃ e : Endpoint, es[i]? = some e ∧ e.given = id) ∧
    ∀ (i : ℕ) (e : Endpoint), es[i]? = some e → e.handle.isOpen = true → e.given = id → o = some i

variable {es : List Endpoint} {e : Endpoint} {id new i : ℕ} {o : Option ℕ}

theorem Listed.id_of_isOpen (h : Listed es) (he : e ∈ es) (hopen : e.handle.isOpen = true) :
    e.handle.id = e.given := by
  rcases (h.handle e he).2 with hid | hid
  · rw [hid]
  · rw [hid] at hopen
    cases hopen

theorem Listed.given_of_id (h : Listed es) (he : e ∈ es) (hid : e.handle.id = id) (hne : id ≠ 0) :
    e.given = id := by
  rcases (h.handle e he).2 with hgiven | hempty
  · rw [hgiven] at hid
    exact hid
  · rw [hempty] at hid
    exact absurd hid.symm hne

/-- An endpoint of the longer list is the new one or was there. -/
theorem getElem?_concat {e' : Endpoint} (h : (es ++ [e'])[i]? = some e) :
    es[i]? = some e ∨ i = es.length ∧ e = e' := by
  rcases Nat.lt_or_ge i es.length with hlt | hge
  · rw [List.getElem?_append_left hlt] at h
    exact .inl h
  · rw [List.getElem?_append_right hge] at h
    rw [List.getElem?_singleton] at h
    split at h
    · exact .inr ⟨by omega, (Option.some.inj h).symm⟩
    · cases h

theorem getElem?_append_of_some {es' : List Endpoint} (h : es[i]? = some e) :
    (es ++ es')[i]? = some e := by
  rw [List.getElem?_append_left (List.getElem?_eq_some_iff.mp h).1, h]

/-- An endpoint of the list in which one is closed. -/
theorem getElem?_close {j : ℕ} (h : (es.modify j Endpoint.closed)[i]? = some e) :
    ∃ e', es[i]? = some e' ∧ e.given = e'.given ∧ (e = e' ∨ e.handle = Handle.empty) := by
  rw [List.getElem?_modify] at h
  obtain ⟨e', he', rfl⟩ := Option.map_eq_some_iff.mp h
  refine ⟨e', he', ?_⟩
  split
  · exact ⟨rfl, .inr rfl⟩
  · exact ⟨rfl, .inl rfl⟩

theorem getElem?_close_of_some (j : ℕ) (h : es[i]? = some e) :
    ∃ e', (es.modify j Endpoint.closed)[i]? = some e' ∧ e'.given = e.given := by
  rw [List.getElem?_modify, h]
  refine ⟨_, rfl, ?_⟩
  split <;> rfl

theorem Listed.concat (h : Listed es) (hne : new ≠ 0) (hfresh : ∀ e ∈ es, e.given ≠ new) :
    Listed (es ++ [⟨new, ⟨new⟩⟩]) := by
  refine ⟨fun i j e e' hi hj hgiven => ?_, fun e he => ?_⟩
  · rcases getElem?_concat hi with hi' | ⟨rfl, rfl⟩ <;>
      rcases getElem?_concat hj with hj' | ⟨rfl, rfl⟩
    · exact h.distinct i j e e' hi' hj' hgiven
    · exact absurd hgiven (hfresh e (List.mem_of_getElem? hi'))
    · exact absurd hgiven.symm (hfresh e' (List.mem_of_getElem? hj'))
    · rfl
  · rcases List.mem_append.mp he with he | he
    · exact h.handle e he
    · rw [List.mem_singleton.mp he]
      exact ⟨hne, .inl rfl⟩

theorem Listed.close (h : Listed es) (j : ℕ) : Listed (es.modify j Endpoint.closed) := by
  refine ⟨fun i k e e' hi hk hgiven => ?_, fun e he => ?_⟩
  · obtain ⟨d, hd, hdg, -⟩ := getElem?_close hi
    obtain ⟨d', hd', hdg', -⟩ := getElem?_close hk
    exact h.distinct i k d d' hd hd' (by rw [← hdg, ← hdg', hgiven])
  · obtain ⟨i, hi⟩ := List.mem_iff_getElem?.mp he
    obtain ⟨d, hd, hgiven, hor⟩ := getElem?_close hi
    have hlisted := h.handle d (List.mem_of_getElem? hd)
    rcases hor with rfl | hempty
    · exact hlisted
    · exact ⟨hgiven ▸ hlisted.1, .inr hempty⟩

/-- **The loop finds the endpoint**, if it is open. -/
theorem Listed.attributed_find (h : Listed es) :
    Attributed es id (if id ≠ 0 then es.findIdx? fun e => e.handle.id = id else none) := by
  have hsound : ∀ i, (es.findIdx? fun e => e.handle.id = id) = some i → id ≠ 0 →
      ∃ e, es[i]? = some e ∧ e.given = id := by
    intro i hi hne
    obtain ⟨hlt, hid, -⟩ := List.findIdx?_eq_some_iff_getElem.mp hi
    exact ⟨es[i], List.getElem?_eq_getElem hlt,
      h.given_of_id (List.getElem_mem hlt) (of_decide_eq_true hid) hne⟩
  refine ⟨fun i hi => ?_, fun i e he hopen hgiven => ?_⟩
  · split at hi
    · rename_i hne
      exact hsound i hi hne
    · cases hi
  · have hmem := List.mem_of_getElem? he
    have hne : id ≠ 0 := hgiven ▸ (h.handle e hmem).1
    rw [if_pos hne]
    cases hfind : es.findIdx? fun e => e.handle.id = id with
    | none =>
      have hno := List.findIdx?_eq_none_iff.mp hfind e hmem
      exact absurd ((h.id_of_isOpen hmem hopen).trans hgiven) (of_decide_eq_false hno)
    | some j =>
      -- another one with the id would have been given it too
      obtain ⟨e', he', hgiven'⟩ := hsound j hfind hne
      rw [h.distinct j i e' e he' he (hgiven'.trans hgiven.symm)]

/-- An endpoint that is added later is not a pipe's that has come. -/
theorem Attributed.concat (h : Attributed es id o) (hknown : id = 0 ∨ ∃ e ∈ es, e.given = id)
    (hne : new ≠ 0) (hfresh : ∀ e ∈ es, e.given ≠ new) :
    Attributed (es ++ [⟨new, ⟨new⟩⟩]) id o := by
  refine ⟨fun i hi => ?_, fun i e he hopen hgiven => ?_⟩
  · obtain ⟨e, he, hgiven⟩ := h.1 i hi
    exact ⟨e, getElem?_append_of_some he, hgiven⟩
  · rcases getElem?_concat he with he | ⟨rfl, rfl⟩
    · exact h.2 i e he hopen hgiven
    · rcases hknown with rfl | ⟨e, hmem, hid⟩
      · exact absurd hgiven hne
      · exact absurd (hid.trans hgiven.symm) (hfresh e hmem)

theorem Attributed.close (h : Attributed es id o) (j : ℕ) :
    Attributed (es.modify j Endpoint.closed) id o := by
  refine ⟨fun i hi => ?_, fun i e he hopen hgiven => ?_⟩
  · obtain ⟨e, he, hgiven⟩ := h.1 i hi
    obtain ⟨e', he', hsame⟩ := getElem?_close_of_some j he
    exact ⟨e', he', hsame.trans hgiven⟩
  · obtain ⟨d, hd, -, rfl | hempty⟩ := getElem?_close he
    · exact h.2 i e hd hopen hgiven
    · rw [hempty] at hopen
      cases hopen

/-! ## The machine -/

variable {σ : Type} {cfg : Socket.Config σ} {s : State σ} {side : Side}

/-- What a step is to the socket. -/
def Act.label : Act → List Socket.Act
  | .socket a => [a]
  | .add .. | .close .. => []

/-- Its runs are runs of the socket. -/
theorem refines_socket (cfg : Socket.Config σ) :
    Machine.Refines (attribution cfg) (Socket.socket cfg) State.sock fun _ a => a.label := by
  refine ⟨rfl, fun s a _ hen => ?_, fun s a _ _ => ?_⟩
  · cases a with
    | socket a => exact ⟨hen.1, trivial⟩
    | add side id => exact trivial
    | close side i => exact trivial
  · cases a <;> rfl

/-- **The invariant.** -/
structure Owned (cfg : Socket.Config σ) (s : State σ) : Prop where
  listed : ∀ side, Listed (s.endpoints side)
  opened : ∀ p, s.sock.stage p ≠ .unborn → ∀ side, s.Opened (cfg.nng p) side
  owner : ∀ x ∈ s.sock.made, ∀ side,
    Attributed (s.endpoints side) (side.of x.handle.nng) (s.owner x.obj side)

theorem State.MayCome.opened {p : ℕ} (h : s.MayCome cfg (.event p .addPre)) (side : Side) :
    s.Opened (cfg.nng p) side := by
  cases side with
  | dialer => exact h.1
  | listener => exact h.2

/-- A pipe comes after its endpoint. -/
theorem Owned.opened_next (h : Owned cfg s) {a : Socket.Act} (hen : Socket.Enabled s.sock a)
    (hmay : s.MayCome cfg a) (p : ℕ) (hp : (Socket.next cfg s.sock a).stage p ≠ .unborn)
    (side : Side) : s.Opened (cfg.nng p) side := by
  by_cases hborn : s.sock.stage p = .unborn
  · by_cases ha : ∃ q ev, a = .event q ev
    · obtain ⟨q, ev, rfl⟩ := ha
      rw [Socket.stage_event] at hp
      by_cases hpq : p = q
      · subst hpq
        cases ev with
        | none => exact False.elim hen
        | addPre => exact hmay.opened side
        | addPost => exact absurd (hborn.symm.trans hen) Socket.Stage.noConfusion
        | remPost =>
          rcases hen with hst | hst | hst <;>
            exact absurd (hborn.symm.trans hst) Socket.Stage.noConfusion
      · rw [Function.update_of_ne hpq] at hp
        exact absurd hborn hp
    · rw [Socket.stage_next cfg fun q ev hev => ha ⟨q, ev, hev⟩] at hp
      exact absurd hborn hp
  · exact h.opened p hborn side

/-- **`_create_pipe`.** The new `Pipe` refers to what the loops find, the others
to what they did. -/
theorem Owned.owner_create (h : Owned cfg s) (hk : Socket.Known s.sock) (t : ℕ) :
    ∀ x ∈ (Socket.next cfg s.sock (.create t)).made, ∀ side,
      Attributed (s.endpoints side) (side.of x.handle.nng)
        (s.ownerAfter (.create t) x.obj side) := by
  intro x hx side
  cases hh : (s.sock.calls t).handles with
  | nil =>
    rw [Socket.next, hh] at hx
    rw [State.ownerAfter, hh]
    exact h.owner x hx side
  | cons y ys =>
    rw [Socket.next, hh] at hx
    rw [State.ownerAfter, hh]
    dsimp only
    rcases List.mem_append.mp hx with hx | hx
    · rw [Function.update_of_ne (Nat.ne_of_lt (hk.below x hx))]
      exact h.owner x hx side
    · rw [List.mem_singleton.mp hx, Function.update_self]
      exact (h.listed side).attributed_find

theorem State.ownerAfter_of_ne {a : Socket.Act} (ha : ∀ t, a ≠ .create t) :
    s.ownerAfter a = s.owner := by
  cases a with
  | create t => exact absurd rfl (ha t)
  | _ => rfl

theorem Owned.socket (h : Owned cfg s) (hr : (Socket.socket cfg).Reach s.sock) {a : Socket.Act}
    (hen : Socket.Enabled s.sock a) (hmay : s.MayCome cfg a) :
    Owned cfg (next cfg s (.socket a)) := by
  refine ⟨h.listed, h.opened_next hen hmay, ?_⟩
  by_cases ha : ∃ t, a = .create t
  · obtain ⟨t, rfl⟩ := ha
    exact h.owner_create (Socket.known_of_reach hr) t
  · have hne : ∀ t, a ≠ .create t := fun t ht => ha ⟨t, ht⟩
    intro x hx side
    rw [show (next cfg s (.socket a)).sock.made = s.sock.made from
      Socket.made_next cfg hne] at hx
    show Attributed (s.endpoints side) _ (s.ownerAfter a x.obj side)
    rw [State.ownerAfter_of_ne hne]
    exact h.owner x hx side

/-- A change of one list that keeps what holds of it. -/
theorem Owned.setEndpoints (h : Owned cfg s) {es : List Endpoint} (hlisted : Listed es)
    (hopened : ∀ e ∈ s.endpoints side, ∃ e' ∈ es, e'.given = e.given)
    (howner : ∀ x ∈ s.sock.made, Attributed es (side.of x.handle.nng) (s.owner x.obj side)) :
    Owned cfg { s with endpoints := Function.update s.endpoints side es } := by
  refine ⟨fun u => ?_, fun p hp u => ?_, fun x hx u => ?_⟩
  · by_cases hu : u = side
    · subst hu
      show Listed (Function.update s.endpoints u es u)
      rwa [Function.update_self]
    · show Listed (Function.update s.endpoints side es u)
      rw [Function.update_of_ne hu]
      exact h.listed u
  · refine (h.opened p hp u).imp_right fun ⟨e, he, hgiven⟩ => ?_
    show ∃ e ∈ Function.update s.endpoints side es u, _
    by_cases hu : u = side
    · subst hu
      rw [Function.update_self]
      obtain ⟨e', he', hsame⟩ := hopened e he
      exact ⟨e', he', hsame.trans hgiven⟩
    · rw [Function.update_of_ne hu]
      exact ⟨e, he, hgiven⟩
  · show Attributed (Function.update s.endpoints side es u) _ _
    by_cases hu : u = side
    · subst hu
      rw [Function.update_self]
      exact howner x hx
    · rw [Function.update_of_ne hu]
      exact h.owner x hx u

/-- **One step.** -/
theorem Owned.next (h : Owned cfg s) (hr : (Socket.socket cfg).Reach s.sock) {a : Act}
    (hen : Enabled cfg s a) : Owned cfg (Attribution.next cfg s a) := by
  cases a with
  | socket a => exact h.socket hr hen.1 hen.2
  | add side id =>
    refine h.setEndpoints ((h.listed side).concat hen.1 hen.2)
      (fun e he => ⟨e, List.mem_append_left _ he, rfl⟩) fun x hx => ?_
    have hcame := (Socket.genuine_of_reach hr).made x hx
    have hknown := h.opened x.handle.id hcame.2 side
    rw [← hcame.1] at hknown
    exact (h.owner x hx side).concat hknown hen.1 hen.2
  | close side i =>
    refine h.setEndpoints ((h.listed side).close i) (fun e he => ?_) fun x hx =>
      (h.owner x hx side).close i
    obtain ⟨j, hj⟩ := List.mem_iff_getElem?.mp he
    obtain ⟨e', he', hsame⟩ := getElem?_close_of_some i hj
    exact ⟨e', List.mem_of_getElem? he', hsame⟩

theorem owned_of_reach (hs : (attribution cfg).Reach s) : Owned cfg s := by
  induction hs with
  | init =>
    refine ⟨fun _ => ⟨fun i j e e' hi => ?_, fun _ he => absurd he List.not_mem_nil⟩,
      fun p hp => absurd rfl hp, fun _ hx => absurd hx List.not_mem_nil⟩
    exact absurd (List.mem_of_getElem? hi) List.not_mem_nil
  | step hs _ hen ih => exact ih.next ((refines_socket cfg).reach hs) hen

/-! ## What the properties say -/

/-- Of an open endpoint: a `Pipe` of the socket refers to it when nng made the
pipe for it. -/
theorem owner_eq_iff (hs : (attribution cfg).Reach s) (he : (s.endpoints side)[i]? = some e)
    (hopen : e.handle.isOpen = true) {x : Pipe} (hx : x ∈ s.sock.pipes) :
    s.owner x.obj side = some i ↔ side.of (cfg.nng x.id) = e.given := by
  have hr := (refines_socket cfg).reach hs
  have h := owned_of_reach hs
  have hmade := (Socket.known_of_reach hr).pipes x hx
  obtain ⟨hsound, hcomplete⟩ := h.owner x hmade side
  have hnng : x.handle.nng = cfg.nng x.id := ((Socket.genuine_of_reach hr).made x hmade).1
  rw [hnng] at hsound hcomplete
  constructor
  · intro ho
    obtain ⟨e', he', hgiven⟩ := hsound i ho
    rw [he] at he'
    rw [Option.some.inj he', hgiven]
  · intro hgiven
    exact hcomplete i e he hopen hgiven.symm

/-- **`Listener.pipes` lists the pipes nng made for the listener**, and the same
is true of a dialer: of an open endpoint they are those of `Socket.pipes`
whose endpoint in nng it is, in their order, and none of them twice.
`Dialer.pipe` is the first of them. -/
theorem pipesOf_exact (hs : (attribution cfg).Reach s) (he : (s.endpoints side)[i]? = some e)
    (hopen : e.handle.isOpen = true) :
    s.pipesOf side i = s.sock.pipes.filter (fun x => side.of (cfg.nng x.id) = e.given) ∧
      ((s.pipesOf side i).map Pipe.id).Nodup ∧
      s.pipeOf side i = (s.pipesOf side i).head? := by
  have hnodup : (s.sock.pipes.map Pipe.id).Nodup := by
    have h := (Socket.shadowed_of_reach ((refines_socket cfg).reach hs)).list.nodup
    rwa [List.map_map] at h
  refine ⟨List.filter_congr fun x hx => ?_, hnodup.sublist (List.filter_sublist.map _),
    List.head?_filter.symm⟩
  exact decide_eq_decide.mpr (owner_eq_iff hs he hopen hx)

/-- Every pipe is a dialer's, the first that nng opened. -/
def dialled : Socket.Config Unit where
  nng := fun _ => { peerAddr := .other 1, peerPid := -1, dialer := 5, listener := 0 }
  filter := none
  objects := ()
  onNewPipe := false
  closeOnDisconnect := false

/-- The dialer connects: its pipe is added and active. -/
def connected : List Act :=
  [.add .dialer 5, .add .listener 5, .socket (.event 1 .addPre), .socket .push,
    .socket (.event 1 .addPost), .socket .push]

/-- A call of `update_pipes`, from `_pipe_mutex` on. -/
def updated (t : ℕ) : List Act :=
  [.socket (.acquire t), .socket (.check t), .socket (.snapshot t), .socket (.create t),
    .socket (.assign t), .socket (.unlock t), .socket (.ret t)]

theorem pipesOf_exact_connected :
    let s := (attribution dialled).final (attribution dialled).init
      (connected ++ .socket (.enter 3) :: updated 3)
    (s.pipesOf .dialer 0).map Pipe.id = [1] ∧
      s.pipesOf .dialer 0 = s.sock.pipes.filter (fun x => Side.dialer.of (dialled.nng x.id) = 5) :=
  ⟨by decide, (pipesOf_exact (i := 0) (e := ⟨5, ⟨5⟩⟩)
    (Machine.reach_final (by decide)) (by decide) (by decide)).1⟩

/-! ## After a start -/

theorem since_enter (cfg : Socket.Config σ) (s : Socket.State σ) (t : ℕ) :
    ((Socket.next cfg s (.enter t)).calls t).since = s.log.length - 1 := by
  show (Function.update s.calls t _ t).since = _
  rw [Function.update_self]
  rfl

/-- Since the call of thread `t` began the pipe has been there, for the endpoint. -/
structure Awaited (s : State σ) (side : Side) (i given p t : ℕ) : Prop where
  arrived : Socket.Arrived s.sock p
  present : Socket.PresentSince s.sock p (s.sock.calls t).since
  given : ∃ e, (s.endpoints side)[i]? = some e ∧ e.given = given

/-- An endpoint keeps its place and its id. -/
theorem given_next (cfg : Socket.Config σ) {given : ℕ} (a : Act)
    (h : ∃ e, (s.endpoints side)[i]? = some e ∧ e.given = given) :
    ∃ e, ((next cfg s a).endpoints side)[i]? = some e ∧ e.given = given := by
  obtain ⟨e, he, rfl⟩ := h
  cases a with
  | socket a => exact ⟨e, he, rfl⟩
  | add u id =>
    show ∃ e', (Function.update s.endpoints u _ side)[i]? = some e' ∧ _
    by_cases hu : side = u
    · subst hu
      rw [Function.update_self]
      exact ⟨e, getElem?_append_of_some he, rfl⟩
    · rw [Function.update_of_ne hu]
      exact ⟨e, he, rfl⟩
  | close u j =>
    show ∃ e', (Function.update s.endpoints u _ side)[i]? = some e' ∧ _
    by_cases hu : side = u
    · subst hu
      rw [Function.update_self]
      exact getElem?_close_of_some j he
    · rw [Function.update_of_ne hu]
      exact ⟨e, he, rfl⟩

theorem Awaited.next {given p t : ℕ} (h : Awaited s side i given p t)
    (hs : (attribution cfg).Reach s) {a : Act} (hen : Enabled cfg s a)
    (ha : a ≠ .socket (.enter t)) : Awaited (Attribution.next cfg s a) side i given p t := by
  refine ⟨?_, ?_, given_next cfg a h.given⟩
  · cases a with
    | socket a => exact h.arrived.next hen.1
    | _ => exact h.arrived
  · cases a with
    | socket a =>
      show Socket.PresentSince (Socket.next cfg s.sock a) p
        ((Socket.next cfg s.sock a).calls t).since
      rw [Socket.since_next cfg fun he => ha (congrArg Act.socket he)]
      exact h.present.next ((refines_socket cfg).reach hs) h.arrived hen.1
    | _ => exact h.present

/-- **After a start that has connected the endpoint lists the pipe.** The pipe
had come when the thread called `update_pipes`; the call has returned; and
unless the pipe is removed by then, the endpoint closed or the socket being
closed, the pipe is among the endpoint's, and `Dialer.pipe` is not `None`. -/
theorem listed_of_started (hs : (attribution cfg).Reach s) {p t : ℕ}
    (harr : Socket.Arrived s.sock p) (he : (s.endpoints side)[i]? = some e)
    (hp : side.of (cfg.nng p) = e.given) {as : List Act}
    (hv : (attribution cfg).Valid s (.socket (.enter t) :: as))
    (honce : (attribution cfg).Meets (fun _ a => a ≠ .socket (.enter t))
      (next cfg s (.socket (.enter t))) as) {f : State σ}
    (hf : (attribution cfg).final s (.socket (.enter t) :: as) = f)
    (hret : (f.sock.calls t).pc = .returned) (hclose : f.sock.closeBegun = false)
    (hrem : f.sock.removed p = false)
    (hopen : ∃ e, (f.endpoints side)[i]? = some e ∧ e.handle.isOpen = true) :
    (∃ x ∈ f.pipesOf side i, x.id = p) ∧ f.pipeOf side i ≠ none := by
  have hr := (refines_socket cfg).reach hs
  have henter : (attribution cfg).Reach (next cfg s (.socket (.enter t))) := hs.step trivial hv.1
  have hstart : Awaited (next cfg s (.socket (.enter t))) side i e.given p t := by
    have harr' : Socket.Arrived (Socket.next cfg s.sock (.enter t)) p := harr.next hv.1.1
    refine ⟨harr', ?_, e, he, rfl⟩
    show Socket.PresentSince (Socket.next cfg s.sock (.enter t)) p
      ((Socket.next cfg s.sock (.enter t)).calls t).since
    rw [since_enter]
    exact (Socket.presentSince_last hr harr).next hr harr hv.1.1
  have hstep : ∀ u a, (attribution cfg).Reach u → Awaited u side i e.given p t →
      a ≠ .socket (.enter t) → (attribution cfg).Enabled u a →
      Awaited ((attribution cfg).next u a) side i e.given p t :=
    fun _ _ hu hinv ha hen => hinv.next hu hen ha
  have hend : Awaited f side i e.given p t := by
    rw [← hf, Machine.final_cons]
    exact Machine.Meets.invariant hstep henter hstart hv.2 honce
  have hreach : (attribution cfg).Reach f := by
    rw [← hf]
    exact hs.final hv (Machine.meets_true _ _)
  obtain ⟨x, hx, hxp, -⟩ := Socket.exists_listed ((refines_socket cfg).reach hreach) hclose
    hend.arrived hrem hret hend.present
  obtain ⟨e', he', hopen'⟩ := hopen
  obtain ⟨e'', he'', hgiven⟩ := hend.given
  obtain rfl : e' = e'' := Option.some.inj (he'.symm.trans he'')
  have howner : f.owner x.obj side = some i := by
    refine (owner_eq_iff hreach he' hopen' hx).mpr ?_
    rw [hxp, hp, hgiven]
  refine ⟨⟨x, List.mem_filter.mpr ⟨hx, decide_eq_true howner⟩, hxp⟩, fun hnone => ?_⟩
  exact List.find?_eq_none.mp hnone x hx (decide_eq_true howner)

theorem listed_of_started_connected :
    let s := (attribution dialled).final (attribution dialled).init connected
    let f := (attribution dialled).final s (.socket (.enter 3) :: updated 3)
    (∃ x ∈ f.pipesOf .dialer 0, x.id = 1) ∧ f.pipeOf .dialer 0 ≠ none :=
  listed_of_started (i := 0) (e := ⟨5, ⟨5⟩⟩) (t := 3)
    (Machine.reach_final (by decide)) (by decide) (by decide) (by decide) (by decide) (by decide)
    rfl (by decide) (by decide) (by decide) ⟨⟨5, ⟨5⟩⟩, by decide, by decide⟩

end Attribution

end PyNng
