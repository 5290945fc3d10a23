import PyNng.Socket.Announce
import PyNng.Socket.Status
/-!
# Socket — what a status callback observes

`handle_status_change` commits a transition under `_pipe_mutex` and returns
the callback, which `update_pipes` calls after it has released the mutex.
The callback has no argument; it reads `Pipe.status`, which nng's threads,
`Pipe.close` and `Socket.close` may have moved since the status was read
for the commit.

A callback that is called while the status is still the one it is for
observes that one, and the next transition of the pipe is a later one.
Where the status has moved, it observes the next transition too early, and
the callback of that transition observes it a second time.
-/

namespace PyNng

namespace Socket

variable {σ : Type} {cfg : Config σ} {s s' : State σ}

/-! ## Who has a callback to call -/

/-- The callbacks a call of `update_pipes` is going to call. -/
def Call.pending (call : Call) : List Due := if call.pc.running then call.due else []

/-- Who may have a status callback to call: a call of `update_pipes`, or a
user thread in `Pipe.close`. -/
inductive Hand
  | call (t : ℕ)
  | user (n : ℕ)
  deriving DecidableEq, Repr

/-- The callbacks a thread is going to call. -/
def State.pending (s : State σ) : Hand → List Due
  | .call t => (s.calls t).pending
  | .user n => s.userDue n

theorem pending_setCall {t : ℕ} {call : Call} (h : Hand) :
    (State.setCall t call s).pending h = if h = .call t then call.pending else s.pending h := by
  cases h with
  | user n => rfl
  | call u =>
    by_cases hut : u = t
    · subst hut; simp [State.pending, State.setCall]
    · simp [State.pending, State.setCall, hut]

theorem pending_setUserDue {n : ℕ} {due : List Due} (h : Hand) :
    (State.setUserDue n due s).pending h = if h = .user n then due else s.pending h := by
  cases h with
  | call t => rfl
  | user m =>
    by_cases hmn : m = n
    · subst hmn; simp [State.pending, State.setUserDue]
    · simp [State.pending, State.setUserDue, hmn]

theorem pending_of_same (hcalls : s'.calls = s.calls) (huser : s'.userDue = s.userDue) (h : Hand) :
    s'.pending h = s.pending h := by
  cases h with
  | call t => simp [State.pending, hcalls]
  | user n => simp [State.pending, huser]

theorem Call.pending_of_running {call : Call} (h : call.pc.running = true) :
    call.pending = call.due :=
  if_pos h

theorem Call.pending_of_not_running {call : Call} (h : call.pc.running = false) :
    call.pending = [] :=
  if_neg (by simp [h])

theorem Call.pending_of_due_nil {call : Call} (h : call.due = []) : call.pending = [] := by
  unfold Call.pending
  rw [h, ite_self]

/-- The steps that commit a transition or call a status callback. -/
def Act.tells : Act → Bool
  | .closePipe .. | .pipeCallback _ | .read _ | .status .. | .close _ => true
  | _ => false

/-- No transition is committed and no status callback called. -/
structure Silent (s s' : State σ) : Prop where
  pending : ∀ h, s'.pending h = s.pending h
  commits : s'.commits = s.commits
  invoked : s'.invoked = s.invoked

theorem Silent.of_same (hcalls : s'.calls = s.calls) (huser : s'.userDue = s.userDue)
    (hcommits : s'.commits = s.commits) (hinvoked : s'.invoked = s.invoked) : Silent s s' :=
  ⟨pending_of_same hcalls huser, hcommits, hinvoked⟩

theorem Silent.setCall {t : ℕ} {call : Call} (hcalls : s'.calls = s.calls)
    (huser : s'.userDue = s.userDue) (hcommits : s'.commits = s.commits)
    (hinvoked : s'.invoked = s.invoked) (hcall : call.pending = (s.calls t).pending) :
    Silent s (State.setCall t call s') := by
  refine ⟨fun h => ?_, hcommits, hinvoked⟩
  rw [pending_setCall]
  split
  · rename_i hh
    rw [hh, hcall]
    rfl
  · exact pending_of_same hcalls huser h

/-- **Every other step is silent.** -/
theorem silent_next (cfg : Config σ) {a : Act} (hen : Enabled s a) (ha : a.tells = false) :
    Silent s (next cfg s a) := by
  have hrest : ∀ {t : ℕ} {call : Call}, (s.calls t).pc.running = false → call.pc.running = false →
      call.pending = (s.calls t).pending := fun hpc hpc' => by
    rw [Call.pending_of_not_running hpc, Call.pending_of_not_running hpc']
  cases a with
  | event p ev => simp only [next]; split <;> exact .of_same rfl rfl rfl rfl
  | enter t =>
    refine .setCall rfl rfl rfl rfl (hrest ?_ rfl)
    rcases CanEnter.resting hen with hpc | hpc | hpc <;> rw [hpc] <;> rfl
  | acquire t => exact .setCall rfl rfl rfl rfl (hrest (by rw [hen.1]; rfl) rfl)
  | check t =>
    have hpc : (s.calls t).pc = .checking := hen
    simp only [next]
    split <;> exact .setCall rfl rfl rfl rfl (hrest (by rw [hpc]; rfl) rfl)
  | snapshot t =>
    have hpc : (s.calls t).pc = .snapshotting := hen
    exact .setCall rfl rfl rfl rfl (hrest (by rw [hpc]; rfl) rfl)
  | create t =>
    simp only [next]
    split
    · exact .of_same rfl rfl rfl rfl
    · exact .setCall rfl rfl rfl rfl (hrest (by rw [hen.1]; rfl) (by simp [hen.1, CallPc.running]))
  | assign t =>
    refine .setCall rfl rfl rfl rfl ?_
    rw [@Call.pending_of_not_running (s.calls t) (by rw [hen.1]; rfl)]
    rfl
  | sample t => exact .setCall rfl rfl rfl rfl rfl
  | unlock t =>
    refine .setCall rfl rfl rfl rfl ?_
    rw [@Call.pending_of_running (s.calls t) (by rw [hen.1]; rfl)]
    rfl
  | hook t =>
    simp only [next]
    split
    · refine .setCall rfl rfl rfl rfl ?_
      rw [@Call.pending_of_running (s.calls t) (by rw [hen.1]; rfl)]
      rfl
    · exact .setCall rfl rfl rfl rfl rfl
  | hookDone t =>
    refine .setCall rfl rfl rfl rfl ?_
    rw [@Call.pending_of_running (s.calls t) (by rw [hen.1]; rfl)]
    rfl
  | announce t o =>
    -- the status callbacks are through by now
    refine .setCall rfl rfl rfl rfl ?_
    rw [Call.pending_of_due_nil hen.2.1, Call.pending_of_due_nil (by exact hen.2.1)]
  | ret t =>
    refine .setCall rfl rfl rfl rfl ?_
    rw [Call.pending_of_due_nil hen.2.1, Call.pending_of_due_nil (by exact hen.2.1)]
  | closePipe | pipeCallback | read | status | close => cases ha
  | _ => exact .of_same rfl rfl rfl rfl

/-- A transition is committed, and the callback it returns is left with the thread. -/
structure Commits (s s' : State σ) (h : Hand) (x : Pipe) (new : PipeEv) : Prop where
  mine : s'.pending h = s.pending h ++ s.dueOf x new
  others : ∀ h', h' ≠ h → s'.pending h' = s.pending h'
  objs : s'.objs = (s.commit x new).objs
  coll : s'.coll = s.coll
  commits : s'.commits = (s.commit x new).commits
  invoked : s'.invoked = s.invoked

/-- A thread calls the first of its callbacks. -/
structure Invokes (s s' : State σ) (h : Hand) (d : Due) (rest : List Due) : Prop where
  mine : s.pending h = d :: rest
  /-- An exception that ends the call drops the others. -/
  left : s'.pending h = rest ∨ s'.pending h = []
  others : ∀ h', h' ≠ h → s'.pending h' = s.pending h'
  objs : s'.objs = s.objs
  coll : s'.coll = s.coll
  commits : s'.commits = s.commits
  invoked : s'.invoked = s.invoked ++ [⟨d.pipe, d.announced, s.pipeStatus d.pipe⟩]

theorem mem_dueOf_iff {x : Pipe} {new : PipeEv} {d : Due} :
    d ∈ s.dueOf x new ↔
      d = ⟨x, new⟩ ∧ (s.objs x.obj).Moves new ∧ (s.objs x.obj).callback = true := by
  rw [← PipeFields.due_handleStatusChange]
  unfold State.dueOf
  split <;> simp_all

/-- What is to be called after a commit was before, or is what it returned. -/
theorem Commits.mem_pending {h h' : Hand} {x : Pipe} {new : PipeEv} {d : Due}
    (hc : Commits s s' h x new) (hd : d ∈ s'.pending h') :
    d ∈ s.pending h' ∨
      h' = h ∧ d = ⟨x, new⟩ ∧ (s.objs x.obj).Moves new ∧ (s.objs x.obj).callback = true := by
  by_cases hh : h' = h
  · rw [hh, hc.mine] at hd
    rcases List.mem_append.mp hd with hd | hd
    · exact Or.inl (hh ▸ hd)
    · exact Or.inr ⟨hh, mem_dueOf_iff.mp hd⟩
  · rw [hc.others h' hh] at hd
    exact Or.inl hd

theorem Invokes.sublist {h : Hand} {d : Due} {rest : List Due} (hi : Invokes s s' h d rest)
    (h' : Hand) : (s'.pending h').Sublist (s.pending h') := by
  by_cases hh : h' = h
  · rw [hh, hi.mine]
    rcases hi.left with hl | hl <;> rw [hl]
    · exact List.sublist_cons_self ..
    · exact List.nil_sublist _
  · rw [hi.others h' hh]

theorem commits_closePipe {n : ℕ} {x : Pipe} (hidle : s.userDue n = []) :
    Commits s (next cfg s (.closePipe n x)) (.user n) x .remPost := by
  refine ⟨?_, fun h' hh => ?_, rfl, rfl, rfl, rfl⟩
  · simp only [next]
    rw [pending_setUserDue, if_pos rfl]
    simp [State.pending, hidle]
  · simp only [next]
    rw [pending_setUserDue, if_neg hh]
    exact pending_of_same rfl rfl h'

theorem commits_read {t : ℕ} {x : Pipe} {xs : List Pipe} {ev : PipeEv}
    (hpc : (s.calls t).pc = .reading) (htodo : (s.calls t).todo = x :: xs)
    (hev : (s.calls t).sampled = some ev) :
    Commits s (next cfg s (.read t)) (.call t) x ev := by
  have hrun : (s.calls t).pc.running = true := by rw [hpc]; rfl
  simp only [next, htodo, hev]
  refine ⟨?_, fun h' hh => ?_, rfl, rfl, rfl, rfl⟩
  · rw [pending_setCall, if_pos rfl]
    simp [State.pending, Call.pending, hrun]
  · rw [pending_setCall, if_neg hh]
    exact pending_of_same rfl rfl h'

theorem invokes_pipeCallback {n : ℕ} {d : Due} {rest : List Due} (hdue : s.userDue n = d :: rest) :
    Invokes s (next cfg s (.pipeCallback n)) (.user n) d rest := by
  refine ⟨hdue, Or.inl ?_, fun h' hh => ?_, rfl, rfl, rfl, ?_⟩
  · simp only [next]
    rw [pending_setUserDue, if_pos rfl, hdue]
    rfl
  · simp only [next]
    rw [pending_setUserDue, if_neg hh]
    exact pending_of_same rfl rfl h'
  · simp [next, State.setUserDue, State.invoke, hdue]

theorem invokes_status {t : ℕ} {o : PyOutcome} {d : Due} {rest : List Due}
    (hpc : (s.calls t).pc = .calling) (hdue : (s.calls t).due = d :: rest) :
    Invokes s (next cfg s (.status t o)) (.call t) d rest ∧
      (o ≠ .raisesBase → (next cfg s (.status t o)).pending (.call t) = rest) := by
  have hrun : (s.calls t).pc.running = true := by rw [hpc]; rfl
  have hmine : (next cfg s (.status t o)).pending (.call t) =
      if o = .raisesBase then [] else rest := by
    simp only [next]
    rw [pending_setCall, if_pos rfl]
    cases o <;> simp [Call.pending, CallPc.running, hdue]
  refine ⟨⟨?_, ?_, fun h' hh => ?_, rfl, rfl, rfl, ?_⟩, fun ho => by rw [hmine, if_neg ho]⟩
  · exact (Call.pending_of_running hrun).trans hdue
  · rw [hmine]
    split
    · exact Or.inr rfl
    · exact Or.inl rfl
  · simp only [next]
    rw [pending_setCall, if_neg hh]
    exact pending_of_same rfl rfl h'
  · simp [next, State.setCall, State.invoke, hdue]

theorem Known.mem_pending (hk : Known s) {h : Hand} {d : Due} (hd : d ∈ s.pending h) :
    d.pipe ∈ s.made := by
  cases h with
  | user n => exact hk.due n d hd
  | call t =>
    simp only [State.pending, Call.pending] at hd
    split at hd
    · exact hk.mem_due hd
    · exact absurd hd List.not_mem_nil

/-- A run of `close` discards the callback that its commit returns. -/
structure Discards (s s' : State σ) (x : Pipe) (new : PipeEv) : Prop where
  pending : ∀ h, s'.pending h = s.pending h
  objs : s'.objs = (s.commit x new).objs
  commits : s'.commits = (s.commit x new).commits
  invoked : s'.invoked = s.invoked

theorem pending_closeStep (c : Closer) (h : Hand) :
    (closeStep s c).pending h = s.pending h ∧ (closeStep s c).invoked = s.invoked := by
  have hs := sparesCalls_closeStep s c
  exact ⟨pending_of_same hs.calls hs.userDue h, hs.invoked⟩

theorem told_closeStep (c : Closer) :
    Silent s (closeStep s c) ∧ (closeStep s c).objs = s.objs ∨
      ∃ x xs ev, (s.closing c).pc = .closed ∧ (s.closing c).pipes = x :: xs ∧
        (s.closing c).sampled = some ev ∧ Discards s (closeStep s c) x ev := by
  have hpend := fun h => (@pending_closeStep _ s c h).1
  have hinv := (@pending_closeStep _ s c (.user 0)).2
  by_cases hclosed : ∃ x xs ev, (s.closing c).pc = .closed ∧ (s.closing c).pipes = x :: xs ∧
      (s.closing c).sampled = some ev
  · obtain ⟨x, xs, ev, hpc, hxs, hev⟩ := hclosed
    refine Or.inr ⟨x, xs, ev, hpc, hxs, hev, hpend, ?_, ?_, hinv⟩ <;>
    · simp only [closeStep, hpc, hxs, hev]
      rfl
  · have hsame : (closeStep s c).commits = s.commits ∧ (closeStep s c).objs = s.objs := by
      refine ⟨?_, ?_⟩ <;>
      · cases hpc : (s.closing c).pc <;> simp only [closeStep, hpc]
        case locked => split <;> rfl
        case closed =>
          split
          · rfl
          · rfl
          · rename_i x xs ev hxs hev
            exact absurd ⟨x, xs, ev, hpc, hxs, hev⟩ hclosed
        all_goals rfl
    exact Or.inl ⟨⟨hpend, hsame.1, hinv⟩, hsame.2⟩

/-- **What a step tells**: nothing, or a transition is committed, or a
callback called. -/
theorem told_next (cfg : Config σ) (hp : Paced s) {a : Act} (hen : Enabled s a) :
    Silent s (next cfg s a) ∨ (∃ h x new, Commits s (next cfg s a) h x new) ∨
      (∃ h d rest, Invokes s (next cfg s a) h d rest) ∨
      ∃ x new, Discards s (next cfg s a) x new := by
  cases a with
  | closePipe n x => exact Or.inr (Or.inl ⟨_, _, _, commits_closePipe hen.2⟩)
  | pipeCallback n =>
    obtain ⟨d, rest, hdue⟩ := List.exists_cons_of_ne_nil hen
    exact Or.inr (Or.inr (Or.inl ⟨_, _, _, invokes_pipeCallback hdue⟩))
  | status t o =>
    obtain ⟨d, rest, hdue⟩ := List.exists_cons_of_ne_nil hen.2
    exact Or.inr (Or.inr (Or.inl ⟨_, _, _, (invokes_status hen.1 hdue).1⟩))
  | read t =>
    obtain ⟨ev, hev⟩ := Option.ne_none_iff_exists'.mp hen.2
    obtain ⟨-, x, xs, htodo, -⟩ := hp.sampled t ev hev
    exact Or.inr (Or.inl ⟨_, _, _, commits_read hen.1 htodo hev⟩)
  | close c =>
    rcases @told_closeStep _ s c with ⟨hs, -⟩ | ⟨x, -, ev, -, -, -, hd⟩
    · exact Or.inl hs
    · exact Or.inr (Or.inr (Or.inr ⟨x, ev, hd⟩))
  | _ => exact Or.inl (silent_next cfg hen rfl)

theorem mem_commits_commit {x : Pipe} {new : PipeEv} {c : Commit} :
    c ∈ (s.commit x new).commits ↔ c ∈ s.commits ∨ (s.objs x.obj).Moves new ∧
      c = ⟨x, new, ((s.objs x.obj).handleStatusChange new).2⟩ := by
  unfold State.commit
  rw [List.mem_append]
  by_cases hm : (s.objs x.obj).Moves new <;> simp [hm]

/-- **What is to be called was committed.** -/
theorem committed_of_pending (hr : (socket cfg).Reach s) :
    ∀ h, ∀ d ∈ s.pending h, (⟨d.pipe, d.announced, true⟩ : Commit) ∈ s.commits := by
  induction hr with
  | init => intro h d hd; cases h <;> exact absurd hd List.not_mem_nil
  | @step s a hr _ hen ih =>
    intro h d hd
    have hd : d ∈ (next cfg s a).pending h := hd
    show (⟨d.pipe, d.announced, true⟩ : Commit) ∈ (next cfg s a).commits
    rcases told_next cfg (paced_of_reach hr) hen with
      hs | ⟨h', x, new, hc⟩ | ⟨h', d', rest, hi⟩ | ⟨x, new, hdis⟩
    · rw [hs.commits]
      exact ih h d (hs.pending h ▸ hd)
    · rw [hc.commits, mem_commits_commit]
      rcases hc.mem_pending hd with hd | ⟨-, rfl, hmoves, hcb⟩
      · exact Or.inl (ih h d hd)
      · have hdue := PipeFields.due_handleStatusChange.mpr ⟨hmoves, hcb⟩
        exact Or.inr ⟨hmoves, by rw [hdue]⟩
    · rw [hi.commits]
      exact ih h d ((hi.sublist h).subset hd)
    · rw [hdis.commits, mem_commits_commit]
      exact Or.inl (ih h d (hdis.pending h ▸ hd))

/-! ## What keeps a callback attentive -/

/-- **The status holds still**: no step moves the status of a pipe that has a
callback to be called, and a transition with a callback is committed while
the status is still the one that was read. -/
structure Steady (cfg : Config σ) (s : State σ) (a : Act) : Prop where
  still : ∀ h, ∀ d ∈ s.pending h, (next cfg s a).pipeStatus d.pipe = s.pipeStatus d.pipe
  fresh : ∀ t x xs ev, a = .read t → (s.calls t).todo = x :: xs → (s.calls t).sampled = some ev →
    s.dueOf x ev ≠ [] → s.pipeStatus x = ev

/-- **Every callback is attentive.** Each one to be called is for the status
its pipe has, it is the only one of its pipe, and those called before it
were for earlier ones. -/
structure Attentive (s : State σ) : Prop where
  current : ∀ h, ∀ d ∈ s.pending h, d.announced = s.pipeStatus d.pipe
  known : ∀ h, ∀ d ∈ s.pending h, d.announced.rank ≤ (s.objs d.pipe.obj).lastKnown.rank
  nodup : ∀ h, ((s.pending h).map Due.pipe).Nodup
  apart : ∀ h h', h ≠ h' → ∀ d ∈ s.pending h, ∀ d' ∈ s.pending h', d.pipe ≠ d'.pipe
  heard : ∀ i ∈ s.invoked, i.observed = i.announced
  behind : ∀ i ∈ s.invoked,
    i.pipe ∈ s.made ∧ i.announced.rank ≤ (s.objs i.pipe.obj).lastKnown.rank
  ahead : ∀ i ∈ s.invoked, ∀ h, ∀ d ∈ s.pending h, i.pipe = d.pipe →
    i.announced.rank < d.announced.rank
  order : s.invoked.Pairwise fun i j => i.pipe = j.pipe → i.announced.rank < j.announced.rank

namespace Attentive

theorem of_same (ha : Attentive s) (hk : Known s) (hpending : ∀ h, s'.pending h = s.pending h)
    (hinvoked : s'.invoked = s.invoked) (hadv : Advances s s')
    (hstill : ∀ h, ∀ d ∈ s.pending h, s'.pipeStatus d.pipe = s.pipeStatus d.pipe) :
    Attentive s' where
  current := fun h d hd => by
    rw [hpending] at hd
    rw [hstill h d hd]
    exact ha.current h d hd
  known := fun h d hd => by
    rw [hpending] at hd
    exact Nat.le_trans (ha.known h d hd) (hadv.known _ (hk.mem_pending hd))
  nodup := fun h => by rw [hpending]; exact ha.nodup h
  apart := fun h h' => by rw [hpending, hpending]; exact ha.apart h h'
  heard := by rw [hinvoked]; exact ha.heard
  behind := fun i hi => by
    rw [hinvoked] at hi
    obtain ⟨hm, hle⟩ := ha.behind i hi
    exact ⟨hadv.made _ hm, Nat.le_trans hle (hadv.known _ hm)⟩
  ahead := fun i hi h => by
    rw [hinvoked] at hi
    rw [hpending]
    exact ha.ahead i hi h
  order := by rw [hinvoked]; exact ha.order

/-- **A transition is committed** while the status is the one committed:
whatever was to be called of the pipe was for that status, and what was
committed is a later one, so nothing was. -/
theorem commits (ha : Attentive s) (hk : Known s) {h : Hand} {x : Pipe} {new : PipeEv}
    (hc : Commits s s' h x new) (hb : (s.objs x.obj).lastKnown.Behind new)
    (hadv : Advances s s')
    (hstill : ∀ h, ∀ d ∈ s.pending h, s'.pipeStatus d.pipe = s.pipeStatus d.pipe)
    (hnew : s.dueOf x new ≠ [] → s'.pipeStatus x = new) : Attentive s' := by
  have hfree : s.dueOf x new ≠ [] → ∀ h', ∀ d ∈ s.pending h', d.pipe ≠ x := by
    intro hdue h' d hd hdx
    obtain ⟨d', hd'⟩ := List.exists_mem_of_ne_nil _ hdue
    have hlt := (mem_dueOf_iff.mp hd').2.1.lt hb
    have hle := ha.known h' d hd
    rw [ha.current h' d hd, ← hstill h' d hd, hdx, hnew hdue] at hle
    omega
  have hcases : ∀ h' d, d ∈ s'.pending h' → d ∈ s.pending h' ∨
      h' = h ∧ d = ⟨x, new⟩ ∧ s.dueOf x new ≠ [] ∧ (s.objs x.obj).Moves new := by
    intro h' d hd
    rcases hc.mem_pending hd with hd | ⟨hh, hdx, hmoves, hcb⟩
    · exact Or.inl hd
    · exact Or.inr ⟨hh, hdx, List.ne_nil_of_mem (mem_dueOf_iff.mpr ⟨hdx, hmoves, hcb⟩), hmoves⟩
  have hself : (s.objs x.obj).Moves new → (s'.objs x.obj).lastKnown = new := fun hmoves => by
    rw [hc.objs, objs_commit_self, PipeFields.lastKnown_handleStatusChange, if_pos hmoves]
  refine ⟨fun h' d hd => ?_, fun h' d hd => ?_, fun h' => ?_, fun h' h'' hne d hd d' hd' hdd => ?_,
    by rw [hc.invoked]; exact ha.heard, fun i hi => ?_, fun i hi h' d hd hid => ?_,
    by rw [hc.invoked]; exact ha.order⟩
  · rcases hcases h' d hd with hd | ⟨-, rfl, hdue, -⟩
    · rw [hstill h' d hd]; exact ha.current h' d hd
    · exact (hnew hdue).symm
  · rcases hcases h' d hd with hd | ⟨-, rfl, -, hmoves⟩
    · exact Nat.le_trans (ha.known h' d hd) (hadv.known _ (hk.mem_pending hd))
    · exact Nat.le_of_eq (by rw [hself hmoves])
  · by_cases hh : h' = h
    · rw [hh, hc.mine, List.map_append]
      by_cases hdue : s.dueOf x new = []
      · rw [hdue, List.map_nil, List.append_nil]
        exact ha.nodup h
      · have hone : (s.dueOf x new).map Due.pipe = [x] := by
          unfold State.dueOf at hdue ⊢
          split <;> simp_all
        rw [hone]
        refine List.nodup_append.mpr ⟨ha.nodup h, by simp, fun y hy z hz hyz => ?_⟩
        obtain ⟨d, hd, rfl⟩ := List.mem_map.mp hy
        exact hfree hdue h d hd (hyz.trans (List.mem_singleton.mp hz))
    · rw [hc.others h' hh]; exact ha.nodup h'
  · rcases hcases h' d hd with hd | ⟨hh, rfl, hdue, -⟩
    · rcases hcases h'' d' hd' with hd' | ⟨-, rfl, hdue, -⟩
      · exact ha.apart h' h'' hne d hd d' hd' hdd
      · exact hfree hdue h' d hd hdd
    · rcases hcases h'' d' hd' with hd' | ⟨hh', -⟩
      · exact hfree hdue h'' d' hd' hdd.symm
      · exact hne (hh.trans hh'.symm)
  · rw [hc.invoked] at hi
    obtain ⟨hm, hle⟩ := ha.behind i hi
    exact ⟨hadv.made _ hm, Nat.le_trans hle (hadv.known _ hm)⟩
  · rw [hc.invoked] at hi
    rcases hcases h' d hd with hd | ⟨-, rfl, -, hmoves⟩
    · exact ha.ahead i hi h' d hd hid
    · have hle := (ha.behind i hi).2
      rw [hid] at hle
      exact Nat.lt_of_le_of_lt hle (hmoves.lt hb)

/-- **A callback is called**, the only one of its pipe. -/
theorem invokes (ha : Attentive s) (hk : Known s) {h : Hand} {d : Due} {rest : List Due}
    (hi : Invokes s s' h d rest) (hmade : s'.made = s.made) : Attentive s' := by
  have hd : d ∈ s.pending h := by rw [hi.mine]; exact List.mem_cons_self
  have hstatus : ∀ x, s'.pipeStatus x = s.pipeStatus x := fun x => by
    unfold State.pipeStatus
    rw [hi.objs, hi.coll]
  have hsub := hi.sublist
  have halone : ∀ h', ∀ d' ∈ s'.pending h', d.pipe ≠ d'.pipe := by
    intro h' d' hd'
    by_cases hh : h' = h
    · have hnd := ha.nodup h
      rw [hi.mine, List.map_cons, List.nodup_cons] at hnd
      have hrest : d' ∈ rest := by
        rw [hh] at hd'
        rcases hi.left with hl | hl <;> rw [hl] at hd'
        · exact hd'
        · exact absurd hd' List.not_mem_nil
      intro hdd
      exact hnd.1 (hdd ▸ List.mem_map_of_mem hrest)
    · exact ha.apart h h' (Ne.symm hh) d hd d' ((hsub h').subset hd')
  have hinv : ∀ i ∈ s'.invoked, i ∈ s.invoked ∨
      i = ⟨d.pipe, d.announced, s.pipeStatus d.pipe⟩ := fun i hm => by
    rw [hi.invoked] at hm
    exact (List.mem_append.mp hm).imp_right List.mem_singleton.mp
  refine ⟨fun h' d' hd' => ?_, fun h' d' hd' => ?_, fun h' => ?_,
    fun h' h'' hne d' hd' d'' hd'' => ?_, fun i hm => ?_, fun i hm => ?_,
    fun i hm h' d' hd' hid => ?_, ?_⟩
  · rw [hstatus]; exact ha.current h' d' ((hsub h').subset hd')
  · rw [hi.objs]; exact ha.known h' d' ((hsub h').subset hd')
  · exact (ha.nodup h').sublist ((hsub h').map _)
  · exact ha.apart h' h'' hne d' ((hsub h').subset hd') d'' ((hsub h'').subset hd'')
  · rcases hinv i hm with hm | rfl
    · exact ha.heard i hm
    · exact (ha.current h d hd).symm
  · rw [hmade, hi.objs]
    rcases hinv i hm with hm | rfl
    · exact ha.behind i hm
    · exact ⟨hk.mem_pending hd, ha.known h d hd⟩
  · rcases hinv i hm with hm | rfl
    · exact ha.ahead i hm h' d' ((hsub h').subset hd') hid
    · exact absurd hid (halone h' d' hd')
  · rw [hi.invoked]
    refine List.pairwise_append.mpr ⟨ha.order, List.pairwise_singleton _ _, fun i hm j hj hij => ?_⟩
    rw [List.mem_singleton.mp hj] at hij ⊢
    exact ha.ahead i hm h d hd hij

/-- **Each step keeps the callbacks attentive**, as long as the status holds
still. -/
theorem next (ha : Attentive s) (hk : Known s) (hp : Paced s) {a : Act} (hok : Steady cfg s a)
    (hen : Enabled s a) : Attentive (Socket.next cfg s a) := by
  have hadv : Advances s (Socket.next cfg s a) := Advances.next hk hp hen
  cases a with
  | closePipe n x =>
    refine ha.commits hk (commits_closePipe hen.2) (Or.inr (PipeEv.rank_le _)) hadv hok.still
      fun hdue => ?_
    obtain ⟨d, hd⟩ := List.exists_mem_of_ne_nil _ hdue
    have hmoves := (mem_dueOf_iff.mp hd).2.1
    have hknown : ((Socket.next cfg s (.closePipe n x)).objs x.obj).lastKnown = .remPost := by
      show ((s.commit x .remPost).objs x.obj).lastKnown = _
      rw [objs_commit_self, PipeFields.lastKnown_handleStatusChange, if_pos hmoves]
    rw [State.pipeStatus, if_pos hknown]
  | pipeCallback n =>
    cases hdue : s.userDue n with
    | nil => exact absurd hdue hen
    | cons d rest => exact ha.invokes hk (invokes_pipeCallback hdue) rfl
  | status t o =>
    cases hdue : (s.calls t).due with
    | nil => exact absurd hdue hen.2
    | cons d rest => exact ha.invokes hk (invokes_status hen.1 hdue).1 rfl
  | read t =>
    obtain ⟨ev, hev⟩ := Option.ne_none_iff_exists'.mp hen.2
    obtain ⟨-, x, xs, htodo, -, hb⟩ := hp.sampled t ev hev
    have hc : Commits s (Socket.next cfg s (.read t)) (.call t) x ev := commits_read hen.1 htodo hev
    refine ha.commits hk hc hb hadv hok.still fun hdue => ?_
    have hfresh := hok.fresh t x xs ev rfl htodo hev hdue
    obtain ⟨d, hd⟩ := List.exists_mem_of_ne_nil _ hdue
    have hmoves := (mem_dueOf_iff.mp hd).2.1
    rw [State.pipeStatus, if_neg hmoves.2] at hfresh
    rw [State.pipeStatus, hc.objs, hc.coll, objs_commit_self,
      PipeFields.lastKnown_handleStatusChange, if_pos hmoves, hfresh]
    split
    · rename_i hrem
      exact hrem.symm
    · rfl
  | close c =>
    exact ha.of_same hk (fun h => (pending_closeStep c h).1) (pending_closeStep c (.user 0)).2 hadv
      hok.still
  | _ =>
    have hs : Silent s _ := silent_next cfg hen rfl
    exact ha.of_same hk hs.pending hs.invoked hadv hok.still

end Attentive

theorem attentive_of_reachWhen (h : (socket cfg).ReachWhen (Steady cfg) s) : Attentive s := by
  refine h.invariant ?_ fun _ _ hr hs hok hen =>
    hs.next (known_of_reach hr.reach) (paced_of_reach hr.reach) hok hen
  have hnone : ∀ h, (socket cfg).init.pending h = [] := fun h => by cases h <;> rfl
  refine ⟨fun h d hd => ?_, fun h d hd => ?_, fun h => ?_, fun h h' _ d hd => ?_,
    fun _ hi => absurd hi List.not_mem_nil, fun _ hi => absurd hi List.not_mem_nil,
    fun _ hi => absurd hi List.not_mem_nil, List.Pairwise.nil⟩
  · rw [hnone] at hd; exact absurd hd List.not_mem_nil
  · rw [hnone] at hd; exact absurd hd List.not_mem_nil
  · rw [hnone]; exact List.nodup_nil
  · rw [hnone] at hd; exact absurd hd List.not_mem_nil

/-! ## What the callbacks observe -/

/-- The calls of a pipe's status callback. -/
def State.callsOf (s : State σ) (x : Pipe) : List Invocation := s.invoked.filter (·.pipe = x)

/-- **Each status callback observes the transition it announces.** -/
structure Observes (s : State σ) : Prop where
  announced : ∀ i ∈ s.invoked, i.observed = i.announced
  /-- Successive calls observe later and later statuses. -/
  increasing : ∀ x, (s.callsOf x).Pairwise fun i j => i.observed.rank < j.observed.rank
  /-- One call at most observes `REMOVED`. -/
  removedOnce : ∀ x, ((s.callsOf x).filter (·.observed = .remPost)).length ≤ 1

theorem observes_of_attentive (ha : Attentive s) : Observes s := by
  have hpair : ∀ x, (s.callsOf x).Pairwise fun i j => i.observed.rank < j.observed.rank := by
    intro x
    refine (ha.order.filter _).imp_of_mem fun {i j} hi hj hij => ?_
    obtain ⟨hi, hix⟩ := List.mem_filter.mp hi
    obtain ⟨hj, hjx⟩ := List.mem_filter.mp hj
    rw [ha.heard i hi, ha.heard j hj]
    exact hij ((of_decide_eq_true hix).trans (of_decide_eq_true hjx).symm)
  refine ⟨ha.heard, hpair, fun x => ?_⟩
  refine @length_le_of_increasing _ _ _ 3 4 ((hpair x).filter _) (fun i hi => ?_) fun i hi => ?_
  all_goals
    rw [of_decide_eq_true (List.mem_filter.mp hi).2]
    simp

/-- **Callbacks observe what they announce** along every run in which the
status of a pipe holds still from the moment it is read for a transition
until the transition's callback has been called. -/
theorem callbacks_observe (cfg : Config σ) (h : (socket cfg).ReachWhen (Steady cfg) s) :
    Observes s :=
  observes_of_attentive (attentive_of_reachWhen h)

/-! ## A callback in time, and one too late -/

/-- Steps that are steady at a glance: the status does not depend on what
they change, or no callback has been returned yet. -/
def SteadyAtSight (s : State σ) : Act → Bool
  | .unlock _ | .status .. => true
  | .read t =>
    s.commits.all (fun c => !c.callback) &&
      ((s.calls t).todo.all fun x => decide ((s.calls t).sampled = some (s.pipeStatus x)))
  | _ => s.commits.all fun c => !c.callback

theorem steady_at_sight (hr : (socket cfg).Reach s) {a : Act} (h : SteadyAtSight s a = true) :
    Steady cfg s a := by
  have hnone : (s.commits.all fun c => !c.callback) = true → ∀ hd, s.pending hd = [] := by
    intro hall hd
    by_contra hne
    obtain ⟨d, hd⟩ := List.exists_mem_of_ne_nil _ hne
    have hcb := List.all_eq_true.mp hall _ (committed_of_pending hr _ d hd)
    cases hcb
  have hquiet : (s.commits.all fun c => !c.callback) = true → ∀ hd, ∀ d ∈ s.pending hd,
      (next cfg s a).pipeStatus d.pipe = s.pipeStatus d.pipe := fun hall hd d hm => by
    rw [hnone hall hd] at hm
    cases hm
  cases a with
  | unlock t => exact ⟨fun _ _ _ => rfl, fun _ _ _ _ ha => by cases ha⟩
  | status t o => exact ⟨fun _ _ _ => rfl, fun _ _ _ _ ha => by cases ha⟩
  | read t =>
    obtain ⟨hall, hfresh⟩ := Bool.and_eq_true_iff.mp h
    refine ⟨hquiet hall, fun u x xs ev ha htodo hev _ => ?_⟩
    obtain rfl : t = u := Act.read.inj ha
    have hx := List.all_eq_true.mp hfresh x (by rw [htodo]; exact List.mem_cons_self)
    rw [decide_eq_true_eq, hev] at hx
    exact (Option.some.inj hx).symm
  | _ => exact ⟨hquiet h, fun _ _ _ _ ha => by cases ha⟩

/-- `ACTIVE` is announced while the pipe is active. -/
theorem callbacks_observe_active :
    Observes ((socket plainListener).final (socket plainListener).init
      (seenAdding ++ committedActive ++ [.status 0 .returns])) := by
  have hv : (socket plainListener).Valid (socket plainListener).init
      (seenAdding ++ committedActive ++ [.status 0 .returns]) := by decide
  refine callbacks_observe plainListener (Machine.reachWhen_final hv ?_)
  have hsight : (socket plainListener).Meets (fun s a => SteadyAtSight s a = true)
      (socket plainListener).init (seenAdding ++ committedActive ++ [.status 0 .returns]) := by
    decide
  exact hsight.of_reach (fun _ _ hr h => steady_at_sight hr h) .init hv

/-- **`REMOVED` is observed twice.** The pipe goes between the commit of
`ACTIVE` and the call of its callback: that call observes `REMOVED`, and so
does the one that announces it. -/
theorem removed_observed_twice :
    ¬ (∀ s, (socket plainListener).Reach s → Observes s) := by
  intro hclaim
  have ho := hclaim ((socket plainListener).final (socket plainListener).init
    (seenAdding ++ committedActive ++
      [.event 1 .remPost, .push, .status 0 .returns, .ret 0, .enter 0, .acquire 0, .check 0,
        .snapshot 0, .assign 0, .sample 0, .read 0, .unlock 0, .status 0 .returns]))
    (Machine.reach_final (by decide))
  have honce := ho.removedOnce firstMade
  revert honce
  decide

end Socket

end PyNng
