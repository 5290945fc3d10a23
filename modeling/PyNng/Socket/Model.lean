import PyNng.Common.Evolve
import PyNng.Common.Machine
import PyNng.Pipe.Model
/-!
# Socket — pipe events, `update_pipes` and `close`

One socket under nng's pipe events, any number of threads in
`update_pipes`, and any number in `close`. The trampoline hands an event
to the collection and then pushes a sentinel; the dispatcher, call `0`,
runs `update_pipes` once for each sentinel; other calls come from
`Dialer.start`, `Listener.start`, `Socket.pipes` and the like. A call made
inside a callback is a call of its own.

`update_pipes` holds `_pipe_mutex` from before `had_events` until every
status is read, and calls user code after releasing it. `had_events`,
`get_pipes` and each `Pipe.create` are separate steps, and so are the two
halves of `handle_status_change`: the handle's status is read before
`_status_mutex` is taken, and committed under it. `close` is its own
sequence, run by a user thread or by the `close_on_disconnect` hook inside
a call of `update_pipes`.

Below the program's own fields the state keeps a history: the id sequences
the collection has had, what was announced, which pipes were let in, the
status transitions committed and the status callbacks called.
-/

namespace PyNng

/-- A Python `Pipe`: which object it is, and its handle. -/
structure Pipe where
  obj : ℕ
  handle : PipeHandle
  deriving DecidableEq, Repr

def Pipe.id (x : Pipe) : ℕ := x.handle.id

/-- What a `Pipe` object holds that changes. -/
structure PipeFields where
  /-- `_last_known_status`. -/
  lastKnown : PipeEv
  /-- Whether `on_status_change` is set. -/
  callback : Bool
  deriving DecidableEq, Repr

/-- `_handle_status_change_internal`: the fields afterwards, and whether a
callback is due. -/
def PipeFields.handleStatusChange (x : PipeFields) (new : PipeEv) : PipeFields × Bool :=
  if new ≠ x.lastKnown ∧ x.lastKnown ≠ .remPost then ({ x with lastKnown := new }, x.callback)
  else (x, false)

/-- The status is committed: it is a new one, and `REMOVED` was not the last. -/
def PipeFields.Moves (x : PipeFields) (new : PipeEv) : Prop :=
  new ≠ x.lastKnown ∧ x.lastKnown ≠ .remPost

instance (x : PipeFields) (new : PipeEv) : Decidable (x.Moves new) :=
  inferInstanceAs (Decidable (_ ∧ _))

/-- A status callback still to call, and the transition it is for. -/
structure Due where
  pipe : Pipe
  announced : PipeEv
  deriving DecidableEq, Repr

/-- History: a transition, and whether it returned a callback. -/
structure Commit where
  pipe : Pipe
  status : PipeEv
  callback : Bool
  deriving DecidableEq, Repr

/-- History: a call of a status callback, the transition it was for, and the
`Pipe.status` it read. -/
structure Invocation where
  pipe : Pipe
  announced : PipeEv
  observed : PipeEv
  deriving DecidableEq, Repr

namespace Socket

/-- Where a call of `update_pipes` stands. -/
inductive CallPc
  | idle
  /-- Waiting for `_pipe_mutex`. -/
  | entering
  /-- Before `had_events`. -/
  | checking
  /-- Before `get_pipes`. -/
  | snapshotting
  /-- Creating the new pipes. -/
  | creating
  /-- `_pipes` is assigned, statuses are being read. -/
  | reading
  /-- Unlocked, in the callbacks. -/
  | calling
  /-- Inside `close`, called by `_on_pipe_removed`. -/
  | hooking
  | returned
  /-- Ended by a `BaseException` of user code. -/
  | raised
  deriving DecidableEq, Repr

/-- A call of `update_pipes` and its locals. -/
structure Call where
  pc : CallPc
  /-- `pipe_handles[i:]`, those still to create a `Pipe` for. -/
  handles : List PipeHandle
  /-- `previous_pipes`. -/
  prev : List Pipe
  /-- `still_active_pipes`. -/
  still : List Pipe
  /-- `new_pipes`; once announcing, those still to announce. -/
  fresh : List Pipe
  /-- The previous pipes whose status is still to be read. -/
  todo : List Pipe
  /-- The status read for the first of them and not yet committed. -/
  sampled : Option PipeEv
  /-- `pipe_update_cbs`; those still to call. -/
  due : List Due
  /-- `removed_pipes`; those whose hook is still to run. -/
  removed : List Pipe
  /-- Whether `pipe_creation_cb` is set. -/
  creationCb : Bool
  /-- History: the moment the call began. -/
  since : ℕ
  deriving DecidableEq, Repr

def Call.start (pc : CallPc) (since : ℕ) : Call :=
  { pc, handles := [], prev := [], still := [], fresh := [], todo := [], sampled := none, due := [],
    removed := [], creationCb := false, since }

/-- Who runs `close`: a user thread, or the hook of a call. -/
inductive Closer
  | user (n : ℕ)
  | hook (t : ℕ)
  deriving DecidableEq, Repr

/-- Where a run of `close` stands; each name says what was done last. -/
inductive ClosePc
  | idle
  | locking
  | locked
  /-- `_pipes` and the callback are gone. -/
  | pipesCleared
  | collectionCleared
  | filterCleared
  | unlocked
  /-- In `SocketHandle::close`, the socket found open. -/
  | entered
  | noAddPre
  | noAddPost
  | noRemPost
  /-- Out of `SocketHandle::close`. -/
  | closed
  | done
  deriving DecidableEq, Repr

/-- A run of `close`, and its copy of the pipes still to be told. -/
structure CloseRun where
  pc : ClosePc
  pipes : List Pipe
  /-- The status read for the first of them and not yet committed. -/
  sampled : Option PipeEv
  deriving DecidableEq, Repr

/-- Who holds `_pipe_mutex`. -/
inductive Holder
  | call (t : ℕ)
  | closer (c : Closer)
  deriving DecidableEq, Repr

/-- What nng has done with a pipe. -/
inductive Stage
  | unborn
  /-- `ADD_PRE` delivered. -/
  | pre
  /-- Closed during `ADD_PRE`. -/
  | refused
  /-- `ADD_POST` delivered. -/
  | post
  /-- `REM_POST` delivered. -/
  | gone
  deriving DecidableEq, Repr

/-- The socket, nng's side of it, the threads in it, and the history. -/
structure State (σ : Type) where
  stage : ℕ → Stage
  /-- `nng_pipe_close` was called on the pipe. -/
  kicked : ℕ → Bool
  /-- The event's notification is registered. -/
  notify : PipeEv → Bool
  /-- The nng socket is open and `_sock.id` not `0`. -/
  isOpen : Bool
  /-- Trampolines past `handle_event` with the sentinel still to push. -/
  inFlight : ℕ
  /-- Sentinels in the dispatch queue. -/
  sentinels : ℕ
  coll : PipeCollection σ
  /-- `_pipe_mutex`. -/
  lock : Option Holder
  /-- `_pipes`. -/
  pipes : List Pipe
  objs : ℕ → PipeFields
  /-- How many `Pipe` objects were made. -/
  created : ℕ
  /-- Whether `_on_new_pipe_cb` is set. -/
  onNewPipe : Bool
  calls : ℕ → Call
  closing : Closer → CloseRun
  /-- The callback a user thread has still to call in `Pipe.close`. -/
  userDue : ℕ → List Due
  /-- History: the id sequences of the collection, oldest first. -/
  log : List (List ℕ)
  /-- History: the list `_pipes` replaced. -/
  before : List Pipe
  /-- History: the `Pipe` objects ever put in `_pipes`. -/
  placed : List Pipe
  /-- History: the calls of `on_new_pipe`. -/
  announced : List Pipe
  /-- History: `on_new_pipe` has been set all along. -/
  cbThroughout : Bool
  /-- History: `on_new_pipe` has raised. -/
  cbRaised : Bool
  /-- History: some `close` has begun to clear. -/
  closeBegun : Bool
  /-- History: the pipe has been in the collection. -/
  entered : ℕ → Bool
  /-- History: the filter accepted the pipe at `ADD_PRE`. -/
  accepted : ℕ → Bool
  /-- History: the filter rejected the pipe at `ADD_PRE`. -/
  rejected : ℕ → Bool
  /-- History: the pipe's `ADD_POST` was handled. -/
  active : ℕ → Bool
  /-- History: the pipe's `REM_POST` was handled. -/
  removed : ℕ → Bool
  /-- History: the `Pipe` objects ever made. -/
  made : List Pipe
  /-- History: the transitions committed. -/
  commits : List Commit
  /-- History: the calls of status callbacks. -/
  invoked : List Invocation

/-- The ids of `_pipes`, in order. -/
def State.ids {σ : Type} (s : State σ) : List ℕ := s.pipes.map Pipe.id

/-- The steps. -/
inductive Act
  /-- nng delivers an event: its handler runs if it is registered. -/
  | event (p : ℕ) (ev : PipeEv)
  /-- A trampoline pushes its sentinel. -/
  | push
  /-- The trampoline of another socket does. -/
  | otherPush
  | setOnNewPipe (set : Bool)
  | setCallback (obj : ℕ) (set : Bool)
  /-- `Pipe.close`, by a user thread, up to the callback. -/
  | closePipe (n : ℕ) (x : Pipe)
  /-- `Pipe.close` calls the callback. -/
  | pipeCallback (n : ℕ)
  | enter (t : ℕ)
  | acquire (t : ℕ)
  | check (t : ℕ)
  | snapshot (t : ℕ)
  | create (t : ℕ)
  | assign (t : ℕ)
  /-- `handle_status_change` reads the handle's status. -/
  | sample (t : ℕ)
  /-- `handle_status_change` commits what it read. -/
  | read (t : ℕ)
  | unlock (t : ℕ)
  | status (t : ℕ) (o : PyOutcome)
  | hook (t : ℕ)
  | hookDone (t : ℕ)
  | announce (t : ℕ) (o : PyOutcome)
  | ret (t : ℕ)
  /-- The next step of a run of `close`. -/
  | close (c : Closer)
  deriving DecidableEq, Repr

/-- What a socket is set up with before any endpoint starts. -/
structure Config (σ : Type) where
  /-- What nng will tell of each pipe. -/
  nng : ℕ → NngPipe
  /-- `pipe_filter`. -/
  filter : Option (IPipeFilter σ)
  objects : σ
  /-- Whether `on_new_pipe` is set. -/
  onNewPipe : Bool
  /-- `close_on_disconnect`, of a `PairSocket`. -/
  closeOnDisconnect : Bool

variable {σ : Type}

/-! ## The guards -/

/-- nng delivers `ADD_PRE`, then `ADD_POST` unless the pipe was closed
during `ADD_PRE`, then `REM_POST`. -/
def Delivers (s : State σ) (p : ℕ) : PipeEv → Prop
  | .none => False
  | .addPre => s.stage p = .unborn
  | .addPost => s.stage p = .pre
  | .remPost => s.stage p = .pre ∨ s.stage p = .refused ∨ s.stage p = .post

instance (s : State σ) (p : ℕ) : ∀ ev, Decidable (Delivers s p ev)
  | .none => inferInstanceAs (Decidable False)
  | .addPre => inferInstanceAs (Decidable (_ = _))
  | .addPost => inferInstanceAs (Decidable (_ = _))
  | .remPost => inferInstanceAs (Decidable (_ ∨ _ ∨ _))

/-- A thread is free to call `update_pipes`. The dispatcher needs a
sentinel, and does not come back from an exception. -/
def CanEnter (s : State σ) : ℕ → Prop
  | 0 => ((s.calls 0).pc = .idle ∨ (s.calls 0).pc = .returned) ∧ 0 < s.sentinels
  | t => (s.calls t).pc = .idle ∨ (s.calls t).pc = .returned ∨ (s.calls t).pc = .raised

instance (s : State σ) : ∀ t, Decidable (CanEnter s t)
  | 0 => inferInstanceAs (Decidable (_ ∧ _))
  | _ + 1 => inferInstanceAs (Decidable (_ ∨ _ ∨ _))

/-- The next step of a run of `close` can be taken. -/
def CanClose (s : State σ) (c : Closer) : Prop :=
  match (s.closing c).pc with
  | .idle => ∃ n, c = .user n
  | .locking => s.lock = none
  | .done => False
  | _ => True

instance : ∀ c : Closer, Decidable (∃ n, c = .user n)
  | .user n => .isTrue ⟨n, rfl⟩
  | .hook _ => .isFalse fun ⟨_, h⟩ => nomatch h

instance (s : State σ) (c : Closer) : Decidable (CanClose s c) := by
  unfold CanClose
  split <;> infer_instance

def Enabled (s : State σ) : Act → Prop
  | .event p ev => Delivers s p ev
  | .push => 0 < s.inFlight
  | .otherPush => True
  | .setOnNewPipe _ => s.lock = none ∧ s.isOpen = true
  | .setCallback obj _ => obj < s.created
  | .closePipe n x => x ∈ s.made ∧ s.userDue n = []
  | .pipeCallback n => s.userDue n ≠ []
  | .enter t => CanEnter s t
  | .acquire t => (s.calls t).pc = .entering ∧ s.lock = none
  | .check t => (s.calls t).pc = .checking
  | .snapshot t => (s.calls t).pc = .snapshotting
  | .create t => (s.calls t).pc = .creating ∧ (s.calls t).handles ≠ []
  | .assign t => (s.calls t).pc = .creating ∧ (s.calls t).handles = []
  | .sample t => (s.calls t).pc = .reading ∧ (s.calls t).todo ≠ [] ∧ (s.calls t).sampled = none
  | .read t => (s.calls t).pc = .reading ∧ (s.calls t).sampled ≠ none
  | .unlock t => (s.calls t).pc = .reading ∧ (s.calls t).todo = []
  | .status t _ => (s.calls t).pc = .calling ∧ (s.calls t).due ≠ []
  | .hook t => (s.calls t).pc = .calling ∧ (s.calls t).due = [] ∧ (s.calls t).removed ≠ []
  | .hookDone t => (s.calls t).pc = .hooking ∧ (s.closing (.hook t)).pc = .done
  | .announce t _ => (s.calls t).pc = .calling ∧ (s.calls t).due = [] ∧
      (s.calls t).removed = [] ∧ (s.calls t).creationCb = true ∧ (s.calls t).fresh ≠ []
  | .ret t => (s.calls t).pc = .calling ∧ (s.calls t).due = [] ∧
      (s.calls t).removed = [] ∧ ((s.calls t).creationCb = true → (s.calls t).fresh = [])
  | .close c => CanClose s c

instance (s : State σ) (a : Act) : Decidable (Enabled s a) := by
  cases a <;> unfold Enabled <;> infer_instance

/-! ## The effects -/

/-- The stage an event brings the pipe to. -/
def stageAfter (s : State σ) (n : NngPipe) (p : ℕ) : PipeEv → Stage
  | .none => s.stage p
  | .addPre => if s.notify .addPre && s.coll.refuses n p then .refused else .pre
  | .addPost => .post
  | .remPost => .gone

/-- An event that is heard: the trampoline, up to its push. -/
def handle (cfg : Config σ) (s : State σ) (p : ℕ) (ev : PipeEv) : State σ :=
  let refused := ev = .addPre ∧ s.coll.refuses (cfg.nng p) p
  let (coll, closes) := s.coll.handleEvent (cfg.nng p) p ev
  { s with
    stage := Function.update s.stage p (stageAfter s (cfg.nng p) p ev)
    coll
    kicked := Function.update s.kicked p (s.kicked p || closes)
    inFlight := s.inFlight + 1
    log := s.log ++ [coll.ids]
    entered := fun q => s.entered q || decide (q ∈ coll.ids)
    accepted := if ev = .addPre
      then Function.update s.accepted p (s.coll.filter.isSome && !s.coll.refuses (cfg.nng p) p)
      else s.accepted
    rejected := Function.update s.rejected p (s.rejected p || decide refused)
    active := Function.update s.active p (s.active p || decide (ev = .addPost))
    removed := Function.update s.removed p (s.removed p || decide (ev = .remPost)) }

/-- The call with its locals changed. -/
def State.setCall (t : ℕ) (call : Call) (s : State σ) : State σ :=
  { s with calls := Function.update s.calls t call }

/-- The run of `close` moved. -/
def State.setClosing (c : Closer) (run : CloseRun) (s : State σ) : State σ :=
  { s with closing := Function.update s.closing c run }

/-- What a user thread has still to call changed. -/
def State.setUserDue (n : ℕ) (due : List Due) (s : State σ) : State σ :=
  { s with userDue := Function.update s.userDue n due }

/-- `Pipe.status`: `REMOVED` once that is committed, else what the handle says. -/
def State.pipeStatus (s : State σ) (x : Pipe) : PipeEv :=
  if (s.objs x.obj).lastKnown = .remPost then .remPost else s.coll.status x.handle.ref

/-- `_handle_status_change_internal` on the object. -/
def State.commit (x : Pipe) (new : PipeEv) (s : State σ) : State σ :=
  { s with
    objs := Function.update s.objs x.obj ((s.objs x.obj).handleStatusChange new).1
    commits := s.commits ++
      if (s.objs x.obj).Moves new
      then [⟨x, new, ((s.objs x.obj).handleStatusChange new).2⟩] else [] }

/-- The callback that `commit` returns. -/
def State.dueOf (s : State σ) (x : Pipe) (new : PipeEv) : List Due :=
  if ((s.objs x.obj).handleStatusChange new).2 then [⟨x, new⟩] else []

/-- The first of these callbacks is called, and reads `Pipe.status`. -/
def State.invoke (due : List Due) (s : State σ) : State σ :=
  { s with
    invoked := s.invoked ++
      (due.take 1).map fun d => ⟨d.pipe, d.announced, s.pipeStatus d.pipe⟩ }

/-- The next step of `close`. -/
def closeStep (s : State σ) (c : Closer) : State σ :=
  let run := s.closing c
  match run.pc with
  | .idle => s.setClosing c { run with pc := .locking }
  | .locking => { s with lock := some (.closer c) }.setClosing c { run with pc := .locked }
  | .locked =>
    if s.isOpen then
      { s with
        onNewPipe := false
        pipes := []
        closeBegun := true
        cbThroughout := false }.setClosing c
          { pc := .pipesCleared, pipes := s.pipes, sampled := none }
    else
      -- already closed: it returns, and the lock is released
      { s with lock := none }.setClosing c { run with pc := .done }
  | .pipesCleared =>
    { s with coll := s.coll.clear, log := s.log ++ [[]] }.setClosing c
      { run with pc := .collectionCleared }
  | .collectionCleared =>
    { s with coll := s.coll.setFilter none }.setClosing c { run with pc := .filterCleared }
  | .filterCleared => { s with lock := none }.setClosing c { run with pc := .unlocked }
  | .unlocked =>
    -- two runs may both find the socket open here
    s.setClosing c { run with pc := if s.isOpen then .entered else .closed }
  | .entered =>
    { s with notify := Function.update s.notify .addPre false }.setClosing c
      { run with pc := .noAddPre }
  | .noAddPre =>
    { s with notify := Function.update s.notify .addPost false }.setClosing c
      { run with pc := .noAddPost }
  | .noAddPost =>
    { s with notify := Function.update s.notify .remPost false }.setClosing c
      { run with pc := .noRemPost }
  | .noRemPost => { s with isOpen := false }.setClosing c { run with pc := .closed }
  | .closed =>
    match run.pipes, run.sampled with
    | [], _ => s.setClosing c { run with pc := .done }
    | x :: _, none => s.setClosing c { run with sampled := some (s.coll.status x.handle.ref) }
    | x :: xs, some ev =>
      -- the callback that is returned is not called
      (s.commit x ev).setClosing c { run with pipes := xs, sampled := none }
  | .done => s

def next (cfg : Config σ) (s : State σ) : Act → State σ
  | .event p ev =>
    if s.notify ev then handle cfg s p ev
    else { s with stage := Function.update s.stage p (stageAfter s (cfg.nng p) p ev) }
  | .push => { s with inFlight := s.inFlight - 1, sentinels := s.sentinels + 1 }
  | .otherPush => { s with sentinels := s.sentinels + 1 }
  | .setOnNewPipe set => { s with onNewPipe := set, cbThroughout := s.cbThroughout && set }
  | .setCallback obj set =>
    { s with objs := Function.update s.objs obj { s.objs obj with callback := set } }
  | .closePipe n x =>
    State.setUserDue n (s.dueOf x .remPost)
      { s.commit x .remPost with kicked := Function.update s.kicked x.id true }
  | .pipeCallback n => State.setUserDue n (s.userDue n).tail (s.invoke (s.userDue n))
  | .enter t =>
    -- the dispatcher has taken a sentinel, any other caller none
    State.setCall t (.start .entering (s.log.length - 1))
      { s with sentinels := if t = 0 then s.sentinels - 1 else s.sentinels }
  | .acquire t =>
    State.setCall t { s.calls t with pc := .checking } { s with lock := some (.call t) }
  | .check t =>
    if s.coll.hadEvents.1 then
      State.setCall t { s.calls t with pc := .snapshotting } { s with coll := s.coll.hadEvents.2 }
    else State.setCall t { s.calls t with pc := .returned } { s with lock := none }
  | .snapshot t =>
    -- the pass that takes over what is still there, up to `i`
    let (still, handles) := greedyMatch Pipe.id PipeHandle.id s.pipes s.coll.getPipes
    State.setCall t
      { s.calls t with pc := .creating, handles, prev := s.pipes, still, fresh := [] } s
  | .create t =>
    match (s.calls t).handles with
    | [] => s
    | h :: hs =>
      State.setCall t
        { s.calls t with handles := hs, fresh := (s.calls t).fresh ++ [⟨s.created, h⟩] }
        { s with
          created := s.created + 1
          made := s.made ++ [⟨s.created, h⟩]
          objs := Function.update s.objs s.created ⟨s.coll.status h.ref, false⟩ }
  | .assign t =>
    let call := s.calls t
    State.setCall t
      { call with
        pc := .reading
        removed := call.prev.filter (· ∉ call.still)
        creationCb := s.onNewPipe
        due := []
        todo := call.prev
        sampled := none }
      { s with
        pipes := call.still ++ call.fresh
        before := s.pipes
        placed := s.placed ++ call.fresh }
  | .sample t =>
    State.setCall t
      { s.calls t with
        sampled := (s.calls t).todo.head?.map fun x => s.coll.status x.handle.ref } s
  | .read t =>
    match (s.calls t).todo, (s.calls t).sampled with
    | x :: xs, some ev =>
      State.setCall t
        { s.calls t with todo := xs, sampled := none, due := (s.calls t).due ++ s.dueOf x ev }
        (s.commit x ev)
    | _, _ => s
  | .unlock t => State.setCall t { s.calls t with pc := .calling } { s with lock := none }
  | .status t o =>
    State.setCall t
      { s.calls t with
        due := (s.calls t).due.tail
        pc := if o = .raisesBase then .raised else .calling }
      (s.invoke (s.calls t).due)
  | .hook t =>
    if cfg.closeOnDisconnect then
      State.setCall t { s.calls t with pc := .hooking }
        (s.setClosing (.hook t) ⟨.locking, [], none⟩)
    else State.setCall t { s.calls t with removed := (s.calls t).removed.tail } s
  | .hookDone t =>
    State.setCall t { s.calls t with pc := .calling, removed := (s.calls t).removed.tail }
      (s.setClosing (.hook t) ⟨.idle, [], none⟩)
  | .announce t o =>
    State.setCall t
      { s.calls t with
        fresh := (s.calls t).fresh.tail
        pc := if o = .raisesBase then .raised else .calling }
      { s with
        announced := s.announced ++ (s.calls t).fresh.take 1
        cbRaised := s.cbRaised || decide (o ≠ .returns) }
  | .ret t => State.setCall t { s.calls t with pc := .returned } s
  | .close c => closeStep s c

/-- An event whose notification is registered. -/
theorem next_event_of_notify {cfg : Config σ} {s : State σ} {p : ℕ} {ev : PipeEv}
    (h : s.notify ev = true) :
    next cfg s (.event p ev) = handle cfg s p ev :=
  if_pos h

/-- An event nobody hears. -/
theorem next_event_of_not_notify {cfg : Config σ} {s : State σ} {p : ℕ} {ev : PipeEv}
    (h : s.notify ev = false) :
    next cfg s (.event p ev) =
      { s with stage := Function.update s.stage p (stageAfter s (cfg.nng p) p ev) } :=
  if_neg (by rw [h]; exact Bool.false_ne_true)

/-- **What a step of `close` leaves alone**: the calls, what user threads
have still to do, and the `Pipe` objects made and announced. -/
structure SparesCalls (s s' : State σ) : Prop where
  calls : s'.calls = s.calls
  userDue : s'.userDue = s.userDue
  created : s'.created = s.created
  made : s'.made = s.made
  announced : s'.announced = s.announced
  invoked : s'.invoked = s.invoked

theorem sparesCalls_closeStep (s : State σ) (c : Closer) : SparesCalls s (closeStep s c) := by
  cases hpc : (s.closing c).pc <;> simp only [closeStep, hpc]
  case locked => split <;> exact ⟨rfl, rfl, rfl, rfl, rfl, rfl⟩
  case closed => split <;> exact ⟨rfl, rfl, rfl, rfl, rfl, rfl⟩
  all_goals exact ⟨rfl, rfl, rfl, rfl, rfl, rfl⟩

/-- **The machine of one socket.** -/
def socket (cfg : Config σ) : Machine (State σ) Act where
  init :=
    { stage := fun _ => .unborn, kicked := fun _ => false, notify := fun _ => true, isOpen := true,
      inFlight := 0, sentinels := 0, coll := .new cfg.filter cfg.objects, lock := none, pipes := [],
      objs := fun _ => ⟨.none, false⟩, created := 0, onNewPipe := cfg.onNewPipe,
      calls := fun _ => .start .idle 0, closing := fun _ => ⟨.idle, [], none⟩,
      userDue := fun _ => [], log := [[]],
      before := [], placed := [], announced := [], cbThroughout := cfg.onNewPipe,
      cbRaised := false, closeBegun := false, entered := fun _ => false,
      accepted := fun _ => false, rejected := fun _ => false, active := fun _ => false,
      removed := fun _ => false, made := [], commits := [], invoked := [] }
  Enabled := Enabled
  next := next cfg

instance (cfg : Config σ) (s : State σ) (a : Act) : Decidable ((socket cfg).Enabled s a) :=
  inferInstanceAs (Decidable (Enabled s a))

end Socket

end PyNng
