import PyNng.Common.Machine
import Mathlib.Data.Nat.Notation
import Mathlib.Logic.Function.Basic
/-!
# Library — bringing nng up and down

`check_nng_init`, `initialize` and `_nng_fini` of `_nng.pyx`, run by any
number of threads. `check_nng_init` reads `_nng_initialized` before it takes
`_nng_init_lock` and again under it; `initialize` reads it under the lock
only. Whoever finds it clear under the lock calls `nng_init`, sets the flag
and starts the dispatcher thread, in this order. `_nng_fini` takes no lock.
Every read and every write of a global is a step of its own, so `_nng_fini`
may set `_DISPATCH_THREAD` to `None` between the two reads of it that
`_start_DISPATCH_THREAD` begins with.

`nng_init` may fail, and so may starting a thread. A dispatcher thread may
end at any time; what makes it end is `Dispatch`. `_nng_fini` is called by
`atexit`, so no two calls of it overlap.
-/

namespace PyNng

namespace Library

/-- `nng_init_params`. -/
structure NngInitParams where
  numTaskThreads : Int16
  maxTaskThreads : Int16
  numExpireThreads : Int16
  maxExpireThreads : Int16
  numPollerThreads : Int16
  maxPollerThreads : Int16
  numResolverThreads : Int16
  deriving DecidableEq, Repr

/-- The arguments of `initialize`, C ints. -/
structure InitArgs where
  numTaskThreads : Int32 := 0
  maxTaskThreads : Int32 := -1
  numExpireThreads : Int32 := 0
  maxExpireThreads : Int32 := -1
  numPollerThreads : Int32 := 0
  maxPollerThreads : Int32 := -1
  numResolverThreads : Int32 := 0
  deriving DecidableEq, Repr

/-- The casts to `int16_t`, which keep the low bits. -/
def InitArgs.params (a : InitArgs) : NngInitParams where
  numTaskThreads := a.numTaskThreads.toInt16
  maxTaskThreads := a.maxTaskThreads.toInt16
  numExpireThreads := a.numExpireThreads.toInt16
  maxExpireThreads := a.maxExpireThreads.toInt16
  numPollerThreads := a.numPollerThreads.toInt16
  maxPollerThreads := a.maxPollerThreads.toInt16
  numResolverThreads := a.numResolverThreads.toInt16

/-- What a thread calls; `initializeNng` is `initialize`. -/
inductive Call
  | checkNngInit
  | initializeNng (args : InitArgs)
  deriving DecidableEq, Repr

/-- The argument of `nng_init`; `none` is `NULL`. -/
def Call.params : Call → Option NngInitParams
  | .checkNngInit => none
  | .initializeNng args => some args.params

/-- The exceptions. -/
inductive Err
  /-- `nng auto-init failed: …` and `nng_init() failed: …`. -/
  | initFailed (rc : ℕ)
  /-- `nng is already initialised. …`, of `initialize`. -/
  | alreadyInitialised
  /-- `can't start new thread`. -/
  | cannotStart
  /-- `_DISPATCH_THREAD` was set to `None` before its `is_alive` or its `start` was
  looked up. -/
  | noThread
  deriving DecidableEq, Repr

inductive Outcome
  /-- History: how often nng had been shut down when the call found it
  initialised, or initialised it, and whether it found the flag of an nng
  that `_nng_fini` had just shut down. -/
  | returned (since : ℕ) (stale : Bool)
  | raised (e : Err)
  deriving DecidableEq, Repr

/-- Where a thread stands in a call. -/
inductive Pc
  | idle
  /-- Before the read outside the lock. -/
  | testing
  /-- Waiting for `_nng_init_lock`. -/
  | locking
  /-- Before the read under the lock. -/
  | locked
  /-- The flag was clear: `nng_init` is next. -/
  | initialising
  /-- `nng_init` has succeeded: `_nng_initialized = 1` is next. -/
  | flagging (since : ℕ)
  /-- In `_start_DISPATCH_THREAD`, before `is not None`. -/
  | starting (since : ℕ)
  /-- `_DISPATCH_THREAD` is read again. -/
  | asking (since : ℕ)
  /-- `is_alive()` is next. -/
  | probing (since : ℕ) (d : ℕ)
  /-- There is no live dispatcher: a new `Thread` is next. -/
  | creating (since : ℕ)
  /-- `_DISPATCH_THREAD.start()` is next. -/
  | launching (since : ℕ)
  /-- The `with` block is over, and the lock still held. -/
  | releasing (o : Outcome)
  | ended (o : Outcome)
  deriving DecidableEq, Repr

/-- The lock is held. -/
def Pc.holds : Pc → Bool
  | .locked | .initialising | .flagging _ | .starting _ | .asking _ | .probing .. | .creating _
  | .launching _ | .releasing _ => true
  | .idle | .testing | .locking | .ended _ => false

/-- A `threading.Thread`. -/
inductive ThreadStatus
  | unborn
  /-- Made, and not started. -/
  | initial
  | alive
  | stopped
  deriving DecidableEq, Repr

/-- Where `_nng_fini` stands; each name says what is next. -/
inductive FiniPc
  | idle
  | testing
  | stopping
  /-- `_DISPATCH_THREAD is not None`. -/
  | reading
  /-- It is read again. -/
  | fetching
  | joining (d : ℕ)
  /-- `_DISPATCH_THREAD = None`. -/
  | dropping
  /-- `_DISPATCH_CALLABLES.clear()` and `gc.collect()`. -/
  | clearing
  /-- `nng_fini()`. -/
  | finalising
  /-- `_nng_initialized = 0`. -/
  | unflagging
  deriving DecidableEq, Repr

structure State where
  /-- `_nng_initialized`. -/
  initialized : Bool
  /-- `_nng_init_lock`. -/
  lock : Option ℕ
  /-- nng is up, and what `nng_init` was given. -/
  nng : Option (Option NngInitParams)
  /-- `_DISPATCH_QUEUE` is stopped. -/
  queueStopped : Bool
  /-- `_DISPATCH_THREAD`. -/
  dispatchThread : Option ℕ
  threads : ℕ → ThreadStatus
  /-- How many dispatcher threads were made. -/
  made : ℕ
  call : ℕ → Call
  pc : ℕ → Pc
  fini : FiniPc
  /-- History: the calls of `nng_init` that succeeded, and those of `nng_fini`. -/
  inits : ℕ
  finis : ℕ
  /-- History: some thread could not be started. -/
  startFailed : Bool
  /-- History: `_nng_fini` was called. -/
  finiCalled : Bool

inductive Act
  | call (t : ℕ) (c : Call)
  | test (t : ℕ)
  | acquire (t : ℕ)
  | testAgain (t : ℕ)
  | nngInit (t : ℕ) (rc : ℕ)
  | setFlag (t : ℕ)
  | testThread (t : ℕ)
  | readThread (t : ℕ)
  | askThread (t : ℕ)
  | makeThread (t : ℕ)
  /-- The thread starts, or there cannot be one more. -/
  | startThread (t : ℕ) (starts : Bool)
  | release (t : ℕ)
  /-- A dispatcher thread ends. -/
  | threadEnds (d : ℕ)
  | callFini
  | fini
  /-- The two seconds of `join` are over. -/
  | joinTimeout
  deriving DecidableEq, Repr

/-- A call may begin. -/
def Pc.resting : Pc → Bool
  | .idle | .ended _ => true
  | _ => false

/-- The next step of `_nng_fini` can be taken: a `join` waits for a live thread. -/
def FiniPc.Ready (threads : ℕ → ThreadStatus) : FiniPc → Prop
  | .idle => False
  | .joining d => threads d ≠ .alive
  | _ => True

instance (threads : ℕ → ThreadStatus) : ∀ f : FiniPc, Decidable (f.Ready threads)
  | .idle => inferInstanceAs (Decidable False)
  | .joining _ => inferInstanceAs (Decidable (_ ≠ _))
  | .testing | .stopping | .reading | .fetching | .dropping | .clearing | .finalising
  | .unflagging => inferInstanceAs (Decidable True)

/-- It waits for a live thread. -/
def FiniPc.Waits (threads : ℕ → ThreadStatus) : FiniPc → Prop
  | .joining d => threads d = .alive
  | _ => False

instance (threads : ℕ → ThreadStatus) : ∀ f : FiniPc, Decidable (f.Waits threads)
  | .joining _ => inferInstanceAs (Decidable (_ = _))
  | .idle | .testing | .stopping | .reading | .fetching | .dropping | .clearing | .finalising
  | .unflagging => inferInstanceAs (Decidable False)

def Pc.isFlagging : Pc → Bool
  | .flagging _ => true
  | _ => false

def Pc.isStarting : Pc → Bool
  | .starting _ => true
  | _ => false

def Pc.isAsking : Pc → Bool
  | .asking _ => true
  | _ => false

def Pc.isProbing : Pc → Bool
  | .probing .. => true
  | _ => false

def Pc.isCreating : Pc → Bool
  | .creating _ => true
  | _ => false

def Pc.isLaunching : Pc → Bool
  | .launching _ => true
  | _ => false

def Pc.isReleasing : Pc → Bool
  | .releasing _ => true
  | _ => false

theorem exists_of_isFlagging {pc : Pc} (h : pc.isFlagging = true) : ∃ n, pc = .flagging n := by
  cases pc <;> first | exact ⟨_, rfl⟩ | cases h

theorem exists_of_isStarting {pc : Pc} (h : pc.isStarting = true) : ∃ n, pc = .starting n := by
  cases pc <;> first | exact ⟨_, rfl⟩ | cases h

theorem exists_of_isAsking {pc : Pc} (h : pc.isAsking = true) : ∃ n, pc = .asking n := by
  cases pc <;> first | exact ⟨_, rfl⟩ | cases h

theorem exists_of_isProbing {pc : Pc} (h : pc.isProbing = true) : ∃ n d, pc = .probing n d := by
  cases pc <;> first | exact ⟨_, _, rfl⟩ | cases h

theorem exists_of_isCreating {pc : Pc} (h : pc.isCreating = true) : ∃ n, pc = .creating n := by
  cases pc <;> first | exact ⟨_, rfl⟩ | cases h

theorem exists_of_isLaunching {pc : Pc} (h : pc.isLaunching = true) : ∃ n, pc = .launching n := by
  cases pc <;> first | exact ⟨_, rfl⟩ | cases h

theorem exists_of_isReleasing {pc : Pc} (h : pc.isReleasing = true) : ∃ o, pc = .releasing o := by
  cases pc <;> first | exact ⟨_, rfl⟩ | cases h

theorem exists_of_waits {threads : ℕ → ThreadStatus} {f : FiniPc} (h : f.Waits threads) :
    ∃ d, f = .joining d ∧ threads d = .alive := by
  cases f <;> first | exact ⟨_, rfl, h⟩ | exact h.elim

def Enabled (s : State) : Act → Prop
  | .call t _ => (s.pc t).resting = true
  | .test t => s.pc t = .testing
  | .acquire t => s.pc t = .locking ∧ s.lock = none
  | .testAgain t => s.pc t = .locked
  | .nngInit t _ => s.pc t = .initialising
  | .setFlag t => (s.pc t).isFlagging = true
  | .testThread t => (s.pc t).isStarting = true
  | .readThread t => (s.pc t).isAsking = true
  | .askThread t => (s.pc t).isProbing = true
  | .makeThread t => (s.pc t).isCreating = true
  | .startThread t _ => (s.pc t).isLaunching = true
  | .release t => (s.pc t).isReleasing = true
  | .threadEnds d => s.threads d = .alive
  | .callFini => s.fini = .idle
  | .fini => s.fini.Ready s.threads
  | .joinTimeout => s.fini.Waits s.threads

instance (s : State) (a : Act) : Decidable (Enabled s a) := by
  cases a <;> unfold Enabled <;> infer_instance

def State.setPc (t : ℕ) (pc : Pc) (s : State) : State :=
  { s with pc := Function.update s.pc t pc }

@[simp] theorem setPc_pc_self (t : ℕ) (pc : Pc) (s : State) : (s.setPc t pc).pc t = pc :=
  Function.update_self ..

theorem setPc_pc_of_ne {t u : ℕ} (h : u ≠ t) (pc : Pc) (s : State) :
    (s.setPc t pc).pc u = s.pc u :=
  Function.update_of_ne h ..

/-- What a call that finds the flag set goes on with. -/
def State.found (s : State) : Call → Outcome
  | .checkNngInit => .returned s.finis (decide (s.fini = .unflagging))
  | .initializeNng _ => .raised .alreadyInitialised

/-- The next step of `_nng_fini`. -/
def State.finiStep (s : State) : State :=
  match s.fini with
  | .idle => s
  | .testing => { s with fini := if s.initialized then .stopping else .idle }
  | .stopping => { s with queueStopped := true, fini := .reading }
  | .reading => { s with fini := if s.dispatchThread = none then .clearing else .fetching }
  -- `None` has no `join`
  | .fetching => { s with fini := s.dispatchThread.elim .idle .joining }
  | .joining d =>
    -- `join` raises on a thread that was never started
    { s with fini := if s.threads d = .stopped then .dropping else .idle }
  | .dropping => { s with dispatchThread := none, fini := .clearing }
  | .clearing => { s with fini := .finalising }
  | .finalising => { s with nng := none, finis := s.finis + 1, fini := .unflagging }
  | .unflagging => { s with initialized := false, fini := .idle }

def next (s : State) : Act → State
  | .call t c =>
    { s with call := Function.update s.call t c }.setPc t
      (match c with
      | .checkNngInit => .testing
      | .initializeNng _ => .locking)
  | .test t =>
    s.setPc t (if s.initialized then .ended (s.found (s.call t)) else .locking)
  | .acquire t => { s with lock := some t }.setPc t .locked
  | .testAgain t =>
    s.setPc t (if s.initialized then .releasing (s.found (s.call t)) else .initialising)
  | .nngInit t rc =>
    if rc = 0 then
      { s with nng := some (s.call t).params, inits := s.inits + 1 }.setPc t (.flagging s.finis)
    else s.setPc t (.releasing (.raised (.initFailed rc)))
  | .setFlag t =>
    match s.pc t with
    | .flagging n => { s with initialized := true }.setPc t (.starting n)
    | _ => s
  | .testThread t =>
    match s.pc t with
    | .starting n => s.setPc t (if s.dispatchThread = none then .creating n else .asking n)
    | _ => s
  | .readThread t =>
    match s.pc t with
    | .asking n => s.setPc t (s.dispatchThread.elim (.releasing (.raised .noThread)) (.probing n))
    | _ => s
  | .askThread t =>
    match s.pc t with
    | .probing n d =>
      s.setPc t (if s.threads d = .alive then .releasing (.returned n false) else .creating n)
    | _ => s
  | .makeThread t =>
    match s.pc t with
    | .creating n =>
      { s with
        dispatchThread := some s.made
        threads := Function.update s.threads s.made .initial
        made := s.made + 1 }.setPc t (.launching n)
    | _ => s
  | .startThread t starts =>
    match s.pc t, s.dispatchThread with
    | .launching _, none => s.setPc t (.releasing (.raised .noThread))
    | .launching n, some d =>
      if starts then
        { s with threads := Function.update s.threads d .alive }.setPc t
          (.releasing (.returned n false))
      else { s with startFailed := true }.setPc t (.releasing (.raised .cannotStart))
    | _, _ => s
  | .release t =>
    match s.pc t with
    | .releasing o => { s with lock := none }.setPc t (.ended o)
    | _ => s
  | .threadEnds d => { s with threads := Function.update s.threads d .stopped }
  | .callFini => { s with fini := .testing, finiCalled := true }
  | .fini => s.finiStep
  | .joinTimeout => { s with fini := .dropping }

/-- **The machine** of the threads that use nng, and of `atexit`. -/
def library : Machine State Act where
  init :=
    { initialized := false, lock := none, nng := none, queueStopped := false,
      dispatchThread := none, threads := fun _ => .unborn, made := 0,
      call := fun _ => .checkNngInit, pc := fun _ => .idle, fini := .idle, inits := 0, finis := 0,
      startFailed := false, finiCalled := false }
  Enabled := Enabled
  next := next

instance (s : State) (a : Act) : Decidable (library.Enabled s a) :=
  inferInstanceAs (Decidable (Enabled s a))

end Library

end PyNng
