import PyNng.Common.Machine
import Mathlib.Logic.Function.Basic
import Mathlib.Data.Nat.Notation
/-!
# Dispatch — the wakeup queue of an asyncio manager

`SockDispatchQueue` of `platform.hpp`, which is `PollDispatchQueue` too:
a mutex-protected queue of completion ids and a socket pair whose read
end the event loop watches. `push` appends under the mutex and writes one
byte after releasing it, only when the queue was empty; the reader runs
`drain_wakeup` and then `drain_ready`.

`wakeup` is the machine of its atomic steps, for any set of pushing
threads and the one reader. `enqueued` and `returned` read off a run what
its pushes put in and what `drain_ready` gave back; the fields `pushed` and
`handed` keep the same in the state.
-/

namespace PyNng

namespace SockQueue

variable {Id Pusher : Type*}

/-- `send` of one byte with `MSG_DONTWAIT`: into a full buffer it is dropped. -/
def send (capacity buffer : ℕ) : ℕ := if buffer < capacity then buffer + 1 else buffer

/-- `drain_wakeup`: `recv` 32 bytes at a time until nothing is left to read. -/
def drainWakeup (buffer : ℕ) : ℕ :=
  if 0 < min 32 buffer then drainWakeup (buffer - min 32 buffer) else buffer
termination_by buffer

/-- **`drain_wakeup` empties the buffer.** -/
@[simp] theorem drainWakeup_eq_zero (buffer : ℕ) : drainWakeup buffer = 0 := by
  fun_induction drainWakeup buffer with
  | case1 buffer _ ih => exact ih
  | case2 buffer hrecv => omega

/-- `drain_ready`: what is queued goes to the end of `out`, and the queue is cleared. -/
def drainReady (out queue : List Id) : List Id × List Id := (out ++ queue, [])

/-- A byte sent leaves the buffer readable, whether or not it was dropped. -/
theorem send_pos {capacity : ℕ} (hcap : 1 ≤ capacity) (buffer : ℕ) :
    1 ≤ send capacity buffer := by
  unfold send
  split <;> omega

/-- Where a pushing thread stands: between calls, or past the mutex with
`was_empty` set and its byte still to send. -/
inductive PushPc
  | idle
  | wakes
  deriving DecidableEq, Repr

/-- Where the reader stands: waiting for the fd, or past `drain_wakeup`
with `drain_ready` still to run. -/
inductive ReadPc
  | waiting
  | drained
  deriving DecidableEq, Repr

/-- The queue, its wakeup buffer and the threads at it. -/
structure State (Pusher Id : Type*) where
  /-- `_queue`, oldest first. -/
  queue : List Id
  /-- Bytes written to the socket pair and not yet read. -/
  buffer : ℕ
  pusher : Pusher → PushPc
  reader : ReadPc
  /-- Every id pushed so far, in push order. -/
  pushed : List Id
  /-- Every id `drain_ready` has returned so far, in order. -/
  handed : List Id

/-- The atomic steps. -/
inductive Act (Pusher Id : Type*)
  /-- The locked half of `push`. -/
  | enqueue (p : Pusher) (id : Id)
  /-- The byte `push` writes when the queue was empty. -/
  | send (p : Pusher)
  | drainWakeup
  | drainReady

variable [DecidableEq Pusher]

/-- The guards: a thread makes one call at a time, and the event loop calls
the reader only when the fd is readable. -/
def Enabled (s : State Pusher Id) : Act Pusher Id → Prop
  | .enqueue p _ => s.pusher p = .idle
  | .send p => s.pusher p = .wakes
  | .drainWakeup => s.reader = .waiting ∧ 0 < s.buffer
  | .drainReady => s.reader = .drained

/-- The effects. -/
def next (capacity : ℕ) (s : State Pusher Id) : Act Pusher Id → State Pusher Id
  | .enqueue p id =>
    let wasEmpty := s.queue.isEmpty
    { s with
      queue := s.queue ++ [id]
      pushed := s.pushed ++ [id]
      pusher := Function.update s.pusher p (if wasEmpty then .wakes else .idle) }
  | .send p =>
    { s with
      buffer := SockQueue.send capacity s.buffer
      pusher := Function.update s.pusher p .idle }
  | .drainWakeup => { s with buffer := SockQueue.drainWakeup s.buffer, reader := .drained }
  | .drainReady =>
    { s with
      queue := (SockQueue.drainReady [] s.queue).2
      handed := s.handed ++ (SockQueue.drainReady [] s.queue).1
      reader := .waiting }

/-- **The wakeup machine**, over a buffer of the given capacity. -/
def wakeup (Pusher Id : Type*) [DecidableEq Pusher] (capacity : ℕ) :
    Machine (State Pusher Id) (Act Pusher Id) where
  init :=
    { queue := [], buffer := 0, pusher := fun _ => .idle, reader := .waiting, pushed := [],
      handed := [] }
  Enabled := Enabled
  next := next capacity

/-! ## What goes in and what comes out along a run -/

omit [DecidableEq Pusher] in
/-- The ids the run's pushes put on the queue, in order. -/
def enqueued : List (Act Pusher Id) → List Id
  | [] => []
  | .enqueue _ id :: as => id :: enqueued as
  | _ :: as => enqueued as

/-- What `drain_ready` returned to the reader along the run, one call after the other. -/
def returned (capacity : ℕ) : State Pusher Id → List (Act Pusher Id) → List Id
  | _, [] => []
  | s, .drainReady :: as =>
    (SockQueue.drainReady [] s.queue).1 ++ returned capacity (next capacity s .drainReady) as
  | s, a :: as => returned capacity (next capacity s a) as

end SockQueue

end PyNng
