import Rpx.Machinery.BucketMap

/-!
# Core/TimerQueue — the timers of a loop, and the descriptor that wakes it

`_timers` orders the queued timers by deadline; the timerfd is one-shot and armed for one of them.
Deadlines are readings of `gettimeofday` in microseconds, while the timerfd counts down on a clock
of its own: an expiration can be read at any `now`, before the first deadline too.  Every reading of
the clock is an argument.  A timer is known by its address; `heap` is what lies there.
-/

open Machinery

/-- Microseconds. -/
abbrev Time := ℤ

/-- The address of a `Timer`. -/
abbrev Addr := ℕ

/-- A `Timer`.  Of its interval, a `double` of seconds, two readings are used. -/
structure Timer where
  /-- `_when`. -/
  deadline : Time
  /-- `_interval > 0`. -/
  repeated : Bool
  /-- `(int64_t)(_interval * 1000000)`. -/
  micros : ℤ
  deriving DecidableEq, Repr

/-- `restart(now)`. -/
def Timer.restart (t : Timer) (now : Time) : Timer := { t with deadline := now + t.micros }

/-- An armed timerfd: when it was armed, and when it expires. -/
structure Armed where
  armedAt : Time
  expiry : Time
  deriving DecidableEq, Repr

/-- The order in which an `unordered_set` is iterated. -/
structure IterOrder where
  list : Finset Addr → List Addr
  nodup : ∀ s, (list s).Nodup
  mem_iff : ∀ s a, a ∈ list s ↔ a ∈ s

/-- By increasing address. -/
def IterOrder.ascending : IterOrder where
  list s := (List.range (s.sup id + 1)).filter (· ∈ s)
  nodup s := List.nodup_range.filter _
  mem_iff s a := by
    rw [List.mem_filter, List.mem_range, decide_eq_true_iff]
    exact and_iff_right_of_imp fun ha => Nat.lt_succ_of_le (Finset.le_sup (f := id) ha)

structure TimerQueue where
  timers : BucketMap Time Addr
  activeTimers : Finset Addr
  callingExpiredTimers : Bool
  cancelingTimers : Finset Addr
  /-- What lies at each address. -/
  heap : Addr → Timer
  /-- The timers allocated and not deleted. -/
  live : Finset Addr
  /-- The timerfd, while it counts down. -/
  timerfd : Option Armed

/-- A call on the queue, from a task or from inside a timer callback. -/
inductive QueueOp
  /-- `addTimer` in the loop thread: the timer is allocated at `a` and queued; `now` is the clock
  when the timerfd is set, if it is. -/
  | addTimer (a : Addr) (timer : Timer) (now : Time)
  | cancel (a : Addr)

namespace TimerQueue

/-- No timer, and a timerfd that is not armed. -/
def new (heap : Addr → Timer) : TimerQueue where
  timers := .empty
  activeTimers := ∅
  callingExpiredTimers := false
  cancelingTimers := ∅
  heap := heap
  live := ∅
  timerfd := none

variable (q : TimerQueue)

/-- `resetTimerfd(when)`, the clock reading `now`. -/
def resetTimerfd (w now : Time) : TimerQueue :=
  { q with timerfd := some ⟨now, now + max 100 (w - now)⟩ }

/-- The read that consumes an expiration leaves the timerfd unarmed. -/
def consumeTimerfd : TimerQueue := { q with timerfd := none }

/-! ## Queueing and cancelling -/

/-- Whether a deadline is ahead of every queued one. -/
def earliestChanged (w : Time) : Bool :=
  match q.timers.first? with
  | none => true
  | some first => w < first

/-- `insert(timer)`; the result says whether the earliest deadline changed. -/
def insert (a : Addr) : Bool × TimerQueue :=
  let w := (q.heap a).deadline
  (q.earliestChanged w,
    { q with
      timers := q.timers.update w (Insert.insert a)
      activeTimers := Insert.insert a q.activeTimers })

def addTimerInLoop (a : Addr) (now : Time) : TimerQueue :=
  let (changed, q) := q.insert a
  if changed then q.resetTimerfd (q.heap a).deadline now else q

/-- `new Timer(..)` at `a`. -/
def allocate (a : Addr) (timer : Timer) : TimerQueue :=
  { q with heap := Function.update q.heap a timer, live := Insert.insert a q.live }

/-- `delete timer`. -/
def delete (a : Addr) : TimerQueue := { q with live := q.live.erase a }

def cancelInLoop (a : Addr) : TimerQueue :=
  if a ∈ q.activeTimers then
    let w := (q.heap a).deadline
    let timers := q.timers.update w (·.erase a)
    let timers := if timers.bucket w = ∅ then timers.erase w else timers
    { q with timers := timers, activeTimers := q.activeTimers.erase a }.delete a
  else if q.callingExpiredTimers then
    { q with cancelingTimers := Insert.insert a q.cancelingTimers }
  else q

/-- What a call does. -/
def perform : QueueOp → TimerQueue
  | .addTimer a timer now => (q.allocate a timer).addTimerInLoop a now
  | .cancel a => q.cancelInLoop a

/-! ## An expiration -/

/-- The timers whose deadline has passed, in the order they will run. -/
def expired (now : Time) (order : IterOrder) : List Addr :=
  (q.timers.upTo now).entries.flatMap fun e => order.list e.2

/-- They leave the queue, and the batch begins. -/
def beginBatch (now : Time) (order : IterOrder) : TimerQueue :=
  { q with
    timers := q.timers.after now
    activeTimers := q.activeTimers \ (q.expired now order).toFinset
    callingExpiredTimers := true
    cancelingTimers := ∅ }

/-- The callbacks run, each making the calls `script` gives it. -/
def runCallbacks (batch : List Addr) (script : Addr → List QueueOp) : TimerQueue :=
  { (batch.flatMap script).foldl perform q with callingExpiredTimers := false }

/-- A timer of the batch is queued again, or deleted. -/
def settle (now : Time) (a : Addr) : Bool × TimerQueue :=
  if (q.heap a).repeated ∧ a ∉ q.cancelingTimers then
    { q with heap := Function.update q.heap a ((q.heap a).restart now) }.insert a
  else (false, q.delete a)

/-- …and so is every other one; the result says whether the earliest deadline ever changed. -/
def settleAll (now : Time) (batch : List Addr) : Bool × TimerQueue :=
  batch.foldl (fun s a => (s.1 || (s.2.settle now a).1, (s.2.settle now a).2)) (false, q)

/-- `handleRead()`: `now` is read at the start, `later` when the timerfd is set. -/
def handleRead (now : Time) (order : IterOrder) (script : Addr → List QueueOp) (later : Time) :
    TimerQueue :=
  let q := q.consumeTimerfd
  let batch := q.expired now order
  let (changed, q) := ((q.beginBatch now order).runCallbacks batch script).settleAll now batch
  if changed then
    match q.timers.first? with
    | some first => q.resetTimerfd first later
    | none => q
  else q

end TimerQueue
