import Rpx.Core.Channel

/-!
# Core/Connector — connection attempts, one after the other

    start ──▶ connect ──▶ CONNECTING ──▶ CONNECTED
                 ▲            │
                 └── timer ◀──┴──▶ RETRYING

`start` and `stop` queue tasks; an attempt that fails is repeated by a timer whose delay doubles.  The
socket that `::socket` gives, and how `::connect` answers, are arguments of `connect`.
-/

/-- `States`. -/
inductive ConnectorState
  | disconnected
  | connecting
  | retrying
  | connected
  deriving DecidableEq, Repr

/-- How `::connect` answers. -/
inductive ConnectAnswer
  /-- Connected, or under way: `0`, `EINPROGRESS`, `EINTR`, `EISCONN`. -/
  | progress
  /-- An error after which another attempt is made: `EAGAIN`, `EADDRINUSE`, `EADDRNOTAVAIL`,
  `ECONNREFUSED`, `ENETUNREACH`. -/
  | again
  /-- Any other error. -/
  | fatal
  deriving DecidableEq, Repr

/-- A descriptor. -/
abbrev Fd := ℕ

/-- A task the connector queues on its loop; `reset` is the one that drops `_channel`. -/
inductive ConnectorTask
  | start
  | stop
  | reset
  deriving DecidableEq, Repr

structure Connector where
  running : Bool
  retryDelayMs : ℕ
  state : ConnectorState
  /-- `_channel`, and its descriptor. -/
  channel : Option (Fd × Channel)
  /-- A null `_channel` was dereferenced. -/
  crashed : Bool
  deriving DecidableEq, Repr

/-- What a member function leaves behind. -/
structure ConnectorOutcome where
  connector : Connector
  queued : List ConnectorTask
  /-- The delays of the timers started. -/
  timers : List ℕ
  /-- The descriptors closed. -/
  closed : List Fd
  /-- The descriptor handed to `_newConnectionCallback`. -/
  handed : Option Fd
  deriving DecidableEq, Repr

namespace Connector

def kInitRetryDelayMs : ℕ := 500

def kMaxRetryDelayMs : ℕ := 30 * 1000

def new : Connector := ⟨false, kInitRetryDelayMs, .disconnected, none, false⟩

variable (c : Connector)

def quiet : ConnectorOutcome := ⟨c, [], [], [], none⟩

def start : ConnectorOutcome := ⟨{ c with running := true }, [.start], [], [], none⟩

def stop : ConnectorOutcome := ⟨{ c with running := false }, [.stop], [], [], none⟩

def retry (sockfd : Fd) : ConnectorOutcome :=
  if c.running then
    ⟨{ c with retryDelayMs := min (c.retryDelayMs * 2) kMaxRetryDelayMs }, [], [c.retryDelayMs],
      [sockfd], none⟩
  else ⟨c, [], [], [sockfd], none⟩

def connect (sockfd : Fd) : ConnectAnswer → ConnectorOutcome
  | .progress =>
    { c with state := .connecting, channel := some (sockfd, Channel.new.setWriteInterest) }.quiet
  | .again => c.retry sockfd
  | .fatal => ⟨c, [], [], [sockfd], none⟩

def restart (sockfd : Fd) (answer : ConnectAnswer) : ConnectorOutcome :=
  { c with retryDelayMs := kInitRetryDelayMs, running := true }.connect sockfd answer

/-- `unregisterChannel()`; no descriptor when there is no channel to dereference. -/
def unregisterChannel : Option Fd × Connector :=
  match c.channel with
  | none => (none, { c with crashed := true })
  | some (fd, ch) => (some fd, { c with channel := some (fd, ch.unsetAllInterest.remove) })

/-- `handleWrite()`; `err` says whether the socket has an error or is connected to itself. -/
def handleWrite (err : Bool) : ConnectorOutcome :=
  if c.state = .connecting then
    match c.unregisterChannel with
    | (none, c) => c.quiet
    | (some sockfd, c) =>
      if err then { c with state := .retrying }.retry sockfd
      else if c.running then ⟨{ c with state := .connected }, [.reset], [], [], some sockfd⟩
      else ⟨{ c with state := .connected }, [.reset], [], [sockfd], none⟩
  else c.quiet

def handleError : ConnectorOutcome :=
  if c.state = .connecting then
    match c.unregisterChannel with
    | (none, c) => c.quiet
    | (some sockfd, c) => { c with state := .retrying }.retry sockfd
  else c.quiet

/-- The task of `stop`. -/
def stopTask : ConnectorOutcome :=
  let (closed, c) :=
    if c.state = .connecting then c.unregisterChannel else (none, c)
  let c :=
    if c.state = .connecting ∨ c.state = .retrying then { c with channel := none } else c
  ⟨c, [], [], closed.toList, none⟩

/-- The task of `start`, and the timer of `retry`: another attempt if the connector still runs. -/
def attempt (sockfd : Fd) (answer : ConnectAnswer) : ConnectorOutcome :=
  if c.running then c.connect sockfd answer else c.quiet

/-- A queued task runs. -/
def runTask (sockfd : Fd) (answer : ConnectAnswer) : ConnectorTask → ConnectorOutcome
  | .start => c.attempt sockfd answer
  | .stop => c.stopTask
  | .reset => { c with channel := none }.quiet

/-! ## Attempts -/

/-- An attempt is under way: the poller knows the socket. -/
def polled : Bool := c.channel.any fun x => x.2.registered.isSome

/-- `1` while an attempt is under way. -/
def underWay : ℕ := if c.polled then 1 else 0

end Connector

/-- **The chances an outcome leaves**: an attempt under way, a timer or a task for another, a socket
handed on. -/
def ConnectorOutcome.chances (out : ConnectorOutcome) : ℕ :=
  out.connector.underWay + out.timers.length + out.queued.count .start + out.handed.toList.length

namespace Connector

variable (c : Connector)

/-- Trying again takes at most one chance. -/
theorem retry_spec (sockfd : Fd) :
    (c.retry sockfd).chances ≤ c.underWay + 1 ∧ (c.retry sockfd).connector.running = c.running
      ∧ (c.retry sockfd).handed = none := by
  rw [retry]
  split
  · exact ⟨le_rfl, rfl, rfl⟩
  · exact ⟨Nat.le_succ _, rfl, rfl⟩

/-- **An attempt makes one chance**, and hands nothing on. -/
theorem attempt_spec (sockfd : Fd) (answer : ConnectAnswer) :
    (c.attempt sockfd answer).chances ≤ c.underWay + 1
      ∧ (c.attempt sockfd answer).connector.running = c.running
      ∧ (c.attempt sockfd answer).handed = none := by
  rw [attempt]
  split
  · rcases answer with - | - | -
    · refine ⟨?_, rfl, rfl⟩
      show (if _ then 1 else 0) + 0 + 0 + 0 ≤ _
      split <;> omega
    · exact c.retry_spec sockfd
    · exact ⟨Nat.le_succ _, rfl, rfl⟩
  · exact ⟨Nat.le_succ _, rfl, rfl⟩

/-- Once unregistered, the socket is not under way any more. -/
theorem underWay_unregisterChannel : c.unregisterChannel.2.underWay = 0 := by
  rcases hch : c.channel with - | ⟨fd, ch⟩
  · simp [unregisterChannel, hch, underWay, polled]
  · simp [unregisterChannel, hch, underWay, polled, Channel.registered_remove_unsetAllInterest]

theorem running_unregisterChannel : c.unregisterChannel.2.running = c.running := by
  rcases hch : c.channel with - | ⟨fd, ch⟩ <;> simp [unregisterChannel, hch]

/-- `1` when the attempt is under way. -/
theorem underWay_of_polled (h : c.polled = true) : c.underWay = 1 := if_pos h

/-- **The end of an attempt leaves at most the chance it had**, and hands a socket on only while the
connector runs. -/
theorem handleWrite_spec (h : c.polled = true) (err : Bool) :
    (c.handleWrite err).chances ≤ 1 ∧ (c.handleWrite err).connector.running = c.running
      ∧ ((c.handleWrite err).handed.isSome → c.running = true) := by
  have hway := c.underWay_unregisterChannel
  have hrun := c.running_unregisterChannel
  rw [handleWrite]
  split
  · rcases hu : c.unregisterChannel with ⟨- | fd, d⟩ <;> rw [hu] at hway hrun
    · exact ⟨(congrArg (· + 0 + 0 + 0) hway).trans_le (Nat.zero_le _), hrun, fun hn => by cases hn⟩
    · dsimp only
      split
      · obtain ⟨hchances, hrunning, hhanded⟩ := retry_spec { d with state := .retrying } fd
        refine ⟨hchances.trans_eq (congrArg (· + 1) hway), hrunning.trans hrun, fun hn => ?_⟩
        rw [hhanded] at hn
        cases hn
      · split
        · rename_i hd
          exact ⟨(congrArg (· + 0 + 0 + 1) hway).le, hrun, fun _ => hrun ▸ hd⟩
        · exact ⟨(congrArg (· + 0 + 0 + 0) hway).trans_le (Nat.zero_le _), hrun, fun hn => by cases hn⟩
  · exact ⟨(c.underWay_of_polled h).le, rfl, fun hn => by cases hn⟩

theorem handleError_spec (h : c.polled = true) :
    c.handleError.chances ≤ 1 ∧ c.handleError.connector.running = c.running
      ∧ c.handleError.handed = none := by
  have hway := c.underWay_unregisterChannel
  have hrun := c.running_unregisterChannel
  rw [handleError]
  split
  · rcases hu : c.unregisterChannel with ⟨- | fd, d⟩ <;> rw [hu] at hway hrun
    · exact ⟨(congrArg (· + 0 + 0 + 0) hway).trans_le (Nat.zero_le _), hrun, rfl⟩
    · obtain ⟨hchances, hrunning, hhanded⟩ := retry_spec { d with state := .retrying } fd
      exact ⟨hchances.trans_eq (congrArg (· + 1) hway), hrunning.trans hrun, hhanded⟩
  · exact ⟨(c.underWay_of_polled h).le, rfl, rfl⟩

/-- Stopping makes none. -/
theorem stopTask_spec : c.stopTask.chances ≤ c.underWay ∧ c.stopTask.connector.running = c.running
    ∧ c.stopTask.handed = none := by
  have hrun := c.running_unregisterChannel
  by_cases hc : c.state = .connecting
  · rw [stopTask, if_pos hc]
    dsimp only
    split
    · exact ⟨Nat.zero_le _, hrun, rfl⟩
    · exact ⟨(congrArg (· + 0 + 0 + 0) c.underWay_unregisterChannel).trans_le (Nat.zero_le _), hrun, rfl⟩
  · rw [stopTask, if_neg hc]
    dsimp only
    split
    · exact ⟨Nat.zero_le _, rfl, rfl⟩
    · exact ⟨le_rfl, rfl, rfl⟩

/-- **A task takes the chance it is**, and hands nothing on. -/
theorem runTask_spec (sockfd : Fd) (answer : ConnectAnswer) (t : ConnectorTask) :
    (c.runTask sockfd answer t).chances ≤ c.underWay + [t].count .start
      ∧ (c.runTask sockfd answer t).connector.running = c.running
      ∧ (c.runTask sockfd answer t).handed = none := by
  rcases t with - | - | -
  · exact c.attempt_spec sockfd answer
  · exact c.stopTask_spec
  · exact ⟨Nat.zero_le _, rfl, rfl⟩

/-- A connector that was never started has nothing to do. -/
theorem attempt_new (sockfd : Fd) (answer : ConnectAnswer) : new.attempt sockfd answer = new.quiet := rfl

theorem runTask_new (sockfd : Fd) (answer : ConnectAnswer) (t : ConnectorTask) :
    new.runTask sockfd answer t = new.quiet := by
  rcases t with - | - | - <;> rfl

end Connector
