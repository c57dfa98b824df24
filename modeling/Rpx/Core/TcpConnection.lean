import Rpx.Core.Bytes
import Rpx.Core.Channel

/-!
# Core/TcpConnection — one connection, call by call

Each member function maps the connection it is called on, and the kernel's answer to the system call
it makes, to an `Outcome`: the connection afterwards, the bytes the kernel took, the tasks queued on
the loop and the user callbacks run.  A callback slot is only known to be set or empty; what its
function does is up to whoever set it.  The two stream buffers are ideal byte queues.
-/

/-- `StateE`. -/
inductive StateE
  | connecting
  | established
  | disconnecting
  | disconnected
  deriving DecidableEq, Repr

/-- `errno` after a failed call; `EAGAIN` and `EWOULDBLOCK` are one value on Linux. -/
inductive Errno
  | again
  | other
  deriving DecidableEq, Repr

/-- The kernel's answer to a `::write`: it has room for some bytes, or it fails. -/
inductive WriteAnswer
  | takes (room : ℕ)
  | fails (e : Errno)
  deriving DecidableEq, Repr

/-- `::write(fd, data, len)`: how many bytes were taken. -/
def WriteAnswer.result (a : WriteAnswer) (len : ℕ) : Except Errno ℕ :=
  match a with
  | .takes room => .ok (min room len)
  | .fails e => .error e

/-- The kernel's answer to the `readv` of `readFd`; no bytes is the end of the stream. -/
inductive ReadAnswer
  | reads (bs : Bytes)
  | fails (e : Errno)
  deriving DecidableEq, Repr

/-- A task a connection queues on its loop. -/
inductive ConnTask
  | writeComplete
  | handleClose
  | shutdownWrite
  deriving DecidableEq, Repr

/-- A user callback. -/
inductive Callback
  | message
  | writeComplete
  | close
  | error
  deriving DecidableEq, Repr

structure TcpConnection where
  state : StateE
  channel : Channel
  readBuffer : Bytes
  writeBuffer : Bytes
  /-- `_socket.shutdownWrite()` has been called. -/
  writeShut : Bool
  messageCallback : Bool
  writeCompleteCallback : Bool
  closeCallback : Bool
  errorCallback : Bool
  deriving DecidableEq, Repr

/-- What a member function leaves behind. -/
structure Outcome where
  conn : TcpConnection
  /-- The bytes the kernel took. -/
  sent : Bytes
  /-- `_loop->queueInLoop`. -/
  queued : List ConnTask
  /-- The user callbacks run. -/
  called : List Callback
  deriving DecidableEq, Repr

namespace TcpConnection

/-- `TcpConnection(loop, sockfd, peerAddr)`, with the callbacks its owner sets. -/
def new (message writeComplete close error : Bool) : TcpConnection where
  state := .connecting
  channel := .new
  readBuffer := []
  writeBuffer := []
  writeShut := false
  messageCallback := message
  writeCompleteCallback := writeComplete
  closeCallback := close
  errorCallback := error

variable (c : TcpConnection)

/-- Nothing happened but a change of the connection. -/
def quiet : Outcome := ⟨c, [], [], []⟩

/-- Output is pending: `write()` must queue behind it. -/
def pending : Bool := c.channel.hasWriteInterest || !c.writeBuffer.isEmpty

/-! ## Writing -/

/-- The tail of `write()`: the `remaining` bytes at `data + written` go to the output buffer. -/
def enqueue (data : Pointer) (written : ℤ) (remaining : ℕ) : TcpConnection :=
  if remaining > 0 then
    let c := { c with writeBuffer := c.writeBuffer ++ data.read written remaining }
    let close := c.state = .disconnecting ∨ c.state = .disconnected
    if ¬ close ∧ ¬ c.channel.hasWriteInterest then
      { c with channel := c.channel.setWriteInterest }
    else c
  else c

@[simp] theorem writeBuffer_enqueue (data : Pointer) (written : ℤ) (remaining : ℕ) :
    (c.enqueue data written remaining).writeBuffer
      = c.writeBuffer ++ data.read written remaining := by
  unfold enqueue
  split
  · dsimp only
    split <;> rfl
  · have h : remaining = 0 := by omega
    simp [h]

/-- The task queued once the kernel has everything. -/
def writeCompleteTask : List ConnTask := if c.writeCompleteCallback then [.writeComplete] else []

/-- `write(data, len)`; `junk` is what the uninitialised `written` happens to hold. -/
def write (data : Pointer) (len : ℕ) (junk : ℤ) (answer : WriteAnswer) : ℤ × Outcome :=
  if !c.channel.hasWriteInterest && c.writeBuffer.isEmpty then
    match answer.result len with
    | .error .other => (-1, c.quiet)
    | .error .again => (toInt len, (c.enqueue data 0 len).quiet)
    | .ok written =>
      let remaining := len - written
      if remaining = 0 then
        (toInt len, ⟨c, data.read 0 written, c.writeCompleteTask, []⟩)
      else
        (toInt len, ⟨c.enqueue data written remaining, data.read 0 written, [], []⟩)
  else
    (toInt len, (c.enqueue data junk len).quiet)

theorem not_pending_iff : c.pending = false ↔ c.channel.hasWriteInterest = false ∧
    c.writeBuffer = [] := by
  simp [pending]

/-- **Behind pending output**, `write()` buffers `len` bytes at wherever `written` points. -/
theorem write_of_pending (h : c.pending = true) (data : Pointer) (len : ℕ) (junk : ℤ)
    (answer : WriteAnswer) :
    c.write data len junk answer = (toInt len, (c.enqueue data junk len).quiet) := by
  have hpath : (!c.channel.hasWriteInterest && c.writeBuffer.isEmpty) = false := by
    simpa [pending, or_iff_not_imp_left] using h
  simp [write, hpath]

/-- **With nothing pending**, `write()` asks the kernel first. -/
theorem write_of_not_pending (h : c.pending = false) (data : Pointer) (len : ℕ) (junk : ℤ)
    (answer : WriteAnswer) :
    c.write data len junk answer = match answer.result len with
      | .error .other => (-1, c.quiet)
      | .error .again => (toInt len, (c.enqueue data 0 len).quiet)
      | .ok written =>
        if len - written = 0 then (toInt len, ⟨c, data.read 0 written, c.writeCompleteTask, []⟩)
        else (toInt len, ⟨c.enqueue data written (len - written), data.read 0 written, [], []⟩) := by
  have hpath := c.not_pending_iff.mp h
  simp [write, hpath]

/-- `shutdown()`: at once in the loop thread, a task from any other. -/
def shutdown (inLoop : Bool) : Outcome :=
  if inLoop then { c with writeShut := true }.quiet else ⟨c, [], [.shutdownWrite], []⟩

/-! ## The life cycle -/

def forceClose : Outcome :=
  if c.state = .established then
    ⟨{ c with state := .disconnecting }, [], [.handleClose], []⟩
  else c.quiet

/-- `connectEstablished()`, with its assertion. -/
def connectEstablished : TcpConnection :=
  { c with
    state := .established
    channel := { c.channel with
      aborted := c.channel.aborted || !(c.state == StateE.connecting) }.setReadInterest }

/-- A connection as its owner leaves it once established, every callback set. -/
def opened : TcpConnection := (new true true true true).connectEstablished

def connectDestroyed : TcpConnection :=
  let c :=
    if c.state = .established then
      { c with state := .disconnected, channel := c.channel.unsetAllInterest }
    else c
  { c with channel := c.channel.remove }

/-! ## Events -/

def handleError : Outcome := ⟨c, [], [], if c.errorCallback then [.error] else []⟩

def handleClose : Outcome :=
  if c.state = .established ∨ c.state = .disconnecting then
    { conn :=
        { c with
          state := .disconnected
          channel := c.channel.unsetAllInterest
          messageCallback := false
          writeCompleteCallback := false
          errorCallback := false
          closeCallback := false }
      sent := []
      queued := []
      called := if c.closeCallback then [.close] else [] }
  else c.quiet

def handleRead (answer : ReadAnswer) : Outcome :=
  match answer with
  | .fails .again => c.quiet
  | .fails .other => c.handleError
  | .reads [] => c.handleClose
  | .reads bs =>
    ⟨{ c with readBuffer := c.readBuffer ++ bs }, [], [],
      if c.messageCallback then [.message] else []⟩

def handleWrite (answer : WriteAnswer) : Outcome :=
  if c.channel.hasWriteEvent then
    match answer.result c.writeBuffer.length with
    | .error .again => c.quiet
    | .error .other => c.handleError
    | .ok n =>
      let sent := c.writeBuffer.take n
      let c := { c with writeBuffer := c.writeBuffer.drop n }
      if c.writeBuffer.isEmpty then
        ⟨{ c with channel := c.channel.unsetWriteInterest }, sent, c.writeCompleteTask, []⟩
      else ⟨c, sent, [], []⟩
  else c.quiet

/-- A queued task runs. -/
def runTask : ConnTask → Outcome
  | .writeComplete => ⟨c, [], [], if c.writeCompleteCallback then [.writeComplete] else []⟩
  | .handleClose => c.handleClose
  | .shutdownWrite => { c with writeShut := true }.quiet

/-! ## What a call leaves as it was -/

/-- The callbacks of a connection. -/
def callbacks : Bool × Bool × Bool × Bool :=
  (c.messageCallback, c.writeCompleteCallback, c.closeCallback, c.errorCallback)

theorem callbacks_forceClose : c.forceClose.conn.callbacks = c.callbacks := by
  rw [forceClose]
  split <;> rfl

theorem callbacks_connectDestroyed : c.connectDestroyed.callbacks = c.callbacks := by
  rw [connectDestroyed]
  split <;> rfl

/-- `forceClose()` leaves the output where it is, and runs no callback. -/
theorem writeBuffer_forceClose : c.forceClose.conn.writeBuffer = c.writeBuffer := by
  rw [forceClose]
  split <;> rfl

theorem called_forceClose : c.forceClose.called = [] := by
  rw [forceClose]
  split <;> rfl

/-- So does `handleClose()` with the output; it hands nothing over and queues nothing. -/
theorem writeBuffer_handleClose : c.handleClose.conn.writeBuffer = c.writeBuffer := by
  rw [handleClose]
  split <;> rfl

theorem sent_handleClose : c.handleClose.sent = [] := by
  rw [handleClose]
  split <;> rfl

theorem queued_handleClose : c.handleClose.queued = [] := by
  rw [handleClose]
  split <;> rfl

/-- What has been read, and whether more is wanted. -/
def input : Bytes × Bool := (c.readBuffer, c.channel.hasReadInterest)

/-- All that output does not touch. -/
def frame : StateE × (Bool × Bool × Bool × Bool) × Bytes × Bool := (c.state, c.callbacks, c.input)

theorem frame_enqueue (data : Pointer) (written : ℤ) (remaining : ℕ) :
    (c.enqueue data written remaining).frame = c.frame := by
  unfold enqueue
  split
  · dsimp only
    split
    · simp [frame, callbacks, input]
    · rfl
  · rfl

/-- **Output only**: nothing else changes, and the only task is the write-complete one. -/
structure OutputOnly (out : Outcome) : Prop where
  frame : out.conn.frame = c.frame
  queued : ∀ t ∈ out.queued, t = .writeComplete

namespace OutputOnly

variable {c} {out : Outcome}

theorem of_frame (h : out.conn.frame = c.frame) (hqueued : out.queued = []) : c.OutputOnly out :=
  ⟨h, fun _ ht => absurd (hqueued ▸ ht) List.not_mem_nil⟩

theorem of_complete (h : out.conn.frame = c.frame) (hqueued : out.queued = c.writeCompleteTask) :
    c.OutputOnly out := by
  refine ⟨h, fun t ht => ?_⟩
  rw [hqueued, writeCompleteTask] at ht
  split at ht
  · exact List.mem_singleton.mp ht
  · exact absurd ht List.not_mem_nil

theorem state (h : c.OutputOnly out) : out.conn.state = c.state := congrArg (·.1) h.frame

theorem callbacks (h : c.OutputOnly out) : out.conn.callbacks = c.callbacks :=
  congrArg (·.2.1) h.frame

theorem input (h : c.OutputOnly out) : out.conn.input = c.input := congrArg (·.2.2) h.frame

end OutputOnly

/-- `write()` closes nothing, reads nothing and sets no callback. -/
theorem write_outputOnly (data : Pointer) (len : ℕ) (junk : ℤ) (answer : WriteAnswer) :
    c.OutputOnly (c.write data len junk answer).2 := by
  by_cases hp : c.pending = true
  · rw [c.write_of_pending hp]
    exact .of_frame (c.frame_enqueue data junk len) rfl
  · rw [c.write_of_not_pending (Bool.not_eq_true _ ▸ hp)]
    rcases answer.result len with (- | -) | n
    · exact .of_frame (c.frame_enqueue data 0 len) rfl
    · exact .of_frame rfl rfl
    · dsimp only
      split
      · exact .of_complete rfl rfl
      · exact .of_frame (c.frame_enqueue data n _) rfl

/-- Nor does `handleWrite()`. -/
theorem handleWrite_outputOnly (answer : WriteAnswer) : c.OutputOnly (c.handleWrite answer) := by
  rw [handleWrite]
  split
  · rcases answer.result c.writeBuffer.length with (- | -) | n
    · exact .of_frame rfl rfl
    · exact .of_frame rfl rfl
    · dsimp only
      split
      · refine .of_complete ?_ rfl
        simp [frame, callbacks, input]
      · exact .of_frame rfl rfl
  · exact .of_frame rfl rfl

theorem input_forceClose : c.forceClose.conn.input = c.input := by
  rw [forceClose]
  split <;> rfl

/-- Bytes read call the message callback, if any. -/
theorem handleRead_reads {bs : Bytes} (h : bs ≠ []) :
    c.handleRead (.reads bs) = ⟨{ c with readBuffer := c.readBuffer ++ bs }, [], [],
      if c.messageCallback then [.message] else []⟩ := by
  rcases bs with - | ⟨b, bs⟩
  · exact absurd rfl h
  · rfl

/-- **`handleClose` runs the close callback at most once**, and clears the callbacks when it does. -/
theorem handleClose_cases :
    (c.closeCallback = true ∧ c.handleClose.called = [.close]
        ∧ c.handleClose.conn.callbacks = (false, false, false, false))
      ∨ c.handleClose.called = [] ∧ c.handleClose.conn.closeCallback = c.closeCallback
        ∧ (c.handleClose.conn.messageCallback = true → c.messageCallback = true) := by
  rw [handleClose]
  split
  · rcases hc : c.closeCallback with - | -
    · exact .inr ⟨rfl, rfl, fun h => by cases h⟩
    · exact .inl ⟨rfl, rfl, rfl⟩
  · exact .inr ⟨rfl, rfl, id⟩

end TcpConnection
