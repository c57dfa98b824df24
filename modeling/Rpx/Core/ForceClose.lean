import Rpx.Core.Lifecycle

/-!
# Core/ForceClose — `write()` and `forceClose()` on two threads

    loop thread    ::write, append  ▸  lock, test, unlock  ▸  setWriteInterest
    another        lock, ESTABLISHED → DISCONNECTING, unlock  ▸  queueInLoop(handleClose)

The state is tested under the lock and the interest set after it, so another thread's `forceClose()` can
come in between.  Here `write()`, `handleClose` and `forceClose()` are cut where they let go of the lock,
and each piece is a step.  The interests of the channel are changed by the loop thread alone, which
finishes its `write()` before it runs a `handleClose`; `interests_stay` is what follows.
-/

open Machinery

namespace TcpConnection

variable (c : TcpConnection)

/-! ## The pieces -/

/-- The tail of `write()` up to the unlock: the bytes are buffered, and the state is tested. -/
def bufferTail (data : Pointer) (written : ℤ) (remaining : ℕ) : Option Bool × TcpConnection :=
  if remaining > 0 then
    (some (decide (c.state = .disconnecting ∨ c.state = .disconnected)),
      { c with writeBuffer := c.writeBuffer ++ data.read written remaining })
  else (none, c)

/-- `write(data, len)` up to the unlock; no `close` when it does not get there. -/
def writeTest (data : Pointer) (len : ℕ) (junk : ℤ) (answer : WriteAnswer) : Option Bool × Outcome :=
  if !c.channel.hasWriteInterest && c.writeBuffer.isEmpty then
    match answer.result len with
    | .error .other => (none, c.quiet)
    | .error .again => ((c.bufferTail data 0 len).1, (c.bufferTail data 0 len).2.quiet)
    | .ok written =>
      let remaining := len - written
      if remaining = 0 then (none, ⟨c, data.read 0 written, c.writeCompleteTask, []⟩)
      else
        ((c.bufferTail data written remaining).1,
          ⟨(c.bufferTail data written remaining).2, data.read 0 written, [], []⟩)
  else ((c.bufferTail data junk len).1, (c.bufferTail data junk len).2.quiet)

/-- `write()` after the unlock. -/
def writeAsk (close : Bool) : TcpConnection :=
  if ¬ close ∧ ¬ c.channel.hasWriteInterest then { c with channel := c.channel.setWriteInterest } else c

/-- The locked part of `forceClose()`. -/
def forceExchange : Bool × TcpConnection :=
  if c.state = .established then (true, { c with state := .disconnecting }) else (false, c)

/-- The locked part of `handleClose()`. -/
def closeExchange : Bool × TcpConnection :=
  if c.state = .established ∨ c.state = .disconnecting then (true, { c with state := .disconnected })
  else (false, c)

/-- `handleClose()` from `unsetAllInterest()` on. -/
def closeRest : Outcome where
  conn :=
    { c with
      channel := c.channel.unsetAllInterest
      messageCallback := false
      writeCompleteCallback := false
      errorCallback := false
      closeCallback := false }
  sent := []
  queued := []
  called := if c.closeCallback then [.close] else []

/-! ## With nothing in between -/

theorem enqueue_eq_bufferTail (data : Pointer) (written : ℤ) (remaining : ℕ) :
    c.enqueue data written remaining = match c.bufferTail data written remaining with
      | (some close, d) => d.writeAsk close
      | (none, d) => d := by
  rw [enqueue, bufferTail]
  split
  · simp only [writeAsk, decide_eq_true_eq]
  · rfl

/-- **`write()` is its two pieces.** -/
theorem write_eq_writeTest (data : Pointer) (len : ℕ) (junk : ℤ) (answer : WriteAnswer) :
    (c.write data len junk answer).2 = match c.writeTest data len junk answer with
      | (some close, out) => { out with conn := out.conn.writeAsk close }
      | (none, out) => out := by
  have hquiet : ∀ written remaining, (c.enqueue data written remaining).quiet =
      match ((c.bufferTail data written remaining).1, (c.bufferTail data written remaining).2.quiet) with
      | (some close, out) => { out with conn := out.conn.writeAsk close }
      | (none, out) => out := fun written remaining => by
    rw [c.enqueue_eq_bufferTail]
    rcases c.bufferTail data written remaining with ⟨- | close, d⟩ <;> rfl
  rw [write, writeTest]
  split
  · rcases answer.result len with (- | -) | n
    · exact hquiet 0 len
    · rfl
    · dsimp only
      split
      · rfl
      · rw [c.enqueue_eq_bufferTail]
        rcases c.bufferTail data n (len - n) with ⟨- | close, d⟩ <;> rfl
  · exact hquiet junk len

/-- **`handleClose()` is its two pieces.** -/
theorem handleClose_eq_closeExchange :
    c.handleClose = if c.closeExchange.1 then c.closeExchange.2.closeRest else c.closeExchange.2.quiet := by
  rw [handleClose, closeExchange]
  split <;> rfl

/-- **`forceClose()` is its locked part**, and a task if that changed the state. -/
theorem forceClose_eq_forceExchange :
    c.forceClose = ⟨c.forceExchange.2, [], if c.forceExchange.1 then [.handleClose] else [], []⟩ := by
  rw [forceClose, forceExchange]
  split <;> rfl

end TcpConnection

/-! ## Two threads -/

/-- Where the loop thread is. -/
inductive Midway
  | idle
  /-- In `write()`, after the unlock, with what the test said of `close`. -/
  | writing (close : Bool)
  /-- In `handleClose()`, after the unlock. -/
  | closing
  deriving DecidableEq

/-- A task of the loop. -/
inductive RaceTask
  | conn (t : ConnTask)
  /-- The task that the close callback of the owner queues. -/
  | connectDestroyed
  deriving DecidableEq

/-- A connection, its loop thread, and the threads that call its `forceClose()`. -/
structure Race where
  conn : TcpConnection
  tasks : List RaceTask
  /-- What is left of the dispatch in progress. -/
  handlers : List Handler
  midway : Midway
  /-- How many `forceClose()` calls have changed the state and have yet to queue their task. -/
  forcing : ℕ
  /-- `handleClose()` has executed `unsetAllInterest()`. -/
  unset : Bool

/-- A step of one of the threads. -/
inductive RaceEvent
  | forceExchange
  | forcePush
  /-- The loop thread calls `write()`. -/
  | write (data : Pointer) (len : ℕ) (junk : ℤ) (answer : WriteAnswer)
  /-- The loop thread goes on after the unlock. -/
  | goOn
  | dispatch (events : EpollMask)
  | handler (read : ReadAnswer) (write : WriteAnswer)
  | runTask

namespace Race

/-- A connection that has been established. -/
def start (conn : TcpConnection) : Race := ⟨conn.connectEstablished, [], [], .idle, 0, false⟩

variable (x : Race)

/-- What a member function leaves behind; the close callback queues the task of its owner. -/
def after (out : Outcome) : Race :=
  { x with
    conn := out.conn
    tasks := x.tasks ++ out.queued.map .conn
      ++ if Callback.close ∈ out.called then [.connectDestroyed] else [] }

/-- `handleClose()` up to the unlock. -/
def beginClose : Race :=
  let (exchanged, c) := x.conn.closeExchange
  if exchanged then { x with conn := c, midway := .closing } else x

/-- A handler is called. -/
def handle (read : ReadAnswer) (write : WriteAnswer) : Handler → Race
  | .close => x.beginClose
  | .read => if read = .reads [] then x.beginClose else x.after (x.conn.handleRead read)
  | h => x.after (x.conn.handle read write h)

def runTask : RaceTask → Race
  | .conn .handleClose => x.beginClose
  | .conn t => x.after (x.conn.runTask t)
  | .connectDestroyed => { x with conn := x.conn.connectDestroyed }

def perform : RaceEvent → Race
  | .forceExchange =>
    let (exchanged, c) := x.conn.forceExchange
    if exchanged then { x with conn := c, forcing := x.forcing + 1 } else x
  | .forcePush =>
    if 0 < x.forcing then
      { x with forcing := x.forcing - 1, tasks := x.tasks ++ [.conn .handleClose] }
    else x
  | .write data len junk answer =>
    if x.midway = .idle then
      let (close, out) := x.conn.writeTest data len junk answer
      { x.after out with midway := close.elim .idle .writing }
    else x
  | .goOn =>
    match x.midway with
    | .idle => x
    | .writing close => { x with conn := x.conn.writeAsk close, midway := .idle }
    | .closing => { x.after x.conn.closeRest with midway := .idle, unset := true }
  | .dispatch events =>
    if x.midway = .idle ∧ x.handlers = [] ∧ x.conn.channel.registered.isSome then
      { x with
        conn := { x.conn with channel := x.conn.channel.setEvents events }
        handlers := events.handlers }
    else x
  | .handler read write =>
    match x.midway, x.handlers with
    | .idle, h :: rest => { x with handlers := rest }.handle read write h
    | _, _ => x
  | .runTask =>
    match x.midway, x.handlers, x.tasks with
    | .idle, [], t :: rest => { x with tasks := rest }.runTask t
    | _, _, _ => x

/-- One step; a process that has ended takes none. -/
def step (e : RaceEvent) : Race := if x.conn.channel.aborted then x else x.perform e

/-- **What holds whatever the threads do.** -/
structure Raced (x : Race) : Prop where
  consistent : x.conn.channel.Consistent
  running : x.conn.channel.aborted = false
  unset : x.unset = true → x.conn.channel.interests = .none
  /-- Only a `handleClose()` moves the state to `DISCONNECTED`. -/
  closed : x.conn.state = .disconnected ↔ x.unset = true ∨ x.midway = .closing
  /-- A `write()` that found the connection open is finished before any `handleClose()`. -/
  asking : x.midway = .writing false → x.conn.state ≠ .disconnected
  /-- `connectDestroyed()` is queued by a close. -/
  queued : .connectDestroyed ∈ x.tasks → x.unset = true

variable {x}

/-! ## Every step -/

/-- The output buffer and the pieces of `write()` before the unlock change no channel and no state. -/
theorem writeTest_spec (c : TcpConnection) (data : Pointer) (len : ℕ) (junk : ℤ) (answer : WriteAnswer) :
    (c.writeTest data len junk answer).2.conn.channel = c.channel
      ∧ (c.writeTest data len junk answer).2.conn.state = c.state
      ∧ (c.writeTest data len junk answer).2.called = []
      ∧ ((c.writeTest data len junk answer).1 = some false → c.state ≠ .disconnected) := by
  have htail : ∀ written remaining, (c.bufferTail data written remaining).2.channel = c.channel
      ∧ (c.bufferTail data written remaining).2.state = c.state
      ∧ ((c.bufferTail data written remaining).1 = some false → c.state ≠ .disconnected) :=
    fun written remaining => by
      rw [TcpConnection.bufferTail]
      split
      · exact ⟨rfl, rfl, fun h hstate => by simp [hstate] at h⟩
      · exact ⟨rfl, rfl, fun h => by cases h⟩
  rw [TcpConnection.writeTest]
  split
  · rcases answer.result len with (- | -) | n
    · obtain ⟨hchannel, hstate, htest⟩ := htail 0 len
      exact ⟨hchannel, hstate, rfl, htest⟩
    · exact ⟨rfl, rfl, rfl, fun h => by cases h⟩
    · dsimp only
      split
      · exact ⟨rfl, rfl, rfl, fun h => by cases h⟩
      · obtain ⟨hchannel, hstate, htest⟩ := htail n (len - n)
        exact ⟨hchannel, hstate, rfl, htest⟩
  · obtain ⟨hchannel, hstate, htest⟩ := htail junk len
    exact ⟨hchannel, hstate, rfl, htest⟩

/-- A step that changes neither channel, nor state, nor what is closed. -/
theorem Raced.of_same (h : x.Raced) {y : Race} (hchannel : y.conn.channel = x.conn.channel)
    (hstate : y.conn.state = x.conn.state) (hunset : y.unset = x.unset) (hidle : x.midway = .idle)
    (hmidway : y.midway = .idle ∨ ∃ close, y.midway = .writing close
      ∧ (close = false → x.conn.state ≠ .disconnected))
    (htasks : .connectDestroyed ∈ y.tasks → .connectDestroyed ∈ x.tasks) : y.Raced := by
  refine ⟨hchannel ▸ h.consistent, hchannel ▸ h.running, fun hy => ?_, ?_, fun hy => ?_,
    fun hy => hunset.trans (h.queued (htasks hy))⟩
  · rw [hchannel]
    exact h.unset (hunset.symm.trans hy)
  · have hclosed := h.closed
    rw [hidle, or_iff_left (by simp)] at hclosed
    rw [hstate, hclosed, hunset]
    rcases hmidway with hmid | ⟨close, hmid, -⟩ <;> simp [hmid]
  · rw [hstate]
    rcases hmidway with hmid | ⟨close, hmid, htest⟩
    · rw [hmid] at hy
      cases hy
    · rw [hmid] at hy
      exact htest (Midway.writing.inj hy)

/-- A call that closes nothing queues no `connectDestroyed()`. -/
theorem mem_tasks_after {out : Outcome} (hcalled : .close ∉ out.called)
    (hmem : .connectDestroyed ∈ (x.after out).tasks) : .connectDestroyed ∈ x.tasks := by
  have htasks : (x.after out).tasks = x.tasks ++ out.queued.map .conn := by
    rw [Race.after, if_neg hcalled, List.append_nil]
  rw [htasks] at hmem
  simpa using hmem

/-- What a member function that closes nothing leaves behind. -/
theorem Raced.after (h : x.Raced) (hidle : x.midway = .idle) {out : Outcome}
    (hchannel : out.conn.channel = x.conn.channel) (hstate : out.conn.state = x.conn.state)
    (hcalled : .close ∉ out.called) : (x.after out).Raced :=
  h.of_same hchannel hstate rfl hidle (.inl hidle) (mem_tasks_after hcalled)

/-- **`handleClose()` changes the state.** -/
theorem Raced.beginClose (h : x.Raced) : x.beginClose.Raced := by
  rw [Race.beginClose, TcpConnection.closeExchange]
  by_cases hopen : x.conn.state = .established ∨ x.conn.state = .disconnecting
  · rw [if_pos hopen]
    exact ⟨h.consistent, h.running, h.unset, iff_of_true rfl (.inr rfl), (fun hm => by cases hm),
      h.queued⟩
  · rw [if_neg hopen]
    exact h

/-- The other interests are applied. -/
theorem Raced.interests (h : x.Raced) {y : Race} {m : EpollMask}
    (hchannel : y.conn.channel = Channel.applyInterest { x.conn.channel with interests := m })
    (hstate : y.conn.state = x.conn.state) (hm : x.unset = true → m = .none)
    (hunset : y.unset = x.unset) (hmidway : y.midway = .idle) (hopen : x.midway ≠ .closing)
    (htasks : .connectDestroyed ∈ y.tasks → .connectDestroyed ∈ x.tasks) : y.Raced := by
  have hknown : Channel.Known { x.conn.channel with interests := m } := h.consistent.known
  obtain ⟨hconsistent, habort⟩ := hknown.applyInterest
  refine ⟨hchannel ▸ hconsistent, ?_, fun hy => ?_, ?_, fun hy => ?_,
    fun hy => hunset.trans (h.queued (htasks hy))⟩
  · rw [hchannel, habort]
    exact h.running
  · rw [hchannel, Channel.interests_applyInterest]
    exact hm (hunset.symm.trans hy)
  · have hclosed := h.closed
    rw [or_iff_left hopen] at hclosed
    rw [hstate, hclosed, hunset, hmidway]
    simp
  · rw [hmidway] at hy
    cases hy

/-- An error closes nothing. -/
theorem not_mem_handleError (c : TcpConnection) : .close ∉ c.handleError.called := by
  rw [TcpConnection.handleError]
  dsimp only
  split <;> simp

/-- **`handleWrite`** gives up write interest at most. -/
theorem Raced.handleWrite (h : x.Raced) (hidle : x.midway = .idle) (answer : WriteAnswer) :
    (x.after (x.conn.handleWrite answer)).Raced := by
  have hcalled : .close ∉ (x.conn.handleWrite answer).called := by
    rw [TcpConnection.handleWrite]
    split
    · rcases answer.result x.conn.writeBuffer.length with (- | -) | n
      · exact List.not_mem_nil
      · exact not_mem_handleError x.conn
      · dsimp only
        split <;> exact List.not_mem_nil
    · exact List.not_mem_nil
  have hstate : (x.conn.handleWrite answer).conn.state = x.conn.state :=
    (x.conn.handleWrite_outputOnly answer).state
  have hchannel : (x.conn.handleWrite answer).conn.channel = x.conn.channel
      ∨ (x.conn.handleWrite answer).conn.channel = x.conn.channel.unsetWriteInterest := by
    rw [TcpConnection.handleWrite]
    split
    · rcases answer.result x.conn.writeBuffer.length with (- | -) | n
      · exact .inl rfl
      · exact .inl rfl
      · dsimp only
        split
        · exact .inr rfl
        · exact .inl rfl
    · exact .inl rfl
  rcases hchannel with hsame | hunset
  · exact h.after hidle hsame hstate hcalled
  · refine h.interests hunset hstate (fun hu => ?_) rfl hidle (by simp [hidle]) (mem_tasks_after hcalled)
    rw [h.unset hu]
    rfl

theorem Raced.handle (h : x.Raced) (hidle : x.midway = .idle) (read : ReadAnswer) (write : WriteAnswer)
    (hd : Handler) : (x.handle read write hd).Raced := by
  cases hd with
  | close => exact h.beginClose
  | error => exact h.after hidle rfl rfl (not_mem_handleError x.conn)
  | read =>
    rw [Race.handle]
    rcases read with (- | ⟨b, bs⟩) | e
    · rw [if_pos rfl]
      exact h.beginClose
    · rw [if_neg (by simp)]
      refine h.after hidle rfl rfl ?_
      rw [x.conn.handleRead_reads (List.cons_ne_nil b bs)]
      dsimp only
      split <;> simp
    · rw [if_neg (by simp)]
      cases e with
      | again => exact h.after hidle rfl rfl List.not_mem_nil
      | other => exact h.after hidle rfl rfl (not_mem_handleError x.conn)
  | write => exact h.handleWrite hidle write

/-- `connectDestroyed()` finds nothing to take back, and its assertion holds. -/
theorem Raced.connectDestroyed (h : x.Raced) (hunset : x.unset = true) (hidle : x.midway = .idle) :
    Raced { x with conn := x.conn.connectDestroyed } := by
  have hclosed : x.conn.state = .disconnected := h.closed.mpr (.inl hunset)
  have hnone := h.unset hunset
  obtain ⟨hconsistent, habort⟩ := h.consistent.remove
  have hconn : x.conn.connectDestroyed = { x.conn with channel := x.conn.channel.remove } := by
    rw [TcpConnection.connectDestroyed, if_neg (by simp [hclosed])]
  rw [hconn]
  refine ⟨hconsistent, ?_, fun _ => (Channel.interests_remove _).trans hnone, h.closed, fun hm => ?_,
    h.queued⟩
  · show x.conn.channel.remove.aborted = false
    rw [habort, h.running, Channel.hasNoneInterest, hnone]
    rfl
  · rw [show x.midway = .idle from hidle] at hm
    cases hm

theorem Raced.runTask (h : x.Raced) (hidle : x.midway = .idle) {t : RaceTask}
    (ht : t = .connectDestroyed → x.unset = true) : (x.runTask t).Raced := by
  cases t with
  | conn t =>
    cases t with
    | writeComplete =>
      refine h.after hidle rfl rfl ?_
      rw [TcpConnection.runTask]
      dsimp only
      split <;> simp
    | handleClose => exact h.beginClose
    | shutdownWrite => exact h.after hidle rfl rfl List.not_mem_nil
  | connectDestroyed => exact h.connectDestroyed (ht rfl) hidle

/-- **The loop thread goes on after an unlock.** -/
theorem Raced.goOn (h : x.Raced) : (x.perform .goOn).Raced := by
  rw [perform]
  split
  · exact h
  · rename_i close hmidway
    have hopen : x.midway ≠ .closing := by simp [hmidway]
    have hclosed := h.closed
    rw [or_iff_left hopen] at hclosed
    rw [TcpConnection.writeAsk]
    split
    · rename_i hasks
      obtain rfl : close = false := Bool.not_eq_true _ ▸ hasks.1
      refine h.interests rfl rfl (fun hu => ?_) rfl rfl hopen id
      exact absurd (hclosed.mpr hu) (h.asking hmidway)
    · refine ⟨h.consistent, h.running, h.unset, ?_, (fun hm => by cases hm), h.queued⟩
      show x.conn.state = .disconnected ↔ x.unset = true ∨ Midway.idle = .closing
      rw [hclosed]
      simp
  · rename_i hmidway
    have hknown : Channel.Known { x.conn.channel with interests := .none } := h.consistent.known
    obtain ⟨hconsistent, habort⟩ := hknown.applyInterest
    refine ⟨hconsistent, habort.trans h.running, fun _ => Channel.interests_unsetAllInterest _,
      iff_of_true (h.closed.mpr (.inr hmidway)) (.inl rfl), (fun hm => by cases hm), fun _ => rfl⟩

theorem Raced.step (h : x.Raced) (e : RaceEvent) : (x.step e).Raced := by
  rw [Race.step, h.running]
  show (x.perform e).Raced
  cases e with
  | forceExchange =>
    rw [perform, TcpConnection.forceExchange]
    by_cases hstate : x.conn.state = .established
    · rw [if_pos hstate]
      have hclosed : ¬ (x.unset = true ∨ x.midway = .closing) :=
        fun hc => by rw [h.closed.mpr hc] at hstate; cases hstate
      exact ⟨h.consistent, h.running, h.unset, iff_of_false (by simp) hclosed, (fun _ => by simp),
        h.queued⟩
    · rw [if_neg hstate]
      exact h
  | forcePush =>
    rw [perform]
    split
    · refine ⟨h.consistent, h.running, h.unset, h.closed, h.asking, fun hmem => h.queued ?_⟩
      simpa using hmem
    · exact h
  | write data len junk answer =>
    rw [perform]
    split
    · rename_i hidle
      obtain ⟨hchannel, hstate, hcalled, htest⟩ := writeTest_spec x.conn data len junk answer
      refine h.of_same hchannel hstate rfl hidle ?_ (mem_tasks_after (hcalled ▸ List.not_mem_nil))
      rcases hclose : (x.conn.writeTest data len junk answer).1 with - | close
      · exact .inl (by simp [hclose])
      · refine .inr ⟨close, by simp [hclose], fun hfalse => htest ?_⟩
        rw [hclose, hfalse]
    · exact h
  | goOn => exact h.goOn
  | dispatch events =>
    rw [perform]
    split
    · exact ⟨h.consistent, h.running, h.unset, h.closed, h.asking, h.queued⟩
    · exact h
  | handler read write =>
    rw [perform]
    split
    · rename_i hd rest hidle _
      have hrest : Raced { x with handlers := rest } :=
        ⟨h.consistent, h.running, h.unset, h.closed, h.asking, h.queued⟩
      exact hrest.handle hidle read write hd
    · exact h
  | runTask =>
    rw [perform]
    split
    · rename_i t rest hidle _ htasks
      have hrest : Raced { x with tasks := rest } :=
        ⟨h.consistent, h.running, h.unset, h.closed, h.asking,
          fun hmem => h.queued (htasks ▸ List.mem_cons_of_mem t hmem)⟩
      exact hrest.runTask hidle fun ht => h.queued (by rw [htasks, ht]; exact List.mem_cons_self)
    · exact h

/-! ## Runs -/

/-- What has been executed has been executed. -/
theorem unset_step (x : Race) (hx : x.unset = true) (e : RaceEvent) : (x.step e).unset = true := by
  have hbegin : ∀ y : Race, y.beginClose.unset = y.unset := fun y => by
    rw [beginClose]
    dsimp only
    split <;> rfl
  have hhandle : ∀ (y : Race) read write hd, (y.handle read write hd).unset = y.unset := by
    intro y read write hd
    cases hd with
    | close => exact hbegin y
    | read =>
      rw [Race.handle]
      split
      · exact hbegin y
      · rfl
    | _ => rfl
  have htask : ∀ (y : Race) t, (y.runTask t).unset = y.unset := by
    intro y t
    cases t with
    | conn t =>
      cases t with
      | handleClose => exact hbegin y
      | _ => rfl
    | connectDestroyed => rfl
  rw [step]
  split
  · exact hx
  · cases e with
    | forceExchange =>
      rw [perform]
      dsimp only
      split <;> exact hx
    | handler read write =>
      rw [perform]
      split
      · exact (hhandle _ _ _ _).trans hx
      · exact hx
    | runTask =>
      rw [perform]
      split
      · exact (htask _ _).trans hx
      · exact hx
    | _ =>
      rw [perform]
      split <;> first | exact hx | rfl

theorem raced_start (message writeComplete close error : Bool) :
    (start (.new message writeComplete close error)).Raced :=
  ⟨rfl, rfl, (fun h => by cases h), by simp [start, TcpConnection.connectEstablished],
    (fun h => by cases h), fun h => absurd h List.not_mem_nil⟩

/-- **The unlocked check of `write()` is harmless.**  Once `handleClose()` has executed
`unsetAllInterest()` the interests stay empty, and no assertion ever fails: in particular the one of
`Channel::remove`, when the `connectDestroyed()` of that close runs. -/
theorem interests_stay (message writeComplete close error : Bool) (es fs : List RaceEvent) :
    let x := run step (start (.new message writeComplete close error)) es
    let y := run step x fs
    (x.unset = true → y.conn.channel.interests = .none)
      ∧ y.conn.channel.aborted = false
      ∧ ∀ rest, y.tasks = .connectDestroyed :: rest → y.conn.channel.hasNoneInterest = true := by
  intro x y
  have hx : x.Raced := inv_run (fun _ e h _ => h.step e) (raced_start _ _ _ _) (meets_true _ es)
  have hy : y.Raced := inv_run (fun _ e h _ => h.step e) hx (meets_true _ fs)
  refine ⟨fun hunset => hy.unset ?_, hy.running, fun rest htasks => beq_iff_eq.mpr (hy.unset ?_)⟩
  · exact @inv_run _ _ step (fun _ _ => True) (fun z => z.unset = true)
      (fun z e hz _ => unset_step z hz e) x hunset fs (meets_true _ fs)
  · exact hy.queued (htasks ▸ List.mem_cons_self)

end Race
