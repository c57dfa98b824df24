import Rpx.Core.TcpConnection
import Rpx.Machinery.Run

/-!
# Core/Lifecycle — a connection from its first event to its last

    CONNECTING ──▶ ESTABLISHED ──▶ DISCONNECTING ──▶ DISCONNECTED

One dispatch of `handleEventGuarded` calls up to four handlers; each is a step of its own, so that
what a user callback does, and what another thread does meanwhile, comes between two of them.  Tasks
and new dispatches wait until the dispatch is over, and the poller reports only descriptors that the
kernel's epoll set holds.  A failed assertion ends the process.

* `life_run` — the state only moves forward, the close callback runs at most once, and no callback
  runs after it.
* `intact_iff_settled` — `connectDestroyed` finds interests only between a `forceClose()` and the
  `handleClose` it queues.
-/

open Machinery

/-- The callbacks of a channel. -/
inductive Handler
  | close
  | error
  | read
  | write
  deriving DecidableEq, Repr

/-- The handlers that `handleEventGuarded` calls, in its order. -/
def EpollMask.handlers (events : EpollMask) : List Handler :=
  (if events.epollhup && !events.epollin then [.close] else [])
    ++ (if events.epollerr then [.error] else [])
    ++ (if events.epollin || events.epollpri || events.epollrdhup then [.read] else [])
    ++ (if events.epollout then [.write] else [])

/-- A call that user code makes on a connection; `forceClose` also from another thread. -/
inductive ConnCall
  | write (data : Pointer) (len : ℕ) (junk : ℤ) (answer : WriteAnswer)
  | shutdown (inLoop : Bool)
  | forceClose

/-- The values of `StateE`. -/
def StateE.value : StateE → ℕ
  | .connecting => 0
  | .established => 1
  | .disconnecting => 2
  | .disconnected => 3

theorem StateE.value_le_disconnected (s : StateE) : s.value ≤ StateE.disconnected.value := by
  cases s <;> decide

/-- Nothing comes after `DISCONNECTED`. -/
theorem StateE.eq_disconnected {s : StateE} (h : StateE.disconnected.value ≤ s.value) :
    s = .disconnected := by
  revert h
  cases s <;> decide

/-- Nothing comes back to `CONNECTING`. -/
theorem StateE.ne_connecting_of_le {s t : StateE} (hs : s ≠ .connecting) (h : s.value ≤ t.value) :
    t ≠ .connecting := by
  revert hs h
  cases s <;> cases t <;> decide

namespace TcpConnection

variable (c : TcpConnection)

def call : ConnCall → Outcome
  | .write data len junk answer => (c.write data len junk answer).2
  | .shutdown inLoop => c.shutdown inLoop
  | .forceClose => c.forceClose

def handle (read : ReadAnswer) (write : WriteAnswer) : Handler → Outcome
  | .close => c.handleClose
  | .error => c.handleError
  | .read => c.handleRead read
  | .write => c.handleWrite write

end TcpConnection

structure Lifecycle where
  conn : TcpConnection
  /-- The tasks queued on the loop. -/
  tasks : List ConnTask
  /-- What is left of the dispatch in progress. -/
  handlers : List Handler
  /-- The user callbacks run so far, in order. -/
  called : List Callback
  /-- `connectDestroyed()` has run. -/
  destroyed : Bool

/-- What happens to a connection. -/
inductive LifeEvent
  | connectEstablished
  | connectDestroyed
  | call (c : ConnCall)
  /-- The poller reports events. -/
  | dispatch (events : EpollMask)
  /-- The next handler of the dispatch is called. -/
  | handler (read : ReadAnswer) (write : WriteAnswer)
  /-- The oldest queued task runs. -/
  | runTask

namespace Lifecycle

/-- A connection that has just been made. -/
def start (conn : TcpConnection) : Lifecycle := ⟨conn, [], [], [], false⟩

variable (x : Lifecycle)

/-- What a member function leaves behind. -/
def after (out : Outcome) : Lifecycle :=
  { x with
    conn := out.conn
    tasks := x.tasks ++ out.queued
    called := x.called ++ out.called }

/-- An assertion fails. -/
def abort : Lifecycle :=
  { x with conn := { x.conn with channel := { x.conn.channel with aborted := true } } }

def perform : LifeEvent → Lifecycle
  | .connectEstablished =>
    if x.handlers = [] then
      if x.conn.state = .connecting then { x with conn := x.conn.connectEstablished } else x.abort
    else x
  | .connectDestroyed =>
    if x.handlers = [] then { x with conn := x.conn.connectDestroyed, destroyed := true } else x
  | .call c => x.after (x.conn.call c)
  | .dispatch events =>
    if x.handlers = [] ∧ x.conn.channel.registered.isSome then
      { x with
        conn := { x.conn with channel := x.conn.channel.setEvents events }
        handlers := events.handlers }
    else x
  | .handler read write =>
    match x.handlers with
    | [] => x
    | h :: rest => { x with handlers := rest }.after (x.conn.handle read write h)
  | .runTask =>
    match x.handlers, x.tasks with
    | [], t :: rest => { x with tasks := rest }.after (x.conn.runTask t)
    | _, _ => x

/-- One event; a process that has ended takes none. -/
def step (e : LifeEvent) : Lifecycle := if x.conn.channel.aborted then x else x.perform e

end Lifecycle

/-! ## What one member function does to a life -/

namespace TcpConnection

/-- No callback is set any more. -/
def Silent (c : TcpConnection) : Prop := c.callbacks = (false, false, false, false)

/-- **What every member function does to a life**: the state does not go back, at most one callback
runs, a silent connection runs none and stays silent, and the close callback leaves it silent. -/
structure Onward (c : TcpConnection) (out : Outcome) : Prop where
  forward : c.state.value ≤ out.conn.state.value
  once : out.called.length ≤ 1
  hushed : c.Silent → out.called = [] ∧ out.conn.Silent
  closing : .close ∈ out.called → out.conn.Silent

variable {c : TcpConnection}

/-- A call that runs no callback and sets none. -/
theorem Onward.of_uncalled {out : Outcome} (hstate : c.state.value ≤ out.conn.state.value)
    (hcallbacks : out.conn.callbacks = c.callbacks) (hcalled : out.called = []) : c.Onward out := by
  refine ⟨hstate, ?_, fun h => ⟨hcalled, hcallbacks.trans h⟩, fun h => ?_⟩
  · rw [hcalled]
    exact Nat.zero_le 1
  · rw [hcalled] at h
    exact absurd h List.not_mem_nil

/-- A call that runs one callback, other than the close callback, if it is set. -/
theorem Onward.of_called {out : Outcome} {b : Callback} {set : Bool}
    (hstate : out.conn.state = c.state) (hcallbacks : out.conn.callbacks = c.callbacks)
    (hcalled : out.called = if set then [b] else []) (hset : c.Silent → set = false)
    (hb : b ≠ .close) : c.Onward out := by
  refine ⟨(congrArg StateE.value hstate).ge, ?_, fun h => ⟨?_, hcallbacks.trans h⟩, fun h => ?_⟩
  · rw [hcalled]
    cases set <;> simp
  · rw [hcalled, hset h]
    rfl
  · rw [hcalled] at h
    cases set with
    | false => exact absurd h List.not_mem_nil
    | true => exact absurd (List.mem_singleton.mp h).symm hb

variable (c)

theorem write_called (data : Pointer) (len : ℕ) (junk : ℤ) (answer : WriteAnswer) :
    (c.write data len junk answer).2.called = [] := by
  rw [write]
  split
  · split
    · rfl
    · rfl
    · dsimp only
      split <;> rfl
  · rfl

theorem handleError_onward : c.Onward c.handleError :=
  .of_called (b := .error) rfl rfl rfl (fun h => congrArg (·.2.2.2) h) (by simp)

theorem handleWrite_onward (answer : WriteAnswer) : c.Onward (c.handleWrite answer) := by
  have hout := c.handleWrite_outputOnly answer
  have hcalled : (c.handleWrite answer).called = [] ∨ c.handleWrite answer = c.handleError := by
    rw [handleWrite]
    split
    · rcases answer.result c.writeBuffer.length with (- | -) | n
      · exact .inl rfl
      · exact .inr rfl
      · dsimp only
        split
        · exact .inl rfl
        · exact .inl rfl
    · exact .inl rfl
  rcases hcalled with hnone | herror
  · exact .of_uncalled (congrArg StateE.value hout.state).ge hout.callbacks hnone
  · rw [herror]
    exact c.handleError_onward

theorem forceClose_onward : c.Onward c.forceClose := by
  refine .of_uncalled ?_ c.callbacks_forceClose c.called_forceClose
  rw [forceClose]
  split
  · rename_i hstate
    rw [hstate]
    exact Nat.le_succ _
  · exact le_rfl

/-- **`handleClose` leaves a connection silent**, unless it was closed before. -/
theorem handleClose_onward : c.Onward c.handleClose := by
  by_cases hopen : c.state = .established ∨ c.state = .disconnecting
  · have hsilent : c.handleClose.conn.Silent := by
      rw [handleClose, if_pos hopen]
      rfl
    have hcalled : c.handleClose.called = if c.closeCallback then [.close] else [] := by
      rw [handleClose, if_pos hopen]
    refine ⟨?_, ?_, fun h => ⟨?_, hsilent⟩, fun _ => hsilent⟩
    · rw [handleClose, if_pos hopen]
      exact c.state.value_le_disconnected
    · rw [hcalled]
      split <;> simp
    · have hclose : c.closeCallback = false := congrArg (·.2.2.1) h
      rw [hcalled, hclose]
      rfl
  · rw [handleClose, if_neg hopen]
    exact .of_uncalled le_rfl rfl rfl

theorem handleRead_onward (answer : ReadAnswer) : c.Onward (c.handleRead answer) := by
  rcases answer with (- | ⟨b, bs⟩) | e
  · exact c.handleClose_onward
  · exact .of_called (b := .message) rfl rfl rfl (fun h => congrArg (·.1) h) (by simp)
  · cases e with
    | again => exact .of_uncalled le_rfl rfl rfl
    | other => exact c.handleError_onward

theorem handle_onward (read : ReadAnswer) (write : WriteAnswer) (h : Handler) :
    c.Onward (c.handle read write h) := by
  cases h with
  | close => exact c.handleClose_onward
  | error => exact c.handleError_onward
  | read => exact c.handleRead_onward read
  | write => exact c.handleWrite_onward write

theorem call_onward (call : ConnCall) : c.Onward (c.call call) := by
  cases call with
  | write data len junk answer =>
    have hout := c.write_outputOnly data len junk answer
    exact .of_uncalled (congrArg StateE.value hout.state).ge hout.callbacks
      (c.write_called data len junk answer)
  | shutdown inLoop => cases inLoop <;> exact .of_uncalled le_rfl rfl rfl
  | forceClose => exact c.forceClose_onward

theorem runTask_onward (t : ConnTask) : c.Onward (c.runTask t) := by
  cases t with
  | writeComplete =>
    exact .of_called (b := .writeComplete) rfl rfl rfl (fun h => congrArg (·.2.1) h) (by simp)
  | handleClose => exact c.handleClose_onward
  | shutdownWrite => exact .of_uncalled le_rfl rfl rfl

end TcpConnection

/-! ## Whole lives -/

namespace Lifecycle

/-- **An orderly life**: the close callback is the last to be called, and leaves none to call. -/
structure Orderly (x : Lifecycle) : Prop where
  last : .close ∉ x.called.dropLast
  silent : .close ∈ x.called → x.conn.Silent

variable {x : Lifecycle}

/-- A change of the connection that runs no callback and sets none. -/
theorem Orderly.of_callbacks (h : x.Orderly) {y : Lifecycle} (hcalled : y.called = x.called)
    (hcallbacks : y.conn.callbacks = x.conn.callbacks) : y.Orderly :=
  ⟨hcalled ▸ h.last, fun hmem => hcallbacks.trans (h.silent (hcalled ▸ hmem))⟩

/-- **A member function keeps a life orderly.** -/
theorem Orderly.after (h : x.Orderly) {out : Outcome} (hout : x.conn.Onward out) :
    (x.after out).Orderly := by
  by_cases hclosed : .close ∈ x.called
  · obtain ⟨hnone, hsilent⟩ := hout.hushed (h.silent hclosed)
    have hcalled : (x.after out).called = x.called := by rw [Lifecycle.after, hnone, List.append_nil]
    exact ⟨hcalled ▸ h.last, fun _ => hsilent⟩
  · refine ⟨fun hmem => ?_, fun hmem => ?_⟩
    · have hone := hout.once
      rcases hcalled : out.called with - | ⟨b, rest⟩
      · rw [Lifecycle.after, hcalled, List.append_nil] at hmem
        exact h.last hmem
      · obtain rfl : rest = [] := by
          rw [hcalled, List.length_cons] at hone
          exact List.length_eq_zero_iff.mp (by omega)
        rw [Lifecycle.after, hcalled, List.dropLast_concat] at hmem
        exact hclosed hmem
    · rcases List.mem_append.mp hmem with hmem | hmem
      · exact absurd hmem hclosed
      · exact hout.closing hmem

/-- The state does not go back. -/
theorem value_le_perform (x : Lifecycle) (e : LifeEvent) :
    x.conn.state.value ≤ (x.perform e).conn.state.value := by
  cases e with
  | connectEstablished =>
    rw [perform]
    split
    · split
      · rename_i hstate
        rw [hstate]
        exact Nat.zero_le _
      · exact le_rfl
    · exact le_rfl
  | connectDestroyed =>
    rw [perform]
    split
    · show x.conn.state.value ≤ x.conn.connectDestroyed.state.value
      rw [TcpConnection.connectDestroyed]
      split
      · exact x.conn.state.value_le_disconnected
      · exact le_rfl
    · exact le_rfl
  | call c => exact (x.conn.call_onward c).forward
  | dispatch events =>
    rw [perform]
    split <;> exact le_rfl
  | handler read write =>
    rw [perform]
    split
    · exact le_rfl
    · exact (x.conn.handle_onward read write _).forward
  | runTask =>
    rw [perform]
    split
    · exact (x.conn.runTask_onward _).forward
    · exact le_rfl

theorem Orderly.perform (h : x.Orderly) (e : LifeEvent) : (x.perform e).Orderly := by
  cases e with
  | connectEstablished =>
    rw [Lifecycle.perform]
    split
    · split
      · exact h.of_callbacks rfl rfl
      · exact h.of_callbacks rfl rfl
    · exact h
  | connectDestroyed =>
    rw [Lifecycle.perform]
    split
    · exact h.of_callbacks rfl x.conn.callbacks_connectDestroyed
    · exact h
  | call c => exact h.after (x.conn.call_onward c)
  | dispatch events =>
    rw [Lifecycle.perform]
    split
    · exact h.of_callbacks rfl rfl
    · exact h
  | handler read write =>
    rw [Lifecycle.perform]
    split
    · exact h
    · rename_i hd rest _
      have hrest : Orderly { x with handlers := rest } := h.of_callbacks rfl rfl
      exact hrest.after (x.conn.handle_onward read write hd)
  | runTask =>
    rw [Lifecycle.perform]
    split
    · rename_i t rest _ _
      have hrest : Orderly { x with tasks := rest } := h.of_callbacks rfl rfl
      exact hrest.after (x.conn.runTask_onward t)
    · exact h

/-- Every step moves forward and keeps a life orderly. -/
theorem Orderly.step (h : x.Orderly) (e : LifeEvent) : (x.step e).Orderly := by
  rw [Lifecycle.step]
  split
  · exact h
  · exact h.perform e

theorem value_le_step (x : Lifecycle) (e : LifeEvent) :
    x.conn.state.value ≤ (x.step e).conn.state.value := by
  rw [step]
  split
  · exact le_rfl
  · exact x.value_le_perform e

theorem value_le_run (x : Lifecycle) (es : List LifeEvent) :
    x.conn.state.value ≤ (run step x es).conn.state.value := by
  induction es generalizing x with
  | nil => exact le_rfl
  | cons e es ih => exact (x.value_le_step e).trans (ih (x.step e))

/-- Nothing follows the close callback. -/
theorem Orderly.eq_nil (h : x.Orderly) {pre post : List Callback}
    (hcalled : x.called = pre ++ .close :: post) : post = [] := by
  by_contra hne
  refine h.last ?_
  rw [hcalled, List.dropLast_append_of_ne_nil (List.cons_ne_nil _ _), List.dropLast_cons_of_ne_nil hne]
  simp

/-- **The life of a connection**: the state only moves forward, the close callback runs at most once,
and no other callback runs after it. -/
theorem life_run (message writeComplete close error : Bool) (es fs : List LifeEvent) :
    let x := run step (start (.new message writeComplete close error)) es
    let y := run step x fs
    x.conn.state.value ≤ y.conn.state.value
      ∧ y.called.count .close ≤ 1
      ∧ ∀ pre post, y.called = pre ++ .close :: post →
        .message ∉ post ∧ .writeComplete ∉ post ∧ .error ∉ post := by
  intro x y
  have hy : y.Orderly := by
    have hstart : (start (.new message writeComplete close error)).Orderly :=
      ⟨List.not_mem_nil, fun hmem => absurd hmem List.not_mem_nil⟩
    rw [show y = run step (start (.new message writeComplete close error)) (es ++ fs) from
      (run_append _ _ _ _).symm]
    exact inv_run (fun _ e h _ => h.step e) hstart (meets_true _ _)
  refine ⟨value_le_run x fs, ?_, fun pre post hcalled => ?_⟩
  · by_cases hclosed : .close ∈ y.called
    · obtain ⟨pre, post, hcalled, hpre⟩ := List.eq_append_cons_of_mem hclosed
      rw [hcalled, hy.eq_nil hcalled, List.count_append, List.count_eq_zero.mpr hpre]
      exact le_rfl
    · exact (List.count_eq_zero.mpr hclosed).trans_le (Nat.zero_le 1)
  · rw [hy.eq_nil hcalled]
    exact ⟨List.not_mem_nil, List.not_mem_nil, List.not_mem_nil⟩

end Lifecycle

/-! ## The channel of a connection -/

namespace TcpConnection

/-- **The channel goes with the state**: an open connection is read from, a closed one asks for
nothing. -/
structure Tracked (c : TcpConnection) : Prop where
  consistent : c.channel.Consistent
  running : c.channel.aborted = false
  reading : c.state = .established ∨ c.state = .disconnecting → c.channel.interests.epollin = true
  idle : c.state = .disconnected → c.channel.interests = .none

variable {c d : TcpConnection}

/-- The channel stays as it is. -/
theorem Tracked.of_channel (h : c.Tracked) (hchannel : d.channel = c.channel)
    (hopen : d.state = .established ∨ d.state = .disconnecting →
      c.state = .established ∨ c.state = .disconnecting)
    (hclosed : d.state = .disconnected → c.state = .disconnected) : d.Tracked := by
  refine ⟨?_, ?_, fun hd => ?_, fun hd => ?_⟩
  · rw [hchannel]
    exact h.consistent
  · rw [hchannel]
    exact h.running
  · rw [hchannel]
    exact h.reading (hopen hd)
  · rw [hchannel]
    exact h.idle (hclosed hd)

theorem Tracked.setEvents (h : c.Tracked) (events : EpollMask) :
    Tracked { c with channel := c.channel.setEvents events } :=
  ⟨h.consistent, h.running, h.reading, h.idle⟩

/-- Other interests are applied. -/
theorem Tracked.of_interests (h : c.Tracked) {m : EpollMask}
    (hchannel : d.channel = Channel.applyInterest { c.channel with interests := m })
    (hopen : d.state = .established ∨ d.state = .disconnecting → m.epollin = true)
    (hclosed : d.state = .disconnected → m = .none) : d.Tracked := by
  have hknown : Channel.Known { c.channel with interests := m } := h.consistent.known
  obtain ⟨hconsistent, habort⟩ := hknown.applyInterest
  have hm : d.channel.interests = m := by rw [hchannel, Channel.interests_applyInterest]
  refine ⟨hchannel ▸ hconsistent, ?_, fun hd => ?_, fun hd => ?_⟩
  · rw [hchannel, habort]
    exact h.running
  · rw [hm]
    exact hopen hd
  · rw [hm]
    exact hclosed hd

/-- Bytes for the output buffer: a closing connection does not ask to be told of room. -/
theorem Tracked.enqueue (h : c.Tracked) (data : Pointer) (written : ℤ) (remaining : ℕ) :
    (c.enqueue data written remaining).Tracked := by
  unfold TcpConnection.enqueue
  split
  · dsimp only
    split
    · rename_i hopen
      refine h.of_interests rfl (fun hs => h.reading hs) fun hs => absurd (.inr hs) hopen.1
    · exact h.of_channel rfl id id
  · exact h

theorem Tracked.write (h : c.Tracked) (data : Pointer) (len : ℕ) (junk : ℤ) (answer : WriteAnswer) :
    (c.write data len junk answer).2.conn.Tracked := by
  by_cases hp : c.pending = true
  · rw [c.write_of_pending hp]
    exact h.enqueue data junk len
  · rw [c.write_of_not_pending (Bool.not_eq_true _ ▸ hp)]
    rcases answer.result len with (- | -) | n
    · exact h.enqueue data 0 len
    · exact h
    · dsimp only
      split
      · exact h
      · exact h.enqueue data n _

theorem Tracked.forceClose (h : c.Tracked) : c.forceClose.conn.Tracked := by
  rw [TcpConnection.forceClose]
  split
  · rename_i hstate
    exact h.of_channel rfl (fun _ => .inl hstate) fun hd => absurd hd (by simp)
  · exact h

theorem Tracked.call (h : c.Tracked) (call : ConnCall) : (c.call call).conn.Tracked := by
  cases call with
  | write data len junk answer => exact h.write data len junk answer
  | shutdown inLoop => cases inLoop <;> exact h.of_channel rfl id id
  | forceClose => exact h.forceClose

theorem Tracked.handleClose (h : c.Tracked) : c.handleClose.conn.Tracked := by
  rw [TcpConnection.handleClose]
  split
  · exact h.of_interests rfl (fun hd => absurd hd (by simp)) fun _ => rfl
  · exact h

theorem Tracked.handleRead (h : c.Tracked) (answer : ReadAnswer) :
    (c.handleRead answer).conn.Tracked := by
  rcases answer with (- | ⟨b, bs⟩) | e
  · exact h.handleClose
  · exact h.of_channel rfl id id
  · cases e <;> exact h

theorem Tracked.handleWrite (h : c.Tracked) (answer : WriteAnswer) :
    (c.handleWrite answer).conn.Tracked := by
  rw [TcpConnection.handleWrite]
  split
  · rcases answer.result c.writeBuffer.length with (- | -) | n
    · exact h
    · exact h
    · dsimp only
      split
      · refine h.of_interests (d := { c with writeBuffer := _, channel := _ }) rfl h.reading fun hd => ?_
        rw [h.idle hd]
        rfl
      · exact h.of_channel rfl id id
  · exact h

theorem Tracked.handle (h : c.Tracked) (read : ReadAnswer) (write : WriteAnswer) (hd : Handler) :
    (c.handle read write hd).conn.Tracked := by
  cases hd with
  | close => exact h.handleClose
  | error => exact h
  | read => exact h.handleRead read
  | write => exact h.handleWrite write

theorem Tracked.runTask (h : c.Tracked) (t : ConnTask) : (c.runTask t).conn.Tracked := by
  cases t with
  | writeComplete => exact h
  | handleClose => exact h.handleClose
  | shutdownWrite => exact h.of_channel rfl id id

/-- `connectEstablished()` makes a new connection be read from. -/
theorem Tracked.connectEstablished (h : c.Tracked) (hstate : c.state = .connecting) :
    c.connectEstablished.Tracked := by
  have hconnecting : (!(c.state == StateE.connecting)) = false := by rw [hstate]; rfl
  rw [TcpConnection.connectEstablished, hconnecting, Bool.or_false]
  exact h.of_interests rfl (fun _ => rfl) fun hd => absurd hd (by simp)

/-- …once: otherwise its assertion fails. -/
theorem Tracked.aborted_connectEstablished (h : c.Tracked) (hstate : c.state ≠ .connecting) :
    c.connectEstablished.channel.aborted = true := by
  have hflag : (c.channel.aborted || !(c.state == StateE.connecting)) = true := by simp [hstate]
  rw [TcpConnection.connectEstablished, hflag]
  have hknown : Channel.Known { c.channel with
      aborted := true
      interests := { c.channel.interests with epollin := true, epollpri := true } } :=
    h.consistent.known
  exact hknown.applyInterest.2

/-- **`connectDestroyed()` takes the channel out of the loop**, unless the connection is closing. -/
theorem Tracked.connectDestroyed (h : c.Tracked)
    (hstate : c.state = .established ∨ c.state = .disconnected) :
    c.connectDestroyed.Tracked ∧ c.connectDestroyed.state = .disconnected
      ∧ c.connectDestroyed.channel.addedInLoop = false
      ∧ c.connectDestroyed.channel.registered = none := by
  -- once the state is DISCONNECTED the interests are gone, here or before
  have hidle : ∃ d : TcpConnection, d.Tracked ∧ d.state = .disconnected
      ∧ c.connectDestroyed = { d with channel := d.channel.remove } := by
    rcases hstate with hstate | hstate
    · refine ⟨{ c with state := .disconnected, channel := c.channel.unsetAllInterest }, ?_, rfl, ?_⟩
      · exact h.of_interests rfl (fun hd => absurd hd (by simp)) fun _ => rfl
      · rw [TcpConnection.connectDestroyed, if_pos hstate]
    · refine ⟨c, h, hstate, ?_⟩
      rw [TcpConnection.connectDestroyed, if_neg (by simp [hstate])]
  obtain ⟨d, hd, hdstate, heq⟩ := hidle
  have hnone : d.channel.hasNoneInterest = true := beq_iff_eq.mpr (hd.idle hdstate)
  obtain ⟨hconsistent, habort⟩ := hd.consistent.remove
  obtain ⟨hadded, hunset⟩ := d.channel.remove_of_hasNoneInterest hnone
  rw [heq]
  refine ⟨⟨hconsistent, ?_, fun ho => ?_, fun _ => ?_⟩, hdstate, hadded, ?_⟩
  · show d.channel.remove.aborted = false
    rw [habort, hd.running, hnone]
    rfl
  · rw [hdstate] at ho
    exact absurd ho (by simp)
  · exact (Channel.interests_remove _).trans (hd.idle hdstate)
  · show d.channel.remove.registered = none
    rw [hconsistent, if_neg (by simp [hunset])]

/-- A closing connection is still read from, and the assertion of `remove` fails. -/
theorem Tracked.aborted_connectDestroyed (h : c.Tracked) (hstate : c.state = .disconnecting) :
    c.connectDestroyed.channel.aborted = true := by
  have hnone : ¬ c.channel.hasNoneInterest = true := by
    intro hnone
    have hread := h.reading (.inr hstate)
    rw [beq_iff_eq.mp hnone] at hread
    cases hread
  rw [TcpConnection.connectDestroyed, if_neg (by simp [hstate])]
  show c.channel.remove.aborted = true
  rw [Channel.remove, if_neg hnone]

/-- **A closed connection keeps its channel as it is**, whatever user code calls. -/
theorem call_of_disconnected (hstate : c.state = .disconnected) (call : ConnCall) :
    (c.call call).conn.channel = c.channel := by
  have henqueue : ∀ data written remaining, (c.enqueue data written remaining).channel = c.channel := by
    intro data written remaining
    unfold TcpConnection.enqueue
    split
    · dsimp only
      rw [if_neg fun h => h.1 (.inr hstate)]
    · rfl
  cases call with
  | write data len junk answer =>
    show (c.write data len junk answer).2.conn.channel = c.channel
    rw [TcpConnection.write]
    split
    · split
      · rfl
      · exact henqueue data 0 len
      · dsimp only
        split
        · rfl
        · exact henqueue data _ _
    · exact henqueue data junk len
  | shutdown inLoop => cases inLoop <;> rfl
  | forceClose =>
    show c.forceClose.conn.channel = c.channel
    rw [TcpConnection.forceClose, if_neg (by simp [hstate])]
    rfl

/-- …and whatever task of it still runs. -/
theorem runTask_of_disconnected (hstate : c.state = .disconnected) (t : ConnTask) :
    (c.runTask t).conn.channel = c.channel := by
  cases t with
  | writeComplete => rfl
  | handleClose =>
    show c.handleClose.conn.channel = c.channel
    rw [TcpConnection.handleClose, if_neg (by simp [hstate])]
    rfl
  | shutdownWrite => rfl

end TcpConnection

/-! ## Tear-down -/

namespace Lifecycle

/-- **Tear-down went well so far**: no assertion failed, and a channel taken out of the loop by
`connectDestroyed()` is out of it. -/
def Intact (x : Lifecycle) : Prop :=
  x.conn.channel.aborted = false ∧
    (x.destroyed = true → x.conn.channel.addedInLoop = false ∧ x.conn.channel.registered = none)

instance (x : Lifecycle) : Decidable x.Intact := by
  unfold Intact
  infer_instance

/-- The connection was established by its owner, who does so once. -/
def Begun (_ : Lifecycle) (e : LifeEvent) : Prop := e ≠ .connectEstablished

/-- **The tear-down that goes well**: `connectDestroyed()`, which runs between two dispatches, does not
come between a `forceClose()` and the `handleClose` it queues. -/
def Settled (x : Lifecycle) : LifeEvent → Prop
  | .connectDestroyed => x.handlers = [] → x.conn.state ≠ .disconnecting
  | _ => True

/-- What stands in a life that has been established. -/
structure Standing (x : Lifecycle) : Prop where
  tracked : x.conn.Tracked
  begun : x.conn.state ≠ .connecting
  removed : x.destroyed = true → x.conn.state = .disconnected ∧ x.handlers = []
    ∧ x.conn.channel.addedInLoop = false ∧ x.conn.channel.registered = none

variable {x : Lifecycle}

theorem Standing.intact (h : x.Standing) : x.Intact :=
  ⟨h.tracked.running, fun hd => (h.removed hd).2.2⟩

/-- What a closed connection's member function leaves behind, when it leaves the channel alone. -/
theorem Standing.after (h : x.Standing) {out : Outcome} (htracked : out.conn.Tracked)
    (hout : x.conn.Onward out)
    (hclosed : x.conn.state = .disconnected → x.destroyed = true →
      out.conn.channel = x.conn.channel) : (x.after out).Standing := by
  refine ⟨htracked, StateE.ne_connecting_of_le h.begun hout.forward, fun hd => ?_⟩
  obtain ⟨hstate, hhandlers, hadded, hregistered⟩ := h.removed hd
  have hchannel : (x.after out).conn.channel = x.conn.channel := hclosed hstate hd
  have hforward := hout.forward
  rw [hstate] at hforward
  exact ⟨StateE.eq_disconnected hforward, hhandlers, hchannel ▸ hadded, hchannel ▸ hregistered⟩

/-- **A step of a settled tear-down.** -/
theorem Standing.step (h : x.Standing) (e : LifeEvent) (hbegun : x.Begun e) (he : x.Settled e) :
    (x.step e).Standing := by
  rw [Lifecycle.step, h.tracked.running]
  show (x.perform e).Standing
  cases e with
  | connectEstablished => exact absurd rfl hbegun
  | connectDestroyed =>
    rw [perform]
    split
    · rename_i hhandlers
      have hstate : x.conn.state = .established ∨ x.conn.state = .disconnected := by
        have hclosing := he hhandlers
        have hb := h.begun
        cases hs : x.conn.state <;> simp_all
      obtain ⟨htracked, hclosed, hadded, hregistered⟩ := h.tracked.connectDestroyed hstate
      exact ⟨htracked, by simp [hclosed], fun _ => ⟨hclosed, hhandlers, hadded, hregistered⟩⟩
    · exact h
  | call c =>
    exact h.after (h.tracked.call c) (x.conn.call_onward c) fun hstate _ =>
      TcpConnection.call_of_disconnected hstate c
  | dispatch events =>
    rw [perform]
    split
    · rename_i hpolled
      refine ⟨h.tracked.setEvents events, h.begun, fun hd => ?_⟩
      obtain ⟨-, -, -, hregistered⟩ := h.removed hd
      rw [hregistered] at hpolled
      exact absurd hpolled.2 (by simp)
    · exact h
  | handler read write =>
    rw [perform]
    split
    · exact h
    · rename_i hd rest hhandlers
      have hrest : Standing { x with handlers := rest } :=
        ⟨h.tracked, h.begun, fun hd => absurd (hhandlers.symm.trans (h.removed hd).2.1) (by simp)⟩
      exact hrest.after (h.tracked.handle read write hd) (x.conn.handle_onward read write hd)
        fun _ hd => absurd (hhandlers.symm.trans (h.removed hd).2.1) (by simp)
  | runTask =>
    rw [perform]
    split
    · rename_i t rest _ _
      have hrest : Standing { x with tasks := rest } := ⟨h.tracked, h.begun, h.removed⟩
      exact hrest.after (h.tracked.runTask t) (x.conn.runTask_onward t) fun hstate _ =>
        TcpConnection.runTask_of_disconnected hstate t
    · exact h

/-- **A `connectDestroyed()` that finds a closing connection fails its assertion.** -/
theorem Standing.not_intact_step (h : x.Standing) (e : LifeEvent) (he : ¬ x.Settled e) :
    ¬ (x.step e).Intact := by
  cases e with
  | connectDestroyed =>
    obtain ⟨hhandlers, hstate⟩ := Classical.not_imp.mp he
    rw [Lifecycle.step, h.tracked.running]
    intro hintact
    have habort := h.tracked.aborted_connectDestroyed (not_not.mp hstate)
    have hrun : (x.perform .connectDestroyed).conn = x.conn.connectDestroyed := by
      rw [perform, if_pos hhandlers]
    exact Bool.false_ne_true (hintact.1.symm.trans ((congrArg (·.channel.aborted) hrun).trans habort))
  | _ => exact absurd trivial he

/-- A connection that has been established. -/
def established (message writeComplete close error : Bool) : Lifecycle :=
  start (TcpConnection.new message writeComplete close error).connectEstablished

theorem standing_established (message writeComplete close error : Bool) :
    (established message writeComplete close error).Standing :=
  ⟨⟨rfl, rfl, fun _ => rfl, nofun⟩, nofun, nofun⟩

/-- **Tear-down, exactly.**  In every state of a run the assertion of `Channel::remove` has held and
a channel once removed stays out of the loop, if and only if no `connectDestroyed()` of the run comes
between a `forceClose()` and its `handleClose`. -/
theorem intact_iff_settled (message writeComplete close error : Bool) (es : List LifeEvent)
    (h : ∀ e ∈ es, e ≠ .connectEstablished) :
    (∀ js, js <+: es → (run step (established message writeComplete close error) js).Intact)
      ↔ Meets step Settled (established message writeComplete close error) es :=
  forall_prefix_iff_of_inv (g := Begun) (fun _ hx => hx.intact) (fun _ e hx => hx.step e)
    (fun _ e hx _ => hx.not_intact_step e) (standing_established _ _ _ _) (meets_of_forall h _)

/-- The peer closes, and the tear-down comes before the tasks of the close. -/
theorem intact_iff_settled_peerClose :
    let es : List LifeEvent :=
      [.dispatch .input, .handler (.reads []) (.takes 0), .connectDestroyed, .runTask]
    (∀ js, js <+: es → (run step (established true true true false) js).Intact)
      ↔ Meets step Settled (established true true true false) es :=
  intact_iff_settled true true true false _ (by simp)

/-- **A connection torn down while it closes**: the assertion of `Channel::remove` fails. -/
theorem closing_torn_down :
    ¬ (run step (established true true true false) [.call .forceClose, .connectDestroyed]).Intact := by
  decide

end Lifecycle
