import Rpx.Core.Attempts

/-!
# Core/Stopping — what `stop()` stops, and what it leaves

    stopConnect() ──▶ _running = false ──▶ stop task ──▶ _channel = null, _state as it was

A stop takes hold at once: start tasks, timers, socket events and reconnects all look at a `_running`
that is false by then.  `stopped_opens_none` — nothing opens a socket or hands one on before the next
`start()`.

The stop task clears up after it.  It drops the channel and leaves `_state` at `CONNECTING`, so that
the next stop task, which the destructor of the client may queue, takes a null channel for a live one;
a reset task that comes after the next `connect()` does the same.  `owned_iff_fresh` — nothing else
does.  The events of a socket whose channel was replaced by that of another are left out, as their
`Channel` is no longer there.
-/

open Machinery

/-- What happens to a client, to its connection and to its connector. -/
inductive ClientEvent
  | attempt (e : AttemptEvent)
  /-- `Connector::stop()`, which the destructor of the client calls when there is no connection. -/
  | stop
  | enableReconnect
  | shutdown (inLoop : Bool)
  | forceClose
  /-- A user's call on the connection. -/
  | call (call : ConnCall)
  /-- A handler of the connection's channel. -/
  | handler (h : Handler) (read : ReadAnswer) (write : WriteAnswer) (answer : ConnectAnswer)

/-- What `::connect` will answer, should the event call it. -/
def ClientEvent.answer : ClientEvent → Option ConnectAnswer
  | .attempt (.runTask answer) | .attempt (.timer answer) | .attempt (.peerClose answer) => some answer
  | .handler _ _ _ answer => some answer
  | _ => none

namespace Attempts

variable (s : Attempts)

/-- What a member function of the client leaves behind, that has nothing to do with the connector. -/
def took (co : ClientOutcome Unit) : Attempts :=
  { s with client := co.client, tasks := s.tasks ++ co.queued }

def perform : ClientEvent → Attempts
  | .attempt e => s.step e
  | .stop => s.absorb s.client.connector.stop
  | .enableReconnect => { s with client := { s.client with reconnect := true } }
  | .shutdown inLoop => s.took (s.client.shutdown inLoop)
  | .forceClose => s.took s.client.forceClose
  | .call call =>
    match s.client.conn with
    | none => s
    | some conn => s.took (s.client.withConn (conn.call call))
  | .handler h read write answer =>
    match s.client.conn with
    | none => s
    | some conn => s.afterConn (conn.handle read write h) answer

/-! ## A client that was stopped -/

/-- Neither the client nor its connector runs. -/
structure Halted : Prop where
  client : s.client.running = false
  connector : s.client.connector.running = false

/-- **No socket is opened, and none handed on**, and a client that was stopped stays so. -/
structure Still (t : Attempts) : Prop where
  halted : t.Halted
  opened : t.books.opened = s.books.opened
  handed : t.books.handed = s.books.handed

variable {s}

theorem Halted.still (h : s.Halted) : s.Still s := ⟨h, rfl, rfl⟩

/-- A member function of the connector that hands nothing on. -/
theorem Halted.absorb (h : s.Halted) {out : ConnectorOutcome}
    (hrunning : out.connector.running = false) (hhanded : out.handed = none) :
    s.Still (s.absorb out) := by
  have hclient : (s.absorb out).client = { s.client with connector := out.connector } := by
    rw [Attempts.absorb, TcpClient.withConnector, hhanded]
    rfl
  refine ⟨⟨?_, ?_⟩, rfl, ?_⟩
  · rw [hclient]
    exact h.client
  · rw [hclient]
    exact hrunning
  · rw [Attempts.absorb, hhanded]
    exact List.append_nil _

/-- A start task or a timer. -/
theorem Halted.attempt (h : s.Halted) (answer : ConnectAnswer) : s.Still (s.attempt answer) := by
  rw [Attempts.attempt, if_neg (by simp [h.connector])]
  exact h.still

/-- **The connection closes**, and is not made again. -/
theorem Halted.afterConn (h : s.Halted) (out : Outcome) (answer : ConnectAnswer) :
    s.Still (s.afterConn out answer) := by
  rw [Attempts.afterConn]
  split
  · rw [Attempts.handleClose]
    dsimp only
    rw [if_neg (by simp [h.client])]
    exact ⟨⟨h.client, h.connector⟩, rfl, rfl⟩
  · exact ⟨⟨h.client, h.connector⟩, rfl, rfl⟩

/-- Other calls on the client. -/
theorem Halted.took (h : s.Halted) {co : ClientOutcome Unit} (hclient : co.client.running = false)
    (hconnector : co.client.connector = s.client.connector) : s.Still (s.took co) :=
  ⟨⟨hclient, (congrArg Connector.running hconnector).trans h.connector⟩, rfl, rfl⟩

/-- A queued task runs. -/
theorem Halted.runTask (h : s.Halted) (answer : ConnectAnswer) (t : ClientTask) :
    s.Still (s.runTask answer t) := by
  cases t with
  | connector t =>
    cases t with
    | start => exact h.attempt answer
    | stop =>
      obtain ⟨-, hrunning, hhanded⟩ := s.client.connector.stopTask_spec
      exact h.absorb (hrunning.trans h.connector) hhanded
    | reset => exact h.absorb h.connector rfl
  | conn t =>
    rw [Attempts.runTask]
    split
    · exact h.still
    · exact h.afterConn _ answer
  | closed =>
    rw [Attempts.runTask]
    split
    · exact h.still
    · exact ⟨⟨h.client, h.connector⟩, rfl, rfl⟩

/-- What is asked of the connection, when there is one, leaves the connector alone. -/
theorem connector_onConnection (c : TcpClient Unit) (f : TcpConnection → Outcome) :
    (c.onConnection f).client.running = c.running
      ∧ (c.onConnection f).client.connector = c.connector := by
  rw [TcpClient.onConnection]
  split
  · split
    · exact ⟨rfl, rfl⟩
    · exact ⟨rfl, rfl⟩
  · exact ⟨rfl, rfl⟩

theorem Halted.perform (h : s.Halted) {e : ClientEvent} (he : e ≠ .attempt .start) :
    s.Still (s.perform e) := by
  cases e with
  | attempt e =>
    cases e with
    | start => exact absurd rfl he
    | stopConnect => exact ⟨⟨rfl, rfl⟩, rfl, rfl⟩
    | runTask answer =>
      rw [Attempts.perform, Attempts.step]
      split
      · exact h.still
      · rename_i t rest htasks
        have hrest : Halted { s with tasks := rest } := ⟨h.client, h.connector⟩
        obtain ⟨hhalted, hopened, hhanded⟩ := hrest.runTask answer t
        exact ⟨hhalted, hopened, hhanded⟩
    | timer answer =>
      rw [Attempts.perform, Attempts.step]
      split
      · have hrest : Halted { s with timers := s.timers - 1 } := ⟨h.client, h.connector⟩
        obtain ⟨hhalted, hopened, hhanded⟩ := hrest.attempt answer
        exact ⟨hhalted, hopened, hhanded⟩
      · exact h.still
    | writable err =>
      rw [Attempts.perform, Attempts.step]
      split
      · rename_i hpolled
        obtain ⟨-, hrunning, hhanded⟩ := s.client.connector.handleWrite_spec hpolled err
        refine h.absorb (hrunning.trans h.connector) ?_
        by_contra hsome
        have hrun := hhanded (Option.isSome_iff_ne_none.mpr hsome)
        rw [h.connector] at hrun
        cases hrun
      · exact h.still
    | error =>
      rw [Attempts.perform, Attempts.step]
      split
      · rename_i hpolled
        obtain ⟨-, hrunning, hhanded⟩ := s.client.connector.handleError_spec hpolled
        exact h.absorb (hrunning.trans h.connector) hhanded
      · exact h.still
    | peerClose answer =>
      rw [Attempts.perform, Attempts.step]
      split
      · exact h.still
      · exact h.afterConn _ answer
  | stop => exact h.absorb rfl rfl
  | enableReconnect => exact ⟨⟨h.client, h.connector⟩, rfl, rfl⟩
  | shutdown inLoop =>
    obtain ⟨hrunning, hconnector⟩ := connector_onConnection { s.client with running := false }
      (·.shutdown inLoop)
    exact h.took hrunning hconnector
  | forceClose =>
    obtain ⟨hrunning, hconnector⟩ := connector_onConnection { s.client with running := false }
      (·.forceClose)
    exact h.took hrunning hconnector
  | call call =>
    rw [Attempts.perform]
    split
    · exact h.still
    · exact h.took h.client rfl
  | handler hd read write answer =>
    rw [Attempts.perform]
    split
    · exact h.still
    · exact h.afterConn _ answer

/-- **A stop takes hold.**  Whatever was queued, under way or waiting for a timer when `stopConnect()`
returned: until the next `start()` no socket is opened and none is handed on. -/
theorem stopped_opens_none (reconnect : Bool) (es fs : List ClientEvent)
    (hfs : ClientEvent.attempt .start ∉ fs) :
    let s := (run perform (new reconnect) es).step .stopConnect
    (run perform s fs).books.opened = s.books.opened
      ∧ (run perform s fs).books.handed = s.books.handed := by
  intro s
  have hs : s.Still s := Halted.still ⟨rfl, rfl⟩
  have hstart : ∀ f ∈ fs, f ≠ ClientEvent.attempt .start := fun f hf heq => hfs (heq ▸ hf)
  have hstill : s.Still (run perform s fs) :=
    inv_run (fun t e h he => by
      obtain ⟨hhalted, hopened, hhanded⟩ := h.halted.perform he
      exact ⟨hhalted, hopened.trans h.opened, hhanded.trans h.handed⟩)
      hs (meets_of_forall hstart s)
  exact ⟨hstill.opened, hstill.handed⟩

/-- A client that reconnects, stopped while a socket is under way and another start task is queued: the
socket becomes writable, and the start task and the stop task run. -/
theorem stopped_opens_none_queued :
    let s := (run perform (new true)
      [.attempt .start, .attempt (.runTask .progress), .attempt .start]).step .stopConnect
    let fs : List ClientEvent :=
      [.attempt (.writable false), .attempt (.runTask .progress), .attempt (.runTask .progress)]
    (run perform s fs).books.opened = s.books.opened
      ∧ (run perform s fs).books.handed = s.books.handed :=
  stopped_opens_none true _ _ (by simp)

/-! ## What an event does to the sockets -/

/-- The task that an event runs. -/
def task? (s : Attempts) : ClientEvent → Option ClientTask
  | .attempt (.runTask _) => s.tasks.head?
  | _ => none

end Attempts

/-- The sockets of a connector. -/
structure Sockets where
  state : ConnectorState
  channel : Option (Fd × Channel)
  crashed : Bool
  opened : ℕ
  closed : List Fd
  handed : List Fd

def Attempts.sockets (s : Attempts) : Sockets where
  state := s.client.connector.state
  channel := s.client.connector.channel
  crashed := s.client.connector.crashed
  opened := s.books.opened
  closed := s.books.closed
  handed := s.books.handed

/-- **What may happen to the sockets**, `answer` being what `::connect` would answer. -/
inductive Sockets.Moves (k : Sockets) (answer : Option ConnectAnswer) : Sockets → Prop
  | idle : Moves k answer k
  /-- `connect()` is refused, and its socket closed at once. -/
  | refuse (h : answer ≠ some .progress) :
    Moves k answer { k with opened := k.opened + 1, closed := k.closed ++ [k.opened] }
  /-- `connect()` gets under way. -/
  | engage (h : answer = some .progress) :
    Moves k answer { k with
      state := .connecting
      channel := some (k.opened, Channel.new.setWriteInterest)
      opened := k.opened + 1 }
  /-- The socket under way is closed. -/
  | close {fd : Fd} {ch ch' : Channel} {state : ConnectorState} (channel : k.channel = some (fd, ch))
    (registered : ch.registered ≠ none) (taken : ch'.registered = none) (ended : state ≠ .connecting) :
    Moves k answer { k with
      state := state
      channel := some (fd, ch')
      closed := k.closed ++ [fd] }
  /-- The socket under way is handed on. -/
  | hand {fd : Fd} {ch ch' : Channel} (channel : k.channel = some (fd, ch))
    (registered : ch.registered ≠ none) (taken : ch'.registered = none) :
    Moves k answer { k with
      state := .connected
      channel := some (fd, ch')
      handed := k.handed ++ [fd] }

/-- **What a stop task does to them.** -/
inductive Sockets.Stops (k : Sockets) : Sockets → Prop
  | idle (state : k.state ≠ .connecting) : Stops k k
  | drop (state : k.state ≠ .connecting) : Stops k { k with channel := none }
  | close {fd : Fd} {ch : Channel} (state : k.state = .connecting) (channel : k.channel = some (fd, ch)) :
    Stops k { k with channel := none, closed := k.closed ++ [fd] }
  | null (state : k.state = .connecting) (channel : k.channel = none) :
    Stops k { k with crashed := true }

namespace Attempts

variable {s : Attempts}

theorem sockets_absorb (out : ConnectorOutcome) : (s.absorb out).sockets =
    ⟨out.connector.state, out.connector.channel, out.connector.crashed, s.books.opened,
      s.books.closed ++ out.closed, s.books.handed ++ out.handed.toList⟩ := by
  cases hhanded : out.handed with
  | none => simp [sockets, absorb, TcpClient.withConnector, hhanded]
  | some fd => simp [sockets, absorb, TcpClient.withConnector, TcpClient.newConnection, hhanded]

theorem sockets_connect (out : ConnectorOutcome) (answer : ConnectAnswer) :
    (s.connect out answer).sockets = { (s.absorb out).sockets with opened := s.books.opened + 1 } :=
  rfl

/-- A member function of the connector that leaves the socket alone. -/
theorem sockets_absorb_of_same {out : ConnectorOutcome}
    (hstate : out.connector.state = s.client.connector.state)
    (hchannel : out.connector.channel = s.client.connector.channel)
    (hcrashed : out.connector.crashed = s.client.connector.crashed)
    (hclosed : out.closed = []) (hhanded : out.handed = none) :
    (s.absorb out).sockets = s.sockets := by
  rw [sockets_absorb, hstate, hchannel, hcrashed, hclosed, hhanded]
  simp [sockets]

/-- **`connect()`**, whatever the connector does besides. -/
theorem moves_connect (running : Bool) (retryDelayMs : ℕ) (answer : ConnectAnswer) :
    s.sockets.Moves (some answer) (s.connect (Connector.connect { s.client.connector with
        running := running
        retryDelayMs := retryDelayMs } s.books.opened answer) answer).sockets := by
  rw [sockets_connect, sockets_absorb]
  cases answer with
  | progress =>
    rw [Connector.connect, Connector.quiet]
    simpa [sockets] using @Sockets.Moves.engage s.sockets (some .progress) rfl
  | again =>
    obtain ⟨hclosed, hhanded, d, hconnector⟩ := retry_books
      { s.client.connector with running := running, retryDelayMs := retryDelayMs } s.books.opened
    rw [Connector.connect, hclosed, hhanded, hconnector]
    simpa [sockets] using @Sockets.Moves.refuse s.sockets (some .again) (by simp)
  | fatal =>
    rw [Connector.connect]
    simpa [sockets] using @Sockets.Moves.refuse s.sockets (some .fatal) (by simp)

/-- A start task or a timer. -/
theorem moves_attempt (answer : ConnectAnswer) :
    s.sockets.Moves (some answer) (s.attempt answer).sockets := by
  rw [Attempts.attempt]
  split
  · rename_i hrun
    rw [Connector.attempt, if_pos hrun]
    exact moves_connect s.client.connector.running s.client.connector.retryDelayMs answer
  · exact .idle

/-- A member function of the connection, which may close it. -/
theorem moves_afterConn (out : Outcome) (answer : ConnectAnswer) :
    s.sockets.Moves (some answer) (s.afterConn out answer).sockets := by
  rw [Attempts.afterConn]
  split
  · rw [Attempts.handleClose]
    dsimp only
    split
    · exact moves_connect (s := { s with
        client := { s.client with conn := some out.conn, connection := false }
        tasks := s.tasks ++ out.queued.map .conn ++ [.closed]
        books := { s.books with ended := s.books.ended ++ s.books.handed.getLast?.toList } })
        true Connector.kInitRetryDelayMs answer
    · exact .idle
  · exact .idle

/-- **The socket under way is given up**, and closed. -/
theorem moves_retry {answer : Option ConnectAnswer} {fd : Fd} {ch : Channel}
    (hchannel : s.client.connector.channel = some (fd, ch)) (hreg : ch.registered ≠ none) :
    s.sockets.Moves answer (s.absorb (Connector.retry
      { s.client.connector.unregisterChannel.2 with state := .retrying } fd)).sockets := by
  obtain ⟨hclosed, hhanded, d, hconnector⟩ := retry_books
    { s.client.connector.unregisterChannel.2 with state := .retrying } fd
  rw [sockets_absorb, hclosed, hhanded, hconnector, Connector.unregisterChannel, hchannel]
  simpa [sockets] using @Sockets.Moves.close s.sockets answer _ _ ch.unsetAllInterest.remove .retrying
    hchannel hreg ch.registered_remove_unsetAllInterest (by simp)

/-- The channel of the attempt under way. -/
theorem exists_channel (h : s.client.connector.polled = true) :
    ∃ fd ch, s.client.connector.channel = some (fd, ch) ∧ ch.registered ≠ none := by
  cases hchannel : s.client.connector.channel with
  | none => simp [Connector.polled, hchannel] at h
  | some x =>
    have hreg : x.2.registered.isSome = true := by simpa [Connector.polled, hchannel] using h
    exact ⟨x.1, x.2, rfl, Option.isSome_iff_ne_none.mp hreg⟩

theorem moves_writable {answer : Option ConnectAnswer} (h : s.client.connector.polled = true)
    (err : Bool) : s.sockets.Moves answer (s.absorb (s.client.connector.handleWrite err)).sockets := by
  obtain ⟨fd, ch, hchannel, hreg⟩ := exists_channel h
  have htaken := ch.registered_remove_unsetAllInterest
  have hpair : s.client.connector.unregisterChannel
      = (some fd, s.client.connector.unregisterChannel.2) := by
    rw [Connector.unregisterChannel, hchannel]
  rw [Connector.handleWrite]
  split
  · rw [hpair]
    dsimp only
    split
    · exact moves_retry hchannel hreg
    · split
      · rw [sockets_absorb, Connector.unregisterChannel, hchannel]
        simpa [sockets] using @Sockets.Moves.hand s.sockets answer _ _ ch.unsetAllInterest.remove hchannel
          hreg htaken
      · rw [sockets_absorb, Connector.unregisterChannel, hchannel]
        simpa [sockets] using @Sockets.Moves.close s.sockets answer _ _ ch.unsetAllInterest.remove
          .connected hchannel hreg htaken (by simp)
  · rw [sockets_absorb_of_same rfl rfl rfl rfl rfl]
    exact .idle

theorem moves_error {answer : Option ConnectAnswer} (h : s.client.connector.polled = true) :
    s.sockets.Moves answer (s.absorb s.client.connector.handleError).sockets := by
  obtain ⟨fd, ch, hchannel, hreg⟩ := exists_channel h
  have hpair : s.client.connector.unregisterChannel
      = (some fd, s.client.connector.unregisterChannel.2) := by
    rw [Connector.unregisterChannel, hchannel]
  rw [Connector.handleError]
  split
  · rw [hpair]
    exact moves_retry hchannel hreg
  · rw [sockets_absorb_of_same rfl rfl rfl rfl rfl]
    exact .idle

/-- **A stop task.** -/
theorem stops_stopTask : s.sockets.Stops (s.absorb s.client.connector.stopTask).sockets := by
  rw [sockets_absorb, Connector.stopTask]
  by_cases hstate : s.client.connector.state = .connecting
  · cases hchannel : s.client.connector.channel with
    | none =>
      have hnull := Sockets.Stops.null (k := s.sockets) hstate hchannel
      simpa [Connector.unregisterChannel, sockets, hstate, hchannel] using hnull
    | some x =>
      have hclose := Sockets.Stops.close (k := s.sockets) hstate hchannel
      simpa [Connector.unregisterChannel, sockets, hstate, hchannel] using hclose
  · rw [if_neg hstate]
    dsimp only
    split
    · simpa [sockets] using Sockets.Stops.drop (k := s.sockets) hstate
    · simpa [sockets] using Sockets.Stops.idle (k := s.sockets) hstate

/-- **What an event does to the sockets.** -/
inductive Evolves (s : Attempts) (e : ClientEvent) (k : Sockets) : Prop
  | stop (task : s.task? e = some (.connector .stop)) (stops : s.sockets.Stops k)
  | reset (task : s.task? e = some (.connector .reset)) (dropped : k = { s.sockets with channel := none })
  | move (stop : s.task? e ≠ some (.connector .stop)) (reset : s.task? e ≠ some (.connector .reset))
    (moves : s.sockets.Moves e.answer k)

/-- An event that runs no task. -/
theorem evolves_move {e : ClientEvent} {k : Sockets} (h : s.task? e = none)
    (hmoves : s.sockets.Moves e.answer k) : s.Evolves e k :=
  .move (by simp [h]) (by simp [h]) hmoves

theorem evolves_idle {e : ClientEvent} (h : s.task? e = none) : s.Evolves e s.sockets :=
  evolves_move h .idle

theorem evolves_runTask (answer : ConnectAnswer) :
    s.Evolves (.attempt (.runTask answer)) (s.step (.runTask answer)).sockets := by
  rw [Attempts.step]
  split
  · rename_i htasks
    exact evolves_idle (congrArg List.head? htasks)
  · rename_i t rest htasks
    have htask : s.task? (.attempt (.runTask answer)) = some t := congrArg List.head? htasks
    cases t with
    | connector t =>
      cases t with
      | start =>
        exact .move (by simp [htask]) (by simp [htask])
          (moves_attempt (s := { s with tasks := rest }) answer)
      | stop => exact .stop htask (stops_stopTask (s := { s with tasks := rest }))
      | reset =>
        refine .reset htask ?_
        rw [Attempts.runTask, sockets_absorb]
        simp [Connector.quiet, sockets]
    | conn t =>
      refine .move (by simp [htask]) (by simp [htask]) ?_
      rw [Attempts.runTask]
      split
      · exact .idle
      · rename_i conn hconn
        exact moves_afterConn (s := { s with tasks := rest }) (conn.runTask t) answer
    | closed =>
      refine .move (by simp [htask]) (by simp [htask]) ?_
      rw [Attempts.runTask]
      split
      · exact .idle
      · exact .idle

/-- What is asked of the connection leaves the sockets alone. -/
theorem sockets_took {co : ClientOutcome Unit} (h : co.client.connector = s.client.connector) :
    (s.took co).sockets = s.sockets := by
  simp [took, sockets, h]

theorem evolves_perform (e : ClientEvent) : s.Evolves e (s.perform e).sockets := by
  cases e with
  | attempt e =>
    cases e with
    | start => exact evolves_idle rfl
    | stopConnect => exact evolves_idle rfl
    | runTask answer => exact evolves_runTask answer
    | timer answer =>
      refine evolves_move rfl ?_
      rw [Attempts.perform, Attempts.step]
      split
      · exact moves_attempt (s := { s with timers := s.timers - 1 }) answer
      · exact .idle
    | writable err =>
      refine evolves_move rfl ?_
      rw [Attempts.perform, Attempts.step]
      split
      · rename_i hpolled
        exact moves_writable hpolled err
      · exact .idle
    | error =>
      refine evolves_move rfl ?_
      rw [Attempts.perform, Attempts.step]
      split
      · rename_i hpolled
        exact moves_error hpolled
      · exact .idle
    | peerClose answer =>
      refine evolves_move rfl ?_
      rw [Attempts.perform, Attempts.step]
      split
      · exact .idle
      · exact moves_afterConn _ answer
  | stop =>
    rw [Attempts.perform, sockets_absorb_of_same rfl rfl rfl rfl rfl]
    exact evolves_idle rfl
  | enableReconnect => exact evolves_idle rfl
  | shutdown inLoop =>
    have hsame : (s.took (s.client.shutdown inLoop)).sockets = s.sockets :=
      sockets_took (connector_onConnection { s.client with running := false } (·.shutdown inLoop)).2
    rw [Attempts.perform, hsame]
    exact evolves_idle rfl
  | forceClose =>
    have hsame : (s.took s.client.forceClose).sockets = s.sockets :=
      sockets_took (connector_onConnection { s.client with running := false } (·.forceClose)).2
    rw [Attempts.perform, hsame]
    exact evolves_idle rfl
  | call call =>
    rw [Attempts.perform]
    split
    · exact evolves_idle rfl
    · exact evolves_idle rfl
  | handler h read write answer =>
    refine evolves_move rfl ?_
    rw [Attempts.perform]
    split
    · exact .idle
    · exact moves_afterConn _ answer

end Attempts

/-! ## Stops that come again -/

namespace Sockets

variable {k k' : Sockets} {spent : Bool}

/-- How often a socket has been closed or handed on. -/
def count (k : Sockets) (fd : Fd) : ℕ := k.closed.count fd + k.handed.count fd

/-- **The socket under way is there to be closed.**  `spent` says that the channel of the last
`connect()` has been dropped by a task. -/
structure Held (k : Sockets) (spent : Bool) : Prop where
  once : ∀ fd, k.count fd ≤ 1
  opened : ∀ fd, 0 < k.count fd → fd < k.opened
  live : ∀ fd ch, k.channel = some (fd, ch) → ch.registered ≠ none → fd < k.opened ∧ k.count fd = 0
  crashed : k.crashed = false
  fresh : k.state = .connecting → spent = false →
    ∃ fd, k.channel = some (fd, Channel.new.setWriteInterest)
  gone : k.state = .connecting → spent = true → k.channel = none

theorem count_concat (l : List Fd) (fd fd' : Fd) :
    (l ++ [fd]).count fd' = l.count fd' + if fd' = fd then 1 else 0 := by
  rw [List.count_append, List.count_singleton]
  rcases eq_or_ne fd' fd with rfl | hne
  · simp
  · simp [hne, hne.symm]

/-- A socket that was not disposed of is disposed of, and there is none under way any more. -/
theorem Held.dispose {spent' : Bool} (h : k.Held spent) {fd : Fd} (hfd : k.count fd = 0) (hlt : fd < k.opened)
    (hcount : ∀ fd', k'.count fd' = k.count fd' + if fd' = fd then 1 else 0)
    (hopened : k'.opened = k.opened) (hcrashed : k'.crashed = k.crashed)
    (hnone : ∀ fd ch, k'.channel = some (fd, ch) → ch.registered = none)
    (hstate : k'.state = .connecting → spent' = true ∧ k'.channel = none) : k'.Held spent' := by
  refine ⟨fun fd' => ?_, fun fd' hpos => ?_, fun fd' ch hch hreg => ?_, hcrashed.trans h.crashed,
    fun hs hfresh => ?_, fun hs _ => (hstate hs).2⟩
  · rw [hcount]
    split
    · rename_i heq
      rw [heq, hfd]
    · exact h.once fd'
  · rw [hcount] at hpos
    rw [hopened]
    split at hpos
    · rename_i heq
      rwa [heq]
    · exact h.opened fd' hpos
  · exact absurd (hnone fd' ch hch) hreg
  · rw [(hstate hs).1] at hfresh
    cases hfresh

/-- The next socket has not been disposed of. -/
theorem Held.count_opened (h : k.Held spent) : k.count k.opened = 0 := by
  by_contra hne
  exact lt_irrefl _ (h.opened _ (Nat.pos_of_ne_zero hne))

/-- **`connect()` starts over**; nothing else makes up for a channel that is gone. -/
theorem Held.moves (h : k.Held spent) {answer : Option ConnectAnswer} (hk : k.Moves answer k') :
    k'.Held (if k.opened < k'.opened ∧ answer = some .progress then false else spent) := by
  cases hk with
  | idle =>
    rw [if_neg (by simp)]
    exact h
  | refuse hrefused =>
    rw [if_neg (by simp [hrefused])]
    have hcount : ∀ fd, count { k with opened := k.opened + 1, closed := k.closed ++ [k.opened] } fd
        = k.count fd + if fd = k.opened then 1 else 0 := by
      intro fd
      rw [count, count, count_concat]
      dsimp only
      omega
    refine ⟨fun fd => ?_, fun fd hpos => ?_, fun fd ch hch hreg => ?_, h.crashed, h.fresh, h.gone⟩
    · rw [hcount]
      split
      · rename_i heq
        rw [heq, h.count_opened]
      · exact h.once fd
    · rw [hcount] at hpos
      split at hpos
      · rename_i heq
        exact heq ▸ Nat.lt_succ_self _
      · exact Nat.lt_succ_of_lt (h.opened fd hpos)
    · obtain ⟨hlt, hzero⟩ := h.live fd ch hch hreg
      rw [hcount, if_neg hlt.ne]
      exact ⟨Nat.lt_succ_of_lt hlt, hzero⟩
  | engage hprogress =>
    rw [if_pos ⟨Nat.lt_succ_self _, hprogress⟩]
    refine ⟨h.once, fun fd hpos => Nat.lt_succ_of_lt (h.opened fd hpos), fun fd ch hch _ => ?_,
      h.crashed, fun _ _ => ⟨_, rfl⟩, fun _ hs => by cases hs⟩
    obtain ⟨rfl, -⟩ := Prod.ext_iff.mp (Option.some.inj hch)
    exact ⟨Nat.lt_succ_self _, h.count_opened⟩
  | close hchannel hregistered htaken hended =>
    obtain ⟨hlt, hzero⟩ := h.live _ _ hchannel hregistered
    refine h.dispose hzero hlt (fun fd' => ?_) rfl rfl (fun fd' ch hch => ?_) fun hs => absurd hs hended
    · rw [count, count, count_concat]
      dsimp only
      omega
    · obtain ⟨-, rfl⟩ := Prod.ext_iff.mp (Option.some.inj hch)
      exact htaken
  | hand hchannel hregistered htaken =>
    obtain ⟨hlt, hzero⟩ := h.live _ _ hchannel hregistered
    refine h.dispose hzero hlt (fun fd' => ?_) rfl rfl (fun fd' ch hch => ?_) fun hs => by cases hs
    · rw [count, count, count_concat]
      dsimp only
      omega
    · obtain ⟨-, rfl⟩ := Prod.ext_iff.mp (Option.some.inj hch)
      exact htaken

/-- A task drops the channel. -/
theorem Held.drop (h : k.Held spent) : Held { k with channel := none } true := by
  refine ⟨h.once, h.opened, fun fd ch hch => ?_, h.crashed, fun _ hs => ?_, fun _ _ => rfl⟩
  · cases hch
  · cases hs

/-- The socket of an attempt whose channel was not dropped. -/
theorem Held.exists_live (h : k.Held spent) (hstate : k.state = .connecting) (hs : spent = false) :
    ∃ fd ch, k.channel = some (fd, ch) ∧ ch.state = .set ∧ ch.registered ≠ none ∧ fd < k.opened
      ∧ k.count fd = 0 := by
  obtain ⟨fd, hchannel⟩ := h.fresh hstate hs
  have hreg : Channel.new.setWriteInterest.registered ≠ none := by decide
  exact ⟨fd, _, hchannel, by decide, hreg, h.live fd _ hchannel hreg⟩

/-- **A stop task** closes the socket under way, if its channel is there. -/
theorem Held.stops (h : k.Held spent) (hs : k.state = .connecting → spent = false) (hk : k.Stops k') :
    k'.Held true := by
  cases hk with
  | idle hstate =>
    exact ⟨h.once, h.opened, h.live, h.crashed, fun hc => absurd hc hstate, fun hc => absurd hc hstate⟩
  | drop hstate => exact h.drop
  | close hstate hchannel =>
    obtain ⟨fd, ch, hch, -, -, hlt, hzero⟩ := h.exists_live hstate (hs hstate)
    rw [hch] at hchannel
    obtain ⟨rfl, rfl⟩ := Prod.ext_iff.mp (Option.some.inj hchannel)
    refine h.dispose hzero hlt (fun fd' => ?_) rfl rfl (fun fd' ch' hch' => ?_) fun _ => ⟨rfl, rfl⟩
    · rw [count, count, count_concat]
      dsimp only
      omega
    · cases hch'
  | null hstate hchannel =>
    obtain ⟨fd, ch, hch, -⟩ := h.exists_live hstate (hs hstate)
    rw [hchannel] at hch
    cases hch

end Sockets

/-- A client, and whether a stop task or a reset task has run since `connect()` last got under way. -/
structure Stopping where
  attempts : Attempts
  spent : Bool

namespace Stopping

def new (reconnect : Bool) : Stopping := ⟨.new reconnect, false⟩

variable (x : Stopping)

/-- The event runs a stop task or a reset task. -/
def Drops (e : ClientEvent) : Prop :=
  x.attempts.task? e = some (.connector .stop) ∨ x.attempts.task? e = some (.connector .reset)

instance (e : ClientEvent) : Decidable (x.Drops e) := inferInstanceAs (Decidable (_ ∨ _))

def step (e : ClientEvent) : Stopping where
  attempts := x.attempts.perform e
  spent :=
    if x.Drops e then true
    else if x.attempts.books.opened < (x.attempts.perform e).books.opened
      ∧ e.answer = some .progress then false
    else x.spent

/-- **A stop task that finds `CONNECTING` has a channel**, which is registered and whose descriptor is
open; and no descriptor is closed twice, and no null channel dereferenced. -/
structure Owned (x : Stopping) (e : ClientEvent) : Prop where
  owned : x.attempts.task? e = some (.connector .stop) → x.attempts.client.connector.state = .connecting →
    ∃ fd ch, x.attempts.client.connector.channel = some (fd, ch) ∧ ch.state = .set
      ∧ ch.registered ≠ none ∧ fd < x.attempts.books.opened ∧ x.attempts.books.count fd = 0
  once : ∀ fd, (x.attempts.perform e).books.count fd ≤ 1
  crashed : (x.attempts.perform e).client.connector.crashed = false

/-- **The first such task** since `connect()` got under way. -/
def Fresh (x : Stopping) (e : ClientEvent) : Prop :=
  x.attempts.task? e = some (.connector .stop) → x.attempts.client.connector.state = .connecting →
    x.spent = false

instance (e : ClientEvent) : Decidable (x.Fresh e) := inferInstanceAs (Decidable (_ → _ → _))

variable {x}

theorem held_new (reconnect : Bool) : (new reconnect).attempts.sockets.Held (new reconnect).spent := by
  refine ⟨fun fd => Nat.zero_le _, fun fd hpos => ?_, fun fd ch hch => ?_, rfl, fun hs => ?_,
    fun _ hs => ?_⟩
  · cases hpos
  · cases hch
  · cases hs
  · cases hs

/-- **One step** keeps the socket under way where it can be closed. -/
theorem held_step (h : x.attempts.sockets.Held x.spent) {e : ClientEvent} (he : x.Fresh e) :
    (x.step e).attempts.sockets.Held (x.step e).spent := by
  show (x.attempts.perform e).sockets.Held _
  rw [step]
  cases x.attempts.evolves_perform e with
  | stop htask hstops =>
    rw [if_pos (.inl htask)]
    exact h.stops (he htask) hstops
  | reset htask hdropped =>
    rw [if_pos (.inr htask), hdropped]
    exact h.drop
  | move hstop hreset hmoves =>
    have hno : ¬ x.Drops e := not_or.mpr ⟨hstop, hreset⟩
    rw [if_neg hno]
    exact h.moves hmoves

theorem owned_iff (h : x.attempts.sockets.Held x.spent) (e : ClientEvent) : x.Owned e ↔ x.Fresh e := by
  constructor
  · intro howned htask hstate
    obtain ⟨fd, ch, hchannel, -⟩ := howned.owned htask hstate
    by_contra hspent
    have hnone := h.gone hstate (by simpa using hspent)
    change x.attempts.client.connector.channel = none at hnone
    rw [hnone] at hchannel
    cases hchannel
  · intro hfresh
    have hnext := held_step h hfresh
    exact ⟨fun htask hstate => h.exists_live hstate (hfresh htask hstate), hnext.once, hnext.crashed⟩

/-- **Repeated stops, exactly.**  In every order of calls, tasks, connect results, socket events and
timers, each stop task that finds `CONNECTING` owns the socket it closes, if and only if no stop task
or reset task came between it and the `connect()` it is to undo. -/
theorem owned_iff_fresh (reconnect : Bool) (es : List ClientEvent) :
    Meets step Owned (new reconnect) es ↔ Meets step Fresh (new reconnect) es :=
  @meets_iff_of_inv _ _ step Owned (fun x => x.attempts.sockets.Held x.spent) Fresh
    (fun _ e h => owned_iff h e) (fun _ _ h he => held_step h he) _ (held_new reconnect) es

/-- **Two stops.**  The socket under way is closed by the first stop task; the second, which the
destructor of the client has queued, finds `CONNECTING` and no channel. -/
theorem second_stop_unowned : ¬ Meets step Owned (new false)
    [.attempt .start, .attempt (.runTask .progress), .attempt .stopConnect, .stop,
      .attempt (.runTask .progress), .attempt (.runTask .progress)] := by
  rintro ⟨-, -, -, -, -, hsecond, -⟩
  exact absurd hsecond.crashed (by decide)

end Stopping
