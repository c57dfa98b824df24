import Rpx.Core.Reconnect
import Rpx.Core.ServerRefs
import Rpx.Core.Stopping

/-!
# Core/Lifetimes — what holds a connector, and what follows it by address

    ~TcpClient ──stop()──▶ stop task (holds the connector) ──▶ end of its batch ──▶ ~Connector

The tasks that `start()` and `handleWrite` queue follow the connector by its bare address, and the
connector and the connection follow the client so.  None of them holds what it follows.  What keeps them
from an object that is gone is the stop task that the destructor of the client queues: it comes behind
every such task, or in the same batch, and a batch lets go of nothing before its end.

`unstrayed_run` — it is enough that the client has no connection, and no close task to come, when it is
destroyed, and that no attempt succeeds while an earlier connection is still there.
-/

open Machinery

namespace Connector

/-! ## What has to drop the channel -/

/-- A stop task drops the channel. -/
def Stoppable (c : Connector) : Prop := c.channel ≠ none ∧ (c.state = .connecting ∨ c.state = .retrying)

/-- Only a reset task does. -/
def Parked (c : Connector) : Prop :=
  c.channel ≠ none ∧ ¬ (c.state = .connecting ∨ c.state = .retrying)

variable {c : Connector}

theorem stoppable_or_parked (h : c.channel ≠ none) : c.Stoppable ∨ c.Parked := by
  by_cases hstate : c.state = .connecting ∨ c.state = .retrying
  · exact .inl ⟨h, hstate⟩
  · exact .inr ⟨h, hstate⟩

/-- **A channel is parked together with the task that drops it.** -/
def Leaves (c : Connector) (out : ConnectorOutcome) : Prop :=
  out.connector.Parked → c.Parked ∨ .reset ∈ out.queued

/-- **A connector that was stopped winds down**: it starts nothing, and makes no channel. -/
structure Winds (c : Connector) (out : ConnectorOutcome) : Prop where
  running : out.connector.running = false
  timers : out.timers = []
  handed : out.handed = none
  queued : ∀ t ∈ out.queued, t = .reset ∧ c.Stoppable
  stoppable : out.connector.Stoppable → c.Stoppable

/-- It goes by the channel and the state alone. -/
theorem parked_congr {d : Connector} (hchannel : d.channel = c.channel) (hstate : d.state = c.state) :
    d.Parked ↔ c.Parked := by
  rw [Parked, Parked, hchannel, hstate]

/-- Trying again leaves the channel and the state as they are. -/
theorem retry_same (c : Connector) (fd : Fd) :
    (c.retry fd).connector.channel = c.channel ∧ (c.retry fd).connector.state = c.state := by
  rw [retry]
  split
  · exact ⟨rfl, rfl⟩
  · exact ⟨rfl, rfl⟩

theorem leaves_connect (c : Connector) (fd : Fd) (answer : ConnectAnswer) :
    c.Leaves (c.connect fd answer) := by
  cases answer with
  | progress => exact fun h => absurd (.inl rfl) h.2
  | again => exact fun h => .inl ((parked_congr (c.retry_same fd).1 (c.retry_same fd).2).mp h)
  | fatal => exact .inl

/-- A socket given up is `RETRYING`. -/
theorem not_parked_retry {d : Connector} (hstate : d.state = .retrying) (fd : Fd) :
    ¬ (d.retry fd).connector.Parked := fun h =>
  h.2 (.inr ((d.retry_same fd).2.trans hstate))

theorem leaves_handleWrite (c : Connector) (err : Bool) : c.Leaves (c.handleWrite err) := by
  intro h
  rw [handleWrite] at h ⊢
  split at h
  · rename_i hstate
    rw [if_pos hstate]
    cases hch : c.channel with
    | none =>
      rw [unregisterChannel, hch] at h
      exact absurd rfl h.1
    | some x =>
      rw [unregisterChannel, hch] at h ⊢
      dsimp only at h ⊢
      cases err with
      | true => exact absurd h (not_parked_retry rfl x.1)
      | false =>
        right
        rw [if_neg (by simp)]
        split
        · exact List.mem_singleton_self _
        · exact List.mem_singleton_self _
  · exact .inl h

theorem leaves_handleError (c : Connector) : c.Leaves c.handleError := by
  intro h
  rw [handleError] at h
  split at h
  · cases hch : c.channel with
    | none =>
      rw [unregisterChannel, hch] at h
      exact absurd rfl h.1
    | some x =>
      rw [unregisterChannel, hch] at h
      exact absurd h (not_parked_retry rfl x.1)
  · exact .inl h

/-- **A stop task** drops the channel, or finds it parked. -/
theorem stopTask_drops (c : Connector) : ¬ c.stopTask.connector.Stoppable ∧ c.Leaves c.stopTask := by
  rw [stopTask]
  by_cases hstate : c.state = .connecting
  · have hsame : c.unregisterChannel.2.state = .connecting := by
      cases hch : c.channel with
      | none => rw [unregisterChannel, hch]; exact hstate
      | some x => rw [unregisterChannel, hch]; exact hstate
    simp only [hstate, if_pos, hsame, true_or]
    exact ⟨fun h => h.1 rfl, fun h => absurd rfl h.1⟩
  · simp only [hstate, if_neg, not_false_iff, false_or]
    split
    · exact ⟨fun h => h.1 rfl, fun h => absurd rfl h.1⟩
    · rename_i hretrying
      exact ⟨fun h => h.2.elim hstate hretrying, .inl⟩

theorem queued_handleError (c : Connector) : c.handleError.queued = [] := by
  rw [handleError]
  split
  · split
    · rfl
    · exact queued_retry
  · rfl

/-! ## A connector that was stopped -/

theorem winds_quiet (h : c.running = false) : c.Winds c.quiet :=
  ⟨h, rfl, rfl, fun _ ht => absurd ht List.not_mem_nil, id⟩

/-- A socket is given up, and not tried again. -/
theorem winds_retry {d : Connector} (h : d.running = false) (hd : d.Stoppable → c.Stoppable) (fd : Fd) :
    c.Winds (d.retry fd) := by
  rw [retry, if_neg (by simp [h])]
  exact ⟨h, rfl, rfl, fun _ ht => absurd ht List.not_mem_nil, hd⟩

/-- The socket under way. -/
theorem stoppable_of_connecting (hstate : c.state = .connecting) {x : Fd × Channel}
    (hch : c.channel = some x) : c.Stoppable :=
  ⟨by rw [hch]; exact Option.some_ne_none x, .inl hstate⟩

theorem winds_handleWrite (h : c.running = false) (err : Bool) : c.Winds (c.handleWrite err) := by
  rw [handleWrite]
  split
  · rename_i hstate
    cases hch : c.channel with
    | none =>
      rw [unregisterChannel, hch]
      exact ⟨h, rfl, rfl, fun _ ht => absurd ht List.not_mem_nil, fun hs => absurd rfl hs.1⟩
    | some x =>
      have hstoppable := stoppable_of_connecting hstate hch
      rw [unregisterChannel, hch]
      dsimp only
      split
      · refine winds_retry ?_ ?_ x.1
        · exact h
        · exact fun _ => hstoppable
      · rw [if_neg (by simp [h])]
        exact ⟨h, rfl, rfl, fun t ht => ⟨List.mem_singleton.mp ht, hstoppable⟩, fun _ => hstoppable⟩
  · exact winds_quiet h

theorem winds_handleError (h : c.running = false) : c.Winds c.handleError := by
  rw [handleError]
  split
  · rename_i hstate
    cases hch : c.channel with
    | none =>
      rw [unregisterChannel, hch]
      exact ⟨h, rfl, rfl, fun _ ht => absurd ht List.not_mem_nil, fun hs => absurd rfl hs.1⟩
    | some x =>
      rw [unregisterChannel, hch]
      refine winds_retry ?_ ?_ x.1
      · exact h
      · exact fun _ => stoppable_of_connecting hstate hch
  · exact winds_quiet h

theorem winds_stopTask (h : c.running = false) : c.Winds c.stopTask := by
  obtain ⟨-, hrunning, hhanded⟩ := c.stopTask_spec
  exact ⟨hrunning.trans h, rfl, hhanded, fun _ ht => absurd ht List.not_mem_nil,
    fun hs => absurd hs c.stopTask_drops.1⟩

/-- The task that drops the channel. -/
theorem winds_reset (h : c.running = false) : c.Winds (quiet { c with channel := none }) :=
  ⟨h, rfl, rfl, fun _ ht => absurd ht List.not_mem_nil, fun hs => absurd rfl hs.1⟩

end Connector

namespace Attempts

variable {s : Attempts}

/-! ## Every client -/

/-- **What holds of every client.** -/
structure Tidy (s : Attempts) : Prop where
  /-- The close callback of the connection is still to run only while `_connection` is set. -/
  opened : s.client.isOpen = true → s.client.connection = true
  closable : ∀ conn ∈ s.client.conn, conn.Closable
  /-- A channel that only a reset task drops has one. -/
  parked : s.client.connector.Parked → .connector .reset ∈ s.tasks

theorem tidy_new (reconnect : Bool) : (new reconnect).Tidy :=
  ⟨fun h => (by cases h), fun _ hconn => (by cases hconn), fun h => absurd rfl h.1⟩

/-- The connector that is left. -/
theorem connector_absorb (out : ConnectorOutcome) : (s.absorb out).client.connector = out.connector := by
  rw [absorb, TcpClient.withConnector]
  dsimp only
  split
  · rfl
  · rfl

theorem destroyed_absorb (out : ConnectorOutcome) :
    (s.absorb out).client.destroyed = s.client.destroyed := by
  rw [absorb, TcpClient.withConnector]
  dsimp only
  split
  · rfl
  · rfl

/-- **What the connector leaves behind.** -/
theorem Tidy.absorb (h : s.Tidy) {out : ConnectorOutcome} (hout : s.client.connector.Leaves out) :
    (s.absorb out).Tidy := by
  have hparked : (s.absorb out).client.connector.Parked → .connector .reset ∈ (s.absorb out).tasks := by
    intro hp
    rw [connector_absorb] at hp
    show _ ∈ s.tasks ++ out.queued.map ClientTask.connector
    rcases hout hp with hp | hr
    · exact List.mem_append_left _ (h.parked hp)
    · exact List.mem_append_right _ (List.mem_map.mpr ⟨_, hr, rfl⟩)
  cases hhanded : out.handed with
  | none =>
    have hclient : (s.absorb out).client = { s.client with connector := out.connector } := by
      rw [Attempts.absorb, TcpClient.withConnector, hhanded]
      rfl
    refine ⟨?_, ?_, hparked⟩
    · rw [hclient]
      exact h.opened
    · rw [hclient]
      exact h.closable
  | some fd =>
    have hclient : (s.absorb out).client
        = TcpClient.newConnection { s.client with connector := out.connector } := by
      rw [Attempts.absorb, TcpClient.withConnector, hhanded]
      rfl
    refine ⟨?_, ?_, hparked⟩
    · rw [hclient]
      exact fun _ => rfl
    · rw [hclient]
      intro conn hconn
      cases hconn
      exact .inl rfl

theorem Tidy.connect (h : s.Tidy) {out : ConnectorOutcome} (hout : s.client.connector.Leaves out)
    (answer : ConnectAnswer) : (s.connect out answer).Tidy :=
  have habsorb := h.absorb hout
  ⟨habsorb.opened, habsorb.closable, habsorb.parked⟩

theorem Tidy.attempt (h : s.Tidy) (answer : ConnectAnswer) : (s.attempt answer).Tidy := by
  rw [Attempts.attempt]
  split
  · rename_i hrun
    refine h.connect ?_ answer
    rw [Connector.attempt, if_pos hrun]
    exact s.client.connector.leaves_connect _ answer
  · exact h

/-- The connection changes, and not in its close callback. -/
theorem Tidy.withConn (h : s.Tidy) {conn : TcpConnection} {out : Outcome} (hconn : s.client.conn = some conn)
    (hkeeps : conn.Keeps out) (running : Bool) (ts : List ClientTask) : Tidy { s with
      client := { s.client with conn := some out.conn, running := running }
      tasks := s.tasks ++ ts } := by
  have hsame : out.conn.closeCallback = conn.closeCallback := congrArg (·.2.2.1) hkeeps.callbacks
  refine ⟨fun ho => h.opened ?_, fun conn' hconn' => ?_, fun hp => List.mem_append_left _ (h.parked hp)⟩
  · rw [TcpClient.isOpen, hconn]
    simpa [TcpClient.isOpen, hsame] using ho
  · cases hconn'
    exact hkeeps.closable (h.closable conn hconn)

/-- **A member function of the connection**, which may close it. -/
theorem Tidy.afterConn (h : s.Tidy) {conn : TcpConnection} {out : Outcome} (hconn : s.client.conn = some conn)
    (hout : conn.Keeps out ∨ conn.Closes out) (answer : ConnectAnswer) : (s.afterConn out answer).Tidy := by
  rw [Attempts.afterConn]
  rcases hout with hkeeps | hcloses
  · rw [if_neg hkeeps.uncalled]
    exact h.withConn hconn hkeeps s.client.running _
  · rw [if_pos hcloses.called, Attempts.handleClose]
    dsimp only
    have hclosed : Tidy { s with
        client := { s.client with conn := some out.conn, connection := false }
        tasks := s.tasks ++ out.queued.map ClientTask.conn ++ [.closed]
        books := { s.books with ended := s.books.ended ++ s.books.handed.getLast?.toList } } := by
      refine ⟨fun ho => ?_, fun conn' hconn' => ?_, fun hp => ?_⟩
      · have hclear : out.conn.closeCallback = false := congrArg (·.2.2.1) hcloses.silent
        simp [TcpClient.isOpen, hclear] at ho
      · cases hconn'
        exact .inr ⟨hcloses.silent, hcloses.state⟩
      · exact List.mem_append_left _ (List.mem_append_left _ (h.parked hp))
    split
    · exact hclosed.connect (Connector.leaves_connect { s.client.connector with
        retryDelayMs := Connector.kInitRetryDelayMs, running := true } _ answer) answer
    · exact hclosed

/-- What is asked of the connection, when there is one. -/
theorem Tidy.onConnection (h : s.Tidy) {f : TcpConnection → Outcome}
    (hf : ∀ conn : TcpConnection, conn.Keeps (f conn)) :
    (s.took (TcpClient.onConnection { s.client with running := false } f)).Tidy := by
  rw [TcpClient.onConnection]
  split
  · cases hconn : s.client.conn with
    | none => exact ⟨h.opened, h.closable, fun hp => List.mem_append_left _ (h.parked hp)⟩
    | some conn => exact h.withConn hconn (hf conn) false _
  · exact ⟨h.opened, h.closable, fun hp => List.mem_append_left _ (h.parked hp)⟩

/-- Another task than the one that drops the channel is taken. -/
theorem Tidy.pop (h : s.Tidy) {t : ClientTask} {rest : List ClientTask} (htasks : s.tasks = t :: rest)
    (ht : t ≠ .connector .reset) : Tidy { s with tasks := rest } :=
  ⟨h.opened, h.closable, fun hp => (List.mem_cons.mp (htasks ▸ h.parked hp)).resolve_left ht.symm⟩

theorem Tidy.runTask (h : s.Tidy) {t : ClientTask} {rest : List ClientTask} (htasks : s.tasks = t :: rest)
    (answer : ConnectAnswer) : (Attempts.runTask { s with tasks := rest } answer t).Tidy := by
  cases t with
  | connector t =>
    cases t with
    | start => exact (h.pop htasks (by decide)).attempt answer
    | stop => exact (h.pop htasks (by decide)).absorb s.client.connector.stopTask_drops.2
    | reset => exact ⟨h.opened, h.closable, fun hp => absurd rfl hp.1⟩
  | conn t =>
    have hpop := h.pop htasks (by simp)
    rw [Attempts.runTask]
    cases hconn : s.client.conn with
    | none => exact hpop
    | some conn => exact hpop.afterConn hconn ((h.closable conn hconn).runTask t) answer
  | closed =>
    have hpop := h.pop htasks (by simp)
    rw [Attempts.runTask]
    split
    · exact hpop
    · refine ⟨fun ho => hpop.opened ?_, fun conn hconn => ?_, hpop.parked⟩
      · rwa [TcpClient.isOpen_connectDestroyed] at ho
      · obtain ⟨conn', hconn', rfl⟩ := Option.mem_map.mp hconn
        rcases h.closable conn' hconn' with hset | ⟨hsilent, hstate⟩
        · exact .inl ((congrArg (·.2.2.1) conn'.callbacks_connectDestroyed).trans hset)
        · refine .inr ⟨conn'.callbacks_connectDestroyed.trans hsilent, ?_⟩
          rw [TcpConnection.connectDestroyed, if_neg (by simp [hstate])]
          exact hstate

/-- **Every event keeps a client tidy.** -/
theorem Tidy.perform (h : s.Tidy) (e : ClientEvent) : (s.perform e).Tidy := by
  cases e with
  | attempt e =>
    cases e with
    | start => exact ⟨h.opened, h.closable, fun hp => List.mem_append_left _ (h.parked hp)⟩
    | stopConnect => exact ⟨h.opened, h.closable, fun hp => List.mem_append_left _ (h.parked hp)⟩
    | runTask answer =>
      rw [Attempts.perform, Attempts.step]
      split
      · exact h
      · rename_i t rest htasks
        exact h.runTask htasks answer
    | timer answer =>
      rw [Attempts.perform, Attempts.step]
      split
      · exact Tidy.attempt (s := { s with timers := s.timers - 1 }) ⟨h.opened, h.closable, h.parked⟩ answer
      · exact h
    | writable err =>
      rw [Attempts.perform, Attempts.step]
      split
      · exact h.absorb (s.client.connector.leaves_handleWrite err)
      · exact h
    | error =>
      rw [Attempts.perform, Attempts.step]
      split
      · exact h.absorb s.client.connector.leaves_handleError
      · exact h
    | peerClose answer =>
      rw [Attempts.perform, Attempts.step]
      cases hconn : s.client.conn with
      | none => exact h
      | some conn => exact h.afterConn hconn (h.closable conn hconn).handleClose answer
  | stop => exact h.absorb .inl
  | enableReconnect => exact ⟨h.opened, h.closable, h.parked⟩
  | shutdown inLoop => exact h.onConnection fun conn => conn.keeps_call (.shutdown inLoop)
  | forceClose => exact h.onConnection fun conn => conn.keeps_call .forceClose
  | call call =>
    rw [Attempts.perform]
    cases hconn : s.client.conn with
    | none => exact h
    | some conn => exact h.withConn hconn (conn.keeps_call call) s.client.running _
  | handler hd read write answer =>
    rw [Attempts.perform]
    cases hconn : s.client.conn with
    | none => exact h
    | some conn => exact h.afterConn hconn ((h.closable conn hconn).handle read write hd) answer

/-! ## A client that was destroyed -/

/-- The destructor ran while there was no connection. -/
structure Parted (s : Attempts) : Prop where
  running : s.client.connector.running = false
  connection : s.client.connection = false
  /-- The connection made last has run its close callback. -/
  silent : ∀ conn ∈ s.client.conn, conn.Silent

/-- **What a step of the loop makes of it**: at most a reset task, when the socket under way becomes
`writable`, and tasks of a connection that has closed. -/
structure Wanes (writable : Prop) (s t : Attempts) : Prop where
  running : t.client.connector.running = false
  connection : t.client.connection = false
  timers : t.timers ≤ s.timers
  stoppable : t.client.connector.Stoppable → s.client.connector.Stoppable
  tasks : ∃ ts, t.tasks = s.tasks ++ ts ∧ ∀ u ∈ ts,
    (∃ v, u = .conn v) ∨ u = .connector .reset ∧ writable ∧ s.client.connector.Stoppable

theorem Tidy.parted (h : s.Tidy) (hrunning : s.client.connector.running = false)
    (hconnection : s.client.connection = false) : s.Parted := by
  refine ⟨hrunning, hconnection, fun conn hconn => ?_⟩
  refine ((h.closable conn hconn).resolve_left fun hset => ?_).1
  have hopen := h.opened (by simp [TcpClient.isOpen, Option.mem_def.mp hconn, hset])
  rw [hconnection] at hopen
  cases hopen

theorem Parted.idle (h : s.Parted) (writable : Prop) : s.Wanes writable s :=
  ⟨h.running, h.connection, le_rfl, id, [], (List.append_nil _).symm, fun _ hu => absurd hu List.not_mem_nil⟩

/-- What the connector leaves behind. -/
theorem Parted.absorb (h : s.Parted) {writable : Prop} {out : ConnectorOutcome}
    (hout : s.client.connector.Winds out) (hqueued : out.queued = [] ∨ writable) :
    s.Wanes writable (s.absorb out) := by
  refine ⟨?_, ?_, ?_, fun hs => ?_, out.queued.map .connector, rfl, fun u hu => ?_⟩
  · rw [connector_absorb]
    exact hout.running
  · rw [Attempts.absorb, TcpClient.withConnector, hout.handed]
    exact h.connection
  · show s.timers + out.timers.length ≤ s.timers
    rw [hout.timers]
    exact le_rfl
  · rw [connector_absorb] at hs
    exact hout.stoppable hs
  · obtain ⟨t, ht, rfl⟩ := List.mem_map.mp hu
    obtain ⟨rfl, hstoppable⟩ := hout.queued t ht
    refine .inr ⟨rfl, hqueued.resolve_left fun hnil => ?_, hstoppable⟩
    rw [hnil] at ht
    cases ht

/-- Tasks that start another attempt start none. -/
theorem Parted.attempt (h : s.Parted) (writable : Prop) (answer : ConnectAnswer) :
    s.Wanes writable (s.attempt answer) := by
  rw [Attempts.attempt, if_neg (by simp [h.running])]
  exact h.idle writable

/-- Nothing but the connection changes. -/
theorem Parted.withConn (h : s.Parted) (writable : Prop) (out : Outcome) :
    s.Wanes writable (s.took (s.client.withConn out)) :=
  ⟨h.running, h.connection, le_rfl, id, out.queued.map .conn, rfl, fun _ hu =>
    .inl (by obtain ⟨v, -, rfl⟩ := List.mem_map.mp hu; exact ⟨v, rfl⟩)⟩

/-- **Its connection does not close again.** -/
theorem Parted.afterConn (h : s.Parted) (writable : Prop) {conn : TcpConnection} {out : Outcome}
    (hconn : s.client.conn = some conn) (hout : conn.Onward out) (answer : ConnectAnswer) :
    s.Wanes writable (s.afterConn out answer) := by
  rw [Attempts.afterConn, (hout.hushed (h.silent conn hconn)).1, if_neg List.not_mem_nil]
  exact h.withConn writable out

/-- What may happen once the client is destroyed: tasks, timers, sockets, and what others do to its
connection. -/
def Remains : ClientEvent → Prop
  | .attempt .start | .attempt .stopConnect | .stop | .enableReconnect | .shutdown _ | .forceClose => False
  | _ => True

/-- The socket under way becomes writable. -/
def IsWritable : ClientEvent → Prop
  | .attempt (.writable _) => True
  | _ => False

theorem Parted.runTask (h : s.Parted) (writable : Prop) (answer : ConnectAnswer) {t : ClientTask} :
    s.Wanes writable (s.runTask answer t) := by
  cases t with
  | connector t =>
    cases t with
    | start => exact h.attempt writable answer
    | stop => exact h.absorb (Connector.winds_stopTask h.running) (.inl rfl)
    | reset => exact h.absorb (Connector.winds_reset h.running) (.inl rfl)
  | conn t =>
    rw [Attempts.runTask]
    cases hconn : s.client.conn with
    | none => exact h.idle writable
    | some conn => exact h.afterConn writable hconn (conn.runTask_onward t) answer
  | closed =>
    rw [Attempts.runTask]
    split
    · exact h.idle writable
    · exact ⟨h.running, h.connection, le_rfl, id, [], (List.append_nil _).symm,
        fun _ hu => absurd hu List.not_mem_nil⟩

/-- **What happens besides the tasks.** -/
theorem Parted.perform (h : s.Parted) {e : ClientEvent} (he : Remains e) (htask : s.task? e = none) :
    s.Wanes (IsWritable e) (s.perform e) := by
  cases e with
  | attempt e =>
    cases e with
    | start => exact he.elim
    | stopConnect => exact he.elim
    | runTask answer =>
      have hnil : s.tasks = [] := List.head?_eq_none_iff.mp htask
      rw [Attempts.perform, Attempts.step, hnil]
      exact h.idle _
    | timer answer =>
      rw [Attempts.perform, Attempts.step]
      split
      · have hparted : Parted { s with timers := s.timers - 1 } :=
          ⟨h.running, h.connection, h.silent⟩
        have hwanes := hparted.attempt (IsWritable (.attempt (.timer answer))) answer
        exact ⟨hwanes.running, hwanes.connection, hwanes.timers.trans (Nat.sub_le _ _), hwanes.stoppable,
          hwanes.tasks⟩
      · exact h.idle _
    | writable err =>
      rw [Attempts.perform, Attempts.step]
      split
      · exact h.absorb (Connector.winds_handleWrite h.running err) (.inr trivial)
      · exact h.idle _
    | error =>
      rw [Attempts.perform, Attempts.step]
      split
      · refine h.absorb (Connector.winds_handleError h.running) (.inl ?_)
        exact s.client.connector.queued_handleError
      · exact h.idle _
    | peerClose answer =>
      rw [Attempts.perform, Attempts.step]
      cases hconn : s.client.conn with
      | none => exact h.idle _
      | some conn => exact h.afterConn _ hconn conn.handleClose_onward answer
  | stop => exact he.elim
  | enableReconnect => exact he.elim
  | shutdown inLoop => exact he.elim
  | forceClose => exact he.elim
  | call call =>
    rw [Attempts.perform]
    cases hconn : s.client.conn with
    | none => exact h.idle _
    | some conn => exact h.withConn _ (conn.call call)
  | handler hd read write answer =>
    rw [Attempts.perform]
    cases hconn : s.client.conn with
    | none => exact h.idle _
    | some conn => exact h.afterConn _ hconn (conn.handle_onward read write hd) answer

theorem destroyed_attempt (answer : ConnectAnswer) :
    (s.attempt answer).client.destroyed = s.client.destroyed := by
  rw [Attempts.attempt]
  split
  · exact destroyed_absorb _
  · rfl

theorem destroyed_afterConn (out : Outcome) (answer : ConnectAnswer) :
    (s.afterConn out answer).client.destroyed = s.client.destroyed := by
  rw [Attempts.afterConn]
  split
  · rw [Attempts.handleClose]
    dsimp only
    split
    · exact destroyed_absorb _
    · rfl
  · rfl

theorem destroyed_onConnection (c : TcpClient Unit) (f : TcpConnection → Outcome) :
    (c.onConnection f).client.destroyed = c.destroyed := by
  rw [TcpClient.onConnection]
  split
  · split
    · rfl
    · rfl
  · rfl

theorem destroyed_runTask (answer : ConnectAnswer) (t : ClientTask) :
    (s.runTask answer t).client.destroyed = s.client.destroyed := by
  cases t with
  | connector t =>
    cases t with
    | start => exact destroyed_attempt answer
    | stop => exact destroyed_absorb _
    | reset => exact destroyed_absorb _
  | conn t =>
    rw [Attempts.runTask]
    split
    · rfl
    · exact destroyed_afterConn _ answer
  | closed =>
    rw [Attempts.runTask]
    split
    · rfl
    · rfl

/-- Only the destructor destroys a client. -/
theorem destroyed_perform (e : ClientEvent) : (s.perform e).client.destroyed = s.client.destroyed := by
  cases e with
  | attempt e =>
    cases e with
    | start => rfl
    | stopConnect => rfl
    | runTask answer =>
      rw [Attempts.perform, Attempts.step]
      split
      · rfl
      · exact destroyed_runTask answer _
    | timer answer =>
      rw [Attempts.perform, Attempts.step]
      split
      · exact destroyed_attempt answer
      · rfl
    | writable err =>
      rw [Attempts.perform, Attempts.step]
      split
      · exact destroyed_absorb _
      · rfl
    | error =>
      rw [Attempts.perform, Attempts.step]
      split
      · exact destroyed_absorb _
      · rfl
    | peerClose answer =>
      rw [Attempts.perform, Attempts.step]
      split
      · rfl
      · exact destroyed_afterConn _ answer
  | stop => exact destroyed_absorb _
  | enableReconnect => rfl
  | shutdown inLoop => exact destroyed_onConnection { s.client with running := false } _
  | forceClose => exact destroyed_onConnection { s.client with running := false } _
  | call call =>
    rw [Attempts.perform]
    split
    · rfl
    · rfl
  | handler hd read write answer =>
    rw [Attempts.perform]
    split
    · rfl
    · exact destroyed_afterConn _ answer

end Attempts

/-! ## Bare pointers -/

/-- The task follows the connector by its address. -/
def ClientTask.Bare (t : ClientTask) : Prop := t = .connector .start ∨ t = .connector .reset

namespace Attempts

variable {s : Attempts}

/-- A task that runs was queued. -/
theorem mem_of_task? {e : ClientEvent} {t : ClientTask} (h : s.task? e = some t) : t ∈ s.tasks := by
  rw [task?.eq_def] at h
  split at h
  · exact List.mem_of_head? h
  · cases h

/-- The event runs the new-connection callback of the connector. -/
def hands (s : Attempts) : ClientEvent → Bool
  | .attempt (.writable err) =>
    s.client.connector.polled && (s.client.connector.handleWrite err).handed.isSome
  | _ => false

/-- What the event makes a member function of the connection do, other than what users call. -/
def outcome? (s : Attempts) (conn : TcpConnection) : ClientEvent → Option Outcome
  | .attempt (.runTask _) =>
    match s.tasks.head? with
    | some (.conn t) => some (conn.runTask t)
    | _ => none
  | .attempt (.peerClose _) => some conn.handleClose
  | .handler h read write _ => some (conn.handle read write h)
  | _ => none

/-- The event runs the close callback of the connection. -/
def closes (s : Attempts) (e : ClientEvent) : Bool :=
  s.client.conn.any fun conn => (s.outcome? conn e).any fun out => decide (.close ∈ out.called)

/-- **Neither callback is run any more.** -/
theorem Parted.hands (h : s.Parted) (e : ClientEvent) : s.hands e = false := by
  rw [Attempts.hands.eq_def]
  split
  · rename_i err
    rw [(Connector.winds_handleWrite h.running err).handed]
    exact Bool.and_false _
  · rfl

theorem Parted.closes (h : s.Parted) (e : ClientEvent) : s.closes e = false := by
  rw [Attempts.closes]
  cases hconn : s.client.conn with
  | none => rfl
  | some conn =>
    have hquiet : ∀ out : Outcome, conn.Onward out → decide (.close ∈ out.called) = false := fun out hout => by
      rw [(hout.hushed (h.silent conn hconn)).1]
      rfl
    rw [Option.any_some, Attempts.outcome?.eq_def]
    split
    · split
      · exact hquiet _ (conn.runTask_onward _)
      · rfl
    · exact hquiet _ conn.handleClose_onward
    · exact hquiet _ (conn.handle_onward _ _ _)
    · rfl

end Attempts

/-! ## The owner of a client, and its loop -/

/-- What becomes of a client and of its connector. -/
structure ClientLife where
  attempts : Attempts
  /-- The tasks of the batch that have been called, and how many have not. -/
  ran : List ClientTask
  left : ℕ
  /-- `~Connector` has run. -/
  gone : Bool
  /-- A bare pointer was followed to an object that had been destroyed. -/
  strayed : Bool
  /-- The assertion of `~Connector` has failed, or a connection that had not closed was let go of. -/
  asserted : Bool

inductive OwnerEvent
  | event (e : ClientEvent)
  /-- The last reference to the client is dropped; `unique` says whether `_connection` is the last one
  to the connection. -/
  | destroy (unique : Bool)
  /-- `loop()` swaps out `_pendingTask`. -/
  | swap
  /-- The batch has been called, and is destroyed with all that its tasks hold. -/
  | batchDone

namespace ClientLife

def new (reconnect : Bool) : ClientLife := ⟨.new reconnect, [], 0, false, false, false⟩

variable (x : ClientLife)

/-- The loop is not in a batch. -/
def resting : Bool := x.left == 0 && x.ran.isEmpty

/-- What can happen: calls on the client while it is there, tasks in a batch, and the handlers of the
loop outside. -/
def allows : ClientEvent → Bool
  | .attempt .start | .attempt .stopConnect | .enableReconnect | .shutdown _ | .forceClose =>
    !x.attempts.client.destroyed
  | .stop => false
  | .attempt (.runTask _) => decide (0 < x.left)
  | .call _ => true
  | .attempt (.timer _) | .attempt (.writable _) | .attempt .error | .attempt (.peerClose _)
  | .handler .. => x.resting

/-- The event goes by a bare pointer to what has been destroyed: to the client from the callbacks of the
connector and the connection, and from the close task; to the connector from the tasks of `start()` and
`handleWrite`. -/
def strays (e : ClientEvent) : Bool :=
  x.attempts.client.destroyed
      && (x.attempts.hands e || x.attempts.closes e || x.attempts.task? e == some .closed)
    || x.gone && (x.attempts.task? e == some (.connector .start)
      || x.attempts.task? e == some (.connector .reset))

/-- The event puts a new connection in the place of one that has not closed.  The assertion of
`~TcpConnection` fails, or, if somebody else holds the connection, that of `handleClose` when it closes. -/
def overwrites (e : ClientEvent) : Bool := x.attempts.client.connection && x.attempts.hands e

/-- Something holds the connector: the client, a stop task that is queued or was called in this batch, or
a retry timer. -/
def held : Bool :=
  !x.attempts.client.destroyed || x.attempts.tasks.contains (.connector .stop)
    || x.ran.contains (.connector .stop) || decide (0 < x.attempts.timers)

/-- `~Connector` runs, with its assertion, once nothing holds the connector. -/
def settle : ClientLife :=
  if x.gone || x.held then x
  else { x with
    gone := true
    asserted := x.asserted || x.attempts.client.connector.channel.isSome }

def perform : OwnerEvent → ClientLife
  | .event e =>
    if x.allows e then
      settle { x with
        attempts := x.attempts.perform e
        ran := x.ran ++ (x.attempts.task? e).toList
        left := x.left - (x.attempts.task? e).toList.length
        strayed := x.strayed || x.strays e
        asserted := x.asserted || x.overwrites e }
    else x
  | .destroy unique =>
    if x.attempts.client.destroyed then x
    else settle { x with attempts := x.attempts.took (x.attempts.client.destroy unique) }
  | .swap => if x.resting then { x with left := x.attempts.tasks.length } else x
  | .batchDone => if x.left = 0 then settle { x with ran := [] } else x

/-- Undefined behaviour has begun, or the process has ended. -/
def ended : Bool := x.strayed || x.asserted || x.attempts.client.connector.crashed

def step (e : OwnerEvent) : ClientLife := if x.ended then x else x.perform e

/-- **The owner parts with a client that is through**: it has no connection, and its close task has been
called.  And no attempt succeeds before the connection of an earlier one has closed. -/
def Parts (x : ClientLife) : OwnerEvent → Prop
  | .destroy _ => x.attempts.client.destroyed = false →
      x.attempts.client.connection = false ∧ .closed ∉ x.attempts.tasks
  | .event e => x.allows e = true → x.overwrites e = false
  | _ => True

instance (x : ClientLife) : ∀ e, Decidable (x.Parts e)
  | .destroy _ | .event _ => inferInstanceAs (Decidable (_ → _))
  | .swap | .batchDone => inferInstanceAs (Decidable True)

end ClientLife

/-! ## Every step -/

namespace ClientLife

variable {x : ClientLife}

/-- **What holds once the client is destroyed.** -/
structure Dead (x : ClientLife) : Prop where
  parted : x.attempts.Parted
  closed : .closed ∉ x.attempts.tasks
  /-- Behind the tasks of a later batch comes a stop task. -/
  behind : ∀ t ∈ x.attempts.tasks.drop x.left, t.Bare → .connector .stop ∈ x.attempts.tasks.drop x.left
  /-- With the tasks of this batch there is one. -/
  batch : ∀ t ∈ x.attempts.tasks, t.Bare →
    .connector .stop ∈ x.attempts.tasks ∨ .connector .stop ∈ x.ran
  /-- The last one drops the channel, or finds it parked. -/
  dropped : .connector .stop ∉ x.attempts.tasks → ¬ x.attempts.client.connector.Stoppable

/-- What holds of every run whose owner parts with a client that is through. -/
structure Kept (x : ClientLife) : Prop where
  tidy : x.attempts.Tidy
  strayed : x.strayed = false
  asserted : x.asserted = false
  gone : x.gone = true → x.held = false
  dead : x.attempts.client.destroyed = true → x.Dead

theorem held_eq_false : x.held = false ↔ x.attempts.client.destroyed = true
    ∧ .connector .stop ∉ x.attempts.tasks ∧ .connector .stop ∉ x.ran ∧ x.attempts.timers = 0 := by
  simp [held, and_assoc]

/-- **Nothing follows a connector that nothing holds**, and its channel has been dropped. -/
theorem Kept.unheld (h : x.Kept) (hheld : x.held = false) :
    x.attempts.client.connector.channel = none ∧ ∀ t ∈ x.attempts.tasks, ¬ t.Bare := by
  obtain ⟨hdestroyed, htasks, hran, -⟩ := held_eq_false.mp hheld
  have hdead := h.dead hdestroyed
  have hnone : ∀ t ∈ x.attempts.tasks, ¬ t.Bare := fun t ht hbare =>
    (hdead.batch t ht hbare).elim htasks hran
  refine ⟨?_, hnone⟩
  by_contra hchannel
  rcases Connector.stoppable_or_parked hchannel with hstoppable | hparked
  · exact hdead.dropped htasks hstoppable
  · exact hnone _ (h.tidy.parked hparked) (.inr rfl)

/-- **The connector is destroyed** without its channel. -/
theorem Kept.settle (h : x.Kept) : x.settle.Kept := by
  rw [ClientLife.settle]
  split
  · exact h
  · rename_i hno
    have hheld : x.held = false := by
      cases hheld : x.held with
      | false => rfl
      | true => exact absurd (by rw [hheld, Bool.or_true]) hno
    refine ⟨h.tidy, h.strayed, ?_, fun _ => hheld, fun hd => ?_⟩
    · show (x.asserted || x.attempts.client.connector.channel.isSome) = false
      rw [h.asserted, (h.unheld hheld).1]
      rfl
    · obtain ⟨hparted, hclosed, hbehind, hbatch, hdropped⟩ := h.dead hd
      exact ⟨hparted, hclosed, hbehind, hbatch, hdropped⟩

theorem kept_new (reconnect : Bool) : (new reconnect).Kept :=
  ⟨Attempts.tidy_new reconnect, rfl, rfl, fun h => (by cases h), fun h => (by cases h)⟩

/-- **An event strays nowhere.** -/
theorem Kept.not_strays (h : x.Kept) (e : ClientEvent) : x.strays e = false := by
  have hclient : x.attempts.client.destroyed = true → x.attempts.hands e = false
      ∧ x.attempts.closes e = false ∧ x.attempts.task? e ≠ some .closed := by
    intro hd
    have hdead := h.dead hd
    refine ⟨hdead.parted.hands e, hdead.parted.closes e, fun htask => hdead.closed ?_⟩
    exact Attempts.mem_of_task? htask
  have hconnector : x.gone = true → x.attempts.task? e ≠ some (.connector .start)
      ∧ x.attempts.task? e ≠ some (.connector .reset) := by
    intro hg
    have hnone := (h.unheld (h.gone hg)).2
    exact ⟨fun htask => hnone _ (Attempts.mem_of_task? htask) (.inl rfl),
      fun htask => hnone _ (Attempts.mem_of_task? htask) (.inr rfl)⟩
  rw [strays]
  cases hd : x.attempts.client.destroyed with
  | false =>
    cases hg : x.gone with
    | false => rfl
    | true => simp [hconnector hg]
  | true =>
    obtain ⟨hhands, hcloses, htask⟩ := hclient hd
    cases hg : x.gone with
    | false => simp [hhands, hcloses, htask]
    | true => simp [hhands, hcloses, htask, hconnector hg]

/-- Once the client is destroyed, nobody calls it. -/
theorem remains_of_allows {e : ClientEvent} (h : x.allows e = true)
    (hd : x.attempts.client.destroyed = true) : Attempts.Remains e := by
  cases e with
  | attempt e => cases e <;> simp_all [allows, Attempts.Remains]
  | _ => simp_all [allows, Attempts.Remains]

/-- What is left to be called, and in which batch. -/
theorem Dead.pop (h : x.Dead) {t : ClientTask} {rest : List ClientTask} {s : Attempts}
    (htasks : x.attempts.tasks = t :: rest) (hleft : 0 < x.left) (htidy : s.Tidy)
    (hwanes : Attempts.Wanes False { x.attempts with tasks := rest } s)
    (hstop : t = .connector .stop → ¬ s.client.connector.Stoppable) :
    Dead { x with attempts := s, ran := x.ran ++ [t], left := x.left - 1 } := by
  obtain ⟨ts, hts, hconns⟩ := hwanes.tasks
  have hconn : ∀ u ∈ ts, ∃ v, u = .conn v := fun u hu =>
    (hconns u hu).resolve_right fun hreset => hreset.2.1
  have hbare : ∀ u ∈ ts, ¬ u.Bare := fun u hu hb => by
    obtain ⟨v, rfl⟩ := hconn u hu
    rcases hb with hb | hb
    · cases hb
    · cases hb
  have hdrop : x.attempts.tasks.drop x.left = rest.drop (x.left - 1) := by
    rw [htasks, ← Nat.succ_pred_eq_of_pos hleft, List.drop_succ_cons]
    rfl
  refine ⟨htidy.parted hwanes.running hwanes.connection, ?_, fun u hu hb => ?_, fun u hu hb => ?_,
    fun hno => ?_⟩
  · show _ ∉ s.tasks
    rw [hts, List.mem_append, not_or]
    refine ⟨fun hmem => h.closed (htasks ▸ List.mem_cons_of_mem t hmem), fun hmem => ?_⟩
    obtain ⟨v, hv⟩ := hconn _ hmem
    cases hv
  · change u ∈ s.tasks.drop (x.left - 1) at hu
    show _ ∈ s.tasks.drop (x.left - 1)
    rw [hts, List.drop_append] at hu ⊢
    rcases List.mem_append.mp hu with hu | hu
    · exact List.mem_append_left _ (hdrop ▸ h.behind u (hdrop ▸ hu) hb)
    · exact absurd hb (hbare u (List.mem_of_mem_drop hu))
  · change u ∈ s.tasks at hu
    show _ ∈ s.tasks ∨ _ ∈ x.ran ++ [t]
    rw [hts] at hu ⊢
    have hmem := (List.mem_append.mp hu).resolve_right fun hu => hbare u hu hb
    rcases h.batch u (htasks ▸ List.mem_cons_of_mem t hmem) hb with hstop' | hran
    · rcases List.mem_cons.mp (htasks ▸ hstop') with hhead | hrest
      · exact .inr (List.mem_append_right _ (List.mem_singleton.mpr hhead))
      · exact .inl (List.mem_append_left _ hrest)
    · exact .inr (List.mem_append_left _ hran)
  · change _ ∉ s.tasks at hno
    rw [hts, List.mem_append, not_or] at hno
    by_cases ht : t = .connector .stop
    · exact hstop ht
    · refine fun hs => h.dropped (fun hmem => ?_) (hwanes.stoppable hs)
      rcases List.mem_cons.mp (htasks ▸ hmem) with hhead | hrest
      · exact ht hhead.symm
      · exact hno.1 hrest

/-- What is queued besides, and in which batch. -/
theorem Dead.stay (h : x.Dead) {e : ClientEvent} {s : Attempts} (htidy : s.Tidy)
    (hwanes : x.attempts.Wanes (Attempts.IsWritable e) s) (he : x.allows e = true) :
    Dead { x with attempts := s } := by
  obtain ⟨ts, hts, hnew⟩ := hwanes.tasks
  -- a reset task is queued between two batches, and with a stop task to come
  have hbare : ∀ u ∈ ts, u.Bare → x.left = 0 ∧ .connector .stop ∈ x.attempts.tasks := fun u hu hb => by
    rcases hnew u hu with ⟨v, rfl⟩ | ⟨rfl, hwritable, hstoppable⟩
    · rcases hb with hb | hb
      · cases hb
      · cases hb
    · refine ⟨?_, by_contra fun hno => h.dropped hno hstoppable⟩
      rw [Attempts.IsWritable.eq_def] at hwritable
      split at hwritable
      · have hresting : x.resting = true := he
        rw [resting, Bool.and_eq_true, beq_iff_eq] at hresting
        exact hresting.1
      · exact hwritable.elim
  refine ⟨htidy.parted hwanes.running hwanes.connection, ?_, fun u hu hb => ?_, fun u hu hb => ?_,
    fun hno hs => ?_⟩
  · show _ ∉ s.tasks
    rw [hts, List.mem_append, not_or]
    refine ⟨h.closed, fun hmem => ?_⟩
    rcases hnew _ hmem with ⟨v, hv⟩ | ⟨hv, -⟩
    · cases hv
    · cases hv
  · change u ∈ s.tasks.drop x.left at hu
    show _ ∈ s.tasks.drop x.left
    rw [hts, List.drop_append] at hu ⊢
    rcases List.mem_append.mp hu with hu | hu
    · exact List.mem_append_left _ (h.behind u hu hb)
    · obtain ⟨hleft, hstop⟩ := hbare u (List.mem_of_mem_drop hu) hb
      rw [hleft]
      exact List.mem_append_left _ hstop
  · change u ∈ s.tasks at hu
    show _ ∈ s.tasks ∨ _ ∈ x.ran
    rw [hts] at hu ⊢
    rcases List.mem_append.mp hu with hu | hu
    · exact (h.batch u hu hb).imp_left (List.mem_append_left _)
    · exact .inl (List.mem_append_left _ (hbare u hu hb).2)
  · change _ ∉ s.tasks at hno
    rw [hts, List.mem_append, not_or] at hno
    exact h.dropped hno.1 (hwanes.stoppable hs)

/-- **An event**, and with it what is left of a client that was destroyed. -/
theorem Dead.event (h : x.Dead) (htidy : x.attempts.Tidy) (hd : x.attempts.client.destroyed = true)
    {e : ClientEvent} (he : x.allows e = true) :
    Dead { x with
      attempts := x.attempts.perform e
      ran := x.ran ++ (x.attempts.task? e).toList
      left := x.left - (x.attempts.task? e).toList.length }
    ∧ (x.attempts.perform e).timers ≤ x.attempts.timers
    ∧ (.connector .stop ∉ x.attempts.tasks → .connector .stop ∉ (x.attempts.perform e).tasks) := by
  have hkeep : ∀ {w : Prop} {s t : Attempts}, s.Wanes w t → .connector .stop ∉ s.tasks →
      .connector .stop ∉ t.tasks := fun hwanes hno => by
    obtain ⟨ts, hts, hnew⟩ := hwanes.tasks
    rw [hts, List.mem_append, not_or]
    refine ⟨hno, fun hmem => ?_⟩
    rcases hnew _ hmem with ⟨v, hv⟩ | ⟨hv, -⟩
    · cases hv
    · cases hv
  cases htask : x.attempts.task? e with
  | none =>
    have hwanes := h.parted.perform (remains_of_allows he hd) htask
    obtain ⟨hparted, hclosed, hbehind, hbatch, hdropped⟩ := h.stay (htidy.perform e) hwanes he
    refine ⟨⟨hparted, hclosed, hbehind, fun t ht hb => ?_, hdropped⟩, hwanes.timers, hkeep hwanes⟩
    exact (hbatch t ht hb).imp_right (List.mem_append_left _)
  | some t =>
    obtain ⟨answer, rfl⟩ : ∃ answer, e = .attempt (.runTask answer) := by
      rw [Attempts.task?.eq_def] at htask
      split at htask
      · exact ⟨_, rfl⟩
      · cases htask
    obtain ⟨rest, htasks⟩ := List.head?_eq_some_iff.mp htask
    have hleft : 0 < x.left := of_decide_eq_true he
    have hperform : x.attempts.perform (.attempt (.runTask answer))
        = Attempts.runTask { x.attempts with tasks := rest } answer t := by
      rw [Attempts.perform, Attempts.step, htasks]
    rw [hperform]
    have hparted : Attempts.Parted { x.attempts with tasks := rest } :=
      ⟨h.parted.running, h.parted.connection, h.parted.silent⟩
    have hwanes := hparted.runTask False answer (t := t)
    refine ⟨h.pop htasks hleft (htidy.runTask htasks answer) hwanes ?_, hwanes.timers, fun hno => ?_⟩
    · rintro rfl
      rw [Attempts.runTask, Attempts.connector_absorb]
      exact x.attempts.client.connector.stopTask_drops.1
    · exact hkeep hwanes fun hmem => hno (htasks ▸ List.mem_cons_of_mem t hmem)

theorem Kept.event (h : x.Kept) {e : ClientEvent} (he : x.allows e = true) (hover : x.overwrites e = false) :
    Kept { x with
      attempts := x.attempts.perform e
      ran := x.ran ++ (x.attempts.task? e).toList
      left := x.left - (x.attempts.task? e).toList.length
      strayed := x.strayed || x.strays e
      asserted := x.asserted || x.overwrites e } := by
  refine ⟨h.tidy.perform e, ?_, ?_, fun hg => ?_, fun hd => ?_⟩
  · show (x.strayed || x.strays e) = false
    rw [h.strayed, h.not_strays e]
    rfl
  · show (x.asserted || x.overwrites e) = false
    rw [h.asserted, hover]
    rfl
  · obtain ⟨hd, htasks, hran, htimers⟩ := held_eq_false.mp (h.gone hg)
    obtain ⟨-, hless, hkeep⟩ := (h.dead hd).event h.tidy hd he
    refine held_eq_false.mpr ⟨(Attempts.destroyed_perform e).trans hd, hkeep htasks, ?_, by
      have hzero := htimers ▸ hless
      exact Nat.le_zero.mp hzero⟩
    show _ ∉ x.ran ++ _
    rw [List.mem_append, not_or]
    refine ⟨hran, fun hmem => htasks (Attempts.mem_of_task? (e := e) ?_)⟩
    exact Option.mem_toList.mp hmem
  · have hbefore : x.attempts.client.destroyed = true := (Attempts.destroyed_perform e).symm.trans hd
    obtain ⟨⟨hparted, hclosed, hbehind, hbatch, hdropped⟩, -⟩ := (h.dead hbefore).event h.tidy hbefore he
    exact ⟨hparted, hclosed, hbehind, hbatch, hdropped⟩

/-- **The destructor of a client that is through** queues a stop task behind all that was queued. -/
theorem Kept.destroy (h : x.Kept) (hd : x.attempts.client.destroyed = false)
    (hconnection : x.attempts.client.connection = false) (hclosed : .closed ∉ x.attempts.tasks)
    (unique : Bool) :
    Kept { x with attempts := x.attempts.took (x.attempts.client.destroy unique) } := by
  have hstop : (x.attempts.took (x.attempts.client.destroy unique)).tasks
      = x.attempts.tasks ++ [.connector .stop] := by
    rw [Attempts.took, TcpClient.destroy, hconnection]
    rfl
  have hclient : (x.attempts.took (x.attempts.client.destroy unique)).client
      = { x.attempts.client with
          connector := { x.attempts.client.connector with running := false }
          connectCallback := false
          messageCallback := false
          writeCompleteCallback := false
          closeCallback := none
          destroyed := true } := by
    rw [Attempts.took, TcpClient.destroy, hconnection]
    rfl
  have htidy : (x.attempts.took (x.attempts.client.destroy unique)).Tidy := by
    refine ⟨?_, ?_, fun hp => ?_⟩
    · rw [hclient]
      exact h.tidy.opened
    · rw [hclient]
      exact h.tidy.closable
    · rw [hclient] at hp
      rw [hstop]
      exact List.mem_append_left _ (h.tidy.parked hp)
  refine ⟨htidy, h.strayed, h.asserted, fun hg => ?_, fun _ => ⟨htidy.parted ?_ ?_, ?_, fun t ht _ => ?_,
    fun t _ _ => .inl ?_, fun hno => ?_⟩⟩
  · have hdestroyed := (held_eq_false.mp (h.gone hg)).1
    rw [hd] at hdestroyed
    cases hdestroyed
  · rw [hclient]
  · rw [hclient]
    exact hconnection
  · show _ ∉ (x.attempts.took (x.attempts.client.destroy unique)).tasks
    rw [hstop, List.mem_append, not_or]
    exact ⟨hclosed, by decide⟩
  · change t ∈ (x.attempts.took (x.attempts.client.destroy unique)).tasks.drop x.left at ht
    show _ ∈ (x.attempts.took (x.attempts.client.destroy unique)).tasks.drop x.left
    rw [hstop] at ht ⊢
    by_cases hlen : x.left ≤ x.attempts.tasks.length
    · rw [List.drop_append_of_le_length hlen]
      exact List.mem_append_right _ (List.mem_singleton_self _)
    · rw [List.drop_of_length_le (by simp; omega)] at ht
      cases ht
  · show _ ∈ (x.attempts.took (x.attempts.client.destroy unique)).tasks
    rw [hstop]
    exact List.mem_append_right _ (List.mem_singleton_self _)
  · change _ ∉ (x.attempts.took (x.attempts.client.destroy unique)).tasks at hno
    rw [hstop] at hno
    exact absurd (List.mem_append_right _ (List.mem_singleton_self _)) hno

theorem Kept.perform (h : x.Kept) {e : OwnerEvent} (he : x.Parts e) : (x.perform e).Kept := by
  cases e with
  | event e =>
    rw [ClientLife.perform]
    split
    · rename_i hallowed
      exact (h.event hallowed (he hallowed)).settle
    · exact h
  | destroy unique =>
    rw [ClientLife.perform]
    split
    · exact h
    · rename_i hd
      have halive : x.attempts.client.destroyed = false := Bool.not_eq_true _ ▸ hd
      obtain ⟨hconnection, hclosed⟩ := he halive
      exact (h.destroy halive hconnection hclosed unique).settle
  | swap =>
    rw [ClientLife.perform]
    split
    · rename_i hresting
      refine ⟨h.tidy, h.strayed, h.asserted, h.gone, fun hd => ?_⟩
      have hdead := h.dead hd
      refine ⟨hdead.parted, hdead.closed, fun t ht => ?_, hdead.batch, hdead.dropped⟩
      rw [List.drop_length] at ht
      cases ht
    · exact h
  | batchDone =>
    rw [ClientLife.perform]
    split
    · rename_i hleft
      refine Kept.settle ⟨h.tidy, h.strayed, h.asserted, fun hg => ?_, fun hd => ?_⟩
      · obtain ⟨hd, htasks, -, htimers⟩ := held_eq_false.mp (h.gone hg)
        exact held_eq_false.mpr ⟨hd, htasks, List.not_mem_nil, htimers⟩
      · have hdead := h.dead hd
        refine ⟨hdead.parted, hdead.closed, hdead.behind, fun t ht hb => .inl ?_, hdead.dropped⟩
        have hbehind := hdead.behind t
        rw [hleft] at hbehind
        exact hbehind ht hb
    · exact h

theorem Kept.step (h : x.Kept) {e : OwnerEvent} (he : x.Parts e) : (x.step e).Kept := by
  rw [ClientLife.step]
  split
  · exact h
  · exact h.perform he

/-- A client that is let go as soon as it is connected: its connector still has its channel. -/
example : (run step (new false)
    [.event (.attempt .start), .swap, .event (.attempt (.runTask .progress)), .batchDone,
      .event (.attempt (.writable false)), .destroy true]).asserted = true := by
  decide

/-- A client that is started again while it is connected: the second connection takes the place of the
first. -/
example : (run step (new false)
    [.event (.attempt .start), .swap, .event (.attempt (.runTask .progress)), .batchDone,
      .event (.attempt (.writable false)), .swap, .event (.attempt (.runTask .progress)), .batchDone,
      .event (.attempt .start), .swap, .event (.attempt (.runTask .progress)), .batchDone,
      .event (.attempt (.writable false))]).asserted = true := by
  decide

end ClientLife
