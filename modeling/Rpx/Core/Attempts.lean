import Rpx.Core.TcpClient
import Rpx.Core.Lifecycle
import Rpx.Machinery.Run

/-!
# Core/Attempts — one upstream attempt at a time

    start() ──▶ start task ──▶ connect() ──▶ writable ──▶ newConnection ──▶ closed
    stopConnect() ──▶ stop task    ▲ └─ refused ─▶ timer ─┐
                                   └──────────────────────┘

A client with its connector, the tasks both have queued, the retry timers, and the books kept of the
sockets: each is numbered as it is opened.  Start tasks and timers look at `_running` alone, which a
later `start()` sets again; so one that a `stopConnect()` should have voided may open a second socket.

`sound_iff_single` — there is at most one socket at a time, and none is lost, unless a start task or a
timer connects while there is a socket, a stop task comes twice, or a reset task comes late.
-/

open Machinery

/-- What is known of the sockets a client has opened. -/
structure Books where
  /-- How many have been opened. -/
  opened : ℕ
  /-- Those that the connector closed, and those that it handed to `newConnection`. -/
  closed : List Fd
  handed : List Fd
  /-- Of those handed on, the ones whose connection has closed. -/
  ended : List Fd
  /-- `connect()` has replaced a channel that the poller knew. -/
  replaced : Bool
  /-- `newConnection` has overwritten a connection that had not closed. -/
  overwrote : Bool
  deriving DecidableEq

/-- How often a socket has been closed or handed on. -/
def Books.count (b : Books) (fd : Fd) : ℕ := b.closed.count fd + b.handed.count fd

namespace Connector

variable (c : Connector)

/-- The socket of the attempt under way. -/
def socket? : Option Fd :=
  c.channel.bind fun x => if x.2.registered.isSome then some x.1 else none

theorem polled_eq : c.polled = c.socket?.isSome := by
  cases hch : c.channel with
  | none => simp [polled, socket?, hch]
  | some x =>
    cases hreg : x.2.registered <;> simp [polled, socket?, hch, hreg]

/-- An attempt under way has its socket. -/
theorem exists_socket (h : c.polled = true) : ∃ fd, c.socket? = some fd :=
  Option.isSome_iff_exists.mp (c.polled_eq ▸ h)

/-- **Taking the channel out of the poller** gives back the socket under way, and leaves none. -/
theorem unregisterChannel_of_socket {fd : Fd} (h : c.socket? = some fd) :
    c.unregisterChannel.1 = some fd ∧ c.unregisterChannel.2.socket? = none
      ∧ c.unregisterChannel.2.crashed = c.crashed ∧ c.unregisterChannel.2.state = c.state := by
  cases hch : c.channel with
  | none => simp [socket?, hch] at h
  | some x =>
    obtain ⟨fd', ch⟩ := x
    have hfd : fd' = fd := by
      by_contra hne
      cases hreg : ch.registered <;> simp [socket?, hch, hreg] at h
      exact hne h
    subst hfd
    simp [unregisterChannel, hch, socket?, Channel.registered_remove_unsetAllInterest]

end Connector

structure Attempts where
  client : TcpClient Unit
  tasks : List ClientTask
  /-- How many retry timers have been started and have not expired. -/
  timers : ℕ
  books : Books

/-- What happens to a client; `answer` is what `::connect` will answer, should it be called. -/
inductive AttemptEvent
  | start
  | stopConnect
  /-- The oldest queued task runs. -/
  | runTask (answer : ConnectAnswer)
  /-- A retry timer expires. -/
  | timer (answer : ConnectAnswer)
  /-- The socket under way becomes writable, with an error or not. -/
  | writable (err : Bool)
  | error
  /-- The peer closes the connection. -/
  | peerClose (answer : ConnectAnswer)

namespace Attempts

/-- A client that has not been started. -/
def new (reconnect : Bool) : Attempts where
  client := { TcpClient.new with reconnect := reconnect }
  tasks := []
  timers := 0
  books := ⟨0, [], [], [], false, false⟩

variable (s : Attempts)

/-- What a member function of the connector leaves behind. -/
def absorb (out : ConnectorOutcome) : Attempts :=
  let co := s.client.withConnector out
  { client := co.client
    tasks := s.tasks ++ co.queued
    timers := s.timers + co.timers.length
    books := { s.books with
      closed := s.books.closed ++ out.closed
      handed := s.books.handed ++ out.handed.toList
      overwrote := s.books.overwrote || (out.handed.isSome && s.client.connection) } }

/-- What a call of `connect()` leaves behind, which opens the next socket. -/
def connect (out : ConnectorOutcome) (answer : ConnectAnswer) : Attempts :=
  let s' := s.absorb out
  { s' with books := { s'.books with
      opened := s.books.opened + 1
      replaced := s.books.replaced || (answer == .progress && s.client.connector.polled) } }

/-- A start task or a retry timer. -/
def attempt (answer : ConnectAnswer) : Attempts :=
  if s.client.connector.running then
    s.connect (s.client.connector.attempt s.books.opened answer) answer
  else s

/-- `TcpClient::handleClose`, of the connection whose socket was handed on last. -/
def handleClose (answer : ConnectAnswer) : Attempts :=
  let s := { s with
    client := { s.client with connection := false }
    tasks := s.tasks ++ [.closed]
    books := { s.books with ended := s.books.ended ++ s.books.handed.getLast?.toList } }
  if s.client.reconnect && s.client.running then
    s.connect (s.client.connector.restart s.books.opened answer) answer
  else s

/-- What a member function of the connection leaves behind. -/
def afterConn (out : Outcome) (answer : ConnectAnswer) : Attempts :=
  let s := { s with
    client := { s.client with conn := some out.conn }
    tasks := s.tasks ++ out.queued.map .conn }
  if .close ∈ out.called then s.handleClose answer else s

/-- A queued task runs.  A connection made since is not the one that a `closed` task is about. -/
def runTask (answer : ConnectAnswer) : ClientTask → Attempts
  | .connector .start => s.attempt answer
  | .connector .stop => s.absorb s.client.connector.stopTask
  | .connector .reset => s.absorb { s.client.connector with channel := none }.quiet
  | .conn t =>
    match s.client.conn with
    | none => s
    | some conn => s.afterConn (conn.runTask t) answer
  | .closed => if s.client.connection then s else { s with client := s.client.connectDestroyed }

def step : AttemptEvent → Attempts
  | .start =>
    let co := s.client.start
    { s with client := co.client, tasks := s.tasks ++ co.queued }
  | .stopConnect =>
    let co := s.client.stopConnect
    { s with client := co.client, tasks := s.tasks ++ co.queued }
  | .runTask answer =>
    match s.tasks with
    | [] => s
    | t :: rest => { s with tasks := rest }.runTask answer t
  | .timer answer => if 0 < s.timers then { s with timers := s.timers - 1 }.attempt answer else s
  | .writable err =>
    if s.client.connector.polled then s.absorb (s.client.connector.handleWrite err) else s
  | .error => if s.client.connector.polled then s.absorb s.client.connector.handleError else s
  | .peerClose answer =>
    match s.client.conn with
    | none => s
    | some conn => s.afterConn conn.handleClose answer

/-- The socket is connecting or connected. -/
def Live (fd : Fd) : Prop := fd < s.books.opened ∧ fd ∉ s.books.closed ∧ fd ∉ s.books.ended

/-- **One attempt at a time.** -/
structure Sound (s : Attempts) : Prop where
  /-- At most one socket is connecting or connected. -/
  single : ∀ fd fd', s.Live fd → s.Live fd' → fd = fd'
  /-- Every socket opened is closed or handed on once, or is under way. -/
  accounted : ∀ fd, s.books.count fd + (if s.client.connector.socket? = some fd then 1 else 0)
    = if fd < s.books.opened then 1 else 0
  replaced : s.books.replaced = false
  overwrote : s.books.overwrote = false
  /-- No null `_channel` has been dereferenced. -/
  crashed : s.client.connector.crashed = false

/-- There is no socket under way and no connection. -/
def Clear : Prop := s.client.connector.socket? = none ∧ s.client.connection = false

/-- **The steps that keep to one socket.** -/
def Single (s : Attempts) : AttemptEvent → Prop
  | .runTask answer =>
    match s.tasks.head? with
    | some (.connector .start) =>
      s.client.connector.running = true → answer = .progress → s.Clear
    | some (.connector .stop) =>
      s.client.connector.state = .connecting → s.client.connector.channel ≠ none
    | some (.connector .reset) => s.client.connector.socket? = none
    | _ => True
  | .timer answer =>
    0 < s.timers → s.client.connector.running = true → answer = .progress → s.Clear
  | _ => True

end Attempts

/-! ## The books -/

/-- **The books of a run that keeps to one socket**, with the connector, and the connection set or
not. -/
structure Booked (c : Connector) (connection : Bool) (b : Books) : Prop where
  accounted : ∀ fd, b.count fd + (if c.socket? = some fd then 1 else 0) = if fd < b.opened then 1 else 0
  replaced : b.replaced = false
  overwrote : b.overwrote = false
  crashed : c.crashed = false
  polled : ∀ fd, c.socket? = some fd → c.state = .connecting ∧ connection = false
  connecting : c.state = .connecting → c.channel = none ∨ ∃ fd, c.socket? = some fd
  connected : connection = true → ∃ fd, b.handed.getLast? = some fd ∧ fd ∉ b.ended
  unfinished : ∀ fd ∈ b.handed, fd ∉ b.ended → connection = true ∧ b.handed.getLast? = some fd
  ended : ∀ fd ∈ b.ended, fd ∈ b.handed

namespace Booked

variable {c c' : Connector} {connection : Bool} {b : Books} {fd : Fd}

/-- A socket handed on was opened, and is not closed by the connector. -/
theorem of_handed (h : Booked c connection b) (hfd : fd ∈ b.handed) :
    fd < b.opened ∧ fd ∉ b.closed := by
  have hcount := h.accounted fd
  have hone := List.count_pos_iff.mpr hfd
  rw [Books.count] at hcount
  have hlt : fd < b.opened := by
    by_contra hlt
    rw [if_neg hlt] at hcount
    omega
  refine ⟨hlt, fun hclosed => ?_⟩
  have htwo := List.count_pos_iff.mpr hclosed
  rw [if_pos hlt] at hcount
  omega

/-- The socket under way was opened, and is neither closed nor handed on. -/
theorem of_socket (h : Booked c connection b) (hfd : c.socket? = some fd) :
    fd < b.opened ∧ b.count fd = 0 := by
  have hcount := h.accounted fd
  rw [if_pos hfd] at hcount
  split at hcount
  · rename_i hlt
    exact ⟨hlt, by omega⟩
  · omega

/-- The next socket is new. -/
theorem count_opened (h : Booked c connection b) :
    b.count b.opened = 0 ∧ c.socket? ≠ some b.opened := by
  have hcount := h.accounted b.opened
  rw [if_neg (Nat.lt_irrefl _)] at hcount
  refine ⟨by omega, fun hfd => ?_⟩
  rw [if_pos hfd] at hcount
  omega

/-- The connector is told to run or to stop, and keeps another delay. -/
theorem rerun (h : Booked c connection b) (running : Bool) (retryDelayMs : ℕ) :
    Booked { c with running := running, retryDelayMs := retryDelayMs } connection b :=
  ⟨h.accounted, h.replaced, h.overwrote, h.crashed, h.polled, h.connecting, h.connected,
    h.unfinished, h.ended⟩

/-- A channel that the poller does not know is dropped. -/
theorem drop (h : Booked c connection b) (hnone : c.socket? = none) :
    Booked { c with channel := none } connection b := by
  refine ⟨fun fd => ?_, h.replaced, h.overwrote, h.crashed, fun fd hfd => ?_, fun _ => .inl rfl,
    h.connected, h.unfinished, h.ended⟩
  · have hcount := h.accounted fd
    rwa [if_neg (by simp [hnone])] at hcount
  · cases hfd

/-- **An attempt is refused**: its socket is closed at once. -/
theorem refuse (h : Booked c connection b) :
    Booked c connection { b with opened := b.opened + 1, closed := b.closed ++ [b.opened] } := by
  obtain ⟨hnew, hother⟩ := h.count_opened
  refine ⟨fun fd => ?_, h.replaced, h.overwrote, h.crashed, h.polled, h.connecting, h.connected,
    h.unfinished, h.ended⟩
  have hcount := h.accounted fd
  rw [Books.count] at hcount hnew ⊢
  rw [List.count_append, List.count_singleton]
  rcases eq_or_ne fd b.opened with rfl | hne
  · rw [if_neg hother, if_pos (Nat.lt_succ_self _)]
    simp
    omega
  · have hiff : fd < b.opened + 1 ↔ fd < b.opened :=
      Nat.lt_succ_iff_lt_or_eq.trans (or_iff_left hne)
    simp only [hiff, beq_iff_eq, hne.symm, if_false]
    omega

/-- **An attempt is under way**, where there was no socket. -/
theorem engage (h : Booked c connection b) (hnone : c.socket? = none) (hconnection : connection = false)
    (hsocket : c'.socket? = some b.opened) (hstate : c'.state = .connecting)
    (hcrashed : c'.crashed = c.crashed) :
    Booked c' connection { b with opened := b.opened + 1 } := by
  obtain ⟨hnew, -⟩ := h.count_opened
  refine ⟨fun fd => ?_, h.replaced, h.overwrote, hcrashed.trans h.crashed,
    fun _ _ => ⟨hstate, hconnection⟩, fun _ => .inr ⟨_, hsocket⟩, h.connected, h.unfinished, h.ended⟩
  have hcount := h.accounted fd
  rw [hnone, if_neg (by simp)] at hcount
  show b.count fd + _ = if fd < b.opened + 1 then 1 else 0
  rcases eq_or_ne fd b.opened with rfl | hne
  · rw [hnew, if_pos hsocket, if_pos (Nat.lt_succ_self _)]
  · have hiff : fd < b.opened + 1 ↔ fd < b.opened :=
      Nat.lt_succ_iff_lt_or_eq.trans (or_iff_left hne)
    have hother : c'.socket? ≠ some fd := fun heq => hne (Option.some.inj (heq.symm.trans hsocket))
    rw [if_neg hother]
    simp only [hiff]
    exact hcount

/-- The socket under way is closed or handed on, and counted for it. -/
theorem accounted_away (h : Booked c connection b) (hfd : c.socket? = some fd)
    (hnone : c'.socket? = none) (fd' : Fd) :
    b.count fd' + [fd].count fd' + (if c'.socket? = some fd' then 1 else 0)
      = if fd' < b.opened then 1 else 0 := by
  obtain ⟨hlt, hzero⟩ := h.of_socket hfd
  have hcount := h.accounted fd'
  rw [hnone, if_neg (by simp), List.count_singleton]
  rcases eq_or_ne fd' fd with rfl | hne
  · rw [if_pos hlt, hzero]
    simp
  · rw [hfd, if_neg (by simpa using hne.symm)] at hcount
    simpa [hne.symm] using hcount

/-- **An attempt ends**, and its socket is closed. -/
theorem lose (h : Booked c connection b) (hfd : c.socket? = some fd) (hnone : c'.socket? = none)
    (hconnecting : c'.state = .connecting → c'.channel = none) (hcrashed : c'.crashed = c.crashed) :
    Booked c' connection { b with closed := b.closed ++ [fd] } := by
  refine ⟨fun fd' => ?_, h.replaced, h.overwrote, hcrashed.trans h.crashed, fun fd' hfd' => ?_,
    fun hs => .inl (hconnecting hs), h.connected, h.unfinished, h.ended⟩
  · rw [← h.accounted_away hfd hnone fd', Books.count, Books.count, List.count_append]
    dsimp only
    omega
  · rw [hnone] at hfd'
    cases hfd'

/-- **An attempt succeeds**, and its socket is handed on. -/
theorem hand (h : Booked c connection b) (hfd : c.socket? = some fd) (hnone : c'.socket? = none)
    (hstate : c'.state ≠ .connecting) (hcrashed : c'.crashed = c.crashed) :
    Booked c' true { b with handed := b.handed ++ [fd] } := by
  obtain ⟨-, hzero⟩ := h.of_socket hfd
  have hconnection := (h.polled fd hfd).2
  have hnew : fd ∉ b.ended := fun hmem => by
    have hpos := List.count_pos_iff.mpr (h.ended fd hmem)
    rw [Books.count] at hzero
    omega
  refine ⟨fun fd' => ?_, h.replaced, h.overwrote, hcrashed.trans h.crashed, fun fd' hfd' => ?_,
    fun hs => absurd hs hstate, fun _ => ⟨fd, List.getLast?_concat, hnew⟩, fun fd' hmem hn => ?_,
    fun fd' hmem => List.mem_append_left _ (h.ended fd' hmem)⟩
  · rw [← h.accounted_away hfd hnone fd', Books.count, Books.count, List.count_append]
    dsimp only
    omega
  · rw [hnone] at hfd'
    cases hfd'
  · rcases List.mem_append.mp hmem with hmem | hmem
    · have hold := (h.unfinished fd' hmem hn).1
      rw [hconnection] at hold
      cases hold
    · obtain rfl := List.mem_singleton.mp hmem
      exact ⟨rfl, List.getLast?_concat⟩

/-- **The connection closes.** -/
theorem finish (h : Booked c connection b) (hconnection : connection = true) :
    Booked c false { b with ended := b.ended ++ b.handed.getLast?.toList } := by
  obtain ⟨fd, hlast, -⟩ := h.connected hconnection
  refine ⟨h.accounted, h.replaced, h.overwrote, h.crashed, fun fd' hfd' => ⟨(h.polled fd' hfd').1, rfl⟩,
    h.connecting, fun hc => ?_, fun fd' hmem hn => ?_, fun fd' hmem => ?_⟩
  · cases hc
  · have hold := (h.unfinished fd' hmem fun he => hn (List.mem_append_left _ he)).2
    refine absurd (List.mem_append_right _ ?_) hn
    rw [hold]
    exact List.mem_singleton_self _
  · rcases List.mem_append.mp hmem with hmem | hmem
    · exact h.ended fd' hmem
    · rw [hlast] at hmem
      obtain rfl := List.mem_singleton.mp hmem
      exact List.mem_of_getLast? hlast

end Booked

namespace Attempts

variable {s : Attempts}

/-- What holds of every run that keeps to one socket. -/
structure Kept (s : Attempts) : Prop where
  booked : Booked s.client.connector s.client.connection s.books
  isOpen : s.client.isOpen = s.client.connection

/-- **A live socket** is under way, or is that of the connection. -/
theorem Kept.of_live (h : s.Kept) {fd : Fd} (hfd : s.Live fd) :
    s.client.connector.socket? = some fd
      ∨ (s.client.connection = true ∧ s.books.handed.getLast? = some fd) := by
  obtain ⟨hlt, hclosed, hended⟩ := hfd
  by_cases hway : s.client.connector.socket? = some fd
  · exact .inl hway
  · right
    have hcount := h.booked.accounted fd
    rw [if_neg hway, if_pos hlt, Books.count, List.count_eq_zero.mpr hclosed] at hcount
    exact h.booked.unfinished fd (List.count_pos_iff.mp (by omega)) hended

theorem Kept.sound (h : s.Kept) : s.Sound := by
  refine ⟨fun fd fd' hfd hfd' => ?_, h.booked.accounted, h.booked.replaced, h.booked.overwrote,
    h.booked.crashed⟩
  rcases h.of_live hfd with hway | ⟨hconn, hlast⟩ <;>
    rcases h.of_live hfd' with hway' | ⟨hconn', hlast'⟩
  · exact Option.some.inj (hway.symm.trans hway')
  · rw [(h.booked.polled fd hway).2] at hconn'
    cases hconn'
  · rw [(h.booked.polled fd' hway').2] at hconn
    cases hconn
  · exact Option.some.inj (hlast.symm.trans hlast')

/-! ## The connector -/

/-- A connector that hands nothing on. -/
theorem Kept.absorb (h : s.Kept) {out : ConnectorOutcome} (hhanded : out.handed = none)
    (hbooked : Booked out.connector s.client.connection
      { s.books with closed := s.books.closed ++ out.closed }) : (s.absorb out).Kept := by
  have hclient : (s.absorb out).client = { s.client with connector := out.connector } := by
    rw [Attempts.absorb, TcpClient.withConnector, hhanded]
    rfl
  have hbooks : (s.absorb out).books = { s.books with closed := s.books.closed ++ out.closed } := by
    rw [Attempts.absorb, hhanded]
    simp
  refine ⟨?_, ?_⟩
  · rw [hclient, hbooks]
    exact hbooked
  · rw [hclient]
    exact h.isOpen

/-- A connector that hands a socket on, of which a connection is made. -/
theorem kept_absorb_handed {out : ConnectorOutcome} {fd : Fd} (hhanded : out.handed = some fd)
    (hclosed : out.closed = []) (hconnection : s.client.connection = false)
    (hbooked : Booked out.connector true { s.books with handed := s.books.handed ++ [fd] }) :
    (s.absorb out).Kept := by
  have hclient : (s.absorb out).client =
      TcpClient.newConnection { s.client with connector := out.connector } := by
    rw [Attempts.absorb, TcpClient.withConnector, hhanded]
    rfl
  have hbooks : (s.absorb out).books = { s.books with handed := s.books.handed ++ [fd] } := by
    rw [Attempts.absorb, hhanded, hclosed, hconnection]
    simp
  refine ⟨?_, ?_⟩
  · rw [hclient, hbooks]
    exact hbooked
  · rw [hclient]
    rfl

/-- A call of `connect()`. -/
theorem Kept.of_connect (h : s.Kept) {out : ConnectorOutcome} {answer : ConnectAnswer}
    (hhanded : out.handed = none)
    (hnone : answer = .progress → s.client.connector.socket? = none)
    (hbooked : Booked out.connector s.client.connection { s.books with
      opened := s.books.opened + 1
      closed := s.books.closed ++ out.closed }) : (s.connect out answer).Kept := by
  have hclient : (s.connect out answer).client = { s.client with connector := out.connector } := by
    rw [Attempts.connect, Attempts.absorb, TcpClient.withConnector, hhanded]
    rfl
  have hreplaced : (answer == .progress && s.client.connector.polled) = false := by
    cases answer with
    | progress => simp [Connector.polled_eq, hnone rfl]
    | again => rfl
    | fatal => rfl
  have hbooks : (s.connect out answer).books = { s.books with
      opened := s.books.opened + 1
      closed := s.books.closed ++ out.closed } := by
    rw [Attempts.connect, Attempts.absorb, hhanded, hreplaced]
    simp
  refine ⟨?_, ?_⟩
  · rw [hclient, hbooks]
    exact hbooked
  · rw [hclient]
    exact h.isOpen

/-- Trying again closes the socket and hands nothing on. -/
theorem retry_books (c : Connector) (fd : Fd) : (c.retry fd).closed = [fd] ∧
    (c.retry fd).handed = none ∧ ∃ d, (c.retry fd).connector = { c with retryDelayMs := d } := by
  rw [Connector.retry]
  split
  · exact ⟨rfl, rfl, _, rfl⟩
  · exact ⟨rfl, rfl, c.retryDelayMs, rfl⟩

/-- **`connect()`, where there is no socket**, or where it is refused. -/
theorem Kept.connect (h : s.Kept) (running : Bool) (retryDelayMs : ℕ) (answer : ConnectAnswer)
    (hclear : answer = .progress → s.Clear) :
    (s.connect (Connector.connect { s.client.connector with
        running := running
        retryDelayMs := retryDelayMs } s.books.opened answer) answer).Kept := by
  have hc := h.booked.rerun running retryDelayMs
  cases answer with
  | progress =>
    obtain ⟨hnone, hconnection⟩ := hclear rfl
    refine h.of_connect rfl (fun _ => hnone) ?_
    have hengaged : Booked
        { s.client.connector with
          running := running
          retryDelayMs := retryDelayMs
          state := .connecting
          channel := some (s.books.opened, Channel.new.setWriteInterest) }
        s.client.connection { s.books with opened := s.books.opened + 1 } :=
      hc.engage hnone hconnection rfl rfl rfl
    simpa [Connector.connect, Connector.quiet] using hengaged
  | again =>
    obtain ⟨hclosed, hhanded, d, hconnector⟩ := retry_books
      { s.client.connector with running := running, retryDelayMs := retryDelayMs } s.books.opened
    refine h.of_connect hhanded (fun hp => by cases hp) ?_
    rw [Connector.connect, hclosed, hconnector]
    exact hc.refuse.rerun running d
  | fatal => exact h.of_connect rfl (fun hp => by cases hp) hc.refuse

/-- A start task or a timer. -/
theorem Kept.attempt (h : s.Kept) {answer : ConnectAnswer}
    (hclear : s.client.connector.running = true → answer = .progress → s.Clear) :
    (s.attempt answer).Kept := by
  rw [Attempts.attempt]
  split
  · rename_i hrun
    rw [Connector.attempt, if_pos hrun]
    exact h.connect s.client.connector.running s.client.connector.retryDelayMs answer (hclear hrun)
  · exact h

/-- **A stop task**, of an attempt under way or of none. -/
theorem Kept.stopTask (h : s.Kept)
    (hs : s.client.connector.state = .connecting → s.client.connector.channel ≠ none) :
    (s.absorb s.client.connector.stopTask).Kept := by
  have hb := h.booked
  by_cases hconnecting : s.client.connector.state = .connecting
  · obtain ⟨fd, hfd⟩ := (hb.connecting hconnecting).resolve_left (hs hconnecting)
    obtain ⟨hsock, -, hcrashed, hstate⟩ := s.client.connector.unregisterChannel_of_socket hfd
    have hout : s.client.connector.stopTask =
        ⟨{ s.client.connector.unregisterChannel.2 with channel := none }, [], [], [fd], none⟩ := by
      rw [Connector.stopTask, if_pos hconnecting]
      dsimp only
      rw [if_pos (.inl (hstate.trans hconnecting)), hsock]
      rfl
    rw [hout]
    exact h.absorb rfl (hb.lose hfd rfl (fun _ => rfl) hcrashed)
  · have hnone : s.client.connector.socket? = none := by
      rw [Option.eq_none_iff_forall_ne_some]
      exact fun fd hfd => hconnecting (hb.polled fd hfd).1
    have hsame : { s.books with closed := s.books.closed ++ [] } = s.books := by simp
    rw [Connector.stopTask, if_neg hconnecting]
    dsimp only
    split
    · refine h.absorb rfl ?_
      rw [Option.toList_none, hsame]
      exact hb.drop hnone
    · refine h.absorb rfl ?_
      rw [Option.toList_none, hsame]
      exact hb

/-- **The attempt under way ends**: refused, handed on, or no longer wanted. -/
theorem Kept.writable (h : s.Kept) (hpolled : s.client.connector.polled = true) (err : Bool) :
    (s.absorb (s.client.connector.handleWrite err)).Kept := by
  obtain ⟨fd, hfd⟩ := s.client.connector.exists_socket hpolled
  obtain ⟨hconnecting, hconnection⟩ := h.booked.polled fd hfd
  obtain ⟨hsock, hnone, hcrashed, -⟩ := s.client.connector.unregisterChannel_of_socket hfd
  have hpair : s.client.connector.unregisterChannel
      = (some fd, s.client.connector.unregisterChannel.2) := Prod.ext hsock rfl
  rw [Connector.handleWrite, if_pos hconnecting, hpair]
  dsimp only
  split
  · obtain ⟨hclosed, hhanded, d, hconnector⟩ := retry_books
      { s.client.connector.unregisterChannel.2 with state := .retrying } fd
    refine h.absorb hhanded ?_
    rw [hclosed, hconnector]
    exact h.booked.lose hfd hnone (fun hs => by cases hs) hcrashed
  · split
    · exact kept_absorb_handed rfl rfl hconnection
        (h.booked.hand hfd hnone (fun hs => by cases hs) hcrashed)
    · exact h.absorb rfl (h.booked.lose hfd hnone (fun hs => by cases hs) hcrashed)

theorem Kept.error (h : s.Kept) (hpolled : s.client.connector.polled = true) :
    (s.absorb s.client.connector.handleError).Kept := by
  obtain ⟨fd, hfd⟩ := s.client.connector.exists_socket hpolled
  obtain ⟨hconnecting, -⟩ := h.booked.polled fd hfd
  obtain ⟨hsock, hnone, hcrashed, -⟩ := s.client.connector.unregisterChannel_of_socket hfd
  have hpair : s.client.connector.unregisterChannel
      = (some fd, s.client.connector.unregisterChannel.2) := Prod.ext hsock rfl
  obtain ⟨hclosed, hhanded, d, hconnector⟩ := retry_books
    { s.client.connector.unregisterChannel.2 with state := .retrying } fd
  rw [Connector.handleError, if_pos hconnecting, hpair]
  refine h.absorb hhanded ?_
  rw [hclosed, hconnector]
  exact h.booked.lose hfd hnone (fun hs => by cases hs) hcrashed

/-! ## The connection -/

/-- What closes a connection runs its close callback, once. -/
theorem closeCallback_runTask (conn : TcpConnection) (t : ConnTask) :
    (.close ∈ (conn.runTask t).called ∧ conn.closeCallback = true
        ∧ (conn.runTask t).conn.closeCallback = false)
      ∨ .close ∉ (conn.runTask t).called
        ∧ (conn.runTask t).conn.closeCallback = conn.closeCallback := by
  cases t with
  | writeComplete =>
    refine .inr ⟨?_, rfl⟩
    rw [TcpConnection.runTask]
    dsimp only
    split <;> simp
  | handleClose =>
    rcases conn.handleClose_cases with ⟨hset, hcalled, hcallbacks⟩ | ⟨hcalled, hsame, -⟩
    · refine .inl ⟨?_, hset, congrArg (·.2.2.1) hcallbacks⟩
      rw [TcpConnection.runTask, hcalled]
      exact List.mem_singleton_self _
    · refine .inr ⟨?_, hsame⟩
      rw [TcpConnection.runTask, hcalled]
      exact List.not_mem_nil
  | shutdownWrite => exact .inr ⟨List.not_mem_nil, rfl⟩

/-- **The connection closes**, and the client may connect again at once. -/
theorem Kept.handleClose (h : s.Kept) (hconnection : s.client.connection = true) {conn : TcpConnection}
    (hclear : conn.closeCallback = false) (ts : List ClientTask) (answer : ConnectAnswer) :
    (Attempts.handleClose { s with
      client := { s.client with conn := some conn }
      tasks := ts } answer).Kept := by
  have hnone : s.client.connector.socket? = none := by
    rw [Option.eq_none_iff_forall_ne_some]
    intro fd hfd
    rw [(h.booked.polled fd hfd).2] at hconnection
    cases hconnection
  have hclosed : Kept { s with
      client := { s.client with conn := some conn, connection := false }
      tasks := ts ++ [.closed]
      books := { s.books with ended := s.books.ended ++ s.books.handed.getLast?.toList } } :=
    ⟨h.booked.finish hconnection, hclear⟩
  rw [Attempts.handleClose]
  dsimp only
  split
  · exact hclosed.connect true Connector.kInitRetryDelayMs answer fun _ => ⟨hnone, rfl⟩
  · exact hclosed

/-- **A member function of the connection runs.** -/
theorem Kept.afterConn (h : s.Kept) {conn : TcpConnection} (hconn : s.client.conn = some conn)
    (t : ConnTask) (answer : ConnectAnswer) : (s.afterConn (conn.runTask t) answer).Kept := by
  have hopen : conn.closeCallback = s.client.connection := by
    rw [← h.isOpen, TcpClient.isOpen, hconn]
    rfl
  rw [Attempts.afterConn]
  rcases closeCallback_runTask conn t with ⟨hcalled, hset, hclear⟩ | ⟨hcalled, hsame⟩
  · rw [if_pos hcalled]
    exact h.handleClose (hopen.symm.trans hset) hclear _ answer
  · rw [if_neg hcalled]
    exact ⟨h.booked, hsame.trans hopen⟩

/-! ## Every step -/

/-- A task leaves the queue. -/
theorem Kept.pop (h : s.Kept) (ts : List ClientTask) : Kept { s with tasks := ts } :=
  ⟨h.booked, h.isOpen⟩

theorem Kept.step (h : s.Kept) (e : AttemptEvent) (hs : s.Single e) : (s.step e).Kept := by
  cases e with
  | start => exact ⟨h.booked.rerun true _, h.isOpen⟩
  | stopConnect => exact ⟨h.booked.rerun false _, h.isOpen⟩
  | runTask answer =>
    rw [Attempts.step]
    split
    · exact h
    · rename_i t rest htasks
      rw [Single, htasks] at hs
      have hrest := h.pop rest
      cases t with
      | connector t =>
        cases t with
        | start => exact hrest.attempt hs
        | stop => exact hrest.stopTask hs
        | reset =>
          refine hrest.absorb rfl ?_
          have hdrop := h.booked.drop hs
          simpa [Connector.quiet] using hdrop
      | conn t =>
        rw [Attempts.runTask]
        split
        · exact hrest
        · rename_i conn hconn
          exact hrest.afterConn hconn t answer
      | closed =>
        rw [Attempts.runTask]
        split
        · exact hrest
        · exact ⟨h.booked, (TcpClient.isOpen_connectDestroyed _).trans h.isOpen⟩
  | timer answer =>
    rw [Attempts.step]
    split
    · rename_i hpos
      have hrest : Kept { s with timers := s.timers - 1 } := ⟨h.booked, h.isOpen⟩
      exact hrest.attempt (hs hpos)
    · exact h
  | writable err =>
    rw [Attempts.step]
    split
    · rename_i hpolled
      exact h.writable hpolled err
    · exact h
  | error =>
    rw [Attempts.step]
    split
    · rename_i hpolled
      exact h.error hpolled
    · exact h
  | peerClose answer =>
    rw [Attempts.step]
    split
    · exact h
    · rename_i conn hconn
      exact h.afterConn hconn .handleClose answer

/-! ## The steps that do not keep to one socket -/

/-- **A second socket**: it replaces the one under way, or is there beside the connection. -/
theorem Kept.not_sound_attempt (h : s.Kept) (hrun : s.client.connector.running = true)
    (hclear : ¬ s.Clear) : ¬ (s.attempt .progress).Sound := by
  intro hsound
  have hbooks : (s.attempt .progress).books = { s.books with
      opened := s.books.opened + 1
      replaced := s.books.replaced || s.client.connector.polled } := by
    rw [Attempts.attempt, if_pos hrun, Connector.attempt, if_pos hrun]
    simp [Attempts.connect, Attempts.absorb, Connector.connect, Connector.quiet]
  cases hsocket : s.client.connector.socket? with
  | some fd =>
    have hreplaced := hsound.replaced
    rw [hbooks] at hreplaced
    simp [Connector.polled_eq, hsocket] at hreplaced
  | none =>
    have hconnection : s.client.connection = true := by
      by_contra hc
      exact hclear ⟨hsocket, Bool.not_eq_true _ ▸ hc⟩
    obtain ⟨fd, hlast, hended⟩ := h.booked.connected hconnection
    obtain ⟨hlt, hclosed⟩ := h.booked.of_handed (List.mem_of_getLast? hlast)
    have hold : (s.attempt .progress).Live fd := by
      rw [Live, hbooks]
      exact ⟨Nat.lt_succ_of_lt hlt, hclosed, hended⟩
    have hnew : (s.attempt .progress).Live s.books.opened := by
      obtain ⟨hzero, -⟩ := h.booked.count_opened
      rw [Books.count] at hzero
      rw [Live, hbooks]
      refine ⟨Nat.lt_succ_self _, fun hmem => ?_, fun hmem => ?_⟩
      · have hpos : 0 < s.books.closed.count s.books.opened := List.count_pos_iff.mpr hmem
        omega
      · have hpos := List.count_pos_iff.mpr (h.booked.ended _ hmem)
        omega
    exact hlt.ne (hsound.single fd _ hold hnew)

/-- **A second stop task** has no channel to take out of the poller. -/
theorem not_sound_stopTask (hconnecting : s.client.connector.state = .connecting)
    (hnone : s.client.connector.channel = none) :
    ¬ (s.absorb s.client.connector.stopTask).Sound := by
  intro hsound
  have hcrashed := hsound.crashed
  have hout : (s.absorb s.client.connector.stopTask).client.connector.crashed = true := by
    have hpair : s.client.connector.unregisterChannel
        = (none, { s.client.connector with crashed := true }) := by
      simp [Connector.unregisterChannel, hnone]
    rw [Attempts.absorb, Connector.stopTask, if_pos hconnecting, hpair]
    dsimp only
    split <;> rfl
  rw [hout] at hcrashed
  cases hcrashed

/-- **A reset task that comes late** drops the channel of the next attempt, and its socket is lost. -/
theorem Kept.not_sound_reset (h : s.Kept) {fd : Fd} (hfd : s.client.connector.socket? = some fd) :
    ¬ (s.absorb { s.client.connector with channel := none }.quiet).Sound := by
  intro hsound
  obtain ⟨hlt, hzero⟩ := h.booked.of_socket hfd
  have hcount := hsound.accounted fd
  have hbooks : (s.absorb { s.client.connector with channel := none }.quiet).books = s.books := by
    simp [Attempts.absorb, Connector.quiet]
  have hsocket : (s.absorb
      { s.client.connector with channel := none }.quiet).client.connector.socket? = none := rfl
  rw [hbooks, hzero, hsocket, if_pos hlt] at hcount
  simp at hcount

theorem Kept.not_sound_step (h : s.Kept) (e : AttemptEvent) (hs : ¬ s.Single e) :
    ¬ (s.step e).Sound := by
  cases e with
  | runTask answer =>
    rw [Attempts.step]
    split
    · rename_i htasks
      rw [Single, htasks] at hs
      exact absurd trivial hs
    · rename_i t rest htasks
      rw [Single, htasks] at hs
      have hrest := h.pop rest
      cases t with
      | connector t =>
        cases t with
        | start =>
          obtain ⟨hrun, hs⟩ := Classical.not_imp.mp hs
          obtain ⟨rfl, hclear⟩ := Classical.not_imp.mp hs
          exact hrest.not_sound_attempt hrun hclear
        | stop =>
          obtain ⟨hconnecting, hnone⟩ := Classical.not_imp.mp hs
          exact not_sound_stopTask (s := { s with tasks := rest }) hconnecting (not_not.mp hnone)
        | reset =>
          obtain ⟨fd, hfd⟩ := Option.ne_none_iff_exists'.mp hs
          exact hrest.not_sound_reset hfd
      | conn t => exact absurd trivial hs
      | closed => exact absurd trivial hs
  | timer answer =>
    obtain ⟨hpos, hs⟩ := Classical.not_imp.mp hs
    obtain ⟨hrun, hs⟩ := Classical.not_imp.mp hs
    obtain ⟨rfl, hclear⟩ := Classical.not_imp.mp hs
    have hrest : Kept { s with timers := s.timers - 1 } := ⟨h.booked, h.isOpen⟩
    rw [Attempts.step, if_pos hpos]
    exact hrest.not_sound_attempt hrun hclear
  | _ => exact absurd trivial hs

theorem kept_new (reconnect : Bool) : (new reconnect).Kept := by
  refine ⟨⟨fun fd => rfl, rfl, rfl, rfl, fun fd hfd => ?_, fun _ => .inl rfl, fun hc => ?_,
    fun fd hfd => ?_, fun fd hfd => ?_⟩, rfl⟩
  · cases hfd
  · cases hc
  · exact absurd hfd List.not_mem_nil
  · exact absurd hfd List.not_mem_nil

/-- **One upstream attempt at a time, exactly.**  In every state of a run there is at most one socket
and each is accounted for, if and only if every step of the run keeps to one socket. -/
theorem sound_iff_single (reconnect : Bool) (es : List AttemptEvent) :
    (∀ js, js <+: es → (run step (new reconnect) js).Sound) ↔ Meets step Single (new reconnect) es :=
  forall_prefix_iff_of_inv (fun _ h => h.sound) (fun _ e h _ hs => h.step e hs)
    (fun _ e h _ hs => h.not_sound_step e hs) (kept_new reconnect) (meets_true _ es)

/-- **A retry timer outlives the stop that should void it.**  The first attempt is refused; the client
is stopped and started again, and the timer then replaces the attempt of the second start. -/
theorem timer_replaces_attempt : ¬ (run step (new false)
    [.start, .runTask .again, .stopConnect, .start, .runTask .progress, .runTask .progress,
      .timer .progress]).Sound := by
  intro hsound
  exact absurd hsound.replaced (by decide)

end Attempts
