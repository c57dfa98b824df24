import Rpx.Core.Connector
import Rpx.Core.TcpConnection

/-!
# Core/TcpClient — a client, its connector and its connection

The client hands the sockets of its connector to connections, whose close callback and whose close
task both refer to the client by address.  `κ` is what the user's close callback does; of the other
callbacks it matters only whether they are set.
-/

/-- A task that concerns a client. -/
inductive ClientTask
  | connector (t : ConnectorTask)
  /-- A task of its connection. -/
  | conn (t : ConnTask)
  /-- The task of `handleClose`: `connectDestroyed`, then the user's close callback. -/
  | closed
  deriving DecidableEq, Repr

structure TcpClient (κ : Type) where
  running : Bool
  reconnect : Bool
  connector : Connector
  /-- `_connection` is set. -/
  connection : Bool
  /-- The connection made last; it may outlive `_connection`. -/
  conn : Option TcpConnection
  connectCallback : Bool
  messageCallback : Bool
  writeCompleteCallback : Bool
  closeCallback : Option κ
  /-- The destructor has run. -/
  destroyed : Bool

/-- What a member function leaves behind. -/
structure ClientOutcome (κ : Type) where
  client : TcpClient κ
  queued : List ClientTask
  /-- The delays of the timers started. -/
  timers : List ℕ
  /-- The connect callback is to run, on a connection just made. -/
  connected : Bool

namespace TcpClient

variable {κ : Type}

def new : TcpClient κ where
  running := false
  reconnect := false
  connector := .new
  connection := false
  conn := none
  connectCallback := false
  messageCallback := false
  writeCompleteCallback := false
  closeCallback := none
  destroyed := false

variable (c : TcpClient κ)

def quiet : ClientOutcome κ := ⟨c, [], [], false⟩

/-- `newConnection(sockfd)`, up to the connect callback. -/
def newConnection : TcpClient κ :=
  { c with
    connection := true
    conn := some
      (TcpConnection.new c.messageCallback c.writeCompleteCallback true false).connectEstablished }

/-- What the connector leaves behind, and the connection made of a socket it hands on. -/
def withConnector (out : ConnectorOutcome) : ClientOutcome κ :=
  let c := { c with connector := out.connector }
  ⟨if out.handed.isSome then c.newConnection else c, out.queued.map .connector, out.timers,
    out.handed.isSome && c.connectCallback⟩

/-- What the connection leaves behind. -/
def withConn (out : Outcome) : ClientOutcome κ :=
  ⟨{ c with conn := some out.conn }, out.queued.map .conn, [], false⟩

/-- `_connection->f()`, if there is a connection. -/
def onConnection (f : TcpConnection → Outcome) : ClientOutcome κ :=
  if c.connection then
    match c.conn with
    | none => c.quiet
    | some conn => c.withConn (f conn)
  else c.quiet

def start : ClientOutcome κ := { c with running := true }.withConnector c.connector.start

def stopConnect : ClientOutcome κ := { c with running := false }.withConnector c.connector.stop

def shutdown (inLoop : Bool) : ClientOutcome κ :=
  { c with running := false }.onConnection (·.shutdown inLoop)

def forceClose : ClientOutcome κ := { c with running := false }.onConnection (·.forceClose)

/-- `handleClose(conn)`, the close callback of the connection. -/
def handleClose (sockfd : Fd) (answer : ConnectAnswer) : ClientOutcome κ :=
  let c := { c with connection := false }
  let out := if c.reconnect && c.running then c.connector.restart sockfd answer else c.connector.quiet
  let out := c.withConnector out
  { out with queued := [.closed] ++ out.queued }

/-- The first half of the task of `handleClose`; the user's close callback is the other. -/
def connectDestroyed : TcpClient κ := { c with conn := c.conn.map (·.connectDestroyed) }

/-- `~TcpClient()`; `unique` says whether `_connection` is the last reference to the connection. -/
def destroy (unique : Bool) : ClientOutcome κ :=
  let out :=
    if c.connection then if unique then c.onConnection (·.forceClose) else c.quiet
    else c.withConnector c.connector.stop
  { out with
    client := { out.client with
      connectCallback := false
      messageCallback := false
      writeCompleteCallback := false
      closeCallback := none
      destroyed := true } }

/-! ## The close callback of the connection -/

/-- The connection has its close callback still to run. -/
def isOpen : Bool := c.conn.any (·.closeCallback)

theorem isOpen_connectDestroyed : c.connectDestroyed.isOpen = c.isOpen := by
  rcases hconn : c.conn with - | conn
  · simp [isOpen, connectDestroyed, hconn]
  · have hclose : conn.connectDestroyed.closeCallback = conn.closeCallback :=
      congrArg (·.2.2.1) conn.callbacks_connectDestroyed
    simp [isOpen, connectDestroyed, hconn, hclose]

end TcpClient
