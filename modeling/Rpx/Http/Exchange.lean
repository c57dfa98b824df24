import Rpx.Core.TcpClient
import Rpx.Http.HttpContext

/-!
# Http/Exchange — one downstream connection, its context and its upstreams

    requests ──▶ StaticHandler ──────────────▶ write()
             └─▶ ProxyHandler ──▶ TcpClient ──▶ write()

The context of a connection has one slot for user data, one for a close callback and one for a
write-complete callback, whatever the number of requests.  `step` is everything that can happen on
the loop of the connection: a request is dispatched, a socket becomes readable or writable, a timer
fires, or the oldest queued task runs.  An event that the state rules out changes nothing.

A `TcpClient` lives while the context holds it as its user data or while its own close callback
holds it; `release` is where a reference is dropped.
-/

/-- What the close callback of a proxied client does. -/
inductive ProxyClose
  /-- `ctx->forceClose()`. -/
  | forward
  /-- It holds the client itself, until it runs. -/
  | hold
  deriving DecidableEq, Repr

/-- An `ifstream`: what it has read of its file, and whether it is `good()`. -/
structure Reader where
  content : Bytes
  pos : ℕ
  good : Bool
  deriving DecidableEq, Repr

namespace Reader

/-- What is left to read. -/
def rest (r : Reader) : Bytes := r.content.drop r.pos

/-- `read(buf, n)`; a short read sets `eofbit` and `failbit`. -/
def read (r : Reader) (n : ℕ) : Bytes × Reader :=
  (r.rest.take n, { r with pos := r.pos + n, good := decide (n ≤ r.rest.length) })

end Reader

/-- The slots of a `HttpContext` that the handlers use. -/
structure ContextSlots where
  /-- The `TcpClientPtr` in `_userData`. -/
  userData : Option ℕ
  /-- `_closeCallback` is the one `ProxyHandler` sets. -/
  closeCallback : Bool
  /-- `_writeCompleteCallback` is `sendMore` with this stream. -/
  writeCompleteCallback : Option Reader

/-- A client that `ProxyHandler` made, and the upstream it talks to. -/
structure Upstream where
  client : TcpClient ProxyClose
  /-- `msg->serialize()`, which its connect callback writes. -/
  request : Bytes
  /-- What the upstream has yet to send. -/
  remaining : Bytes

/-- A task queued on the loop. -/
inductive LoopTask
  /-- A task of the downstream connection. -/
  | down (t : ConnTask)
  /-- The task of `TcpServer::handleClose`: `connectDestroyed`, then `HttpServer::deleteConnection`. -/
  | serverClosed
  /-- A task of the `i`-th client. -/
  | client (i : ℕ) (t : ClientTask)
  deriving DecidableEq

structure Exchange where
  down : TcpConnection
  /-- The bytes the kernel took from the downstream connection. -/
  kernel : Bytes
  /-- The bytes passed to its `write()`. -/
  given : Bytes
  /-- The user data of the connection holds the context. -/
  attached : Bool
  ctx : ContextSlots
  /-- The clients made, by the order of their requests. -/
  ups : ℕ → Upstream
  /-- Their number. -/
  next : ℕ
  tasks : List LoopTask
  /-- The clients whose retry timer is pending. -/
  timers : List ℕ
  /-- The runs of code that a connection's end makes on its client: whose, and whether the client was
  alive. -/
  uses : List (ℕ × Bool)
  /-- The complete responses to the requests dispatched. -/
  expected : List Bytes

/-- What a `write()` meets: the memory around the data, what `written` happens to hold, and the
kernel's answer. -/
structure Feed where
  around : Pointer
  junk : ℤ
  answer : WriteAnswer

/-- What `StaticHandler` finds. -/
inductive StaticResource
  /-- The path has a `..` in it. -/
  | forbidden
  | notFound
  | file (content : Bytes)

/-- A request, as `HttpRouter::handleRequest` sends it on. -/
inductive Request
  | noRoute
  | static (r : StaticResource)
  /-- `forwarded` is `msg->serialize()`, `response` what the upstream will send. -/
  | proxied (resolved : Bool) (forwarded response : Bytes)

namespace Exchange

variable (x : Exchange)

/-! ## Writing downstream -/

/-- What the downstream connection leaves behind. -/
def withDown (out : Outcome) : Exchange :=
  { x with
    down := out.conn
    kernel := x.kernel ++ out.sent
    tasks := x.tasks ++ out.queued.map .down }

/-- `ctx->send(bs)`: what `write()` returned, and the state after it. -/
def send (bs : Bytes) (f : Feed) : ℤ × Exchange :=
  let (rv, out) := x.down.write (Pointer.ofBytes bs f.around) bs.length f.junk f.answer
  (rv, { x.withDown out with given := x.given ++ bs })

/-- Pieces are written one after the other, whatever the earlier ones returned. -/
def sendAll (x : Exchange) : List Bytes → (ℕ → Feed) → Exchange
  | [], _ => x
  | bs :: pieces, f => ((x.send bs (f 0)).2).sendAll pieces fun n => f (n + 1)

/-- `ctx->shutdown()`. -/
def shutdown : Exchange := x.withDown (x.down.shutdown true)

/-- `ctx->forceClose()`. -/
def forceClose : Exchange := x.withDown x.down.forceClose

/-- The message of a status code, for the codes the handlers use. -/
def message (code : ℕ) : Bytes := (HttpDefinition.getMessage code).getD []

/-- `ctx->sendError(code)`. -/
def sendError (code : ℕ) (f : ℕ → Feed) : Exchange :=
  (x.sendAll (HttpContext.sendError code (message code)) f).shutdown

/-! ## Clients -/

def setUp (i : ℕ) (u : Upstream) : Exchange := { x with ups := Function.update x.ups i u }

def setClient (i : ℕ) (c : TcpClient ProxyClose) : Exchange :=
  x.setUp i { x.ups i with client := c }

/-- What the `i`-th client leaves behind. -/
def withClient (i : ℕ) (out : ClientOutcome ProxyClose) : Exchange :=
  let x := x.setClient i out.client
  { x with
    tasks := x.tasks ++ out.queued.map (.client i)
    timers := x.timers ++ out.timers.map fun _ => i }

/-- What the connection of the `i`-th client leaves behind. -/
def withConn (i : ℕ) (out : Outcome) : Exchange :=
  x.withClient i ((x.ups i).client.withConn out)

/-- A client, or the message callback of its connection, holds the context. -/
def holdsContext (u : Upstream) : Bool :=
  !u.client.destroyed && (u.client.messageCallback || u.client.closeCallback == some .forward)
    || u.client.conn.any (·.messageCallback)

/-- The context is alive: its connection holds it, or a client does. -/
def contextAlive : Bool :=
  x.attached || (List.range x.next).any fun i => holdsContext (x.ups i)

/-- Something holds the `i`-th client. -/
def held (i : ℕ) : Bool :=
  x.ctx.userData == some i && x.contextAlive || (x.ups i).client.closeCallback == some .hold

/-- **A reference to the `i`-th client is dropped**: if it was the last, the destructor runs. -/
def release (i : ℕ) : Exchange :=
  if (x.ups i).client.destroyed || x.held i then x
  else
    x.withClient i
      ((x.ups i).client.destroy !(x.tasks.contains (.client i (.conn .handleClose))))

/-- A reference to the context is dropped, and with the last one its user data. -/
def releaseContext : Exchange :=
  match x.ctx.userData with
  | none => x
  | some i => x.release i

/-! ## Handlers -/

/-- The head that `StaticHandler` sends before a file. -/
def fileHead (content : Bytes) : List Bytes :=
  HttpContext.startResponse 200 (message 200)
    ++ HttpContext.sendHeader (ascii "Content-Type") (ascii "text/html")
    ++ HttpContext.sendHeader (ascii "Content-Length") (decimal content.length)
    ++ HttpContext.endHeaders

/-- `StaticHandler::operator()`. -/
def staticHandler (r : StaticResource) (f : ℕ → Feed) : Exchange :=
  match r with
  | .forbidden => x.sendError 403 f
  | .notFound => x.sendError 404 f
  | .file content =>
    let x := x.sendAll (fileHead content) f
    { x with ctx := { x.ctx with writeCompleteCallback := some ⟨content, 0, true⟩ } }

/-- `StaticHandler::sendMore`, from a write-complete task. -/
def sendMore (r : Reader) (f : Feed) : Exchange :=
  if r.good then
    let (block, r) := r.read 4096
    let x := { x with ctx := { x.ctx with writeCompleteCallback := some r } }
    if block.length > 0 then
      let (rv, x) := x.send block f
      if rv < 0 then
        { x with ctx := { x.ctx with writeCompleteCallback := none } }.shutdown
      else x
    else x
  else { x with ctx := { x.ctx with writeCompleteCallback := none } }.shutdown

/-- What `ProxyHandler` answers when the upstream's name does not resolve. -/
def badGateway : Bytes :=
  ascii "HTTP/1.1 502 Bad Gateway\r\nContent-Type: text/plain\r\nContent-Length: 0\r\n\r\n"

/-- The client `ProxyHandler` makes, its callbacks set. -/
def proxyClient : TcpClient ProxyClose :=
  { (TcpClient.new : TcpClient ProxyClose) with
    connectCallback := true
    messageCallback := true
    closeCallback := some .forward }

/-- `ctx->setUserData(client)`: the client is made, and the one it replaces is let go. -/
def setUserData (forwarded response : Bytes) : Exchange :=
  let y := { x.setUp x.next ⟨proxyClient, forwarded, response⟩ with
    ctx := { x.ctx with userData := some x.next }
    next := x.next + 1 }
  match x.ctx.userData with
  | none => y
  | some i => y.release i

/-- `ProxyHandler::operator()`. -/
def proxyHandler (resolved : Bool) (forwarded response : Bytes) (f : Feed) : Exchange :=
  if resolved then
    let i := x.next
    let x := x.setUserData forwarded response
    let x := { x with ctx := { x.ctx with closeCallback := true } }
    x.withClient i (x.ups i).client.start
  else (x.send badGateway f).2

/-- **The complete response to a request.** -/
def response : Request → Bytes
  | .noRoute => (HttpContext.sendError 404 (message 404)).flatten
  | .static .forbidden => (HttpContext.sendError 403 (message 403)).flatten
  | .static .notFound => (HttpContext.sendError 404 (message 404)).flatten
  | .static (.file content) => (fileHead content).flatten ++ content
  | .proxied true _ response => response
  | .proxied false _ _ => badGateway

/-- `HttpRouter::handleRequest`, for a request the parser has completed. -/
def handleRequest (r : Request) (f : ℕ → Feed) : Exchange :=
  let x := { x with expected := x.expected ++ [response r] }
  match r with
  | .noRoute => x.sendError 404 f
  | .static r => x.staticHandler r f
  | .proxied resolved forwarded response => x.proxyHandler resolved forwarded response (f 0)

/-! ## The end of the downstream connection -/

/-- `TcpServer::handleClose`, when the connection runs its close callback. -/
def downClosed (out : Outcome) : Exchange :=
  let x := x.withDown out
  if Callback.close ∈ out.called then { x with tasks := x.tasks ++ [.serverClosed] } else x

/-- The close callback `ProxyHandler` gives the context, on the client in the user data. -/
def contextClose (i : ℕ) : Exchange :=
  let x := x.withClient i (x.ups i).client.stopConnect
  let x := x.setClient i { (x.ups i).client with
    connectCallback := false
    messageCallback := false
    writeCompleteCallback := false
    closeCallback := some .hold }
  x.withClient i (x.ups i).client.forceClose

/-- `ctx->closeCallback()`. -/
def closeCallback : Exchange :=
  match x.ctx.closeCallback, x.ctx.userData with
  | true, some i => x.contextClose i
  | _, _ => x

/-- `HttpServer::deleteConnection`. -/
def deleteConnection : Exchange :=
  if x.attached then
    let x := x.closeCallback
    { x with
      ctx := { x.ctx with writeCompleteCallback := none, closeCallback := false }
      attached := false }.releaseContext
  else x

/-! ## Upstream -/

/-- What the connector of the `i`-th client leaves behind; a connection just made is sent the
request. -/
def withConnector (i : ℕ) (out : ConnectorOutcome) (f : Feed) : Exchange :=
  let cout := (x.ups i).client.withConnector out
  let x := x.withClient i cout
  match cout.connected, (x.ups i).client.conn with
  | true, some conn =>
    let request := (x.ups i).request
    x.withConn i
      (conn.write (Pointer.ofBytes request f.around) request.length f.junk f.answer).2
  | _, _ => x

/-- The connection of the `i`-th client runs its message callback on what it has read. -/
def upMessage (i : ℕ) (conn : TcpConnection) (f : Feed) : Exchange :=
  let x := (x.send conn.readBuffer f).2
  x.setClient i { (x.ups i).client with conn := some { conn with readBuffer := [] } }

/-- `handleClose` of the connection of the `i`-th client: the message callback is dropped, then the
close callback runs. -/
def upClosed (i : ℕ) (conn : TcpConnection) (sockfd : Fd) (answer : ConnectAnswer) : Exchange :=
  let out := conn.handleClose
  let x := (x.withConn i out).releaseContext
  if Callback.close ∈ out.called then
    let x := { x with uses := x.uses ++ [(i, !(x.ups i).client.destroyed)] }
    x.withClient i ((x.ups i).client.handleClose sockfd answer)
  else x

/-- The user's close callback of the `i`-th client. -/
def userClose (i : ℕ) : Exchange :=
  match (x.ups i).client.closeCallback with
  | none => x
  | some .forward => x.forceClose
  | some .hold => (x.setClient i { (x.ups i).client with closeCallback := none }).release i

/-! ## Everything that can happen -/

/-- What the environment decides while a task runs. -/
structure TaskEnv where
  feed : Feed
  sockfd : Fd
  answer : ConnectAnswer

def runClientTask (i : ℕ) (env : TaskEnv) : ClientTask → Exchange
  | .connector t =>
    x.withConnector i ((x.ups i).client.connector.runTask env.sockfd env.answer t) env.feed
  | .conn .handleClose =>
    match (x.ups i).client.conn with
    | none => x
    | some conn => x.upClosed i conn env.sockfd env.answer
  | .conn t =>
    match (x.ups i).client.conn with
    | none => x
    | some conn => x.withConn i (conn.runTask t)
  | .closed =>
    let x := { x with uses := x.uses ++ [(i, !(x.ups i).client.destroyed)] }
    (x.setClient i (x.ups i).client.connectDestroyed).userClose i

def runTask (env : TaskEnv) : LoopTask → Exchange
  | .down .writeComplete =>
    match (x.down.runTask .writeComplete).called, x.ctx.writeCompleteCallback with
    | [.writeComplete], some r => x.sendMore r env.feed
    | _, _ => x
  | .down t => x.downClosed (x.down.runTask t)
  | .serverClosed => { x with down := x.down.connectDestroyed }.deleteConnection
  | .client i t => x.runClientTask i env t

/-- The poller knows a connection. -/
def polled (c : TcpConnection) : Bool := c.channel.registered.isSome

/-- …and watches it for input. -/
def watched (c : TcpConnection) : Bool := polled c && c.channel.hasReadInterest

end Exchange

inductive ExchangeEvent
  /-- A request has been read and is dispatched. -/
  | request (r : Request) (f : ℕ → Feed)
  /-- `handleWrite` of the downstream connection. -/
  | downWrite (events : EpollMask) (answer : WriteAnswer)
  /-- The client closes its connection. -/
  | downClose
  /-- `handleWrite` of the connector of the `i`-th client. -/
  | connectWrite (i : ℕ) (err : Bool) (f : Feed)
  /-- `handleError` of the connector of the `i`-th client. -/
  | connectError (i : ℕ)
  /-- The retry timer of the `i`-th client. -/
  | retryTimer (i : ℕ) (sockfd : Fd) (answer : ConnectAnswer)
  /-- The `i`-th upstream has sent `n` more bytes. -/
  | upRead (i : ℕ) (n : ℕ) (f : Feed)
  /-- The `i`-th upstream closes its connection. -/
  | upClose (i : ℕ) (sockfd : Fd) (answer : ConnectAnswer)
  /-- `handleWrite` of the connection of the `i`-th client. -/
  | upWrite (i : ℕ) (events : EpollMask) (answer : WriteAnswer)
  /-- The oldest task runs. -/
  | runTask (env : Exchange.TaskEnv)

namespace Exchange

def step (x : Exchange) : ExchangeEvent → Exchange
  | .request r f => if x.down.messageCallback then x.handleRequest r f else x
  | .downWrite events answer =>
    x.withDown ({ x.down with channel := x.down.channel.setEvents events }.handleWrite answer)
  | .downClose => if polled x.down then x.downClosed (x.down.handleRead (.reads [])) else x
  | .connectWrite i err f =>
    if (x.ups i).client.connector.polled then
      x.withConnector i ((x.ups i).client.connector.handleWrite err) f
    else x
  | .connectError i =>
    if (x.ups i).client.connector.polled then
      x.withClient i ((x.ups i).client.withConnector (x.ups i).client.connector.handleError)
    else x
  | .retryTimer i sockfd answer =>
    if i ∈ x.timers then
      let x := { x with timers := x.timers.erase i }
      x.withClient i
        ((x.ups i).client.withConnector ((x.ups i).client.connector.attempt sockfd answer))
    else x
  | .upRead i n f =>
    match (x.ups i).client.conn with
    | none => x
    | some conn =>
      let u := x.ups i
      let bs := u.remaining.take n
      if watched conn ∧ bs ≠ [] then
        let out := conn.handleRead (.reads bs)
        let x := x.setUp i { u with remaining := u.remaining.drop n }
        let x := x.withConn i out
        if Callback.message ∈ out.called then x.upMessage i out.conn f else x
      else x
  | .upClose i sockfd answer =>
    match (x.ups i).client.conn with
    | none => x
    | some conn => if polled conn then x.upClosed i conn sockfd answer else x
  | .upWrite i events answer =>
    match (x.ups i).client.conn with
    | none => x
    | some conn =>
      x.withConn i ({ conn with channel := conn.channel.setEvents events }.handleWrite answer)
  | .runTask env =>
    match x.tasks with
    | [] => x
    | t :: rest => { x with tasks := rest }.runTask env t

/-- An established connection of the server, with a context that has served no request. -/
def opened : Exchange where
  down := (TcpConnection.new true true true false).connectEstablished
  kernel := []
  given := []
  attached := true
  ctx := ⟨none, false, none⟩
  ups := fun _ => ⟨.new, [], []⟩
  next := 0
  tasks := []
  timers := []
  uses := []
  expected := []

end Exchange
