import Rpx.Http.HttpServer
import Rpx.Http.Exchange

/-!
# Http/Serving — a connection that serves files, and what holds it

    _connections ──▶ conn ──▶ user data ──▶ ctx ──▶ conn
                                            ctx ──▶ the parser's message callback ──▶ ctx
                                            ctx ──▶ its write-complete callback ──▶ ctx

A connection of the server with its context, from the accept to the last task, whose requests go to
`StaticHandler` or find no route.  Connection and context hold each other, and the context holds itself
through its callbacks, so that no count of references reaches zero by itself; `deleteConnection` is what
cuts every one of these edges.  `released_run` — it misses none, in whatever order the two loops let go.
-/

open Machinery

/-- A call that a handler makes on the connection. -/
inductive ResponseCall
  | write (bs : Bytes)
  | shutdown
  deriving DecidableEq, Repr

/-- A request as `HttpRouter::handleRequest` finds it: for `StaticHandler`, or without a route. -/
abbrev ServedRequest := Option StaticResource

/-- What the environment decides while callbacks run: the requests that the parser completes, with what
the writes of each meet, and what the `send` of a `sendMore` meets. -/
structure ServingEnv where
  feed : Feed
  requests : List (ServedRequest × (ℕ → Feed))

structure Serving where
  server : HttpConnection
  /-- The parser's message callback is the one that `initConnection` sets. -/
  messageCallback : Bool
  /-- The context's write-complete callback is `sendMore` with this stream. -/
  writeCompleteCallback : Option Reader
  /-- The connection is in `_connections`. -/
  listed : Bool
  /-- How many tasks that erase it the base loop has queued. -/
  erasures : ℕ
  /-- The requests served, and the calls made on the connection to serve them, in order. -/
  served : List ServedRequest
  log : List ResponseCall

/-- What happens to a connection that serves files. -/
inductive ServingEvent
  | dispatch (events : EpollMask)
  | handler (read : ReadAnswer) (write : WriteAnswer) (env : ServingEnv)
  /-- The oldest task of the io loop runs. -/
  | runTask (env : ServingEnv)
  /-- An erase task of the base loop runs. -/
  | erase
  /-- Some thread calls `forceClose()`. -/
  | forceClose

namespace Serving

variable (x : Serving)

/-! ## Responses -/

/-- `ctx->send(bs)`: what `write()` returned, and the state after it. -/
def send (bs : Bytes) (f : Feed) : ℤ × Serving :=
  let (rv, out) := x.server.conn.write (Pointer.ofBytes bs f.around) bs.length f.junk f.answer
  (rv, { x with
    server := x.server.after out
    log := x.log ++ [.write bs] })

/-- Pieces are written one after the other, whatever the earlier ones returned. -/
def sendAll (x : Serving) : List Bytes → (ℕ → Feed) → Serving
  | [], _ => x
  | bs :: pieces, f => ((x.send bs (f 0)).2).sendAll pieces fun n => f (n + 1)

/-- `ctx->shutdown()`. -/
def shutdown : Serving :=
  { x with
    server := x.server.after (x.server.conn.shutdown true)
    log := x.log ++ [.shutdown] }

def setWriteCompleteCallback (cb : Option Reader) : Serving := { x with writeCompleteCallback := cb }

/-- `ctx->sendError(code)`. -/
def sendError (code : ℕ) (f : ℕ → Feed) : Serving :=
  (x.sendAll (HttpContext.sendError code (Exchange.message code)) f).shutdown

/-- `StaticHandler::operator()`. -/
def staticHandler (r : StaticResource) (f : ℕ → Feed) : Serving :=
  match r with
  | .forbidden => x.sendError 403 f
  | .notFound => x.sendError 404 f
  | .file content =>
    (x.sendAll (Exchange.fileHead content) f).setWriteCompleteCallback (some ⟨content, 0, true⟩)

/-- `StaticHandler::sendMore`. -/
def sendMore (r : Reader) (f : Feed) : Serving :=
  if r.good then
    let (block, r) := r.read 4096
    let x := x.setWriteCompleteCallback (some r)
    if block.length > 0 then
      let (rv, x) := x.send block f
      if rv < 0 then (x.setWriteCompleteCallback none).shutdown else x
    else x
  else (x.setWriteCompleteCallback none).shutdown

/-- `HttpRouter::handleRequest`. -/
def handleRequest (r : ServedRequest) (f : ℕ → Feed) : Serving :=
  let x := { x with served := x.served ++ [r] }
  match r with
  | none => x.sendError 404 f
  | some r => x.staticHandler r f

/-! ## Callbacks and tasks -/

/-- A callback of the connection, once the server has found the context. -/
def callback (env : ServingEnv) : Callback → Serving
  | .message =>
    if x.server.found && x.messageCallback then
      env.requests.foldl (fun x r => x.handleRequest r.1 r.2) x
    else x
  | .writeComplete =>
    if x.server.found then
      match x.writeCompleteCallback with
      | none => x
      | some r => x.sendMore r env.feed
    else x
  | .close => { x with erasures := x.erasures + 1 }
  | .error => x

/-- What a member function of the connection leaves behind. -/
def after (out : Outcome) (env : ServingEnv) : Serving :=
  out.called.foldl (fun x b => x.callback env b) { x with server := x.server.after out }

def runTask (env : ServingEnv) : ServerTask → Serving
  | .established =>
    { x with
      server := x.server.runTask .established
      messageCallback := true }
  | .conn t => x.after (x.server.conn.runTask t) env
  | .closed =>
    if x.server.found then
      { x with
        server := x.server.runTask .closed
        messageCallback := false
        writeCompleteCallback := none }
    else { x with server := x.server.runTask .closed }

def perform : ServingEvent → Serving
  | .dispatch events => { x with server := x.server.perform (.dispatch events) }
  | .handler read write env =>
    match x.server.handlers with
    | [] => x
    | h :: rest =>
      { x with server := { x.server with handlers := rest } }.after
        (x.server.conn.handle read write h) env
  | .runTask env =>
    match x.server.handlers, x.server.tasks with
    | [], t :: rest => { x with server := { x.server with tasks := rest } }.runTask env t
    | _, _ => x
  | .erase =>
    if 0 < x.erasures then
      { x with
        listed := false
        erasures := x.erasures - 1 }
    else x
  | .forceClose => { x with server := x.server.perform (.call .forceClose) }

/-- One event; a process that has ended takes none. -/
def step (e : ServingEvent) : Serving :=
  if x.server.threw || x.server.conn.channel.aborted then x else x.perform e

/-- A connection that `handleNewConnection` has just made. -/
def accepted : Serving where
  server := .accepted
  messageCallback := false
  writeCompleteCallback := none
  listed := true
  erasures := 0
  served := []
  log := []

end Serving

/-! ## Who holds what -/

/-- The task holds the connection, and not just its address. -/
def ServerTask.holds : ServerTask → Bool
  | .established => true
  | .conn .writeComplete => false
  | .conn .handleClose => true
  | .conn .shutdownWrite => false
  | .closed => true

namespace Serving

variable (x : Serving)

/-- How many pointers hold the context: the user data of the connection, and its own callbacks. -/
def ctxUses : ℕ :=
  (if x.server.userData = .context then 1 else 0) + (if x.messageCallback then 1 else 0)
    + (if x.writeCompleteCallback.isSome then 1 else 0)

/-- How many pointers hold the connection from elsewhere: the table and the tasks.  A dispatch in progress
holds nothing. -/
def outerUses : ℕ := (if x.listed then 1 else 0) + x.server.tasks.countP ServerTask.holds

/-- How many pointers hold the connection: a context that is held holds it, too. -/
def connUses : ℕ := x.outerUses + (if 0 < x.ctxUses then 1 else 0)

variable {x}

/-! ## A connection in use -/

/-- The connection is in use, and nobody has let go of it. -/
structure Open (x : Serving) : Prop where
  server : x.server.InUse
  messageCallback : x.messageCallback = true
  listed : x.listed = true
  erasures : x.erasures = 0

/-- Calls that run no callback. -/
theorem inUse_after {s : HttpConnection} (h : s.InUse) {out : Outcome} (hcalled : out.called = []) :
    (s.after out).InUse := by
  rw [HttpConnection.after, hcalled]
  exact h.withConn out.conn out.queued

theorem Open.send (h : x.Open) (bs : Bytes) (f : Feed) : (x.send bs f).2.Open :=
  ⟨inUse_after h.server (x.server.conn.write_called _ _ _ _), h.messageCallback, h.listed, h.erasures⟩

theorem Open.sendAll (h : x.Open) (pieces : List Bytes) (f : ℕ → Feed) : (x.sendAll pieces f).Open := by
  induction pieces generalizing x f with
  | nil => exact h
  | cons bs pieces ih => exact ih (h.send bs (f 0)) fun n => f (n + 1)

theorem Open.shutdown (h : x.Open) : x.shutdown.Open :=
  ⟨inUse_after h.server rfl, h.messageCallback, h.listed, h.erasures⟩

theorem Open.setWriteCompleteCallback (h : x.Open) (cb : Option Reader) :
    (x.setWriteCompleteCallback cb).Open :=
  ⟨h.server, h.messageCallback, h.listed, h.erasures⟩

theorem Open.sendError (h : x.Open) (code : ℕ) (f : ℕ → Feed) : (x.sendError code f).Open :=
  (h.sendAll _ f).shutdown

theorem Open.sendMore (h : x.Open) (r : Reader) (f : Feed) : (x.sendMore r f).Open := by
  rw [Serving.sendMore]
  split
  · dsimp only
    have hnext := h.setWriteCompleteCallback (some (r.read 4096).2)
    split
    · have hsent := hnext.send (r.read 4096).1 f
      split
      · exact (hsent.setWriteCompleteCallback none).shutdown
      · exact hsent
    · exact hnext
  · exact (h.setWriteCompleteCallback none).shutdown

theorem Open.handleRequest (h : x.Open) (r : ServedRequest) (f : ℕ → Feed) :
    (x.handleRequest r f).Open := by
  have hserved : Open { x with served := x.served ++ [r] } :=
    ⟨h.server, h.messageCallback, h.listed, h.erasures⟩
  cases r with
  | none => exact hserved.sendError 404 f
  | some r =>
    cases r with
    | forbidden => exact hserved.sendError 403 f
    | notFound => exact hserved.sendError 404 f
    | file content => exact (hserved.sendAll _ f).setWriteCompleteCallback _

theorem Open.handleRequests (h : x.Open) (rs : List (ServedRequest × (ℕ → Feed))) :
    (rs.foldl (fun x r => x.handleRequest r.1 r.2) x).Open := by
  induction rs generalizing x with
  | nil => exact h
  | cons r rs ih => exact ih (h.handleRequest r.1 r.2)

/-- Callbacks other than the close callback. -/
theorem Open.callback (h : x.Open) (env : ServingEnv) {b : Callback} (hb : b ≠ .close) :
    (x.callback env b).Open := by
  cases b with
  | message =>
    rw [Serving.callback]
    split
    · exact h.handleRequests env.requests
    · exact h
  | writeComplete =>
    rw [Serving.callback]
    split
    · split
      · exact h
      · rename_i r _
        exact h.sendMore r env.feed
    · exact h
  | close => exact absurd rfl hb
  | error => exact h

/-! ## The phases -/

/-- The table is about to let go, or has. -/
def Unlisting (x : Serving) : Prop := x.erasures = if x.listed then 1 else 0

/-- Where a connection can be once its first task has run, with everything that holds it or its
context. -/
inductive Running (x : Serving) : Prop
  | inUse (h : x.Open)
  | ending (server : x.server.Ending) (callback : x.messageCallback = true) (table : x.Unlisting)
  | ended (server : x.server.Ended) (userData : x.server.userData ≠ .context)
    (callback : x.messageCallback = false) (complete : x.writeCompleteCallback = none)
    (table : x.Unlisting)

/-- **Where a connection can be.** -/
inductive Standing (x : Serving) : Prop
  | accepted (h : x = .accepted)
  | running (h : x.Running)

/-- **A member function of the connection**, called while it is in use. -/
theorem Open.after (h : x.Open) {out : Outcome} (hout : x.server.conn.Onward out) (env : ServingEnv) :
    (x.after out env).Running := by
  have hone := hout.once
  rw [Serving.after]
  rcases hcalled : out.called with - | ⟨b, rest⟩
  · exact .inUse ⟨inUse_after h.server hcalled, h.messageCallback, h.listed, h.erasures⟩
  · obtain rfl : rest = [] := by
      rw [hcalled, List.length_cons] at hone
      exact List.length_eq_zero_iff.mp (by omega)
    have hserver : x.server.after out = HttpConnection.callback
        { x.server with conn := out.conn, tasks := x.server.tasks ++ out.queued.map .conn } b := by
      rw [HttpConnection.after, hcalled]
      rfl
    have hquiet := h.server.withConn out.conn out.queued
    rw [hserver]
    cases b with
    | message =>
      have hnext : Open { x with server := HttpConnection.callback _ .message } :=
        ⟨hquiet.handleMessage, h.messageCallback, h.listed, h.erasures⟩
      exact .inUse (hnext.callback env (b := .message) (by simp))
    | writeComplete =>
      have hnext : Open { x with server := HttpConnection.callback _ .writeComplete } :=
        ⟨hquiet.writeCompleteCallback, h.messageCallback, h.listed, h.erasures⟩
      exact .inUse (hnext.callback env (b := .writeComplete) (by simp))
    | close =>
      have hsilent : out.conn.Silent := hout.closing (by simp [hcalled])
      refine .ending ⟨hquiet.userData, fun hm => ?_, ?_, hsilent, hquiet.log, hquiet.threw⟩
        h.messageCallback ?_
      · exact (List.mem_append.mp hm).elim hquiet.established (by simp)
      · show (x.server.tasks ++ out.queued.map ServerTask.conn ++ [ServerTask.closed]).count
          ServerTask.closed = 1
        rw [List.count_append, List.count_eq_zero.mpr hquiet.closed]
        rfl
      · show x.erasures + 1 = if x.listed then 1 else 0
        rw [h.erasures, h.listed]
        rfl
    | error => exact .inUse ⟨hquiet, h.messageCallback, h.listed, h.erasures⟩

/-- Once the connection has run its close callback, no other callback runs. -/
theorem after_of_silent (h : x.server.conn.Silent) {out : Outcome} (hout : x.server.conn.Onward out)
    (env : ServingEnv) : x.after out env = { x with server := x.server.after out } := by
  rw [Serving.after, (hout.hushed h).1]
  rfl

/-- What the user data holds is the work of two tasks alone. -/
theorem userData_foldl_callback (s : HttpConnection) (bs : List Callback) :
    (bs.foldl HttpConnection.callback s).userData = s.userData := by
  induction bs generalizing s with
  | nil => rfl
  | cons b bs ih =>
    rw [List.foldl_cons, ih]
    cases b with
    | message =>
      rw [HttpConnection.callback, HttpConnection.handleMessage]
      split <;> rfl
    | writeComplete => rfl
    | close => rfl
    | error => rfl

/-- **A member function of the connection is called.** -/
theorem Running.after (h : x.Running) {out : Outcome} (hout : x.server.conn.Onward out)
    (env : ServingEnv) : (x.after out env).Running := by
  cases h with
  | inUse h => exact h.after hout env
  | ending server callback table =>
    rw [after_of_silent server.silent hout]
    exact .ending (server.after hout) callback table
  | ended server userData callback complete table =>
    rw [after_of_silent server.silent hout]
    refine .ended (server.after hout) ?_ callback complete table
    show (x.server.after out).userData ≠ .context
    rw [HttpConnection.after, userData_foldl_callback]
    exact userData

/-! ## Every step -/

/-- The queue and the dispatch in progress change, and what the poller reports. -/
theorem Running.pop (h : x.Running) {t : ConnTask} {rest : List ServerTask}
    (htasks : x.server.tasks = .conn t :: rest) :
    Running { x with server := { x.server with tasks := rest } } := by
  cases h with
  | inUse h => exact .inUse ⟨h.server.pop htasks, h.messageCallback, h.listed, h.erasures⟩
  | ending server callback table => exact .ending (server.pop htasks) callback table
  | ended server userData callback complete table =>
    exact .ended (server.pop htasks) userData callback complete table

theorem Running.withConn (h : x.Running) {c : TcpConnection}
    (hc : c.callbacks = x.server.conn.callbacks) (hs : List Handler) :
    Running { x with server := { x.server with conn := c, handlers := hs } } := by
  cases h with
  | inUse h => exact .inUse ⟨h.server.frame c hs, h.messageCallback, h.listed, h.erasures⟩
  | ending server callback table => exact .ending (server.frame hc hs) callback table
  | ended server userData callback complete table =>
    exact .ended (server.frame hc hs) userData callback complete table

/-- **`deleteConnection` cuts every edge.** -/
theorem Running.closed (h : x.Running) {rest : List ServerTask}
    (htasks : x.server.tasks = .closed :: rest) (env : ServingEnv) :
    (Serving.runTask { x with server := { x.server with tasks := rest } } env .closed).Running := by
  cases h with
  | inUse h => exact absurd (htasks ▸ List.mem_cons_self) h.server.closed
  | ending server callback table =>
    have hfound : HttpConnection.found { x.server with tasks := rest } = true := server.found
    have hended := server.deleteConnection htasks
      (x.server.conn.callbacks_connectDestroyed.trans server.silent)
    rw [Serving.runTask, if_pos hfound]
    refine .ended hended ?_ rfl rfl table
    have hfound' : HttpConnection.found { x.server with
        tasks := rest
        conn := x.server.conn.connectDestroyed } = true := server.found
    show (HttpConnection.deleteConnection _).userData ≠ .context
    rw [HttpConnection.deleteConnection, if_pos hfound']
    simp
  | ended server => exact absurd (htasks ▸ List.mem_cons_self) server.closed

theorem Running.erase (h : x.Running) : (x.perform .erase).Running := by
  have htable : x.Unlisting → 0 < x.erasures →
      Unlisting { x with listed := false, erasures := x.erasures - 1 } := by
    intro htable hpos
    rw [Unlisting] at htable
    show x.erasures - 1 = if false then 1 else 0
    rw [htable]
    split <;> rfl
  rw [perform]
  split
  · rename_i hpos
    cases h with
    | inUse h => exact absurd h.erasures hpos.ne'
    | ending server callback table => exact .ending server callback (htable table hpos)
    | ended server userData callback complete table =>
      exact .ended server userData callback complete (htable table hpos)
  · exact h

theorem Running.perform (h : x.Running) (e : ServingEvent) : (x.perform e).Running := by
  cases e with
  | dispatch events =>
    rw [Serving.perform, HttpConnection.perform]
    split
    · exact h.withConn (c := { x.server.conn with channel := x.server.conn.channel.setEvents events })
        rfl _
    · exact h
  | handler read write env =>
    rw [Serving.perform]
    split
    · exact h
    · rename_i hd rest _
      have hrest : Running { x with server := { x.server with handlers := rest } } :=
        h.withConn rfl rest
      exact hrest.after (x.server.conn.handle_onward read write hd) env
  | runTask env =>
    rw [Serving.perform]
    split
    · rename_i t rest _ htasks
      cases t with
      | established =>
        cases h with
        | inUse h => exact absurd (htasks ▸ List.mem_cons_self) h.server.established
        | ending server => exact absurd (htasks ▸ List.mem_cons_self) server.established
        | ended server => exact absurd (htasks ▸ List.mem_cons_self) server.established
      | conn t => exact (h.pop htasks).after (x.server.conn.runTask_onward t) env
      | closed => exact h.closed htasks env
    · exact h
  | erase => exact h.erase
  | forceClose =>
    have hcalled : (x.server.conn.call .forceClose).called = [] := x.server.conn.called_forceClose
    rw [Serving.perform, HttpConnection.perform]
    split
    · exact h
    · have hafter := h.after (x.server.conn.call_onward .forceClose) ⟨⟨fun _ => 0, 0, .takes 0⟩, []⟩
      rwa [Serving.after, hcalled] at hafter

/-- The first task gives a connection its context. -/
theorem open_perform_accepted (env : ServingEnv) : (accepted.perform (.runTask env)).Open :=
  ⟨HttpConnection.inUse_established, rfl, rfl, rfl⟩

/-- Of a connection just accepted only the first task can run. -/
theorem standing_perform_accepted (e : ServingEvent) : (accepted.perform e).Standing := by
  cases e with
  | dispatch events => exact .accepted rfl
  | handler read write env => exact .accepted rfl
  | runTask env => exact .running (.inUse (open_perform_accepted env))
  | erase => exact .accepted rfl
  | forceClose => exact .accepted rfl

/-- **Every step.** -/
theorem Standing.step (h : x.Standing) (e : ServingEvent) : (x.step e).Standing := by
  rw [Serving.step]
  split
  · exact h
  · cases h with
    | accepted h =>
      subst h
      exact standing_perform_accepted e
    | running h => exact .running (h.perform e)

theorem standing_run (es : List ServingEvent) : (run step accepted es).Standing :=
  @inv_run _ _ step (fun _ _ => True) Standing (fun _ e h _ => h.step e) _ (.accepted rfl) es
    (meets_true _ es)

/-! ## The references -/

/-- As long as the user data is the context, the context holds itself through its message callback. -/
theorem Standing.messageCallback (h : x.Standing) (hdata : x.server.userData = .context) :
    x.messageCallback = true := by
  cases h with
  | accepted h =>
    rw [h] at hdata
    cases hdata
  | running h =>
    cases h with
    | inUse h => exact h.messageCallback
    | ending server callback table => exact callback
    | ended server userData => exact absurd hdata userData

/-- **What `deleteConnection` has cut.** -/
theorem Standing.of_deleted (h : x.Standing) (hdeleted : .deleteConnection true ∈ x.server.log) :
    x.server.userData ≠ .context ∧ x.messageCallback = false ∧ x.writeCompleteCallback = none
      ∧ x.Unlisting := by
  cases h with
  | accepted h =>
    rw [h] at hdeleted
    cases hdeleted
  | running h =>
    cases h with
    | inUse h =>
      obtain ⟨mid, hmid, hlog⟩ := h.server.log
      exact absurd (hlog ▸ hdeleted) (hmid.not_mem_deleteConnection true)
    | ending server =>
      obtain ⟨mid, hmid, hlog⟩ := server.log
      exact absurd (hlog ▸ hdeleted) (hmid.not_mem_deleteConnection true)
    | ended server userData callback complete table => exact ⟨userData, callback, complete, table⟩

/-- **Connections are released.**  From `initConnection` on the context holds itself and its connection,
so that both counts stay above zero whatever else lets go; and once `deleteConnection` has run and both
loops have run their tasks, in either order, nothing holds the connection or its context. -/
theorem released_run (es : List ServingEvent) :
    let x := run step accepted es
    (x.server.userData = .context →
      x.ctxUses = 2 + (if x.writeCompleteCallback.isSome then 1 else 0) ∧ x.connUses = x.outerUses + 1)
      ∧ (.deleteConnection true ∈ x.server.log → x.server.tasks = [] → x.erasures = 0 →
        x.connUses = 0 ∧ x.ctxUses = 0) := by
  intro x
  have hx : x.Standing := standing_run es
  constructor
  · intro hdata
    have huses : x.ctxUses = 2 + (if x.writeCompleteCallback.isSome then 1 else 0) := by
      rw [ctxUses, if_pos hdata, hx.messageCallback hdata]
      rfl
    refine ⟨huses, ?_⟩
    rw [connUses, if_pos (by omega)]
  · intro hdeleted htasks herasures
    obtain ⟨hdata, hcallback, hcomplete, htable⟩ := hx.of_deleted hdeleted
    have hlisted : x.listed = false := by
      rw [Unlisting, herasures] at htable
      by_contra hne
      rw [if_pos (Bool.not_eq_false _ ▸ hne)] at htable
      cases htable
    have huses : x.ctxUses = 0 := by
      rw [ctxUses, if_neg hdata, hcallback, hcomplete]
      rfl
    refine ⟨?_, huses⟩
    rw [connUses, huses, outerUses, hlisted, htasks]
    rfl

end Serving
