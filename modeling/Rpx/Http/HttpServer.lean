import Rpx.Core.Lifecycle

/-!
# Http/HttpServer — what a connection's user data is, and when

    accept ──▶ connectEstablished, initConnection ──▶ handleMessage, writeCompleteCallback, …
                                                      ──▶ connectDestroyed, deleteConnection

The user data of a connection is a `std::any`: empty at first, a `HttpContextPtr` from
`initConnection` on, and `nullptr` after `deleteConnection`.  Both run in tasks, among the tasks of the
connection itself; every callback between them casts the user data back, and a cast that fails ends
the process.  `userData_valid` says that none does.
-/

open Machinery

/-- What `_userData` of a `TcpConnection` holds. -/
inductive UserData
  | empty
  | context
  | null
  deriving DecidableEq, Repr

/-- A task queued on the loop of a connection of the server. -/
inductive ServerTask
  /-- Of `TcpServer::handleNewConnection`: `connectEstablished`, then `initConnection`. -/
  | established
  | conn (t : ConnTask)
  /-- Of `TcpServer::handleClose`: `connectDestroyed`, then `deleteConnection`. -/
  | closed
  deriving DecidableEq, Repr

/-- A call of a member function of `HttpServer`, and whether its cast found a `HttpContextPtr`. -/
inductive ServerCall
  | initConnection
  | handleMessage (found : Bool)
  | writeCompleteCallback (found : Bool)
  | deleteConnection (found : Bool)
  deriving DecidableEq, Repr

structure HttpConnection where
  conn : TcpConnection
  tasks : List ServerTask
  /-- What is left of the dispatch in progress. -/
  handlers : List Handler
  userData : UserData
  /-- The calls made so far, in order. -/
  log : List ServerCall
  /-- A `bad_any_cast` ended the process. -/
  threw : Bool

/-- What happens to a connection of the server, once accepted. -/
inductive ServerEvent
  /-- User code calls the connection, or another thread its `forceClose()`. -/
  | call (c : ConnCall)
  | dispatch (events : EpollMask)
  | handler (read : ReadAnswer) (write : WriteAnswer)
  /-- The oldest queued task runs. -/
  | runTask

namespace HttpConnection

variable (x : HttpConnection)

/-- `std::any_cast<HttpContextPtr>(conn->getUserData())`. -/
def found : Bool := x.userData == .context

def initConnection : HttpConnection :=
  { x with userData := .context, log := x.log ++ [.initConnection] }

def deleteConnection : HttpConnection :=
  if x.found then { x with userData := .null, log := x.log ++ [.deleteConnection true] }
  else { x with log := x.log ++ [.deleteConnection false], threw := true }

def handleMessage : HttpConnection :=
  if x.found then
    { x with conn := { x.conn with readBuffer := [] }, log := x.log ++ [.handleMessage true] }
  else { x with log := x.log ++ [.handleMessage false], threw := true }

def writeCompleteCallback : HttpConnection :=
  { x with log := x.log ++ [.writeCompleteCallback x.found], threw := x.threw || !x.found }

/-- A callback that the server gave the connection; it gives no error callback. -/
def callback : Callback → HttpConnection
  | .message => x.handleMessage
  | .writeComplete => x.writeCompleteCallback
  | .close => { x with tasks := x.tasks ++ [.closed] }
  | .error => x

/-- What a member function of the connection leaves behind. -/
def after (out : Outcome) : HttpConnection :=
  out.called.foldl callback
    { x with conn := out.conn, tasks := x.tasks ++ out.queued.map .conn }

def runTask : ServerTask → HttpConnection
  | .established => { x with conn := x.conn.connectEstablished }.initConnection
  | .conn t => x.after (x.conn.runTask t)
  | .closed => { x with conn := x.conn.connectDestroyed }.deleteConnection

/-- User code has the connection from `initConnection` on. -/
def perform : ServerEvent → HttpConnection
  | .call c => if x.userData = .empty then x else x.after (x.conn.call c)
  | .dispatch events =>
    if x.handlers = [] ∧ x.conn.channel.registered.isSome then
      { x with
        conn := { x.conn with channel := x.conn.channel.setEvents events }
        handlers := events.handlers }
    else x
  | .handler read write =>
    match x.handlers with
    | [] => x
    | h :: rest => { x with handlers := rest }.after (x.conn.handle read write h)
  | .runTask =>
    match x.handlers, x.tasks with
    | [], t :: rest => { x with tasks := rest }.runTask t
    | _, _ => x

/-- One event; a process that has ended takes none. -/
def step (e : ServerEvent) : HttpConnection :=
  if x.threw || x.conn.channel.aborted then x else x.perform e

/-- A connection that `handleNewConnection` has just made. -/
def accepted : HttpConnection where
  conn := .new true true true false
  tasks := [.established]
  handlers := []
  userData := .empty
  log := []
  threw := false

/-! ## The phases -/

/-- Calls that a connection in use makes. -/
def Served (log : List ServerCall) : Prop :=
  ∀ call ∈ log, call = .handleMessage true ∨ call = .writeCompleteCallback true

/-- The connection is in use: it has its context, and no task that begins or ends it is queued. -/
structure InUse (x : HttpConnection) : Prop where
  userData : x.userData = .context
  established : .established ∉ x.tasks
  closed : .closed ∉ x.tasks
  log : ∃ mid, Served mid ∧ x.log = .initConnection :: mid
  threw : x.threw = false

/-- The connection has run its close callback; the task that ends it is queued once. -/
structure Ending (x : HttpConnection) : Prop where
  userData : x.userData = .context
  established : .established ∉ x.tasks
  closed : x.tasks.count .closed = 1
  silent : x.conn.Silent
  log : ∃ mid, Served mid ∧ x.log = .initConnection :: mid
  threw : x.threw = false

/-- `deleteConnection` has run. -/
structure Ended (x : HttpConnection) : Prop where
  established : .established ∉ x.tasks
  closed : .closed ∉ x.tasks
  silent : x.conn.Silent
  log : ∃ mid, Served mid ∧ x.log = .initConnection :: mid ++ [.deleteConnection true]
  threw : x.threw = false

/-- Where a connection can be, once its first task has run. -/
inductive Begun (x : HttpConnection) : Prop
  | inUse (h : x.InUse)
  | ending (h : x.Ending)
  | ended (h : x.Ended)

/-- **Where a connection can be.** -/
inductive Valid (x : HttpConnection) : Prop
  | accepted (h : x = .accepted)
  | begun (h : x.Begun)

variable {x}

theorem Served.concat {log : List ServerCall} (h : Served log) {call : ServerCall}
    (hcall : call = .handleMessage true ∨ call = .writeCompleteCallback true) :
    Served (log ++ [call]) := by
  intro c hc
  rcases List.mem_append.mp hc with hc | hc
  · exact h c hc
  · obtain rfl := List.mem_singleton.mp hc
    exact hcall

/-- Calls in use end nothing. -/
theorem Served.not_mem_deleteConnection {mid : List ServerCall} (h : Served mid) (found : Bool) :
    .deleteConnection found ∉ ServerCall.initConnection :: mid := fun hm => by
  rcases List.mem_cons.mp hm with heq | hm
  · cases heq
  · rcases h _ hm with heq | heq <;> cases heq

/-- The connection's own tasks are neither the first nor the last. -/
theorem not_mem_map_conn (ts : List ConnTask) :
    ServerTask.established ∉ ts.map .conn ∧ ServerTask.closed ∉ ts.map .conn := by
  constructor <;> simp

/-! ## The calls of the server -/

theorem InUse.found (h : x.InUse) : x.found = true := beq_iff_eq.mpr h.userData

theorem Ending.found (h : x.Ending) : x.found = true := beq_iff_eq.mpr h.userData

theorem InUse.handleMessage (h : x.InUse) : x.handleMessage.InUse := by
  obtain ⟨mid, hmid, hlog⟩ := h.log
  rw [HttpConnection.handleMessage, if_pos h.found]
  refine ⟨h.userData, h.established, h.closed,
    ⟨mid ++ [.handleMessage true], hmid.concat (.inl rfl), ?_⟩, h.threw⟩
  show x.log ++ _ = _
  rw [hlog, List.cons_append]

theorem InUse.writeCompleteCallback (h : x.InUse) : x.writeCompleteCallback.InUse := by
  obtain ⟨mid, hmid, hlog⟩ := h.log
  rw [HttpConnection.writeCompleteCallback, h.found]
  refine ⟨h.userData, h.established, h.closed,
    ⟨mid ++ [.writeCompleteCallback true], hmid.concat (.inr rfl), ?_⟩, ?_⟩
  · show x.log ++ _ = _
    rw [hlog, List.cons_append]
  · show (x.threw || false) = false
    rw [h.threw]
    rfl

/-- **A callback that runs while the connection is in use.** -/
theorem InUse.callback (h : x.InUse) {b : Callback} (hclose : b = .close → x.conn.Silent) :
    (x.callback b).Begun := by
  cases b with
  | message => exact .inUse h.handleMessage
  | writeComplete => exact .inUse h.writeCompleteCallback
  | close =>
    refine .ending ⟨h.userData, fun hm => ?_, ?_, hclose rfl, h.log, h.threw⟩
    · exact (List.mem_append.mp hm).elim h.established (by simp)
    · show (x.tasks ++ [ServerTask.closed]).count ServerTask.closed = 1
      rw [List.count_append, List.count_eq_zero.mpr h.closed]
      rfl
  | error => exact .inUse h

/-- **`deleteConnection` finds the context.** -/
theorem Ending.deleteConnection (h : x.Ending) {rest : List ServerTask}
    (htasks : x.tasks = .closed :: rest) {c : TcpConnection} (hc : c.Silent) :
    Ended (HttpConnection.deleteConnection { x with tasks := rest, conn := c }) := by
  obtain ⟨mid, hmid, hlog⟩ := h.log
  have hestablished := h.established
  have hclosed := h.closed
  rw [htasks] at hestablished hclosed
  have hfound : HttpConnection.found { x with tasks := rest, conn := c } = true := h.found
  rw [HttpConnection.deleteConnection, if_pos hfound]
  refine ⟨fun hm => hestablished (List.mem_cons_of_mem _ hm), ?_, hc, ⟨mid, hmid, ?_⟩, h.threw⟩
  · rw [List.count_cons_self] at hclosed
    exact List.count_eq_zero.mp (Nat.succ_injective hclosed)
  · show x.log ++ _ = _
    rw [hlog]

/-! ## The calls of the connection -/

/-- What the connection queues changes nothing that counts. -/
theorem InUse.withConn (h : x.InUse) (c : TcpConnection) (ts : List ConnTask) :
    InUse { x with conn := c, tasks := x.tasks ++ ts.map .conn } := by
  obtain ⟨hestablished, hclosed⟩ := not_mem_map_conn ts
  exact ⟨h.userData, fun hm => (List.mem_append.mp hm).elim h.established hestablished,
    fun hm => (List.mem_append.mp hm).elim h.closed hclosed, h.log, h.threw⟩

/-- **A member function of the connection keeps it valid.** -/
theorem InUse.after (h : x.InUse) {out : Outcome} (hout : x.conn.Onward out) : (x.after out).Begun := by
  have hquiet := h.withConn out.conn out.queued
  have hone := hout.once
  rw [HttpConnection.after]
  rcases hcalled : out.called with - | ⟨b, rest⟩
  · exact .inUse hquiet
  · obtain rfl : rest = [] := by
      rw [hcalled, List.length_cons] at hone
      exact List.length_eq_zero_iff.mp (by omega)
    refine hquiet.callback fun hb => hout.closing ?_
    rw [hcalled, hb]
    exact List.mem_singleton_self _

theorem Ending.after (h : x.Ending) {out : Outcome} (hout : x.conn.Onward out) :
    (x.after out).Ending := by
  obtain ⟨hnone, hsilent⟩ := hout.hushed h.silent
  obtain ⟨hestablished, hclosed⟩ := not_mem_map_conn out.queued
  rw [HttpConnection.after, hnone]
  refine ⟨h.userData, fun hm => (List.mem_append.mp hm).elim h.established hestablished, ?_, hsilent,
    h.log, h.threw⟩
  show (x.tasks ++ out.queued.map ServerTask.conn).count ServerTask.closed = 1
  rw [List.count_append, h.closed, List.count_eq_zero.mpr hclosed]

theorem Ended.after (h : x.Ended) {out : Outcome} (hout : x.conn.Onward out) :
    (x.after out).Ended := by
  obtain ⟨hnone, hsilent⟩ := hout.hushed h.silent
  obtain ⟨hestablished, hclosed⟩ := not_mem_map_conn out.queued
  rw [HttpConnection.after, hnone]
  exact ⟨fun hm => (List.mem_append.mp hm).elim h.established hestablished,
    fun hm => (List.mem_append.mp hm).elim h.closed hclosed, hsilent, h.log, h.threw⟩

/-! ## Every step -/

/-- A task other than the last is taken from the queue. -/
theorem InUse.pop (h : x.InUse) {t : ServerTask} {rest : List ServerTask} (htasks : x.tasks = t :: rest) :
    InUse { x with tasks := rest } :=
  ⟨h.userData, fun hm => h.established (htasks ▸ List.mem_cons_of_mem t hm),
    fun hm => h.closed (htasks ▸ List.mem_cons_of_mem t hm), h.log, h.threw⟩

theorem Ending.pop (h : x.Ending) {t : ConnTask} {rest : List ServerTask}
    (htasks : x.tasks = .conn t :: rest) : Ending { x with tasks := rest } := by
  have hclosed := h.closed
  rw [htasks, List.count_cons_of_ne (by simp)] at hclosed
  exact ⟨h.userData, fun hm => h.established (htasks ▸ List.mem_cons_of_mem _ hm), hclosed, h.silent,
    h.log, h.threw⟩

theorem Ended.pop (h : x.Ended) {t : ServerTask} {rest : List ServerTask} (htasks : x.tasks = t :: rest) :
    Ended { x with tasks := rest } :=
  ⟨fun hm => h.established (htasks ▸ List.mem_cons_of_mem t hm),
    fun hm => h.closed (htasks ▸ List.mem_cons_of_mem t hm), h.silent, h.log, h.threw⟩

/-- **The oldest task runs.** -/
theorem Begun.runTask (h : x.Begun) {t : ServerTask} {rest : List ServerTask}
    (htasks : x.tasks = t :: rest) : (HttpConnection.runTask { x with tasks := rest } t).Begun := by
  cases h with
  | inUse h =>
    cases t with
    | established => exact absurd (htasks ▸ List.mem_cons_self) h.established
    | conn t => exact (h.pop htasks).after (x.conn.runTask_onward t)
    | closed => exact absurd (htasks ▸ List.mem_cons_self) h.closed
  | ending h =>
    cases t with
    | established => exact absurd (htasks ▸ List.mem_cons_self) h.established
    | conn t => exact .ending ((h.pop htasks).after (x.conn.runTask_onward t))
    | closed =>
      exact .ended (h.deleteConnection htasks (x.conn.callbacks_connectDestroyed.trans h.silent))
  | ended h =>
    cases t with
    | established => exact absurd (htasks ▸ List.mem_cons_self) h.established
    | conn t => exact .ended ((h.pop htasks).after (x.conn.runTask_onward t))
    | closed => exact absurd (htasks ▸ List.mem_cons_self) h.closed

/-- A member function of the connection is called. -/
theorem Begun.after (h : x.Begun) {out : Outcome} (hout : x.conn.Onward out) : (x.after out).Begun := by
  cases h with
  | inUse h => exact h.after hout
  | ending h => exact .ending (h.after hout)
  | ended h => exact .ended (h.after hout)

/-- The dispatch in progress, and what the poller reports, count for nothing. -/
theorem InUse.frame (h : x.InUse) (c : TcpConnection) (hs : List Handler) :
    InUse { x with conn := c, handlers := hs } :=
  ⟨h.userData, h.established, h.closed, h.log, h.threw⟩

theorem Ending.frame (h : x.Ending) {c : TcpConnection} (hc : c.callbacks = x.conn.callbacks)
    (hs : List Handler) : Ending { x with conn := c, handlers := hs } :=
  ⟨h.userData, h.established, h.closed, hc.trans h.silent, h.log, h.threw⟩

theorem Ended.frame (h : x.Ended) {c : TcpConnection} (hc : c.callbacks = x.conn.callbacks)
    (hs : List Handler) : Ended { x with conn := c, handlers := hs } :=
  ⟨h.established, h.closed, hc.trans h.silent, h.log, h.threw⟩

theorem Begun.withConn (h : x.Begun) {c : TcpConnection} (hc : c.callbacks = x.conn.callbacks)
    (hs : List Handler) : Begun { x with conn := c, handlers := hs } := by
  cases h with
  | inUse h => exact .inUse (h.frame c hs)
  | ending h => exact .ending (h.frame hc hs)
  | ended h => exact .ended (h.frame hc hs)

theorem Begun.perform (h : x.Begun) (e : ServerEvent) : (x.perform e).Begun := by
  cases e with
  | call c =>
    rw [HttpConnection.perform]
    split
    · exact h
    · exact h.after (x.conn.call_onward c)
  | dispatch events =>
    rw [HttpConnection.perform]
    split
    · exact h.withConn (c := { x.conn with channel := x.conn.channel.setEvents events }) rfl _
    · exact h
  | handler read write =>
    rw [HttpConnection.perform]
    split
    · exact h
    · rename_i hd rest _
      have hrest : Begun { x with handlers := rest } := h.withConn rfl rest
      exact hrest.after (x.conn.handle_onward read write hd)
  | runTask =>
    rw [HttpConnection.perform]
    split
    · rename_i t rest _ htasks
      exact h.runTask htasks
    · exact h

/-- The first task puts a connection to use. -/
theorem inUse_established :
    (HttpConnection.runTask { accepted with tasks := [] } .established).InUse :=
  ⟨rfl, List.not_mem_nil, List.not_mem_nil, ⟨[], fun _ hc => absurd hc List.not_mem_nil, rfl⟩, rfl⟩

/-- Of a connection just accepted only the first task can run. -/
theorem valid_perform_accepted (e : ServerEvent) : (accepted.perform e).Valid := by
  cases e with
  | call c => exact .accepted rfl
  | dispatch events => exact .accepted rfl
  | handler read write => exact .accepted rfl
  | runTask => exact .begun (.inUse inUse_established)

/-- **Every step keeps a connection valid.** -/
theorem Valid.step (h : x.Valid) (e : ServerEvent) : (x.step e).Valid := by
  rw [HttpConnection.step]
  split
  · exact h
  · cases h with
    | accepted h =>
      subst h
      exact valid_perform_accepted e
    | begun h => exact .begun (h.perform e)

/-- Once `deleteConnection` has run, no callback is set. -/
theorem Valid.silent_of_deleted (h : x.Valid) (hdeleted : .deleteConnection true ∈ x.log) :
    x.conn.Silent := by
  cases h with
  | accepted h =>
    rw [h] at hdeleted
    cases hdeleted
  | begun h =>
    cases h with
    | inUse h =>
      obtain ⟨mid, hmid, hlog⟩ := h.log
      exact absurd (hlog ▸ hdeleted) (hmid.not_mem_deleteConnection true)
    | ending h => exact h.silent
    | ended h => exact h.silent

/-- **User data is always valid.**  No cast of the user data fails; `initConnection` and
`deleteConnection` are called at most once each, in this order, and `handleMessage` and
`writeCompleteCallback` only in between. -/
theorem userData_valid (es : List ServerEvent) :
    let x := run step accepted es
    x.threw = false
      ∧ (x.log = [] ∨ ∃ mid, Served mid
        ∧ (x.log = .initConnection :: mid
          ∨ x.log = .initConnection :: mid ++ [.deleteConnection true])) := by
  intro x
  have hx : x.Valid := inv_run (fun _ e h _ => h.step e) (.accepted rfl) (meets_true _ es)
  cases hx with
  | accepted h =>
    rw [h]
    exact ⟨rfl, .inl rfl⟩
  | begun h =>
    cases h with
    | inUse h =>
      obtain ⟨mid, hmid, hlog⟩ := h.log
      exact ⟨h.threw, .inr ⟨mid, hmid, .inl hlog⟩⟩
    | ending h =>
      obtain ⟨mid, hmid, hlog⟩ := h.log
      exact ⟨h.threw, .inr ⟨mid, hmid, .inl hlog⟩⟩
    | ended h =>
      obtain ⟨mid, hmid, hlog⟩ := h.log
      exact ⟨h.threw, .inr ⟨mid, hmid, .inr hlog⟩⟩

end HttpConnection
