import Rpx.Core.Lifecycle
import Rpx.Core.Connector
import Rpx.Machinery.Registry

/-!
# Core/TcpServer — the table of connections, and descriptors that are used again

    base loop:  accept ──▶ insert({sockfd, conn})              erase(fd)
                               │                                  ▲
    io loop:                   └─▶ connectEstablished … handleClose ──▶ connectDestroyed

The base loop inserts a connection and erases it; the io loop of the connection decides when.  The
kernel hands out a descriptor again once it is closed, which is when the last strong reference to its
connection is dropped: one of the table, of a queued task, of a close in progress or of a user.

`erase_own` — an accepted descriptor is never in the table, and a queued erasure always finds the
connection whose close queued it.
-/

open Machinery

/-- A connection, by its place in the order of accepts. -/
abbrev ConnId := ℕ

/-- A task queued on an io loop. -/
inductive IoTask
  /-- Of `handleNewConnection`. -/
  | connectEstablished (c : ConnId)
  /-- Of the connection itself. -/
  | conn (c : ConnId) (t : ConnTask)
  /-- Of `TcpServer::handleClose`. -/
  | connectDestroyed (c : ConnId)
  deriving DecidableEq, Repr

/-- The strong reference that a task captures; those of `write()` and `shutdown()` capture `this`. -/
def IoTask.holds : IoTask → Option ConnId
  | .connectEstablished c => some c
  | .conn c .handleClose => some c
  | .conn _ _ => none
  | .connectDestroyed c => some c

structure ServerConn where
  fd : Fd
  /-- The io loop it was given. -/
  loop : ℕ
  conn : TcpConnection

/-- The connections after one of them changed. -/
theorem getElem?_set_conns {conns : List ServerConn} {c : ConnId} {x : ServerConn}
    (hx : conns[c]? = some x) (y : ServerConn) (d : ConnId) :
    (conns.set c y)[d]? = if c = d then some y else conns[d]? := by
  have hlt : c < conns.length := (List.getElem?_eq_some_iff.mp hx).1
  simp only [List.getElem?_set, hlt, if_true]

/-- The connections after an accept: an old one, or the new one. -/
theorem getElem?_concat_conns {conns : List ServerConn} {y x : ServerConn} {c : ConnId}
    (hx : (conns ++ [y])[c]? = some x) :
    (c < conns.length ∧ conns[c]? = some x) ∨ (c = conns.length ∧ x = y) := by
  rcases Nat.lt_trichotomy c conns.length with hlt | rfl | hgt
  · rw [List.getElem?_append_left hlt] at hx
    exact .inl ⟨hlt, hx⟩
  · rw [List.getElem?_concat_length] at hx
    exact .inr ⟨rfl, (Option.some.inj hx).symm⟩
  · rw [List.getElem?_eq_none (by simpa using hgt)] at hx
    cases hx

structure TcpServer where
  messageCallback : Bool
  writeCompleteCallback : Bool
  errorCallback : Bool
  /-- How many loops the pool has, and `_cnt`. -/
  loops : ℕ
  cnt : ℕ
  /-- Every connection accepted so far. -/
  conns : List ServerConn
  /-- `_connections`. -/
  connections : Fd → Option ConnId
  /-- The erasures queued on the base loop, each with the connection whose close queued it. -/
  erasures : List (Fd × ConnId)
  /-- The tasks queued on each io loop. -/
  tasks : ℕ → List IoTask
  /-- The connection whose `handleClose` an io loop is in, between its two `queueInLoop` calls. -/
  closing : ℕ → Option ConnId
  /-- The strong references that user code and running dispatches hold. -/
  refs : ConnId → ℕ

/-- What happens to a server. -/
inductive TcpServerEvent
  /-- The base loop accepts a connection. -/
  | accept (fd : Fd)
  /-- The base loop carries out its oldest erasure. -/
  | erase
  /-- An io loop calls a handler of a connection. -/
  | handler (c : ConnId) (h : Handler) (read : ReadAnswer) (write : WriteAnswer)
  /-- User code calls a connection. -/
  | call (c : ConnId) (call : ConnCall)
  /-- An io loop runs its oldest task. -/
  | runTask (loop : ℕ)
  /-- An io loop gets to the second `queueInLoop` of `handleClose`. -/
  | finishClose (loop : ℕ)
  | acquire (c : ConnId)
  | release (c : ConnId)

namespace TcpServer

/-- A server that has accepted nothing. -/
def new (message writeComplete error : Bool) (loops : ℕ) : TcpServer where
  messageCallback := message
  writeCompleteCallback := writeComplete
  errorCallback := error
  loops := loops
  cnt := 0
  conns := []
  connections := fun _ => none
  erasures := []
  tasks := fun _ => []
  closing := fun _ => none
  refs := fun _ => 0

variable (s : TcpServer)

/-! ## Which descriptors are open -/

/-- A strong reference to the connection is left. -/
def alive (c : ConnId) : Bool :=
  s.conns[c]?.any fun x =>
    s.connections x.fd == some c || (s.tasks x.loop).any (·.holds == some c)
      || s.closing x.loop == some c || s.refs c != 0

/-- The descriptor belongs to a connection that is alive. -/
def isOpen (fd : Fd) : Bool :=
  (List.range s.conns.length).any fun c => s.conns[c]?.any (·.fd == fd) && s.alive c

/-! ## The base loop -/

/-- `EventLoopThreadPool::getNextLoop`. -/
def getNextLoop : ℕ × TcpServer :=
  (s.cnt, { s with cnt := if s.cnt + 1 = s.loops then 0 else s.cnt + 1 })

/-- `_connections.insert({fd, conn})`, which replaces nothing. -/
def insert (fd : Fd) (c : ConnId) : TcpServer :=
  if s.connections fd = none then
    { s with connections := Function.update s.connections fd (some c) }
  else s

/-- `queueInLoop` of an io loop. -/
def queueInLoop (loop : ℕ) (ts : List IoTask) : TcpServer :=
  { s with tasks := Function.update s.tasks loop (s.tasks loop ++ ts) }

def handleNewConnection (sockfd : Fd) : TcpServer :=
  let (ioLoop, s) := s.getNextLoop
  let conn := s.conns.length
  let made : ServerConn :=
    ⟨sockfd, ioLoop, .new s.messageCallback s.writeCompleteCallback true s.errorCallback⟩
  let s := { s with conns := s.conns ++ [made] }
  (s.insert sockfd conn).queueInLoop ioLoop [.connectEstablished conn]

/-- The task that `handleClose` queues on the base loop: `_connections.erase(fd)`. -/
def runErase : TcpServer :=
  match s.erasures with
  | [] => s
  | e :: rest =>
    { s with connections := Function.update s.connections e.1 none, erasures := rest }

/-! ## The io loops -/

/-- The first half of `TcpServer::handleClose`, the close callback of every connection. -/
def handleClose (c : ConnId) (x : ServerConn) : TcpServer :=
  { s with
    erasures := s.erasures ++ [(x.fd, c)]
    closing := Function.update s.closing x.loop (some c) }

/-- The second half. -/
def finishClose (loop : ℕ) : TcpServer :=
  match s.closing loop with
  | none => s
  | some c =>
    { s with closing := Function.update s.closing loop none }.queueInLoop loop [.connectDestroyed c]

/-- A connection changes. -/
def put (c : ConnId) (x : ServerConn) (conn : TcpConnection) : TcpServer :=
  { s with conns := s.conns.set c { x with conn := conn } }

/-- What a member function of a connection leaves behind. -/
def after (c : ConnId) (x : ServerConn) (out : Outcome) : TcpServer :=
  let s := (s.put c x out.conn).queueInLoop x.loop (out.queued.map (.conn c))
  if .close ∈ out.called then s.handleClose c x else s

def runTask : IoTask → TcpServer
  | .connectEstablished c =>
    match s.conns[c]? with
    | none => s
    | some x => s.put c x x.conn.connectEstablished
  | .conn c t =>
    match s.conns[c]? with
    | none => s
    | some x => s.after c x (x.conn.runTask t)
  | .connectDestroyed c =>
    match s.conns[c]? with
    | none => s
    | some x => s.put c x x.conn.connectDestroyed

/-! ## Every step -/

/-- One event.  The kernel accepts no open descriptor; only a connection that is alive is called; and
a loop that is inside `handleClose` does nothing else. -/
def step : TcpServerEvent → TcpServer
  | .accept fd => if s.isOpen fd then s else s.handleNewConnection fd
  | .erase => s.runErase
  | .handler c h read write =>
    match s.conns[c]? with
    | none => s
    | some x =>
      if s.alive c ∧ s.closing x.loop = none then s.after c x (x.conn.handle read write h) else s
  | .call c call =>
    match s.conns[c]? with
    | none => s
    | some x => if s.alive c then s.after c x (x.conn.call call) else s
  | .runTask loop =>
    match s.closing loop, s.tasks loop with
    | none, t :: rest => { s with tasks := Function.update s.tasks loop rest }.runTask t
    | _, _ => s
  | .finishClose loop => s.finishClose loop
  | .acquire c =>
    if s.alive c then { s with refs := Function.update s.refs c (s.refs c + 1) } else s
  | .release c => { s with refs := Function.update s.refs c (s.refs c - 1) }

/-! ## The table is a registry -/

/-- **The table as it should be**: a connection is in it, under its own descriptor, until the erasure
that its close queued is carried out. -/
structure Sound (s : TcpServer) : Prop where
  registry : ∃ r : Registry Fd ConnId, r.table = s.connections ∧ r.retired = s.erasures
  owned : ∀ fd c, s.connections fd = some c → ∃ x, s.conns[c]? = some x ∧ x.fd = fd
  listed : ∀ c x, s.conns[c]? = some x → ¬ x.conn.Silent →
    s.connections x.fd = some c ∧ ∀ e ∈ s.erasures, e.2 ≠ c

variable {s}

/-- An open descriptor is one that the kernel does not hand out. -/
theorem isOpen_of_alive {c : ConnId} {x : ServerConn} (hx : s.conns[c]? = some x)
    (halive : s.alive c = true) : s.isOpen x.fd = true := by
  have hlt : c < s.conns.length := (List.getElem?_eq_some_iff.mp hx).1
  refine List.any_eq_true.mpr ⟨c, List.mem_range.mpr hlt, ?_⟩
  simp [hx, halive]

/-- A connection in the table is alive. -/
theorem alive_of_connections {c : ConnId} {x : ServerConn} (hx : s.conns[c]? = some x)
    (hc : s.connections x.fd = some c) : s.alive c = true := by
  simp [alive, hx, hc]

/-- **A descriptor that the kernel may hand out is not in the table.** -/
theorem Sound.connections_eq_none (h : s.Sound) {fd : Fd} (hfd : s.isOpen fd = false) :
    s.connections fd = none := by
  cases hc : s.connections fd with
  | none => rfl
  | some c =>
    obtain ⟨x, hx, rfl⟩ := h.owned fd c hc
    rw [isOpen_of_alive hx (alive_of_connections hx hc)] at hfd
    cases hfd

theorem Sound.erasures (h : s.Sound) : ∀ e ∈ s.erasures, s.connections e.1 = some e.2 := by
  obtain ⟨r, htable, hretired⟩ := h.registry
  rw [← htable, ← hretired]
  exact r.held

/-- What the loops queue and who holds what is nothing to the table. -/
theorem Sound.congr (h : s.Sound) {t : TcpServer} (hconns : t.conns = s.conns)
    (hconnections : t.connections = s.connections) (herasures : t.erasures = s.erasures) :
    t.Sound := by
  refine ⟨?_, ?_, ?_⟩
  · rw [hconnections, herasures]
    exact h.registry
  · rw [hconnections, hconns]
    exact h.owned
  · rw [hconnections, hconns, herasures]
    exact h.listed

/-! ## The base loop keeps it -/

theorem conns_insert (fd : Fd) (c : ConnId) : (s.insert fd c).conns = s.conns := by
  rw [insert]
  split <;> rfl

theorem erasures_insert (fd : Fd) (c : ConnId) : (s.insert fd c).erasures = s.erasures := by
  rw [insert]
  split <;> rfl

theorem connections_insert {fd : Fd} (hfree : s.connections fd = none) (c : ConnId) :
    (s.insert fd c).connections = Function.update s.connections fd (some c) := by
  rw [insert, if_pos hfree]

/-- The connections after an accept. -/
theorem conns_handleNewConnection (fd : Fd) : (s.handleNewConnection fd).conns = s.conns ++
    [⟨fd, s.cnt, .new s.messageCallback s.writeCompleteCallback true s.errorCallback⟩] :=
  conns_insert ..

/-- An accept queues no erasure. -/
theorem erasures_handleNewConnection (fd : Fd) :
    (s.handleNewConnection fd).erasures = s.erasures :=
  erasures_insert ..

/-- The insert of an accept, of a descriptor that is not in the table. -/
theorem connections_handleNewConnection {fd : Fd} (hfree : s.connections fd = none) :
    (s.handleNewConnection fd).connections
      = Function.update s.connections fd (some s.conns.length) :=
  connections_insert (s := { s.getNextLoop.2 with conns := s.conns ++ [_] }) hfree _

/-- Erasures are of connections that were accepted. -/
theorem Sound.lt_of_mem_erasures (h : s.Sound) {e : Fd × ConnId} (he : e ∈ s.erasures) :
    e.2 < s.conns.length := by
  obtain ⟨x, hx, -⟩ := h.owned _ _ (h.erasures e he)
  exact (List.getElem?_eq_some_iff.mp hx).1

theorem Sound.handleNewConnection (h : s.Sound) {fd : Fd} (hfd : s.isOpen fd = false) :
    (s.handleNewConnection fd).Sound := by
  have hfree := h.connections_eq_none hfd
  refine ⟨?_, fun fd' c hc => ?_, fun c x hx hloud => ?_⟩
  · obtain ⟨r, htable, hretired⟩ := h.registry
    refine ⟨r.insert fd s.conns.length (htable ▸ hfree), ?_, ?_⟩
    · rw [Registry.table_insert, htable, connections_handleNewConnection hfree]
    · rw [Registry.retired_insert, hretired, erasures_handleNewConnection]
  · rw [connections_handleNewConnection hfree] at hc
    rw [conns_handleNewConnection]
    rcases eq_or_ne fd' fd with rfl | hne
    · rw [Function.update_self] at hc
      obtain rfl := Option.some.inj hc
      exact ⟨_, List.getElem?_concat_length, rfl⟩
    · rw [Function.update_of_ne hne] at hc
      obtain ⟨x, hx, hfd'⟩ := h.owned fd' c hc
      refine ⟨x, ?_, hfd'⟩
      rwa [List.getElem?_append_left (List.getElem?_eq_some_iff.mp hx).1]
  · rw [conns_handleNewConnection] at hx
    rw [connections_handleNewConnection hfree, erasures_handleNewConnection]
    obtain ⟨-, hx⟩ | ⟨rfl, rfl⟩ := getElem?_concat_conns hx
    · obtain ⟨hlisted, hfresh⟩ := h.listed c x hx hloud
      have hne : x.fd ≠ fd := by
        rintro rfl
        exact Option.some_ne_none c (hlisted.symm.trans hfree)
      rw [Function.update_of_ne hne]
      exact ⟨hlisted, hfresh⟩
    · exact ⟨Function.update_self .., fun e he => (h.lt_of_mem_erasures he).ne⟩

theorem Sound.runErase (h : s.Sound) : s.runErase.Sound := by
  rw [TcpServer.runErase]
  split
  · exact h
  · rename_i e rest herasures
    obtain ⟨r, htable, hretired⟩ := h.registry
    have hown := h.erasures e (herasures ▸ List.mem_cons_self)
    refine ⟨⟨r.erase (hretired.trans herasures), ?_, rfl⟩, fun fd c hc => ?_, fun c x hx hloud => ?_⟩
    · rw [Registry.table_erase, htable]
    · dsimp only at hc
      rcases eq_or_ne fd e.1 with rfl | hne
      · rw [Function.update_self] at hc
        cases hc
      · rw [Function.update_of_ne hne] at hc
        exact h.owned fd c hc
    · obtain ⟨hlisted, hfresh⟩ := h.listed c x hx hloud
      have hne : x.fd ≠ e.1 := by
        intro heq
        rw [heq, hown] at hlisted
        exact hfresh e (herasures ▸ List.mem_cons_self) (Option.some.inj hlisted)
      dsimp only
      rw [Function.update_of_ne hne]
      exact ⟨hlisted, fun e' he' => hfresh e' (herasures ▸ List.mem_cons_of_mem e he')⟩

/-! ## The io loops keep it -/

/-- **A connection changes, and stays silent if it was.** -/
theorem Sound.put (h : s.Sound) {c : ConnId} {x : ServerConn} (hx : s.conns[c]? = some x)
    {conn : TcpConnection} (hsilent : x.conn.Silent → conn.Silent) : (s.put c x conn).Sound := by
  refine ⟨h.registry, fun fd d hd => ?_, fun d y hy hloud => ?_⟩
  · obtain ⟨y, hy, hfd⟩ := h.owned fd d hd
    rw [TcpServer.put, getElem?_set_conns hx]
    split
    · rename_i heq
      subst heq
      obtain rfl : x = y := Option.some.inj (hx.symm.trans hy)
      exact ⟨_, rfl, hfd⟩
    · exact ⟨y, hy, hfd⟩
  · rw [TcpServer.put, getElem?_set_conns hx] at hy
    split at hy
    · rename_i heq
      subst heq
      obtain rfl := Option.some.inj hy
      exact h.listed c x hx (mt hsilent hloud)
    · exact h.listed d y hy hloud

/-- **A connection closes**: it leaves the table later. -/
theorem Sound.handleClose (h : s.Sound) {c : ConnId} {x y : ServerConn} (hx : s.conns[c]? = some x)
    (hfd : x.fd = y.fd) (hsilent : x.conn.Silent) (hlisted : s.connections x.fd = some c)
    (hfresh : ∀ e ∈ s.erasures, e.2 ≠ c) : (s.handleClose c y).Sound := by
  refine ⟨?_, h.owned, fun d z hz hloud => ?_⟩
  · obtain ⟨r, htable, hretired⟩ := h.registry
    refine ⟨r.retire y.fd c (htable ▸ hfd ▸ hlisted) (hretired ▸ hfresh), htable, ?_⟩
    rw [Registry.retired_retire, hretired]
    rfl
  · obtain ⟨hlisted', hfresh'⟩ := h.listed d z hz hloud
    refine ⟨hlisted', fun e he => ?_⟩
    rcases List.mem_append.mp he with he | he
    · exact hfresh' e he
    · rw [List.mem_singleton.mp he]
      rintro rfl
      obtain rfl := Option.some.inj (hx.symm.trans hz)
      exact hloud hsilent

/-- **A member function of a connection keeps the table sound.** -/
theorem Sound.after (h : s.Sound) {c : ConnId} {x : ServerConn} (hx : s.conns[c]? = some x)
    {out : Outcome} (hout : x.conn.Onward out) : (s.after c x out).Sound := by
  have hput : (s.put c x out.conn).Sound := h.put hx fun hs => (hout.hushed hs).2
  have hqueued : ((s.put c x out.conn).queueInLoop x.loop (out.queued.map (.conn c))).Sound :=
    hput.congr rfl rfl rfl
  rw [TcpServer.after]
  split
  · rename_i hclose
    have hloud : ¬ x.conn.Silent := by
      intro hs
      rw [(hout.hushed hs).1] at hclose
      exact absurd hclose List.not_mem_nil
    obtain ⟨hlisted, hfresh⟩ := h.listed c x hx hloud
    have hx' := getElem?_set_conns hx { x with conn := out.conn } c
    rw [if_pos rfl] at hx'
    exact hqueued.handleClose (x := { x with conn := out.conn }) hx' rfl (hout.closing hclose)
      hlisted hfresh
  · exact hqueued

theorem Sound.finishClose (h : s.Sound) (loop : ℕ) : (s.finishClose loop).Sound := by
  rw [TcpServer.finishClose]
  split
  · exact h
  · exact h.congr rfl rfl rfl

theorem Sound.runTask (h : s.Sound) (t : IoTask) : (s.runTask t).Sound := by
  cases t with
  | connectEstablished c =>
    rw [TcpServer.runTask]
    split
    · exact h
    · rename_i x hx
      exact h.put hx id
  | conn c t =>
    rw [TcpServer.runTask]
    split
    · exact h
    · rename_i x hx
      exact h.after hx (x.conn.runTask_onward t)
  | connectDestroyed c =>
    rw [TcpServer.runTask]
    split
    · exact h
    · rename_i x hx
      exact h.put hx (x.conn.callbacks_connectDestroyed.trans ·)

/-- **Every step keeps the table sound.** -/
theorem Sound.step (h : s.Sound) (e : TcpServerEvent) : (s.step e).Sound := by
  cases e with
  | accept fd =>
    rw [TcpServer.step]
    split
    · exact h
    · rename_i hfd
      exact h.handleNewConnection (Bool.not_eq_true _ ▸ hfd)
  | erase => exact h.runErase
  | handler c hd read write =>
    rw [TcpServer.step]
    split
    · exact h
    · rename_i x hx
      split
      · exact h.after hx (x.conn.handle_onward read write hd)
      · exact h
  | call c call =>
    rw [TcpServer.step]
    split
    · exact h
    · rename_i x hx
      split
      · exact h.after hx (x.conn.call_onward call)
      · exact h
  | runTask loop =>
    rw [TcpServer.step]
    split
    · rename_i t rest _ _
      have hrest : Sound { s with tasks := Function.update s.tasks loop rest } := h.congr rfl rfl rfl
      exact hrest.runTask t
    · exact h
  | finishClose loop => exact h.finishClose loop
  | acquire c =>
    rw [TcpServer.step]
    split
    · exact h.congr rfl rfl rfl
    · exact h
  | release c => exact h.congr rfl rfl rfl

theorem sound_new (message writeComplete error : Bool) (loops : ℕ) :
    (new message writeComplete error loops).Sound :=
  ⟨⟨Registry.empty, rfl, rfl⟩, fun _ _ hc => absurd hc (Option.some_ne_none _).symm,
    fun _ _ hx => absurd hx (Option.some_ne_none _).symm⟩

/-- **The table survives descriptor reuse.**  After any run, a descriptor that the kernel may hand out
is not a key of the table, and every queued erasure finds the connection whose close queued it. -/
theorem erase_own (message writeComplete error : Bool) (loops : ℕ) (es : List TcpServerEvent) :
    let s := run step (new message writeComplete error loops) es
    (∀ fd, s.isOpen fd = false → s.connections fd = none)
      ∧ ∀ e ∈ s.erasures, s.connections e.1 = some e.2 := by
  intro s
  have hs : s.Sound :=
    inv_run (fun _ e h _ => h.step e) (sound_new message writeComplete error loops) (meets_true _ es)
  exact ⟨fun _ hfd => hs.connections_eq_none hfd, hs.erasures⟩

end TcpServer
