import Rpx.Core.TcpServer
import Rpx.Core.EventLoop

/-!
# Core/TearDown — the destructors of a server, and the loops of its pool

    ~TcpServer            queue `connectDestroyed` for every connection of `_connections`
    ~EventLoopThreadPool  quit() every io loop

The base thread accepts connections, erases those that have closed, and at last runs the two
destructors; each io loop is an `EventLoop`, which may be anywhere when that happens.  A loop that is
told to quit after its last swap returns with the `connectDestroyed` tasks still queued.

`finished_iff_timely` — every connection is finished off before its loop returns, unless a loop is told
to quit between a swap and the next test of `running`, with a `connectDestroyed` queued since.
-/

open Machinery

/-- A task queued on an io loop of the pool. -/
inductive PoolTask
  | server (t : IoTask)
  /-- Of `~TcpServer`. -/
  | connectDestroyed (c : ConnId)
  /-- Of user code. -/
  | user
  deriving DecidableEq, Repr

/-- The connection that a task is about. -/
def IoTask.conn? : IoTask → ConnId
  | .connectEstablished c => c
  | .conn c _ => c
  | .connectDestroyed c => c

def PoolTask.conn? : PoolTask → Option ConnId
  | .server t => some t.conn?
  | .connectDestroyed c => some c
  | .user => none

/-- A task of `~TcpServer`, which must not be left behind. -/
def PoolTask.Final (t : PoolTask) : Prop := ∃ c, t = .connectDestroyed c

/-- The base thread is the caller `none` of the io loops. -/
structure ServerPool (τ : Type*) where
  messageCallback : Bool
  writeCompleteCallback : Bool
  errorCallback : Bool
  /-- How many loops the pool has, and `_cnt`. -/
  threads : ℕ
  cnt : ℕ
  loops : ℕ → EventLoop (Option τ) PoolTask
  /-- Every connection accepted so far. -/
  conns : List ServerConn
  /-- `_connections`. -/
  connections : List ConnId
  /-- The loop on which the base thread is in the middle of a call. -/
  calling : Option ℕ
  /-- `~TcpServer` has begun. -/
  tearing : Bool
  /-- The loops that `~EventLoopThreadPool` has still to stop. -/
  toQuit : List ℕ

/-- What happens to a server and its pool. -/
inductive PoolEvent (τ : Type*)
  /-- The base thread accepts a connection. -/
  | accept (fd : Fd)
  /-- The base thread carries out an erasure. -/
  | erase (c : ConnId)
  /-- The base thread begins `~TcpServer`. -/
  | destruct
  /-- The base thread queues the `connectDestroyed` of a connection of `_connections`. -/
  | destroyNext (c : ConnId)
  /-- The base thread stops the next loop. -/
  | quitNext
  /-- The base thread raises the wake-up event, at the end of its `queueInLoop` or `quit`. -/
  | baseWake
  /-- An io loop, or a thread other than the base thread, takes a step. -/
  | loop (l : ℕ) (e : LoopEvent (Option τ) PoolTask)
  /-- An io loop calls a handler of a connection. -/
  | handler (c : ConnId) (h : Handler) (read : ReadAnswer) (write : WriteAnswer)
  /-- User code calls a connection. -/
  | call (c : ConnId) (call : ConnCall)

namespace ServerPool

variable {τ : Type*}

/-- A server that has accepted nothing; `flags` are the `_callingPendingTasks` of its loops. -/
def new (message writeComplete error : Bool) (threads : ℕ) (flags : ℕ → Bool) : ServerPool τ where
  messageCallback := message
  writeCompleteCallback := writeComplete
  errorCallback := error
  threads := threads
  cnt := 0
  loops := fun l => .new (flags l)
  conns := []
  connections := []
  calling := none
  tearing := false
  toQuit := []

section

variable (s : ServerPool τ)

/-- An assertion has failed. -/
def ended : Bool := s.conns.any (·.conn.channel.aborted)

/-- A member function of a connection changes it. -/
def update (c : ConnId) (f : TcpConnection → TcpConnection) : ServerPool τ :=
  match s.conns[c]? with
  | none => s
  | some x => { s with conns := s.conns.set c { x with conn := f x.conn } }

def runTask : PoolTask → ServerPool τ
  | .server (.connectEstablished c) => s.update c (·.connectEstablished)
  | .server (.conn c t) => s.update c fun conn => (conn.runTask t).conn
  | .server (.connectDestroyed c) => s.update c (·.connectDestroyed)
  | .connectDestroyed c => s.update c (·.connectDestroyed)
  | .user => s

/-- What is queued on a loop by its own thread and by threads other than the base thread: tasks of its
connections, among them `TcpServer::handleClose`'s for one that has closed, and tasks of user code. -/
def queues (l : ℕ) : PoolTask → Bool
  | .server (.connectEstablished _) => false
  | .server (.conn c _) => s.conns[c]?.any (·.loop == l)
  | .server (.connectDestroyed c) =>
    s.conns[c]?.any fun x => x.loop == l && x.conn.state == .disconnected
  | .connectDestroyed _ => false
  | .user => true

/-- The steps of a loop that are not the base thread's; only the base thread quits a loop. -/
def allows (l : ℕ) : LoopEvent (Option τ) PoolTask → Bool
  | .ownerPush a | .push (some _) a => s.queues l a
  | .push none _ | .wake none | .quit _ | .ownerQuit => false
  | _ => true

/-- The task that a step of a loop calls. -/
def called (l : ℕ) : LoopEvent (Option τ) PoolTask → Option PoolTask
  | .task => (s.loops l).next?
  | _ => none

end

section Step

variable [DecidableEq τ] (s : ServerPool τ)

def setLoop (l : ℕ) (e : LoopEvent (Option τ) PoolTask) : ServerPool τ :=
  { s with loops := Function.update s.loops l ((s.loops l).step e) }

/-- `handleNewConnection`, up to the push of its task. -/
def handleNewConnection (sockfd : Fd) : ServerPool τ :=
  let ioLoop := s.cnt
  let conn := s.conns.length
  let made : ServerConn :=
    ⟨sockfd, ioLoop, .new s.messageCallback s.writeCompleteCallback true s.errorCallback⟩
  { s with
    cnt := if s.cnt + 1 = s.threads then 0 else s.cnt + 1
    conns := s.conns ++ [made]
    connections := s.connections ++ [conn]
    calling := some ioLoop }.setLoop ioLoop (.push none (.server (.connectEstablished conn)))

def perform : PoolEvent τ → ServerPool τ
  | .accept fd => if s.tearing = false ∧ s.calling = none then s.handleNewConnection fd else s
  | .erase c =>
    if s.tearing = false ∧ s.calling = none ∧ s.conns[c]?.any (·.conn.state == .disconnected) then
      { s with connections := s.connections.filter (· ≠ c) }
    else s
  | .destruct =>
    if s.tearing = false ∧ s.calling = none then
      { s with tearing := true, toQuit := List.range s.threads }
    else s
  | .destroyNext c =>
    match s.conns[c]? with
    | none => s
    | some x =>
      if s.tearing = true ∧ s.calling = none ∧ c ∈ s.connections then
        { s with
          connections := s.connections.filter (· ≠ c)
          calling := some x.loop }.setLoop x.loop (.push none (.connectDestroyed c))
      else s
  | .quitNext =>
    match s.toQuit with
    | [] => s
    | l :: rest =>
      if s.tearing = true ∧ s.calling = none ∧ s.connections = [] then
        { s with toQuit := rest, calling := some l }.setLoop l (.quit none)
      else s
  | .baseWake =>
    match s.calling with
    | none => s
    | some l => { s with calling := none }.setLoop l (.wake none)
  | .loop l e =>
    if s.allows l e then (s.called l e).elim (s.setLoop l e) (s.setLoop l e).runTask else s
  | .handler c h read write =>
    match s.conns[c]? with
    | none => s
    | some x =>
      if (s.loops x.loop).phase = .handlers ∧ (s.loops x.loop).ownerPushed = false then
        s.update c fun conn => (conn.handle read write h).conn
      else s
  | .call c call => s.update c fun conn => (conn.call call).conn

/-- One event; a process that has ended takes none. -/
def step (e : PoolEvent τ) : ServerPool τ := if s.ended then s else s.perform e

end Step

/-! ## One connection, and what is queued for it -/

end ServerPool

/-- The task that establishes the connection is queued, before any that tears it down. -/
def Ahead (c : ConnId) (q : List PoolTask) : Prop :=
  ∃ pre post, q = pre ++ .server (.connectEstablished c) :: post ∧ .connectDestroyed c ∉ pre

/-- **What holds of a connection**, with the queue of its loop, and listed in `_connections` or not. -/
structure Followed (c : ConnId) (conn : TcpConnection) (q : List PoolTask) (listed : Prop) : Prop where
  tracked : conn.Tracked
  ahead : conn.state = .connecting → Ahead c q
  closed : .server (.connectDestroyed c) ∈ q → conn.state = .disconnected
  settled : ¬ listed → .connectDestroyed c ∉ q → conn.state = .disconnected

namespace Followed

variable {c : ConnId} {conn conn' : TcpConnection} {q rest : List PoolTask} {a : PoolTask}
  {listed listed' : Prop}

theorem relist (h : Followed c conn q listed) (hl : listed → listed') : Followed c conn q listed' :=
  ⟨h.tracked, h.ahead, h.closed, fun hn => h.settled (mt hl hn)⟩

/-- A task is queued behind the others. -/
theorem append (h : Followed c conn q listed)
    (ha : a = .server (.connectDestroyed c) → conn.state = .disconnected) :
    Followed c conn (q ++ [a]) listed := by
  refine ⟨h.tracked, fun hs => ?_, fun hm => ?_, fun hn hm => ?_⟩
  · obtain ⟨pre, post, hq, hpre⟩ := h.ahead hs
    exact ⟨pre, post ++ [a], by rw [hq, List.append_assoc, List.cons_append], hpre⟩
  · rcases List.mem_append.mp hm with hm | hm
    · exact h.closed hm
    · exact ha (List.mem_singleton.mp hm).symm
  · exact h.settled hn fun hq => hm (List.mem_append_left _ hq)

/-- A connection that has just been accepted, its first task queued. -/
theorem fresh {message writeComplete close error : Bool} (hq : ∀ t ∈ q, t.conn? ≠ some c)
    (hl : listed) :
    Followed c (.new message writeComplete close error) (q ++ [.server (.connectEstablished c)])
      listed := by
  refine ⟨⟨rfl, rfl, fun hs => ?_, fun hs => ?_⟩, fun _ => ⟨q, [], rfl, fun hm => hq _ hm rfl⟩,
    fun hm => ?_, fun hn => absurd hl hn⟩
  · rcases hs with hs | hs <;> cases hs
  · cases hs
  · rcases List.mem_append.mp hm with hm | hm
    · exact absurd rfl (hq _ hm)
    · cases List.mem_singleton.mp hm

/-- The task that tears the connection down is queued. -/
theorem destroy (h : Followed c conn q listed) :
    Followed c conn (q ++ [.connectDestroyed c]) listed' := by
  have happ := h.append (a := .connectDestroyed c) fun heq => by cases heq
  refine ⟨h.tracked, happ.ahead, happ.closed, fun _ hm => ?_⟩
  exact absurd (List.mem_append_right _ (List.mem_singleton_self _)) hm

/-- The connection moves forward. -/
theorem move (h : Followed c conn q listed) (htracked : conn'.Tracked)
    (hforward : conn.state.value ≤ conn'.state.value) : Followed c conn' q listed := by
  have hkeep : conn.state = .disconnected → conn'.state = .disconnected := fun hs =>
    StateE.eq_disconnected (hs ▸ hforward)
  refine ⟨htracked, fun hs => h.ahead ?_, fun hm => hkeep (h.closed hm),
    fun hn hm => hkeep (h.settled hn hm)⟩
  by_contra hne
  exact StateE.ne_connecting_of_le hne hforward hs

/-- A task that neither establishes the connection nor tears it down is taken from the queue. -/
theorem pop_server (h : Followed c conn (a :: rest) listed)
    (ha : a ≠ .server (.connectEstablished c) ∧ a ≠ .connectDestroyed c) :
    Followed c conn rest listed := by
  refine ⟨h.tracked, fun hs => ?_, fun hm => h.closed (List.mem_cons_of_mem a hm), fun hn hm => ?_⟩
  · obtain ⟨pre, post, hq, hpre⟩ := h.ahead hs
    cases pre with
    | nil =>
      rw [List.nil_append, List.cons.injEq] at hq
      exact absurd hq.1 ha.1
    | cons b pre =>
      rw [List.cons_append, List.cons.injEq] at hq
      exact ⟨pre, post, hq.2, fun hm => hpre (List.mem_cons_of_mem b hm)⟩
  · refine h.settled hn fun hq => ?_
    rcases List.mem_cons.mp hq with heq | hq
    · exact ha.2 heq.symm
    · exact hm hq

/-- A task of another connection is taken. -/
theorem pop (h : Followed c conn (a :: rest) listed) (ha : a.conn? ≠ some c) :
    Followed c conn rest listed := by
  refine h.pop_server ⟨?_, ?_⟩
  · rintro rfl
    exact ha rfl
  · rintro rfl
    exact ha rfl

/-- **`connectEstablished()` runs.** -/
theorem established (h : Followed c conn (.server (.connectEstablished c) :: rest) listed)
    (hrun : conn.connectEstablished.channel.aborted = false) :
    Followed c conn.connectEstablished rest listed := by
  have hconnecting : conn.state = .connecting := by
    by_contra hne
    rw [h.tracked.aborted_connectEstablished hne] at hrun
    cases hrun
  have hopen : conn.state ≠ .disconnected := by simp [hconnecting]
  refine ⟨h.tracked.connectEstablished hconnecting, fun hs => ?_, fun hm => ?_, fun hn hm => ?_⟩
  · cases hs
  · exact absurd (h.closed (List.mem_cons_of_mem _ hm)) hopen
  · exact absurd (h.settled hn (by simp [hm])) hopen

/-- **`connectDestroyed()` runs, queued by `~TcpServer`.** -/
theorem destroyed (h : Followed c conn (.connectDestroyed c :: rest) listed)
    (hrun : conn.connectDestroyed.channel.aborted = false) :
    Followed c conn.connectDestroyed rest listed := by
  have hstate : conn.state = .established ∨ conn.state = .disconnected := by
    cases hs : conn.state with
    | connecting =>
      -- the task that establishes it would have run before
      obtain ⟨pre, post, hq, hpre⟩ := h.ahead hs
      cases pre with
      | nil => simp at hq
      | cons b pre =>
        rw [List.cons_append, List.cons.injEq] at hq
        exact absurd (hq.1 ▸ List.mem_cons_self) hpre
    | established => exact .inl rfl
    | disconnecting =>
      rw [h.tracked.aborted_connectDestroyed hs] at hrun
      cases hrun
    | disconnected => exact .inr rfl
  obtain ⟨htracked, hclosed, -, -⟩ := h.tracked.connectDestroyed hstate
  exact ⟨htracked, fun hs => absurd (hs.symm.trans hclosed) (by simp), fun _ => hclosed,
    fun _ _ => hclosed⟩

/-- `connectDestroyed()` runs, queued when the connection closed. -/
theorem closedDown (h : Followed c conn (.server (.connectDestroyed c) :: rest) listed) :
    Followed c conn.connectDestroyed rest listed := by
  obtain ⟨htracked, hclosed, -, -⟩ :=
    h.tracked.connectDestroyed (.inr (h.closed List.mem_cons_self))
  exact ⟨htracked, fun hs => absurd (hs.symm.trans hclosed) (by simp), fun _ => hclosed,
    fun _ _ => hclosed⟩

end Followed

namespace ServerPool

variable {τ : Type*}

/-! ## The whole pool -/

/-- **Every connection is finished off before its loop returns**: no `connectDestroyed` is left in
the queue of a loop that has returned, and its connections are `DISCONNECTED`. -/
def Finished (s : ServerPool τ) : Prop :=
  ∀ l, (s.loops l).phase = .done →
    (∀ c, .connectDestroyed c ∉ (s.loops l).queue)
      ∧ ∀ (c : ConnId) (x : ServerConn), s.conns[c]? = some x → x.loop = l →
        x.conn.state = .disconnected

/-- **A loop is told to quit in time**: it has still to swap, or no `connectDestroyed` has been queued
since it did. -/
def Timely (s : ServerPool τ) : PoolEvent τ → Prop
  | .quitNext => s.ended = false → s.tearing = true → s.calling = none → s.connections = [] →
      ∀ l ∈ s.toQuit.head?, (s.loops l).WillSwap ∨ ∀ t ∈ (s.loops l).pendingTask, ¬ t.Final
  | _ => True

/-- Every loop that was told to quit has returned. -/
def Returned (s : ServerPool τ) : Prop :=
  ∀ l, (s.loops l).running = false → (s.loops l).phase = .done

/-- **What holds of a loop**, and of the connections it was given. -/
structure Tended (s : ServerPool τ) (l : ℕ) (y : EventLoop (Option τ) PoolTask) : Prop where
  drains : y.Drains PoolTask.Final
  order : y.running = false → s.tearing = true ∧ s.connections = []
  base : s.calling ≠ some l → y.callers none = .idle
  placed : ∀ t ∈ y.queue, ∀ c, t.conn? = some c → ∃ x, s.conns[c]? = some x ∧ x.loop = l
  followed : ∀ (c : ConnId) (x : ServerConn), s.conns[c]? = some x → x.loop = l →
    Followed c x.conn y.queue (c ∈ s.connections)

/-- What holds until an assertion fails, if every loop is told to quit in time. -/
def Kept (s : ServerPool τ) : Prop := ∀ l, s.Tended l (s.loops l)

variable {s : ServerPool τ}

theorem Kept.finished (h : s.Kept) : s.Finished := by
  intro l hdone
  have hleft := (h l).drains.not_of_done hdone
  have hnone : ∀ c, .connectDestroyed c ∉ (s.loops l).queue := fun c hc => hleft _ hc ⟨c, rfl⟩
  refine ⟨hnone, fun c x hx hl => ?_⟩
  obtain ⟨-, hlisted⟩ := (h l).order ((h l).drains.returned hdone)
  refine ((h l).followed c x hx hl).settled ?_ (hnone c)
  rw [hlisted]
  exact List.not_mem_nil

/-- A queued task is about a connection that was accepted. -/
theorem Tended.lt_of_mem_queue {l : ℕ} {y : EventLoop (Option τ) PoolTask} (h : s.Tended l y)
    {t : PoolTask} (ht : t ∈ y.queue) {c : ConnId} (hc : t.conn? = some c) : c < s.conns.length := by
  obtain ⟨x, hx, -⟩ := h.placed t ht c hc
  exact (List.getElem?_eq_some_iff.mp hx).1

/-! ## The connections change -/

/-- A change of a connection leaves it on its loop. -/
theorem loop_set_conns {c : ConnId} {x : ServerConn} (hx : s.conns[c]? = some x)
    (conn : TcpConnection) {d : ConnId} {l : ℕ} (hd : ∃ y, s.conns[d]? = some y ∧ y.loop = l) :
    ∃ y, (s.conns.set c { x with conn := conn })[d]? = some y ∧ y.loop = l := by
  obtain ⟨y, hy, hl⟩ := hd
  rw [getElem?_set_conns hx]
  split
  · rename_i heq
    subst heq
    obtain rfl := Option.some.inj (hx.symm.trans hy)
    exact ⟨_, rfl, hl⟩
  · exact ⟨y, hy, hl⟩

/-- **A connection moves forward.** -/
theorem Kept.update (h : s.Kept) (c : ConnId) {f : TcpConnection → TcpConnection}
    (hf : ∀ conn : TcpConnection, conn.Tracked →
      (f conn).Tracked ∧ conn.state.value ≤ (f conn).state.value) : (s.update c f).Kept := by
  rw [ServerPool.update]
  split
  · exact h
  · rename_i x hx
    intro l
    obtain ⟨hdrains, horder, hbase, hplaced, hfollowed⟩ := h l
    refine ⟨hdrains, horder, hbase, fun t ht d hd => ?_, fun d y hy hl => ?_⟩
    · exact loop_set_conns hx _ (hplaced t ht d hd)
    · rw [getElem?_set_conns hx] at hy
      split at hy
      · rename_i heq
        subst heq
        obtain rfl := Option.some.inj hy
        have hc := hfollowed c x hx hl
        obtain ⟨htracked, hforward⟩ := hf x.conn hc.tracked
        exact hc.move htracked hforward
      · exact hfollowed d y hy hl

/-! ## What a loop is allowed -/

/-- The steps that a loop is allowed quit nothing. -/
theorem ne_quit_of_allows {l : ℕ} {e : LoopEvent (Option τ) PoolTask} (he : s.allows l e = true) :
    e ≠ .ownerQuit ∧ ∀ t, e ≠ .quit t := by
  constructor
  · rintro rfl
    cases he
  · rintro t rfl
    cases he

/-- What a loop is allowed to push is its own. -/
theorem queues_of_allows {l : ℕ} {e : LoopEvent (Option τ) PoolTask} (he : s.allows l e = true)
    {a : PoolTask} (ha : e = .ownerPush a ∨ ∃ t, e = .push t a) : s.queues l a = true := by
  rcases ha with rfl | ⟨t, rfl⟩
  · exact he
  · cases t with
    | none => cases he
    | some t => exact he

/-- A task that a loop queues for itself is no `connectDestroyed` of the destructor. -/
theorem not_final_of_queues {l : ℕ} {a : PoolTask} (ha : s.queues l a = true) : ¬ a.Final := by
  rintro ⟨c, rfl⟩
  cases ha

/-- …and is about one of its own connections, which has closed if the task tears it down. -/
theorem placed_of_queues {l : ℕ} {a : PoolTask} (ha : s.queues l a = true) {c : ConnId}
    (hc : a.conn? = some c) : ∃ x, s.conns[c]? = some x ∧ x.loop = l
      ∧ (a = .server (.connectDestroyed c) → x.conn.state = .disconnected) := by
  cases a with
  | server t =>
    cases t with
    | connectEstablished d => cases ha
    | conn d t =>
      obtain rfl := Option.some.inj hc
      obtain ⟨x, hx, hl⟩ := (Option.any_eq_true _ _).mp ha
      exact ⟨x, hx, beq_iff_eq.mp hl, fun heq => by cases heq⟩
    | connectDestroyed d =>
      obtain rfl := Option.some.inj hc
      obtain ⟨x, hx, hl⟩ := (Option.any_eq_true _ _).mp ha
      obtain ⟨hl, hstate⟩ := Bool.and_eq_true_iff.mp hl
      exact ⟨x, hx, beq_iff_eq.mp hl, fun _ => beq_iff_eq.mp hstate⟩
  | connectDestroyed d => cases ha
  | user => cases hc

/-! ## The loops take steps -/

variable [DecidableEq τ]

/-- **One loop takes a step**, and the others are tended still. -/
theorem kept_setLoop {l : ℕ} {e : LoopEvent (Option τ) PoolTask}
    (hself : s.Tended l ((s.loops l).step e)) (hother : ∀ l', l' ≠ l → s.Tended l' (s.loops l')) :
    (s.setLoop l e).Kept := by
  intro l'
  rcases eq_or_ne l' l with rfl | hne
  · obtain ⟨hdrains, horder, hbase, hplaced, hfollowed⟩ := hself
    rw [ServerPool.setLoop]
    dsimp only
    rw [Function.update_self]
    exact ⟨hdrains, horder, hbase, hplaced, hfollowed⟩
  · obtain ⟨hdrains, horder, hbase, hplaced, hfollowed⟩ := hother l' hne
    rw [ServerPool.setLoop]
    dsimp only
    rw [Function.update_of_ne hne]
    exact ⟨hdrains, horder, hbase, hplaced, hfollowed⟩

/-- The steps that a loop is allowed move the base thread nowhere. -/
theorem callers_none_of_allows {l : ℕ} {e : LoopEvent (Option τ) PoolTask}
    (he : s.allows l e = true) (y : EventLoop (Option τ) PoolTask) :
    (y.step e).callers none = y.callers none := by
  refine EventLoop.callers_step e ?_ ((ne_quit_of_allows he).2 none) ?_
  · rintro a rfl
    cases he
  · rintro rfl
    cases he

/-- A step that a loop is allowed leaves nothing behind. -/
theorem Tended.drains_step {l : ℕ} {y : EventLoop (Option τ) PoolTask} (h : s.Tended l y)
    {e : LoopEvent (Option τ) PoolTask} (he : s.allows l e = true) :
    (y.step e).Drains PoolTask.Final :=
  h.drains.step e (ne_quit_of_allows he) fun _ _ ha => not_final_of_queues (queues_of_allows he ha)

omit [DecidableEq τ] in
/-- A loop queues a task for itself. -/
theorem Tended.placed_append {l : ℕ} {y : EventLoop (Option τ) PoolTask} (h : s.Tended l y)
    {a : PoolTask} (ha : s.queues l a = true) : ∀ t ∈ y.queue ++ [a], ∀ c, t.conn? = some c →
      ∃ x, s.conns[c]? = some x ∧ x.loop = l := by
  intro t ht c hc
  rcases List.mem_append.mp ht with ht | ht
  · exact h.placed t ht c hc
  · obtain rfl := List.mem_singleton.mp ht
    obtain ⟨x, hx, hl, -⟩ := placed_of_queues ha hc
    exact ⟨x, hx, hl⟩

omit [DecidableEq τ] in
theorem Tended.followed_append {l : ℕ} {y : EventLoop (Option τ) PoolTask} (h : s.Tended l y)
    {a : PoolTask} (ha : s.queues l a = true) : ∀ (c : ConnId) (x : ServerConn),
      s.conns[c]? = some x → x.loop = l →
      Followed c x.conn (y.queue ++ [a]) (c ∈ s.connections) := by
  intro c x hx hl
  refine (h.followed c x hx hl).append fun heq => ?_
  obtain ⟨x', hx', -, hstate⟩ := placed_of_queues ha (c := c) (heq ▸ rfl)
  obtain rfl := Option.some.inj (hx.symm.trans hx')
  exact hstate heq

/-- **A loop takes a step of its own**, and calls no task. -/
theorem Kept.loop (h : s.Kept) {l : ℕ} {e : LoopEvent (Option τ) PoolTask}
    (he : s.allows l e = true) (hcalled : s.called l e = none) : (s.setLoop l e).Kept := by
  have hl := h l
  have hrunning := EventLoop.running_step (s := s.loops l) e (ne_quit_of_allows he)
  have hcallers := callers_none_of_allows he (s.loops l)
  refine kept_setLoop ⟨hl.drains_step he, fun hr => hl.order (hrunning ▸ hr),
    fun hc => hcallers.trans (hl.base hc), ?_, ?_⟩ fun l' _ => h l'
  · rcases EventLoop.queue_step hl.drains.resting e with hq | ⟨a, ha, hq⟩ | ⟨a, rfl, ha, -⟩
    · rw [hq]
      exact hl.placed
    · rw [hq]
      exact hl.placed_append (queues_of_allows he ha)
    · rw [called, ha] at hcalled
      cases hcalled
  · rcases EventLoop.queue_step hl.drains.resting e with hq | ⟨a, ha, hq⟩ | ⟨a, rfl, ha, -⟩
    · rw [hq]
      exact hl.followed
    · rw [hq]
      exact hl.followed_append (queues_of_allows he ha)
    · rw [called, ha] at hcalled
      cases hcalled

omit [DecidableEq τ] in
theorem aborted_of_ended (hrun : s.ended = false) {c : ConnId} {x : ServerConn}
    (hx : s.conns[c]? = some x) : x.conn.channel.aborted = false := by
  have hmem := List.any_eq_false.mp hrun x (List.mem_of_getElem? hx)
  exact Bool.not_eq_true _ ▸ hmem

/-- A step of a loop and a change of a connection. -/
theorem update_setLoop {c : ConnId} {x : ServerConn} (hx : s.conns[c]? = some x) (l : ℕ)
    (e : LoopEvent (Option τ) PoolTask) (f : TcpConnection → TcpConnection) :
    (s.setLoop l e).update c f =
      setLoop { s with conns := s.conns.set c { x with conn := f x.conn } } l e := by
  have hx' : (s.setLoop l e).conns[c]? = some x := hx
  rw [ServerPool.update, hx']
  rfl

/-- **A loop calls a task that changes a connection.** -/
theorem Kept.task (h : s.Kept) {l : ℕ} {a : PoolTask} (ha : (s.loops l).next? = some a) {c : ConnId}
    (hc : a.conn? = some c) {f : TcpConnection → TcpConnection}
    (hf : ∀ (conn : TcpConnection) q listed, Followed c conn (a :: q) listed →
      (f conn).channel.aborted = false → Followed c (f conn) q listed)
    (hrun : ((s.setLoop l .task).update c f).ended = false) :
    ((s.setLoop l .task).update c f).Kept := by
  have hl := h l
  have hallows : s.allows l (.task : LoopEvent (Option τ) PoolTask) = true := rfl
  have hq := (EventLoop.queue_of_next ha).2
  obtain ⟨x, hx, hxl⟩ := hl.placed a (hq ▸ List.mem_cons_self) c hc
  rw [update_setLoop hx] at hrun ⊢
  have habort : (f x.conn).channel.aborted = false := by
    refine aborted_of_ended hrun (c := c) (x := { x with conn := f x.conn }) ?_
    rw [setLoop, getElem?_set_conns hx, if_pos rfl]
  refine kept_setLoop ⟨hl.drains_step hallows, fun hr => ?_, fun hcalling => ?_, fun t ht d hd => ?_,
    fun d y hy hyl => ?_⟩ fun l' hne => ⟨(h l').drains, (h l').order, (h l').base, fun t ht d hd => ?_,
    fun d y hy hyl => ?_⟩
  · rw [EventLoop.running_step _ (ne_quit_of_allows hallows)] at hr
    exact hl.order hr
  · rw [callers_none_of_allows hallows]
    exact hl.base hcalling
  · exact loop_set_conns hx _ (hl.placed t (hq ▸ List.mem_cons_of_mem a ht) d hd)
  · rw [getElem?_set_conns hx] at hy
    split at hy
    · rename_i hcd
      subst hcd
      obtain rfl := Option.some.inj hy
      exact hf x.conn _ _ (hq ▸ hl.followed c x hx hxl) habort
    · rename_i hcd
      refine (hq ▸ hl.followed d y hy hyl : Followed d y.conn (a :: _) _).pop fun heq => hcd ?_
      exact Option.some.inj (hc.symm.trans heq)
  · exact loop_set_conns hx _ ((h l').placed t ht d hd)
  · rw [getElem?_set_conns hx] at hy
    split at hy
    · obtain rfl := Option.some.inj hy
      exact absurd (hyl.symm.trans hxl) hne
    · exact (h l').followed d y hy hyl

/-- A loop calls a task of user code. -/
theorem Kept.userTask (h : s.Kept) {l : ℕ} (ha : (s.loops l).next? = some .user) :
    (s.setLoop l .task).Kept := by
  have hl := h l
  have hallows : s.allows l (.task : LoopEvent (Option τ) PoolTask) = true := rfl
  have hq := (EventLoop.queue_of_next ha).2
  refine kept_setLoop ⟨hl.drains_step hallows, fun hr => ?_, fun hcalling => ?_, fun t ht d hd => ?_,
    fun d y hy hyl => ?_⟩ fun l' _ => h l'
  · rw [EventLoop.running_step _ (ne_quit_of_allows hallows)] at hr
    exact hl.order hr
  · rw [callers_none_of_allows hallows]
    exact hl.base hcalling
  · exact hl.placed t (hq ▸ List.mem_cons_of_mem _ ht) d hd
  · refine (hq ▸ hl.followed d y hy hyl : Followed d y.conn (.user :: _) _).pop ?_
    simp [PoolTask.conn?]

/-- **A loop calls its next task.** -/
theorem Kept.runTask (h : s.Kept) {l : ℕ} {a : PoolTask} (ha : (s.loops l).next? = some a)
    (hrun : ((s.setLoop l .task).runTask a).ended = false) :
    ((s.setLoop l .task).runTask a).Kept := by
  cases a with
  | server t =>
    cases t with
    | connectEstablished c => exact h.task ha rfl (fun _ _ _ hc habort => hc.established habort) hrun
    | conn c t =>
      refine h.task ha rfl (fun conn _ _ hc _ => ?_) hrun
      have hpop := hc.pop_server ⟨by simp, by simp⟩
      exact hpop.move (hc.tracked.runTask t) (conn.runTask_onward t).forward
    | connectDestroyed c => exact h.task ha rfl (fun _ _ _ hc _ => hc.closedDown) hrun
  | connectDestroyed c => exact h.task ha rfl (fun _ _ _ hc habort => hc.destroyed habort) hrun
  | user => exact h.userTask ha

/-- A loop that calls a task has not returned, and another loop is as it was. -/
theorem phase_setLoop_task {l l' : ℕ} {a : PoolTask} (ha : (s.loops l).next? = some a)
    (hdone : ((s.setLoop l .task).loops l').phase = .done) :
    l' ≠ l ∧ (s.setLoop l .task).loops l' = s.loops l' := by
  have hphase := (EventLoop.queue_of_next ha).1
  have hne : l' ≠ l := by
    rintro rfl
    rw [setLoop] at hdone
    dsimp only at hdone
    rw [Function.update_self, EventLoop.step] at hdone
    split at hdone <;> exact absurd (hphase.symm.trans hdone) (by simp)
  exact ⟨hne, Function.update_of_ne hne ..⟩

/-- **A task changes only a connection of its own loop**, which has not returned. -/
theorem Kept.finished_task (h : s.Kept) {l : ℕ} {a : PoolTask} (ha : (s.loops l).next? = some a)
    {c : ConnId} (hc : a.conn? = some c) (f : TcpConnection → TcpConnection) :
    ((s.setLoop l .task).update c f).Finished := by
  have hq := (EventLoop.queue_of_next ha).2
  obtain ⟨x, hx, hxl⟩ := (h l).placed a (hq ▸ List.mem_cons_self) c hc
  rw [update_setLoop hx]
  intro l' hdone
  obtain ⟨hne, hloop⟩ := phase_setLoop_task (s := s) ha hdone
  obtain ⟨hnone, hclosed⟩ := h.finished l' (hloop ▸ hdone)
  refine ⟨fun d => ?_, fun d y hy hyl => ?_⟩
  · show PoolTask.connectDestroyed d ∉ ((s.setLoop l .task).loops l').queue
    rw [hloop]
    exact hnone d
  · rw [setLoop, getElem?_set_conns hx] at hy
    split at hy
    · obtain rfl := Option.some.inj hy
      exact absurd (hyl.symm.trans hxl) hne
    · exact hclosed d y hy hyl

theorem Kept.finished_runTask (h : s.Kept) {l : ℕ} {a : PoolTask} (ha : (s.loops l).next? = some a) :
    ((s.setLoop l .task).runTask a).Finished := by
  cases a with
  | server t =>
    cases t with
    | connectEstablished c => exact h.finished_task ha rfl _
    | conn c t => exact h.finished_task ha rfl _
    | connectDestroyed c => exact h.finished_task ha rfl _
  | connectDestroyed c => exact h.finished_task ha rfl _
  | user => exact (h.userTask ha).finished

/-! ## The base thread takes steps -/

omit [DecidableEq τ] in
/-- While the base thread is not tearing down, every loop runs. -/
theorem Kept.running (h : s.Kept) (htearing : s.tearing = false) (l : ℕ) :
    (s.loops l).running = true := by
  by_contra hr
  have horder := (h l).order (Bool.not_eq_true _ ▸ hr)
  rw [htearing] at horder
  cases horder.1

theorem Kept.handleNewConnection (h : s.Kept) (htearing : s.tearing = false)
    (hcalling : s.calling = none) (fd : Fd) : (s.handleNewConnection fd).Kept := by
  have hidle : (s.loops s.cnt).callers none = .idle := (h s.cnt).base (by simp [hcalling])
  have hq := EventLoop.queue_push hidle (.server (.connectEstablished s.conns.length))
  have hrun := h.running htearing
  have hold : ∀ (c : ConnId) (l : ℕ) (made : ServerConn), (∃ x, s.conns[c]? = some x ∧ x.loop = l) →
      ∃ x, (s.conns ++ [made])[c]? = some x ∧ x.loop = l := by
    rintro c l made ⟨x, hx, hl⟩
    refine ⟨x, ?_, hl⟩
    rwa [List.getElem?_append_left (List.getElem?_eq_some_iff.mp hx).1]
  rw [ServerPool.handleNewConnection]
  refine kept_setLoop ⟨?_, fun hr => ?_, fun hne => absurd rfl hne, fun t ht c hc => ?_,
    fun c x hx hl => ?_⟩ fun l' hne => ⟨(h l').drains, fun hr => ?_, fun _ => ?_, fun t ht c hc => ?_,
    fun c x hx hl => ?_⟩
  · exact (h s.cnt).drains.step _ ⟨by simp, by simp⟩ fun hr => absurd (hr.symm.trans (hrun _)) (by simp)
  · rw [EventLoop.running_step _ ⟨by simp, by simp⟩] at hr
    exact absurd (hr.symm.trans (hrun _)) (by simp)
  · rw [hq] at ht
    rcases List.mem_append.mp ht with ht | ht
    · exact hold c _ _ ((h s.cnt).placed t ht c hc)
    · obtain rfl := List.mem_singleton.mp ht
      obtain rfl := Option.some.inj hc
      exact ⟨_, List.getElem?_concat_length, rfl⟩
  · rw [hq]
    obtain ⟨hlt, hx⟩ | ⟨rfl, rfl⟩ := getElem?_concat_conns hx
    · have hc := (h s.cnt).followed c x hx hl
      refine (hc.append fun heq => ?_).relist (List.mem_append_left _)
      cases heq
    · refine Followed.fresh (fun t ht hc => ?_) (List.mem_append_right _ (List.mem_singleton_self _))
      exact absurd ((h s.cnt).lt_of_mem_queue ht hc) (Nat.lt_irrefl _)
  · exact absurd (hr.symm.trans (hrun l')) (by simp)
  · exact (h l').base (by simp [hcalling])
  · exact hold c l' _ ((h l').placed t ht c hc)
  · obtain ⟨hlt, hx⟩ | ⟨rfl, rfl⟩ := getElem?_concat_conns hx
    · exact ((h l').followed c x hx hl).relist (List.mem_append_left _)
    · exact absurd hl.symm hne

theorem Kept.accept (h : s.Kept) (fd : Fd) : (s.perform (.accept fd)).Kept := by
  rw [perform]
  split
  · rename_i hs
    exact h.handleNewConnection hs.1 hs.2 fd
  · exact h

theorem Kept.erase (h : s.Kept) (c : ConnId) : (s.perform (.erase c)).Kept := by
  rw [perform]
  split
  · rename_i hs
    obtain ⟨htearing, -, hclosed⟩ := hs
    obtain ⟨x, hx, hstate⟩ := (Option.any_eq_true _ _).mp hclosed
    intro l
    refine ⟨(h l).drains, fun hr => ?_, (h l).base, (h l).placed, fun d y hy hyl => ?_⟩
    · rw [h.running htearing l] at hr
      cases hr
    · have hd := (h l).followed d y hy hyl
      refine ⟨hd.tracked, hd.ahead, hd.closed, fun hn hm => ?_⟩
      by_cases hcd : d = c
      · subst hcd
        obtain rfl := Option.some.inj (hx.symm.trans hy)
        exact beq_iff_eq.mp hstate
      · refine hd.settled (fun hmem => hn ?_) hm
        exact List.mem_filter.mpr ⟨hmem, by simpa using hcd⟩
  · exact h

theorem Kept.destruct (h : s.Kept) : (s.perform .destruct).Kept := by
  rw [perform]
  split
  · rename_i hs
    intro l
    refine ⟨(h l).drains, fun hr => ?_, (h l).base, (h l).placed, (h l).followed⟩
    rw [h.running hs.1 l] at hr
    cases hr
  · exact h

theorem Kept.destroyNext (h : s.Kept) (c : ConnId) : (s.perform (.destroyNext c)).Kept := by
  rw [perform]
  split
  · exact h
  · rename_i x hx
    split
    · rename_i hs
      obtain ⟨htearing, hcalling, hlisted⟩ := hs
      have hidle : (s.loops x.loop).callers none = .idle := (h x.loop).base (by simp [hcalling])
      have hq := EventLoop.queue_push hidle (.connectDestroyed c)
      -- a loop is told to quit only when no connection is listed any more
      have hrun : ∀ l, (s.loops l).running ≠ false := fun l hr => by
        rw [((h l).order hr).2] at hlisted
        exact absurd hlisted List.not_mem_nil
      have hkeep : ∀ d, d ≠ c → d ∈ s.connections → d ∈ s.connections.filter (· ≠ c) :=
        fun d hd hmem => List.mem_filter.mpr ⟨hmem, by simpa using hd⟩
      refine kept_setLoop ⟨?_, fun hr => ?_, fun hne => absurd rfl hne, fun t ht d hd => ?_,
        fun d y hy hyl => ?_⟩ fun l' hne => ⟨(h l').drains, fun hr => absurd hr (hrun l'), fun _ => ?_,
        (h l').placed, fun d y hy hyl => ?_⟩
      · exact (h x.loop).drains.step _ ⟨by simp, by simp⟩ fun hr => absurd hr (hrun _)
      · rw [EventLoop.running_step _ ⟨by simp, by simp⟩] at hr
        exact absurd hr (hrun _)
      · rw [hq] at ht
        rcases List.mem_append.mp ht with ht | ht
        · exact (h x.loop).placed t ht d hd
        · obtain rfl := List.mem_singleton.mp ht
          obtain rfl := Option.some.inj hd
          exact ⟨x, hx, rfl⟩
      · rw [hq]
        have hd := (h x.loop).followed d y hy hyl
        by_cases hcd : d = c
        · subst hcd
          exact hd.destroy
        · exact (hd.append fun heq => by cases heq).relist (hkeep d hcd)
      · exact (h l').base (by simp [hcalling])
      · refine ((h l').followed d y hy hyl).relist (hkeep d fun hcd => hne ?_)
        subst hcd
        obtain rfl := Option.some.inj (hx.symm.trans hy)
        exact hyl.symm
    · exact h

theorem Kept.quitNext (h : s.Kept) (hrun : s.ended = false) (hs : s.Timely .quitNext) :
    (s.perform .quitNext).Kept := by
  rw [perform]
  split
  · exact h
  · rename_i l rest hquit
    split
    · rename_i hq
      obtain ⟨htearing, hcalling, hlisted⟩ := hq
      have hin := hs hrun htearing hcalling hlisted l (by rw [hquit]; rfl)
      refine kept_setLoop ⟨(h l).drains.quit none hin, fun _ => ⟨htearing, hlisted⟩,
        fun hne => absurd rfl hne, ?_, ?_⟩ fun l' _ => ⟨(h l').drains, (h l').order, fun _ => ?_,
        (h l').placed, (h l').followed⟩
      · rw [EventLoop.queue_quit]
        exact (h l).placed
      · rw [EventLoop.queue_quit]
        exact (h l).followed
      · exact (h l').base (by simp [hcalling])
    · exact h

theorem Kept.baseWake (h : s.Kept) : (s.perform .baseWake).Kept := by
  rw [perform]
  split
  · exact h
  · rename_i l hcalling
    refine kept_setLoop ⟨?_, fun hr => ?_, fun _ => EventLoop.callers_wake none, ?_, ?_⟩
      fun l' hne => ⟨(h l').drains, (h l').order, fun _ => ?_, (h l').placed, (h l').followed⟩
    · exact (h l).drains.step _ ⟨by simp, by simp⟩ fun _ a ha => by simp at ha
    · rw [EventLoop.running_step _ ⟨by simp, by simp⟩] at hr
      exact (h l).order hr
    · rw [EventLoop.queue_wake]
      exact (h l).placed
    · rw [EventLoop.queue_wake]
      exact (h l).followed
    · refine (h l').base fun heq => hne ?_
      exact (Option.some.inj (hcalling.symm.trans heq)).symm

/-! ## Every step -/

/-- What holds of every run that is timely. -/
def Standing (s : ServerPool τ) : Prop := s.Finished ∧ (s.ended = false → s.Kept)

omit [DecidableEq τ] in
theorem Kept.standing (h : s.Kept) : s.Standing := ⟨h.finished, fun _ => h⟩

theorem Standing.step (h : s.Standing) (e : PoolEvent τ) (hs : s.Timely e) : (s.step e).Standing := by
  rw [ServerPool.step]
  split
  · exact h
  · rename_i hrun
    have hk : s.Kept := h.2 (Bool.not_eq_true _ ▸ hrun)
    cases e with
    | accept fd => exact (hk.accept fd).standing
    | erase c => exact (hk.erase c).standing
    | destruct => exact hk.destruct.standing
    | destroyNext c => exact (hk.destroyNext c).standing
    | quitNext => exact (hk.quitNext (Bool.not_eq_true _ ▸ hrun) hs).standing
    | baseWake => exact hk.baseWake.standing
    | loop l e =>
      rw [perform]
      split
      · rename_i he
        cases hcalled : s.called l e with
        | none => exact (hk.loop he hcalled).standing
        | some a =>
          cases e with
          | task => exact ⟨hk.finished_runTask hcalled, hk.runTask hcalled⟩
          | _ => cases hcalled
      · exact h
    | handler c hd read write =>
      rw [perform]
      split
      · exact h
      · split
        · refine (hk.update c fun conn htracked => ?_).standing
          exact ⟨htracked.handle read write hd, (conn.handle_onward read write hd).forward⟩
        · exact h
    | call c call =>
      refine (hk.update c fun conn htracked => ?_).standing
      exact ⟨htracked.call call, (conn.call_onward call).forward⟩

omit [DecidableEq τ] in
theorem standing_new (message writeComplete error : Bool) (threads : ℕ) (flags : ℕ → Bool) :
    (new message writeComplete error threads flags : ServerPool τ).Standing := by
  refine Kept.standing fun l => ⟨EventLoop.drains_new _, fun hr => ?_, fun _ => rfl, fun _ ht => ?_,
    fun _ _ hx => ?_⟩
  · cases hr
  · exact absurd ht List.not_mem_nil
  · cases hx

/-! ## A loop told too late -/

/-- A loop only ever takes steps of its own. -/
theorem loops_setLoop (l : ℕ) (e : LoopEvent (Option τ) PoolTask) (l' : ℕ) :
    (s.setLoop l e).loops l' = s.loops l' ∨ ∃ e', (s.setLoop l e).loops l' = (s.loops l').step e' := by
  rcases eq_or_ne l' l with rfl | hne
  · exact .inr ⟨e, Function.update_self ..⟩
  · exact .inl (Function.update_of_ne hne ..)

omit [DecidableEq τ] in
theorem loops_update (c : ConnId) (f : TcpConnection → TcpConnection) :
    (s.update c f).loops = s.loops := by
  rw [update]
  split <;> rfl

omit [DecidableEq τ] in
theorem loops_runTask (a : PoolTask) : (s.runTask a).loops = s.loops := by
  cases a with
  | server t => cases t <;> exact loops_update ..
  | connectDestroyed c => exact loops_update ..
  | user => rfl

theorem loops_step (e : PoolEvent τ) (l : ℕ) :
    (s.step e).loops l = s.loops l ∨ ∃ e', (s.step e).loops l = (s.loops l).step e' := by
  rw [step]
  split
  · exact .inl rfl
  · cases e with
    | accept fd =>
      rw [perform]
      split
      · exact loops_setLoop ..
      · exact .inl rfl
    | erase c =>
      rw [perform]
      split <;> exact .inl rfl
    | destruct =>
      rw [perform]
      split <;> exact .inl rfl
    | destroyNext c =>
      rw [perform]
      split
      · exact .inl rfl
      · split
        · exact loops_setLoop ..
        · exact .inl rfl
    | quitNext =>
      rw [perform]
      split
      · exact .inl rfl
      · split
        · exact loops_setLoop ..
        · exact .inl rfl
    | baseWake =>
      rw [perform]
      split
      · exact .inl rfl
      · exact loops_setLoop ..
    | loop l' e =>
      rw [perform]
      split
      · cases s.called l' e with
        | none => exact loops_setLoop ..
        | some a =>
          rw [Option.elim_some, loops_runTask]
          exact loops_setLoop ..
      · exact .inl rfl
    | handler c hd read write =>
      rw [perform]
      split
      · exact .inl rfl
      · split
        · rw [loops_update]
          exact .inl rfl
        · exact .inl rfl
    | call c call =>
      rw [perform, loops_update]
      exact .inl rfl

/-- **A task that will be left behind is left behind.** -/
theorem strands_run {l : ℕ} (h : (s.loops l).Strands PoolTask.Final) (es : List (PoolEvent τ)) :
    ((run step s es).loops l).Strands PoolTask.Final := by
  induction es generalizing s with
  | nil => exact h
  | cons e es ih =>
    refine ih ?_
    rcases loops_step (s := s) e l with heq | ⟨e', heq⟩
    · rw [heq]
      exact h
    · rw [heq]
      exact h.step e'

omit [DecidableEq τ] in
/-- A connection is not finished off when its task is left behind. -/
theorem not_finished_of_strands {l : ℕ} (h : (s.loops l).Strands PoolTask.Final)
    (hreturned : s.Returned) : ¬ s.Finished := by
  intro hfinished
  obtain ⟨a, ha, c, rfl⟩ := h.left
  exact (hfinished l (hreturned l h.told)).1 c (List.mem_append_right _ ha)

/-- A loop that is told too late strands a task. -/
theorem Standing.strands_quitNext (h : s.Standing) (hs : ¬ s.Timely .quitNext) :
    ∃ l, ((s.step .quitNext).loops l).Strands PoolTask.Final := by
  obtain ⟨hrun, hs⟩ := Classical.not_imp.mp hs
  obtain ⟨htearing, hs⟩ := Classical.not_imp.mp hs
  obtain ⟨hcalling, hs⟩ := Classical.not_imp.mp hs
  obtain ⟨hlisted, hs⟩ := Classical.not_imp.mp hs
  push Not at hs
  obtain ⟨l, hl, hswap, t, ht, hfinal⟩ := hs
  obtain ⟨rest, hquit⟩ := List.head?_eq_some_iff.mp hl
  refine ⟨l, ?_⟩
  have hidle : (s.loops l).callers none = .idle := (h.2 hrun l).base (by simp [hcalling])
  have hnot : ¬ ((s.loops l).WillSwap ∨ ∀ t ∈ (s.loops l).pendingTask, ¬ t.Final) := by
    rintro (hw | hnone)
    · exact hswap hw
    · exact hnone t ht hfinal
  have hloop : (s.step .quitNext).loops l = (s.loops l).step (.quit none) := by
    rw [ServerPool.step, if_neg (by simp [hrun]), perform, hquit]
    dsimp only
    rw [if_pos ⟨htearing, hcalling, hlisted⟩]
    exact Function.update_self ..
  rw [hloop]
  exact EventLoop.strands_quit hidle hnot

/-- **A run that finishes everything was timely.** -/
theorem Standing.meets_timely (h : s.Standing) {es : List (PoolEvent τ)}
    (hreturned : (run ServerPool.step s es).Returned) (hfinished : (run ServerPool.step s es).Finished) :
    Meets ServerPool.step Timely s es := by
  induction es generalizing s with
  | nil => trivial
  | cons e es ih =>
    have hs : s.Timely e := by
      by_contra hs
      cases e with
      | quitNext =>
        obtain ⟨l, hl⟩ := h.strands_quitNext hs
        exact not_finished_of_strands (strands_run hl es) hreturned hfinished
      | _ => exact hs trivial
    exact ⟨hs, ih (h.step e hs) hreturned hfinished⟩

/-- **Tear-down finishes every connection, exactly.**  In every run whose loops are told to quit in
time, each connection is finished off before its loop returns; and a run in which every loop has
returned and every connection is finished off is such a run. -/
theorem finished_iff_timely (message writeComplete error : Bool) (threads : ℕ) (flags : ℕ → Bool)
    (es : List (PoolEvent τ)) :
    (Meets step Timely (new message writeComplete error threads flags) es →
        ∀ js, js <+: es → (run step (new message writeComplete error threads flags) js).Finished)
      ∧ ((run step (new message writeComplete error threads flags) es).Returned →
        (run step (new message writeComplete error threads flags) es).Finished →
        Meets step Timely (new message writeComplete error threads flags) es) := by
  have hnew := standing_new (τ := τ) message writeComplete error threads flags
  refine ⟨fun hs js hjs => ?_, hnew.meets_timely⟩
  exact (inv_run (fun _ e h he => h.step e he) hnew (hs.of_prefix hjs)).1

/-- **A loop told to quit while it runs its tasks**: the connection that it has just established is
not torn down. -/
theorem connectDestroyed_left : ¬ (run step (new true true false 1 fun _ => false : ServerPool Unit)
    [.accept 5, .baseWake, .loop 0 .enter, .loop 0 .test, .loop 0 (.pollReturns true),
      .loop 0 .wakeupRead, .loop 0 .handled, .loop 0 .swap, .loop 0 .task, .destruct,
      .destroyNext 0, .baseWake, .quitNext, .baseWake, .loop 0 .batchDone, .loop 0 .test]).Finished := by
  intro hfinished
  refine (hfinished 0 ?_).1 0 ?_
  · decide
  · decide

end ServerPool
