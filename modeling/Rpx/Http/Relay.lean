import Rpx.Http.Exchange
import Rpx.Machinery.Run

/-!
# Http/Relay — what can still reach `write()`

    given ++ (what the one source left has still to say)  ⊑  the responses, in request order

Bytes reach `write()` from three places: a handler that answers at once, the message callback of an
upstream connection, and `sendMore`.  `Aside x y` says that the step from `x` to `y` is none of these:
what was passed to `write()` is as it was, and no upstream that had fallen silent can be heard again.
Truncation and response order are both read off it.
-/

namespace Exchange

/-! ## Connections and clients that fall silent -/

/-- From `c` to `d` a connection reads nothing, and hears nothing it did not hear before. -/
structure Hushed (c d : TcpConnection) : Prop where
  readBuffer : d.readBuffer = c.readBuffer
  message : d.messageCallback = true → c.messageCallback = true
  heard : d.channel.hasReadInterest = true →
    c.channel.hasReadInterest = true ∧ d.messageCallback = c.messageCallback

theorem Hushed.of_same {c d : TcpConnection} (hinput : d.input = c.input)
    (hcallbacks : d.callbacks = c.callbacks) : Hushed c d := by
  have hmessage : d.messageCallback = c.messageCallback := congrArg (·.1) hcallbacks
  have hread : d.channel.hasReadInterest = c.channel.hasReadInterest := congrArg (·.2) hinput
  exact ⟨congrArg (·.1) hinput, fun h => hmessage ▸ h, fun h => ⟨hread ▸ h, hmessage⟩⟩

/-- `handleClose` stops listening. -/
theorem hushed_handleClose (c : TcpConnection) : Hushed c c.handleClose.conn := by
  rw [TcpConnection.handleClose]
  split
  · refine ⟨rfl, fun h => absurd h Bool.false_ne_true, fun h => ?_⟩
    exact absurd (c.channel.hasReadInterest_unsetAllInterest.symm.trans h) Bool.false_ne_true
  · exact .of_same rfl rfl

/-- `connectDestroyed` does, too. -/
theorem hushed_connectDestroyed (c : TcpConnection) : Hushed c c.connectDestroyed := by
  rw [TcpConnection.connectDestroyed]
  split
  · refine ⟨rfl, id, fun h => ?_⟩
    simp [Channel.hasReadInterest, EpollMask.none] at h
  · refine ⟨rfl, id, fun h => ⟨?_, rfl⟩⟩
    simpa [Channel.hasReadInterest] using h

/-- Nothing that a client's upstream sends can reach the context any more. -/
def Mute (c : TcpClient ProxyClose) : Prop :=
  c.messageCallback = false ∧ ∀ conn ∈ c.conn, conn.messageCallback = false

/-- A connection that reads passes on all it reads, unless its client is to say nothing more. -/
structure Tuned (c : TcpClient ProxyClose) : Prop where
  emptied : ∀ conn ∈ c.conn, conn.messageCallback = true → conn.readBuffer = []
  heard : ∀ conn ∈ c.conn, conn.channel.hasReadInterest = true →
    conn.messageCallback = true ∨ c.messageCallback = false

theorem Tuned.of_none {c : TcpClient ProxyClose} (h : c.conn = none) : Tuned c := by
  refine ⟨fun conn hconn => ?_, fun conn hconn => ?_⟩ <;>
    exact absurd (hconn.symm.trans h) (Option.some_ne_none conn)

/-- **From `c` to `d` a client does not find its voice again.** -/
structure Quieter (c d : TcpClient ProxyClose) : Prop where
  mute : Mute c → Mute d
  tuned : Tuned c → Tuned d

namespace Quieter

variable {c d e : TcpClient ProxyClose}

theorem refl (c : TcpClient ProxyClose) : Quieter c c := ⟨id, id⟩

theorem trans (h : Quieter c d) (h' : Quieter d e) : Quieter c e :=
  ⟨fun hm => h'.mute (h.mute hm), fun ht => h'.tuned (h.tuned ht)⟩

/-- A client that keeps its connection, and sets no message callback. -/
theorem of_conn (hconn : d.conn = c.conn)
    (hmessage : d.messageCallback = true → c.messageCallback = true) : Quieter c d := by
  have hsilent : c.messageCallback = false → d.messageCallback = false := fun hc =>
    Bool.eq_false_iff.mpr (mt hmessage (Bool.eq_false_iff.mp hc))
  refine ⟨fun hm => ⟨hsilent hm.1, hconn ▸ hm.2⟩, fun ht => ⟨hconn ▸ ht.emptied, ?_⟩⟩
  intro conn hc hread
  exact (ht.heard conn (hconn ▸ hc) hread).imp_right hsilent

/-- A client whose connection is hushed. -/
theorem of_hushed {conn conn' : TcpConnection} (hconn : c.conn = some conn)
    (h : Hushed conn conn') : Quieter c { c with conn := some conn' } := by
  refine ⟨fun hm => ⟨hm.1, ?_⟩, fun ht => ⟨?_, ?_⟩⟩
  · rintro _ ⟨⟩
    exact Bool.eq_false_iff.mpr (mt h.message (Bool.eq_false_iff.mp (hm.2 conn hconn)))
  · rintro _ ⟨⟩ hmessage
    exact h.readBuffer.trans (ht.emptied conn hconn (h.message hmessage))
  · rintro _ ⟨⟩ hread
    obtain ⟨hread', hsame⟩ := h.heard hread
    exact (ht.heard conn hconn hread').imp_left fun hm => hsame.trans hm

/-- What the connector does: a connection just made has the callback its client has. -/
theorem withConnector (c : TcpClient ProxyClose) (out : ConnectorOutcome) :
    Quieter c (c.withConnector out).client := by
  rw [TcpClient.withConnector]
  dsimp only
  split
  · refine ⟨fun hm => ⟨hm.1, ?_⟩, fun _ => ⟨?_, ?_⟩⟩
    · rintro _ ⟨⟩
      exact hm.1
    · rintro _ ⟨⟩ -
      rfl
    · rintro _ ⟨⟩ -
      exact Bool.eq_false_or_eq_true c.messageCallback
  · exact of_conn rfl id

theorem onConnection (c : TcpClient ProxyClose) {f : TcpConnection → Outcome}
    (h : ∀ conn, Hushed conn (f conn).conn) : Quieter c (c.onConnection f).client := by
  rw [TcpClient.onConnection]
  split
  · split
    · exact .refl c
    · rename_i conn hconn
      exact of_hushed hconn (h conn)
  · exact .refl c

theorem forceClose (c : TcpClient ProxyClose) : Quieter c c.forceClose.client :=
  trans (d := { c with running := false }) (of_conn rfl id) (onConnection _ fun conn =>
    .of_same conn.input_forceClose conn.callbacks_forceClose)

theorem start (c : TcpClient ProxyClose) : Quieter c c.start.client :=
  trans (d := { c with running := true }) (of_conn rfl id) (withConnector _ _)

theorem stopConnect (c : TcpClient ProxyClose) : Quieter c c.stopConnect.client :=
  trans (d := { c with running := false }) (of_conn rfl id) (withConnector _ _)

theorem handleClose (c : TcpClient ProxyClose) (sockfd : Fd) (answer : ConnectAnswer) :
    Quieter c (c.handleClose sockfd answer).client :=
  trans (d := { c with connection := false }) (of_conn rfl id) (withConnector _ _)

theorem connectDestroyed (c : TcpClient ProxyClose) : Quieter c c.connectDestroyed := by
  rcases hconn : c.conn with - | conn
  · refine of_conn ?_ id
    rw [TcpClient.connectDestroyed, hconn]
    rfl
  · have hsame : c.connectDestroyed = { c with conn := some conn.connectDestroyed } := by
      rw [TcpClient.connectDestroyed, hconn]
      rfl
    rw [hsame]
    exact of_hushed hconn (hushed_connectDestroyed conn)

theorem destroy (c : TcpClient ProxyClose) (unique : Bool) : Quieter c (c.destroy unique).client := by
  rw [TcpClient.destroy]
  dsimp only
  refine Quieter.trans (d := ClientOutcome.client (if c.connection then
    if unique then c.onConnection (·.forceClose) else c.quiet
    else c.withConnector c.connector.stop)) ?_ (of_conn rfl fun h => absurd h Bool.false_ne_true)
  split
  · split
    · exact onConnection c fun conn => .of_same conn.input_forceClose conn.callbacks_forceClose
    · exact .refl c
  · exact withConnector c _

end Quieter

/-! ## Steps that pass nothing to `write()` -/

/-- **From `x` to `y` nothing is passed to `write()`**, and what may still be passed grows by
nothing. -/
structure Aside (x y : Exchange) : Prop where
  given : y.given = x.given
  expected : y.expected = x.expected
  slot : y.ctx.writeCompleteCallback = x.ctx.writeCompleteCallback
    ∨ y.ctx.writeCompleteCallback = none
  remaining : ∀ i, (y.ups i).remaining = (x.ups i).remaining
  quieter : ∀ i, Quieter (x.ups i).client (y.ups i).client

/-- **From `x` to `y` nothing happens downstream** at all. -/
structure Elsewhere (x y : Exchange) : Prop extends Aside x y where
  down : y.down = x.down
  kernel : y.kernel = x.kernel
  closing : LoopTask.serverClosed ∈ y.tasks → LoopTask.serverClosed ∈ x.tasks

namespace Aside

variable {x y z : Exchange}

theorem refl (x : Exchange) : Aside x x :=
  ⟨rfl, rfl, .inl rfl, fun _ => rfl, fun _ => .refl _⟩

theorem trans (h : Aside x y) (h' : Aside y z) : Aside x z := by
  refine ⟨h'.given.trans h.given, h'.expected.trans h.expected, ?_,
    fun i => (h'.remaining i).trans (h.remaining i), fun i => (h.quieter i).trans (h'.quieter i)⟩
  rcases h'.slot with hs | hs
  · exact h.slot.imp hs.trans hs.trans
  · exact .inr hs

end Aside

namespace Elsewhere

variable {x y z : Exchange}

theorem refl (x : Exchange) : Elsewhere x x := ⟨.refl x, rfl, rfl, id⟩

theorem trans (h : Elsewhere x y) (h' : Elsewhere y z) : Elsewhere x z :=
  ⟨h.toAside.trans h'.toAside, h'.down.trans h.down, h'.kernel.trans h.kernel,
    fun hz => h.closing (h'.closing hz)⟩

end Elsewhere

section

variable (x : Exchange) (i : ℕ)

theorem aside_withDown (out : Outcome) : Aside x (x.withDown out) :=
  ⟨rfl, rfl, .inl rfl, fun _ => rfl, fun _ => .refl _⟩

theorem aside_downClosed (out : Outcome) : Aside x (x.downClosed out) := by
  rw [downClosed]
  split
  · exact (x.aside_withDown out).trans ⟨rfl, rfl, .inl rfl, fun _ => rfl, fun _ => .refl _⟩
  · exact x.aside_withDown out

variable {x i}

theorem elsewhere_setClient {c : TcpClient ProxyClose} (h : Quieter (x.ups i).client c) :
    Elsewhere x (x.setClient i c) := by
  refine ⟨⟨rfl, rfl, .inl rfl, fun j => ?_, fun j => ?_⟩, rfl, rfl, id⟩ <;>
    rcases eq_or_ne j i with rfl | hne
  · simp [setClient, setUp]
  · simp [setClient, setUp, hne]
  · simpa [setClient, setUp] using h
  · simpa [setClient, setUp, hne] using Quieter.refl _

theorem elsewhere_withClient {out : ClientOutcome ProxyClose}
    (h : Quieter (x.ups i).client out.client) : Elsewhere x (x.withClient i out) := by
  obtain ⟨haside, hdown, hkernel, hclosing⟩ := elsewhere_setClient h
  refine ⟨⟨rfl, rfl, .inl rfl, haside.remaining, haside.quieter⟩, rfl, rfl, fun hmem => ?_⟩
  rcases List.mem_append.mp hmem with hmem | hmem
  · exact hmem
  · obtain ⟨t, -, ht⟩ := List.mem_map.mp hmem
    cases ht

theorem elsewhere_withConn {conn : TcpConnection} (hconn : (x.ups i).client.conn = some conn)
    {out : Outcome} (h : Hushed conn out.conn) : Elsewhere x (x.withConn i out) :=
  elsewhere_withClient (.of_hushed hconn h)

variable (x i)

/-- The client may be destroyed. -/
theorem elsewhere_release : Elsewhere x (x.release i) := by
  rw [release]
  split
  · exact .refl x
  · exact elsewhere_withClient (.destroy _ _)

theorem elsewhere_releaseContext : Elsewhere x x.releaseContext := by
  rw [releaseContext]
  split
  · exact .refl x
  · exact x.elsewhere_release _

theorem elsewhere_contextClose : Elsewhere x (x.contextClose i) := by
  rw [contextClose]
  dsimp only
  refine Elsewhere.trans ?_ (elsewhere_withClient (.forceClose _))
  refine Elsewhere.trans (elsewhere_withClient (.stopConnect _)) (elsewhere_setClient ?_)
  exact .of_conn rfl fun h => absurd h Bool.false_ne_true

/-- Noting a use. -/
theorem elsewhere_use (u : ℕ × Bool) : Elsewhere x { x with uses := x.uses ++ [u] } :=
  ⟨⟨rfl, rfl, .inl rfl, fun _ => rfl, fun _ => .refl _⟩, rfl, rfl, id⟩

theorem elsewhere_closeCallback : Elsewhere x x.closeCallback := by
  rw [closeCallback]
  split
  · exact x.elsewhere_contextClose _
  · exact .refl x

theorem elsewhere_deleteConnection : Elsewhere x x.deleteConnection := by
  rw [deleteConnection]
  split
  · refine Elsewhere.trans ?_ (elsewhere_releaseContext _)
    exact x.elsewhere_closeCallback.trans
      ⟨⟨rfl, rfl, .inr rfl, fun _ => rfl, fun _ => .refl _⟩, rfl, rfl, id⟩
  · exact .refl x

theorem elsewhere_withConnector (out : ConnectorOutcome) (f : Feed) :
    Elsewhere x (x.withConnector i out f) := by
  rw [withConnector]
  dsimp only
  have hconnector := elsewhere_withClient (x := x) (i := i)
    (.withConnector (x.ups i).client out)
  split
  · rename_i conn _ hconn
    exact hconnector.trans (elsewhere_withConn hconn
      (.of_same (conn.write_outputOnly _ _ _ _).input (conn.write_outputOnly _ _ _ _).callbacks))
  · exact hconnector

variable {x i}

theorem elsewhere_upClosed {conn : TcpConnection} (hconn : (x.ups i).client.conn = some conn)
    (sockfd : Fd) (answer : ConnectAnswer) : Elsewhere x (x.upClosed i conn sockfd answer) := by
  have hreleased := (elsewhere_withConn hconn (hushed_handleClose conn)).trans
    (elsewhere_releaseContext _)
  rw [upClosed]
  dsimp only
  split
  · refine (hreleased.trans (elsewhere_use _ _)).trans (elsewhere_withClient ?_)
    exact .handleClose _ _ _
  · exact hreleased

/-- A task of a client's connection. -/
theorem elsewhere_connTask (env : TaskEnv) (t : ConnTask) :
    Elsewhere x (x.runTask env (.client i (.conn t))) := by
  rcases hconn : (x.ups i).client.conn with - | conn
  · rcases t with - | - | - <;> simpa only [runTask, runClientTask, hconn] using Elsewhere.refl x
  · rcases t with - | - | - <;> simp only [runTask, runClientTask, hconn]
    · exact elsewhere_withConn hconn (.of_same rfl rfl)
    · exact elsewhere_upClosed hconn env.sockfd env.answer
    · exact elsewhere_withConn hconn (.of_same rfl rfl)

/-- The close task of a client's connection: it may close the downstream connection. -/
theorem closedTask_cases (env : TaskEnv) :
    ∃ y, Elsewhere x y ∧ (x.runTask env (.client i .closed) = y
      ∨ x.runTask env (.client i .closed) = y.forceClose) := by
  have hset := (x.elsewhere_use (i, !(x.ups i).client.destroyed)).trans
    (elsewhere_setClient (i := i) (.connectDestroyed _))
  rw [runTask, runClientTask, userClose]
  split
  · exact ⟨_, hset, .inl rfl⟩
  · exact ⟨_, hset, .inr rfl⟩
  · refine ⟨_, ?_, .inl rfl⟩
    refine (hset.trans (elsewhere_setClient ?_)).trans (elsewhere_release _ i)
    exact .of_conn rfl id

variable (x)

/-- The oldest task is taken. -/
theorem elsewhere_pop {t : LoopTask} {rest : List LoopTask} (htasks : x.tasks = t :: rest) :
    Elsewhere x { x with tasks := rest } :=
  ⟨⟨rfl, rfl, .inl rfl, fun _ => rfl, fun _ => .refl _⟩, rfl, rfl,
    fun hmem => htasks ▸ List.mem_cons_of_mem t hmem⟩

/-- A retry timer fires. -/
theorem elsewhere_retryTimer (sockfd : Fd) (answer : ConnectAnswer) :
    Elsewhere x (x.step (.retryTimer i sockfd answer)) := by
  rw [step]
  split
  · have herase : Elsewhere x { x with timers := x.timers.erase i } :=
      ⟨⟨rfl, rfl, .inl rfl, fun _ => rfl, fun _ => .refl _⟩, rfl, rfl, id⟩
    exact herase.trans (elsewhere_withClient (.withConnector _ _))
  · exact .refl x

theorem elsewhere_connectWrite (err : Bool) (f : Feed) :
    Elsewhere x (x.step (.connectWrite i err f)) := by
  rw [step]
  split
  · exact x.elsewhere_withConnector i _ f
  · exact .refl x

theorem elsewhere_connectError : Elsewhere x (x.step (.connectError i)) := by
  rw [step]
  split
  · exact elsewhere_withClient (.withConnector _ _)
  · exact .refl x

theorem elsewhere_upClose (sockfd : Fd) (answer : ConnectAnswer) :
    Elsewhere x (x.step (.upClose i sockfd answer)) := by
  rw [step]
  rcases hconn : (x.ups i).client.conn with - | conn
  · exact .refl x
  · dsimp only
    split
    · exact elsewhere_upClosed hconn sockfd answer
    · exact .refl x

theorem elsewhere_upWrite (events : EpollMask) (answer : WriteAnswer) :
    Elsewhere x (x.step (.upWrite i events answer)) := by
  rw [step]
  rcases hconn : (x.ups i).client.conn with - | conn
  · exact .refl x
  · refine elsewhere_withConn hconn (.of_same ?_ ?_)
    · exact (TcpConnection.handleWrite_outputOnly _ answer).input
    · exact (TcpConnection.handleWrite_outputOnly _ answer).callbacks

/-! ## What an upstream sends -/

/-- A change of one upstream. -/
theorem ups_setUp (x : Exchange) (i : ℕ) (u : Upstream) :
    (x.setUp i u).ups i = u ∧ ∀ j ≠ i, (x.setUp i u).ups j = x.ups j :=
  ⟨Function.update_self _ _ _, fun _ hne => Function.update_of_ne hne _ _⟩

variable {x}

/-- A connection with its message callback set passes on what it reads, and is as it was. -/
theorem upRead_of_heard {conn : TcpConnection} (hconn : (x.ups i).client.conn = some conn)
    (hmessage : conn.messageCallback = true) (hempty : conn.readBuffer = []) (n : ℕ) (f : Feed)
    (hread : watched conn = true ∧ (x.ups i).remaining.take n ≠ []) :
    x.step (.upRead i n f) = (x.send ((x.ups i).remaining.take n) f).2.setUp i
      { x.ups i with remaining := (x.ups i).remaining.drop n } := by
  have hout := conn.handleRead_reads hread.2
  rw [hmessage, hempty, if_pos rfl, List.nil_append] at hout
  have hsame : { conn with readBuffer := [], messageCallback := true } = conn := by
    rw [← hempty, ← hmessage]
  have hclient : { (x.ups i).client with
      conn := some { conn with readBuffer := [], messageCallback := true } } = (x.ups i).client := by
    rw [hsame, ← hconn]
  rw [step, hconn]
  dsimp only
  rw [if_pos hread, hout, if_pos (List.mem_singleton_self _)]
  simp [upMessage, withConn, withClient, setClient, setUp, send, withDown, TcpClient.withConn, hclient]

/-- A connection without its message callback keeps what it reads. -/
theorem upRead_of_unheard {conn : TcpConnection} (hconn : (x.ups i).client.conn = some conn)
    (hmessage : conn.messageCallback = false) (n : ℕ) (f : Feed)
    (hread : watched conn = true ∧ (x.ups i).remaining.take n ≠ []) :
    ∃ c, Quieter (x.ups i).client c ∧ x.step (.upRead i n f) = x.setUp i
      { x.ups i with client := c, remaining := (x.ups i).remaining.drop n } := by
  have hout := conn.handleRead_reads hread.2
  rw [hmessage, if_neg Bool.false_ne_true] at hout
  refine ⟨{ (x.ups i).client with conn := some { conn with
    readBuffer := conn.readBuffer ++ (x.ups i).remaining.take n, messageCallback := false } },
    ⟨fun hm => ⟨hm.1, ?_⟩, fun ht => ⟨?_, ?_⟩⟩, ?_⟩
  · rintro _ ⟨⟩
    rfl
  · rintro _ ⟨⟩ hm
    exact absurd hm Bool.false_ne_true
  · rintro _ ⟨⟩ hread
    exact (ht.heard conn hconn hread).imp_left fun hm => hmessage.symm.trans hm
  · rw [step, hconn]
    dsimp only
    rw [if_pos hread, hout, if_neg List.not_mem_nil]
    simp [withConn, withClient, setClient, setUp, TcpClient.withConn]

/-- An upstream with nothing left to say. -/
theorem upRead_of_nil (hnil : (x.ups i).remaining = []) (n : ℕ) (f : Feed) :
    x.step (.upRead i n f) = x := by
  rw [step]
  rcases (x.ups i).client.conn with - | conn
  · rfl
  · refine if_neg fun hread => hread.2 ?_
    rw [hnil, List.take_nil]

/-- **Bytes from an upstream are passed on, or nobody listens any more.** -/
theorem upRead_cases (htuned : Tuned (x.ups i).client) (n : ℕ) (f : Feed) :
    x.step (.upRead i n f) = x
      ∨ ¬ Mute (x.ups i).client ∧ (x.ups i).remaining.take n ≠ []
        ∧ x.step (.upRead i n f) = (x.send ((x.ups i).remaining.take n) f).2.setUp i
            { x.ups i with remaining := (x.ups i).remaining.drop n }
      ∨ Mute (x.ups i).client ∧ ∃ c, Quieter (x.ups i).client c
        ∧ x.step (.upRead i n f) = x.setUp i
            { x.ups i with client := c, remaining := (x.ups i).remaining.drop n } := by
  rcases hconn : (x.ups i).client.conn with - | conn
  · refine .inl ?_
    rw [step, hconn]
  by_cases hread : watched conn = true ∧ (x.ups i).remaining.take n ≠ []
  · rcases hmessage : conn.messageCallback with - | -
    · refine .inr (.inr ⟨⟨?_, fun d hd => ?_⟩, upRead_of_unheard hconn hmessage n f hread⟩)
      · have hinterest := (Bool.and_eq_true_iff.mp hread.1).2
        exact (htuned.heard conn hconn hinterest).resolve_left fun hm =>
          Bool.false_ne_true (hmessage.symm.trans hm)
      · obtain rfl : conn = d := Option.some.inj (hconn.symm.trans hd)
        exact hmessage
    · refine .inr (.inl ⟨fun hm => ?_, hread.2, upRead_of_heard hconn hmessage
        (htuned.emptied conn hconn hmessage) n f hread⟩)
      exact Bool.false_ne_true ((hm.2 conn hconn).symm.trans hmessage)
  · refine .inl ?_
    rw [step, hconn]
    exact if_neg hread

end

end Exchange
