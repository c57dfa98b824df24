import Rpx.Core.ByteStream
import Rpx.Http.Ownership
import Rpx.Http.Responses

/-!
# Http/Forwarding — what an upstream gets of its request

    start task  +  retry timers  +  attempt under way  +  connection   ≤   1

A request that is passed on is written when its client has connected, and a client connects once: an
attempt that fails is repeated before anything has been written.  So no request reaches its upstream
twice, whatever becomes of the clients; and what the kernel has taken of it, with what is still in the
output buffer, is the request as it was serialised.
-/

open Machinery

/-- The request of an upstream, as it was serialised. -/
def Request.forwarded? : Request → Option Bytes
  | .proxied true forwarded _ => some forwarded
  | _ => none

namespace Exchange

variable {x y z : Exchange} {i : ℕ}

/-! ## What is left to connect -/

/-- **The attempts that a client may still make**, or makes. -/
def hopes (x : Exchange) (i : ℕ) : ℕ :=
  x.tasks.count (.client i (.connector .start)) + x.timers.count i + (x.ups i).client.connector.underWay

/-- The output buffer of the connection made last. -/
def buffer (x : Exchange) (i : ℕ) : Option Bytes := (x.ups i).client.conn.map (·.writeBuffer)

/-- **From `x` to `y` no client gets a new hope**, and none writes. -/
structure Carries (x y : Exchange) : Prop where
  next : y.next = x.next
  request : ∀ i, (y.ups i).request = (x.ups i).request
  reconnect : ∀ i, (x.ups i).client.reconnect = false → (y.ups i).client.reconnect = false
  hopes : ∀ i, y.hopes i ≤ x.hopes i
  buffer : ∀ i, y.buffer i = x.buffer i

namespace Carries

theorem refl (x : Exchange) : Carries x x := ⟨rfl, fun _ => rfl, fun _ => id, fun _ => le_rfl, fun _ => rfl⟩

theorem trans (h : Carries x y) (h' : Carries y z) : Carries x z :=
  ⟨h'.next.trans h.next, fun i => (h'.request i).trans (h.request i),
    fun i hr => h'.reconnect i (h.reconnect i hr), fun i => (h'.hopes i).trans (h.hopes i),
    fun i => (h'.buffer i).trans (h.buffer i)⟩

end Carries

/-- **What a client does carries on** if it uses up the attempts it makes. -/
structure Settles (c : TcpClient ProxyClose) (out : ClientOutcome ProxyClose) : Prop where
  reconnect : out.client.reconnect = c.reconnect
  buffer : out.client.conn.map (·.writeBuffer) = c.conn.map (·.writeBuffer)
  hopes : out.queued.count (.connector .start) + out.timers.length + out.client.connector.underWay
    ≤ c.connector.underWay

namespace Settles

variable {c : TcpClient ProxyClose}

theorem quiet {d : TcpClient ProxyClose} (hreconnect : d.reconnect = c.reconnect)
    (hconn : d.conn.map (·.writeBuffer) = c.conn.map (·.writeBuffer)) (hconnector : d.connector = c.connector) :
    Settles c d.quiet := by
  refine ⟨hreconnect, hconn, ?_⟩
  show 0 + 0 + d.connector.underWay ≤ _
  rw [hconnector]
  omega

/-- A connector that hands nothing on. -/
theorem withConnector {out : ConnectorOutcome} (hhanded : out.handed = none)
    (hchances : out.chances ≤ c.connector.underWay) : Settles c (c.withConnector out) := by
  have hclient : (c.withConnector out).client = { c with connector := out.connector } := by
    rw [TcpClient.withConnector, hhanded]
    rfl
  have hqueued : (c.withConnector out).queued.count (.connector .start) = out.queued.count .start :=
    (count_map_connector out.queued).1
  rw [ConnectorOutcome.chances] at hchances
  refine ⟨by rw [hclient], by rw [hclient], ?_⟩
  rw [hqueued, hclient]
  show _ + out.timers.length + out.connector.underWay ≤ _
  omega

theorem onConnection {f : TcpConnection → Outcome}
    (h : ∀ conn, (f conn).conn.writeBuffer = conn.writeBuffer) : Settles c (c.onConnection f) := by
  rw [TcpClient.onConnection]
  split
  · split
    · exact quiet rfl rfl rfl
    · rename_i conn hconn
      refine ⟨rfl, ?_, ?_⟩
      · rw [hconn]
        exact congrArg some (h conn)
      · show ((f conn).queued.map ClientTask.conn).count (.connector .start) + 0 + _ ≤ _
        rw [(count_map_conn _).1]
        show 0 + 0 + c.connector.underWay ≤ _
        omega
  · exact quiet rfl rfl rfl

/-- A field that nobody here reads is changed first. -/
theorem of_same {d : TcpClient ProxyClose} {out : ClientOutcome ProxyClose} (h : Settles d out)
    (hreconnect : d.reconnect = c.reconnect) (hconn : d.conn = c.conn)
    (hconnector : d.connector = c.connector) :
    Settles c out :=
  ⟨h.reconnect.trans hreconnect, h.buffer.trans (by rw [hconn]), h.hopes.trans_eq (by rw [hconnector])⟩

theorem stopConnect : Settles c c.stopConnect := by
  refine of_same (d := { c with running := false }) (withConnector rfl ?_) rfl rfl rfl
  show _ + 0 + 0 + 0 ≤ _
  exact le_rfl

theorem forceClose : Settles c c.forceClose :=
  of_same (d := { c with running := false }) (onConnection fun conn => conn.writeBuffer_forceClose) rfl rfl rfl

theorem destroy (unique : Bool) : Settles c (c.destroy unique) := by
  have hsettles : Settles c (if c.connection then if unique then c.onConnection (·.forceClose) else c.quiet
      else c.withConnector c.connector.stop) := by
    split
    · split
      · exact onConnection fun conn => conn.writeBuffer_forceClose
      · exact quiet rfl rfl rfl
    · exact withConnector rfl le_rfl
  rw [TcpClient.destroy]
  exact ⟨hsettles.reconnect, hsettles.buffer, hsettles.hopes⟩

theorem handleClose (hreconnect : c.reconnect = false) (sockfd : Fd) (answer : ConnectAnswer) :
    Settles c (c.handleClose sockfd answer) := by
  have hboth : (c.reconnect && c.running) = false := by rw [hreconnect, Bool.false_and]
  have hquiet : Settles { c with connection := false }
      (TcpClient.withConnector { c with connection := false } c.connector.quiet) :=
    withConnector rfl le_rfl
  rw [TcpClient.handleClose]
  dsimp only
  rw [hboth, if_neg Bool.false_ne_true]
  refine ⟨hquiet.reconnect, hquiet.buffer, ?_⟩
  show List.count (ClientTask.connector .start) ([ClientTask.closed] ++ _) + _ + _ ≤ _
  have hclosed : [ClientTask.closed].count (.connector .start) = 0 := by decide
  rw [List.count_append, hclosed, Nat.zero_add]
  exact hquiet.hopes

end Settles

/-! ## Steps that write to no upstream -/

/-- What happens downstream is no client's business. -/
theorem carries_withDown (x : Exchange) (out : Outcome) : Carries x (x.withDown out) := by
  refine ⟨rfl, fun _ => rfl, fun _ => id, fun i => ?_, fun _ => rfl⟩
  have hnone : (out.queued.map LoopTask.down).count (.client i (.connector .start)) = 0 :=
    List.count_eq_zero_of_not_mem fun hmem => by
      obtain ⟨t, -, ht⟩ := List.mem_map.mp hmem
      cases ht
  show (x.tasks ++ out.queued.map LoopTask.down).count _ + _ + _ ≤ _
  rw [List.count_append, hnone]
  exact le_rfl

/-- The fields of the state that no client is asked about. -/
theorem carries_of_same (hups : y.ups = x.ups) (htasks : y.tasks = x.tasks) (htimers : y.timers = x.timers)
    (hnext : y.next = x.next) : Carries x y := by
  refine ⟨hnext, fun i => by rw [hups], fun i h => by rw [hups]; exact h, fun i => ?_, fun i => ?_⟩
  · rw [hopes, hopes, hups, htasks, htimers]
  · rw [buffer, buffer, hups]

/-- Noting a use. -/
theorem carries_use (x : Exchange) (u : ℕ × Bool) : Carries x { x with uses := x.uses ++ [u] } :=
  carries_of_same rfl rfl rfl rfl

theorem carries_setWriteComplete (x : Exchange) (r : Option Reader) :
    Carries x { x with ctx := { x.ctx with writeCompleteCallback := r } } :=
  carries_of_same rfl rfl rfl rfl

theorem carries_send (x : Exchange) (bs : Bytes) (f : Feed) : Carries x (x.send bs f).2 :=
  (x.carries_withDown _).trans (carries_of_same rfl rfl rfl rfl)

theorem carries_sendAll (x : Exchange) (pieces : List Bytes) (f : ℕ → Feed) :
    Carries x (x.sendAll pieces f) := by
  induction pieces generalizing x f with
  | nil => exact .refl x
  | cons bs pieces ih => exact (x.carries_send bs (f 0)).trans (ih _ _)

theorem carries_sendError (x : Exchange) (code : ℕ) (f : ℕ → Feed) : Carries x (x.sendError code f) :=
  (x.carries_sendAll _ f).trans (carries_withDown _ _)

theorem carries_staticHandler (x : Exchange) (r : StaticResource) (f : ℕ → Feed) :
    Carries x (x.staticHandler r f) := by
  rcases r with - | - | content
  · exact x.carries_sendError 403 f
  · exact x.carries_sendError 404 f
  · exact (x.carries_sendAll _ f).trans (carries_setWriteComplete _ _)

theorem carries_sendMore (x : Exchange) (r : Reader) (f : Feed) : Carries x (x.sendMore r f) := by
  rw [sendMore]
  split
  · dsimp only
    split
    · split
      · exact (((x.carries_setWriteComplete _).trans (carries_send _ _ _)).trans
          (carries_setWriteComplete _ _)).trans (carries_withDown _ _)
      · exact (x.carries_setWriteComplete _).trans (carries_send _ _ _)
    · exact x.carries_setWriteComplete _
  · exact (x.carries_setWriteComplete _).trans (carries_withDown _ _)

theorem carries_downClosed (x : Exchange) (out : Outcome) : Carries x (x.downClosed out) := by
  rw [downClosed]
  split
  · refine (x.carries_withDown out).trans ⟨rfl, fun _ => rfl, fun _ => id, fun i => ?_, fun _ => rfl⟩
    have hnone : [LoopTask.serverClosed].count (.client i (.connector .start)) = 0 :=
      List.count_eq_zero_of_not_mem (by simp)
    show ((x.withDown out).tasks ++ [LoopTask.serverClosed]).count _ + _ + _ ≤ _
    rw [List.count_append, hnone]
    exact le_rfl
  · exact x.carries_withDown out

/-- **What one client does**, `k` of its attempts having been taken before. -/
theorem hopes_withClient (x : Exchange) (i : ℕ) (out : ClientOutcome ProxyClose) (j : ℕ) :
    (x.withClient i out).hopes j = if j = i then
      x.tasks.count (.client i (.connector .start)) + x.timers.count i
        + (out.queued.count (.connector .start) + out.timers.length + out.client.connector.underWay)
      else x.hopes j := by
  have hinj : Function.Injective (LoopTask.client i) := fun _ _ h => (LoopTask.client.inj h).2
  rcases eq_or_ne j i with rfl | hne
  · rw [if_pos rfl]
    simp only [hopes, withClient, setClient, setUp, List.count_append, List.count_map_of_injective _ _ hinj,
      List.map_const', List.count_replicate_self, Function.update_self]
    omega
  · have hnone : (out.queued.map (LoopTask.client i)).count (.client j (.connector .start)) = 0 :=
      List.count_eq_zero_of_not_mem fun hmem => by
        obtain ⟨t, -, ht⟩ := List.mem_map.mp hmem
        exact hne (LoopTask.client.inj ht).1.symm
    rw [if_neg hne]
    simp [hopes, withClient, setClient, setUp, List.count_append, hnone, hne, List.count_replicate, Ne.symm hne]

theorem ups_withClient (x : Exchange) (i : ℕ) (out : ClientOutcome ProxyClose) :
    (x.withClient i out).ups i = { x.ups i with client := out.client }
      ∧ ∀ j ≠ i, (x.withClient i out).ups j = x.ups j :=
  x.ups_setUp i { x.ups i with client := out.client }

theorem carries_withClient {out : ClientOutcome ProxyClose} (h : Settles (x.ups i).client out) :
    Carries x (x.withClient i out) := by
  obtain ⟨hself, hother⟩ := x.ups_withClient i out
  refine ⟨rfl, fun j => ?_, fun j hj => ?_, fun j => ?_, fun j => ?_⟩
  · rcases eq_or_ne j i with rfl | hne
    · rw [hself]
    · rw [hother j hne]
  · rcases eq_or_ne j i with rfl | hne
    · rw [hself]
      exact h.reconnect.trans hj
    · rw [hother j hne]
      exact hj
  · rw [hopes_withClient]
    split
    · rename_i heq
      rw [heq]
      exact Nat.add_le_add_left h.hopes _
    · exact le_rfl
  · rcases eq_or_ne j i with rfl | hne
    · rw [buffer, hself]
      exact h.buffer
    · rw [buffer, hother j hne]
      rfl

/-- A client with other callbacks. -/
theorem carries_setClient {c : TcpClient ProxyClose} (hreconnect : c.reconnect = (x.ups i).client.reconnect)
    (hconn : c.conn.map (·.writeBuffer) = (x.ups i).client.conn.map (·.writeBuffer))
    (hconnector : c.connector = (x.ups i).client.connector) : Carries x (x.setClient i c) := by
  have hsame : x.setClient i c = x.withClient i c.quiet := by
    simp [withClient, TcpClient.quiet]
  rw [hsame]
  exact carries_withClient (.quiet hreconnect hconn hconnector)

theorem carries_withConn {conn : TcpConnection} (hconn : (x.ups i).client.conn = some conn) {out : Outcome}
    (hbuffer : out.conn.writeBuffer = conn.writeBuffer) : Carries x (x.withConn i out) := by
  refine carries_withClient ⟨rfl, ?_, ?_⟩
  · rw [hconn]
    exact congrArg some hbuffer
  · show (out.queued.map ClientTask.conn).count (.connector .start) + 0 + _ ≤ _
    rw [(count_map_conn _).1]
    show 0 + 0 + (x.ups i).client.connector.underWay ≤ _
    omega

theorem carries_release (x : Exchange) (i : ℕ) : Carries x (x.release i) := by
  rw [release]
  split
  · exact .refl x
  · exact carries_withClient (.destroy _)

theorem carries_releaseContext (x : Exchange) : Carries x x.releaseContext := by
  rw [releaseContext]
  split
  · exact .refl x
  · exact x.carries_release _

theorem carries_deleteConnection (x : Exchange) : Carries x x.deleteConnection := by
  have hclose : Carries x x.closeCallback := by
    rw [closeCallback]
    split
    · rename_i i _ _
      rw [contextClose]
      dsimp only
      refine Carries.trans ?_ (carries_withClient .forceClose)
      exact (carries_withClient .stopConnect).trans (carries_setClient rfl rfl rfl)
    · exact .refl x
  rw [deleteConnection]
  split
  · refine Carries.trans ?_ (carries_releaseContext _)
    exact hclose.trans (carries_of_same rfl rfl rfl rfl)
  · exact .refl x

/-- A connection of a client that does not reconnect closes. -/
theorem carries_upClosed {conn : TcpConnection} (hconn : (x.ups i).client.conn = some conn)
    (hreconnect : (x.ups i).client.reconnect = false) (sockfd : Fd) (answer : ConnectAnswer) :
    Carries x (x.upClosed i conn sockfd answer) := by
  have hreleased : Carries x (x.withConn i conn.handleClose).releaseContext :=
    (carries_withConn hconn conn.writeBuffer_handleClose).trans (carries_releaseContext _)
  rw [upClosed]
  dsimp only
  split
  · refine (hreleased.trans (carries_use _ _)).trans (carries_withClient ?_)
    exact .handleClose (hreleased.reconnect i hreconnect) _ _
  · exact hreleased

theorem carries_connTask (hreconnect : (x.ups i).client.reconnect = false) (env : TaskEnv) (t : ConnTask) :
    Carries x (x.runTask env (.client i (.conn t))) := by
  rcases hconn : (x.ups i).client.conn with - | conn
  · rcases t with - | - | - <;> simpa only [runTask, runClientTask, hconn] using Carries.refl x
  · rcases t with - | - | - <;> simp only [runTask, runClientTask, hconn]
    · exact carries_withConn hconn rfl
    · exact carries_upClosed hconn hreconnect env.sockfd env.answer
    · exact carries_withConn hconn rfl

theorem writeBuffer_connectDestroyed (c : TcpConnection) : c.connectDestroyed.writeBuffer = c.writeBuffer := by
  rw [TcpConnection.connectDestroyed]
  split <;> rfl

/-- The close task of a client's connection. -/
theorem carries_closedTask (env : TaskEnv) : Carries x (x.runTask env (.client i .closed)) := by
  have hset : Carries x (Exchange.setClient { x with uses := x.uses ++ [(i, !(x.ups i).client.destroyed)] } i
      (x.ups i).client.connectDestroyed) := by
    refine (x.carries_use (i, !(x.ups i).client.destroyed)).trans (carries_setClient rfl ?_ rfl)
    show Option.map _ ((x.ups i).client.conn.map (·.connectDestroyed)) = _
    rw [Option.map_map]
    congr 1
    exact funext writeBuffer_connectDestroyed
  rw [runTask, runClientTask, userClose]
  split
  · exact hset
  · exact hset.trans (carries_withDown _ _)
  · refine (hset.trans (carries_setClient ?_ ?_ ?_)).trans (carries_release _ i)
    · rfl
    · rfl
    · rfl

/-- The oldest task is taken. -/
theorem carries_pop {t : LoopTask} {rest : List LoopTask} (htasks : x.tasks = t :: rest) :
    Carries x { x with tasks := rest } := by
  refine ⟨rfl, fun _ => rfl, fun _ => id, fun i => ?_, fun _ => rfl⟩
  have hle := (List.sublist_cons_self t rest).count_le (LoopTask.client i (.connector .start))
  rw [hopes, hopes, htasks]
  exact Nat.add_le_add_right (Nat.add_le_add_right hle _) _

/-- **A connector that hands nothing on**, on `k` attempts that were counted elsewhere before. -/
theorem carries_connector {out : ConnectorOutcome} {k : ℕ} (hups : y.ups = x.ups) (hnext : y.next = x.next)
    (hother : ∀ j ≠ i, y.hopes j ≤ x.hopes j) (hself : y.hopes i + k ≤ x.hopes i) (hhanded : out.handed = none)
    (hchances : out.chances ≤ (y.ups i).client.connector.underWay + k) :
    Carries x (y.withClient i ((y.ups i).client.withConnector out)) := by
  have hclient : ((y.ups i).client.withConnector out).client
      = { (y.ups i).client with connector := out.connector } := by
    rw [TcpClient.withConnector, hhanded]
    rfl
  have hqueued : ((y.ups i).client.withConnector out).queued.count (.connector .start)
      = out.queued.count .start :=
    (count_map_connector out.queued).1
  obtain ⟨hupsself, hupsother⟩ := y.ups_withClient i ((y.ups i).client.withConnector out)
  rw [ConnectorOutcome.chances] at hchances
  refine ⟨hnext, fun j => ?_, fun j hj => ?_, fun j => ?_, fun j => ?_⟩
  · rcases eq_or_ne j i with rfl | hne
    · rw [hupsself, hups]
    · rw [hupsother j hne, hups]
  · rcases eq_or_ne j i with rfl | hne
    · rw [hupsself, hclient]
      exact (congrArg (·.client.reconnect) (congrFun hups j)).trans hj
    · rw [hupsother j hne, hups]
      exact hj
  · rw [hopes_withClient]
    split
    · rename_i heq
      rw [heq, hqueued, hclient]
      show _ + (out.queued.count .start + out.timers.length + out.connector.underWay) ≤ _
      rw [hopes] at hself
      omega
    · rename_i hne
      exact hother j hne
  · rcases eq_or_ne j i with rfl | hne
    · rw [buffer, hupsself, hclient, buffer, hups]
    · rw [buffer, hupsother j hne, buffer, hups]

/-- A task of a connector. -/
theorem carries_connectorTask {t : ConnectorTask} {rest : List LoopTask}
    (htasks : x.tasks = .client i (.connector t) :: rest) (env : TaskEnv) :
    Carries x (Exchange.runTask { x with tasks := rest } env (.client i (.connector t))) := by
  obtain ⟨hchances, -, hhanded⟩ := (x.ups i).client.connector.runTask_spec env.sockfd env.answer t
  rw [runTask, runClientTask, withConnector_of_none _ i env.feed hhanded]
  refine carries_connector rfl rfl (fun j _ => (carries_pop htasks).hopes j) ?_ hhanded hchances
  have hinj : Function.Injective fun t => LoopTask.client i (.connector t) := fun _ _ h =>
    ClientTask.connector.inj (LoopTask.client.inj h).2
  have hcount : x.tasks.count (.client i (.connector .start))
      = rest.count (.client i (.connector .start)) + [t].count .start := by
    rw [htasks, List.count_cons, List.count_singleton]
    simp only [beq_iff_eq, LoopTask.client.injEq, true_and, ClientTask.connector.injEq]
  show rest.count _ + x.timers.count i + (x.ups i).client.connector.underWay + _ ≤ x.hopes i
  rw [Exchange.hopes, hcount]
  omega

theorem carries_retryTimer (sockfd : Fd) (answer : ConnectAnswer) :
    Carries x (x.step (.retryTimer i sockfd answer)) := by
  rw [step]
  split
  · rename_i hi
    obtain ⟨hchances, -, hhanded⟩ := (x.ups i).client.connector.attempt_spec sockfd answer
    have hpos : 0 < x.timers.count i := List.count_pos_iff.mpr hi
    refine carries_connector (y := { x with timers := x.timers.erase i }) rfl rfl (fun j hj => ?_) ?_ hhanded
      hchances
    · show _ + (x.timers.erase i).count j + _ ≤ _ + x.timers.count j + _
      rw [List.count_erase_of_ne hj]
    · show x.tasks.count _ + (x.timers.erase i).count i + (x.ups i).client.connector.underWay + 1
        ≤ x.tasks.count _ + x.timers.count i + (x.ups i).client.connector.underWay
      rw [List.count_erase_self]
      omega
  · exact .refl x

theorem carries_connectError : Carries x (x.step (.connectError i)) := by
  rw [step]
  split
  · rename_i hpolled
    obtain ⟨hchances, -, hhanded⟩ := Connector.handleError_spec _ hpolled
    have hway := Connector.underWay_of_polled _ hpolled
    exact carries_connector (k := 0) rfl rfl (fun _ _ => le_rfl) le_rfl hhanded (hchances.trans_eq hway.symm)
  · exact .refl x

theorem carries_upClose (hreconnect : (x.ups i).client.reconnect = false) (sockfd : Fd)
    (answer : ConnectAnswer) : Carries x (x.step (.upClose i sockfd answer)) := by
  rw [step]
  rcases hconn : (x.ups i).client.conn with - | conn
  · exact .refl x
  · dsimp only
    split
    · exact carries_upClosed hconn hreconnect sockfd answer
    · exact .refl x

/-- What an upstream sends is read, and passed on. -/
theorem carries_upRead (n : ℕ) (f : Feed) : Carries x (x.step (.upRead i n f)) := by
  rw [step]
  rcases hconn : (x.ups i).client.conn with - | conn
  · exact .refl x
  · dsimp only
    split
    · rename_i hread
      have hset : Carries x (x.setUp i { x.ups i with remaining := (x.ups i).remaining.drop n }) := by
        obtain ⟨hself, hother⟩ := x.ups_setUp i { x.ups i with remaining := (x.ups i).remaining.drop n }
        refine ⟨rfl, fun j => ?_, fun j hj => ?_, fun j => ?_, fun j => ?_⟩ <;>
          rcases eq_or_ne j i with rfl | hne
        · rw [hself]
        · rw [hother j hne]
        · rw [hself]
          exact hj
        · rw [hother j hne]
          exact hj
        · rw [hopes, hself]
          exact le_rfl
        · rw [hopes, hother j hne]
          exact le_rfl
        · rw [buffer, hself]
          rfl
        · rw [buffer, hother j hne]
          rfl
      have hout := conn.handleRead_reads hread.2
      have hconn' : ((x.setUp i { x.ups i with remaining := (x.ups i).remaining.drop n }).ups i).client.conn
          = some conn := by
        rw [(x.ups_setUp i _).1]
        exact hconn
      have hbuffer : (conn.handleRead (.reads ((x.ups i).remaining.take n))).conn.writeBuffer
          = conn.writeBuffer := by
        rw [hout]
      have hcarries := hset.trans (carries_withConn hconn' hbuffer)
      split
      · refine hcarries.trans ?_
        rw [upMessage]
        dsimp only
        refine (carries_send _ _ f).trans (carries_setClient rfl ?_ rfl)
        show some _ = Option.map _ (((Exchange.withConn _ i _).ups i).client.conn)
        rw [Exchange.withConn, (ups_withClient _ i _).1]
        rfl
      · exact hcarries
    · exact .refl x

/-! ## What reaches an upstream -/

/-- What a step hands to the kernel for an upstream. -/
structure UpstreamOutput where
  upstream : ℕ
  /-- A connection has been made, and its request is written. -/
  request : Bool
  sent : Bytes

/-- The output of `withConnector`: a connection just made is sent the request. -/
def requestOutput (x : Exchange) (i : ℕ) (out : ConnectorOutcome) (f : Feed) : Option UpstreamOutput :=
  let cout := (x.ups i).client.withConnector out
  match cout.connected, cout.client.conn with
  | true, some conn =>
    let request := (x.ups i).request
    some ⟨i, true, (conn.write (Pointer.ofBytes request f.around) request.length f.junk f.answer).2.sent⟩
  | _, _ => none

/-- **The output of a step to an upstream.**  Whatever else is called on the connections of the clients
hands nothing to the kernel. -/
def output (x : Exchange) : ExchangeEvent → Option UpstreamOutput
  | .connectWrite i err f =>
    if (x.ups i).client.connector.polled then
      x.requestOutput i ((x.ups i).client.connector.handleWrite err) f
    else none
  | .upWrite i events answer =>
    (x.ups i).client.conn.map fun conn =>
      ⟨i, false, (TcpConnection.handleWrite { conn with channel := conn.channel.setEvents events } answer).sent⟩
  | .runTask env =>
    match x.tasks with
    | .client i (.connector t) :: _ =>
      x.requestOutput i ((x.ups i).client.connector.runTask env.sockfd env.answer t) env.feed
    | _ => none
  | _ => none

theorem requestOutput_of_none {out : ConnectorOutcome} (f : Feed) (h : out.handed = none) :
    x.requestOutput i out f = none := by
  have hconnected : ((x.ups i).client.withConnector out).connected = false := by
    rw [TcpClient.withConnector, h]
    rfl
  rw [requestOutput, hconnected]

/-- Connector tasks hand nothing on. -/
theorem output_runTask (env : TaskEnv) : x.output (.runTask env) = none := by
  rw [output]
  split
  · rename_i i t _ _
    exact requestOutput_of_none env.feed ((x.ups i).client.connector.runTask_spec env.sockfd env.answer t).2.2
  · rfl

theorem carries_runTask (hreconnect : ∀ i, (x.ups i).client.reconnect = false) (env : TaskEnv) :
    Carries x (x.step (.runTask env)) := by
  rw [step]
  rcases htasks : x.tasks with - | ⟨t | - | ⟨i, t | t | -⟩, rest⟩
  · exact .refl x
  · refine (carries_pop htasks).trans ?_
    rcases t with - | - | -
    · dsimp only
      rw [runTask]
      split
      · exact carries_sendMore _ _ _
      · exact .refl _
    · exact carries_downClosed { x with tasks := rest } (x.down.runTask .handleClose)
    · exact carries_downClosed { x with tasks := rest } (x.down.runTask .shutdownWrite)
  · refine (carries_pop htasks).trans (Carries.trans ?_ (carries_deleteConnection _))
    exact carries_of_same rfl rfl rfl rfl
  · exact carries_connectorTask htasks env
  · exact (carries_pop htasks).trans (carries_connTask (x := { x with tasks := rest }) (hreconnect i) env t)
  · exact (carries_pop htasks).trans (carries_closedTask env)

/-- A request that is answered here, or whose upstream's name does not resolve. -/
theorem carries_handleRequest {r : Request} (hr : r.forwarded? = none) (f : ℕ → Feed) :
    Carries x (x.handleRequest r f) := by
  have hnoted : Carries x { x with expected := x.expected ++ [response r] } := carries_of_same rfl rfl rfl rfl
  refine hnoted.trans ?_
  rcases r with - | r | ⟨- | -, forwarded, response⟩
  · exact carries_sendError _ _ _
  · exact carries_staticHandler _ _ _
  · exact carries_send _ badGateway _
  · cases hr

/-- The tasks of a connection are none of its client's attempts. -/
theorem hopes_withConn (x : Exchange) (i : ℕ) (out : Outcome) (j : ℕ) :
    (x.withConn i out).hopes j = x.hopes j := by
  rw [withConn, hopes_withClient]
  split
  · rename_i heq
    have hqueued : ((x.ups i).client.withConn out).queued.count (.connector .start) = 0 := (count_map_conn _).1
    rw [heq, hqueued]
    show x.tasks.count _ + x.timers.count i + (0 + 0 + (x.ups i).client.connector.underWay) = x.hopes i
    rw [hopes]
    omega
  · rfl

end Exchange

open Exchange

/-- An exchange, and what its upstreams have got. -/
structure Forwarding where
  exchange : Exchange
  /-- The requests passed on, in the order in which they were dispatched. -/
  passed : List Bytes
  /-- The upstreams whose request has been written. -/
  written : List ℕ
  /-- What the kernel took from the connections to each upstream. -/
  sent : ℕ → Bytes

namespace Forwarding

def new : Forwarding := ⟨.opened, [], [], fun _ => []⟩

def step (s : Forwarding) (e : ExchangeEvent) : Forwarding :=
  let passed := s.passed ++ (s.exchange.asks e).filterMap Request.forwarded?
  match s.exchange.output e with
  | none => { s with exchange := s.exchange.step e, passed := passed }
  | some o =>
    { exchange := s.exchange.step e
      passed := passed
      written := if o.request then s.written ++ [o.upstream] else s.written
      sent := Function.update s.sent o.upstream (s.sent o.upstream ++ o.sent) }

variable {s : Forwarding} {i : ℕ}

/-- What the kernel has taken for an upstream, and what is still in the output buffer. -/
def stream (s : Forwarding) (i : ℕ) : Bytes := s.sent i ++ (s.exchange.buffer i).getD []

/-- **What a run keeps.** -/
structure Kept (s : Forwarding) : Prop where
  next : s.exchange.next = s.passed.length
  request : ∀ i b, s.passed[i]? = some b → (s.exchange.ups i).request = b
  reconnect : ∀ i, (s.exchange.ups i).client.reconnect = false
  /-- A client that has been made has one attempt or one connection, and others have none. -/
  load : ∀ i, s.exchange.hopes i + (if (s.exchange.buffer i).isSome then 1 else 0)
    ≤ if i < s.exchange.next then 1 else 0
  nodup : s.written.Nodup
  made : ∀ i ∈ s.written, (s.exchange.buffer i).isSome = true
  stream : ∀ i, s.stream i = [] ∨ i ∈ s.written ∧ s.stream i = (s.exchange.ups i).request

theorem kept_new : Kept new where
  next := rfl
  request i b h := by cases h
  reconnect _ := rfl
  load _ := Nat.zero_le _
  nodup := List.nodup_nil
  made i h := absurd h List.not_mem_nil
  stream _ := .inl rfl

/-- A step that writes to no upstream. -/
theorem Kept.carry (h : s.Kept) {y : Exchange} (hy : Carries s.exchange y) : Kept { s with exchange := y } := by
  have hstream : ∀ i, Forwarding.stream { s with exchange := y } i = s.stream i := fun i => by
    rw [Forwarding.stream, Forwarding.stream]
    exact congrArg (s.sent i ++ Option.getD · []) (hy.buffer i)
  refine ⟨hy.next.trans h.next, fun i b hb => (hy.request i).trans (h.request i b hb),
    fun i => hy.reconnect i (h.reconnect i), fun i => ?_, h.nodup, fun i hi => ?_, fun i => ?_⟩
  · rw [hy.next, hy.buffer]
    exact (Nat.add_le_add_right (hy.hopes i) _).trans (h.load i)
  · rw [hy.buffer]
    exact h.made i hi
  · rw [hstream, hy.request]
    exact h.stream i

/-- **A connection writes**: what it hands to the kernel is its request, or the next part of it. -/
theorem Kept.write (h : s.Kept) {conn : TcpConnection} (hconn : (s.exchange.ups i).client.conn = some conn)
    {out : Outcome} {written : List ℕ} (hnodup : written.Nodup) (hsub : s.written ⊆ written)
    (hnew : ∀ j ∈ written, j ∈ s.written ∨ j = i)
    (hstream : s.sent i ++ (out.sent ++ out.conn.writeBuffer) = []
      ∨ i ∈ written ∧ s.sent i ++ (out.sent ++ out.conn.writeBuffer) = (s.exchange.ups i).request) :
    Kept { s with
      exchange := s.exchange.withConn i out
      written := written
      sent := Function.update s.sent i (s.sent i ++ out.sent) } := by
  obtain ⟨hself, hother⟩ := s.exchange.ups_withClient i ((s.exchange.ups i).client.withConn out)
  have hbuffer : (s.exchange.withConn i out).buffer i = some out.conn.writeBuffer := by
    rw [buffer, withConn, hself]
    rfl
  have hbuffer' : ∀ j ≠ i, (s.exchange.withConn i out).buffer j = s.exchange.buffer j := fun j hj => by
    rw [buffer, withConn, hother j hj]
    rfl
  have hsame : ∀ j, ((s.exchange.withConn i out).ups j).request = (s.exchange.ups j).request
      ∧ ((s.exchange.withConn i out).ups j).client.reconnect = (s.exchange.ups j).client.reconnect
      ∧ ((s.exchange.withConn i out).buffer j).isSome = (s.exchange.buffer j).isSome := by
    intro j
    rcases eq_or_ne j i with rfl | hne
    · rw [hbuffer, withConn, hself, buffer, hconn]
      exact ⟨rfl, rfl, rfl⟩
    · rw [hbuffer' j hne, withConn, hother j hne]
      exact ⟨rfl, rfl, rfl⟩
  refine ⟨h.next, fun j b hb => (hsame j).1.trans (h.request j b hb),
    fun j => (hsame j).2.1.trans (h.reconnect j),
    fun j => ?_, hnodup, fun j hj => ?_, fun j => ?_⟩
  · rw [hopes_withConn, (hsame j).2.2]
    exact h.load j
  · rw [(hsame j).2.2]
    rcases hnew j hj with hmem | rfl
    · exact h.made j hmem
    · rw [buffer, hconn]
      rfl
  · rw [(hsame j).1]
    rcases eq_or_ne j i with rfl | hne
    · rw [Forwarding.stream, hbuffer]
      dsimp only
      rw [Function.update_self, Option.getD_some, List.append_assoc]
      exact hstream
    · have hold : Forwarding.stream { s with
          exchange := s.exchange.withConn i out
          written := written
          sent := Function.update s.sent i (s.sent i ++ out.sent) } j = s.stream j := by
        rw [Forwarding.stream, hbuffer' j hne]
        dsimp only
        rw [Function.update_of_ne hne]
        rfl
      rw [hold]
      exact (h.stream j).imp_right fun hj => ⟨hsub hj.1, hj.2⟩

/-- **A client connects**: it has not before, and has no other attempt. -/
theorem Kept.connect (h : s.Kept) (hpolled : (s.exchange.ups i).client.connector.polled = true) (err : Bool)
    (hhanded : ((s.exchange.ups i).client.connector.handleWrite err).handed.isSome = true) :
    let cout := (s.exchange.ups i).client.withConnector ((s.exchange.ups i).client.connector.handleWrite err)
    i ∉ s.written ∧ s.sent i = [] ∧ Kept { s with exchange := s.exchange.withClient i cout }
      ∧ ∃ conn, cout.client.conn = some conn ∧ conn.writeBuffer = [] ∧ conn.pending = false := by
  intro cout
  obtain ⟨hchances, -, -⟩ := Connector.handleWrite_spec _ hpolled err
  obtain ⟨fd, hfd⟩ := Option.isSome_iff_exists.mp hhanded
  rw [ConnectorOutcome.chances, hfd] at hchances
  have hway := Connector.underWay_of_polled _ hpolled
  have hload := h.load i
  rw [hopes, hway] at hload
  have hlt : i < s.exchange.next := by
    by_contra hle
    rw [if_neg hle] at hload
    omega
  have hnone : s.exchange.buffer i = none := by
    cases hb : s.exchange.buffer i with
    | none => rfl
    | some b =>
      rw [hb, if_pos hlt] at hload
      simp at hload
  have hnew : i ∉ s.written := fun hmem => by
    have hmade := h.made i hmem
    rw [hnone] at hmade
    cases hmade
  have hstream : s.stream i = [] := (h.stream i).resolve_right fun hw => hnew hw.1
  rw [Forwarding.stream, hnone] at hstream
  have hsent : s.sent i = [] := (List.append_eq_nil_iff.mp hstream).1
  have hclient : cout.client = TcpClient.newConnection { (s.exchange.ups i).client with
      connector := ((s.exchange.ups i).client.connector.handleWrite err).connector } := by
    show (TcpClient.withConnector _ _).client = _
    rw [TcpClient.withConnector, hfd]
    rfl
  obtain ⟨hself, hother⟩ := s.exchange.ups_withClient i cout
  have hbuffer : (s.exchange.withClient i cout).buffer i = some [] := by
    rw [buffer, hself, hclient]
    rfl
  have hbuffer' : ∀ j ≠ i, (s.exchange.withClient i cout).buffer j = s.exchange.buffer j := fun j hj => by
    rw [buffer, hother j hj]
    rfl
  have hqueued : cout.queued.count (.connector .start)
      = ((s.exchange.ups i).client.connector.handleWrite err).queued.count .start := (count_map_connector _).1
  refine ⟨hnew, hsent, ⟨h.next, fun j b hb => ?_, fun j => ?_, fun j => ?_, h.nodup, fun j hj => ?_,
    fun j => ?_⟩, ?_⟩
  · rcases eq_or_ne j i with rfl | hne
    · dsimp only
      rw [hself]
      exact h.request j b hb
    · dsimp only
      rw [hother j hne]
      exact h.request j b hb
  · rcases eq_or_ne j i with rfl | hne
    · dsimp only
      rw [hself, hclient]
      exact h.reconnect j
    · dsimp only
      rw [hother j hne]
      exact h.reconnect j
  · rcases eq_or_ne j i with rfl | hne
    · dsimp only
      rw [hopes_withClient, if_pos rfl, hbuffer, hqueued, hclient]
      show _ + (_ + cout.timers.length
        + ((s.exchange.ups j).client.connector.handleWrite err).connector.underWay) + 1
        ≤ if j < s.exchange.next then 1 else 0
      rw [if_pos hlt, hnone] at hload
      rw [if_pos hlt]
      have htimers : cout.timers = ((s.exchange.ups j).client.connector.handleWrite err).timers := rfl
      rw [htimers]
      simp only [Option.isSome_none, Bool.false_eq_true, if_false, Option.toList_some,
        List.length_singleton] at hload hchances
      omega
    · dsimp only
      rw [hopes_withClient, if_neg hne, hbuffer' j hne]
      exact h.load j
  · have hne : j ≠ i := fun heq => hnew (heq ▸ hj)
    dsimp only
    rw [hbuffer' j hne]
    exact h.made j hj
  · rcases eq_or_ne j i with rfl | hne
    · left
      rw [Forwarding.stream]
      dsimp only
      rw [hbuffer, hsent]
      rfl
    · rw [Forwarding.stream]
      dsimp only
      rw [hbuffer' j hne, hother j hne]
      exact h.stream j
  · rw [hclient]
    exact ⟨_, rfl, rfl, rfl⟩

theorem step_of_none {e : ExchangeEvent} (hasks : (s.exchange.asks e).filterMap Request.forwarded? = [])
    (hout : s.exchange.output e = none) : s.step e = { s with exchange := s.exchange.step e } := by
  rw [step, hasks, hout, List.append_nil]

theorem step_of_some {e : ExchangeEvent} {o : UpstreamOutput} (hasks : s.exchange.asks e = [])
    (hout : s.exchange.output e = some o) : s.step e = { s with
      exchange := s.exchange.step e
      written := if o.request then s.written ++ [o.upstream] else s.written
      sent := Function.update s.sent o.upstream (s.sent o.upstream ++ o.sent) } := by
  rw [step, hasks, hout, List.filterMap_nil, List.append_nil]

/-- **The socket of a client connects**, and its request is written. -/
theorem Kept.connectWrite (h : s.Kept) (i : ℕ) (err : Bool) (f : Feed) :
    Kept (s.step (.connectWrite i err f)) := by
  by_cases hpolled : (s.exchange.ups i).client.connector.polled = true
  · have hstep : s.exchange.step (.connectWrite i err f)
        = s.exchange.withConnector i ((s.exchange.ups i).client.connector.handleWrite err) f := by
      rw [Exchange.step, if_pos hpolled]
    have houtput : s.exchange.output (.connectWrite i err f)
        = s.exchange.requestOutput i ((s.exchange.ups i).client.connector.handleWrite err) f := by
      rw [output, if_pos hpolled]
    cases hhanded : ((s.exchange.ups i).client.connector.handleWrite err).handed with
    | none =>
      rw [requestOutput_of_none f hhanded] at houtput
      rw [withConnector_of_none _ i f hhanded] at hstep
      rw [step_of_none rfl houtput, hstep]
      obtain ⟨hchances, -, -⟩ := Connector.handleWrite_spec _ hpolled err
      have hway := Connector.underWay_of_polled _ hpolled
      exact h.carry (carries_connector (k := 0) rfl rfl (fun _ _ => le_rfl) le_rfl hhanded
        (hchances.trans_eq hway.symm))
    | some fd =>
      obtain ⟨hnew, hsent, hkept, conn, hconn, hbuffer, hpending⟩ :=
        h.connect hpolled err (by rw [hhanded]; rfl)
      have hconn' : ((s.exchange.withClient i ((s.exchange.ups i).client.withConnector
          ((s.exchange.ups i).client.connector.handleWrite err))).ups i).client.conn = some conn := by
        rw [(ups_withClient _ i _).1]
        exact hconn
      rw [requestOutput, hconn] at houtput
      rw [withConnector, hconn'] at hstep
      cases hconnected : ((s.exchange.ups i).client.withConnector
          ((s.exchange.ups i).client.connector.handleWrite err)).connected with
      | false =>
        rw [hconnected] at houtput hstep
        rw [step_of_none rfl houtput, hstep]
        exact hkept
      | true =>
        rw [hconnected] at houtput hstep
        rw [step_of_some rfl houtput, hstep, if_pos rfl]
        have hrequest := congrArg Upstream.request
          (ups_withClient s.exchange i ((s.exchange.ups i).client.withConnector
          ((s.exchange.ups i).client.connector.handleWrite err))).1
        have hwrite := conn.write_stream (Pointer.ofBytes (s.exchange.ups i).request f.around)
          (s.exchange.ups i).request.length f.junk f.answer
        rw [hbuffer, List.nil_append, TcpConnection.carried, hpending, if_neg Bool.false_ne_true] at hwrite
        dsimp only at hrequest
        rw [hrequest]
        refine hkept.write hconn' (List.concat_eq_append ▸ h.nodup.concat hnew)
          (List.subset_append_left _ _) (fun j hj => ?_) ?_
        · rcases List.mem_append.mp hj with hj | hj
          · exact .inl hj
          · exact .inr (List.mem_singleton.mp hj)
        · rw [hwrite]
          dsimp only
          rw [hsent, hrequest]
          split
          · exact .inl rfl
          · refine .inr ⟨List.mem_append_right _ (List.mem_singleton_self i), ?_⟩
            exact Pointer.read_ofBytes _ _
  · have hstep : s.exchange.step (.connectWrite i err f) = s.exchange := by
      rw [Exchange.step, if_neg hpolled]
    rw [step_of_none rfl (by rw [output, if_neg hpolled]), hstep]
    exact h

/-- **A connection hands over the next part of its output.** -/
theorem Kept.upWrite (h : s.Kept) (i : ℕ) (events : EpollMask) (answer : WriteAnswer) :
    Kept (s.step (.upWrite i events answer)) := by
  cases hconn : (s.exchange.ups i).client.conn with
  | none =>
    have hstep : s.exchange.step (.upWrite i events answer) = s.exchange := by
      rw [Exchange.step, hconn]
    rw [step_of_none rfl (by rw [output, hconn]; rfl), hstep]
    exact h
  | some conn =>
    have hout := TcpConnection.handleWrite_stream { conn with channel := conn.channel.setEvents events } answer
    have hstep : s.exchange.step (.upWrite i events answer) = s.exchange.withConn i
        (TcpConnection.handleWrite { conn with channel := conn.channel.setEvents events } answer) := by
      rw [Exchange.step, hconn]
    rw [step_of_some rfl (by rw [output, hconn]; rfl), hstep, if_neg Bool.false_ne_true]
    refine h.write hconn h.nodup (List.Subset.refl _) (fun j hj => .inl hj) ?_
    rw [hout]
    have hstream := h.stream i
    rw [Forwarding.stream, buffer, hconn] at hstream
    exact hstream

/-! ## A request passed on -/

/-- The state in which a client has been made and nothing else has happened. -/
def withUpstream (x : Exchange) (forwarded response : Bytes) : Exchange :=
  { x.setUp x.next ⟨proxyClient, forwarded, response⟩ with
    ctx := { x.ctx with userData := some x.next }
    next := x.next + 1 }

theorem ups_withUpstream (x : Exchange) (forwarded response : Bytes) :
    (withUpstream x forwarded response).ups x.next = ⟨proxyClient, forwarded, response⟩
      ∧ ∀ j ≠ x.next, (withUpstream x forwarded response).ups j = x.ups j :=
  x.ups_setUp x.next ⟨proxyClient, forwarded, response⟩

/-- A client that has not been made yet has nothing under way. -/
theorem Kept.fresh (h : s.Kept) : s.exchange.hopes s.exchange.next = 0
    ∧ s.exchange.buffer s.exchange.next = none ∧ s.exchange.next ∉ s.written := by
  have hload := h.load s.exchange.next
  rw [if_neg (Nat.lt_irrefl _)] at hload
  have hnone : s.exchange.buffer s.exchange.next = none := by
    cases hb : s.exchange.buffer s.exchange.next with
    | none => rfl
    | some b =>
      rw [hb] at hload
      simp at hload
  refine ⟨by omega, hnone, fun hmem => ?_⟩
  have hmade := h.made _ hmem
  rw [hnone] at hmade
  cases hmade

/-- **A client is made.** -/
theorem Kept.withUpstream (h : s.Kept) (forwarded response : Bytes) :
    Kept { s with
      exchange := Forwarding.withUpstream s.exchange forwarded response
      passed := s.passed ++ [forwarded] }
      ∧ (Forwarding.withUpstream s.exchange forwarded response).hopes s.exchange.next = 0
      ∧ (Forwarding.withUpstream s.exchange forwarded response).buffer s.exchange.next = none := by
  obtain ⟨hzero, hnone, hnew⟩ := h.fresh
  obtain ⟨hself, hother⟩ := ups_withUpstream s.exchange forwarded response
  have hbuffer : (Forwarding.withUpstream s.exchange forwarded response).buffer s.exchange.next = none := by
    rw [buffer, hself]
    rfl
  have hbuffer' : ∀ j ≠ s.exchange.next,
      (Forwarding.withUpstream s.exchange forwarded response).buffer j = s.exchange.buffer j := fun j hj => by
    rw [buffer, hother j hj]
    rfl
  have hhopes : (Forwarding.withUpstream s.exchange forwarded response).hopes s.exchange.next = 0 := by
    rw [hopes] at hzero
    rw [hopes, hself]
    show s.exchange.tasks.count _ + s.exchange.timers.count _ + 0 = 0
    omega
  have hhopes' : ∀ j ≠ s.exchange.next,
      (Forwarding.withUpstream s.exchange forwarded response).hopes j = s.exchange.hopes j := fun j hj => by
    rw [hopes, hother j hj]
    rfl
  refine ⟨⟨?_, fun j b hb => ?_, fun j => ?_, fun j => ?_, h.nodup, fun j hj => ?_, fun j => ?_⟩,
    hhopes, hbuffer⟩
  · show s.exchange.next + 1 = (s.passed ++ [forwarded]).length
    rw [List.length_append, List.length_singleton, h.next]
  · dsimp only at hb ⊢
    rcases lt_trichotomy j s.passed.length with hlt | heq | hgt
    · rw [hother j (by rw [h.next]; exact hlt.ne)]
      rw [List.getElem?_append_left hlt] at hb
      exact h.request j b hb
    · rw [heq, ← h.next, hself]
      rw [heq, List.getElem?_append_right le_rfl, Nat.sub_self] at hb
      exact Option.some.inj hb
    · rw [List.getElem?_eq_none (by rw [List.length_append, List.length_singleton]; omega)] at hb
      cases hb
  · dsimp only
    rcases eq_or_ne j s.exchange.next with rfl | hne
    · rw [hself]
      rfl
    · rw [hother j hne]
      exact h.reconnect j
  · dsimp only
    rcases eq_or_ne j s.exchange.next with rfl | hne
    · rw [hhopes, hbuffer]
      exact Nat.zero_le _
    · rw [hhopes' j hne, hbuffer' j hne]
      refine (h.load j).trans ?_
      show _ ≤ if j < s.exchange.next + 1 then 1 else 0
      split
      · rw [if_pos (by omega)]
      · exact Nat.zero_le _
  · have hne : j ≠ s.exchange.next := fun heq => hnew (heq ▸ hj)
    dsimp only
    rw [hbuffer' j hne]
    exact h.made j hj
  · have hstream := h.stream j
    rw [Forwarding.stream] at hstream ⊢
    dsimp only
    rcases eq_or_ne j s.exchange.next with rfl | hne
    · left
      rw [hbuffer, ← hnone]
      exact hstream.resolve_right fun hw => hnew hw.1
    · rw [hbuffer' j hne, hother j hne]
      exact hstream

/-- **A client that has nothing under way is started.** -/
theorem Kept.start (h : s.Kept) (hlt : i < s.exchange.next) (hzero : s.exchange.hopes i = 0)
    (hnone : s.exchange.buffer i = none) :
    Kept { s with exchange := s.exchange.withClient i (s.exchange.ups i).client.start } := by
  obtain ⟨hself, hother⟩ := s.exchange.ups_withClient i (s.exchange.ups i).client.start
  have hsame : ∀ j, ((s.exchange.withClient i (s.exchange.ups i).client.start).ups j).request
        = (s.exchange.ups j).request
      ∧ ((s.exchange.withClient i (s.exchange.ups i).client.start).ups j).client.reconnect
        = (s.exchange.ups j).client.reconnect
      ∧ (s.exchange.withClient i (s.exchange.ups i).client.start).buffer j = s.exchange.buffer j := by
    intro j
    rw [buffer, buffer]
    rcases eq_or_ne j i with rfl | hne
    · rw [hself]
      exact ⟨rfl, rfl, rfl⟩
    · rw [hother j hne]
      exact ⟨rfl, rfl, rfl⟩
  refine ⟨h.next, fun j b hb => (hsame j).1.trans (h.request j b hb),
    fun j => (hsame j).2.1.trans (h.reconnect j), fun j => ?_, h.nodup, fun j hj => ?_, fun j => ?_⟩
  · dsimp only
    rw [hopes_withClient, (hsame j).2.2]
    split
    · rename_i heq
      rw [heq, hnone]
      rw [hopes] at hzero
      show s.exchange.tasks.count _ + s.exchange.timers.count i
        + (1 + 0 + (s.exchange.ups i).client.connector.underWay) + 0 ≤ if i < s.exchange.next then 1 else 0
      rw [if_pos hlt]
      omega
    · exact h.load j
  · dsimp only
    rw [(hsame j).2.2]
    exact h.made j hj
  · have hstream := h.stream j
    rw [Forwarding.stream] at hstream ⊢
    dsimp only
    rw [(hsame j).2.2, (hsame j).1]
    exact hstream

theorem Kept.proxyHandler (h : s.Kept) (forwarded response : Bytes) (f : Feed) :
    Kept { s with
      exchange := s.exchange.proxyHandler true forwarded response f
      passed := s.passed ++ [forwarded] } := by
  obtain ⟨hmade, hzero, hnone⟩ := h.withUpstream forwarded response
  have hset : Carries (Forwarding.withUpstream s.exchange forwarded response)
      (s.exchange.setUserData forwarded response) := by
    rw [setUserData]
    dsimp only
    split
    · exact .refl _
    · exact carries_release _ _
  have hctx : Carries (Forwarding.withUpstream s.exchange forwarded response)
      { s.exchange.setUserData forwarded response with
        ctx := { (s.exchange.setUserData forwarded response).ctx with closeCallback := true } } :=
    hset.trans (carries_of_same rfl rfl rfl rfl)
  have hstart := (hmade.carry hctx).start (i := s.exchange.next)
    (by rw [hctx.next]; exact Nat.lt_succ_self _) (Nat.le_zero.mp ((hctx.hopes _).trans_eq hzero))
    ((hctx.buffer _).trans hnone)
  rw [Exchange.proxyHandler, if_pos rfl]
  exact hstart

/-! ## Every step -/

theorem Kept.step_request (h : s.Kept) (r : Request) (f : ℕ → Feed) : Kept (s.step (.request r f)) := by
  by_cases hopen : s.exchange.down.messageCallback = true
  · have hstep : s.exchange.step (.request r f) = s.exchange.handleRequest r f := by
      rw [Exchange.step, if_pos hopen]
    have hasks : s.exchange.asks (.request r f) = [r] := by
      rw [asks, if_pos hopen]
    cases hforwarded : r.forwarded? with
    | none =>
      rw [step_of_none (by rw [hasks, List.filterMap_cons, hforwarded]; rfl) rfl, hstep]
      exact h.carry (carries_handleRequest hforwarded f)
    | some forwarded =>
      obtain ⟨response, rfl⟩ : ∃ response, r = .proxied true forwarded response := by
        rcases r with - | r | ⟨- | -, forwarded', response⟩ <;> cases hforwarded
        exact ⟨response, rfl⟩
      have hnoted : Carries s.exchange { s.exchange with expected := s.exchange.expected ++ [response] } :=
        carries_of_same rfl rfl rfl rfl
      have hout : s.exchange.output (.request (.proxied true forwarded response) f) = none := rfl
      rw [step, hasks, hout, hstep]
      exact (h.carry hnoted).proxyHandler forwarded response (f 0)
  · have hstep : s.exchange.step (.request r f) = s.exchange := by
      rw [Exchange.step, if_neg hopen]
    rw [step_of_none (by rw [asks, if_neg hopen]; rfl) rfl, hstep]
    exact h

theorem Kept.step (h : s.Kept) (e : ExchangeEvent) : Kept (s.step e) := by
  have hcarry : s.exchange.asks e = [] → s.exchange.output e = none →
      Carries s.exchange (s.exchange.step e) → Kept (s.step e) := fun hasks hout hcarries => by
    rw [step_of_none (by rw [hasks]; rfl) hout]
    exact h.carry hcarries
  cases e with
  | request r f => exact h.step_request r f
  | downWrite events answer => exact hcarry rfl rfl (carries_withDown _ _)
  | downClose =>
    refine hcarry rfl rfl ?_
    rw [Exchange.step]
    split
    · exact carries_downClosed _ _
    · exact .refl _
  | connectWrite i err f => exact h.connectWrite i err f
  | connectError i => exact hcarry rfl rfl carries_connectError
  | retryTimer i sockfd answer => exact hcarry rfl rfl (carries_retryTimer sockfd answer)
  | upRead i n f => exact hcarry rfl rfl (carries_upRead n f)
  | upClose i sockfd answer => exact hcarry rfl rfl (carries_upClose (h.reconnect i) sockfd answer)
  | upWrite i events answer => exact h.upWrite i events answer
  | runTask env => exact hcarry rfl (output_runTask env) (carries_runTask h.reconnect env)

/-- **No request reaches its upstream twice.**  In every run of a downstream connection, whatever becomes of
the clients that are replaced or given up: a request that is passed on is written to one connection at most;
and what the kernel has taken for its upstream, with what is still in the output buffer, is nothing at all,
or the request as it was serialised, in whole and in order. -/
theorem forwarded_once (es : List ExchangeEvent) :
    let s := run step new es
    s.written.Nodup ∧ ∀ i, s.sent i ++ (s.exchange.buffer i).getD [] = []
      ∨ i ∈ s.written ∧ s.passed[i]? = some (s.sent i ++ (s.exchange.buffer i).getD []) := by
  intro s
  have h : s.Kept := inv_run (fun _ e h _ => h.step e) kept_new (meets_true new es)
  refine ⟨h.nodup, fun i => (h.stream i).imp_right fun hi => ⟨hi.1, ?_⟩⟩
  have hlt : i < s.passed.length := by
    have hload := h.load i
    rw [h.made i hi.1, if_pos rfl, h.next] at hload
    by_contra hle
    rw [if_neg hle] at hload
    omega
  have hget := List.getElem?_eq_getElem hlt
  rw [hget, ← h.request i _ hget]
  exact congrArg some hi.2.symm

/-- A request of which the kernel has taken two bytes, after an attempt that was refused. -/
example :
    let es : List ExchangeEvent :=
      [.request (.proxied true [1, 2, 3] []) fun _ => readyFeed, .runTask ⟨readyFeed, 7, .again⟩,
        .retryTimer 0 8 .progress, .connectWrite 0 false ⟨fun _ => 0, 0, .takes 2⟩]
    let s := run step new es
    s.written = [0] ∧ s.sent 0 = [1, 2] ∧ s.exchange.buffer 0 = some [3] := by decide +kernel

end Forwarding
