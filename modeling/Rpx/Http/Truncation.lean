import Rpx.Core.ByteStream
import Rpx.Http.Relay

/-!
# Http/Truncation — one response, from its upstream to the kernel

    kernel ++ _writeBuffer ++ (what the upstream has yet to send)  =  B

The end of an upstream connection is passed on as `forceClose()`, whose task closes the downstream
connection whatever its output buffer holds.  While the upstream has more to send nothing is under way
that could end either connection (`Flowing`); once it has sent everything, `B` is in the kernel and in
the buffer, and the close task finds the buffer empty or cuts the response.
-/

open Machinery

/-! ## Tasks that end a connection -/

/-- The task takes part in closing a connection. -/
def LoopTask.ends : LoopTask → Bool
  | .down .handleClose | .serverClosed | .client _ (.conn .handleClose) | .client _ .closed => true
  | _ => false

namespace Exchange

/-- **The downstream connection is closed only when the kernel has all of `B`.** -/
def Whole (B : Bytes) (x : Exchange) : Prop := x.down.state = .disconnected → x.kernel = B

/-- While the upstream of the request has more to send, nothing is closing. -/
structure Flowing (x : Exchange) : Prop where
  calm : ∀ t ∈ x.tasks, t.ends = false
  voiced : (x.ups 0).client.messageCallback = true
  others : ∀ i ≠ 0, (x.ups i).client = .new

/-- **What a run of one request keeps.** -/
structure Standing (B : Bytes) (x : Exchange) : Prop where
  wrote : x.kernel ++ x.down.writeBuffer = x.given
  relayed : x.given ++ (x.ups 0).remaining = B
  others : ∀ i ≠ 0, (x.ups i).remaining = []
  slot : x.ctx.writeCompleteCallback = none
  tuned : ∀ i, Tuned (x.ups i).client
  connected : x.down.state ≠ .connecting
  ended : LoopTask.serverClosed ∈ x.tasks → x.down.state = .disconnected
  flowing : (x.ups 0).remaining ≠ [] → Flowing x

/-- A step that loses nothing and does not close the downstream connection. -/
structure Advance (B : Bytes) (x y : Exchange) : Prop where
  standing : Standing B y
  kernel : x.kernel <+: y.kernel
  state : y.down.state = .disconnected → x.down.state = .disconnected

variable {B : Bytes} {x y z : Exchange}

/-- Everything is in the kernel, in the buffer or still to be sent. -/
theorem Standing.kernel_prefix (h : Standing B x) : x.kernel <+: B :=
  ⟨x.down.writeBuffer ++ (x.ups 0).remaining, by
    rw [← List.append_assoc, h.wrote, h.relayed]⟩

theorem Advance.whole (h : Advance B x y) (hx : Whole B x) : Whole B y := by
  intro hclosed
  have hkernel : B <+: y.kernel := hx (h.state hclosed) ▸ h.kernel
  exact h.standing.kernel_prefix.eq_of_length_le hkernel.length_le

theorem Advance.trans (h : Advance B x y) (h' : Advance B y z) : Advance B x z :=
  ⟨h'.standing, h.kernel.trans h'.kernel, fun hz => h.state (h'.state hz)⟩

/-- With a task that ends something, the upstream has sent everything. -/
theorem Standing.sent (h : Standing B x) {t : LoopTask} (ht : t ∈ x.tasks) (hends : t.ends = true) :
    (x.ups 0).remaining = [] :=
  by_contra fun hmore => Bool.false_ne_true (((h.flowing hmore).calm t ht).symm.trans hends)

/-- **Nothing that happens elsewhere** loses a byte. -/
theorem Standing.elsewhere (h : Standing B x) (hy : Elsewhere x y)
    (hflow : (x.ups 0).remaining ≠ [] → Flowing y) : Advance B x y := by
  refine ⟨⟨?_, ?_, fun i hi => (hy.remaining i).trans (h.others i hi), ?_,
    fun i => (hy.quieter i).tuned (h.tuned i), ?_, fun hmem => ?_, ?_⟩, ?_, ?_⟩
  · rw [hy.kernel, hy.down, hy.given]
    exact h.wrote
  · rw [hy.given, hy.remaining]
    exact h.relayed
  · exact hy.slot.elim (fun hs => hs.trans h.slot) id
  · rw [hy.down]
    exact h.connected
  · rw [hy.down]
    exact h.ended (hy.closing hmem)
  · rw [hy.remaining]
    exact hflow
  · rw [hy.kernel]
  · rw [hy.down]
    exact id

/-- **What the downstream connection does** without closing loses no byte either. -/
theorem Standing.withDown (h : Standing B x) {out : Outcome}
    (hstream : out.sent ++ out.conn.writeBuffer = x.down.writeBuffer)
    (hconnected : out.conn.state ≠ .connecting)
    (hstate : out.conn.state = .disconnected ↔ x.down.state = .disconnected)
    (hqueued : (x.ups 0).remaining ≠ [] → ∀ t ∈ out.queued, t ≠ .handleClose) :
    Advance B x (x.withDown out) := by
  refine ⟨⟨?_, h.relayed, h.others, h.slot, h.tuned, hconnected, fun hmem => ?_, fun hmore => ?_⟩,
    List.prefix_append _ _, hstate.mp⟩
  · show x.kernel ++ out.sent ++ out.conn.writeBuffer = x.given
    rw [List.append_assoc, hstream]
    exact h.wrote
  · rcases List.mem_append.mp hmem with hmem | hmem
    · exact hstate.mpr (h.ended hmem)
    · obtain ⟨t, -, ht⟩ := List.mem_map.mp hmem
      cases ht
  · obtain ⟨hcalm, hvoiced, hothers⟩ := h.flowing hmore
    refine ⟨fun t ht => ?_, hvoiced, hothers⟩
    rcases List.mem_append.mp ht with ht | ht
    · exact hcalm t ht
    · obtain ⟨t, hmem, rfl⟩ := List.mem_map.mp ht
      have hne := hqueued hmore t hmem
      rcases t with - | - | -
      · rfl
      · exact absurd rfl hne
      · rfl

/-! ## While the upstream has more to send -/

theorem Flowing.pop (h : Flowing x) {t : LoopTask} {rest : List LoopTask}
    (htasks : x.tasks = t :: rest) : Flowing { x with tasks := rest } :=
  ⟨fun s hs => h.calm s (htasks ▸ List.mem_cons_of_mem t hs), h.voiced, h.others⟩

/-- What a client leaves behind, when it closes nothing and keeps its message callback. -/
theorem Flowing.withClient (h : Flowing x) {i : ℕ} {out : ClientOutcome ProxyClose}
    (hqueued : ∀ t ∈ out.queued, (LoopTask.client i t).ends = false)
    (hvoiced : i = 0 → out.client.messageCallback = true) (hnew : i ≠ 0 → out.client = .new) :
    Flowing (x.withClient i out) := by
  refine ⟨fun t ht => ?_, ?_, fun j hj => ?_⟩
  · rcases List.mem_append.mp ht with ht | ht
    · exact h.calm t ht
    · obtain ⟨t, hmem, rfl⟩ := List.mem_map.mp ht
      exact hqueued t hmem
  · rcases eq_or_ne i 0 with rfl | hne
    · simpa [Exchange.withClient, setClient, setUp] using hvoiced rfl
    · simpa [Exchange.withClient, setClient, setUp, hne.symm] using h.voiced
  · rcases eq_or_ne j i with rfl | hne
    · simpa [Exchange.withClient, setClient, setUp] using hnew hj
    · simpa [Exchange.withClient, setClient, setUp, hne] using h.others j hj

/-- A client that has not been made has no connection. -/
theorem Flowing.eq_zero_of_conn (h : Flowing x) {i : ℕ} {conn : TcpConnection}
    (hconn : (x.ups i).client.conn = some conn) : i = 0 :=
  by_contra fun hne => absurd (hconn.symm.trans (congrArg TcpClient.conn (h.others i hne)))
    (Option.some_ne_none conn)

/-- A connection that writes. -/
theorem Flowing.withConn (h : Flowing x) {i : ℕ} {conn : TcpConnection}
    (hconn : (x.ups i).client.conn = some conn) {out : Outcome}
    (hqueued : ∀ t ∈ out.queued, t ≠ .handleClose) : Flowing (x.withConn i out) := by
  obtain rfl := h.eq_zero_of_conn hconn
  refine h.withClient (fun t ht => ?_) (fun _ => h.voiced) fun hne => absurd rfl hne
  obtain ⟨t, hmem, rfl⟩ := List.mem_map.mp ht
  have hne := hqueued t hmem
  rcases t with - | - | -
  · rfl
  · exact absurd rfl hne
  · rfl

theorem messageCallback_withConnector (c : TcpClient ProxyClose) (out : ConnectorOutcome) :
    (c.withConnector out).client.messageCallback = c.messageCallback := by
  rw [TcpClient.withConnector]
  dsimp only
  split <;> rfl

/-- The connector of a client; one that has not been made does nothing. -/
theorem Flowing.withClient_connector (h : Flowing x) {i : ℕ} {out : ConnectorOutcome}
    (hnew : i ≠ 0 → out = Connector.new.quiet) :
    Flowing (x.withClient i ((x.ups i).client.withConnector out)) := by
  refine h.withClient (fun t ht => ?_) (fun hi => ?_) fun hne => ?_
  · obtain ⟨t, -, rfl⟩ := List.mem_map.mp ht
    rfl
  · rw [messageCallback_withConnector, hi]
    exact h.voiced
  · rw [hnew hne, h.others i hne]
    rfl

theorem Flowing.withConnector (h : Flowing x) {i : ℕ} {out : ConnectorOutcome}
    (hnew : i ≠ 0 → out = Connector.new.quiet) (f : Feed) :
    Flowing (x.withConnector i out f) := by
  have hconnector := h.withClient_connector hnew
  rw [Exchange.withConnector]
  dsimp only
  split
  · rename_i conn _ hconn
    refine hconnector.withConn hconn fun t ht hclose => ?_
    have hcomplete := (conn.write_outputOnly _ _ _ _).queued t ht
    rw [hcomplete] at hclose
    cases hclose
  · exact hconnector

/-! ## One step -/

/-- A `write()` of `bs` does not fail, and finds its bytes where `data` is. -/
def Finds (c : TcpConnection) (bs : Bytes) (f : Feed) : Prop :=
  if c.pending then (Pointer.ofBytes bs f.around).read f.junk bs.length = bs
  else f.answer ≠ .fails .other

instance (c : TcpConnection) (bs : Bytes) (f : Feed) : Decidable (Finds c bs f) :=
  inferInstanceAs (Decidable (if c.pending then
    (Pointer.ofBytes bs f.around).read f.junk bs.length = bs else f.answer ≠ .fails .other))

/-- Such a `write()` puts its bytes on their way. -/
theorem Finds.carried {c : TcpConnection} {bs : Bytes} {f : Feed} (h : Finds c bs f) :
    c.carried (Pointer.ofBytes bs f.around) bs.length f.junk f.answer = bs := by
  rw [Finds] at h
  rw [TcpConnection.carried]
  split at h
  · rename_i hpending
    rw [if_pos hpending]
    exact h
  · rename_i hpending
    rw [if_neg hpending, if_neg h]
    exact Pointer.read_ofBytes _ _

/-- **The runs meant**: no other request comes, the client does not close, no `write()` fails, the
upstream closes once it has sent everything, and every `write()` finds its bytes. -/
def Relays (x : Exchange) : ExchangeEvent → Prop
  | .request _ _ | .downClose => False
  | .upRead i n f => Finds x.down ((x.ups i).remaining.take n) f
  | .upClose i _ _ => (x.ups i).remaining = []
  | _ => True

instance (x : Exchange) : DecidablePred x.Relays
  | .request _ _ | .downClose => .isFalse id
  | .upRead _ _ _ => inferInstanceAs (Decidable (Finds _ _ _))
  | .upClose _ _ _ => inferInstanceAs (Decidable (_ = _))
  | .downWrite _ _ | .connectWrite _ _ _ | .connectError _ | .retryTimer _ _ _ | .upWrite _ _ _
  | .runTask _ => .isTrue trivial

/-- **The close task finds the output buffer empty.** -/
def Drained (x : Exchange) : ExchangeEvent → Prop
  | .runTask _ => x.tasks.head? = some (.down .handleClose) → x.down.writeBuffer = []
  | _ => True

theorem Advance.refl (h : Standing B x) : Advance B x x := ⟨h, List.prefix_refl _, id⟩

/-- The bytes of the upstream are passed on. -/
theorem Standing.relay (h : Standing B x) {n : ℕ} {f : Feed}
    (hf : Finds x.down ((x.ups 0).remaining.take n) f) :
    Advance B x ((x.send ((x.ups 0).remaining.take n) f).2.setUp 0
      { x.ups 0 with remaining := (x.ups 0).remaining.drop n }) := by
  have hstream := x.down.write_stream (Pointer.ofBytes ((x.ups 0).remaining.take n) f.around)
    ((x.ups 0).remaining.take n).length f.junk f.answer
  rw [hf.carried] at hstream
  have hout := x.down.write_outputOnly (Pointer.ofBytes ((x.ups 0).remaining.take n) f.around)
    ((x.ups 0).remaining.take n).length f.junk f.answer
  have hwrote : x.kernel ++ (x.down.write (Pointer.ofBytes ((x.ups 0).remaining.take n) f.around)
        ((x.ups 0).remaining.take n).length f.junk f.answer).2.sent
      ++ (x.down.write (Pointer.ofBytes ((x.ups 0).remaining.take n) f.around)
        ((x.ups 0).remaining.take n).length f.junk f.answer).2.conn.writeBuffer
      = x.given ++ (x.ups 0).remaining.take n := by
    rw [List.append_assoc, hstream, ← List.append_assoc, h.wrote]
  obtain ⟨hself, hother⟩ := ups_setUp (x.send ((x.ups 0).remaining.take n) f).2 0
    { x.ups 0 with remaining := (x.ups 0).remaining.drop n }
  refine ⟨⟨hwrote, ?_, fun j hj => ?_, h.slot, fun j => ?_,
    fun hc => h.connected (hout.state.symm.trans hc), fun hmem => ?_, fun hmore => ?_⟩,
    List.prefix_append _ _, fun hd => hout.state.symm.trans hd⟩
  · rw [hself]
    show x.given ++ (x.ups 0).remaining.take n ++ (x.ups 0).remaining.drop n = B
    rw [List.append_assoc, List.take_append_drop]
    exact h.relayed
  · rw [hother j hj]
    exact h.others j hj
  · rcases eq_or_ne j 0 with rfl | hj
    · rw [hself]
      exact h.tuned 0
    · rw [hother j hj]
      exact h.tuned j
  · rcases List.mem_append.mp hmem with hmem | hmem
    · exact hout.state.trans (h.ended hmem)
    · obtain ⟨t, -, ht⟩ := List.mem_map.mp hmem
      cases ht
  · rw [hself] at hmore
    obtain ⟨hcalm, hvoiced, hothers⟩ := h.flowing fun hnil => hmore (by simp [hnil])
    refine ⟨fun t ht => ?_, hself ▸ hvoiced, fun j hj => hother j hj ▸ hothers j hj⟩
    rcases List.mem_append.mp ht with ht | ht
    · exact hcalm t ht
    · obtain ⟨t, hmem, rfl⟩ := List.mem_map.mp ht
      rw [hout.queued t hmem]
      rfl

/-- **Bytes from an upstream** are passed on, all of them. -/
theorem Standing.upRead (h : Standing B x) {i n : ℕ} {f : Feed} (he : x.Relays (.upRead i n f)) :
    Advance B x (x.step (.upRead i n f)) := by
  by_cases hnil : (x.ups i).remaining = []
  · rw [upRead_of_nil hnil]
    exact .refl h
  · obtain rfl : i = 0 := by_contra fun hi => hnil (h.others i hi)
    rcases upRead_cases (h.tuned 0) n f with hsame | ⟨-, -, hy⟩ | ⟨hmute, -⟩
    · rw [hsame]
      exact .refl h
    · rw [hy]
      exact h.relay he
    · exact absurd (hmute.1.symm.trans (h.flowing hnil).voiced) Bool.false_ne_true

/-- The downstream socket becomes writable. -/
theorem Standing.downWrite (h : Standing B x) (events : EpollMask) (answer : WriteAnswer) :
    Advance B x (x.step (.downWrite events answer)) := by
  have hout := TcpConnection.handleWrite_outputOnly
    { x.down with channel := x.down.channel.setEvents events } answer
  refine h.withDown (TcpConnection.handleWrite_stream _ answer) (fun hc => ?_) ?_ fun _ t ht hclose => ?_
  · exact h.connected (hout.state.symm.trans hc)
  · rw [hout.state]
  · cases (hout.queued t ht).symm.trans hclose

/-- What happens to the connector of a client. -/
theorem Standing.connectWrite (h : Standing B x) (i : ℕ) (err : Bool) (f : Feed) :
    Advance B x (x.step (.connectWrite i err f)) := by
  refine h.elsewhere (x.elsewhere_connectWrite err f) fun hmore => ?_
  rw [step]
  split
  · rename_i hpolled
    refine (h.flowing hmore).withConnector (fun hi => ?_) f
    rw [(h.flowing hmore).others i hi] at hpolled
    exact absurd hpolled Bool.false_ne_true
  · exact h.flowing hmore

theorem Standing.connectError (h : Standing B x) (i : ℕ) :
    Advance B x (x.step (.connectError i)) := by
  refine h.elsewhere x.elsewhere_connectError fun hmore => ?_
  rw [step]
  split
  · rename_i hpolled
    refine (h.flowing hmore).withClient_connector fun hi => ?_
    rw [(h.flowing hmore).others i hi] at hpolled
    exact absurd hpolled Bool.false_ne_true
  · exact h.flowing hmore

theorem Standing.retryTimer (h : Standing B x) (i : ℕ) (sockfd : Fd) (answer : ConnectAnswer) :
    Advance B x (x.step (.retryTimer i sockfd answer)) := by
  refine h.elsewhere (x.elsewhere_retryTimer sockfd answer) fun hmore => ?_
  have hflow := h.flowing hmore
  rw [step]
  split
  · have hfired : Flowing { x with timers := x.timers.erase i } :=
      ⟨hflow.calm, hflow.voiced, hflow.others⟩
    refine hfired.withClient_connector fun hi => ?_
    rw [hflow.others i hi]
    exact Connector.attempt_new sockfd answer
  · exact hflow

/-- The upstream closes, having sent everything. -/
theorem Standing.upClose (h : Standing B x) (i : ℕ) (sockfd : Fd) (answer : ConnectAnswer)
    (hsent : (x.ups i).remaining = []) : Advance B x (x.step (.upClose i sockfd answer)) := by
  refine h.elsewhere (x.elsewhere_upClose sockfd answer) fun hmore => ?_
  have hi : i ≠ 0 := fun hi => hmore (hi ▸ hsent)
  rw [step, (h.flowing hmore).others i hi]
  exact h.flowing hmore

theorem Standing.upWrite (h : Standing B x) (i : ℕ) (events : EpollMask) (answer : WriteAnswer) :
    Advance B x (x.step (.upWrite i events answer)) := by
  refine h.elsewhere (x.elsewhere_upWrite events answer) fun hmore => ?_
  rw [step]
  rcases hconn : (x.ups i).client.conn with - | conn
  · exact h.flowing hmore
  · refine (h.flowing hmore).withConn hconn fun t ht hclose => ?_
    cases ((TcpConnection.handleWrite_outputOnly _ answer).queued t ht).symm.trans hclose

/-! ## Tasks -/

/-- A task of the connection of a client, while the upstream has more to send. -/
theorem Flowing.connTask (h : Flowing x) (i : ℕ) {t : ConnTask} (ht : t ≠ .handleClose)
    (env : TaskEnv) : Flowing (x.runTask env (.client i (.conn t))) := by
  rcases hconn : (x.ups i).client.conn with - | conn
  · rcases t with - | - | - <;> simpa only [runTask, runClientTask, hconn] using h
  · rcases t with - | - | -
    · simp only [runTask, runClientTask, hconn]
      exact h.withConn hconn fun t ht => absurd ht List.not_mem_nil
    · exact absurd rfl ht
    · simp only [runTask, runClientTask, hconn]
      exact h.withConn hconn fun t ht => absurd ht List.not_mem_nil

/-- `connectDestroyed` after `handleClose`. -/
theorem connectDestroyed_of_disconnected {c : TcpConnection} (h : c.state = .disconnected) :
    c.connectDestroyed = { c with channel := c.channel.remove } := by
  have hne : ¬ c.state = .established := by rw [h]; decide
  rw [TcpConnection.connectDestroyed, if_neg hne]

/-- `forceClose()` keeps the output, and leaves the closing to its task. -/
theorem Standing.forceClose (h : Standing B x) (hsent : (x.ups 0).remaining = []) :
    Advance B x x.forceClose := by
  rw [Exchange.forceClose, TcpConnection.forceClose]
  split
  · rename_i hstate
    refine h.withDown rfl (by simp) ?_ fun hmore => absurd hsent hmore
    simp [hstate]
  · exact h.withDown rfl h.connected Iff.rfl fun hmore => absurd hsent hmore

/-- **Every task but the close task of the downstream connection** loses no byte. -/
theorem Standing.runTask (h : Standing B x) (env : TaskEnv)
    (ht : x.tasks.head? ≠ some (.down .handleClose)) : Advance B x (x.step (.runTask env)) := by
  rw [step]
  rcases htasks : x.tasks with - | ⟨t, rest⟩
  · exact .refl h
  have hpop : Advance B x { x with tasks := rest } :=
    h.elsewhere (x.elsewhere_pop htasks) fun hmore => (h.flowing hmore).pop htasks
  have hmem : t ∈ x.tasks := htasks ▸ List.mem_cons_self
  dsimp only
  refine hpop.trans ?_
  have hp := hpop.standing
  rcases t with (- | - | -) | - | ⟨i, t | t | -⟩
  · rw [Exchange.runTask]
    split
    · rename_i r _ hr
      cases hp.slot.symm.trans hr
    · exact .refl hp
  · rw [htasks] at ht
    exact absurd rfl ht
  · show Advance B _ (Exchange.withDown _ (TcpConnection.runTask _ .shutdownWrite))
    exact hp.withDown rfl hp.connected Iff.rfl fun _ t ht => absurd ht List.not_mem_nil
  · have hsent := h.sent hmem rfl
    have hclosed : Advance B { x with tasks := rest }
        { x with tasks := rest, down := { x.down with channel := x.down.channel.remove } } :=
      ⟨⟨hp.wrote, hp.relayed, hp.others, hp.slot, hp.tuned, hp.connected, hp.ended,
        fun hmore => absurd hsent hmore⟩, List.prefix_refl _, id⟩
    rw [Exchange.runTask, connectDestroyed_of_disconnected (h.ended hmem)]
    exact hclosed.trans (hclosed.standing.elsewhere (elsewhere_deleteConnection _)
      fun hmore => absurd hsent hmore)
  · refine hp.elsewhere (elsewhere_withConnector _ i _ env.feed) fun hmore => ?_
    refine (hp.flowing hmore).withConnector (fun hi => ?_) env.feed
    rw [(hp.flowing hmore).others i hi]
    exact Connector.runTask_new env.sockfd env.answer t
  · refine hp.elsewhere (elsewhere_connTask env t) fun hmore => (hp.flowing hmore).connTask i ?_ env
    rintro rfl
    exact hmore (h.sent hmem rfl)
  · have hsent := h.sent hmem rfl
    obtain ⟨y, hy, hsame | hclose⟩ := closedTask_cases (x := { x with tasks := rest }) (i := i) env
    · rw [hsame]
      exact hp.elsewhere hy fun hmore => absurd hsent hmore
    · rw [hclose]
      have hadv := hp.elsewhere hy fun hmore => absurd hsent hmore
      exact hadv.trans (hadv.standing.forceClose ((hy.remaining 0).trans hsent))

/-! ## The close task -/

/-- **The close task closes the connection and keeps its output where it is.** -/
theorem Standing.closeTask (h : Standing B x) (hsent : (x.ups 0).remaining = []) :
    Standing B (x.downClosed x.down.handleClose)
      ∧ (x.downClosed x.down.handleClose).kernel = x.kernel
      ∧ (x.downClosed x.down.handleClose).down.state = .disconnected := by
  have hnothing := x.down.sent_handleClose
  have hbuffer := x.down.writeBuffer_handleClose
  have hstate : x.down.handleClose.conn.state = .disconnected := by
    rw [TcpConnection.handleClose]
    split
    · rfl
    · rename_i hopen
      rcases hstate : x.down.state with - | - | - | -
      · exact absurd hstate h.connected
      · exact absurd (.inl hstate) hopen
      · exact absurd (.inr hstate) hopen
      · exact hstate
  have hkernel : x.kernel ++ x.down.handleClose.sent = x.kernel := by
    rw [hnothing, List.append_nil]
  have hwrote : x.kernel ++ x.down.handleClose.sent ++ x.down.handleClose.conn.writeBuffer
      = x.given := by
    rw [hkernel, hbuffer]
    exact h.wrote
  have hopen : x.down.handleClose.conn.state ≠ .connecting := by rw [hstate]; decide
  rw [downClosed]
  split <;> exact ⟨⟨hwrote, h.relayed, h.others, h.slot, h.tuned, hopen, fun _ => hstate,
    fun hmore => absurd hsent hmore⟩, hkernel, hstate⟩

/-- Once the upstream has sent everything, the kernel has it all when the buffer is empty. -/
theorem Standing.kernel_eq_iff (h : Standing B x) (hsent : (x.ups 0).remaining = []) :
    x.kernel = B ↔ x.down.writeBuffer = [] := by
  have hall : x.kernel ++ x.down.writeBuffer = B := by
    rw [h.wrote, ← h.relayed, hsent, List.append_nil]
  constructor
  · intro hk
    exact List.append_right_eq_self.mp (hall.trans hk.symm)
  · intro hnil
    rw [hnil, List.append_nil] at hall
    exact hall

/-- **One step keeps what stands, and keeps the response whole exactly when it is drained.** -/
theorem Standing.step (h : Standing B x) {e : ExchangeEvent} (he : x.Relays e) :
    Standing B (x.step e) ∧ (Whole B x → (Whole B (x.step e) ↔ x.Drained e)) := by
  have hadvance : Advance B x (x.step e) → x.Drained e →
      Standing B (x.step e) ∧ (Whole B x → (Whole B (x.step e) ↔ x.Drained e)) :=
    fun hadv hdrained => ⟨hadv.standing, fun hx => ⟨fun _ => hdrained, fun _ => hadv.whole hx⟩⟩
  cases e with
  | request r f => exact he.elim
  | downWrite events answer => exact hadvance (h.downWrite events answer) trivial
  | downClose => exact he.elim
  | connectWrite i err f => exact hadvance (h.connectWrite i err f) trivial
  | connectError i => exact hadvance (h.connectError i) trivial
  | retryTimer i sockfd answer => exact hadvance (h.retryTimer i sockfd answer) trivial
  | upRead i n f => exact hadvance (h.upRead he) trivial
  | upClose i sockfd answer => exact hadvance (h.upClose i sockfd answer he) trivial
  | upWrite i events answer => exact hadvance (h.upWrite i events answer) trivial
  | runTask env =>
    by_cases hhead : x.tasks.head? = some (.down .handleClose)
    · obtain ⟨rest, htasks⟩ := List.head?_eq_some_iff.mp hhead
      have hmem : LoopTask.down .handleClose ∈ x.tasks := htasks ▸ List.mem_cons_self
      have hsent := h.sent hmem rfl
      have hp := (h.elsewhere (x.elsewhere_pop htasks) fun hmore => absurd hsent hmore).standing
      have hstep : x.step (.runTask env)
          = Exchange.downClosed { x with tasks := rest } x.down.handleClose := by
        rw [Exchange.step, htasks]
        rfl
      obtain ⟨hclosed, hkernel, hstate⟩ := hp.closeTask hsent
      rw [hstep]
      refine ⟨hclosed, fun _ => ⟨fun hwhole _ => ?_, fun hdrained _ => ?_⟩⟩
      · exact (hp.kernel_eq_iff hsent).mp (hkernel.symm.trans (hwhole hstate))
      · exact hkernel.trans ((hp.kernel_eq_iff hsent).mpr (hdrained hhead))
    · exact hadvance (h.runTask env hhead) fun hclose => absurd hclose hhead

/-! ## Every run of one request -/

/-- The connection after its one request has been dispatched; `B` is what the upstream will send. -/
def proxying (forwarded B : Bytes) (f : ℕ → Feed) : Exchange :=
  opened.step (.request (.proxied true forwarded B) f)

theorem standing_proxying (forwarded B : Bytes) (f : ℕ → Feed) :
    Standing B (proxying forwarded B f) := by
  have hself : (proxying forwarded B f).ups 0 = ⟨proxyClient.start.client, forwarded, B⟩ := rfl
  have hother : ∀ i ≠ 0, (proxying forwarded B f).ups i = ⟨.new, [], []⟩ := fun i hi =>
    (Function.update_of_ne hi _ _).trans (Function.update_of_ne hi _ _)
  refine ⟨rfl, rfl, fun i hi => ?_, rfl, fun i => ?_, nofun, fun hmem => ?_, fun _ => ⟨?_, rfl, ?_⟩⟩
  · rw [hother i hi]
  · rcases eq_or_ne i 0 with rfl | hi
    · exact .of_none rfl
    · rw [hother i hi]
      exact .of_none rfl
  · cases List.mem_singleton.mp hmem
  · intro t ht
    rw [List.mem_singleton.mp ht]
    rfl
  · intro i hi
    rw [hother i hi]

/-- **The proxy truncates no response, exactly.**  At every moment of a run of one request, a closed
downstream connection has handed all of the response to the kernel, if and only if each close task of
the run finds the output buffer empty. -/
theorem whole_iff_drained (forwarded B : Bytes) (f : ℕ → Feed) (es : List ExchangeEvent)
    (h : Meets Exchange.step Relays (proxying forwarded B f) es) :
    (∀ js, js <+: es → Whole B (run Exchange.step (proxying forwarded B f) js))
      ↔ Meets Exchange.step Drained (proxying forwarded B f) es :=
  forall_prefix_iff (fun _ _ hx hg => (hg.1.step hg.2).2 hx) nofun
    (h.and_inv (fun _ _ hs he => (hs.step he).1) (standing_proxying forwarded B f))

/-- A response of two bytes that the kernel takes one by one, before the upstream closes. -/
theorem whole_iff_drained_slow :
    let f : Feed := ⟨fun _ => 0, 0, .takes 1⟩
    let es : List ExchangeEvent :=
      [.runTask ⟨f, 7, .progress⟩, .connectWrite 0 false f, .runTask ⟨f, 7, .progress⟩,
        .upRead 0 2 f, .downWrite .out (.takes 1), .upClose 0 8 .progress, .runTask ⟨f, 8, .progress⟩,
        .runTask ⟨f, 8, .progress⟩, .runTask ⟨f, 8, .progress⟩]
    (∀ js, js <+: es → Whole [1, 2] (run Exchange.step (proxying [3] [1, 2] fun _ => f) js))
      ↔ Meets Exchange.step Drained (proxying [3] [1, 2] fun _ => f) es :=
  whole_iff_drained [3] [1, 2] _ _ (by decide +kernel)

/-- **A response whose client is slower than its upstream is cut short.**  The kernel has taken one of
two bytes when the upstream closes; the other is still in the output buffer when the connection is
closed. -/
theorem upstream_close_truncates :
    let f : Feed := ⟨fun _ => 0, 0, .takes 1⟩
    let es : List ExchangeEvent :=
      [.runTask ⟨f, 7, .progress⟩, .connectWrite 0 false f, .runTask ⟨f, 7, .progress⟩,
        .upRead 0 2 f, .upClose 0 8 .progress, .runTask ⟨f, 8, .progress⟩, .runTask ⟨f, 8, .progress⟩]
    Meets Exchange.step Relays (proxying [3] [1, 2] fun _ => f) es
      ∧ ¬ Whole [1, 2] (run Exchange.step (proxying [3] [1, 2] fun _ => f) es) := by
  refine ⟨by decide +kernel, fun h => ?_⟩
  exact absurd (h (by decide +kernel)) (by decide +kernel)

end Exchange
