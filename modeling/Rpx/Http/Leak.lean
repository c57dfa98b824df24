import Rpx.Http.Ownership

/-!
# Http/Leak — whether a proxied client is let go

    deleteConnection ──▶ the client holds itself ──▶ close task of its upstream ──▶ nothing holds it

At the end of the downstream connection the client gets a close callback that holds it.  Only running
that callback lets it go again, and only the close task of its upstream connection runs it.  `due`
counts what is still to come of that: the close callback of an open connection, or its close task.

`Follows v w` is what a step other than the end of the context may do to one client.  Along it `due`
stays as it is, or the client is told and lets go.
-/

open Machinery

namespace Exchange

/-! ## Connections the poller watches -/

/-- **Armed**: the poller watches a connection while its close callback is to run, and no message
callback outlives that. -/
structure Armed (c : TcpConnection) : Prop where
  watched : c.closeCallback = true → watched c = true
  message : c.messageCallback = true → c.closeCallback = true

/-- From `c` to `d` a connection hears nothing new, and stays watched while it is open. -/
structure Carried (c d : TcpConnection) : Prop where
  closeCallback : d.closeCallback = c.closeCallback
  message : d.messageCallback = true → c.messageCallback = true
  watched : d.closeCallback = true → watched c = true → watched d = true

theorem Armed.carried {c d : TcpConnection} (h : Armed c) (hd : Carried c d) : Armed d := by
  refine ⟨fun hclose => ?_, fun hm => ?_⟩
  · exact hd.watched hclose (h.watched (hd.closeCallback ▸ hclose))
  · rw [hd.closeCallback]
    exact h.message (hd.message hm)

variable {c d e : TcpConnection}

theorem Carried.trans (h : Carried c d) (h' : Carried d e) : Carried c e :=
  ⟨h'.closeCallback.trans h.closeCallback, fun hm => h.message (h'.message hm), fun ho hw =>
    h'.watched ho (h.watched (h'.closeCallback ▸ ho) hw)⟩

theorem Carried.of_channel (hcallbacks : d.callbacks = c.callbacks) (hchannel : d.channel = c.channel) :
    Carried c d := by
  have hmessage : d.messageCallback = c.messageCallback := congrArg (·.1) hcallbacks
  refine ⟨congrArg (·.2.2.1) hcallbacks, fun hm => hmessage ▸ hm, fun _ hw => ?_⟩
  rw [Exchange.watched, polled, hchannel]
  exact hw

/-- A connection that goes on reading stays in the epoll set. -/
theorem Carried.of_interests (hcallbacks : d.callbacks = c.callbacks) {m : EpollMask}
    (hchannel : d.channel = Channel.applyInterest { c.channel with interests := m })
    (hread : d.channel.hasReadInterest = c.channel.hasReadInterest) : Carried c d := by
  have hmessage : d.messageCallback = c.messageCallback := congrArg (·.1) hcallbacks
  refine ⟨congrArg (·.2.2.1) hcallbacks, fun hm => hmessage ▸ hm, fun _ hw => ?_⟩
  obtain ⟨hregistered, hreading⟩ := Bool.and_eq_true_iff.mp hw
  have hm : d.channel.interests = m := by rw [hchannel, Channel.interests_applyInterest]
  have hnone : Channel.hasNoneInterest { c.channel with interests := m } = false := by
    refine Bool.eq_false_iff.mpr fun hnone => ?_
    have hm' : m = .none := beq_iff_eq.mp hnone
    rw [← hread, Channel.hasReadInterest, hm, hm'] at hreading
    cases hreading
  refine Bool.and_eq_true_iff.mpr ⟨?_, hread.trans hreading⟩
  rw [polled, hchannel]
  exact Channel.registered_applyInterest hnone hregistered

theorem carried_enqueue (c : TcpConnection) (data : Pointer) (written : ℤ) (remaining : ℕ) :
    Carried c (c.enqueue data written remaining) := by
  unfold TcpConnection.enqueue
  split
  · dsimp only
    split
    · exact .of_interests rfl rfl (Channel.hasReadInterest_setWriteInterest _)
    · exact .of_channel rfl rfl
  · exact .of_channel rfl rfl

theorem carried_write (c : TcpConnection) (data : Pointer) (len : ℕ) (junk : ℤ)
    (answer : WriteAnswer) : Carried c (c.write data len junk answer).2.conn := by
  by_cases hp : c.pending = true
  · rw [c.write_of_pending hp]
    exact carried_enqueue c data junk len
  · rw [c.write_of_not_pending (Bool.not_eq_true _ ▸ hp)]
    rcases answer.result len with (- | -) | n
    · exact carried_enqueue c data 0 len
    · exact .of_channel rfl rfl
    · dsimp only
      split
      · exact .of_channel rfl rfl
      · exact carried_enqueue c data n _

/-- The poller reports events, and the connection writes. -/
theorem carried_handleWrite (c : TcpConnection) (events : EpollMask) (answer : WriteAnswer) :
    Carried c (TcpConnection.handleWrite { c with
      channel := c.channel.setEvents events } answer).conn := by
  have hset : Carried c { c with channel := c.channel.setEvents events } := ⟨rfl, id, fun _ => id⟩
  refine hset.trans ?_
  rw [TcpConnection.handleWrite]
  split
  · rcases answer.result _ with (- | -) | n
    · exact .of_channel rfl rfl
    · exact .of_channel rfl rfl
    · dsimp only
      split
      · exact .of_interests rfl rfl (Channel.hasReadInterest_unsetWriteInterest _)
      · exact .of_channel rfl rfl
  · exact .of_channel rfl rfl

theorem carried_forceClose (c : TcpConnection) : Carried c c.forceClose.conn := by
  rw [TcpConnection.forceClose]
  split <;> exact .of_channel rfl rfl

/-- `handleClose()` of a connection that runs no close callback. -/
theorem carried_handleClose (hcalled : c.handleClose.called = []) : Carried c c.handleClose.conn := by
  have hcases := c.handleClose_cases
  rw [hcalled] at hcases
  obtain ⟨-, hclose, hmessage⟩ := hcases.resolve_left fun h => by simpa using h.2.1
  refine ⟨hclose, hmessage, fun hopen hw => ?_⟩
  rw [TcpConnection.handleClose] at hcalled hopen ⊢
  split at hopen
  · cases hopen
  · rename_i hstate
    rwa [if_neg hstate]

/-- A connection just made. -/
theorem armed_connectEstablished (message writeComplete : Bool) :
    Armed (TcpConnection.new message writeComplete true false).connectEstablished :=
  ⟨fun _ => rfl, fun _ => rfl⟩

/-! ## What a step may do to one client -/

/-- `1` while its close callback, or its close task, is still to come. -/
def View.due (v : View) : ℕ := v.closeds + v.opened

/-- Every connection of the client is armed. -/
def View.Armed (v : View) : Prop := ∀ conn ∈ v.client.conn, Exchange.Armed conn

/-- **From `v` to `w` a client is given nothing new**, and if its connector is stopped, what is due
stays due or has come, and the client lets go of itself. -/
structure Follows (v w : View) : Prop where
  armed : v.Armed → w.Armed
  message : w.client.messageCallback = true → v.client.messageCallback = true
  forward : w.client.closeCallback = some .forward → v.client.closeCallback = some .forward
  running : w.client.connector.running = true → v.client.connector.running = true
  settles : v.client.connector.running = false →
    w.due = v.due ∧ (w.client.closeCallback = some .hold ↔ v.client.closeCallback = some .hold)
      ∨ 0 < v.due ∧ w.client.closeCallback ≠ some .hold

namespace Follows

variable {u v w : View}

theorem refl (v : View) : Follows v v := ⟨id, id, id, id, fun _ => .inl ⟨rfl, .rfl⟩⟩

theorem trans (h : Follows u v) (h' : Follows v w) : Follows u w := by
  refine ⟨fun ha => h'.armed (h.armed ha), fun hm => h.message (h'.message hm),
    fun hf => h.forward (h'.forward hf), fun hr => h.running (h'.running hr), fun hstop => ?_⟩
  have hstop' : v.client.connector.running = false :=
    Bool.eq_false_iff.mpr (mt h.running (Bool.eq_false_iff.mp hstop))
  rcases h.settles hstop, h'.settles hstop' with ⟨⟨hdue, hhold⟩ | ⟨hpos, hnot⟩,
    ⟨hdue', hhold'⟩ | ⟨hpos', hnot'⟩⟩
  · exact .inl ⟨hdue'.trans hdue, hhold'.trans hhold⟩
  · exact .inr ⟨hdue ▸ hpos', hnot'⟩
  · exact .inr ⟨hpos, mt hhold'.mp hnot⟩
  · exact .inr ⟨hpos, hnot'⟩

/-- The connection and the callbacks are as they were. -/
theorem of_conn (hconn : w.client.conn = v.client.conn)
    (hmessage : w.client.messageCallback = v.client.messageCallback)
    (hclose : w.client.closeCallback = v.client.closeCallback)
    (hrunning : w.client.connector.running = true → v.client.connector.running = true)
    (hcloseds : w.closeds = v.closeds) : Follows v w := by
  refine ⟨fun ha => ?_, fun hm => hmessage ▸ hm, fun hf => hclose ▸ hf, hrunning, fun _ => .inl ⟨?_, ?_⟩⟩
  · rw [View.Armed, hconn]
    exact ha
  · rw [View.due, View.opened, TcpClient.isOpen, hconn, hcloseds]
    rfl
  · rw [hclose]

/-- The connection does something, but runs no close callback. -/
theorem setConn (hconn : v.client.conn = some c) (h : Carried c d) :
    Follows v { v with client := { v.client with conn := some d } } := by
  refine ⟨fun ha => ?_, id, id, id, fun _ => .inl ⟨?_, .rfl⟩⟩
  · rintro _ ⟨⟩
    exact (ha c hconn).carried h
  · simp [View.due, View.opened, TcpClient.isOpen, hconn, h.closeCallback]

/-- The connector does something. -/
theorem withConnector {out : ConnectorOutcome}
    (hrunning : out.connector.running = true → v.client.connector.running = true)
    (hhanded : out.handed.isSome = true → v.client.connector.running = true) :
    Follows v (v.after (v.client.withConnector out)) := by
  obtain ⟨-, hcloseds⟩ := count_map_connector out.queued
  rcases hh : out.handed with - | fd
  · refine of_conn ?_ ?_ ?_ ?_ ?_ <;> simp [View.after, TcpClient.withConnector, hh, hcloseds]
    exact hrunning
  · have hrun : v.client.connector.running = true := hhanded (hh ▸ rfl)
    have hclient : (v.after (v.client.withConnector out)).client
        = { v.client with connector := out.connector }.newConnection := by
      simp [View.after, TcpClient.withConnector, hh]
    refine ⟨fun _ => ?_, fun hm => ?_, fun hf => ?_, fun _ => hrun, fun hstop => ?_⟩
    · rw [View.Armed, hclient]
      rintro _ ⟨⟩
      exact armed_connectEstablished _ _
    · rw [hclient] at hm
      exact hm
    · rw [hclient] at hf
      exact hf
    · exact absurd (hstop.symm.trans hrun) Bool.false_ne_true

/-- **The close callback of an open connection**: what is due is the close task now. -/
theorem handleClose (hconn : v.client.conn = some c) (hopen : c.closeCallback = true)
    (hcallbacks : d.callbacks = (false, false, false, false))
    (hreconnect : v.client.reconnect = false) (sockfd : Fd) (answer : ConnectAnswer) :
    Follows v (View.after { v with client := { v.client with conn := some d } }
      (TcpClient.handleClose { v.client with conn := some d } sockfd answer)) := by
  have hclose : d.closeCallback = false := congrArg (·.2.2.1) hcallbacks
  have hmessage : d.messageCallback = false := congrArg (·.1) hcallbacks
  rw [View.after_handleClose { v with client := { v.client with conn := some d } } hreconnect]
  refine ⟨fun _ => ?_, id, id, id, fun _ => .inl ⟨?_, .rfl⟩⟩
  · rintro _ ⟨⟩
    exact ⟨fun h => absurd (hclose.symm.trans h) Bool.false_ne_true,
      fun h => absurd (hmessage.symm.trans h) Bool.false_ne_true⟩
  · simp [View.due, View.opened, TcpClient.isOpen, hconn, hopen, hclose]

/-- **The close task of its connection**: what was due has come. -/
theorem told (hdue : 0 < v.due) (hopen : v.client.isOpen = false)
    (hconn : w.client.conn = v.client.connectDestroyed.conn)
    (hmessage : w.client.messageCallback = v.client.messageCallback)
    (hconnector : w.client.connector = v.client.connector)
    (hforward : w.client.closeCallback = some .forward → v.client.closeCallback = some .forward)
    (hhold : w.client.closeCallback ≠ some .hold) : Follows v w := by
  refine ⟨fun ha => ?_, fun hm => hmessage ▸ hm, hforward, fun hr => hconnector ▸ hr,
    fun _ => .inr ⟨hdue, hhold⟩⟩
  rw [View.Armed, hconn]
  intro _ hmem
  obtain ⟨conn, hv, rfl⟩ := Option.map_eq_some_iff.mp hmem
  have hcallbacks := conn.callbacks_connectDestroyed
  have hshut : conn.closeCallback = false := by simpa [TcpClient.isOpen, hv] using hopen
  have hshut' : conn.connectDestroyed.closeCallback = false :=
    (congrArg (·.2.2.1) hcallbacks).trans hshut
  have hsame : conn.connectDestroyed.messageCallback = conn.messageCallback :=
    congrArg (·.1) hcallbacks
  exact ⟨fun ho => absurd (hshut'.symm.trans ho) Bool.false_ne_true, fun hm =>
    absurd (hshut.symm.trans ((ha conn hv).message (hsame ▸ hm))) Bool.false_ne_true⟩

/-- The destructor of a client that does not hold itself. -/
theorem destroy (hv : v.client.closeCallback ≠ some .hold) (unique : Bool) :
    Follows v (v.after (v.client.destroy unique)) := by
  -- what the destructor does before the callbacks go away with the client
  have hbase : ∃ out : ClientOutcome ProxyClose, Follows v (v.after out)
      ∧ out.client.closeCallback = v.client.closeCallback
      ∧ v.client.destroy unique = { out with
        client := { out.client with
          connectCallback := false
          messageCallback := false
          writeCompleteCallback := false
          closeCallback := none
          destroyed := true } } := by
    rw [TcpClient.destroy]
    split
    · split
      · rename_i hconnection _
        refine ⟨_, ?_, ?_, rfl⟩ <;> rw [TcpClient.onConnection, if_pos hconnection] <;> split
        · exact of_conn rfl rfl rfl id rfl
        · rename_i conn hconn
          rw [View.after_withConn]
          exact setConn hconn (carried_forceClose conn)
        · rfl
        · rfl
      · exact ⟨_, of_conn rfl rfl rfl id rfl, rfl, rfl⟩
    · refine ⟨_, withConnector (fun h => absurd h Bool.false_ne_true) fun h => ?_, rfl, rfl⟩
      exact absurd h Bool.false_ne_true
  obtain ⟨out, hout, hclose, hdestroy⟩ := hbase
  have hnot : (v.after out).client.closeCallback ≠ some .hold := hclose ▸ hv
  rw [hdestroy]
  exact hout.trans ⟨id, fun h => absurd h Bool.false_ne_true, fun h => (by cases h), id,
    fun _ => .inl ⟨rfl, iff_of_false (fun h => by cases h) hnot⟩⟩

end Follows

/-! ## What a step may do to the exchange -/

/-- **From `x` to `y` the context goes on**, and no client is given anything new. -/
structure Continues (x y : Exchange) : Prop where
  globals : y.globals = x.globals
  follows : ∀ i, Follows (x.view i) (y.view i)

namespace Continues

variable {x y z : Exchange} {i : ℕ}

theorem refl (x : Exchange) : Continues x x := ⟨rfl, fun _ => .refl _⟩

theorem trans (h : Continues x y) (h' : Continues y z) : Continues x z :=
  ⟨h'.globals.trans h.globals, fun i => (h.follows i).trans (h'.follows i)⟩

theorem of_touches (h : Touches ∅ x y) : Continues x y := by
  refine ⟨h.globals, fun i => ?_⟩
  rw [h.view i id]
  exact .refl _

/-- A step that touches one client. -/
theorem of_touches_one (h : Touches {i} x y) (hi : Follows (x.view i) (y.view i)) :
    Continues x y := by
  refine ⟨h.globals, fun j => ?_⟩
  rcases eq_or_ne j i with rfl | hne
  · exact hi
  · rw [h.view j hne]
    exact .refl _

end Continues

variable {x y : Exchange} {i : ℕ}

theorem continues_withConn (hconn : (x.ups i).client.conn = some c) {out : Outcome}
    (h : Carried c out.conn) : Continues x (x.withConn i out) := by
  refine .of_touches_one (x.touches_withClient i _) ?_
  rw [view_withConn_self]
  exact .setConn hconn h

theorem continues_withConnector {out : ConnectorOutcome} (f : Feed)
    (hrunning : out.connector.running = true → (x.ups i).client.connector.running = true)
    (hhanded : out.handed.isSome = true → (x.ups i).client.connector.running = true) :
    Continues x (x.withConnector i out f) := by
  have hfollows : Follows (x.view i)
      ((x.withClient i ((x.ups i).client.withConnector out)).view i) := by
    rw [view_withClient_self]
    exact .withConnector hrunning hhanded
  refine .of_touches_one (touches_withConnector i out f) ?_
  rw [withConnector]
  dsimp only
  split
  · rename_i conn _ hconn
    rw [view_withConn_self]
    exact hfollows.trans (.setConn hconn (carried_write conn _ _ _ _))
  · exact hfollows

/-- A connector that hands nothing on. -/
theorem continues_attempts {out : ConnectorOutcome}
    (hrunning : out.connector.running = (x.ups i).client.connector.running)
    (hhanded : out.handed = none) :
    Continues x (x.withClient i ((x.ups i).client.withConnector out)) := by
  refine .of_touches_one (x.touches_withClient i _) ?_
  rw [view_withClient_self]
  refine .withConnector (fun hr => hrunning.symm.trans hr) fun hn => ?_
  rw [hhanded] at hn
  cases hn

/-- **Dropping a reference** destroys no client that holds itself. -/
theorem continues_release (x : Exchange) (i : ℕ) : Continues x (x.release i) := by
  by_cases hgone : (x.ups i).client.destroyed = false ∧ x.held i = false
  · obtain ⟨unique, hrelease⟩ := release_of_unheld hgone.1 hgone.2
    have hhold : (x.ups i).client.closeCallback ≠ some .hold := fun hhold => by
      have hheld := hgone.2
      rw [held, hhold, beq_self_eq_true, Bool.or_true] at hheld
      cases hheld
    refine .of_touches_one (touches_release i) ?_
    rw [hrelease, view_withClient_self]
    exact .destroy hhold unique
  · rw [release_eq_self hgone]
    exact .refl x

theorem continues_releaseContext (x : Exchange) : Continues x x.releaseContext := by
  rw [releaseContext]
  split
  · exact .refl x
  · exact continues_release x _

/-! ## One proxied request -/

/-- **There is at most one client**, and once the context is gone it is not called for it. -/
structure Alone (x : Exchange) : Prop extends KeptBut ∅ x where
  sole : ∀ i < x.next, x.ctx.userData = some i
  armed : ∀ i, (x.view i).Armed
  parted : x.attached = false → ∀ i, (x.ups i).client.messageCallback = false
    ∧ (x.ups i).client.closeCallback ≠ some .forward

theorem Alone.kept (h : Alone x) : Kept x := h.toKeptBut

/-- The client of the request holds itself, and nothing is to come that would make it let go. -/
def Leaked (x : Exchange) : Prop :=
  x.attached = false ∧ (x.ups 0).client.closeCallback = some .hold ∧ (x.view 0).due = 0

/-- A client that the context has let go of has its connector stopped. -/
theorem Alone.stopped (h : Alone x) (hattached : x.attached = false) (i : ℕ) :
    (x.ups i).client.connector.running = false := by
  refine Bool.eq_false_iff.mpr fun hrun => ?_
  obtain ⟨howned, -⟩ := (h.safe i id).running hrun
  rw [view, hattached] at howned
  cases howned

/-- **While the context goes on**, so does what is known of its client, leaked or not. -/
theorem Alone.continues (h : Alone x) (hkept : Kept y) (hc : Continues x y) :
    Alone y ∧ (Leaked y ↔ Leaked x) := by
  obtain ⟨hnext, huser, -, hattached⟩ : y.next = x.next ∧ y.ctx.userData = x.ctx.userData
      ∧ y.ctx.closeCallback = x.ctx.closeCallback ∧ y.attached = x.attached := by
    simpa [globals] using hc.globals
  refine ⟨⟨hkept, ?_, fun i => (hc.follows i).armed (h.armed i), fun hatt i => ?_⟩, ?_⟩
  · rw [hnext, huser]
    exact h.sole
  · obtain ⟨hmessage, hforward⟩ := h.parted (hattached ▸ hatt) i
    exact ⟨Bool.eq_false_iff.mpr (mt (hc.follows i).message (Bool.eq_false_iff.mp hmessage)),
      mt (hc.follows i).forward hforward⟩
  · rw [Leaked, Leaked, hattached]
    refine and_congr_right fun hatt => ?_
    rcases (hc.follows 0).settles (h.stopped hatt 0) with ⟨hdue, hhold⟩ | ⟨hpos, hnot⟩
    · rw [hdue]
      exact and_congr_left fun _ => hhold
    · exact iff_of_false (fun hl => hnot hl.1) fun hl => hpos.ne' hl.2

/-- **`handleClose` of an upstream connection** leaves its client as it is: something holds it. -/
theorem Alone.continues_upClosed (h : Alone x) (hconn : (x.ups i).client.conn = some c)
    (sockfd : Fd) (answer : ConnectAnswer) : Continues x (x.upClosed i c sockfd answer) := by
  rw [upClosed]
  dsimp only
  rcases c.handleClose_cases with ⟨hopen, hcalled, hcallbacks⟩ | ⟨hcalled, -, -⟩
  · have hmem : Callback.close ∈ c.handleClose.called := hcalled ▸ List.mem_singleton_self _
    have huser : (x.withConn i c.handleClose).ctx.userData = some i := h.sole i (h.lt_next hconn)
    have hview := x.view_withConn_self i c.handleClose
    have hheld : (x.view i).Attached ∨ (x.view i).SelfHeld :=
      (h.safe i id).closing (.inl (by simp [view, TcpClient.isOpen, hconn, hopen]))
    have hsame : (x.withConn i c.handleClose).releaseContext = x.withConn i c.handleClose := by
      rw [releaseContext, huser]
      refine release_of_held ?_
      rw [hview]
      exact hheld
    rw [hsame, if_pos hmem]
    refine ⟨rfl, fun j => ?_⟩
    rcases eq_or_ne j i with rfl | hne
    · rw [view_withClient_self]
      show Follows _ (((x.withConn j c.handleClose).view j).after
        (TcpClient.handleClose ((x.withConn j c.handleClose).view j).client sockfd answer))
      rw [hview]
      exact .handleClose hconn hopen hcallbacks (h.safe j id).reconnect sockfd answer
    · have hother : (x.withConn i c.handleClose).view j = x.view j :=
        (x.touches_withClient i _).view j hne
      rw [(touches_withClient _ i _).view j hne]
      show Follows _ ((x.withConn i c.handleClose).view j)
      rw [hother]
      exact .refl _
  · have hmem : Callback.close ∉ c.handleClose.called := by
      rw [hcalled]
      exact List.not_mem_nil
    rw [if_neg hmem]
    exact (continues_withConn hconn (carried_handleClose hcalled)).trans (continues_releaseContext _)

/-- The message callback sends on what was read, and empties the buffer. -/
theorem continues_upMessage (hconn : (x.ups i).client.conn = some c) (f : Feed) :
    Continues x (x.upMessage i c f) := by
  rw [upMessage]
  refine (Continues.of_touches (x.touches_send c.readBuffer f)).trans ?_
  refine .of_touches_one (touches_setClient _ i _) ?_
  rw [view_setClient_self]
  exact .setConn hconn (.of_channel rfl rfl)

/-- Bytes from an upstream. -/
theorem continues_upRead (x : Exchange) (i n : ℕ) (f : Feed) :
    Continues x (x.step (.upRead i n f)) := by
  rw [step]
  rcases hconn : (x.ups i).client.conn with - | conn
  · exact .refl x
  dsimp only
  split
  · rename_i hread
    have hout := conn.handleRead_reads hread.2
    have hcarried : Carried conn (conn.handleRead (.reads ((x.ups i).remaining.take n))).conn := by
      rw [hout]
      exact .of_channel rfl rfl
    have hremaining := Continues.of_touches
      (x.touches_setRemaining i ((x.ups i).remaining.drop n))
    have hconn' : ((x.setUp i { x.ups i with remaining := (x.ups i).remaining.drop n }).ups
        i).client.conn = some conn := by simp [setUp, hconn]
    have hread' := hremaining.trans (continues_withConn hconn' hcarried)
    split
    · exact hread'.trans
        (continues_upMessage (congrArg (·.client.conn) (view_withConn_self _ i _)) f)
    · exact hread'
  · exact .refl x

/-- Taking a task that is no close task. -/
theorem continues_pop {t : LoopTask} {rest : List LoopTask} (htasks : x.tasks = t :: rest)
    (ht : ∀ j, t ≠ .client j .closed) : Continues x { x with tasks := rest } := by
  refine ⟨rfl, fun j => .of_conn rfl rfl rfl id ?_⟩
  simp [view, htasks, List.count_cons_of_ne (ht j)]

/-- The user's close callback, when what went before it is accounted for. -/
theorem Continues.userClose (hkept : (y.ups i).client.closeCallback ≠ some .hold → Continues x y)
    (hdropped : Continues x (y.setClient i { (y.ups i).client with closeCallback := none })) :
    Continues x (y.userClose i) := by
  rw [Exchange.userClose]
  rcases hclose : (y.ups i).client.closeCallback with - | - | -
  · exact hkept (by simp [hclose])
  · exact (hkept (by simp [hclose])).trans (.of_touches (touches_forceClose y))
  · exact hdropped.trans (continues_release _ i)

theorem setClient_setClient (x : Exchange) (i : ℕ) (c d : TcpClient ProxyClose) :
    (x.setClient i c).setClient i d = x.setClient i d := by
  simp [setClient, setUp]

/-- **The close task of an upstream**: its client, told, does not hold itself any more. -/
theorem Alone.continues_closedTask (h : Alone x) {rest : List LoopTask}
    (htasks : x.tasks = .client i .closed :: rest) (env : TaskEnv) :
    Continues x ({ x with tasks := rest }.runTask env (.client i .closed)) := by
  obtain ⟨-, -, -, hopen, -⟩ := h.kept.pop_closed htasks
  have hdue : 0 < (x.view i).due := by
    have hcloseds : 0 < (x.view i).closeds := List.count_pos_iff.mpr (htasks ▸ List.mem_cons_self)
    exact hcloseds.trans_le (Nat.le_add_right _ _)
  -- whatever becomes of its close callback, the task is gone and the connection destroyed
  have htold : ∀ κ, (κ = some .forward → (x.ups i).client.closeCallback = some .forward) →
      κ ≠ some .hold → ∀ u, Continues x ({ x with tasks := rest, uses := u }.setClient i
        { (x.ups i).client.connectDestroyed with closeCallback := κ }) := fun κ hforward hhold u => by
    refine ⟨rfl, fun j => ?_⟩
    rcases eq_or_ne j i with rfl | hne
    · rw [view_setClient_self]
      exact .told hdue hopen rfl rfl rfl hforward hhold
    · rw [(touches_setClient _ i _).view j hne]
      refine .of_conn rfl rfl rfl id ?_
      have hother : LoopTask.client i .closed ≠ .client j .closed := fun heq =>
        hne (LoopTask.client.inj heq).1.symm
      simp [view, htasks, List.count_cons_of_ne hother]
  rw [runTask, runClientTask]
  refine Continues.userClose (fun hhold => ?_) ?_
  · have hhold' : (x.ups i).client.closeCallback ≠ some .hold := by
      simpa [setClient, setUp, TcpClient.connectDestroyed] using hhold
    exact htold _ id hhold' _
  · rw [setClient_setClient]
    have hclient : ∀ z : Exchange, ((z.setClient i (x.ups i).client.connectDestroyed).ups i).client
        = (x.ups i).client.connectDestroyed := fun z => by simp [setClient, setUp]
    rw [hclient]
    exact htold none (fun h => by cases h) (fun h => by cases h) _

/-- A task of a client's connection. -/
theorem Alone.continues_connTask (h : Alone x) (i : ℕ) (t : ConnTask) (env : TaskEnv) :
    Continues x (x.runTask env (.client i (.conn t))) := by
  rcases hconn : (x.ups i).client.conn with - | conn
  · rcases t with - | - | - <;> simpa only [runTask, runClientTask, hconn] using Continues.refl x
  · have hcomplete : Carried conn (conn.runTask .writeComplete).conn := .of_channel rfl rfl
    have hshut : Carried conn (conn.runTask .shutdownWrite).conn := .of_channel rfl rfl
    rcases t with - | - | - <;> simp only [runTask, runClientTask, hconn]
    · exact continues_withConn hconn hcomplete
    · exact h.continues_upClosed hconn env.sockfd env.answer
    · exact continues_withConn hconn hshut

/-- A task of a client. -/
theorem Alone.continues_clientTask (h : Alone x) {t : ClientTask} {rest : List LoopTask}
    (htasks : x.tasks = .client i t :: rest) (env : TaskEnv) :
    Continues x ({ x with tasks := rest }.runTask env (.client i t)) := by
  rcases t with t | t | -
  · have hpop : Continues x { x with tasks := rest } := continues_pop htasks fun _ => (by simp)
    obtain ⟨-, hrunning, hhanded⟩ := (x.ups i).client.connector.runTask_spec env.sockfd env.answer t
    rw [runTask, runClientTask, withConnector_of_none _ _ _ hhanded]
    exact hpop.trans (continues_attempts hrunning hhanded)
  · have hpop : Continues x { x with tasks := rest } := continues_pop htasks fun _ => (by simp)
    have hkept : Kept { x with tasks := rest } := h.kept.pop htasks fun _ => ⟨(by simp), (by simp)⟩
    exact hpop.trans ((h.continues hkept hpop).1.continues_connTask i t env)
  · exact h.continues_closedTask htasks env

/-! ## The request and the end of its connection -/

/-- **One proxied request**: it comes only when no client has been made. -/
def Sole (x : Exchange) : ExchangeEvent → Prop
  | .request (.proxied true _ _) _ => x.next = 0
  | _ => True

/-- **When the connection is deleted, the close of the upstream is still to come**: its connection is
open, or its close task is queued. -/
def Awaited (x : Exchange) : ExchangeEvent → Prop
  | .runTask _ => x.tasks.head? = some .serverClosed → x.attached = true → ∀ i ∈ x.ctx.userData,
    (x.ups i).client.isOpen = true ∨ LoopTask.client i .closed ∈ x.tasks
  | _ => True

theorem Alone.undisturbed (h : Alone x) {e : ExchangeEvent} (he : x.Sole e) : x.Undisturbed e := by
  cases e with
  | request r f =>
    rcases r with - | r | ⟨resolved, forwarded, response⟩
    · trivial
    · trivial
    · rcases resolved with - | -
      · trivial
      have hnext : x.next = 0 := he
      intro _ i hi
      exact absurd (h.user i hi).1 (by omega)
  | _ => trivial

/-- **The request makes its client**, and the context holds it. -/
theorem Alone.proxyHandler (h : Alone x) (hattached : x.attached = true) (hnext : x.next = 0)
    (forwarded response : Bytes) (f : Feed)
    (hkept : Kept (x.proxyHandler true forwarded response f)) :
    Alone (x.proxyHandler true forwarded response f)
      ∧ (x.proxyHandler true forwarded response f).attached = true := by
  have huser : x.ctx.userData = none := Option.eq_none_iff_forall_ne_some.mpr fun i hi =>
    absurd (h.user i hi).1 (by omega)
  have hmade : x.proxyHandler true forwarded response f
      = (x.replaceUser forwarded response).withClient 0 proxyClient.start := by
    rw [Exchange.proxyHandler, if_pos rfl]
    dsimp only
    rw [setUserData, huser]
    simp [Exchange.replaceUser, setUp, hnext]
  have hnone : ∀ i, ((x.proxyHandler true forwarded response f).ups i).client.conn = none := by
    intro i
    rw [hmade]
    rcases eq_or_ne i 0 with rfl | hne
    · simp [withClient, setClient, setUp]
      rfl
    · have hblank : (x.ups i).client.conn = none :=
        congrArg (·.client.conn) (h.fresh i (hnext ▸ Nat.zero_le i))
      simpa [withClient, setClient, setUp, Exchange.replaceUser, hne, hnext] using hblank
  have hatt : (x.proxyHandler true forwarded response f).attached = true := by
    rw [hmade]
    exact hattached
  refine ⟨⟨hkept, fun i hi => ?_, fun i conn hconn => ?_, fun hd => ?_⟩, hatt⟩
  · rw [hmade] at hi ⊢
    have hlt : i < x.next + 1 := hi
    obtain rfl : i = x.next := by omega
    rfl
  · exact absurd (hconn.symm.trans (hnone i)) (Option.some_ne_none conn)
  · exact absurd (hatt.symm.trans hd) (by decide)

/-- **The close callback of the context** makes its client hold itself, and mutes it; what is due to
it stays due. -/
theorem contextClose_spec (x : Exchange) (i : ℕ) :
    ((x.view i).Armed → ((x.contextClose i).view i).Armed)
      ∧ ((x.contextClose i).view i).client.messageCallback = false
      ∧ ((x.contextClose i).view i).client.closeCallback = some .hold
      ∧ ((x.contextClose i).view i).due = (x.view i).due := by
  rw [view_contextClose]
  obtain ⟨_, hafter, rfl | ⟨conn, hconn, rfl⟩⟩ :=
    View.after_forceClose { x.view i with client := parting (x.ups i).client }
  · rw [hafter]
    exact ⟨id, rfl, rfl, rfl⟩
  · have hconn' : (x.view i).client.conn = some conn := hconn
    have hset := Follows.setConn hconn' (carried_forceClose conn)
    rw [hafter]
    refine ⟨hset.armed, rfl, rfl, ?_⟩
    simp [View.due, View.opened, TcpClient.isOpen, hconn', (carried_forceClose conn).closeCallback]

/-- The end of the downstream connection, on the client in the user data. -/
theorem deleteConnection_of_user (hattached : x.attached = true)
    (hclose : x.ctx.closeCallback = true) (huser : x.ctx.userData = some i) :
    x.deleteConnection = { x.contextClose i with
      ctx := ⟨some i, false, none⟩
      attached := false } := by
  have huser' : (x.contextClose i).ctx.userData = some i :=
    (congrArg (·.2.1) (touches_contextClose x i).globals).trans huser
  obtain ⟨-, -, hhold, -⟩ := x.contextClose_spec i
  have hhold' : ((x.contextClose i).ups i).client.closeCallback = some .hold := hhold
  have hheld : ∀ ctx, Exchange.held { x.contextClose i with ctx := ctx, attached := false } i = true :=
    fun ctx => by simp [held, hhold']
  rw [deleteConnection, if_pos hattached, closeCallback, hclose, huser]
  dsimp only
  rw [releaseContext, huser']
  exact release_eq_self fun hgone => absurd ((hheld _).symm.trans hgone.2) (by decide)

/-- …and when no client was made. -/
theorem deleteConnection_of_none (hattached : x.attached = true) (huser : x.ctx.userData = none) :
    x.deleteConnection = { x with ctx := ⟨none, false, none⟩, attached := false } := by
  rw [deleteConnection, if_pos hattached, closeCallback, huser]
  simp [releaseContext, huser]

theorem due_pos_iff : 0 < (x.view i).due ↔
    (x.ups i).client.isOpen = true ∨ LoopTask.client i .closed ∈ x.tasks := by
  rw [View.due, View.opened, Nat.add_pos_iff_pos_or_pos, Or.comm]
  refine or_congr ?_ List.count_pos_iff
  split
  · rename_i hopen
    exact iff_of_true Nat.one_pos hopen
  · rename_i hopen
    exact iff_of_false (lt_irrefl 0) hopen

/-- A connection that ends before a client was made. -/
theorem Alone.deleteConnection_of_none (h : Alone x) (hattached : x.attached = true)
    (huser : x.ctx.userData = none) (hkept : Kept x.deleteConnection) :
    Alone x.deleteConnection ∧ ¬ Leaked x.deleteConnection := by
  have hgone := Exchange.deleteConnection_of_none hattached huser
  have hnext : x.next = 0 := Nat.eq_zero_of_not_pos fun hpos =>
    absurd (huser.symm.trans (h.sole 0 hpos)) (by simp)
  have hblank : ∀ j, (x.deleteConnection.ups j).client = .new := fun j => by
    rw [hgone]
    exact congrArg View.client (h.fresh j (hnext ▸ Nat.zero_le j))
  refine ⟨⟨hkept, fun j hj => ?_, fun j conn hconn => ?_, fun _ j => ?_⟩, ?_⟩
  · rw [hgone] at hj
    exact absurd (hnext ▸ hj) (Nat.not_lt_zero j)
  · exact absurd (hconn.symm.trans (congrArg TcpClient.conn (hblank j))) (Option.some_ne_none conn)
  · rw [hblank j]
    exact ⟨rfl, fun h => by cases h⟩
  · rintro ⟨-, hhold, -⟩
    rw [hblank 0] at hhold
    cases hhold

/-- **The end of the connection of a proxied request** leaks its client just when nothing is due to
it. -/
theorem Alone.deleteConnection_of_user (h : Alone x) (hattached : x.attached = true)
    (huser : x.ctx.userData = some i) (hkept : Kept x.deleteConnection) :
    Alone x.deleteConnection ∧ (Leaked x.deleteConnection ↔ (x.view i).due = 0) := by
  obtain ⟨hi, hclose⟩ := h.user i huser
  obtain rfl : 0 = i := Option.some.inj ((h.sole 0 (Nat.zero_lt_of_lt hi)).symm.trans huser)
  have hgone := Exchange.deleteConnection_of_user hattached (hclose hattached) huser
  obtain ⟨harmed, hmessage, hhold, hdue⟩ := x.contextClose_spec 0
  have htouches := touches_contextClose x 0
  have hother : ∀ j ≠ 0, (x.contextClose 0).view j = .blank := fun j hne => by
    have hnext : x.next ≤ j := le_of_not_gt fun hlt => hne
      (Option.some.inj ((h.sole j hlt).symm.trans huser))
    rw [htouches.view j hne, h.fresh j hnext]
  have hnext : x.deleteConnection.next = x.next := by
    rw [hgone]
    exact congrArg (·.1) htouches.globals
  have hclient : ∀ j, (x.deleteConnection.ups j).client = ((x.contextClose 0).view j).client :=
    fun j => by
      rw [hgone]
      rfl
  refine ⟨⟨hkept, fun j hj => ?_, fun j conn hconn => ?_, fun _ j => ?_⟩, ?_⟩
  · have hj' : x.ctx.userData = some j := h.sole j (hnext ▸ hj)
    rw [hgone]
    exact huser.symm.trans hj'
  · have hconn' : ((x.contextClose 0).view j).client.conn = some conn := hclient j ▸ hconn
    rcases eq_or_ne j 0 with rfl | hne
    · exact harmed (h.armed 0) conn hconn'
    · rw [hother j hne] at hconn'
      cases hconn'
  · rw [hclient j]
    rcases eq_or_ne j 0 with rfl | hne
    · rw [hmessage, hhold]
      exact ⟨rfl, (by simp)⟩
    · rw [hother j hne]
      exact ⟨rfl, fun h => by cases h⟩
  · have hdue' : (x.deleteConnection.view 0).due = (x.view 0).due := by
      rw [← hdue, hgone]
      rfl
    rw [Leaked, hclient 0, hhold, hdue', hgone]
    simp

/-- The task of the server: the connection is deleted. -/
theorem Alone.step_serverClosed (h : Alone x) {rest : List LoopTask}
    (htasks : x.tasks = .serverClosed :: rest) (env : TaskEnv) :
    Alone (x.step (.runTask env))
      ∧ (Leaked (x.step (.runTask env)) ↔ Leaked x ∨ ¬ x.Awaited (.runTask env)) := by
  have hkept := h.kept.step_runTask env
  have hstep : x.step (.runTask env)
      = Exchange.deleteConnection { x with tasks := rest, down := x.down.connectDestroyed } := by
    rw [step, htasks]
    rfl
  have hcallback : x.down.connectDestroyed.messageCallback = x.down.messageCallback :=
    congrArg (·.1) x.down.callbacks_connectDestroyed
  have htouches : Touches ∅ x { x with tasks := rest, down := x.down.connectDestroyed } := by
    obtain ⟨hview, hglobals, huses, hlive⟩ := touches_pop htasks fun j _ => ⟨(by simp), (by simp)⟩
    exact ⟨hview, hglobals, huses, fun hl hm => hlive hl (hcallback.symm.trans hm)⟩
  obtain ⟨halone, hleaked⟩ := h.continues (h.kept.of_touches htouches) (.of_touches htouches)
  have hawaited : x.Awaited (.runTask env) ↔ (x.attached = true → ∀ i ∈ x.ctx.userData,
      0 < (x.view i).due) := by
    simp only [Awaited, htasks, due_pos_iff]
    simp
  rw [hstep] at hkept ⊢
  by_cases hattached : x.attached = true
  · have hnot : ¬ Leaked x := fun hl => absurd (hattached.symm.trans hl.1) (by decide)
    rcases huser : x.ctx.userData with - | i
    · obtain ⟨halone', hnot'⟩ := halone.deleteConnection_of_none hattached huser hkept
      refine ⟨halone', iff_of_false hnot' ?_⟩
      simp [hawaited, huser, hnot]
    · obtain ⟨halone', hleaked'⟩ := halone.deleteConnection_of_user hattached huser hkept
      have hdue : (Exchange.view { x with tasks := rest, down := x.down.connectDestroyed } i).due
          = (x.view i).due := congrArg View.due (htouches.view i id)
      have hpos : x.Awaited (.runTask env) ↔ 0 < (x.view i).due := by
        rw [hawaited]
        simp [hattached, huser]
      refine ⟨halone', hleaked'.trans ?_⟩
      rw [hdue, hpos, or_iff_right hnot, Nat.not_lt, Nat.le_zero]
  · rw [Exchange.deleteConnection, if_neg hattached]
    refine ⟨halone, hleaked.trans ?_⟩
    simp [hawaited, hattached]

/-- A request: a response of the server itself, or the one client of the connection. -/
theorem Alone.step_request (h : Alone x) (r : Request) (f : ℕ → Feed) (he : x.Sole (.request r f)) :
    Alone (x.step (.request r f)) ∧ (Leaked (x.step (.request r f)) ↔ Leaked x) := by
  have hkept := h.kept.step (.request r f) (h.undisturbed he)
  rw [Exchange.step] at hkept ⊢
  split
  · rename_i hm
    rw [if_pos hm] at hkept
    have hnoted : Touches ∅ x { x with expected := x.expected ++ [response r] } :=
      ⟨fun _ _ => rfl, rfl, rfl, id⟩
    have hanswers : ∀ {x' : Exchange}, x'.Kept →
        Touches ∅ { x with expected := x.expected ++ [response r] } x' →
        Alone x' ∧ (Leaked x' ↔ Leaked x) := fun hk ht => h.continues hk (.of_touches (hnoted.trans ht))
    rcases r with - | r | ⟨resolved, forwarded, response⟩
    · exact hanswers hkept (touches_sendError _ _ _)
    · exact hanswers hkept (touches_staticHandler _ _ _)
    · rcases resolved with - | -
      · exact hanswers hkept (touches_send _ badGateway _)
      · -- The connection was not attached to be deleted before, and is not after.
        have hattached := (h.live hm).1
        have hnot : ∀ {x' : Exchange}, x'.attached = true → ¬ Leaked x' :=
          fun ha hl => absurd (ha.symm.trans hl.1) (by decide)
        have halone := (h.continues (h.kept.of_touches hnoted) (.of_touches hnoted)).1
        obtain ⟨halone', hattached'⟩ := halone.proxyHandler hattached he forwarded response (f 0) hkept
        exact ⟨halone', iff_of_false (hnot hattached') (hnot hattached)⟩
  · exact ⟨h, Iff.rfl⟩

/-- **Every step keeps one request one**, and leaks its client exactly when it deletes the connection
with nothing due. -/
theorem Alone.step (h : Alone x) (e : ExchangeEvent) (he : x.Sole e) :
    Alone (x.step e) ∧ (Leaked (x.step e) ↔ Leaked x ∨ ¬ x.Awaited e) := by
  have hkept := h.kept.step e (h.undisturbed he)
  have hgoes : x.Awaited e → Continues x (x.step e) →
      Alone (x.step e) ∧ (Leaked (x.step e) ↔ Leaked x ∨ ¬ x.Awaited e) := fun hawaited hc => by
    obtain ⟨halone, hleaked⟩ := h.continues hkept hc
    exact ⟨halone, hleaked.trans (or_iff_left (not_not.mpr hawaited)).symm⟩
  cases e with
  | request r f =>
    obtain ⟨halone, hleaked⟩ := h.step_request r f he
    exact ⟨halone, hleaked.trans (or_iff_left (not_not.mpr trivial)).symm⟩
  | downWrite events answer =>
    refine hgoes trivial (.of_touches (x.touches_withDown fun hm => ?_))
    exact (congrArg (·.1) (TcpConnection.handleWrite_outputOnly _ answer).callbacks).symm.trans hm
  | downClose =>
    refine hgoes trivial ?_
    rw [Exchange.step]
    split
    · exact .of_touches x.touches_downClosed_handleClose
    · exact .refl x
  | connectWrite i err f =>
    refine hgoes trivial ?_
    rw [Exchange.step]
    split
    · rename_i hpolled
      obtain ⟨-, hrunning, hhanded⟩ := Connector.handleWrite_spec _ hpolled err
      exact continues_withConnector f (fun hr => hrunning.symm.trans hr) hhanded
    · exact .refl x
  | connectError i =>
    refine hgoes trivial ?_
    rw [Exchange.step]
    split
    · rename_i hpolled
      obtain ⟨-, hrunning, hhanded⟩ := Connector.handleError_spec _ hpolled
      exact continues_attempts hrunning hhanded
    · exact .refl x
  | retryTimer i sockfd answer =>
    refine hgoes trivial ?_
    rw [Exchange.step]
    split
    · have herase : Continues x { x with timers := x.timers.erase i } :=
        ⟨rfl, fun _ => .of_conn rfl rfl rfl id rfl⟩
      obtain ⟨-, hrunning, hhanded⟩ := (x.ups i).client.connector.attempt_spec sockfd answer
      exact herase.trans (continues_attempts hrunning hhanded)
    · exact .refl x
  | upRead i n f => exact hgoes trivial (continues_upRead x i n f)
  | upClose i sockfd answer =>
    refine hgoes trivial ?_
    rw [Exchange.step]
    rcases hconn : (x.ups i).client.conn with - | conn
    · exact .refl x
    · dsimp only
      split
      · exact h.continues_upClosed hconn sockfd answer
      · exact .refl x
  | upWrite i events answer =>
    refine hgoes trivial ?_
    rw [Exchange.step]
    rcases hconn : (x.ups i).client.conn with - | conn
    · exact .refl x
    · exact continues_withConn hconn (carried_handleWrite conn events answer)
  | runTask env =>
    rcases htasks : x.tasks with - | ⟨t | - | ⟨i, t⟩, rest⟩
    · refine hgoes (by simp [Awaited, htasks]) ?_
      rw [Exchange.step, htasks]
      exact .refl x
    · refine hgoes (by simp [Awaited, htasks]) ?_
      rw [Exchange.step, htasks]
      exact (continues_pop htasks fun _ => (by simp)).trans (.of_touches (touches_runTask_down _ env t))
    · exact h.step_serverClosed htasks env
    · refine hgoes (by simp [Awaited, htasks]) ?_
      rw [Exchange.step, htasks]
      exact h.continues_clientTask htasks env

theorem alone_opened : Alone opened :=
  ⟨kept_opened, fun _ hi => absurd hi (Nat.not_lt_zero _),
    fun _ conn hconn => absurd hconn (Option.not_mem_none conn), fun hd => absurd hd (by decide)⟩

/-! ## At rest -/

/-- **At rest**: the connection has been deleted, and no task, timer or socket event of the client is
to come. -/
structure AtRest (x : Exchange) : Prop where
  deleted : x.attached = false
  tasks : ∀ t, LoopTask.client 0 t ∉ x.tasks
  timers : 0 ∉ x.timers
  connector : (x.ups 0).client.connector.polled = false
  conn : ∀ conn ∈ (x.ups 0).client.conn, polled conn = false

/-- **At rest the only holder left is the client itself.** -/
theorem Alone.held_iff (h : Alone x) (hrest : x.AtRest) : x.held 0 = true ↔ Leaked x := by
  obtain ⟨hattached, htasks, -, -, hconn⟩ := hrest
  have hshut : ∀ conn ∈ (x.ups 0).client.conn, conn.closeCallback = false := fun conn hmem => by
    refine Bool.eq_false_iff.mpr fun hopen => ?_
    have hwatched := (h.armed 0 conn hmem).watched hopen
    rw [watched, hconn conn hmem] at hwatched
    cases hwatched
  have hmute : ∀ conn ∈ (x.ups 0).client.conn, conn.messageCallback = false := fun conn hmem =>
    Bool.eq_false_iff.mpr fun hm => absurd
      ((hshut conn hmem).symm.trans ((h.armed 0 conn hmem).message hm)) Bool.false_ne_true
  have hdue : (x.view 0).due = 0 := by
    refine Nat.eq_zero_of_not_pos fun hpos => ?_
    rcases due_pos_iff.mp hpos with hopen | hmem
    · rcases hc : (x.ups 0).client.conn with - | conn
      · simp [TcpClient.isOpen, hc] at hopen
      · simp [TcpClient.isOpen, hc, hshut conn hc] at hopen
    · exact htasks _ hmem
  have hfree : holdsContext (x.ups 0) = false := by
    obtain ⟨hmessage, hforward⟩ := h.parted hattached 0
    rcases hc : (x.ups 0).client.conn with - | conn
    · simp [holdsContext, hmessage, hforward, hc]
    · simp [holdsContext, hmessage, hforward, hc, hmute conn hc]
  have halive : x.contextAlive = false := by
    rw [contextAlive, hattached, Bool.false_or, List.any_eq_false]
    intro i hi
    have hlt : i < x.next := List.mem_range.mp hi
    obtain rfl : 0 = i := Option.some.inj
      ((h.sole 0 (Nat.zero_lt_of_lt hlt)).symm.trans (h.sole i hlt))
    exact Bool.eq_false_iff.mp hfree
  rw [held, halive, Bool.and_false, Bool.false_or, beq_iff_eq, Leaked]
  exact ⟨fun hhold => ⟨hattached, hhold, hdue⟩, fun hl => hl.2.1⟩

/-- **A proxied request leaves no reference to its client behind** if and only if its connection was
deleted while the close of the upstream was still to come. -/
theorem released_iff_awaited (es : List ExchangeEvent) (hsole : Meets step Sole opened es)
    (hrest : AtRest (run step opened es)) :
    (run step opened es).held 0 = false ↔ Meets step Awaited opened es := by
  have halone : Alone (run step opened es) :=
    inv_run (fun _ e hx he => (hx.step e he).1) alone_opened hsole
  have hguard := hsole.and_inv (fun _ e hx he => (hx.step e he).1) alone_opened
  rw [← Bool.not_eq_true, halone.held_iff hrest]
  refine @inv_run_iff _ _ step Awaited (fun x e => Alone x ∧ Sole x e) (fun x => ¬ Leaked x)
    (fun x e hnot hg => ?_) (fun x e hg hleaked => ?_) opened (fun hl => ?_) es hguard
  · rw [(hg.1.step e hg.2).2, not_or, not_not]
    exact and_iff_right hnot
  · exact not_not.mpr ((hg.1.step e hg.2).2.mpr (.inl (not_not.mp hleaked)))
  · exact absurd hl.1 (by decide)

/-- No task at all is queued. -/
theorem AtRest.of_idle (hdeleted : x.attached = false) (htasks : x.tasks = []) (htimers : x.timers = [])
    (hconnector : (x.ups 0).client.connector.polled = false)
    (hconn : ∀ conn ∈ (x.ups 0).client.conn, polled conn = false) : AtRest x := by
  refine ⟨hdeleted, fun t => ?_, ?_, hconnector, hconn⟩
  · rw [htasks]
    exact List.not_mem_nil
  · rw [htimers]
    exact List.not_mem_nil

/-- An upstream that connects, and a client that closes its connection first. -/
def servedRun : List ExchangeEvent :=
  [.request (.proxied true [1] []) fun _ => readyFeed, .runTask readyEnv,
    .connectWrite 0 false readyFeed, .runTask readyEnv, .downClose, .runTask readyEnv,
    .runTask readyEnv, .runTask readyEnv, .runTask readyEnv, .runTask readyEnv]

theorem released_iff_awaited_served :
    (run step opened servedRun).held 0 = false ↔ Meets step Awaited opened servedRun :=
  released_iff_awaited servedRun
    ⟨rfl, trivial, trivial, trivial, trivial, trivial, trivial, trivial, trivial, trivial, trivial⟩
    (.of_idle (by decide) (by decide) (by decide) (by decide) (by decide))

/-- An upstream that refuses, and a client that gives up before the next attempt. -/
def refusedRun : List ExchangeEvent :=
  [.request (.proxied true [1] []) fun _ => readyFeed, .runTask readyEnv,
    .connectWrite 0 true readyFeed, .downClose, .runTask readyEnv, .runTask readyEnv,
    .retryTimer 0 7 .progress]

/-- **The client of a refused upstream is never let go**: no close will ever come. -/
theorem refused_upstream_leaks : Meets step Sole opened refusedRun
    ∧ AtRest (run step opened refusedRun) ∧ (run step opened refusedRun).held 0 = true :=
  ⟨⟨rfl, trivial, trivial, trivial, trivial, trivial, trivial, trivial⟩,
    .of_idle (by decide) (by decide) (by decide) (by decide) (by decide), by decide⟩

end Exchange
