import Rpx.Http.Exchange
import Rpx.Machinery.Run

/-!
# Http/Ownership — whether a proxied client outlives its connection

    open connection, or its close task queued   ⇒   the context holds the client, or it holds itself

A client is reached by its connection through a bare reference.  What keeps it alive is the user data
of the context, and from the end of the downstream connection on, its own close callback.  A second
proxied request replaces the user data, and with it the only holder of the first client.

`Safe` says what each client must satisfy, on a `View` of it: the client, the tasks and timers that
concern it and whether the context holds it.  Every step changes the view of one client.
-/

open Machinery

namespace Exchange

/-- One client, and what the rest of the exchange knows of it. -/
structure View where
  client : TcpClient ProxyClose
  /-- Its `start` tasks queued. -/
  starts : ℕ
  /-- Its close tasks queued. -/
  closeds : ℕ
  /-- Its retry timers. -/
  timers : ℕ
  /-- The context of a live connection has it as its user data. -/
  owned : Bool

/-- The view of a client not made yet. -/
def View.blank : View := ⟨.new, 0, 0, 0, false⟩

/-- The view after something its client does. -/
def View.after (v : View) (out : ClientOutcome ProxyClose) : View where
  client := out.client
  starts := v.starts + out.queued.count (.connector .start)
  closeds := v.closeds + out.queued.count .closed
  timers := v.timers + out.timers.length
  owned := v.owned

def view (x : Exchange) (i : ℕ) : View where
  client := (x.ups i).client
  starts := x.tasks.count (.client i (.connector .start))
  closeds := x.tasks.count (.client i .closed)
  timers := x.timers.count i
  owned := x.attached && x.ctx.userData == some i

/-- The state that no client's view shows. -/
def globals (x : Exchange) : ℕ × Option ℕ × Bool × Bool :=
  (x.next, x.ctx.userData, x.ctx.closeCallback, x.attached)

/-- Requests come only while the connection holds its context, and will go on holding it. -/
def Live (x : Exchange) : Prop :=
  x.down.messageCallback = true → x.attached = true ∧ LoopTask.serverClosed ∉ x.tasks

/-! ## What a step leaves as it was -/

/-- **From `x` to `y` only the views of the clients in `S` change.** -/
structure Touches (S : Set ℕ) (x y : Exchange) : Prop where
  view : ∀ j ∉ S, y.view j = x.view j
  globals : y.globals = x.globals
  uses : y.uses = x.uses
  live : Live x → Live y

namespace Touches

variable {S T : Set ℕ} {x y z : Exchange}

theorem refl (S : Set ℕ) (x : Exchange) : Touches S x x := ⟨fun _ _ => rfl, rfl, rfl, id⟩

theorem trans (h : Touches S x y) (h' : Touches S y z) : Touches S x z :=
  ⟨fun j hj => (h'.view j hj).trans (h.view j hj), h'.globals.trans h.globals,
    h'.uses.trans h.uses, fun hl => h'.live (h.live hl)⟩

theorem mono (h : Touches S x y) (hST : S ⊆ T) : Touches T x y :=
  ⟨fun j hj => h.view j fun hS => hj (hST hS), h.globals, h.uses, h.live⟩

end Touches

variable (x : Exchange)

/-- What happens downstream shows in no view. -/
theorem touches_withDown {out : Outcome}
    (h : out.conn.messageCallback = true → x.down.messageCallback = true) :
    Touches ∅ x (x.withDown out) := by
  refine ⟨fun i _ => ?_, rfl, rfl, fun hl hm => ⟨(hl (h hm)).1, fun hmem => ?_⟩⟩
  · have hnone : ∀ t, (out.queued.map LoopTask.down).count (.client i t) = 0 := fun t =>
      List.count_eq_zero_of_not_mem fun hmem => by
        obtain ⟨t', -, ht'⟩ := List.mem_map.mp hmem
        cases ht'
    simp [Exchange.view, withDown, List.count_append, hnone]
  · rcases List.mem_append.mp hmem with hmem | hmem
    · exact (hl (h hm)).2 hmem
    · obtain ⟨t', -, ht'⟩ := List.mem_map.mp hmem
      cases ht'

theorem touches_send (bs : Bytes) (f : Feed) : Touches ∅ x (x.send bs f).2 := by
  have hout := x.down.write_outputOnly (Pointer.ofBytes bs f.around) bs.length f.junk f.answer
  have hcb := congrArg Prod.fst hout.callbacks
  obtain ⟨hview, hglobals, huses, hlive⟩ := x.touches_withDown fun hm => hcb.symm.trans hm
  exact ⟨hview, hglobals, huses, hlive⟩

theorem touches_sendAll (pieces : List Bytes) (f : ℕ → Feed) :
    Touches ∅ x (x.sendAll pieces f) := by
  induction pieces generalizing x f with
  | nil => exact .refl ∅ x
  | cons bs pieces ih => exact (x.touches_send bs (f 0)).trans (ih _ _)

theorem touches_shutdown : Touches ∅ x x.shutdown := x.touches_withDown id

theorem touches_forceClose : Touches ∅ x x.forceClose := by
  have hcb := congrArg Prod.fst x.down.callbacks_forceClose
  exact x.touches_withDown fun hm => hcb.symm.trans hm

theorem touches_sendError (code : ℕ) (f : ℕ → Feed) : Touches ∅ x (x.sendError code f) :=
  (x.touches_sendAll _ f).trans (touches_shutdown _)

/-- The slot of the write-complete callback shows in no view. -/
theorem touches_setWriteComplete (r : Option Reader) :
    Touches ∅ x { x with ctx := { x.ctx with writeCompleteCallback := r } } :=
  ⟨fun _ _ => rfl, rfl, rfl, id⟩

theorem touches_staticHandler (r : StaticResource) (f : ℕ → Feed) :
    Touches ∅ x (x.staticHandler r f) := by
  rcases r with - | - | content
  · exact x.touches_sendError 403 f
  · exact x.touches_sendError 404 f
  · exact (x.touches_sendAll _ f).trans (touches_setWriteComplete _ _)

theorem touches_sendMore (r : Reader) (f : Feed) : Touches ∅ x (x.sendMore r f) := by
  rw [sendMore]
  split
  · dsimp only
    split
    · split
      · exact (((x.touches_setWriteComplete _).trans (touches_send _ _ _)).trans
          (touches_setWriteComplete _ _)).trans (touches_shutdown _)
      · exact (x.touches_setWriteComplete _).trans (touches_send _ _ _)
    · exact x.touches_setWriteComplete _
  · exact (x.touches_setWriteComplete _).trans (touches_shutdown _)

/-- What a client leaves behind shows in its own view. -/
theorem view_withClient_self (i : ℕ) (out : ClientOutcome ProxyClose) :
    (x.withClient i out).view i = (x.view i).after out := by
  have hinj : Function.Injective (LoopTask.client i) := fun _ _ h => (LoopTask.client.inj h).2
  simp [view, View.after, withClient, setClient, setUp, List.count_append,
    List.count_map_of_injective _ _ hinj]

/-- …and in no other. -/
theorem touches_withClient (i : ℕ) (out : ClientOutcome ProxyClose) :
    Touches {i} x (x.withClient i out) := by
  refine ⟨fun j hj => ?_, rfl, rfl, fun hl hm => ⟨(hl hm).1, fun hmem => ?_⟩⟩
  · have hne : j ≠ i := fun heq => hj heq
    have hnone : ∀ t, (out.queued.map (LoopTask.client i)).count (.client j t) = 0 := fun t =>
      List.count_eq_zero_of_not_mem fun hmem => by
        obtain ⟨t', -, ht'⟩ := List.mem_map.mp hmem
        exact hne (LoopTask.client.inj ht').1.symm
    simp [view, withClient, setClient, setUp, List.count_append, hnone, hne, List.count_replicate,
      Ne.symm hne]
  · rcases List.mem_append.mp hmem with hmem | hmem
    · exact (hl hm).2 hmem
    · obtain ⟨t', -, ht'⟩ := List.mem_map.mp hmem
      cases ht'

theorem touches_setClient (i : ℕ) (c : TcpClient ProxyClose) :
    Touches {i} x (x.setClient i c) := by
  refine ⟨fun j hj => ?_, rfl, rfl, id⟩
  have hne : j ≠ i := fun heq => hj heq
  simp [view, setClient, setUp, hne]

theorem view_setClient_self (i : ℕ) (c : TcpClient ProxyClose) :
    (x.setClient i c).view i = { x.view i with client := c } := by
  simp [view, setClient, setUp]

/-! ## What each client satisfies -/

/-- The context holds the client. -/
def View.Attached (v : View) : Prop :=
  v.owned = true ∧ v.client.destroyed = false ∧ v.client.closeCallback = some .forward

/-- The client holds itself. -/
def View.SelfHeld (v : View) : Prop :=
  v.client.destroyed = false ∧ v.client.closeCallback = some .hold

/-- `1` when a connection has been made. -/
def View.made (v : View) : ℕ := if v.client.conn.isSome then 1 else 0

/-- `1` when that connection has its close callback still to run. -/
def View.opened (v : View) : ℕ := if v.client.isOpen then 1 else 0

/-- What is true of every client, held or not. -/
structure Sound (v : View) : Prop where
  /-- A client whose close callback or close task is to run is held. -/
  closing : v.client.isOpen = true ∨ 0 < v.closeds → v.Attached ∨ v.SelfHeld
  /-- At most one connection will ever be made. -/
  once : v.starts + v.timers + v.client.connector.underWay + v.made ≤ 1
  /-- Its close callback makes its close task. -/
  closed : v.closeds + v.opened ≤ v.made
  connection : v.client.connection = true → v.client.isOpen = true
  reconnect : v.client.reconnect = false

/-- **A client that its connection may call is held**, now or once there is a connection. -/
structure Safe (v : View) : Prop extends Sound v where
  /-- A connector that runs can make a connection. -/
  running : v.client.connector.running = true → v.Attached

theorem Sound.of_idle {v : View} (hopen : v.client.isOpen = false) (hcloseds : v.closeds = 0)
    (once : v.starts + v.timers + v.client.connector.underWay + v.made ≤ 1)
    (connection : v.client.connection = false) (reconnect : v.client.reconnect = false) :
    Sound v where
  closing h := by
    rw [hopen, hcloseds] at h
    exact h.elim (fun h => absurd h Bool.false_ne_true) (fun h => absurd h (lt_irrefl 0))
  once := once
  closed := by
    rw [hcloseds, View.opened, hopen]
    exact Nat.zero_le _
  connection h := absurd (connection.symm.trans h) Bool.false_ne_true
  reconnect := reconnect

/-- `_connection` is reset when the close callback runs. -/
theorem Sound.connection_of_closed {v : View} (h : Sound v) (hopen : v.client.isOpen = false) :
    v.client.connection = false :=
  Bool.eq_false_iff.mpr (mt h.connection (Bool.eq_false_iff.mp hopen))

theorem safe_blank : Safe .blank :=
  ⟨Sound.of_idle rfl rfl (Nat.zero_le _) rfl rfl, fun h => absurd h Bool.false_ne_true⟩

theorem count_map_connector (ts : List ConnectorTask) :
    (ts.map ClientTask.connector).count (.connector .start) = ts.count .start
      ∧ (ts.map ClientTask.connector).count .closed = 0 := by
  have hinj : Function.Injective ClientTask.connector := fun _ _ h => ClientTask.connector.inj h
  refine ⟨List.count_map_of_injective _ _ hinj _, List.count_eq_zero_of_not_mem fun h => ?_⟩
  obtain ⟨t, -, ht⟩ := List.mem_map.mp h
  cases ht

theorem count_map_conn (ts : List ConnTask) :
    (ts.map ClientTask.conn).count (.connector .start) = 0
      ∧ (ts.map ClientTask.conn).count .closed = 0 := by
  refine ⟨List.count_eq_zero_of_not_mem fun h => ?_, List.count_eq_zero_of_not_mem fun h => ?_⟩ <;>
    obtain ⟨t, -, ht⟩ := List.mem_map.mp h <;> cases ht

/-- **What the connector does is safe** when it takes no chance it has not got: `k` is what a task or
a timer just run gave it. -/
theorem Safe.withConnector {v : View} (h : Safe v) {out : ConnectorOutcome} {k : ℕ}
    (hk : v.starts + v.timers + v.client.connector.underWay + v.made + k ≤ 1)
    (hchances : out.chances ≤ v.client.connector.underWay + k)
    (hrunning : out.connector.running = true → v.client.connector.running = true)
    (hhanded : out.handed.isSome = true → v.client.connector.running = true) :
    Safe (v.after (v.client.withConnector out)) := by
  obtain ⟨hstarts, hcloseds⟩ := count_map_connector out.queued
  rw [ConnectorOutcome.chances] at hchances
  rcases hh : out.handed with - | fd
  · have hafter : v.after (v.client.withConnector out)
        = { v with
            client := { v.client with connector := out.connector }
            starts := v.starts + out.queued.count .start
            timers := v.timers + out.timers.length } := by
      simp [View.after, TcpClient.withConnector, hh, hstarts, hcloseds]
    rw [hafter]
    refine ⟨⟨h.closing, ?_, h.closed, h.connection, h.reconnect⟩,
      fun hrun => h.running (hrunning hrun)⟩
    show v.starts + out.queued.count .start + (v.timers + out.timers.length)
      + out.connector.underWay + v.made ≤ 1
    omega
  · rw [hh] at hchances hhanded
    have hrun : v.client.connector.running = true := hhanded rfl
    have hone : out.connector.underWay + out.timers.length + out.queued.count .start + 1
        ≤ v.client.connector.underWay + k := hchances
    -- the socket is the one chance there was, so there is no connection yet
    have hmade : v.made = 0 := by omega
    have hafter : v.after (v.client.withConnector out)
        = { v with
            client := { v.client with connector := out.connector }.newConnection
            starts := v.starts + out.queued.count .start
            timers := v.timers + out.timers.length } := by
      simp [View.after, TcpClient.withConnector, hh, hstarts, hcloseds]
    rw [hafter]
    refine ⟨⟨fun _ => .inl (h.running hrun), ?_, ?_, fun _ => rfl, h.reconnect⟩,
      fun _ => h.running hrun⟩
    · show v.starts + out.queued.count .start + (v.timers + out.timers.length)
        + out.connector.underWay + 1 ≤ 1
      omega
    · show v.closeds + 1 ≤ 1
      have hclosed := h.closed
      omega

/-- What the connection leaves behind, in the view of its client. -/
theorem View.after_withConn (v : View) (out : Outcome) :
    v.after (v.client.withConn out) = { v with client := { v.client with conn := some out.conn } } := by
  obtain ⟨hstarts, hcloseds⟩ := count_map_conn out.queued
  simp [View.after, TcpClient.withConn, hstarts, hcloseds]

/-- **What the connection does is safe** when its close callback stays as it is. -/
theorem Safe.setConn {v : View} (h : Safe v) {conn conn' : TcpConnection}
    (hconn : v.client.conn = some conn) (hclose : conn'.closeCallback = conn.closeCallback) :
    Safe { v with client := { v.client with conn := some conn' } } := by
  have hopen : TcpClient.isOpen { v.client with conn := some conn' } = v.client.isOpen := by
    simp [TcpClient.isOpen, hconn, hclose]
  have hmade : View.made { v with client := { v.client with conn := some conn' } } = v.made := by
    simp [View.made, hconn]
  refine ⟨⟨fun hc => h.closing (hopen ▸ hc), ?_, ?_, fun hc => hopen.trans (h.connection hc),
    h.reconnect⟩, h.running⟩
  · rw [hmade]
    exact h.once
  · rw [hmade, View.opened, hopen]
    exact h.closed

theorem view_withConn_self (i : ℕ) (out : Outcome) : (x.withConn i out).view i
    = { x.view i with client := { (x.ups i).client with conn := some out.conn } } :=
  (x.view_withClient_self i _).trans (View.after_withConn _ _)

/-! ## Dropping a reference -/

variable {x}

theorem held_of_attached {i : ℕ} (h : (x.view i).Attached) : x.held i = true := by
  obtain ⟨howned, -, -⟩ := h
  obtain ⟨hattached, huser⟩ := Bool.and_eq_true_iff.mp howned
  rw [held, contextAlive, huser, hattached]
  rfl

theorem held_of_selfHeld {i : ℕ} (h : (x.view i).SelfHeld) : x.held i = true := by
  have hhold : (x.ups i).client.closeCallback = some .hold := h.2
  rw [held, hhold]
  exact Bool.or_true _

/-- A client that is held stays. -/
theorem release_of_held {i : ℕ} (h : (x.view i).Attached ∨ (x.view i).SelfHeld) :
    x.release i = x := by
  have hheld : x.held i = true := h.elim held_of_attached held_of_selfHeld
  rw [release, hheld, Bool.or_true, if_pos rfl]

/-- A client is destroyed when it lives and nothing holds it. -/
theorem release_of_unheld {i : ℕ} (hlives : (x.ups i).client.destroyed = false)
    (hheld : x.held i = false) :
    ∃ unique, x.release i = x.withClient i ((x.ups i).client.destroy unique) := by
  rw [release, hlives, hheld]
  exact ⟨_, if_neg (by decide)⟩

theorem release_eq_self {i : ℕ} (h : ¬ ((x.ups i).client.destroyed = false ∧ x.held i = false)) :
    x.release i = x := by
  rw [release]
  refine if_pos ?_
  rw [not_and_or, Bool.not_eq_false, Bool.not_eq_false] at h
  exact Bool.or_eq_true_iff.mpr h

/-- **A client that nothing refers to may be destroyed**: its connector is stopped. -/
theorem safe_destroy {v : View} (h : Sound v) (hopen : v.client.isOpen = false)
    (hcloseds : v.closeds = 0) (unique : Bool) : Safe (v.after (v.client.destroy unique)) := by
  have hconnection := h.connection_of_closed hopen
  have hafter : v.after (v.client.destroy unique) = { v with
      client := { v.client with
        connector := { v.client.connector with running := false }
        connectCallback := false
        messageCallback := false
        writeCompleteCallback := false
        closeCallback := none
        destroyed := true } } := by
    simp [View.after, TcpClient.destroy, hconnection, TcpClient.withConnector, Connector.stop]
  rw [hafter]
  exact ⟨Sound.of_idle hopen hcloseds h.once hconnection h.reconnect,
    fun hrun => absurd hrun Bool.false_ne_true⟩

/-- **Dropping a reference is safe**, if a connector that runs belongs to a client that the context
still holds or that goes away now. -/
theorem safe_release {i : ℕ} (h : Sound (x.view i))
    (hrunning : (x.ups i).client.connector.running = true →
      (x.view i).Attached ∨ (x.ups i).client.destroyed = false ∧ x.held i = false) :
    Safe ((x.release i).view i) := by
  by_cases hgone : (x.ups i).client.destroyed = false ∧ x.held i = false
  · obtain ⟨unique, hrelease⟩ := release_of_unheld hgone.1 hgone.2
    rw [hrelease, view_withClient_self]
    have hidle : ¬ ((x.view i).client.isOpen = true ∨ 0 < (x.view i).closeds) := by
      intro hclosing
      have hheld := (h.closing hclosing).elim held_of_attached held_of_selfHeld
      exact absurd (hgone.2.symm.trans hheld) Bool.false_ne_true
    obtain ⟨hopen, hcloseds⟩ := not_or.mp hidle
    exact safe_destroy h (Bool.not_eq_true _ ▸ hopen) (Nat.eq_zero_of_not_pos hcloseds) unique
  · rw [release_eq_self hgone]
    exact ⟨h, fun hrun => (hrunning hrun).resolve_right hgone⟩

theorem touches_release (i : ℕ) : Touches {i} x (x.release i) := by
  rw [release]
  split
  · exact .refl _ x
  · exact x.touches_withClient i _

/-! ## What a run keeps -/

/-- **Every client outside `S` is safe**, and what a connection did found its client alive. -/
structure KeptBut (S : Set ℕ) (x : Exchange) : Prop where
  safe : ∀ i ∉ S, Safe (x.view i)
  /-- The user data is a client made, and the close callback of the context goes with it. -/
  user : ∀ i, x.ctx.userData = some i →
    i < x.next ∧ (x.attached = true → x.ctx.closeCallback = true)
  fresh : ∀ i, x.next ≤ i → x.view i = .blank
  live : Live x
  alive : ∀ u ∈ x.uses, u.2 = true

/-- **Every client is safe.** -/
abbrev Kept (x : Exchange) : Prop := KeptBut ∅ x

namespace KeptBut

variable {S : Set ℕ} {y : Exchange}

theorem mono (h : KeptBut S x) {T : Set ℕ} (hST : S ⊆ T) : KeptBut T x :=
  ⟨fun i hi => h.safe i fun hS => hi (hST hS), h.user, h.fresh, h.live, h.alive⟩

/-- A step that touches only clients in `S`. -/
theorem touch (h : KeptBut S x) (ht : Touches S x y)
    (hfresh : ∀ i ∈ S, x.next ≤ i → y.view i = .blank) : KeptBut S y := by
  obtain ⟨hview, hglobals, huses, hlive⟩ := ht
  obtain ⟨hnext, huser, hclose, hattached⟩ : y.next = x.next ∧ y.ctx.userData = x.ctx.userData
      ∧ y.ctx.closeCallback = x.ctx.closeCallback ∧ y.attached = x.attached := by
    simpa [globals] using hglobals
  refine ⟨fun i hi => hview i hi ▸ h.safe i hi, ?_, fun i hi => ?_, hlive h.live,
    huses ▸ h.alive⟩
  · rw [hnext, huser, hclose, hattached]
    exact h.user
  · by_cases hS : i ∈ S
    · exact hfresh i hS (hnext ▸ hi)
    · exact (hview i hS).trans (h.fresh i (hnext ▸ hi))

/-- A step that touches one client, which has been made. -/
theorem touch_made (h : KeptBut S x) {i : ℕ} (hS : S ⊆ {i}) (ht : Touches {i} x y)
    (hnext : i < x.next) : KeptBut {i} y :=
  (h.mono hS).touch ht fun _ hj hle =>
    absurd (Set.mem_singleton_iff.mp hj ▸ hle) (not_le_of_gt hnext)

/-- A client that turns out safe need not be left out. -/
theorem close {T : Set ℕ} (h : KeptBut T x) {i : ℕ} (hT : T ⊆ insert i S)
    (hsafe : Safe (x.view i)) : KeptBut S x := by
  refine ⟨fun j hj => ?_, h.user, h.fresh, h.live, h.alive⟩
  rcases eq_or_ne j i with rfl | hne
  · exact hsafe
  · exact h.safe j fun hjT => (Set.mem_insert_iff.mp (hT hjT)).elim hne hj

/-- A client with a connection has been made. -/
theorem lt_next (h : KeptBut S x) {i : ℕ} {conn : TcpConnection}
    (hconn : (x.ups i).client.conn = some conn) : i < x.next :=
  lt_of_not_ge fun hle => absurd
    (hconn.symm.trans (congrArg (·.client.conn) (h.fresh i hle))) (Option.some_ne_none conn)

end KeptBut

/-- A step that changes no view. -/
theorem Kept.of_touches {y : Exchange} (h : Kept x) (ht : Touches ∅ x y) : Kept y :=
  h.touch ht fun _ hi => absurd hi id

/-- A step that changes the view of one client. -/
theorem Kept.of_touches_one {y : Exchange} (h : Kept x) {i : ℕ} (ht : Touches {i} x y)
    (hsafe : Safe (y.view i)) (hfresh : x.next ≤ i → y.view i = .blank) : Kept y := by
  have hbut : KeptBut {i} x := h.mono (Set.empty_subset _)
  refine (hbut.touch ht fun j hj hnext => ?_).close (fun j hj => .inl hj) hsafe
  rw [Set.mem_singleton_iff.mp hj] at hnext ⊢
  exact hfresh hnext

/-- A step that changes the view of one client, which has been made. -/
theorem Kept.of_touches_made {y : Exchange} (h : Kept x) {i : ℕ} (ht : Touches {i} x y)
    (hnext : i < x.next) (hsafe : Safe (y.view i)) : Kept y :=
  (h.touch_made (Set.empty_subset _) ht hnext).close (fun _ hj => .inl hj) hsafe

/-- A connection that keeps its close callback. -/
theorem Kept.withConn (h : Kept x) {i : ℕ} {conn : TcpConnection}
    (hconn : (x.ups i).client.conn = some conn) {out : Outcome}
    (hclose : out.conn.closeCallback = conn.closeCallback) : Kept (x.withConn i out) := by
  refine h.of_touches_made (x.touches_withClient i _) (h.lt_next hconn) ?_
  rw [view_withConn_self]
  exact (h.safe i id).setConn hconn hclose

/-- Dropping a reference to a client keeps everyone safe, if it leaves that client safe. -/
theorem KeptBut.release {S T : Set ℕ} (h : KeptBut T x) {j : ℕ} (hT : T ⊆ insert j S)
    (hnext : j < x.next) (hafter : Safe ((x.release j).view j)) : KeptBut S (x.release j) := by
  have ht : Touches {j} x (x.release j) := touches_release j
  refine ((h.mono (Set.subset_insert j T)).touch (ht.mono (Set.singleton_subset_iff.mpr
    (Set.mem_insert j T))) fun i hi hle => ?_).close
      (Set.insert_subset (Set.mem_insert j S) hT) hafter
  have hne : i ≠ j := fun heq => absurd (heq ▸ hle) (not_le_of_gt hnext)
  exact (ht.view i hne).trans (h.fresh i hle)

/-- Dropping a reference to the context keeps everyone safe, those in `S` apart when they are
held. -/
theorem KeptBut.releaseContext {S : Set ℕ} (h : KeptBut S x)
    (hS : ∀ i ∈ S, (x.view i).Attached ∨ (x.view i).SelfHeld) :
    KeptBut S x.releaseContext ∧ ∀ i ∈ S, x.releaseContext.view i = x.view i := by
  rw [Exchange.releaseContext]
  rcases huser : x.ctx.userData with - | j
  · exact ⟨h, fun _ _ => rfl⟩
  dsimp only
  by_cases hj : j ∈ S
  · rw [release_of_held (hS j hj)]
    exact ⟨h, fun _ _ => rfl⟩
  · have hsafe := h.safe j hj
    refine ⟨h.release (Set.subset_insert j S) (h.user j huser).1
      (safe_release hsafe.toSound fun hrun => .inl (hsafe.running hrun)), fun i hi => ?_⟩
    exact (touches_release j).view i fun heq => hj (Set.mem_singleton_iff.mp heq ▸ hi)

/-! ## The end of a client's connection -/

/-- The close callback of the connection, in the view of a client that does not reconnect. -/
theorem View.after_handleClose (v : View) (hreconnect : v.client.reconnect = false) (sockfd : Fd)
    (answer : ConnectAnswer) : v.after (v.client.handleClose sockfd answer)
      = { v with client := { v.client with connection := false }, closeds := v.closeds + 1 } := by
  simp [View.after, TcpClient.handleClose, hreconnect, TcpClient.withConnector, Connector.quiet]

/-- **The close callback turns an open connection into a close task.** -/
theorem Safe.handleClose {v : View} (h : Safe v) {conn : TcpConnection}
    (hconn : v.client.conn = some conn) (hopen : conn.closeCallback = true) {out : Outcome}
    (hclosed : out.conn.closeCallback = false) (sockfd : Fd) (answer : ConnectAnswer) :
    Safe (View.after { v with client := { v.client with conn := some out.conn } }
      (TcpClient.handleClose { v.client with conn := some out.conn } sockfd answer)) := by
  have hisOpen : v.client.isOpen = true := by simp [TcpClient.isOpen, hconn, hopen]
  have hafter := View.after_handleClose { v with client := { v.client with conn := some out.conn } }
    h.reconnect sockfd answer
  have honce := h.once
  have hcount := h.closed
  have hmade : v.made = 1 := by simp [View.made, hconn]
  have hopened : v.opened = 1 := if_pos hisOpen
  rw [hafter]
  refine ⟨⟨fun _ => h.closing (.inl hisOpen), ?_, ?_, fun hc => absurd hc Bool.false_ne_true,
    h.reconnect⟩, h.running⟩
  · show v.starts + v.timers + v.client.connector.underWay + 1 ≤ 1
    omega
  · have hshut : View.opened { v with
        client := { v.client with conn := some out.conn, connection := false }
        closeds := v.closeds + 1 } = 0 := by simp [View.opened, TcpClient.isOpen, hclosed]
    rw [hshut]
    show v.closeds + 1 + 0 ≤ 1
    omega

/-- Noting that a client was found alive. -/
theorem KeptBut.use {S : Set ℕ} (h : KeptBut S x) {i : ℕ}
    (halive : (x.ups i).client.destroyed = false) :
    KeptBut S { x with uses := x.uses ++ [(i, !(x.ups i).client.destroyed)] } := by
  refine ⟨h.safe, h.user, h.fresh, h.live, fun u hu => ?_⟩
  rcases List.mem_append.mp hu with hu | hu
  · exact h.alive u hu
  · rw [List.mem_singleton.mp hu, halive]
    rfl

/-- **`handleClose` of an upstream connection finds its client alive**, and leaves it safe. -/
theorem Kept.upClosed (h : Kept x) {i : ℕ} {conn : TcpConnection}
    (hconn : (x.ups i).client.conn = some conn) (sockfd : Fd) (answer : ConnectAnswer) :
    Kept (x.upClosed i conn sockfd answer) := by
  have hsafe : Safe (x.view i) := h.safe i id
  have hnext : i < x.next := h.lt_next hconn
  have hview := x.view_withConn_self i conn.handleClose
  have ht : Touches {i} x (x.withConn i conn.handleClose) := x.touches_withClient i _
  rw [Exchange.upClosed]
  dsimp only
  rcases conn.handleClose_cases with ⟨hopen, hcalled, hcallbacks⟩ | ⟨hcalled, hclose, -⟩
  · have hshut : conn.handleClose.conn.closeCallback = false := congrArg (·.2.2.1) hcallbacks
    have hheld : (x.view i).Attached ∨ (x.view i).SelfHeld :=
      hsafe.closing (.inl (by simp [view, TcpClient.isOpen, hconn, hopen]))
    have hbut : KeptBut {i} (x.withConn i conn.handleClose) :=
      h.touch_made (Set.empty_subset _) ht hnext
    -- the context lets go of nothing: it, or the client itself, still holds the client
    obtain ⟨hbut, hsame⟩ := hbut.releaseContext fun j hj => by
      rw [Set.mem_singleton_iff.mp hj, hview]
      exact hheld
    have hlast := (hsame i rfl).trans hview
    have hclient := congrArg View.client hlast
    have halive : ((x.withConn i conn.handleClose).releaseContext.ups i).client.destroyed = false :=
      (congrArg TcpClient.destroyed hclient).trans (hheld.elim (·.2.1) (·.1))
    have hmem : Callback.close ∈ conn.handleClose.called := hcalled ▸ List.mem_singleton_self _
    rw [if_pos hmem]
    have hnext' := hbut.lt_next (congrArg TcpClient.conn hclient)
    refine ((hbut.use halive).touch_made le_rfl (touches_withClient _ i _) hnext').close
      (fun j hj => .inl hj) ?_
    rw [view_withClient_self]
    show Safe (((x.withConn i conn.handleClose).releaseContext.view i).after
      (TcpClient.handleClose ((x.withConn i conn.handleClose).releaseContext.view i).client _ _))
    rw [hlast]
    exact hsafe.handleClose hconn hopen hshut sockfd answer
  · have hmem : Callback.close ∉ conn.handleClose.called := by
      rw [hcalled]
      exact List.not_mem_nil
    rw [if_neg hmem]
    exact ((h.withConn hconn hclose).releaseContext fun j hj => absurd hj id).1

/-! ## The connector -/

theorem touches_withConnector (i : ℕ) (out : ConnectorOutcome) (f : Feed) :
    Touches {i} x (x.withConnector i out f) := by
  rw [withConnector]
  dsimp only
  split
  · exact (x.touches_withClient i _).trans (touches_withClient _ i _)
  · exact x.touches_withClient i _

/-- A connection just made writes its request, and is as safe as before. -/
theorem safe_withConnector {i : ℕ} {out : ConnectorOutcome}
    (h : Safe ((x.view i).after ((x.ups i).client.withConnector out))) (f : Feed) :
    Safe ((x.withConnector i out f).view i) := by
  rw [← view_withClient_self] at h
  rw [withConnector]
  dsimp only
  split
  · rename_i conn _ hconn
    rw [view_withConn_self]
    exact h.setConn hconn (congrArg (·.2.2.1) (conn.write_outputOnly _ _ _ _).callbacks)
  · exact h

/-- Nothing handed on makes no connection. -/
theorem withConnector_of_none (x : Exchange) (i : ℕ) {out : ConnectorOutcome} (f : Feed)
    (h : out.handed = none) :
    x.withConnector i out f = x.withClient i ((x.ups i).client.withConnector out) := by
  have hconnected : ((x.ups i).client.withConnector out).connected = false := by
    rw [TcpClient.withConnector, h]
    rfl
  rw [Exchange.withConnector, hconnected]

/-- A connector takes the chances it has, and hands nothing on. -/
theorem Kept.attempts (h : Kept x) {i : ℕ} {out : ConnectorOutcome} {k : ℕ}
    (hk : (x.view i).starts + (x.view i).timers + (x.view i).client.connector.underWay
      + (x.view i).made + k ≤ 1)
    (hspec : out.chances ≤ (x.ups i).client.connector.underWay + k
      ∧ out.connector.running = (x.ups i).client.connector.running ∧ out.handed = none)
    (hfresh : x.next ≤ i → (x.view i).after ((x.ups i).client.withConnector out) = .blank) :
    Kept (x.withClient i ((x.ups i).client.withConnector out)) := by
  obtain ⟨hchances, hrunning, hhanded⟩ := hspec
  refine h.of_touches_one (x.touches_withClient i _) ?_ fun hle =>
    (x.view_withClient_self i _).trans (hfresh hle)
  rw [view_withClient_self]
  refine (h.safe i id).withConnector hk hchances (fun hr => hrunning.symm.trans hr) fun hn => ?_
  rw [hhanded] at hn
  cases hn

/-- A client whose attempt is under way has been made. -/
theorem KeptBut.lt_next_of_polled {S : Set ℕ} (h : KeptBut S x) {i : ℕ}
    (hpolled : (x.ups i).client.connector.polled = true) : i < x.next :=
  lt_of_not_ge fun hle => absurd
    (hpolled.symm.trans (congrArg (·.client.connector.polled) (h.fresh i hle))) Bool.noConfusion

theorem Kept.connectWrite (h : Kept x) {i : ℕ}
    (hpolled : (x.ups i).client.connector.polled = true) (err : Bool) (f : Feed) :
    Kept (x.withConnector i ((x.ups i).client.connector.handleWrite err) f) := by
  obtain ⟨hchances, hrunning, hhanded⟩ := Connector.handleWrite_spec _ hpolled err
  have hway := Connector.underWay_of_polled _ hpolled
  refine h.of_touches_made (touches_withConnector i _ f) (h.lt_next_of_polled hpolled)
    (safe_withConnector ?_ f)
  exact (h.safe i id).withConnector (k := 0) (h.safe i id).once (hchances.trans_eq hway.symm)
    (fun hr => hrunning.symm.trans hr) hhanded

theorem Kept.connectError (h : Kept x) {i : ℕ}
    (hpolled : (x.ups i).client.connector.polled = true) :
    Kept (x.withClient i ((x.ups i).client.withConnector (x.ups i).client.connector.handleError)) := by
  obtain ⟨hchances, hrest⟩ := Connector.handleError_spec _ hpolled
  have hway := Connector.underWay_of_polled _ hpolled
  exact h.attempts (k := 0) (h.safe i id).once ⟨hchances.trans_eq hway.symm, hrest⟩ fun hle =>
    absurd hle (not_le_of_gt (h.lt_next_of_polled hpolled))

theorem Kept.retryTimer (h : Kept x) {i : ℕ} (hi : i ∈ x.timers) (sockfd : Fd)
    (answer : ConnectAnswer) :
    Kept ({ x with timers := x.timers.erase i }.withClient i
      ((x.ups i).client.withConnector ((x.ups i).client.connector.attempt sockfd answer))) := by
  have hpos : 0 < (x.view i).timers := List.count_pos_iff.mpr hi
  have hview : Exchange.view { x with timers := x.timers.erase i } i
      = { x.view i with timers := (x.view i).timers - 1 } := by
    simp [view, List.count_erase_self]
  have hnext : i < x.next := lt_of_not_ge fun hle => by
    rw [h.fresh i hle] at hpos
    exact absurd hpos (lt_irrefl 0)
  have ht : Touches {i} x { x with timers := x.timers.erase i } := by
    refine ⟨fun j hj => ?_, rfl, rfl, id⟩
    simp [view, List.count_erase_of_ne (Set.mem_singleton_iff.not.mp hj)]
  have honce := (h.safe i id).once
  have hone : (x.view i).starts + ((x.view i).timers - 1) + (x.view i).client.connector.underWay
      + (x.view i).made + 1 ≤ 1 := by omega
  have hkept : Kept { x with timers := x.timers.erase i } := by
    refine h.of_touches_made ht hnext ?_
    rw [hview]
    exact ⟨{ (h.safe i id).toSound with once := (Nat.le_succ _).trans hone }, (h.safe i id).running⟩
  refine hkept.attempts ?_ (Connector.attempt_spec _ sockfd answer) fun hle =>
    absurd hle (not_le_of_gt hnext)
  rw [hview]
  exact hone

/-! ## The downstream connection -/

/-- The end of the downstream connection shows in no view: a task is queued for it. -/
theorem touches_downClosed (x : Exchange) {out : Outcome}
    (h : out.conn.messageCallback = true → x.down.messageCallback = true)
    (hclosed : Callback.close ∈ out.called → out.conn.messageCallback = false) :
    Touches ∅ x (x.downClosed out) := by
  rw [downClosed]
  split
  · rename_i hmem
    refine (x.touches_withDown h).trans ⟨fun j _ => ?_, rfl, rfl, fun _ hm => ?_⟩
    · simp [view, List.count_append]
    · exact absurd ((hclosed hmem).symm.trans hm) Bool.false_ne_true
  · exact x.touches_withDown h

theorem touches_downClosed_handleClose (x : Exchange) :
    Touches ∅ x (x.downClosed x.down.handleClose) := by
  rcases x.down.handleClose_cases with ⟨-, -, hcallbacks⟩ | ⟨hcalled, -, hmessage⟩
  · have hnone : x.down.handleClose.conn.messageCallback = false := congrArg (·.1) hcallbacks
    exact x.touches_downClosed (fun hm => absurd (hnone.symm.trans hm) Bool.false_ne_true)
      fun _ => hnone
  · exact x.touches_downClosed hmessage fun hmem => absurd (hcalled ▸ hmem) List.not_mem_nil

theorem touches_runTask_down (x : Exchange) (env : TaskEnv) (t : ConnTask) :
    Touches ∅ x (x.runTask env (.down t)) := by
  rcases t with - | - | -
  · rw [runTask]
    split
    · exact x.touches_sendMore _ _
    · exact .refl ∅ x
  · exact x.touches_downClosed_handleClose
  · show Touches ∅ x (x.downClosed (x.down.runTask .shutdownWrite))
    exact x.touches_downClosed id fun hmem => absurd hmem List.not_mem_nil

/-! ## The oldest task is taken -/

/-- Taking a task shows in the view of its client only. -/
theorem touches_pop {t : LoopTask} {rest : List LoopTask} (htasks : x.tasks = t :: rest)
    {S : Set ℕ} (hS : ∀ j ∉ S, t ≠ .client j (.connector .start) ∧ t ≠ .client j .closed) :
    Touches S x { x with tasks := rest } := by
  refine ⟨fun j hj => ?_, rfl, rfl, fun hl hm => ⟨(hl hm).1, fun hmem => (hl hm).2 ?_⟩⟩
  · obtain ⟨hstart, hclosed⟩ := hS j hj
    simp [view, htasks, List.count_cons_of_ne hstart, List.count_cons_of_ne hclosed]
  · rw [htasks]
    exact List.mem_cons_of_mem t hmem

/-- A task of a connector, taken, is a chance to take. -/
theorem Kept.pop_connector (h : Kept x) {i : ℕ} {t : ConnectorTask} {rest : List LoopTask}
    (htasks : x.tasks = .client i (.connector t) :: rest) :
    Kept { x with tasks := rest }
      ∧ (Exchange.view { x with tasks := rest } i).starts + (x.view i).timers
          + (x.view i).client.connector.underWay + (x.view i).made + [t].count .start ≤ 1 := by
  have hstarts : (x.view i).starts
      = (Exchange.view { x with tasks := rest } i).starts + [t].count .start := by
    rcases t with - | - | - <;> simp [view, htasks]
  have hview : Exchange.view { x with tasks := rest } i
      = { x.view i with starts := (Exchange.view { x with tasks := rest } i).starts } := by
    simp [view, htasks]
  have honce := (h.safe i id).once
  have hone : (Exchange.view { x with tasks := rest } i).starts + (x.view i).timers
      + (x.view i).client.connector.underWay + (x.view i).made + [t].count .start ≤ 1 := by omega
  have ht : Touches {i} x { x with tasks := rest } := touches_pop htasks fun j hj =>
    ⟨fun heq => hj (LoopTask.client.inj heq).1.symm, fun heq => by cases heq⟩
  refine ⟨h.of_touches_one ht ?_ fun hle => ?_, hone⟩
  · rw [hview]
    exact ⟨{ (h.safe i id).toSound with once := (Nat.le_add_right _ _).trans hone },
      (h.safe i id).running⟩
  · rw [hview]
    rw [h.fresh i hle] at hstarts ⊢
    rw [(Nat.add_eq_zero_iff.mp hstarts.symm).1]
    rfl

/-- A task of the connector runs. -/
theorem Kept.connectorTask (h : Kept x) {i : ℕ} {t : ConnectorTask} {rest : List LoopTask}
    (htasks : x.tasks = .client i (.connector t) :: rest) (env : TaskEnv) :
    Kept ({ x with tasks := rest }.runTask env (.client i (.connector t))) := by
  obtain ⟨hkept, hone⟩ := h.pop_connector htasks
  have hspec := Connector.runTask_spec (x.ups i).client.connector env.sockfd env.answer t
  rw [runTask, runClientTask, withConnector_of_none _ _ _ hspec.2.2]
  refine hkept.attempts hone hspec fun hle => ?_
  have hblank := hkept.fresh i hle
  have hclient : (x.ups i).client = .new := congrArg View.client hblank
  rw [hblank, hclient]
  exact congrArg (fun out => View.blank.after (TcpClient.new.withConnector out))
    (Connector.runTask_new env.sockfd env.answer t)

/-- A task of the connection runs. -/
theorem Kept.connTask (h : Kept x) (i : ℕ) (t : ConnTask) (env : TaskEnv) :
    Kept (x.runTask env (.client i (.conn t))) := by
  rcases hconn : (x.ups i).client.conn with - | conn
  · rcases t with - | - | - <;> simpa only [runTask, runClientTask, hconn] using h
  · rcases t with - | - | - <;> simp only [runTask, runClientTask, hconn]
    · exact h.withConn hconn rfl
    · exact h.upClosed hconn env.sockfd env.answer
    · exact h.withConn hconn rfl

/-- The user's close callback, after the close task of the connection: the client it may let go has
nothing left to run. -/
theorem Kept.userClose (h : Kept x) {i : ℕ} (hnext : i < x.next)
    (hopen : (x.view i).client.isOpen = false) (hcloseds : (x.view i).closeds = 0) :
    Kept (x.userClose i) := by
  have hsafe := h.safe i id
  have hconnection := hsafe.connection_of_closed hopen
  rw [Exchange.userClose]
  rcases hclose : (x.ups i).client.closeCallback with - | - | -
  · exact h
  · exact h.of_touches (touches_forceClose x)
  · have hnotRunning : ¬ (x.ups i).client.connector.running = true := fun hrun =>
      absurd (hclose.symm.trans (hsafe.running hrun).2.2) (by simp)
    have hview := x.view_setClient_self i { (x.ups i).client with closeCallback := none }
    have hbut : KeptBut {i} (x.setClient i { (x.ups i).client with closeCallback := none }) :=
      h.touch_made (Set.empty_subset _) (x.touches_setClient i _) hnext
    refine hbut.release (fun j hj => .inl hj) hnext (safe_release ?_ fun hrun => ?_)
    · rw [hview]
      exact Sound.of_idle hopen hcloseds hsafe.once hconnection hsafe.reconnect
    · have hclient := congrArg (·.client.connector.running) hview
      exact absurd (hclient.symm.trans hrun) hnotRunning

/-- A close task, taken, is the last thing its connection had to run, and its client is alive. -/
theorem Kept.pop_closed (h : Kept x) {i : ℕ} {rest : List LoopTask}
    (htasks : x.tasks = .client i .closed :: rest) :
    Kept { x with tasks := rest } ∧ i < x.next ∧ (x.ups i).client.destroyed = false
      ∧ (x.ups i).client.isOpen = false ∧ (Exchange.view { x with tasks := rest } i).closeds = 0 := by
  have hsafe := h.safe i id
  have hcloseds : (x.view i).closeds = (Exchange.view { x with tasks := rest } i).closeds + 1 := by
    simp [view, htasks]
  have hview : Exchange.view { x with tasks := rest } i
      = { x.view i with closeds := (Exchange.view { x with tasks := rest } i).closeds } := by
    simp [view, htasks]
  have hheld : (x.view i).Attached ∨ (x.view i).SelfHeld :=
    hsafe.closing (.inr (hcloseds ▸ Nat.succ_pos _))
  have hnext : i < x.next := lt_of_not_ge fun hle => by
    rw [h.fresh i hle] at hcloseds
    exact absurd hcloseds (Nat.succ_ne_zero _).symm
  have hcount := hsafe.closed
  have honce := hsafe.once
  have hopened : (x.view i).opened = 0 := by omega
  have hrest : (Exchange.view { x with tasks := rest } i).closeds = 0 := by omega
  have hopen : (x.ups i).client.isOpen = false := Bool.eq_false_iff.mpr fun ho =>
    absurd ((if_pos ho).symm.trans hopened) one_ne_zero
  have ht : Touches {i} x { x with tasks := rest } := touches_pop htasks fun j hj =>
    ⟨(fun heq => by cases heq), fun heq => hj (LoopTask.client.inj heq).1.symm⟩
  refine ⟨h.of_touches_made ht hnext ?_, hnext, hheld.elim (·.2.1) (·.1), hopen, hrest⟩
  rw [hview, hrest]
  exact ⟨Sound.of_idle hopen rfl honce (hsafe.connection_of_closed hopen) hsafe.reconnect,
    hsafe.running⟩

/-- **The close task of a connection finds its client alive**, and leaves everyone safe. -/
theorem Kept.closedTask (h : Kept x) {i : ℕ} (hnext : i < x.next)
    (halive : (x.ups i).client.destroyed = false) (hopen : (x.ups i).client.isOpen = false)
    (hcloseds : (x.view i).closeds = 0) (env : TaskEnv) :
    Kept (x.runTask env (.client i .closed)) := by
  have hsafe := h.safe i id
  have hview := x.view_setClient_self i (x.ups i).client.connectDestroyed
  have hopen' : (x.ups i).client.connectDestroyed.isOpen = false :=
    (x.ups i).client.isOpen_connectDestroyed.trans hopen
  have hmade : (if (x.ups i).client.connectDestroyed.conn.isSome then 1 else 0) = (x.view i).made :=
    congrArg (fun b : Bool => if b = true then 1 else 0) Option.isSome_map
  have hsafe' : Safe ((x.setClient i (x.ups i).client.connectDestroyed).view i) := by
    rw [hview]
    refine ⟨Sound.of_idle hopen' hcloseds ?_ (hsafe.connection_of_closed hopen) hsafe.reconnect,
      hsafe.running⟩
    exact (congrArg (_ + ·) hmade).trans_le hsafe.once
  rw [runTask, runClientTask]
  have huse : KeptBut {i} { x with uses := x.uses ++ [(i, !(x.ups i).client.destroyed)] } :=
    KeptBut.use (h.mono (Set.empty_subset _)) halive
  refine Kept.userClose ((huse.touch_made le_rfl (touches_setClient _ i _) hnext).close
    (fun j hj => .inl hj) hsafe') hnext ?_ ?_
  · exact (congrArg (·.client.isOpen) hview).trans hopen'
  · exact (congrArg View.closeds hview).trans hcloseds

/-! ## Upstream bytes -/

/-- What an upstream has yet to send shows in no view. -/
theorem touches_setRemaining (x : Exchange) (i : ℕ) (bs : Bytes) :
    Touches ∅ x (x.setUp i { x.ups i with remaining := bs }) := by
  refine ⟨fun j _ => ?_, rfl, rfl, id⟩
  rcases eq_or_ne j i with rfl | hne
  · simp [view, setUp]
  · simp [view, setUp, hne]

/-- The message callback sends what was read on, and empties the buffer. -/
theorem Kept.upMessage (h : Kept x) {i : ℕ} {conn : TcpConnection}
    (hconn : (x.ups i).client.conn = some conn) (f : Feed) : Kept (x.upMessage i conn f) := by
  have hsent : Kept (x.send conn.readBuffer f).2 := h.of_touches (x.touches_send _ f)
  refine hsent.of_touches_made (touches_setClient _ i _) (hsent.lt_next hconn) ?_
  rw [Exchange.upMessage, view_setClient_self]
  have hclose : { conn with readBuffer := [] }.closeCallback = conn.closeCallback := rfl
  exact (hsent.safe i id).setConn hconn hclose

/-- **Bytes from an upstream** leave everyone safe. -/
theorem Kept.upRead (h : Kept x) (i n : ℕ) (f : Feed) : Kept (x.step (.upRead i n f)) := by
  rw [step]
  rcases hconn : (x.ups i).client.conn with - | conn
  · exact h
  dsimp only
  split
  · rename_i hread
    have hout := conn.handleRead_reads hread.2
    have hremaining := h.of_touches (x.touches_setRemaining i ((x.ups i).remaining.drop n))
    have hconn' : ((x.setUp i { x.ups i with remaining := (x.ups i).remaining.drop n }).ups
        i).client.conn = some conn := by simp [setUp, hconn]
    have hkept := hremaining.withConn hconn' (congrArg (·.conn.closeCallback) hout)
    split
    · exact hkept.upMessage (congrArg (·.client.conn) (view_withConn_self _ i _)) f
    · exact hkept
  · exact h

/-! ## The end of the context -/

/-- Forcing a client to close, in its view. -/
theorem View.after_forceClose (v : View) : ∃ conn, v.after v.client.forceClose
      = { v with client := { v.client with running := false, conn := conn } }
    ∧ (conn = v.client.conn ∨ ∃ c, v.client.conn = some c ∧ conn = some c.forceClose.conn) := by
  rw [TcpClient.forceClose, TcpClient.onConnection]
  split
  · split
    · exact ⟨v.client.conn, rfl, .inl rfl⟩
    · rename_i conn hconn
      exact ⟨_, View.after_withConn { v with client := { v.client with running := false } } _,
        .inr ⟨conn, hconn, rfl⟩⟩
  · exact ⟨v.client.conn, rfl, .inl rfl⟩

/-- Forcing a client to close leaves it as safe as it was. -/
theorem Safe.forceClose {v : View} (h : Safe v) : Safe (v.after v.client.forceClose) := by
  have hstopped : Safe { v with client := { v.client with running := false } } :=
    ⟨⟨h.closing, h.once, h.closed, h.connection, h.reconnect⟩, h.running⟩
  obtain ⟨_, hafter, rfl | ⟨conn, hconn, rfl⟩⟩ := v.after_forceClose
  · rw [hafter]
    exact hstopped
  · rw [hafter]
    exact hstopped.setConn hconn (congrArg (·.2.2.1) conn.callbacks_forceClose)

/-- The client that the close callback of the context makes hold itself. -/
def parting (c : TcpClient ProxyClose) : TcpClient ProxyClose :=
  { c with
    running := false
    connector := { c.connector with running := false }
    connectCallback := false
    messageCallback := false
    writeCompleteCallback := false
    closeCallback := some .hold }

theorem view_contextClose (x : Exchange) (i : ℕ) : (x.contextClose i).view i
    = View.after { x.view i with client := parting (x.ups i).client }
        (parting (x.ups i).client).forceClose := by
  have hstop : (x.view i).after (x.ups i).client.stopConnect = { x.view i with
      client := { (x.ups i).client with
        running := false
        connector := { (x.ups i).client.connector with running := false } } } := by
    simp [View.after, TcpClient.stopConnect, TcpClient.withConnector, Connector.stop, view]
  have hclient : ((x.withClient i (x.ups i).client.stopConnect).ups i).client
      = (x.ups i).client.stopConnect.client := by simp [withClient, setClient, setUp]
  have hparting : { (x.ups i).client.stopConnect.client with
      connectCallback := false
      messageCallback := false
      writeCompleteCallback := false
      closeCallback := some ProxyClose.hold } = parting (x.ups i).client := rfl
  rw [contextClose]
  dsimp only
  rw [hclient, hparting, view_withClient_self, view_setClient_self, view_withClient_self, hstop]
  simp [setClient, setUp]

/-- **The close callback of the context makes its client hold itself**, and stops its connector. -/
theorem Kept.safe_contextClose (h : Kept x) (i : ℕ) :
    Safe { (x.contextClose i).view i with owned := false } := by
  have hsafe := h.safe i id
  have hheld : Safe { x.view i with client := parting (x.ups i).client, owned := false } :=
    ⟨⟨fun hc => .inr ⟨(hsafe.closing hc).elim (·.2.1) (·.1), rfl⟩, hsafe.once, hsafe.closed,
      hsafe.connection, hsafe.reconnect⟩, fun hrun => absurd hrun Bool.false_ne_true⟩
  rw [view_contextClose]
  exact hheld.forceClose

/-- The connection lets go of its context. -/
theorem KeptBut.detach {S : Set ℕ} (h : KeptBut S x) (hdone : x.down.messageCallback = false)
    (hS : ∀ i ∈ S, x.ctx.userData = some i)
    (hsafe : ∀ i, x.ctx.userData = some i → Safe { x.view i with owned := false }) :
    Kept { x with
      ctx := { x.ctx with writeCompleteCallback := none, closeCallback := false }
      attached := false } := by
  have hview : ∀ i, Exchange.view { x with
      ctx := { x.ctx with writeCompleteCallback := none, closeCallback := false }
      attached := false } i = { x.view i with owned := false } := fun _ => rfl
  refine ⟨fun i _ => ?_, fun i hi => ⟨(h.user i hi).1, fun hatt => by cases hatt⟩, fun i hle => ?_,
    fun hm => absurd (hdone.symm.trans hm) Bool.false_ne_true, h.alive⟩
  · rw [hview]
    by_cases hi : x.ctx.userData = some i
    · exact hsafe i hi
    · have howned : (x.view i).owned = false := by simp [view, hi]
      have hsame : { x.view i with owned := false } = x.view i := by rw [← howned]
      rw [hsame]
      exact h.safe i fun hmem => hi (hS i hmem)
  · rw [hview, h.fresh i hle]
    rfl

theorem touches_contextClose (x : Exchange) (i : ℕ) : Touches {i} x (x.contextClose i) :=
  ((x.touches_withClient i _).trans (touches_setClient _ i _)).trans (touches_withClient _ i _)

/-- **`deleteConnection` leaves everyone safe.** -/
theorem Kept.deleteConnection (h : Kept x) (hdone : x.down.messageCallback = false) :
    Kept x.deleteConnection := by
  rw [Exchange.deleteConnection]
  split
  · rename_i hattached
    refine (KeptBut.releaseContext ?_ fun i hi => absurd hi id).1
    rcases huser : x.ctx.userData with - | i
    · have hsame : x.closeCallback = x := by
        rw [closeCallback, huser]
        rcases x.ctx.closeCallback with - | - <;> rfl
      rw [hsame]
      exact h.detach hdone (fun i hi => absurd hi id) fun i hi =>
        absurd (huser.symm.trans hi) (Option.some_ne_none i).symm
    · have hrun : x.closeCallback = x.contextClose i := by
        rw [closeCallback, huser, (h.user i huser).2 hattached]
      rw [hrun]
      have hbut : KeptBut {i} (x.contextClose i) :=
        h.touch_made (Set.empty_subset _) (x.touches_contextClose i) (h.user i huser).1
      refine hbut.detach hdone (fun j hj => Set.mem_singleton_iff.mp hj ▸ huser) fun j hj => ?_
      obtain rfl : i = j := Option.some.inj (huser.symm.trans hj)
      exact h.safe_contextClose i
  · exact h

/-! ## Requests -/

/-- A client just started, which the context holds. -/
theorem safe_started : Safe (View.after ⟨proxyClient, 0, 0, 0, true⟩ proxyClient.start) :=
  ⟨Sound.of_idle rfl rfl le_rfl rfl rfl, fun _ => ⟨rfl, rfl, rfl⟩⟩

/-- What `setUserData` does before it lets go of the client it replaces. -/
def replaceUser (x : Exchange) (forwarded response : Bytes) : Exchange :=
  { x.setUp x.next ⟨proxyClient, forwarded, response⟩ with
    ctx := ⟨some x.next, true, x.ctx.writeCompleteCallback⟩
    next := x.next + 1 }

/-- The close callback of the context holds no client. -/
theorem release_setClose (x : Exchange) (i : ℕ) :
    Exchange.release { x with ctx := { x.ctx with closeCallback := true } } i
      = { x.release i with ctx := { (x.release i).ctx with closeCallback := true } } := by
  by_cases hc : ((x.ups i).client.destroyed || x.held i) = true
  · have hsame : x.release i = x := if_pos hc
    rw [hsame]
    exact if_pos hc
  · have hgone : x.release i = x.withClient i ((x.ups i).client.destroy
        !(x.tasks.contains (.client i (.conn .handleClose)))) := if_neg hc
    rw [hgone]
    exact if_neg hc

theorem setUserData_setClose (x : Exchange) (forwarded response : Bytes) :
    { x.setUserData forwarded response with
      ctx := { (x.setUserData forwarded response).ctx with closeCallback := true } }
      = match x.ctx.userData with
        | none => x.replaceUser forwarded response
        | some i => (x.replaceUser forwarded response).release i := by
  rw [setUserData]
  rcases x.ctx.userData with - | i
  · rfl
  · exact (release_setClose _ i).symm

/-- The new client is set up, and whoever was in the user data is not held by it any more. -/
theorem Kept.replaceUser (h : Kept x) (hattached : x.attached = true) (forwarded response : Bytes) :
    KeptBut {i | i = x.next ∨ x.ctx.userData = some i} (x.replaceUser forwarded response)
      ∧ (x.replaceUser forwarded response).view x.next = ⟨proxyClient, 0, 0, 0, true⟩
      ∧ ∀ i ≠ x.next,
          (x.replaceUser forwarded response).view i = { x.view i with owned := false } := by
  have hother : ∀ i ≠ x.next,
      (x.replaceUser forwarded response).view i = { x.view i with owned := false } := fun i hne => by
    simp [Exchange.replaceUser, view, setUp, hne, hne.symm]
  have hsame : ∀ i ≠ x.next, x.ctx.userData ≠ some i →
      (x.replaceUser forwarded response).view i = x.view i := fun i hne huser => by
    have howned : (x.view i).owned = false := by simp [view, huser]
    rw [hother i hne, ← howned]
  refine ⟨⟨fun i hi => ?_, fun i hi => ?_, fun i hle => ?_, h.live, h.alive⟩, ?_, hother⟩
  · obtain ⟨hne, huser⟩ := not_or.mp hi
    rw [hsame i hne huser]
    exact h.safe i id
  · obtain rfl : x.next = i := Option.some.inj hi
    exact ⟨Nat.lt_succ_self _, fun _ => rfl⟩
  · have hlt : x.next < i := hle
    rw [hsame i hlt.ne' fun huser => absurd (h.user i huser).1 (not_lt_of_gt hlt)]
    exact h.fresh i hlt.le
  · have hblank := h.fresh x.next le_rfl
    have hstarts := congrArg View.starts hblank
    have hcloseds := congrArg View.closeds hblank
    have htimers := congrArg View.timers hblank
    simp only [view, View.blank] at hstarts hcloseds htimers
    simp [Exchange.replaceUser, view, setUp, hattached, hstarts, hcloseds, htimers]

/-- **A proxied request that replaces no client still in use leaves everyone safe.** -/
theorem Kept.proxyHandler (h : Kept x) (hattached : x.attached = true)
    (hidle : ∀ i, x.ctx.userData = some i →
      (x.ups i).client.isOpen = false ∧ (x.view i).closeds = 0)
    (resolved : Bool) (forwarded response : Bytes) (f : Feed) :
    Kept (x.proxyHandler resolved forwarded response f) := by
  rcases resolved with - | -
  · exact h.of_touches (x.touches_send badGateway f)
  obtain ⟨hbut, hview, hother⟩ := h.replaceUser hattached forwarded response
  -- the new client, once started, is safe in any state that has all the others safe
  have hstart : ∀ y : Exchange, KeptBut {x.next} y → y.view x.next = ⟨proxyClient, 0, 0, 0, true⟩ →
      y.next = x.next + 1 → Kept (y.withClient x.next (y.ups x.next).client.start) :=
    fun y hy hnew hnext => by
      have hclient : (y.ups x.next).client = proxyClient := congrArg View.client hnew
      refine (hy.touch (y.touches_withClient x.next _) fun j hj hle => ?_).close
        (fun j hj => .inl hj) ?_
      · rw [hnext, Set.mem_singleton_iff.mp hj] at hle
        exact absurd hle (Nat.not_succ_le_self _)
      · rw [view_withClient_self, hnew, hclient]
        exact safe_started
  suffices hkept : ∀ y, y = (match x.ctx.userData with
      | none => x.replaceUser forwarded response
      | some i => (x.replaceUser forwarded response).release i) →
      Kept (y.withClient x.next (y.ups x.next).client.start) from
    hkept _ (x.setUserData_setClose forwarded response)
  rintro y rfl
  rcases huser : x.ctx.userData with - | i
  · refine hstart _ (hbut.mono fun j hj => ?_) hview rfl
    exact hj.resolve_right fun hj => absurd (huser.symm.trans hj) (Option.some_ne_none j).symm
  · have hne : i ≠ x.next := (h.user i huser).1.ne
    have hclient : ((x.replaceUser forwarded response).ups i).client = (x.ups i).client :=
      congrArg View.client (hother i hne)
    have hsafe := h.safe i id
    obtain ⟨hopen, hcloseds⟩ := hidle i huser
    have hreleased : Safe (((x.replaceUser forwarded response).release i).view i) := by
      refine safe_release ?_ fun hrun => .inr ?_
      · rw [hother i hne]
        exact Sound.of_idle hopen hcloseds hsafe.once (hsafe.connection_of_closed hopen)
          hsafe.reconnect
      · rw [hclient] at hrun ⊢
        obtain ⟨-, hlives, hforward⟩ := hsafe.running hrun
        have hforward' : (x.ups i).client.closeCallback = some .forward := hforward
        refine ⟨hlives, ?_⟩
        rw [held, hclient, hforward']
        simp [Exchange.replaceUser, hne.symm]
    refine hstart _ (hbut.release (fun j hj => ?_) ((h.user i huser).1.trans (Nat.lt_succ_self _))
      hreleased) (((touches_release i).view x.next hne.symm).trans hview) ?_
    · exact hj.elim .inr fun hj => .inl (Option.some.inj (huser.symm.trans hj)).symm
    · exact congrArg (·.1) (touches_release i).globals

/-! ## Every run -/

/-- **A connection that ran its close callback, or its close task, found its client alive.** -/
def Outlived (x : Exchange) : Prop := ∀ u ∈ x.uses, u.2 = true

/-- **A proxied request that is dispatched finds no client in use**: one whose connection is open, or whose
close task is queued. -/
def Undisturbed (x : Exchange) : ExchangeEvent → Prop
  | .request (.proxied true _ _) _ => x.down.messageCallback = true → ∀ i ∈ x.ctx.userData,
    (x.ups i).client.isOpen = false ∧ LoopTask.client i .closed ∉ x.tasks
  | _ => True

/-- A task that is neither a `start` nor a close task shows in no view. -/
theorem Kept.pop (h : Kept x) {t : LoopTask} {rest : List LoopTask} (htasks : x.tasks = t :: rest)
    (ht : ∀ j, t ≠ .client j (.connector .start) ∧ t ≠ .client j .closed) :
    Kept { x with tasks := rest } :=
  h.of_touches (touches_pop htasks fun j _ => ht j)

/-- The oldest task runs. -/
theorem Kept.step_runTask (h : Kept x) (env : TaskEnv) : Kept (x.step (.runTask env)) := by
  rw [Exchange.step]
  rcases htasks : x.tasks with - | ⟨t | - | ⟨i, t | t | -⟩, rest⟩
  · exact h
  · exact (h.pop htasks fun j => ⟨nofun, nofun⟩).of_touches (touches_runTask_down _ env t)
  · have hpop := h.pop htasks fun j => ⟨nofun, nofun⟩
    have hdone : x.down.messageCallback = false := Bool.eq_false_iff.mpr fun hm =>
      absurd (htasks ▸ List.mem_cons_self) (h.live hm).2
    have hsame : x.down.connectDestroyed.messageCallback = x.down.messageCallback :=
      congrArg (·.1) x.down.callbacks_connectDestroyed
    refine Kept.deleteConnection (hpop.of_touches ⟨fun _ _ => rfl, rfl, rfl, fun hl hm => ?_⟩)
      (hsame.trans hdone)
    exact hl (hsame.symm.trans hm)
  · exact h.connectorTask htasks env
  · exact (h.pop htasks fun j => ⟨nofun, nofun⟩).connTask i t env
  · obtain ⟨hpop, hnext, halive, hopen, hcloseds⟩ := h.pop_closed htasks
    exact hpop.closedTask hnext halive hopen hcloseds env

/-- A request is dispatched. -/
theorem Kept.step_request (h : Kept x) (r : Request) (f : ℕ → Feed)
    (hr : x.Undisturbed (.request r f)) : Kept (x.step (.request r f)) := by
  rw [Exchange.step]
  split
  · rename_i hm
    have hnoted : Kept { x with expected := x.expected ++ [response r] } :=
      h.of_touches ⟨fun _ _ => rfl, rfl, rfl, id⟩
    rcases r with - | r | ⟨resolved, forwarded, response⟩
    · exact hnoted.of_touches (touches_sendError _ _ _)
    · exact hnoted.of_touches (touches_staticHandler _ _ _)
    · rcases resolved with - | -
      · exact hnoted.of_touches (touches_send _ badGateway _)
      · refine hnoted.proxyHandler (h.live hm).1 (fun i hi => ?_) true forwarded response (f 0)
        obtain ⟨hclosed, htold⟩ := hr hm i hi
        exact ⟨hclosed, List.count_eq_zero.mpr htold⟩
  · exact h

/-- **Every step keeps everyone safe.** -/
theorem Kept.step (h : Kept x) (e : ExchangeEvent) (he : x.Undisturbed e) : Kept (x.step e) := by
  cases e with
  | request r f => exact h.step_request r f he
  | downWrite events answer =>
    refine h.of_touches (x.touches_withDown fun hm => ?_)
    exact (congrArg (·.1) (TcpConnection.handleWrite_outputOnly _ answer).callbacks).symm.trans hm
  | downClose =>
    rw [Exchange.step]
    split
    · exact h.of_touches x.touches_downClosed_handleClose
    · exact h
  | connectWrite i err f =>
    rw [Exchange.step]
    split
    · rename_i hpolled
      exact h.connectWrite hpolled err f
    · exact h
  | connectError i =>
    rw [Exchange.step]
    split
    · rename_i hpolled
      exact h.connectError hpolled
    · exact h
  | retryTimer i sockfd answer =>
    rw [Exchange.step]
    split
    · rename_i hi
      exact h.retryTimer hi sockfd answer
    · exact h
  | upRead i n f => exact h.upRead i n f
  | upClose i sockfd answer =>
    rw [Exchange.step]
    rcases hconn : (x.ups i).client.conn with - | conn
    · exact h
    · dsimp only
      split
      · exact h.upClosed hconn sockfd answer
      · exact h
  | upWrite i events answer =>
    rw [Exchange.step]
    rcases hconn : (x.ups i).client.conn with - | conn
    · exact h
    · have hout := TcpConnection.handleWrite_outputOnly { conn with
        channel := conn.channel.setEvents events } answer
      exact h.withConn hconn (congrArg (·.2.2.1) hout.callbacks)
  | runTask env => exact h.step_runTask env

theorem kept_opened : Kept opened :=
  ⟨fun _ _ => safe_blank, (fun _ hi => by cases hi), fun _ _ => rfl,
    fun _ => ⟨rfl, List.not_mem_nil⟩, fun _ hu => absurd hu List.not_mem_nil⟩

/-- **A proxied client outlives its connection** in every run whose proxied requests replace no client
in use. -/
theorem outlived_of_undisturbed (es : List ExchangeEvent)
    (h : Meets Exchange.step Undisturbed opened es) : Outlived (run Exchange.step opened es) :=
  (inv_run (fun _ e hx he => hx.step e he) kept_opened h).alive

/-- What the tests and the refutations below have in common: the kernel takes everything, and an
attempt to connect gets under way. -/
def readyFeed : Feed := ⟨fun _ => 0, 0, .takes 100⟩

def readyEnv : TaskEnv := ⟨readyFeed, 7, .progress⟩

/-- A first upstream that cannot be reached, and a second one that closes its connection: its client's
close callback runs, and then its close task. -/
def secondUpstream : List ExchangeEvent :=
  [.request (.proxied true [1] []) fun _ => readyFeed, .runTask ⟨readyFeed, 7, .fatal⟩,
    .request (.proxied true [2] []) fun _ => readyFeed, .runTask readyEnv, .runTask readyEnv,
    .connectWrite 1 false readyFeed, .runTask readyEnv, .upClose 1 8 .progress, .runTask readyEnv,
    .runTask readyEnv]

theorem outlived_second_upstream : Outlived (run Exchange.step opened secondUpstream) :=
  outlived_of_undisturbed _
    ⟨nofun, trivial, fun _ i hi => by cases hi; decide, trivial, trivial, trivial, trivial, trivial, trivial,
      trivial, trivial⟩

example : (run Exchange.step opened secondUpstream).uses = [(1, true), (1, true)] := by decide +kernel

/-- **A second request on a kept-alive connection destroys the first one's client**, and the connection
of that client calls it when it is closed. -/
theorem second_request_destroys_client :
    ¬ Outlived (run Exchange.step opened
      [.request (.proxied true [1] []) fun _ => readyFeed, .runTask readyEnv,
        .connectWrite 0 false readyFeed, .runTask readyEnv,
        .request (.proxied true [2] []) fun _ => readyFeed, .runTask readyEnv]) := by
  intro h
  exact absurd (h (0, false) (by decide)) (by decide)

end Exchange
