import Rpx.Core.Attempts

/-!
# Core/Reconnect — a client that keeps at it

    start task  +  attempt under way  +  retry timers  +  connection   =   1

A client that reconnects, and that nobody stops, always has one of these and never two: what ends one of
them begins the next.  Only an answer of `::connect` after which no other attempt is made leaves it with
none, for good.  And the retries become rarer:

    delays since the last restart    500, 1000, 2000, …, 16000, 30000, 30000, …
-/

open Machinery

namespace Connector

variable {c : Connector} {fd : Fd} {answer : ConnectAnswer}

/-! ## What one call of the connector makes of its chance -/

/-- A socket that is given up while the connector runs is a timer. -/
theorem chances_retry (hrun : c.running = true) (hway : c.underWay = 0) : (c.retry fd).chances = 1 := by
  rw [retry, if_pos hrun]
  exact congrArg (· + 1) hway

/-- **`connect()` has a socket under way, or another attempt before it.** -/
theorem chances_connect (hrun : c.running = true) (hway : c.underWay = 0) (hanswer : answer ≠ .fatal) :
    (c.connect fd answer).chances = 1 := by
  cases answer with
  | progress => rfl
  | again => exact chances_retry hrun hway
  | fatal => exact absurd rfl hanswer

theorem handed_connect : (c.connect fd answer).handed = none := by
  cases answer with
  | progress => rfl
  | again => exact (c.retry_spec fd).2.2
  | fatal => rfl

theorem queued_retry : (c.retry fd).queued = [] := by
  rw [retry]
  split <;> rfl

theorem queued_connect : (c.connect fd answer).queued = [] := by
  cases answer with
  | progress => rfl
  | again => exact queued_retry
  | fatal => rfl

theorem running_connect : (c.connect fd answer).connector.running = c.running := by
  cases answer with
  | progress => rfl
  | again => exact (c.retry_spec fd).2.1
  | fatal => rfl

/-- **The end of an attempt hands its socket on, or sets a timer.** -/
theorem chances_handleWrite (hpolled : c.polled = true) (hstate : c.state = .connecting)
    (hrun : c.running = true) (err : Bool) :
    (c.handleWrite err).chances = 1 ∧ ∀ t ∈ (c.handleWrite err).queued,
      t = .reset ∧ (c.handleWrite err).handed.isSome = true := by
  obtain ⟨fd, hfd⟩ := c.exists_socket hpolled
  have hsocket := (c.unregisterChannel_of_socket hfd).1
  have hway := c.underWay_unregisterChannel
  have hrunning := c.running_unregisterChannel.trans hrun
  rw [handleWrite, if_pos hstate]
  rcases hu : c.unregisterChannel with ⟨- | fd', d⟩ <;> rw [hu] at hsocket hway hrunning
  · cases hsocket
  · dsimp only at hway hrunning ⊢
    split
    · refine ⟨chances_retry hrunning hway, fun t ht => ?_⟩
      rw [queued_retry] at ht
      cases ht
    · exact ⟨congrArg (· + 0 + 0 + 1) hway, fun t ht => ⟨List.mem_singleton.mp ht, rfl⟩⟩

theorem chances_handleError (hpolled : c.polled = true) (hstate : c.state = .connecting)
    (hrun : c.running = true) : c.handleError.chances = 1 ∧ c.handleError.queued = [] := by
  obtain ⟨fd, hfd⟩ := c.exists_socket hpolled
  have hsocket := (c.unregisterChannel_of_socket hfd).1
  have hway := c.underWay_unregisterChannel
  have hrunning := c.running_unregisterChannel.trans hrun
  rw [handleError, if_pos hstate]
  rcases hu : c.unregisterChannel with ⟨- | fd', d⟩ <;> rw [hu] at hsocket hway hrunning
  · cases hsocket
  · exact ⟨chances_retry hrunning hway, queued_retry⟩

end Connector

namespace Attempts

variable {s : Attempts}

/-! ## One chance at a time -/

/-- **The chances of a client**: attempts to come, under way and succeeded. -/
def chances (s : Attempts) : ℕ :=
  s.client.connector.underWay + s.timers + s.tasks.count (ClientTask.connector .start)
    + if s.client.connection then 1 else 0

/-- What the connector leaves behind is what the client has, for the attempt under way. -/
theorem chances_absorb {out : ConnectorOutcome} (h : out.handed.isSome = true → s.client.connection = false) :
    (s.absorb out).chances + s.client.connector.underWay = s.chances + out.chances := by
  have hcount : (s.absorb out).tasks.count (ClientTask.connector .start)
      = s.tasks.count (ClientTask.connector .start) + out.queued.count .start := by
    show (s.tasks ++ out.queued.map ClientTask.connector).count _ = _
    rw [List.count_append, List.count_map_of_injective _ _ fun _ _ heq => ClientTask.connector.inj heq]
  have htimers : (s.absorb out).timers = s.timers + out.timers.length := rfl
  rw [chances, chances, hcount, htimers, ConnectorOutcome.chances]
  cases hhanded : out.handed with
  | none =>
    have hclient : (s.absorb out).client = { s.client with connector := out.connector } := by
      rw [absorb, TcpClient.withConnector, hhanded]
      rfl
    rw [hclient]
    dsimp only [Option.toList, List.length_nil]
    omega
  | some fd =>
    have hclient : (s.absorb out).client
        = TcpClient.newConnection { s.client with connector := out.connector } := by
      rw [absorb, TcpClient.withConnector, hhanded]
      rfl
    have hconnector : (s.absorb out).client.connector = out.connector := by rw [hclient]; rfl
    have hconnection : (s.absorb out).client.connection = true := by rw [hclient]; rfl
    rw [hconnector, hconnection, h (by rw [hhanded]; rfl), if_pos rfl, if_neg Bool.false_ne_true]
    dsimp only [Option.toList, List.length_singleton]
    omega

/-- **What is asked of a run**: the client is started once and nobody stops it; `::connect` does not answer
with an error after which no other attempt is made; and a socket is reported closed only after the task
that its connecting queued has run, as it is within one iteration of the loop. -/
def Persists (s : Attempts) : AttemptEvent → Prop
  | .start => s.client.running = false
  | .stopConnect => False
  | .runTask answer | .timer answer => answer ≠ .fatal
  | .writable _ | .error => True
  | .peerClose answer => answer ≠ .fatal ∧ .connector .reset ∉ s.tasks

instance (s : Attempts) : ∀ e, Decidable (s.Persists e)
  | .start => inferInstanceAs (Decidable (_ = _))
  | .stopConnect => inferInstanceAs (Decidable False)
  | .runTask _ | .timer _ => inferInstanceAs (Decidable (_ ≠ _))
  | .writable _ | .error => inferInstanceAs (Decidable True)
  | .peerClose _ => inferInstanceAs (Decidable (_ ∧ _))

/-- What holds of such a run. -/
structure Persistent (s : Attempts) : Prop where
  kept : s.Kept
  reconnect : s.client.reconnect = true
  running : s.client.connector.running = s.client.running
  one : s.chances = if s.client.running then 1 else 0
  reset : .connector .reset ∈ s.tasks → s.client.connection = true
  tasks : ∀ t ∈ s.tasks, t = .connector .start ∨ t = .connector .reset ∨ t = .closed

theorem persistent_new : (new true).Persistent :=
  ⟨kept_new true, rfl, rfl, rfl, fun h => absurd h List.not_mem_nil, fun _ ht => absurd ht List.not_mem_nil⟩

/-- Nothing under way, and no socket. -/
theorem socket?_of_underWay {c : Connector} (h : c.underWay = 0) : c.socket? = none := by
  cases hpolled : c.polled with
  | true =>
    rw [c.underWay_of_polled hpolled] at h
    cases h
  | false => exact Option.isSome_eq_false_iff.mp (c.polled_eq ▸ hpolled) |> Option.isNone_iff_eq_none.mp

/-- **With a chance of another kind, there is no socket.** -/
theorem Persistent.clear (h : s.Persistent)
    (hchance : 0 < s.timers + s.tasks.count (ClientTask.connector .start)) :
    s.Clear ∧ s.client.running = true ∧ s.timers + s.tasks.count (ClientTask.connector .start) = 1 := by
  have hchances := h.one
  rw [Attempts.chances] at hchances
  cases hrun : s.client.running with
  | false =>
    rw [hrun, if_neg Bool.false_ne_true] at hchances
    omega
  | true =>
    rw [hrun, if_pos rfl] at hchances
    refine ⟨⟨socket?_of_underWay (by omega), ?_⟩, rfl, by omega⟩
    cases hconnection : s.client.connection with
    | false => rfl
    | true =>
      rw [hconnection, if_pos rfl] at hchances
      omega

/-- A connection leaves no socket under way. -/
theorem Kept.socket?_of_connection (h : s.Kept) (hconnection : s.client.connection = true) :
    s.client.connector.socket? = none := by
  rw [Option.eq_none_iff_forall_ne_some]
  intro fd hfd
  rw [(h.booked.polled fd hfd).2] at hconnection
  cases hconnection

/-- **A client that persists keeps to one socket.** -/
theorem Persistent.single (h : s.Persistent) (e : AttemptEvent) : s.Single e := by
  cases e with
  | runTask answer =>
    rw [Single]
    split
    · rename_i htask
      have hmem : .connector .start ∈ s.tasks := List.mem_of_head? htask
      exact fun _ _ => (h.clear (Nat.add_pos_right _ (List.count_pos_iff.mpr hmem))).1
    · rename_i htask
      have htasks := h.tasks _ (List.mem_of_head? htask)
      simp at htasks
    · rename_i htask
      exact h.kept.socket?_of_connection (h.reset (List.mem_of_head? htask))
    · trivial
  | timer answer => exact fun hpos _ _ => (h.clear (Nat.add_pos_left hpos _)).1
  | _ => trivial

/-- **The connector is left with one chance** where the client had none. -/
theorem persistent_of_absorb {s' : Attempts} {out : ConnectorOutcome} (hkept : s'.Kept)
    (hclient : s'.client = (s.absorb out).client) (htasks : s'.tasks = (s.absorb out).tasks)
    (htimers : s'.timers = (s.absorb out).timers) (hreconnect : s.client.reconnect = true)
    (hrun : s.client.running = true) (hrunning : out.connector.running = true)
    (hhanded : out.handed.isSome = true → s.client.connection = false)
    (hnone : s.chances = s.client.connector.underWay) (hone : out.chances = 1)
    (hqueued : ∀ t ∈ out.queued, t = .reset ∧ out.handed.isSome = true)
    (hreset : .connector .reset ∈ s.tasks → s.client.connection = true)
    (hothers : ∀ t ∈ s.tasks, t = .connector .start ∨ t = .connector .reset ∨ t = .closed) :
    s'.Persistent := by
  have hclient' : s'.client.reconnect = true ∧ s'.client.running = true
      ∧ s'.client.connector.running = true
      ∧ (s.client.connection = true ∨ out.handed.isSome = true → s'.client.connection = true) := by
    rw [hclient, absorb, TcpClient.withConnector]
    dsimp only
    split
    · exact ⟨hreconnect, hrun, hrunning, fun _ => rfl⟩
    · rename_i hno
      exact ⟨hreconnect, hrun, hrunning, fun hc => hc.resolve_right hno⟩
  obtain ⟨hreconnect', hrun', hrunning', hconnection'⟩ := hclient'
  have hmem : ∀ t, t ∈ s'.tasks ↔ t ∈ s.tasks ∨ ∃ u ∈ out.queued, t = .connector u := by
    intro t
    rw [htasks]
    show t ∈ s.tasks ++ out.queued.map ClientTask.connector ↔ _
    rw [List.mem_append, List.mem_map]
    simp only [eq_comm]
  refine ⟨hkept, hreconnect', hrunning'.trans hrun'.symm, ?_, fun hr => ?_, fun t ht => ?_⟩
  · have hchances := chances_absorb hhanded
    have hsame : s'.chances = (s.absorb out).chances := by
      rw [chances, chances, hclient, htasks, htimers]
    rw [hrun', if_pos rfl, hsame]
    omega
  · rcases (hmem _).mp hr with hr | ⟨u, hu, -⟩
    · exact hconnection' (.inl (hreset hr))
    · exact hconnection' (.inr (hqueued u hu).2)
  · rcases (hmem t).mp ht with ht | ⟨u, hu, rfl⟩
    · exact hothers t ht
    · rw [(hqueued u hu).1]
      exact .inr (.inl rfl)

/-! ## Every step -/

/-- A call of `connect()`, where the client had no chance left. -/
theorem persistent_of_connect {out : ConnectorOutcome} {answer : ConnectAnswer} {c : Connector}
    (hkept : (s.connect out answer).Kept) (hout : out = c.connect s.books.opened answer)
    (hway : c.underWay = 0) (hanswer : answer ≠ .fatal) (hreconnect : s.client.reconnect = true)
    (hrun : s.client.running = true) (hrunning : c.running = true) (hzero : s.chances = 0)
    (hreset : .connector .reset ∈ s.tasks → s.client.connection = true)
    (hothers : ∀ t ∈ s.tasks, t = .connector .start ∨ t = .connector .reset ∨ t = .closed) :
    (s.connect out answer).Persistent := by
  subst hout
  refine persistent_of_absorb (s := s) hkept rfl rfl rfl hreconnect
    hrun (Connector.running_connect.trans hrunning) (fun hn => ?_) ?_
    (Connector.chances_connect hrunning hway hanswer) (fun t ht => ?_) hreset hothers
  · rw [Connector.handed_connect] at hn
    cases hn
  · rw [hzero]
    rw [chances] at hzero
    omega
  · rw [Connector.queued_connect] at ht
    cases ht

/-- **A start task or a retry timer** takes the chance it is. -/
theorem Persistent.attempt {r : Attempts} {answer : ConnectAnswer} (h : s.Persistent)
    (hkept : (r.attempt answer).Kept) (hclient : r.client = s.client) (hrun : s.client.running = true)
    (hanswer : answer ≠ .fatal) (hzero : r.chances = 0) (htasks : ∀ t ∈ r.tasks, t ∈ s.tasks) :
    (r.attempt answer).Persistent := by
  have hrunning : r.client.connector.running = true := by rw [hclient, h.running, hrun]
  have hway : r.client.connector.underWay = 0 := by
    rw [chances] at hzero
    omega
  rw [Attempts.attempt, if_pos hrunning] at hkept ⊢
  refine persistent_of_connect hkept (if_pos hrunning) hway hanswer ?_ ?_ hrunning hzero (fun hr => ?_)
    fun t ht => h.tasks t (htasks t ht)
  · rw [hclient]
    exact h.reconnect
  · rw [hclient]
    exact hrun
  · rw [hclient]
    exact h.reset (htasks _ hr)

/-- The oldest task runs. -/
theorem Persistent.runTask (h : s.Persistent) {answer : ConnectAnswer} (hanswer : answer ≠ .fatal) :
    (s.step (.runTask answer)).Persistent := by
  have hkept := h.kept.step _ (h.single (.runTask answer))
  rw [Attempts.step] at hkept ⊢
  split at hkept
  · exact h
  · rename_i t rest htasks
    have hrest : ∀ u ∈ rest, u ∈ s.tasks := fun u hu => htasks ▸ List.mem_cons_of_mem t hu
    have ht : t ∈ s.tasks := htasks ▸ List.mem_cons_self
    rcases h.tasks t ht with rfl | rfl | rfl
    · obtain ⟨⟨hsocket, hconnection⟩, hrun, hone⟩ :=
        h.clear (Nat.add_pos_right _ (List.count_pos_iff.mpr ht))
      refine h.attempt hkept rfl hrun hanswer ?_ hrest
      have hchances := h.one
      rw [hrun, if_pos rfl, chances] at hchances
      rw [htasks, List.count_cons_self] at hone hchances
      show s.client.connector.underWay + s.timers + rest.count (ClientTask.connector .start)
        + (if s.client.connection then 1 else 0) = 0
      omega
    · have hconnection := h.reset ht
      have hway : s.client.connector.underWay = 0 := by
        rw [Connector.underWay, Connector.polled_eq, h.kept.socket?_of_connection hconnection]
        rfl
      refine ⟨hkept, h.reconnect, h.running, ?_, fun _ => hconnection, fun u hu => ?_⟩
      · have hchances := h.one
        rw [chances, hway, htasks, List.count_cons_of_ne (by simp)] at hchances
        show 0 + (s.timers + 0) + (rest ++ []).count (ClientTask.connector .start)
          + (if s.client.connection then 1 else 0) = _
        rw [List.append_nil]
        exact hchances
      · exact h.tasks u (hrest u (List.append_nil rest ▸ hu))
    · have hchances := h.one
      rw [chances, htasks, List.count_cons_of_ne (by simp)] at hchances
      rw [Attempts.runTask] at hkept ⊢
      split at hkept
      · rename_i hconnection
        rw [if_pos hconnection]
        exact ⟨hkept, h.reconnect, h.running, hchances, fun hr => h.reset (hrest _ hr),
          fun u hu => h.tasks u (hrest u hu)⟩
      · rename_i hconnection
        rw [if_neg hconnection]
        exact ⟨hkept, h.reconnect, h.running, hchances, fun hr => h.reset (hrest _ hr),
          fun u hu => h.tasks u (hrest u hu)⟩

theorem Persistent.timer (h : s.Persistent) {answer : ConnectAnswer} (hanswer : answer ≠ .fatal) :
    (s.step (.timer answer)).Persistent := by
  have hkept := h.kept.step _ (h.single (.timer answer))
  rw [Attempts.step] at hkept ⊢
  split at hkept
  · rename_i hpos
    rw [if_pos hpos]
    obtain ⟨⟨hsocket, hconnection⟩, hrun, hone⟩ := h.clear (Nat.add_pos_left hpos _)
    refine h.attempt hkept rfl hrun hanswer ?_ fun t ht => ht
    have hchances := h.one
    rw [hrun, if_pos rfl, chances] at hchances
    show s.client.connector.underWay + (s.timers - 1) + s.tasks.count (ClientTask.connector .start)
      + (if s.client.connection then 1 else 0) = 0
    omega
  · rename_i hnone
    rw [if_neg hnone]
    exact h

/-- A socket under way is the only chance. -/
theorem Persistent.under_way (h : s.Persistent) (hpolled : s.client.connector.polled = true) :
    s.client.running = true ∧ s.client.connector.state = .connecting ∧ s.client.connection = false
      ∧ s.chances = s.client.connector.underWay := by
  obtain ⟨fd, hfd⟩ := s.client.connector.exists_socket hpolled
  obtain ⟨hstate, hconnection⟩ := h.kept.booked.polled fd hfd
  have hway := s.client.connector.underWay_of_polled hpolled
  have hchances := h.one
  cases hrun : s.client.running with
  | false =>
    rw [hrun, if_neg Bool.false_ne_true, chances, hway] at hchances
    omega
  | true =>
    rw [hrun, if_pos rfl] at hchances
    exact ⟨rfl, hstate, hconnection, hchances.trans hway.symm⟩

/-- **The socket under way connects, or fails.** -/
theorem Persistent.writable (h : s.Persistent) (err : Bool) : (s.step (.writable err)).Persistent := by
  have hkept := h.kept.step _ (h.single (.writable err))
  rw [Attempts.step] at hkept ⊢
  split at hkept
  · rename_i hpolled
    rw [if_pos hpolled]
    obtain ⟨hrun, hstate, hconnection, hnone⟩ := h.under_way hpolled
    have hrunning := h.running.trans hrun
    obtain ⟨hone, hqueued⟩ := Connector.chances_handleWrite hpolled hstate hrunning err
    exact persistent_of_absorb hkept rfl rfl rfl h.reconnect hrun
      ((s.client.connector.handleWrite_spec hpolled err).2.1.trans hrunning) (fun _ => hconnection) hnone hone
      hqueued h.reset h.tasks
  · rename_i hno
    rw [if_neg hno]
    exact h

theorem Persistent.error (h : s.Persistent) : (s.step .error).Persistent := by
  have hkept := h.kept.step _ (h.single .error)
  rw [Attempts.step] at hkept ⊢
  split at hkept
  · rename_i hpolled
    rw [if_pos hpolled]
    obtain ⟨hrun, hstate, hconnection, hnone⟩ := h.under_way hpolled
    have hrunning := h.running.trans hrun
    obtain ⟨hone, hqueued⟩ := Connector.chances_handleError hpolled hstate hrunning
    refine persistent_of_absorb hkept rfl rfl rfl h.reconnect hrun
      ((s.client.connector.handleError_spec hpolled).2.1.trans hrunning) (fun _ => hconnection) hnone hone
      (fun t ht => ?_) h.reset h.tasks
    rw [hqueued] at ht
    cases ht
  · rename_i hno
    rw [if_neg hno]
    exact h

/-- **The connection closes**, and the client connects again. -/
theorem Persistent.peerClose (h : s.Persistent) {answer : ConnectAnswer} (hanswer : answer ≠ .fatal)
    (hreset : .connector .reset ∉ s.tasks) : (s.step (.peerClose answer)).Persistent := by
  have hkept := h.kept.step _ (h.single (.peerClose answer))
  rw [Attempts.step] at hkept ⊢
  split at hkept
  · exact h
  · rename_i conn hconn
    rw [afterConn] at hkept ⊢
    have hqueued : conn.handleClose.queued = [] := conn.queued_handleClose
    have hopen : conn.closeCallback = s.client.connection := by
      rw [← h.kept.isOpen, TcpClient.isOpen, hconn]
      rfl
    rcases conn.handleClose_cases with ⟨hset, hcalled, -⟩ | ⟨hcalled, -⟩
    · have hin : .close ∈ conn.handleClose.called := by
        rw [hcalled]
        exact List.mem_singleton_self _
      have hconnection : s.client.connection = true := hopen.symm.trans hset
      have hchances := h.one
      rw [if_pos hin] at hkept ⊢
      rw [chances, hconnection, if_pos rfl] at hchances
      have hrun : s.client.running = true := by
        by_contra hno
        rw [if_neg hno] at hchances
        omega
      rw [if_pos hrun] at hchances
      rw [handleClose, hqueued] at hkept ⊢
      have hboth : (s.client.reconnect && s.client.running) = true := by rw [h.reconnect, hrun]; rfl
      dsimp only at hkept ⊢
      rw [if_pos hboth] at hkept ⊢
      refine persistent_of_connect hkept rfl ?_ hanswer h.reconnect hrun rfl ?_ (fun hr => ?_) fun t ht => ?_
      · show s.client.connector.underWay = 0
        omega
      · show s.client.connector.underWay + s.timers
          + (s.tasks ++ [] ++ [ClientTask.closed]).count (ClientTask.connector .start) + 0 = 0
        rw [List.append_nil, List.count_append, List.count_singleton]
        simp
        omega
      · simp [hreset] at hr
      · simp only [List.map_nil, List.append_nil, List.mem_append, List.mem_singleton] at ht
        rcases ht with ht | rfl
        · exact h.tasks t ht
        · exact .inr (.inr rfl)
    · have hnot : ¬ .close ∈ conn.handleClose.called := by
        rw [hcalled]
        exact List.not_mem_nil
      rw [if_neg hnot, hqueued] at hkept ⊢
      refine ⟨hkept, h.reconnect, h.running, ?_, fun hr => ?_, fun t ht => ?_⟩
      · have hchances := h.one
        rw [chances] at hchances
        show s.client.connector.underWay + s.timers + (s.tasks ++ []).count (ClientTask.connector .start)
          + (if s.client.connection then 1 else 0) = _
        rw [List.append_nil]
        exact hchances
      · exact absurd (List.append_nil s.tasks ▸ hr) hreset
      · exact h.tasks t (List.append_nil s.tasks ▸ ht)

theorem Persistent.step (h : s.Persistent) {e : AttemptEvent} (he : s.Persists e) : (s.step e).Persistent := by
  cases e with
  | start =>
    have hstopped : s.client.running = false := he
    have hchances := h.one
    rw [hstopped, if_neg Bool.false_ne_true, chances] at hchances
    refine ⟨h.kept.step _ (h.single .start), h.reconnect, rfl, ?_, fun hr => ?_, fun t ht => ?_⟩
    · show s.client.connector.underWay + s.timers
        + (s.tasks ++ [ClientTask.connector .start]).count (ClientTask.connector .start)
        + (if s.client.connection then 1 else 0) = 1
      rw [List.count_append, List.count_singleton_self]
      omega
    · rcases List.mem_append.mp hr with hr | hr
      · exact h.reset hr
      · simp [TcpClient.start, TcpClient.withConnector, Connector.start] at hr
    · rcases List.mem_append.mp ht with ht | ht
      · exact h.tasks t ht
      · exact .inl (List.mem_singleton.mp ht)
  | stopConnect => exact absurd he id
  | runTask answer => exact h.runTask he
  | timer answer => exact h.timer he
  | writable err => exact h.writable err
  | error => exact h.error
  | peerClose answer => exact h.peerClose he.1 he.2

/-- **A client that reconnects is never idle, and never does two things at once.**  From when it is started,
as long as nobody stops it and no attempt meets an error that ends them all: it has exactly one of a start
task in the queue, a socket that is connecting, a retry timer, and a connection. -/
theorem never_idle (es : List AttemptEvent) (hes : Meets step Persists (new true) es) :
    let s := run step (new true) es
    s.client.running = true →
      s.client.connector.underWay + s.timers + s.tasks.count (ClientTask.connector .start)
        + (if s.client.connection then 1 else 0) = 1 := by
  intro s hrun
  have h : s.Persistent := inv_run (fun _ _ h he => h.step he) persistent_new hes
  have hchances := h.one
  rwa [hrun, if_pos rfl] at hchances

/-- Refused, refused while connecting, connected, closed, refused. -/
theorem never_idle_reconnects :
    let s := run step (new true)
      [.start, .runTask .again, .timer .progress, .error, .timer .progress, .writable false,
        .runTask .progress, .peerClose .again, .runTask .progress]
    s.client.running = true →
      s.client.connector.underWay + s.timers + s.tasks.count (ClientTask.connector .start)
        + (if s.client.connection then 1 else 0) = 1 :=
  never_idle _ (by decide)

/-- An answer such as `EACCES` ends all attempts. -/
example : (run step (new true) [.start, .runTask .fatal]).chances = 0 := by decide

end Attempts

/-! ## How long it waits -/

/-- The calls that a connector gets, from its client and from the loop. -/
inductive ConnectorCall
  | start
  | stop
  | restart (sockfd : Fd) (answer : ConnectAnswer)
  | runTask (sockfd : Fd) (answer : ConnectAnswer) (t : ConnectorTask)
  | timer (sockfd : Fd) (answer : ConnectAnswer)
  | handleWrite (err : Bool)
  | handleError

namespace Connector

variable (c : Connector)

def call : ConnectorCall → ConnectorOutcome
  | .start => c.start
  | .stop => c.stop
  | .restart sockfd answer => c.restart sockfd answer
  | .runTask sockfd answer t => c.runTask sockfd answer t
  | .timer sockfd answer => c.attempt sockfd answer
  | .handleWrite err => c.handleWrite err
  | .handleError => c.handleError

/-- **An attempt fails, to be made again**: `::connect` answers so, or the socket under way turns out to be no
connection, and the connector runs. -/
def fails : ConnectorCall → Bool
  | .restart _ answer => answer == .again
  | .runTask _ answer .start | .timer _ answer => c.running && answer == .again
  | .handleWrite err => c.running && err && c.state == .connecting && c.channel.isSome
  | .handleError => c.running && c.state == .connecting && c.channel.isSome
  | .start | .stop | .runTask _ _ .stop | .runTask _ _ .reset => false

/-- No timer and the delay kept, or one timer and the delay doubled. -/
def Waits (out : ConnectorOutcome) : Prop :=
  out.timers = [] ∧ out.connector.retryDelayMs = c.retryDelayMs
    ∨ out.timers = [c.retryDelayMs]
      ∧ out.connector.retryDelayMs = min (c.retryDelayMs * 2) kMaxRetryDelayMs

variable {c}

theorem waits_retry {fd : Fd} : c.Waits (c.retry fd) := by
  rw [retry]
  split
  · exact .inr ⟨rfl, rfl⟩
  · exact .inl ⟨rfl, rfl⟩

theorem waits_connect {fd : Fd} {answer : ConnectAnswer} : c.Waits (c.connect fd answer) := by
  cases answer with
  | progress => exact .inl ⟨rfl, rfl⟩
  | again => exact waits_retry
  | fatal => exact .inl ⟨rfl, rfl⟩

theorem waits_attempt {fd : Fd} {answer : ConnectAnswer} : c.Waits (c.attempt fd answer) := by
  rw [attempt]
  split
  · exact waits_connect
  · exact .inl ⟨rfl, rfl⟩

theorem retryDelayMs_unregisterChannel : c.unregisterChannel.2.retryDelayMs = c.retryDelayMs := by
  rcases hch : c.channel with - | ⟨fd, ch⟩ <;> simp [unregisterChannel, hch]

theorem waits_handleWrite {err : Bool} : c.Waits (c.handleWrite err) := by
  have hdelay := c.retryDelayMs_unregisterChannel
  rw [handleWrite]
  split
  · rcases hu : c.unregisterChannel with ⟨- | fd, d⟩ <;> rw [hu] at hdelay
    · exact .inl ⟨rfl, hdelay⟩
    · dsimp only at hdelay ⊢
      split
      · rw [Waits, ← hdelay]
        exact waits_retry (c := { d with state := .retrying })
      · split
        · exact .inl ⟨rfl, hdelay⟩
        · exact .inl ⟨rfl, hdelay⟩
  · exact .inl ⟨rfl, rfl⟩

theorem waits_handleError : c.Waits c.handleError := by
  have hdelay := c.retryDelayMs_unregisterChannel
  rw [handleError]
  split
  · rcases hu : c.unregisterChannel with ⟨- | fd, d⟩ <;> rw [hu] at hdelay
    · exact .inl ⟨rfl, hdelay⟩
    · dsimp only at hdelay ⊢
      rw [Waits, ← hdelay]
      exact waits_retry (c := { d with state := .retrying })
  · exact .inl ⟨rfl, rfl⟩

theorem waits_stopTask : c.Waits c.stopTask := by
  have hdelay := c.retryDelayMs_unregisterChannel
  by_cases hc : c.state = .connecting
  · rw [stopTask, if_pos hc]
    dsimp only
    split <;> exact .inl ⟨rfl, hdelay⟩
  · rw [stopTask, if_neg hc]
    dsimp only
    split <;> exact .inl ⟨rfl, rfl⟩

/-- **Every call but `restart()`** waits as long as the calls before it say. -/
theorem waits_call {e : ConnectorCall} (he : ∀ fd answer, e ≠ .restart fd answer) : c.Waits (c.call e) := by
  cases e with
  | start => exact .inl ⟨rfl, rfl⟩
  | stop => exact .inl ⟨rfl, rfl⟩
  | restart fd answer => exact absurd rfl (he fd answer)
  | runTask fd answer t =>
    cases t with
    | start => exact waits_attempt
    | stop => exact waits_stopTask
    | reset => exact .inl ⟨rfl, rfl⟩
  | timer fd answer => exact waits_attempt
  | handleWrite err => exact waits_handleWrite
  | handleError => exact waits_handleError

/-! ### Which calls start a timer -/

theorem length_timers_retry {fd : Fd} : (c.retry fd).timers.length = if c.running = true then 1 else 0 := by
  rw [retry]
  split <;> rfl

theorem length_timers_connect {fd : Fd} {answer : ConnectAnswer} (hrun : c.running = true) :
    (c.connect fd answer).timers.length = if (answer == .again) = true then 1 else 0 := by
  cases answer with
  | progress => rfl
  | again => exact length_timers_retry.trans (if_pos hrun)
  | fatal => rfl

theorem length_timers_attempt {fd : Fd} {answer : ConnectAnswer} :
    (c.attempt fd answer).timers.length = if (c.running && answer == .again) = true then 1 else 0 := by
  rw [attempt]
  split
  · rename_i hrun
    rw [length_timers_connect hrun, hrun, Bool.true_and]
  · rename_i hrun
    have hoff : c.running = false := by simpa using hrun
    rw [hoff]
    rfl

/-- The socket under way is given up. -/
theorem length_timers_unregisterChannel (fd : Fd) :
    (retry { c.unregisterChannel.2 with state := .retrying } fd).timers.length
      = if c.running = true then 1 else 0 := by
  rw [length_timers_retry]
  exact congrArg (if · = true then 1 else 0) c.running_unregisterChannel

theorem length_timers_handleWrite {err : Bool} : (c.handleWrite err).timers.length
    = if (c.running && err && c.state == .connecting && c.channel.isSome) = true then 1 else 0 := by
  rw [handleWrite]
  split
  · rename_i hstate
    cases hch : c.channel with
    | none => simp [unregisterChannel, hch, quiet]
    | some x =>
      have htimers := c.length_timers_unregisterChannel x.1
      rw [unregisterChannel, hch] at htimers ⊢
      cases err with
      | true => simpa [hstate] using htimers
      | false =>
        simp only [Bool.and_false, Bool.false_and, Bool.false_eq_true, if_false]
        split <;> rfl
  · rename_i hstate
    simp [hstate, quiet]

theorem length_timers_handleError : c.handleError.timers.length
    = if (c.running && c.state == .connecting && c.channel.isSome) = true then 1 else 0 := by
  rw [handleError]
  split
  · rename_i hstate
    cases hch : c.channel with
    | none => simp [unregisterChannel, hch, quiet]
    | some x =>
      have htimers := c.length_timers_unregisterChannel x.1
      rw [unregisterChannel, hch] at htimers ⊢
      simpa [hstate] using htimers
  · rename_i hstate
    simp [hstate, quiet]

/-- **A timer is started for each attempt that fails**, and for nothing else. -/
theorem length_timers_call (c : Connector) (e : ConnectorCall) :
    (c.call e).timers.length = if c.fails e = true then 1 else 0 := by
  cases e with
  | start => rfl
  | stop => rfl
  | restart fd answer => exact length_timers_connect rfl
  | runTask fd answer t =>
    cases t with
    | start => exact length_timers_attempt
    | stop => rfl
    | reset => rfl
  | timer fd answer => exact length_timers_attempt
  | handleWrite err => exact length_timers_handleWrite
  | handleError => exact length_timers_handleError

end Connector

/-- A connector, and the delays of the timers started since the last restart. -/
structure Delays where
  connector : Connector
  delays : List ℕ

namespace Delays

def new : Delays := ⟨.new, []⟩

def step (s : Delays) (e : ConnectorCall) : Delays where
  connector := (s.connector.call e).connector
  delays := (match e with | .restart _ _ => [] | _ => s.delays) ++ (s.connector.call e).timers

/-- **The delay before retry `k`**, in milliseconds. -/
def backoff (k : ℕ) : ℕ := min (Connector.kInitRetryDelayMs * 2 ^ k) Connector.kMaxRetryDelayMs

theorem backoff_succ (k : ℕ) : min (backoff k * 2) Connector.kMaxRetryDelayMs = backoff (k + 1) := by
  rw [backoff, backoff, pow_succ, ← mul_assoc, Connector.kMaxRetryDelayMs]
  omega

/-- The delays so far, and the next one. -/
structure Kept (s : Delays) : Prop where
  delays : s.delays = (List.range s.delays.length).map backoff
  next : s.connector.retryDelayMs = backoff s.delays.length

/-- The next delay is waited, or it stays the next. -/
theorem kept_of_waits {c : Connector} {out : ConnectorOutcome} {ds : List ℕ} (h : Kept ⟨c, ds⟩)
    (hout : c.Waits out) : Kept ⟨out.connector, ds ++ out.timers⟩ := by
  obtain ⟨hds, hnext⟩ := h
  dsimp only at hds hnext
  rcases hout with ⟨htimers, hdelay⟩ | ⟨htimers, hdelay⟩
  · rw [htimers, List.append_nil]
    exact ⟨hds, hdelay.trans hnext⟩
  · rw [htimers]
    refine ⟨?_, ?_⟩
    · dsimp only
      rw [List.length_append, List.length_singleton, List.range_succ, List.map_append, ← hds, hnext]
      rfl
    · dsimp only
      rw [List.length_append, List.length_singleton, hdelay, hnext]
      exact backoff_succ _

theorem Kept.step {s : Delays} (h : s.Kept) (e : ConnectorCall) : (s.step e).Kept := by
  by_cases he : ∃ fd answer, e = .restart fd answer
  · obtain ⟨fd, answer, rfl⟩ := he
    exact @kept_of_waits _ _ [] ⟨rfl, rfl⟩ Connector.waits_connect
  · have hne : ∀ fd answer, e ≠ .restart fd answer := fun fd answer heq => he ⟨fd, answer, heq⟩
    have hstep : s.step e = ⟨(s.connector.call e).connector, s.delays ++ (s.connector.call e).timers⟩ := by
      cases e with
      | restart fd answer => exact absurd rfl (hne fd answer)
      | _ => rfl
    rw [hstep]
    exact kept_of_waits h (Connector.waits_call hne)

/-- **The retries back off.**  Whatever calls a connector gets, in whatever order, retry `k` since the last
restart is `500 · 2ᵏ` milliseconds after the failure, and at most half a minute; to start again does not
begin anew.  Each attempt that fails while the connector runs has one retry, and no other call has any. -/
theorem backs_off (es : List ConnectorCall) :
    let s := run step new es
    (∀ k (hk : k < s.delays.length), s.delays[k] = min (500 * 2 ^ k) 30000)
      ∧ s.connector.retryDelayMs = min (500 * 2 ^ s.delays.length) 30000
      ∧ ∀ e, (s.connector.call e).timers.length = if s.connector.fails e = true then 1 else 0 := by
  intro s
  have h : s.Kept := inv_run (fun _ e h _ => h.step e) ⟨rfl, rfl⟩ (meets_true new es)
  refine ⟨fun k hk => ?_, h.next, s.connector.length_timers_call⟩
  have hget := List.getElem_of_eq h.delays hk
  rw [hget, List.getElem_map, List.getElem_range]
  rfl

end Delays
