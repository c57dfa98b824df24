import Rpx.Core.TcpServer
import Rpx.Machinery.Deferral

/-!
# Core/ServerRefs — what keeps a connection of a server alive

    in the table ──handleClose──▶ `conn` of the close ──queueInLoop──▶ connectDestroyed task ──▶ retired

Until it is closed a connection is kept by the table, then by the close that is in progress, and last by
the task that destroys it; whoever has none of these has a connection that is `DISCONNECTED` and out of the
poller for good (`ConnKept.gone`).  Write-complete tasks keep nothing: behind each of them, in the same
queue, comes the task that destroys the connection, or the close has yet to begin (`Kept.queue`).

Every step of a server keeps it so: `Kept.after`, `Kept.finishClose`, `Kept.pop`, `Kept.destroy`,
`Kept.handleNewConnection`.
-/

open Machinery

/-! ## The close of one connection -/

namespace TcpConnection

/-- The close callback is set until `handleClose` has run it. -/
def Closable (c : TcpConnection) : Prop :=
  c.closeCallback = true ∨ (c.Silent ∧ c.state = .disconnected)

/-- Out of the poller for good. -/
structure Retired (c : TcpConnection) : Prop where
  state : c.state = .disconnected
  added : c.channel.addedInLoop = false
  registered : c.channel.registered = none

/-- A call that does not close: it keeps the callbacks, and announces no output of a silent connection. -/
structure Keeps (c : TcpConnection) (out : Outcome) : Prop where
  callbacks : out.conn.callbacks = c.callbacks
  uncalled : .close ∉ out.called
  announced : .writeComplete ∈ out.queued → ¬ c.Silent
  forward : c.state.value ≤ out.conn.state.value

/-- A call that closes. -/
structure Closes (c : TcpConnection) (out : Outcome) : Prop where
  silent : out.conn.Silent
  state : out.conn.state = .disconnected
  queued : out.queued = []
  called : .close ∈ out.called

variable {c : TcpConnection} {out : Outcome}

theorem Keeps.silent_iff (h : c.Keeps out) : out.conn.Silent ↔ c.Silent := by
  rw [Silent, Silent, h.callbacks]

theorem Keeps.closable (h : c.Keeps out) (hc : c.Closable) : out.conn.Closable := by
  rcases hc with hset | ⟨hsilent, hstate⟩
  · exact .inl ((congrArg (·.2.2.1) h.callbacks).trans hset)
  · refine .inr ⟨h.silent_iff.mpr hsilent, StateE.eq_disconnected ?_⟩
    rw [← hstate]
    exact h.forward

/-- A silent connection is closed. -/
theorem Closable.disconnected (h : c.Closable) (hs : c.Silent) : c.state = .disconnected := by
  rcases h with hset | ⟨-, hstate⟩
  · have hclear : c.closeCallback = false := congrArg (·.2.2.1) hs
    rw [hclear] at hset
    cases hset
  · exact hstate

/-- Nothing but the connection changes, and that not in its callbacks. -/
theorem Keeps.of_quiet {d : TcpConnection} (hcallbacks : d.callbacks = c.callbacks)
    (hstate : c.state.value ≤ d.state.value) : c.Keeps d.quiet :=
  ⟨hcallbacks, List.not_mem_nil, fun h => absurd h List.not_mem_nil, hstate⟩

/-- Output queues the write-complete task only where the callback is set. -/
theorem Keeps.of_output (h : c.OutputOnly out) (hcalled : .close ∉ out.called)
    (hqueued : out.queued = [] ∨ out.queued = c.writeCompleteTask) : c.Keeps out := by
  refine ⟨h.callbacks, hcalled, fun hq hs => ?_, (congrArg StateE.value h.state).ge⟩
  rcases hqueued with hnil | htask
  · rw [hnil] at hq
    exact absurd hq List.not_mem_nil
  · have hclear : c.writeCompleteCallback = false := congrArg (·.2.1) hs
    rw [htask, writeCompleteTask, hclear] at hq
    exact absurd hq List.not_mem_nil

/-- A call that only runs a callback other than the close callback. -/
theorem Keeps.of_called {d : TcpConnection} {sent : Bytes} {called : List Callback}
    (hcallbacks : d.callbacks = c.callbacks) (hstate : d.state = c.state) (hcalled : .close ∉ called) :
    c.Keeps ⟨d, sent, [], called⟩ :=
  ⟨hcallbacks, hcalled, fun h => absurd h List.not_mem_nil, (congrArg StateE.value hstate).ge⟩

variable (c)

theorem write_queued (data : Pointer) (len : ℕ) (junk : ℤ) (answer : WriteAnswer) :
    (c.write data len junk answer).2.queued = []
      ∨ (c.write data len junk answer).2.queued = c.writeCompleteTask := by
  by_cases hp : c.pending = true
  · rw [c.write_of_pending hp]
    exact .inl rfl
  · rw [c.write_of_not_pending (Bool.not_eq_true _ ▸ hp)]
    rcases answer.result len with (- | -) | n
    · exact .inl rfl
    · exact .inl rfl
    · dsimp only
      split
      · exact .inr rfl
      · exact .inl rfl

theorem keeps_handleError : c.Keeps c.handleError := by
  refine .of_called rfl rfl ?_
  cases c.errorCallback <;> decide

theorem keeps_handleWrite (answer : WriteAnswer) : c.Keeps (c.handleWrite answer) := by
  have hout := c.handleWrite_outputOnly answer
  rw [handleWrite] at hout ⊢
  split
  · rename_i hevent
    rw [if_pos hevent] at hout
    rcases hanswer : answer.result c.writeBuffer.length with (- | -) | n
    · exact .of_quiet rfl le_rfl
    · exact c.keeps_handleError
    · rw [hanswer] at hout
      dsimp only at hout ⊢
      split
      · rename_i hempty
        rw [if_pos hempty] at hout
        exact .of_output hout List.not_mem_nil (.inr rfl)
      · exact .of_called rfl rfl List.not_mem_nil
  · exact .of_quiet rfl le_rfl

/-- **What user code calls does not close.** -/
theorem keeps_call (call : ConnCall) : c.Keeps (c.call call) := by
  cases call with
  | write data len junk answer =>
    refine .of_output (c.write_outputOnly data len junk answer) ?_ (c.write_queued data len junk answer)
    show .close ∉ (c.write data len junk answer).2.called
    rw [c.write_called data len junk answer]
    exact List.not_mem_nil
  | shutdown inLoop =>
    cases inLoop with
    | false =>
      refine ⟨rfl, List.not_mem_nil, fun h => ?_, le_rfl⟩
      exact absurd (List.mem_singleton.mp h) (by decide)
    | true => exact .of_quiet rfl le_rfl
  | forceClose =>
    show c.Keeps c.forceClose
    rw [forceClose]
    split
    · rename_i hstate
      refine ⟨rfl, List.not_mem_nil, fun h => absurd (List.mem_singleton.mp h) (by decide), ?_⟩
      rw [hstate]
      exact Nat.le_succ _
    · exact .of_quiet rfl le_rfl

variable {c}

/-- **`handleClose` closes a connection that is open**, and does nothing to one that is not. -/
theorem Closable.handleClose (h : c.Closable) : c.Keeps c.handleClose ∨ c.Closes c.handleClose := by
  by_cases hopen : c.state = .established ∨ c.state = .disconnecting
  · right
    have hset : c.closeCallback = true := by
      refine h.resolve_right fun hs => ?_
      rw [hs.2] at hopen
      exact absurd hopen (by simp)
    rw [TcpConnection.handleClose, if_pos hopen, hset]
    exact ⟨rfl, rfl, rfl, List.mem_singleton_self _⟩
  · rw [TcpConnection.handleClose, if_neg hopen]
    exact .inl (.of_quiet rfl le_rfl)

theorem Closable.handle (h : c.Closable) (read : ReadAnswer) (write : WriteAnswer) (hd : Handler) :
    c.Keeps (c.handle read write hd) ∨ c.Closes (c.handle read write hd) := by
  cases hd with
  | close => exact h.handleClose
  | error => exact .inl c.keeps_handleError
  | read =>
    rcases read with (- | ⟨b, bs⟩) | (- | -)
    · exact h.handleClose
    · refine .inl (.of_called rfl rfl ?_)
      cases c.messageCallback <;> decide
    · exact .inl (.of_quiet rfl le_rfl)
    · exact .inl c.keeps_handleError
  | write => exact .inl (c.keeps_handleWrite write)

theorem Closable.runTask (h : c.Closable) (t : ConnTask) :
    c.Keeps (c.runTask t) ∨ c.Closes (c.runTask t) := by
  cases t with
  | writeComplete =>
    refine .inl (.of_called rfl rfl ?_)
    cases c.writeCompleteCallback <;> decide
  | handleClose => exact h.handleClose
  | shutdownWrite => exact .inl (.of_quiet rfl le_rfl)

/-- **A connection is established by nothing else than `connectEstablished`.** -/
theorem connecting_handleClose (h : c.state = .connecting) : c.handleClose.conn.state = .connecting := by
  rw [TcpConnection.handleClose, if_neg (by simp [h])]
  exact h

theorem connecting_handle (h : c.state = .connecting) (read : ReadAnswer) (write : WriteAnswer)
    (hd : Handler) : (c.handle read write hd).conn.state = .connecting := by
  cases hd with
  | close => exact connecting_handleClose h
  | error => exact h
  | read =>
    rcases read with (- | ⟨b, bs⟩) | (- | -)
    · exact connecting_handleClose h
    all_goals exact h
  | write => exact (c.handleWrite_outputOnly write).state.trans h

theorem connecting_call (h : c.state = .connecting) (call : ConnCall) :
    (c.call call).conn.state = .connecting := by
  cases call with
  | write data len junk answer => exact (c.write_outputOnly data len junk answer).state.trans h
  | shutdown inLoop => cases inLoop <;> exact h
  | forceClose =>
    show c.forceClose.conn.state = .connecting
    rw [forceClose, if_neg (by simp [h])]
    exact h

theorem connecting_runTask (h : c.state = .connecting) (t : ConnTask) :
    (c.runTask t).conn.state = .connecting := by
  cases t with
  | handleClose => exact connecting_handleClose h
  | _ => exact h

/-- **A retired connection stays so**, whatever user code calls or left to be run. -/
theorem Retired.call (h : c.Retired) (call : ConnCall) : (c.call call).conn.Retired := by
  have hchannel := call_of_disconnected h.state call
  have hforward := (c.call_onward call).forward
  rw [h.state] at hforward
  exact ⟨StateE.eq_disconnected hforward, hchannel ▸ h.added, hchannel ▸ h.registered⟩

theorem Retired.runTask (h : c.Retired) (t : ConnTask) : (c.runTask t).conn.Retired := by
  have hchannel := runTask_of_disconnected h.state t
  have hforward := (c.runTask_onward t).forward
  rw [h.state] at hforward
  exact ⟨StateE.eq_disconnected hforward, hchannel ▸ h.added, hchannel ▸ h.registered⟩

end TcpConnection

/-! ## What keeps a connection -/

/-- The connection whose `this` a task captures, other than that of a `shutdown()`. -/
def IoTask.follows : IoTask → Option ConnId
  | .conn c .writeComplete => some c
  | _ => none

/-- The connection that a `connectDestroyed` task keeps. -/
def IoTask.destroys : IoTask → Option ConnId
  | .connectDestroyed c => some c
  | _ => none

/-- The connection that a task is about. -/
def IoTask.about : IoTask → ConnId
  | .connectEstablished c | .conn c _ | .connectDestroyed c => c

namespace TcpServer

/-- A task of a loop is taken, and these are left. -/
def dequeue (s : TcpServer) (loop : ℕ) (rest : List IoTask) : TcpServer :=
  { s with tasks := Function.update s.tasks loop rest }

variable {s : TcpServer} {c d : ConnId} {x y : ServerConn} {out : Outcome} {loop : ℕ}

theorem conns_after (s : TcpServer) (c : ConnId) (x : ServerConn) (out : Outcome) :
    (s.after c x out).conns = s.conns.set c { x with conn := out.conn } := by
  rw [after]
  split <;> rfl

theorem tasks_after (s : TcpServer) (c : ConnId) (x : ServerConn) (out : Outcome) :
    (s.after c x out).tasks
      = Function.update s.tasks x.loop (s.tasks x.loop ++ out.queued.map (.conn c)) := by
  rw [after]
  split <;> rfl

theorem closing_after (s : TcpServer) (c : ConnId) (x : ServerConn) (out : Outcome) :
    (s.after c x out).closing
      = if .close ∈ out.called then Function.update s.closing x.loop (some c) else s.closing := by
  rw [after]
  split <;> rfl

/-- A change of the connection alone. -/
theorem put_eq_after (s : TcpServer) (c : ConnId) (x : ServerConn) (conn : TcpConnection) :
    s.put c x conn = s.after c x conn.quiet := by
  have hquiet : .close ∉ conn.quiet.called := List.not_mem_nil
  rw [after, if_neg hquiet, queueInLoop]
  simp [put, TcpConnection.quiet]

/-- **The close of a connection is in progress**: its loop is between the two `queueInLoop` calls, or has
the task that destroys it. -/
def Closing (s : TcpServer) (c : ConnId) (x : ServerConn) : Prop :=
  s.closing x.loop = some c ∨ .connectDestroyed c ∈ s.tasks x.loop

/-- **What keeps a connection, whatever user code does**: the table until it is closed, then the close. -/
def Anchored (s : TcpServer) (c : ConnId) (x : ServerConn) : Prop := ¬ x.conn.Silent ∨ s.Closing c x

theorem Sound.alive_of_anchored (h : s.Sound) (hx : s.conns[c]? = some x) (ha : s.Anchored c x) :
    s.alive c = true := by
  rcases ha with hloud | hclosing | htask
  · exact alive_of_connections hx (h.listed c x hx hloud).1
  · simp [alive, hx, hclosing]
  · have hholds : (s.tasks x.loop).any (·.holds == some c) = true :=
      List.any_eq_true.mpr ⟨_, htask, by simp [IoTask.holds]⟩
    simp [alive, hx, hholds]

/-- A connection of the loop. -/
def At (s : TcpServer) (loop : ℕ) (c : ConnId) : Prop := ∃ x, s.conns[c]? = some x ∧ x.loop = loop

/-- A connection of the loop that the loop itself keeps, whatever tasks it has. -/
def Anchor (s : TcpServer) (loop : ℕ) (c : ConnId) : Prop :=
  ∃ x, s.conns[c]? = some x ∧ x.loop = loop ∧ (¬ x.conn.Silent ∨ s.closing loop = some c)

/-- **What holds of one connection.** -/
structure ConnKept (s : TcpServer) (c : ConnId) (x : ServerConn) : Prop where
  tracked : x.conn.Tracked
  closable : x.conn.Closable
  /-- `connectEstablished` comes once, and first. -/
  first : .connectEstablished c ∈ s.tasks x.loop → x.conn.state = .connecting
  once : (s.tasks x.loop).count (.connectEstablished c) ≤ 1
  silent : s.Closing c x → x.conn.Silent
  gone : ¬ s.Anchored c x → x.conn.Retired

/-- **What holds of all connections.** -/
structure Kept (s : TcpServer) : Prop where
  sound : s.Sound
  conn : ∀ c x, s.conns[c]? = some x → s.ConnKept c x
  queue : ∀ loop, Deferred IoTask.follows IoTask.destroys (s.Anchor loop) (s.tasks loop)
  placed : ∀ loop, ∀ t ∈ s.tasks loop, s.At loop t.about
  closes : ∀ loop c, s.closing loop = some c → s.At loop c

/-- The connections that a loop reaches. -/
def Reached (s : TcpServer) (loop : ℕ) (c : ConnId) : Prop :=
  ∃ x, s.conns[c]? = some x ∧ x.loop = loop ∧ s.Anchored c x

theorem Anchor.reached (h : s.Anchor loop c) : s.Reached loop c := by
  obtain ⟨x, hx, rfl, hkeeps⟩ := h
  exact ⟨x, hx, rfl, hkeeps.imp_right .inl⟩

theorem Reached.alive (h : s.Reached loop c) (hs : s.Sound) : s.alive c = true := by
  obtain ⟨x, hx, -, ha⟩ := h
  exact hs.alive_of_anchored hx ha

/-! ## A member function of a connection -/

/-- A task that a connection queues is no `connectEstablished` and no `connectDestroyed`. -/
theorem mem_tasks_after {t : IoTask} (ht : ∀ u, t ≠ .conn c u) :
    t ∈ (s.after c x out).tasks loop ↔ t ∈ s.tasks loop := by
  rw [tasks_after]
  rcases eq_or_ne loop x.loop with rfl | hne
  · rw [Function.update_self, List.mem_append]
    refine or_iff_left fun hmem => ?_
    obtain ⟨u, -, rfl⟩ := List.mem_map.mp hmem
    exact ht u rfl
  · rw [Function.update_of_ne hne]

theorem count_tasks_after (s : TcpServer) (c : ConnId) (x : ServerConn) (out : Outcome) (loop : ℕ)
    (d : ConnId) : ((s.after c x out).tasks loop).count (.connectEstablished d)
      = (s.tasks loop).count (.connectEstablished d) := by
  rw [tasks_after]
  rcases eq_or_ne loop x.loop with rfl | hne
  · have hnone : (out.queued.map (IoTask.conn c)).count (.connectEstablished d) = 0 := by
      rw [List.count_eq_zero]
      simp
    rw [Function.update_self, List.count_append, hnone, Nat.add_zero]
  · rw [Function.update_of_ne hne]

/-- Connections stay where they are. -/
theorem At.set (h : s.At loop d) (hx : s.conns[c]? = some x) {t : TcpServer} {conn : TcpConnection}
    (hconns : t.conns = s.conns.set c { x with conn := conn }) : t.At loop d := by
  obtain ⟨y, hy, hloop⟩ := h
  rw [At, hconns, getElem?_set_conns hx]
  split
  · rename_i hcd
    subst hcd
    obtain rfl := Option.some.inj (hx.symm.trans hy)
    exact ⟨_, rfl, hloop⟩
  · exact ⟨y, hy, hloop⟩

theorem At.after (h : s.At loop d) (hx : s.conns[c]? = some x) (out : Outcome) :
    (s.after c x out).At loop d :=
  h.set hx (s.conns_after c x out)

/-- **What a call leaves of the close of a connection**, of another one or of its own. -/
theorem closing_after_of_ne (hfree : .close ∈ out.called → s.closing x.loop = none) {j : ConnId}
    (h : s.closing loop = some j) : (s.after c x out).closing loop = some j := by
  rw [closing_after]
  split
  · rename_i hclose
    have hne : loop ≠ x.loop := by
      rintro rfl
      rw [hfree hclose] at h
      cases h
    rw [Function.update_of_ne hne, h]
  · exact h

/-- The closes of the other connections stay as they are. -/
theorem closing_after_iff_of_ne (hne : d ≠ c) (hfree : .close ∈ out.called → s.closing x.loop = none) :
    (s.after c x out).Closing d y ↔ s.Closing d y := by
  refine or_congr ⟨fun h => ?_, closing_after_of_ne hfree⟩ (mem_tasks_after (by simp))
  rw [closing_after] at h
  split at h
  · rcases eq_or_ne y.loop x.loop with heq | hloop
    · rw [heq, Function.update_self] at h
      exact absurd (Option.some.inj h).symm hne
    · rwa [Function.update_of_ne hloop] at h
  · exact h

/-- A call that does not close leaves its own close as it is. -/
theorem closing_after_iff_of_keeps (hout : x.conn.Keeps out) :
    (s.after c x out).Closing c { x with conn := out.conn } ↔ s.Closing c x := by
  refine or_congr ?_ (mem_tasks_after (by simp))
  rw [closing_after, if_neg hout.uncalled]

/-- A call that closes begins the close. -/
theorem closing_after_of_closes (hout : x.conn.Closes out) :
    (s.after c x out).closing x.loop = some c := by
  rw [closing_after, if_pos hout.called, Function.update_self]

/-- **Nothing that was reached comes loose.** -/
theorem Reached.after (h : s.Reached loop d) (hx : s.conns[c]? = some x)
    (hout : x.conn.Keeps out ∨ x.conn.Closes out)
    (hfree : .close ∈ out.called → s.closing x.loop = none) : (s.after c x out).Reached loop d := by
  obtain ⟨y, hy, rfl, ha⟩ := h
  rw [Reached, conns_after, getElem?_set_conns hx]
  by_cases hcd : c = d
  · subst hcd
    obtain rfl : x = y := Option.some.inj (hx.symm.trans hy)
    refine ⟨{ x with conn := out.conn }, if_pos rfl, rfl, ?_⟩
    rcases hout with hkeeps | hcloses
    · exact ha.imp (mt hkeeps.silent_iff.mp) (closing_after_iff_of_keeps hkeeps).mpr
    · exact .inr (.inl (closing_after_of_closes hcloses))
  · refine ⟨y, ?_, rfl, ha.imp_right (closing_after_iff_of_ne (Ne.symm hcd) hfree).mpr⟩
    rw [if_neg hcd]
    exact hy

/-- Nor does what is anchored. -/
theorem Anchor.after (h : s.Anchor loop d) (hx : s.conns[c]? = some x)
    (hout : x.conn.Keeps out ∨ x.conn.Closes out)
    (hfree : .close ∈ out.called → s.closing x.loop = none) : (s.after c x out).Anchor loop d := by
  obtain ⟨y, hy, rfl, ha⟩ := h
  rw [Anchor, conns_after, getElem?_set_conns hx]
  by_cases hcd : c = d
  · subst hcd
    obtain rfl : x = y := Option.some.inj (hx.symm.trans hy)
    refine ⟨{ x with conn := out.conn }, if_pos rfl, rfl, ?_⟩
    rcases hout with hkeeps | hcloses
    · exact ha.imp (mt hkeeps.silent_iff.mp) (closing_after_of_ne hfree)
    · exact .inr (closing_after_of_closes hcloses)
  · refine ⟨y, ?_, rfl, ha.imp_right (closing_after_of_ne hfree)⟩
    rw [if_neg hcd]
    exact hy

/-- **A member function of a connection keeps all in order.** -/
theorem Kept.after (h : s.Kept) (hx : s.conns[c]? = some x) (honward : x.conn.Onward out)
    (hout : x.conn.Keeps out ∨ x.conn.Closes out) (htracked : out.conn.Tracked)
    (hfree : .close ∈ out.called → s.closing x.loop = none)
    (hretired : ¬ s.Anchored c x → out.conn.Retired)
    (hfirst : .connectEstablished c ∈ s.tasks x.loop → out.conn.state = .connecting) :
    (s.after c x out).Kept := by
  have hconns := getElem?_set_conns hx { x with conn := out.conn }
  refine ⟨h.sound.after hx honward, fun d y hy => ?_, fun loop => ?_, fun loop t ht => ?_,
    fun loop d hd => ?_⟩
  · rw [conns_after, hconns] at hy
    split at hy
    · rename_i hcd
      subst hcd
      obtain rfl := Option.some.inj hy
      have hc := h.conn c x hx
      refine ⟨htracked, ?_, fun hmem => hfirst ((mem_tasks_after (by simp)).mp hmem),
        (count_tasks_after ..).trans_le hc.once, fun hclosing => ?_, fun hgone => hretired fun ha => hgone ?_⟩
      · rcases hout with hkeeps | hcloses
        · exact hkeeps.closable hc.closable
        · exact .inr ⟨hcloses.silent, hcloses.state⟩
      · rcases hout with hkeeps | hcloses
        · exact hkeeps.silent_iff.mpr (hc.silent ((closing_after_iff_of_keeps hkeeps).mp hclosing))
        · exact hcloses.silent
      · rcases hout with hkeeps | hcloses
        · exact ha.imp (mt hkeeps.silent_iff.mp) (closing_after_iff_of_keeps hkeeps).mpr
        · exact .inr (.inl (closing_after_of_closes hcloses))
    · rename_i hcd
      have hd := h.conn d y hy
      have hiff := closing_after_iff_of_ne (y := y) (Ne.symm hcd) hfree
      refine ⟨hd.tracked, hd.closable, fun hmem => hd.first ((mem_tasks_after (by simp)).mp hmem),
        (count_tasks_after ..).trans_le hd.once, fun hclosing => hd.silent (hiff.mp hclosing), fun hgone => ?_⟩
      exact hd.gone fun ha => hgone (ha.imp_right hiff.mpr)
  · rw [tasks_after]
    have hold : Deferred _ _ ((s.after c x out).Anchor loop) (s.tasks loop) :=
      (h.queue loop).mono fun d hd => hd.after hx hout hfree
    rcases eq_or_ne loop x.loop with rfl | hne
    · rw [Function.update_self]
      refine hold.append fun t ht k hk => ?_
      obtain ⟨u, hu, rfl⟩ := List.mem_map.mp ht
      -- a write-complete task, of a connection that is not silent
      cases u with
      | writeComplete =>
        obtain rfl := Option.some.inj hk
        have hloud : ¬ x.conn.Silent := by
          rcases hout with hkeeps | hcloses
          · exact hkeeps.announced hu
          · rw [hcloses.queued] at hu
            exact absurd hu List.not_mem_nil
        exact Anchor.after ⟨x, hx, rfl, .inl hloud⟩ hx hout hfree
      | handleClose => cases hk
      | shutdownWrite => cases hk
    · rw [Function.update_of_ne hne]
      exact hold
  · rw [tasks_after] at ht
    rcases eq_or_ne loop x.loop with rfl | hne
    · rw [Function.update_self, List.mem_append] at ht
      rcases ht with ht | ht
      · exact (h.placed _ t ht).after hx out
      · obtain ⟨u, -, rfl⟩ := List.mem_map.mp ht
        exact At.after ⟨x, hx, rfl⟩ hx out
    · rw [Function.update_of_ne hne] at ht
      exact (h.placed loop t ht).after hx out
  · rw [closing_after] at hd
    split at hd
    · rcases eq_or_ne loop x.loop with rfl | hne
      · rw [Function.update_self] at hd
        obtain rfl := Option.some.inj hd
        exact At.after ⟨x, hx, rfl⟩ hx out
      · rw [Function.update_of_ne hne] at hd
        exact (h.closes loop d hd).after hx out
    · exact (h.closes loop d hd).after hx out

/-! ## The other steps of a server -/

variable {t : TcpServer}

/-- A connection whose close, and whose establishment, are where they were. -/
theorem ConnKept.congr (h : s.ConnKept c x) (hclosing : t.Closing c x ↔ s.Closing c x)
    (hcount : (t.tasks x.loop).count (.connectEstablished c)
      ≤ (s.tasks x.loop).count (.connectEstablished c)) : t.ConnKept c x := by
  refine ⟨h.tracked, h.closable, fun hmem => h.first ?_, hcount.trans h.once,
    fun hc => h.silent (hclosing.mp hc), fun hgone => h.gone fun ha => hgone (ha.imp_right hclosing.mpr)⟩
  exact List.count_pos_iff.mp ((List.count_pos_iff.mpr hmem).trans_le hcount)

/-- What the base loop and user code change. -/
theorem Kept.congr (h : s.Kept) (hsound : t.Sound) (hconns : t.conns = s.conns)
    (htasks : t.tasks = s.tasks) (hclosing : t.closing = s.closing) : t.Kept := by
  have hclose : ∀ c x, t.Closing c x ↔ s.Closing c x := fun c x => by
    rw [Closing, Closing, hclosing, htasks]
  refine ⟨hsound, fun c x hx => ?_, fun loop => ?_, fun loop t' ht' => ?_, fun loop c hc => ?_⟩
  · rw [hconns] at hx
    exact (h.conn c x hx).congr (hclose c x) (by rw [htasks])
  · rw [htasks]
    refine (h.queue loop).mono fun c ⟨x, hx, hloop, ha⟩ => ⟨x, ?_, hloop, ?_⟩
    · rw [hconns]
      exact hx
    · rw [hclosing]
      exact ha
  · rw [htasks] at ht'
    rw [At, hconns]
    exact h.placed loop t' ht'
  · rw [hclosing] at hc
    rw [At, hconns]
    exact h.closes loop c hc

theorem Reached.congr (h : s.Reached loop c) (hconns : t.conns = s.conns)
    (htasks : t.tasks = s.tasks) (hclosing : t.closing = s.closing) : t.Reached loop c := by
  rw [Reached, hconns]
  obtain ⟨x, hx, hloop, ha⟩ := h
  refine ⟨x, hx, hloop, ha.imp_right fun hc => ?_⟩
  rw [Closing, hclosing, htasks]
  exact hc

/-! ### The close is handed over -/

/-- The second `queueInLoop` of a close leaves every close in progress. -/
theorem closing_finishClose_iff (s : TcpServer) (loop : ℕ) (d : ConnId) (y : ServerConn) :
    (s.finishClose loop).Closing d y ↔ s.Closing d y := by
  rw [finishClose]
  split
  · exact Iff.rfl
  · rename_i c hc
    rw [Closing, Closing, queueInLoop]
    rcases eq_or_ne y.loop loop with rfl | hne
    · simp only [Function.update_self, List.mem_append, List.mem_singleton, IoTask.connectDestroyed.injEq]
      rw [hc, Option.some.injEq, eq_comm (a := c)]
      simp [or_comm]
    · simp [Function.update_of_ne hne]

theorem Kept.finishClose (h : s.Kept) (loop : ℕ) : (s.finishClose loop).Kept := by
  have hiff := s.closing_finishClose_iff loop
  have hsound := h.sound.finishClose loop
  rw [TcpServer.finishClose] at hiff hsound ⊢
  split at hiff
  · exact h
  · rename_i c hc
    rw [hc] at hsound
    refine ⟨hsound, fun d y hy => (h.conn d y hy).congr (hiff d y) ?_, fun l => ?_, fun l t ht => ?_,
      fun l d hd => ?_⟩
    · rw [queueInLoop]
      rcases eq_or_ne y.loop loop with rfl | hne
      · simp
      · simp [Function.update_of_ne hne]
    · show Deferred _ _ _ (Function.update s.tasks loop (s.tasks loop ++ [.connectDestroyed c]) l)
      rcases eq_or_ne l loop with rfl | hne
      · rw [Function.update_self]
        refine (h.queue l).handOver rfl rfl fun j hj => ?_
        obtain ⟨x, hx, hloop, hloud | hclosing⟩ := hj
        · exact .inl ⟨x, hx, hloop, .inl hloud⟩
        · exact .inr (Option.some.inj (hclosing.symm.trans hc))
      · rw [Function.update_of_ne hne]
        refine (h.queue l).mono fun j hj => ?_
        obtain ⟨x, hx, hloop, ha⟩ := hj
        exact ⟨x, hx, hloop, ha.imp_right fun hclosing => (Function.update_of_ne hne ..).trans hclosing⟩
    · change t ∈ Function.update s.tasks loop (s.tasks loop ++ [.connectDestroyed c]) l at ht
      rcases eq_or_ne l loop with rfl | hne
      · rw [Function.update_self, List.mem_append] at ht
        rcases ht with ht | ht
        · exact h.placed l t ht
        · rw [List.mem_singleton.mp ht]
          exact h.closes l c hc
      · rw [Function.update_of_ne hne] at ht
        exact h.placed l t ht
    · change Function.update s.closing loop none l = some d at hd
      rcases eq_or_ne l loop with rfl | hne
      · exact absurd hd (by simp)
      · exact h.closes l d ((Function.update_of_ne hne ..).symm.trans hd)

/-! ### A task is taken -/

section Dequeue

variable {u : IoTask} {rest : List IoTask}

theorem mem_tasks_of_dequeue (htasks : s.tasks loop = u :: rest) {l : ℕ} {v : IoTask}
    (hv : v ∈ (s.dequeue loop rest).tasks l) : v ∈ s.tasks l := by
  rw [dequeue] at hv
  dsimp only at hv
  rcases eq_or_ne l loop with rfl | hne
  · rw [Function.update_self] at hv
    rw [htasks]
    exact List.mem_cons_of_mem u hv
  · rwa [Function.update_of_ne hne] at hv

/-- The other tasks are still there. -/
theorem mem_tasks_dequeue_iff (htasks : s.tasks loop = u :: rest) {l : ℕ} {v : IoTask} (hv : v ≠ u) :
    v ∈ (s.dequeue loop rest).tasks l ↔ v ∈ s.tasks l := by
  refine ⟨mem_tasks_of_dequeue htasks, fun hmem => ?_⟩
  rw [dequeue]
  dsimp only
  rcases eq_or_ne l loop with rfl | hne
  · rw [Function.update_self]
    exact (List.mem_cons.mp (htasks ▸ hmem)).resolve_left hv
  · rwa [Function.update_of_ne hne]

theorem count_dequeue_le (htasks : s.tasks loop = u :: rest) (l : ℕ) (v : IoTask) :
    ((s.dequeue loop rest).tasks l).count v ≤ (s.tasks l).count v := by
  rw [dequeue]
  dsimp only
  rcases eq_or_ne l loop with rfl | hne
  · rw [Function.update_self, htasks]
    exact (List.sublist_cons_self u rest).count_le v
  · rw [Function.update_of_ne hne]

/-- What is left of a queue is deferred as before. -/
theorem Kept.queue_dequeue (h : s.Kept) (htasks : s.tasks loop = u :: rest) (l : ℕ) :
    Deferred IoTask.follows IoTask.destroys (s.Anchor l) ((s.dequeue loop rest).tasks l) := by
  rw [dequeue]
  dsimp only
  rcases eq_or_ne l loop with rfl | hne
  · rw [Function.update_self]
    have hqueue := h.queue l
    rw [htasks] at hqueue
    exact hqueue.tail
  · rw [Function.update_of_ne hne]
    exact h.queue l

/-- A connection keeps what it has when a task is taken that does not destroy it. -/
theorem Kept.conn_dequeue (h : s.Kept) (htasks : s.tasks loop = u :: rest) (hx : s.conns[c]? = some x)
    (hu : .connectDestroyed c ≠ u) : (s.dequeue loop rest).ConnKept c x :=
  (h.conn c x hx).congr (or_congr Iff.rfl (mem_tasks_dequeue_iff htasks hu)) (count_dequeue_le htasks ..)

/-- A task other than `connectDestroyed` is taken from its queue. -/
theorem Kept.pop (h : s.Kept) (htasks : s.tasks loop = u :: rest) (hu : ∀ c, .connectDestroyed c ≠ u) :
    (s.dequeue loop rest).Kept :=
  ⟨h.sound.congr rfl rfl rfl, fun c _ hx => h.conn_dequeue htasks hx (hu c), h.queue_dequeue htasks,
    fun l t ht => h.placed l t (mem_tasks_of_dequeue htasks ht), h.closes⟩

/-- What another loop reaches stays reached. -/
theorem Reached.pop (h : s.Reached loop c) {l : ℕ} (rest : List IoTask) (hne : loop ≠ l) :
    (s.dequeue l rest).Reached loop c := by
  obtain ⟨x, hx, rfl, ha⟩ := h
  refine ⟨x, hx, rfl, ha.imp_right (Or.imp_right fun hmem => ?_)⟩
  show _ ∈ Function.update s.tasks l rest x.loop
  rwa [Function.update_of_ne hne]

/-- **The `connectDestroyed` task** retires its connection. -/
theorem Kept.destroy (h : s.Kept) (htasks : s.tasks loop = .connectDestroyed c :: rest)
    (hx : s.conns[c]? = some x) (hloop : x.loop = loop) :
    ((s.dequeue loop rest).put c x x.conn.connectDestroyed).Kept := by
  have hc := h.conn c x hx
  have hsilent : x.conn.Silent := hc.silent (.inr (hloop ▸ htasks ▸ List.mem_cons_self))
  have hclosed : x.conn.state = .disconnected := hc.closable.disconnected hsilent
  have hsilent' : x.conn.connectDestroyed.Silent := x.conn.callbacks_connectDestroyed.trans hsilent
  obtain ⟨htracked, hstate, hadded, hregistered⟩ := hc.tracked.connectDestroyed (.inr hclosed)
  have hconns : ∀ d, ((s.dequeue loop rest).put c x x.conn.connectDestroyed).conns[d]?
      = if c = d then some { x with conn := x.conn.connectDestroyed } else s.conns[d]? :=
    getElem?_set_conns hx _
  have hrest : (s.dequeue loop rest).Sound := h.sound.congr rfl rfl rfl
  refine ⟨hrest.put hx fun _ => hsilent', fun d y hy => ?_, fun l => ?_, fun l t ht => ?_,
    fun l d hd => (h.closes l d hd).set hx rfl⟩
  · rw [hconns] at hy
    split at hy
    · rename_i hcd
      subst hcd
      obtain rfl := Option.some.inj hy
      refine ⟨htracked, .inr ⟨hsilent', hstate⟩, fun hmem => ?_, ?_, fun _ => hsilent',
        fun _ => ⟨hstate, hadded, hregistered⟩⟩
      · exact absurd ((hc.first (mem_tasks_of_dequeue htasks hmem)).symm.trans hclosed) (by simp)
      · exact (count_dequeue_le htasks ..).trans hc.once
    · rename_i hcd
      have hd := h.conn_dequeue htasks hy fun heq => hcd (IoTask.connectDestroyed.inj heq).symm
      exact hd.congr Iff.rfl le_rfl
  · refine (h.queue_dequeue htasks l).mono fun d ⟨y, hy, hyl, ha⟩ => ?_
    rw [Anchor, hconns]
    split
    · rename_i hcd
      subst hcd
      obtain rfl := Option.some.inj (hx.symm.trans hy)
      exact ⟨_, rfl, hyl, ha.imp_left (absurd hsilent)⟩
    · exact ⟨y, hy, hyl, ha⟩
  · exact (h.placed l t (mem_tasks_of_dequeue htasks ht)).set hx rfl

end Dequeue

theorem runTask_connectEstablished (hx : s.conns[c]? = some x) :
    s.runTask (.connectEstablished c) = s.put c x x.conn.connectEstablished := by
  simp only [runTask, hx]

theorem runTask_conn (hx : s.conns[c]? = some x) (t : ConnTask) :
    s.runTask (.conn c t) = s.after c x (x.conn.runTask t) := by
  simp only [runTask, hx]

theorem runTask_connectDestroyed (hx : s.conns[c]? = some x) :
    s.runTask (.connectDestroyed c) = s.put c x x.conn.connectDestroyed := by
  simp only [runTask, hx]

/-! ### A connection is accepted -/

theorem closing_insert (s : TcpServer) (fd : Fd) (c : ConnId) : (s.insert fd c).closing = s.closing := by
  rw [insert]
  split <;> rfl

theorem tasks_insert (s : TcpServer) (fd : Fd) (c : ConnId) : (s.insert fd c).tasks = s.tasks := by
  rw [insert]
  split <;> rfl

theorem tasks_handleNewConnection (s : TcpServer) (fd : Fd) :
    (s.handleNewConnection fd).tasks = Function.update s.tasks s.cnt
      (s.tasks s.cnt ++ [.connectEstablished s.conns.length]) := by
  show (queueInLoop _ _ _).tasks = _
  rw [queueInLoop]
  dsimp only
  rw [tasks_insert]

theorem closing_handleNewConnection (s : TcpServer) (fd : Fd) :
    (s.handleNewConnection fd).closing = s.closing :=
  closing_insert ..

/-- A connection that was there before the accept. -/
theorem At.lt_length (h : s.At loop c) : c < s.conns.length := by
  obtain ⟨x, hx, -⟩ := h
  exact (List.getElem?_eq_some_iff.mp hx).1

theorem getElem?_handleNewConnection (fd : Fd) (hx : s.conns[c]? = some x) :
    (s.handleNewConnection fd).conns[c]? = some x := by
  rw [conns_handleNewConnection, List.getElem?_append_left (List.getElem?_eq_some_iff.mp hx).1]
  exact hx

theorem mem_tasks_handleNewConnection {u : IoTask} (fd : Fd)
    (hu : u ∈ (s.handleNewConnection fd).tasks loop) :
    u ∈ s.tasks loop ∨ (loop = s.cnt ∧ u = .connectEstablished s.conns.length) := by
  rw [tasks_handleNewConnection] at hu
  rcases eq_or_ne loop s.cnt with rfl | hne
  · rw [Function.update_self, List.mem_append] at hu
    exact hu.imp_right fun hnew => ⟨rfl, List.mem_singleton.mp hnew⟩
  · rw [Function.update_of_ne hne] at hu
    exact .inl hu

theorem subset_tasks_handleNewConnection {u : IoTask} (fd : Fd) (hu : u ∈ s.tasks loop) :
    u ∈ (s.handleNewConnection fd).tasks loop := by
  rw [tasks_handleNewConnection]
  rcases eq_or_ne loop s.cnt with rfl | hne
  · rw [Function.update_self]
    exact List.mem_append_left _ hu
  · rwa [Function.update_of_ne hne]

/-- The closes in progress are of connections that were there before. -/
theorem closing_handleNewConnection_iff (fd : Fd) :
    (s.handleNewConnection fd).Closing c x ↔ s.Closing c x := by
  rw [Closing, closing_handleNewConnection]
  refine or_congr Iff.rfl ⟨fun hmem => ?_, subset_tasks_handleNewConnection fd⟩
  exact (mem_tasks_handleNewConnection fd hmem).resolve_right (by simp)

theorem Reached.handleNewConnection (h : s.Reached loop c) (fd : Fd) :
    (s.handleNewConnection fd).Reached loop c := by
  obtain ⟨x, hx, hloop, ha⟩ := h
  exact ⟨x, getElem?_handleNewConnection fd hx, hloop,
    ha.imp_right (closing_handleNewConnection_iff fd).mpr⟩

theorem Kept.handleNewConnection (h : s.Kept) {fd : Fd} (hfd : s.isOpen fd = false) :
    (s.handleNewConnection fd).Kept := by
  have hat : ∀ {l d}, s.At l d → (s.handleNewConnection fd).At l d := fun ⟨x, hx, hloop⟩ =>
    ⟨x, getElem?_handleNewConnection fd hx, hloop⟩
  have hnew : ∀ l, .connectEstablished s.conns.length ∉ s.tasks l := fun l hmem =>
    absurd (h.placed l _ hmem).lt_length (Nat.lt_irrefl _)
  refine ⟨h.sound.handleNewConnection hfd, fun c x hx => ?_, fun l => ?_, fun l u hu => ?_,
    fun l d hd => hat (h.closes l d ((congrFun (s.closing_handleNewConnection fd) l).symm.trans hd))⟩
  · rw [conns_handleNewConnection] at hx
    obtain ⟨hlt, hx⟩ | ⟨rfl, rfl⟩ := getElem?_concat_conns hx
    · refine (h.conn c x hx).congr (closing_handleNewConnection_iff fd) ?_
      rw [tasks_handleNewConnection]
      rcases eq_or_ne x.loop s.cnt with heq | hne
      · rw [heq, Function.update_self, List.count_append, List.count_singleton]
        simp [hlt.ne']
      · rw [Function.update_of_ne hne]
    · refine ⟨⟨rfl, rfl, fun ho => ?_, fun ho => ?_⟩, .inl rfl, fun _ => rfl, ?_, fun hclosing => ?_,
        fun hgone => absurd (.inl fun hs => ?_) hgone⟩
      · simp [TcpConnection.new] at ho
      · simp [TcpConnection.new] at ho
      · rw [tasks_handleNewConnection, Function.update_self, List.count_append,
          List.count_eq_zero.mpr (hnew _), List.count_singleton_self]
      · rcases (closing_handleNewConnection_iff fd).mp hclosing with hclosing | hmem
        · exact absurd (h.closes _ _ hclosing).lt_length (Nat.lt_irrefl _)
        · exact absurd (h.placed _ _ hmem).lt_length (Nat.lt_irrefl _)
      · cases (congrArg (·.2.2.1) hs : true = false)
  · rw [tasks_handleNewConnection]
    have hold : Deferred _ _ ((s.handleNewConnection fd).Anchor l) (s.tasks l) :=
      (h.queue l).mono fun d ⟨x, hx, hloop, ha⟩ => ⟨x, getElem?_handleNewConnection fd hx, hloop,
        ha.imp_right (congrFun (s.closing_handleNewConnection fd) l).trans⟩
    rcases eq_or_ne l s.cnt with rfl | hne
    · rw [Function.update_self]
      refine hold.append fun u hu k hk => ?_
      rw [List.mem_singleton.mp hu] at hk
      cases hk
    · rw [Function.update_of_ne hne]
      exact hold
  · rcases mem_tasks_handleNewConnection fd hu with hu | ⟨rfl, rfl⟩
    · exact hat (h.placed l u hu)
    · rw [At, conns_handleNewConnection]
      exact ⟨_, List.getElem?_concat_length, rfl⟩

end TcpServer
