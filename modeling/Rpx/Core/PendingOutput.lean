import Rpx.Core.Effects

/-!
# Core/PendingOutput — write interest, the output buffer, and the end of output

    EPOLLOUT wanted  ⇒  _writeBuffer not empty        ESTABLISHED, _writeBuffer not empty  ⇒  EPOLLOUT wanted

`write()` asks for `EPOLLOUT` once it has buffered something, and `handleWrite` gives it up once the
buffer is empty, so that neither is ever without the other while the connection is open.  The step that
hands over the last accepted byte queues the write-complete task, and so does a `write()` of no bytes
with nothing pending: the kernel takes all of it at once.
-/

open Machinery

namespace TcpConnection

/-- **Output pending is output watched**, read off the output side of a connection. -/
structure Pumped (side : StateE × Channel × Bytes × Bool) : Prop where
  consistent : side.2.1.Consistent
  pending : side.2.1.hasWriteInterest = true → side.2.2.1 ≠ []
  flushing : side.1 = .connecting ∨ side.1 = .established → side.2.2.1 ≠ [] →
    side.2.1.hasWriteInterest = true

variable {c : TcpConnection}

/-- Applying other interests keeps a channel consistent. -/
theorem consistent_applyInterest {ch : Channel} (h : ch.Consistent) (m : EpollMask) :
    (Channel.applyInterest { ch with interests := m }).Consistent := by
  have hknown : Channel.Known { ch with interests := m } := h.known
  exact hknown.applyInterest.1

/-- …and refuses nothing. -/
theorem aborted_applyInterest {ch : Channel} (h : ch.Consistent) (m : EpollMask) :
    (Channel.applyInterest { ch with interests := m }).aborted = ch.aborted := by
  have hknown : Channel.Known { ch with interests := m } := h.known
  exact hknown.applyInterest.2

/-- No member function makes an `epoll_ctl` that is refused. -/
theorem aborted_of_effect (h : c.channel.Consistent) {out : Outcome} {n : ℕ} (he : c.Effect out n) :
    out.conn.channel.aborted = c.channel.aborted := by
  have hsame : ∀ {ch : Channel}, out.conn.channel = ch → ch.aborted = c.channel.aborted →
      out.conn.channel.aborted = c.channel.aborted := fun hch hkept => (congrArg _ hch).trans hkept
  cases he with
  | quiet side => exact hsame (congrArg (·.2.1) side) rfl
  | direct _ side => exact hsame (congrArg (·.2.1) side) rfl
  | enqueue _ _ side =>
    refine hsame (congrArg (·.2.1) side) ?_
    split
    · exact aborted_applyInterest h _
    · rfl
  | drain _ _ side => exact hsame (congrArg (·.2.1) side) rfl
  | flush side => exact hsame (congrArg (·.2.1) side) (aborted_applyInterest h _)
  | force _ side => exact hsame (congrArg (·.2.1) side) rfl
  | close _ side => exact hsame (congrArg (·.2.1) side) (aborted_applyInterest h _)

/-- **No member function leaves output behind unwatched.** -/
theorem Pumped.of_effect (h : Pumped c.outputSide) {out : Outcome} {n : ℕ} (he : c.Effect out n) :
    Pumped out.conn.outputSide := by
  cases he with
  | quiet side => rwa [side]
  | direct _ side => rwa [side]
  | enqueue bs rest side =>
    rw [side]
    by_cases hasks : c.Asks
    · rw [if_pos hasks]
      exact ⟨consistent_applyInterest h.consistent _, fun _ => List.append_ne_nil_of_right_ne_nil _ rest,
        fun _ _ => Channel.hasWriteInterest_setWriteInterest _⟩
    · rw [if_neg hasks]
      refine ⟨h.consistent, fun _ => List.append_ne_nil_of_right_ne_nil _ rest, fun hopen _ => ?_⟩
      have hclosing : ¬ (c.state = .disconnecting ∨ c.state = .disconnected) := by
        rcases hopen with hstate | hstate <;>
          simp [show c.state = _ from hstate]
      exact not_not.mp fun hno => hasks ⟨hclosing, hno⟩
  | drain n rest side =>
    rw [side]
    refine ⟨h.consistent, fun _ => rest, fun hopen _ => h.flushing hopen fun hnil => rest ?_⟩
    rw [show c.writeBuffer = [] from hnil, List.drop_nil]
  | flush side =>
    rw [side]
    refine ⟨consistent_applyInterest h.consistent _, fun hw => ?_, fun _ hne => absurd rfl hne⟩
    rw [Channel.hasWriteInterest_unsetWriteInterest] at hw
    cases hw
  | force established side =>
    rw [side]
    refine ⟨h.consistent, h.pending, fun hopen => ?_⟩
    rcases hopen with hstate | hstate <;> cases hstate
  | close isOpen side =>
    rw [side]
    refine ⟨consistent_applyInterest h.consistent _, fun hw => ?_, fun hopen => ?_⟩
    · rw [Channel.hasWriteInterest_unsetAllInterest] at hw
      cases hw
    · rcases hopen with hstate | hstate <;> cases hstate

/-- Output is there where the kernel watches for room: the mask registered is the interests. -/
theorem Pumped.of_registered (h : Pumped c.outputSide)
    (hmask : ∃ mask ∈ c.channel.registered, mask.epollout = true) : c.writeBuffer ≠ [] := by
  obtain ⟨mask, hmask, hout⟩ := hmask
  have hregistered : c.channel.Consistent := h.consistent
  rw [Channel.Consistent, show c.channel.registered = some mask from hmask] at hregistered
  split at hregistered
  · rw [show mask = c.channel.interests from Option.some.inj hregistered] at hout
    exact h.pending hout
  · cases hregistered

theorem Pumped.connectEstablished (h : Pumped c.outputSide) (hstate : c.state = .connecting) :
    Pumped c.connectEstablished.outputSide := by
  have hsame : c.connectEstablished.channel.hasWriteInterest = c.channel.hasWriteInterest :=
    Channel.hasWriteInterest_setReadInterest _
  refine ⟨?_, fun hw => h.pending (hsame.symm.trans hw), fun _ hne => ?_⟩
  · have hconsistent : Channel.Consistent { c.channel with
        aborted := c.channel.aborted || !(c.state == StateE.connecting) } := h.consistent
    exact consistent_applyInterest hconsistent _
  · exact hsame.trans (h.flushing (.inl hstate) hne)

theorem Pumped.connectDestroyed (h : Pumped c.outputSide) : Pumped c.connectDestroyed.outputSide := by
  have hremove : ∀ d : TcpConnection, Pumped d.outputSide →
      Pumped { d with channel := d.channel.remove }.outputSide := fun d hd => by
    have hsame : d.channel.remove.hasWriteInterest = d.channel.hasWriteInterest := by
      rw [Channel.hasWriteInterest, Channel.interests_remove]
      rfl
    exact ⟨hd.consistent.remove.1, fun hw => hd.pending (hsame.symm.trans hw),
      fun hopen hne => hsame.trans (hd.flushing hopen hne)⟩
  rw [TcpConnection.connectDestroyed]
  split
  · refine hremove _ ⟨consistent_applyInterest h.consistent _, fun hw => ?_, fun hopen => ?_⟩
    · have hnone := Channel.hasWriteInterest_unsetAllInterest c.channel
      rw [show c.channel.unsetAllInterest.hasWriteInterest = true from hw] at hnone
      cases hnone
    · rcases hopen with hstate | hstate <;> cases hstate
  · exact hremove c h

/-- A call takes nothing out of the output buffer. -/
theorem writeBuffer_call (c : TcpConnection) (call : ConnCall) :
    c.writeBuffer <+: (c.call call).conn.writeBuffer := by
  cases call with
  | write data len junk answer =>
    show c.writeBuffer <+: (c.write data len junk answer).2.conn.writeBuffer
    rw [write]
    split
    · split
      · exact List.prefix_rfl
      · exact (c.writeBuffer_enqueue data 0 len) ▸ List.prefix_append _ _
      · dsimp only
        split
        · exact List.prefix_rfl
        · exact (c.writeBuffer_enqueue data _ _) ▸ List.prefix_append _ _
    · exact (c.writeBuffer_enqueue data junk len) ▸ List.prefix_append _ _
  | shutdown inLoop => cases inLoop <;> exact List.prefix_rfl
  | forceClose => exact c.writeBuffer_forceClose ▸ List.prefix_rfl

/-- Of the handlers only `handleWrite` does. -/
theorem writeBuffer_handle (c : TcpConnection) (read : ReadAnswer) (write : WriteAnswer) {h : Handler}
    (hne : h ≠ .write) : (c.handle read write h).conn.writeBuffer = c.writeBuffer := by
  have hclose := c.writeBuffer_handleClose
  cases h with
  | close => exact hclose
  | error => rfl
  | read =>
    rcases read with (- | ⟨b, bs⟩) | e
    · exact hclose
    · rfl
    · cases e <;> rfl
  | write => exact absurd rfl hne

end TcpConnection

/-! ## The handlers of a dispatch -/

namespace EpollMask

theorem nodup_handlers (events : EpollMask) : events.handlers.Nodup := by
  obtain ⟨a, b, c, d, e, f⟩ := events
  revert a b c d e f
  decide

theorem write_mem_handlers (events : EpollMask) :
    .write ∈ events.handlers ↔ events.epollout = true := by
  obtain ⟨a, b, c, d, e, f⟩ := events
  revert a b c d e f
  decide

end EpollMask

namespace Lifecycle

open TcpConnection

variable {x : Lifecycle}

/-- **`EPOLLOUT` is reported only where it is asked for**: the mask under which the kernel holds the
descriptor contains it. -/
def Polled (x : Lifecycle) : LifeEvent → Prop
  | .dispatch events =>
    events.epollout = true → ∃ mask ∈ x.conn.channel.registered, mask.epollout = true
  | _ => True

/-- The number of bytes that an event takes over. -/
def accepts (x : Lifecycle) : LifeEvent → ℕ
  | .call c => if x.conn.channel.aborted then 0 else x.conn.accepts c
  | _ => 0

/-- **What holds of every life**: pending output is watched, and a `handleWrite` still to come will
find output. -/
structure Pumping (x : Lifecycle) : Prop where
  pumped : Pumped x.conn.outputSide
  nodup : x.handlers.Nodup
  writable : .write ∈ x.handlers → x.conn.writeBuffer ≠ []

theorem pumping_start (message writeComplete close error : Bool) :
    (start (.new message writeComplete close error)).Pumping :=
  ⟨⟨rfl, fun h => absurd h Bool.false_ne_true, fun _ h => absurd rfl h⟩, List.nodup_nil,
    fun h => absurd h List.not_mem_nil⟩

/-- **Every step keeps it.** -/
theorem Pumping.step (h : x.Pumping) (e : LifeEvent) (he : x.Polled e) : (x.step e).Pumping := by
  have hmoves := x.moves e
  generalize x.outcome e = out, x.step e = y at hmoves
  cases hmoves with
  | idle => exact h
  | failed =>
    exact ⟨⟨h.pumped.consistent, h.pumped.pending, h.pumped.flushing⟩, h.nodup, h.writable⟩
  | established hstate _ =>
    exact ⟨h.pumped.connectEstablished hstate, h.nodup, h.writable⟩
  | destroyed hidle =>
    refine ⟨h.pumped.connectDestroyed, h.nodup, fun hw => ?_⟩
    rw [show x.handlers = [] from hidle] at hw
    exact absurd hw List.not_mem_nil
  | polled events _ _ =>
    exact ⟨⟨h.pumped.consistent, h.pumped.pending, h.pumped.flushing⟩, events.nodup_handlers,
      fun hw => h.pumped.of_registered (he (events.write_mem_handlers.mp hw))⟩
  | called k =>
    refine ⟨h.pumped.of_effect (x.conn.call_effect k), h.nodup, fun hw hnil => h.writable hw ?_⟩
    exact List.prefix_nil.mp (hnil ▸ x.conn.writeBuffer_call k)
  | handled read write hd rest hhandlers =>
    obtain ⟨hnotin, hnodup⟩ := List.nodup_cons.mp (hhandlers ▸ h.nodup)
    refine ⟨h.pumped.of_effect (x.conn.handle_effect read write hd), hnodup, fun hw hnil => ?_⟩
    have hne : hd ≠ .write := fun heq => hnotin (heq ▸ hw)
    refine h.writable (hhandlers ▸ List.mem_cons_of_mem hd hw) ?_
    rw [← x.conn.writeBuffer_handle read write hne]
    exact hnil
  | ran t rest hidle _ =>
    refine ⟨h.pumped.of_effect (x.conn.runTask_effect t), h.nodup, fun hw => ?_⟩
    rw [show Lifecycle.handlers _ = [] from hidle] at hw
    exact absurd hw List.not_mem_nil

end Lifecycle

/-! ## Bytes accepted, bytes handed over -/

/-- A life, with how many bytes `write()` has accepted and how many the kernel took. -/
structure Outflow where
  life : Lifecycle
  accepted : ℕ
  handed : ℕ

namespace Outflow

open TcpConnection

def start (c : TcpConnection) : Outflow := ⟨.start c, 0, 0⟩

variable (o : Outflow)

def step (e : LifeEvent) : Outflow where
  life := o.life.step e
  accepted := o.accepted + o.life.accepts e
  handed := o.handed + (o.life.sends e).length

/-- **After the event everything accepted has been handed over**, the last of it by the event. -/
def HandsLast (e : LifeEvent) : Prop :=
  (o.step e).accepted = (o.step e).handed ∧ o.handed < (o.step e).handed

/-- The event is a `write()` of no bytes, with nothing pending, that the kernel takes. -/
def TakesNothing : LifeEvent → Prop
  | .call (.write _ len _ answer) =>
    o.life.conn.channel.aborted = false ∧ o.life.conn.pending = false ∧ len = 0
      ∧ ∀ e, answer ≠ .fails e
  | _ => False

/-- **The output of the connection ends with the event**, for now. -/
def Completes (e : LifeEvent) : Prop := o.HandsLast e ∨ o.TakesNothing e

variable {o}

/-- **What holds of every run**: what was accepted and not handed over is in the buffer. -/
structure Balanced (o : Outflow) : Prop where
  pumping : o.life.Pumping
  accounted : o.accepted = o.handed + o.life.conn.writeBuffer.length

theorem balanced_start (message writeComplete close error : Bool) :
    (start (.new message writeComplete close error)).Balanced :=
  ⟨Lifecycle.pumping_start _ _ _ _, rfl⟩

/-- What a member function takes over is handed over or buffered. -/
theorem length_of_effect {c : TcpConnection} {out : Outcome} {n : ℕ} (he : c.Effect out n) :
    c.writeBuffer.length + n = out.sent.length + out.conn.writeBuffer.length := by
  cases he with
  | quiet side sent _ accepts =>
    rw [sent, accepts, show out.conn.writeBuffer = c.writeBuffer from congrArg (·.2.2.1) side]
    simp
  | direct _ side _ accepts =>
    rw [accepts, show out.conn.writeBuffer = c.writeBuffer from congrArg (·.2.2.1) side, Nat.add_comm]
  | enqueue bs _ side _ _ accepts =>
    rw [accepts, show out.conn.writeBuffer = c.writeBuffer ++ bs from congrArg (·.2.2.1) side,
      List.length_append]
    omega
  | drain n _ side sent _ accepts =>
    rw [accepts, sent, show out.conn.writeBuffer = c.writeBuffer.drop n from congrArg (·.2.2.1) side,
      ← List.length_append, List.take_append_drop]
    rfl
  | flush side sent _ accepts =>
    rw [accepts, sent, show out.conn.writeBuffer = [] from congrArg (·.2.2.1) side]
    rfl
  | force _ side sent _ accepts =>
    rw [sent, accepts, show out.conn.writeBuffer = c.writeBuffer from congrArg (·.2.2.1) side]
    simp
  | close _ side sent _ accepts =>
    rw [sent, accepts, show out.conn.writeBuffer = c.writeBuffer from congrArg (·.2.2.1) side]
    simp

/-- An event that calls no member function takes nothing over. -/
theorem accepts_of_none {x : Lifecycle} {e : LifeEvent} (h : x.outcome e = none) : x.accepts e = 0 := by
  cases e with
  | call c =>
    rw [Lifecycle.outcome] at h
    split at h
    · rename_i haborted
      exact if_pos haborted
    · cases h
  | _ => rfl

/-- **The member function that an event calls.** -/
theorem effect_of_some {x : Lifecycle} {e : LifeEvent} {out : Outcome} (h : x.outcome e = some out) :
    x.conn.Effect out (x.accepts e) := by
  have hmoves := x.moves e
  have hruns : ¬ x.conn.channel.aborted = true := fun haborted => by
    rw [Lifecycle.outcome, if_pos haborted] at h
    cases h
  rw [h] at hmoves
  generalize x.step e = y at hmoves
  cases hmoves with
  | called k =>
    rw [Lifecycle.accepts, if_neg hruns]
    exact x.conn.call_effect k
  | handled read write hd => exact x.conn.handle_effect read write hd
  | ran t => exact x.conn.runTask_effect t

/-- The output buffer after an event. -/
theorem writeBuffer_step {x : Lifecycle} (e : LifeEvent) :
    (x.step e).conn.writeBuffer
      = ((x.outcome e).map fun out => out.conn.writeBuffer).getD x.conn.writeBuffer := by
  have hdestroyed : x.conn.connectDestroyed.writeBuffer = x.conn.writeBuffer := by
    rw [TcpConnection.connectDestroyed]
    split <;> rfl
  have hmoves := x.moves e
  generalize x.outcome e = out, x.step e = y at hmoves ⊢
  cases hmoves with
  | destroyed => exact hdestroyed
  | _ => rfl

theorem Balanced.step (h : o.Balanced) (e : LifeEvent) (he : o.life.Polled e) : (o.step e).Balanced := by
  refine ⟨h.pumping.step e he, ?_⟩
  have haccounted := h.accounted
  show o.accepted + o.life.accepts e
    = o.handed + (o.life.sends e).length + (o.life.step e).conn.writeBuffer.length
  rw [writeBuffer_step, Lifecycle.sends]
  cases hout : o.life.outcome e with
  | none =>
    rw [accepts_of_none hout]
    exact haccounted
  | some out =>
    have hlength := length_of_effect (effect_of_some hout)
    simp only [Option.map_some, Option.getD_some]
    omega

/-- **Output ends where the buffer is empty**, and something was handed over. -/
theorem Balanced.handsLast_iff (h : o.Balanced) {e : LifeEvent} (he : o.life.Polled e) :
    o.HandsLast e ↔ (o.life.step e).conn.writeBuffer = [] ∧ o.life.sends e ≠ [] := by
  have haccounted : (o.step e).accepted = (o.step e).handed + (o.life.step e).conn.writeBuffer.length :=
    (h.step e he).accounted
  have hhanded : (o.step e).handed = o.handed + (o.life.sends e).length := rfl
  rw [HandsLast, ← List.length_eq_zero_iff, ne_eq, ← List.length_eq_zero_iff]
  omega

/-- A handler that queues the write-complete task is a `handleWrite` that hands over the whole buffer. -/
theorem sent_of_complete {c : TcpConnection} {read : ReadAnswer} {write : WriteAnswer} {h : Handler}
    (hcomplete : .writeComplete ∈ (c.handle read write h).queued) :
    h = .write ∧ (c.handle read write h).sent = c.writeBuffer := by
  have hclose : .writeComplete ∉ c.handleClose.queued := by
    rw [c.queued_handleClose]
    exact List.not_mem_nil
  cases h with
  | close => exact absurd hcomplete hclose
  | error => exact absurd hcomplete List.not_mem_nil
  | read =>
    rcases read with (- | ⟨b, bs⟩) | e
    · exact absurd hcomplete hclose
    · exact absurd hcomplete List.not_mem_nil
    · cases e <;> exact absurd hcomplete List.not_mem_nil
  | write =>
    refine ⟨rfl, ?_⟩
    change .writeComplete ∈ (c.handleWrite write).queued at hcomplete
    show (c.handleWrite write).sent = c.writeBuffer
    rw [TcpConnection.handleWrite] at hcomplete ⊢
    split at hcomplete
    · rename_i hevent
      rw [if_pos hevent]
      cases write with
      | fails e => cases e <;> exact absurd hcomplete List.not_mem_nil
      | takes room =>
        dsimp only [WriteAnswer.result] at hcomplete ⊢
        split at hcomplete
        · rename_i hempty
          rw [if_pos hempty]
          have happend := List.take_append_drop (min room c.writeBuffer.length) c.writeBuffer
          rwa [List.isEmpty_iff.mp hempty, List.append_nil] at happend
        · exact absurd hcomplete List.not_mem_nil
    · exact absurd hcomplete List.not_mem_nil

/-- **A write-complete task for no bytes** is that of a `write()` of none. -/
theorem Balanced.takesNothing (h : o.Balanced) {e : LifeEvent} {out : Outcome}
    (hout : o.life.outcome e = some out) (hcomplete : .writeComplete ∈ out.queued)
    (hnone : out.sent = []) : o.TakesNothing e := by
  have hmoves := o.life.moves e
  have hruns : o.life.conn.channel.aborted = false := by
    by_contra haborted
    rw [Lifecycle.outcome, if_pos (Bool.not_eq_false _ ▸ haborted)] at hout
    cases hout
  rw [hout] at hmoves
  generalize o.life.step e = y at hmoves
  cases hmoves with
  | handled read write hd rest hhandlers =>
    obtain ⟨rfl, hsent⟩ := sent_of_complete hcomplete
    exact absurd (hsent.symm.trans hnone) (h.pumping.writable (hhandlers ▸ List.mem_cons_self))
  | ran t =>
    have hno : .writeComplete ∉ (o.life.conn.runTask t).queued := by
      cases t with
      | handleClose =>
        show .writeComplete ∉ o.life.conn.handleClose.queued
        rw [o.life.conn.queued_handleClose]
        exact List.not_mem_nil
      | _ => exact List.not_mem_nil
    exact absurd hcomplete hno
  | called k =>
    cases k with
    | write data len junk answer =>
      change .writeComplete ∈ (o.life.conn.write data len junk answer).2.queued at hcomplete
      change (o.life.conn.write data len junk answer).2.sent = [] at hnone
      have hpending : o.life.conn.pending = false := by
        by_contra hp
        rw [TcpConnection.write_of_pending _ (Bool.not_eq_false _ ▸ hp)] at hcomplete
        exact absurd hcomplete List.not_mem_nil
      rw [TcpConnection.write_of_not_pending _ hpending] at hcomplete hnone
      cases answer with
      | fails e => cases e <;> exact absurd hcomplete List.not_mem_nil
      | takes room =>
        dsimp only [WriteAnswer.result] at hcomplete hnone
        split at hcomplete
        · rename_i hrest
          rw [if_pos hrest] at hnone
          have hlength := congrArg List.length hnone
          rw [Pointer.length_read, List.length_nil] at hlength
          exact ⟨hruns, hpending, by omega, fun _ => WriteAnswer.noConfusion⟩
        · exact absurd hcomplete List.not_mem_nil
    | shutdown inLoop => cases inLoop <;> simp [TcpConnection.call, TcpConnection.shutdown,
        TcpConnection.quiet] at hcomplete
    | forceClose =>
      change .writeComplete ∈ o.life.conn.forceClose.queued at hcomplete
      rw [TcpConnection.forceClose] at hcomplete
      split at hcomplete
      · simp at hcomplete
      · exact absurd hcomplete List.not_mem_nil

/-- …and such a `write()` queues it. -/
theorem queues_of_takesNothing {e : LifeEvent} (h : o.TakesNothing e) :
    o.life.queues e = o.life.conn.writeCompleteTask := by
  cases e with
  | call k =>
    cases k with
    | write data len junk answer =>
      obtain ⟨hruns, hpending, rfl, hanswer⟩ := h
      cases answer with
      | fails e => exact absurd rfl (hanswer e)
      | takes room =>
        have hqueued : (o.life.conn.write data 0 junk (.takes room)).2.queued
            = o.life.conn.writeCompleteTask := by
          rw [TcpConnection.write_of_not_pending _ hpending]
          dsimp only [WriteAnswer.result]
          rw [if_pos (Nat.zero_sub _)]
        rw [Lifecycle.queues, Lifecycle.outcome, if_neg (by simp [hruns])]
        exact hqueued
    | shutdown inLoop => exact absurd h id
    | forceClose => exact absurd h id
  | _ => exact absurd h id

/-- **The end of output is announced, and nothing else.** -/
theorem Balanced.queues_iff (h : o.Balanced) (e : LifeEvent) (he : o.life.Polled e)
    (hset : o.life.conn.writeCompleteCallback = true) :
    (o.life.queues e).count .writeComplete = 1 ∧ o.Completes e
      ∨ .writeComplete ∉ o.life.queues e ∧ ¬ o.Completes e := by
  have htask : o.life.conn.writeCompleteTask = [.writeComplete] := if_pos hset
  have hnothing : .writeComplete ∉ o.life.queues e → ¬ o.TakesNothing e := fun hno ht => by
    rw [queues_of_takesNothing ht, htask] at hno
    exact hno (List.mem_singleton_self _)
  -- without the task the output does not end: something is in the buffer, or nothing was sent
  have hquiet : .writeComplete ∉ o.life.queues e →
      ((o.life.step e).conn.writeBuffer = [] → o.life.sends e = []) → ¬ o.Completes e := by
    rintro hno hsends (hlast | ht)
    · obtain ⟨hbuffer, hne⟩ := (h.handsLast_iff he).mp hlast
      exact hne (hsends hbuffer)
    · exact hnothing hno ht
  cases hout : o.life.outcome e with
  | none =>
    have hqueues : o.life.queues e = [] := by rw [Lifecycle.queues, hout]; rfl
    have hsends : o.life.sends e = [] := by rw [Lifecycle.sends, hout]; rfl
    have hno : .writeComplete ∉ o.life.queues e := by rw [hqueues]; exact List.not_mem_nil
    exact .inr ⟨hno, hquiet hno fun _ => hsends⟩
  | some out =>
    have hqueues : o.life.queues e = out.queued := by rw [Lifecycle.queues, hout]; rfl
    have hsends : o.life.sends e = out.sent := by rw [Lifecycle.sends, hout]; rfl
    have hbuffer : (o.life.step e).conn.writeBuffer = out.conn.writeBuffer := by
      rw [writeBuffer_step, hout]
      rfl
    have hends : out.queued = o.life.conn.writeCompleteTask → out.conn.writeBuffer = [] →
        (o.life.queues e).count .writeComplete = 1 ∧ o.Completes e := fun hqueued hempty => by
      have hcomplete : .writeComplete ∈ out.queued := by
        rw [hqueued, htask]
        exact List.mem_singleton_self _
      refine ⟨by rw [hqueues, hqueued, htask]; rfl, ?_⟩
      by_cases hnone : out.sent = []
      · exact .inr (h.takesNothing hout hcomplete hnone)
      · exact .inl ((h.handsLast_iff he).mpr ⟨hbuffer.trans hempty, hsends ▸ hnone⟩)
    have hcontinues : .writeComplete ∉ out.queued → (out.conn.writeBuffer = [] → out.sent = []) →
        .writeComplete ∉ o.life.queues e ∧ ¬ o.Completes e := fun hno hsent => by
      rw [← hqueues] at hno
      exact ⟨hno, hquiet hno fun hempty => hsends.trans (hsent (hbuffer.symm.trans hempty))⟩
    cases effect_of_some hout with
    | quiet _ sent queued => exact .inr (hcontinues queued fun _ => sent)
    | direct pending side queued =>
      exact .inl (hends queued ((congrArg (·.2.2.1) side).trans
        (o.life.conn.not_pending_iff.mp pending).2))
    | enqueue bs rest side _ queued =>
      refine .inr (hcontinues (queued ▸ List.not_mem_nil) fun hempty => absurd ?_ rest)
      rw [show out.conn.writeBuffer = o.life.conn.writeBuffer ++ bs from congrArg (·.2.2.1) side]
        at hempty
      exact (List.append_eq_nil_iff.mp hempty).2
    | drain n rest side _ queued =>
      refine .inr (hcontinues (queued ▸ List.not_mem_nil) fun hempty => absurd ?_ rest)
      exact (congrArg (·.2.2.1) side).symm.trans hempty
    | flush side _ queued => exact .inl (hends queued (congrArg (·.2.2.1) side))
    | force _ _ sent queued => exact .inr (hcontinues (by simp [queued]) fun _ => sent)
    | close _ _ sent queued => exact .inr (hcontinues (queued ▸ List.not_mem_nil) fun _ => sent)

/-- **Write interest and write-complete tasks match the pending output.**  In every state of a run a
connection that asks for `EPOLLOUT` has output, and an established one that has output asks for it; and
with a write-complete callback set, an event queues one write-complete task if the output ends with it,
and none otherwise. -/
theorem output_run (message writeComplete close error : Bool) (es : List LifeEvent)
    (hes : Meets step (fun o e => o.life.Polled e) (start (.new message writeComplete close error)) es) :
    let o := run step (start (.new message writeComplete close error)) es
    let c := o.life.conn
    (c.channel.hasWriteInterest = true → c.writeBuffer ≠ [])
      ∧ (c.state = .established → c.writeBuffer ≠ [] → c.channel.hasWriteInterest = true)
      ∧ ∀ e, o.life.Polled e → c.writeCompleteCallback = true →
        (o.Completes e → (o.life.queues e).count .writeComplete = 1)
          ∧ (¬ o.Completes e → .writeComplete ∉ o.life.queues e) := by
  intro o c
  have ho : o.Balanced := inv_run (fun _ e h he => h.step e he) (balanced_start _ _ _ _) hes
  refine ⟨ho.pumping.pumped.pending, fun hstate => ho.pumping.pumped.flushing (.inr hstate),
    fun e he hset => ?_⟩
  rcases ho.queues_iff e he hset with ⟨hone, hends⟩ | ⟨hnone, hgoes⟩
  · exact ⟨fun _ => hone, fun hno => absurd hends hno⟩
  · exact ⟨fun hends => absurd hends hgoes, fun _ => hnone⟩

instance (x : Lifecycle) : ∀ e, Decidable (x.Polled e)
  | .dispatch _ => inferInstanceAs (Decidable (_ = true → ∃ mask ∈ x.conn.channel.registered, _))
  | .connectEstablished | .connectDestroyed | .call _ | .handler _ _ | .runTask =>
    inferInstanceAs (Decidable True)

/-- Three bytes, of which the kernel takes one, and the other two once it is asked again. -/
theorem output_run_partial :
    let es : List LifeEvent :=
      [.connectEstablished, .call (.write (.ofBytes [1, 2, 3] fun _ => 0) 3 0 (.takes 1)),
        .dispatch .out]
    let o := run step (start (.new true true true false)) es
    let c := o.life.conn
    (c.channel.hasWriteInterest = true → c.writeBuffer ≠ [])
      ∧ (c.state = .established → c.writeBuffer ≠ [] → c.channel.hasWriteInterest = true)
      ∧ ∀ e, o.life.Polled e → c.writeCompleteCallback = true →
        (o.Completes e → (o.life.queues e).count .writeComplete = 1)
          ∧ (¬ o.Completes e → .writeComplete ∉ o.life.queues e) :=
  output_run true true true false _ (by decide)

/-- **A `write()` of no bytes is announced**, though it hands nothing over. -/
theorem empty_write_announced :
    let o := run step (start (.new true true true false)) [.connectEstablished]
    let e : LifeEvent := .call (.write (.ofBytes [] fun _ => 0) 0 0 (.takes 1))
    o.life.conn.writeCompleteCallback = true ∧ ¬ o.HandsLast e
      ∧ o.life.queues e = [.writeComplete] := by
  refine ⟨by decide, fun h => absurd h.2 (by decide), by decide⟩

end Outflow
