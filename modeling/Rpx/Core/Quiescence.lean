import Rpx.Core.Effects

/-!
# Core/Quiescence — what a closed connection still does

    EPOLLHUP | EPOLLOUT  ──▶  handleClose  ──▶  handleWrite  ──▶  ::write, epoll_ctl(ADD)

`handleClose` takes every interest away, and with it the channel out of the epoll set.  It leaves the
socket open and the output buffer full, and neither `write()` nor `handleWrite` looks at the state
before it calls `::write`: a `write()` that finds the buffer empty sends at once, and a `handleWrite`
later in the same dispatch sends what is buffered.  Once the buffer is empty it applies the interests
again, and a channel that was taken out is added.  `quiescent_iff_harmless` says that nothing else
disturbs a closed connection.
-/

open Machinery

namespace Channel

variable {ch : Channel}

/-- A channel that asks for something is in the epoll set. -/
theorem state_applyInterest (h : ch.hasNoneInterest = false) : ch.applyInterest.state = .set := by
  obtain ⟨interests, events, added, state, registered, aborted⟩ := ch
  have hsome : ¬ (interests == EpollMask.none) = true := Bool.eq_false_iff.mp h
  cases state <;> cases registered <;>
    simp [applyInterest, addOrUpdateChannel, hasNoneInterest, hsome, epollCtl]

/-- A channel in the epoll set that asks for nothing more is taken out. -/
theorem delet_unsetAllInterest (h : ch.Consistent) (hstate : ch.state = .set) :
    ch.unsetAllInterest.state = .delet ∧ ch.unsetAllInterest.registered = none := by
  obtain ⟨interests, events, added, state, registered, aborted⟩ := ch
  obtain rfl : state = .set := hstate
  obtain rfl : registered = some interests := h
  exact ⟨rfl, rfl⟩

/-- **A channel taken out is added again** when write interest is given up. -/
theorem registered_unsetWriteInterest (hstate : ch.state ≠ .set) (h : ch.registered = none) :
    ch.unsetWriteInterest.registered ≠ none := by
  obtain ⟨interests, events, added, state, registered, aborted⟩ := ch
  obtain rfl : registered = none := h
  cases state with
  | unset => exact Option.some_ne_none _
  | set => exact absurd rfl hstate
  | delet => exact Option.some_ne_none _

/-- A channel in no epoll set is removed. -/
theorem remove_of_ne_set (hnone : ch.hasNoneInterest = true) (hstate : ch.state ≠ .set) :
    ch.remove = { ch with addedInLoop := false, state := .unset } := by
  rw [remove, if_pos hnone, removeChannel, if_neg hstate]

end Channel

namespace TcpConnection

/-- **An open connection is in the epoll set**, and is read from. -/
structure Geared (side : StateE × Channel × Bytes × Bool) : Prop where
  consistent : side.2.1.Consistent
  opened : side.1 = .established ∨ side.1 = .disconnecting →
    side.2.1.state = .set ∧ side.2.1.interests.epollin = true

/-- **A closed connection asks for nothing**, and is in no epoll set. -/
structure Shut (side : StateE × Channel × Bytes × Bool) : Prop where
  state : side.1 = .disconnected
  interests : side.2.1.interests = .none
  channel : side.2.1.state ≠ .set
  registered : side.2.1.registered = none

variable {c : TcpConnection}

/-- Something asked for is something. -/
theorem hasNoneInterest_of_epollin (ch : Channel) (h : ch.interests.epollin = true) :
    ch.hasNoneInterest = false := by
  rw [Channel.hasNoneInterest, beq_eq_false_iff_ne]
  intro hnone
  rw [hnone] at h
  cases h

/-- Other interests are applied, reading among them. -/
theorem geared_applyInterest {ch : Channel} (h : ch.Consistent) {m : EpollMask} (s : StateE)
    (b : Bytes) (w : Bool)
    (hm : s = .established ∨ s = .disconnecting → m.epollin = true) :
    Geared (s, Channel.applyInterest { ch with interests := m }, b, w) := by
  have hknown : Channel.Known { ch with interests := m } := h.known
  refine ⟨hknown.applyInterest.1, fun hopen => ⟨?_, ?_⟩⟩
  · exact Channel.state_applyInterest
      (hasNoneInterest_of_epollin { ch with interests := m } (hm hopen))
  · show (Channel.applyInterest { ch with interests := m }).interests.epollin = true
    rw [Channel.interests_applyInterest]
    exact hm hopen

theorem Geared.of_effect (h : Geared c.outputSide) {out : Outcome} {n : ℕ} (he : c.Effect out n) :
    Geared out.conn.outputSide := by
  cases he with
  | quiet side => rwa [side]
  | direct _ side => rwa [side]
  | enqueue bs rest side =>
    rw [side]
    split
    · exact geared_applyInterest h.consistent _ _ _ fun hopen => (h.opened hopen).2
    · exact ⟨h.consistent, h.opened⟩
  | drain n rest side =>
    rw [side]
    exact ⟨h.consistent, h.opened⟩
  | flush side =>
    rw [side]
    exact geared_applyInterest h.consistent _ _ _ fun hopen => (h.opened hopen).2
  | force established side =>
    rw [side]
    exact ⟨h.consistent, fun _ => h.opened (.inl established)⟩
  | close isOpen side =>
    rw [side]
    exact geared_applyInterest h.consistent _ _ _ fun hopen => by simp at hopen

theorem Geared.connectDestroyed (h : Geared c.outputSide) : Geared c.connectDestroyed.outputSide := by
  rw [TcpConnection.connectDestroyed]
  split
  · have hknown : Channel.Known { c.channel with interests := .none } := h.consistent.known
    exact ⟨hknown.applyInterest.1.remove.1, fun hopen => by simp [outputSide] at hopen⟩
  · refine ⟨h.consistent.remove.1, fun hopen => ?_⟩
    obtain ⟨hset, hin⟩ := h.opened hopen
    show c.channel.remove.state = .set ∧ c.channel.remove.interests.epollin = true
    rw [Channel.remove, if_neg (by simp [hasNoneInterest_of_epollin c.channel hin])]
    exact ⟨hset, hin⟩

end TcpConnection

namespace Lifecycle

open TcpConnection

variable {x : Lifecycle}

theorem geared_start (message writeComplete close error : Bool) :
    Geared (start (.new message writeComplete close error)).conn.outputSide :=
  ⟨rfl, fun hopen => by simp [start, TcpConnection.new, outputSide] at hopen⟩

theorem geared_step (h : Geared x.conn.outputSide) (e : LifeEvent) :
    Geared (x.step e).conn.outputSide := by
  have hmoves := x.moves e
  generalize x.outcome e = out, x.step e = y at hmoves ⊢
  cases hmoves with
  | idle => exact h
  | failed => exact ⟨h.consistent, h.opened⟩
  | established =>
    have hconsistent : Channel.Consistent { x.conn.channel with
        aborted := x.conn.channel.aborted || !(x.conn.state == StateE.connecting) } := h.consistent
    exact geared_applyInterest hconsistent _ _ _ fun _ => rfl
  | destroyed => exact h.connectDestroyed
  | polled => exact ⟨h.consistent, h.opened⟩
  | called k => exact h.of_effect (x.conn.call_effect k)
  | handled read write hd => exact h.of_effect (x.conn.handle_effect read write hd)
  | ran t => exact h.of_effect (x.conn.runTask_effect t)

/-- A member function that closes a connection takes its channel out of the epoll set. -/
theorem shut_of_effect {c : TcpConnection} (h : Geared c.outputSide) (hopen : c.state ≠ .disconnected)
    {out : Outcome} {n : ℕ} (he : c.Effect out n) (hclosed : out.conn.state = .disconnected) :
    Shut out.conn.outputSide := by
  have hsame : ∀ {s : StateE} {ch : Channel} {b : Bytes} {w : Bool},
      out.conn.outputSide = (s, ch, b, w) → s = .disconnected := fun side =>
    (congrArg (·.1) side).symm.trans hclosed
  cases he with
  | close isOpen side =>
    obtain ⟨hdelet, hnone⟩ := Channel.delet_unsetAllInterest h.consistent (h.opened isOpen).1
    rw [side]
    refine ⟨rfl, Channel.interests_unsetAllInterest _, ?_, hnone⟩
    show c.channel.unsetAllInterest.state ≠ .set
    rw [show c.channel.unsetAllInterest.state = .delet from hdelet]
    simp
  | force _ side => cases hsame side
  | quiet side => exact absurd (hsame side) hopen
  | direct _ side => exact absurd (hsame side) hopen
  | enqueue _ _ side => exact absurd (hsame side) hopen
  | drain _ _ side => exact absurd (hsame side) hopen
  | flush side => exact absurd (hsame side) hopen

/-- **`handleClose` leaves a closed connection behind.** -/
theorem shut_step (h : Geared x.conn.outputSide) (hopen : x.conn.state ≠ .disconnected) {e : LifeEvent}
    (hclosed : (x.step e).conn.state = .disconnected) (he : e ≠ .connectDestroyed) :
    Shut (x.step e).conn.outputSide := by
  have hmoves := x.moves e
  generalize x.outcome e = out, x.step e = y at hmoves hclosed ⊢
  cases hmoves with
  | idle => exact absurd hclosed hopen
  | failed => exact absurd hclosed hopen
  | established => cases hclosed
  | destroyed => exact absurd rfl he
  | polled => exact absurd hclosed hopen
  | called k => exact shut_of_effect h hopen (x.conn.call_effect k) hclosed
  | handled read write hd => exact shut_of_effect h hopen (x.conn.handle_effect read write hd) hclosed
  | ran t => exact shut_of_effect h hopen (x.conn.runTask_effect t) hclosed

/-! ## A closed connection -/

/-- **The event disturbs nothing**: it hands no byte to the socket, and the channel is in no epoll set
afterwards. -/
def Quiet (x : Lifecycle) (e : LifeEvent) : Prop :=
  x.sends e = [] ∧ (x.step e).conn.channel.registered = none

/-- **The kernel takes nothing.**  A `write()` that finds the output buffer empty is not taken a byte
of; nor is the buffer by a `handleWrite`, which finds it with something in it if it is not refused. -/
def Harmless (x : Lifecycle) : LifeEvent → Prop
  | .call (.write _ len _ answer) =>
    x.conn.channel.aborted = false → x.conn.writeBuffer = [] → ∀ n, answer.result len = .ok n → n = 0
  | .handler _ write =>
    x.conn.channel.aborted = false → x.handlers.head? = some .write →
      x.conn.channel.hasWriteEvent = true →
      ∀ n, write.result x.conn.writeBuffer.length = .ok n → n = 0 ∧ x.conn.writeBuffer ≠ []
  | _ => True

end Lifecycle

namespace TcpConnection

variable {c : TcpConnection}

/-- A closed connection asks for no `EPOLLOUT`, and has output pending only in its buffer. -/
theorem Shut.pending (h : Shut c.outputSide) : c.pending = false ↔ c.writeBuffer = [] := by
  have hwrite : c.channel.hasWriteInterest = false := by
    rw [Channel.hasWriteInterest, show c.channel.interests = .none from h.interests]
    rfl
  rw [not_pending_iff, hwrite]
  simp

/-- What a `write()` on a closed connection hands to the socket. -/
theorem Shut.sent_write (h : Shut c.outputSide) (data : Pointer) (len : ℕ) (junk : ℤ)
    (answer : WriteAnswer) :
    (c.write data len junk answer).2.sent = []
      ↔ c.writeBuffer = [] → ∀ n, answer.result len = .ok n → n = 0 := by
  by_cases hempty : c.writeBuffer = []
  · rw [write_of_not_pending _ (h.pending.mpr hempty)]
    simp only [hempty, forall_const]
    cases answer with
    | fails e => cases e <;> simp [WriteAnswer.result, quiet]
    | takes room =>
      have hlength : data.read 0 (min room len) = [] ↔ min room len = 0 := by
        rw [← List.length_eq_zero_iff, Pointer.length_read]
      simp only [WriteAnswer.result, Except.ok.injEq, forall_eq']
      rw [← hlength]
      split <;> rfl
  · have hpending : c.pending = true := by
      by_contra hp
      exact hempty (h.pending.mp (Bool.not_eq_true _ ▸ hp))
    rw [write_of_pending _ hpending]
    exact iff_of_true rfl fun hnil => absurd hnil hempty

/-- **A `handleWrite` on a closed connection** sends what is buffered, or adds the channel again. -/
theorem Shut.handleWrite (h : Shut c.outputSide) (answer : WriteAnswer) :
    ((c.handleWrite answer).sent = [] ∧ (c.handleWrite answer).conn.channel.registered = none)
      ↔ (c.channel.hasWriteEvent = true → ∀ n, answer.result c.writeBuffer.length = .ok n →
        n = 0 ∧ c.writeBuffer ≠ []) := by
  have hnone : c.channel.registered = none := h.registered
  have hadded := Channel.registered_unsetWriteInterest h.channel hnone
  rw [TcpConnection.handleWrite]
  split
  · rename_i hevent
    simp only [hevent, forall_const]
    cases answer with
    | fails e => cases e <;> simp [WriteAnswer.result, quiet, handleError, hnone]
    | takes room =>
      simp only [WriteAnswer.result, Except.ok.injEq, forall_eq']
      split
      · rename_i hempty
        have hall := List.drop_eq_nil_iff.mp (List.isEmpty_iff.mp hempty)
        refine iff_of_false (fun hq => hadded hq.2) fun hn => hn.2 ?_
        exact List.length_eq_zero_iff.mp (by omega)
      · rename_i hempty
        have hne : c.writeBuffer ≠ [] := fun hnil => hempty (by simp [hnil])
        have hpos := List.length_pos_iff.mpr hne
        simp only [hnone, and_true, List.take_eq_nil_iff, hne, or_false, ne_eq, not_false_eq_true]
  · rename_i hevent
    exact iff_of_true ⟨rfl, hnone⟩ fun hset => absurd hset hevent

/-- The other handlers find nothing to do. -/
theorem handle_of_disconnected (hstate : c.state = .disconnected) (read : ReadAnswer)
    (write : WriteAnswer) {h : Handler} (hne : h ≠ .write) :
    (c.handle read write h).sent = [] ∧ (c.handle read write h).conn.channel = c.channel := by
  have hclose : c.handleClose = c.quiet := by
    rw [handleClose, if_neg (by simp [hstate])]
  cases h with
  | close =>
    show c.handleClose.sent = [] ∧ c.handleClose.conn.channel = c.channel
    rw [hclose]
    exact ⟨rfl, rfl⟩
  | error => exact ⟨rfl, rfl⟩
  | read =>
    rcases read with (- | ⟨b, bs⟩) | e
    · show c.handleClose.sent = [] ∧ c.handleClose.conn.channel = c.channel
      rw [hclose]
      exact ⟨rfl, rfl⟩
    · exact ⟨rfl, rfl⟩
    · cases e <;> exact ⟨rfl, rfl⟩
  | write => exact absurd rfl hne

/-- A task hands nothing to the socket. -/
theorem sent_runTask (c : TcpConnection) (t : ConnTask) : (c.runTask t).sent = [] := by
  cases t with
  | handleClose => exact c.sent_handleClose
  | _ => rfl

/-- A closed connection that the poller does not learn of again stays closed. -/
theorem Shut.of_effect (h : Shut c.outputSide) {out : Outcome} {n : ℕ} (he : c.Effect out n)
    (hnone : out.conn.channel.registered = none) : Shut out.conn.outputSide := by
  have hstate : c.state = .disconnected := h.state
  cases he with
  | quiet side => rwa [side]
  | direct _ side => rwa [side]
  | enqueue bs rest side =>
    rw [side, if_neg fun hasks => hasks.1 (.inr hstate)]
    exact ⟨h.state, h.interests, h.channel, h.registered⟩
  | drain n rest side =>
    rw [side]
    exact ⟨h.state, h.interests, h.channel, h.registered⟩
  | flush side =>
    rw [show out.conn.channel = c.channel.unsetWriteInterest from congrArg (·.2.1) side] at hnone
    exact absurd hnone (Channel.registered_unsetWriteInterest h.channel h.registered)
  | force established => rw [hstate] at established; cases established
  | close isOpen => rw [hstate] at isOpen; simp at isOpen

/-- `connectDestroyed()` removes the channel of a closed connection. -/
theorem Shut.connectDestroyed (h : Shut c.outputSide) : Shut c.connectDestroyed.outputSide := by
  have hstate : c.state = .disconnected := h.state
  have hnone : c.channel.hasNoneInterest = true := beq_iff_eq.mpr h.interests
  have hremove := Channel.remove_of_ne_set hnone h.channel
  rw [TcpConnection.connectDestroyed, if_neg (by simp [hstate])]
  refine ⟨h.state, (Channel.interests_remove _).trans h.interests, ?_, ?_⟩
  · show c.channel.remove.state ≠ .set
    rw [hremove]
    simp
  · show c.channel.remove.registered = none
    rw [hremove]
    exact h.registered

end TcpConnection

namespace Lifecycle

open TcpConnection

variable {x : Lifecycle}

/-- An event that calls nothing on a closed connection disturbs nothing. -/
theorem quiet_of_none (h : Shut x.conn.outputSide) {e : LifeEvent} (hout : x.outcome e = none) :
    x.Quiet e := by
  refine ⟨by rw [sends, hout]; rfl, ?_⟩
  have hmoves := x.moves e
  rw [hout] at hmoves
  generalize x.step e = y at hmoves ⊢
  cases hmoves with
  | established hstate => rw [show x.conn.state = .disconnected from h.state] at hstate; cases hstate
  | destroyed => exact h.connectDestroyed.registered
  | polled _ _ known =>
    rw [show x.conn.channel.registered = none from h.registered] at known
    cases known
  | _ => exact h.registered

/-- **An event disturbs nothing exactly when it is harmless.** -/
theorem quiet_iff_harmless (h : Shut x.conn.outputSide) (e : LifeEvent) : x.Quiet e ↔ x.Harmless e := by
  have hclosed : x.conn.state = .disconnected := h.state
  by_cases haborted : x.conn.channel.aborted = true
  · have hout : x.outcome e = none := if_pos haborted
    refine iff_of_true (quiet_of_none h hout) ?_
    cases e with
    | call k => cases k <;> simp [Harmless, haborted]
    | handler read write => simp [Harmless, haborted]
    | _ => trivial
  · have hruns : x.conn.channel.aborted = false := Bool.not_eq_true _ ▸ haborted
    have hout : x.outcome e = x.performs e := if_neg haborted
    have hstep : x.step e = x.perform e := if_neg haborted
    have hnone : x.performs e = none → ((x.performs e).map Outcome.sent).getD [] = []
        ∧ (x.perform e).conn.channel.registered = none := fun hperforms => by
      have hquiet := quiet_of_none h (hout.trans hperforms)
      rwa [Quiet, sends, hout, hstep] at hquiet
    rw [Quiet, sends, hout, hstep]
    cases e with
    | call k =>
      have hchannel : (x.perform (.call k)).conn.channel.registered = none :=
        (congrArg Channel.registered (call_of_disconnected hclosed k)).trans h.registered
      rw [and_iff_left hchannel]
      cases k with
      | write data len junk answer =>
        simp only [Harmless, hruns, forall_const]
        exact h.sent_write data len junk answer
      | shutdown inLoop => cases inLoop <;> exact iff_of_true rfl trivial
      | forceClose =>
        refine iff_of_true ?_ trivial
        show x.conn.forceClose.sent = []
        rw [TcpConnection.forceClose, if_neg (by simp [hclosed])]
        rfl
    | handler read write =>
      simp only [Harmless, hruns, forall_const]
      cases hhandlers : x.handlers with
      | nil =>
        have hidle := hnone (by rw [performs, hhandlers]; rfl)
        exact iff_of_true hidle fun hhead => by simp at hhead
      | cons hd rest =>
        have hsent : ((x.performs (.handler read write)).map Outcome.sent).getD []
            = (x.conn.handle read write hd).sent := by rw [performs, hhandlers]; rfl
        have hchannel : (x.perform (.handler read write)).conn.channel
            = (x.conn.handle read write hd).conn.channel := by rw [perform, hhandlers]; rfl
        rw [hsent, hchannel]
        by_cases hwrite : hd = .write
        · subst hwrite
          simp only [List.head?_cons, forall_const]
          exact h.handleWrite write
        · obtain ⟨hnone, hsame⟩ := handle_of_disconnected hclosed read write hwrite
          rw [hsame]
          refine iff_of_true ⟨hnone, h.registered⟩ fun hhead => absurd ?_ hwrite
          simpa using hhead
    | runTask =>
      refine iff_of_true ?_ trivial
      by_cases hidle : x.handlers = []
      · cases htasks : x.tasks with
        | nil => exact hnone (by rw [performs, hidle, htasks]; rfl)
        | cons t rest =>
          have hchannel := runTask_of_disconnected hclosed t
          rw [performs, perform, hidle, htasks]
          exact ⟨x.conn.sent_runTask t, (congrArg Channel.registered hchannel).trans h.registered⟩
      · exact hnone (by rw [performs, if_neg hidle])
    | _ => exact iff_of_true (hnone rfl) trivial

/-- **A connection that nothing disturbs stays closed.** -/
theorem shut_of_quiet (h : Shut x.conn.outputSide) {e : LifeEvent} (hquiet : x.Quiet e) :
    Shut (x.step e).conn.outputSide := by
  have hnone := hquiet.2
  have hmoves := x.moves e
  generalize x.outcome e = out, x.step e = y at hmoves hnone ⊢
  cases hmoves with
  | idle => exact h
  | failed => exact ⟨h.state, h.interests, h.channel, h.registered⟩
  | established hstate => rw [show x.conn.state = .disconnected from h.state] at hstate; cases hstate
  | destroyed => exact h.connectDestroyed
  | polled => exact ⟨h.state, h.interests, h.channel, h.registered⟩
  | called k => exact h.of_effect (x.conn.call_effect k) hnone
  | handled read write hd => exact h.of_effect (x.conn.handle_effect read write hd) hnone
  | ran t => exact h.of_effect (x.conn.runTask_effect t) hnone

/-- **Quiescence, exactly.**  Once an event other than `connectDestroyed()` has closed a connection, its
channel is in no epoll set, and the events that follow disturb nothing if and only if each of them is
harmless. -/
theorem quiescent_iff_harmless (message writeComplete close error : Bool) (es : List LifeEvent)
    (e : LifeEvent) (fs : List LifeEvent) (he : e ≠ .connectDestroyed)
    (hopen : (run step (start (.new message writeComplete close error)) es).conn.state ≠ .disconnected)
    (hclosed : ((run step (start (.new message writeComplete close error)) es).step e).conn.state
      = .disconnected) :
    let x := (run step (start (.new message writeComplete close error)) es).step e
    x.conn.channel.registered = none ∧ (Meets step Quiet x fs ↔ Meets step Harmless x fs) := by
  intro x
  have hgeared : Geared (run step (start (.new message writeComplete close error)) es).conn.outputSide :=
    @inv_run _ _ step (fun _ _ => True) (fun y => Geared y.conn.outputSide)
      (fun _ e h _ => geared_step h e) _ (geared_start _ _ _ _) es (meets_true _ es)
  have hx : Shut x.conn.outputSide := shut_step hgeared hopen hclosed he
  have hiff : ∀ y f, Shut (Lifecycle.conn y).outputSide → (y.Quiet f ↔ y.Harmless f) :=
    fun y f hy => quiet_iff_harmless hy f
  exact ⟨hx.registered, meets_iff_of_inv hiff
    (fun y f hy hf => shut_of_quiet hy ((hiff y f hy).mpr hf)) hx fs⟩

/-- An established connection, of whose output the kernel has taken one byte of three, and which is
then told that its peer is gone and that there is room. -/
def hangup : List LifeEvent :=
  [.connectEstablished, .call (.write (.ofBytes [1, 2, 3] fun _ => 0) 3 0 (.takes 1)),
    .dispatch { EpollMask.out with epollhup := true }]

/-- The `::write` that follows is refused. -/
theorem quiescent_iff_harmless_refused :
    let x := (run step (start (.new true true true false)) hangup).step (.handler (.fails .again) (.takes 0))
    let fs : List LifeEvent := [.handler (.fails .again) (.fails .other), .connectDestroyed]
    x.conn.channel.registered = none ∧ (Meets step Quiet x fs ↔ Meets step Harmless x fs) :=
  quiescent_iff_harmless true true true false hangup _ _ (by simp) (by decide) (by decide)

instance (x : Lifecycle) (e : LifeEvent) : Decidable (x.Quiet e) :=
  inferInstanceAs (Decidable (_ ∧ _))

/-- **`handleWrite` follows `handleClose`**: the kernel is given the rest of the output, and the closed
channel is in the epoll set again. -/
theorem hangup_disturbs :
    let x := (run step (start (.new true true true false)) hangup).step (.handler (.fails .again) (.takes 0))
    x.conn.state = .disconnected ∧ ¬ Meets step Quiet x [.handler (.fails .again) (.takes 2)] := by
  decide

end Lifecycle
