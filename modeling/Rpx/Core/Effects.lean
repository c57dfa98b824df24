import Rpx.Core.Lifecycle

/-!
# Core/Effects — what one call does to the output side

    quiet | direct | enqueue | drain | flush | force | close

State, channel, output buffer and write-complete callback are what output turns on.  `Effect` says
once what a member function can do to them, what it hands to the socket and what it queues; and
`Lifecycle.Moves` says once what an event does to a life.  Every invariant of the output side is read
off these two.
-/

open Machinery

namespace TcpConnection

/-- What output turns on. -/
def outputSide (c : TcpConnection) : StateE × Channel × Bytes × Bool :=
  (c.state, c.channel, c.writeBuffer, c.writeCompleteCallback)

/-- `write()` asks to be told of room: the connection is not closing, and has not asked yet. -/
def Asks (c : TcpConnection) : Prop :=
  ¬ (c.state = .disconnecting ∨ c.state = .disconnected) ∧ ¬ c.channel.hasWriteInterest

instance (c : TcpConnection) : Decidable c.Asks := by
  unfold Asks
  infer_instance

/-- **What a member function does to the output side**, `accepted` being the number of bytes that a
`write()` took over. -/
inductive Effect (c : TcpConnection) (out : Outcome) (accepted : ℕ) : Prop
  | quiet (side : out.conn.outputSide = c.outputSide) (sent : out.sent = [])
      (queued : .writeComplete ∉ out.queued) (accepts : accepted = 0)
  /-- A `write()` that the kernel takes whole. -/
  | direct (pending : c.pending = false) (side : out.conn.outputSide = c.outputSide)
      (queued : out.queued = c.writeCompleteTask) (accepts : accepted = out.sent.length)
  /-- A `write()` that leaves something in the buffer. -/
  | enqueue (bs : Bytes) (rest : bs ≠ [])
      (side : out.conn.outputSide = (c.state,
        if c.Asks then c.channel.setWriteInterest else c.channel, c.writeBuffer ++ bs,
        c.writeCompleteCallback))
      (sent : c.pending = true → out.sent = []) (queued : out.queued = [])
      (accepts : accepted = out.sent.length + bs.length)
  /-- A `handleWrite` that leaves something in the buffer. -/
  | drain (n : ℕ) (rest : c.writeBuffer.drop n ≠ [])
      (side : out.conn.outputSide
        = (c.state, c.channel, c.writeBuffer.drop n, c.writeCompleteCallback))
      (sent : out.sent = c.writeBuffer.take n) (queued : out.queued = []) (accepts : accepted = 0)
  /-- A `handleWrite` that empties the buffer. -/
  | flush
      (side : out.conn.outputSide
        = (c.state, c.channel.unsetWriteInterest, [], c.writeCompleteCallback))
      (sent : out.sent = c.writeBuffer) (queued : out.queued = c.writeCompleteTask)
      (accepts : accepted = 0)
  | force (established : c.state = .established)
      (side : out.conn.outputSide
        = (.disconnecting, c.channel, c.writeBuffer, c.writeCompleteCallback))
      (sent : out.sent = []) (queued : out.queued = [.handleClose]) (accepts : accepted = 0)
  | close (isOpen : c.state = .established ∨ c.state = .disconnecting)
      (side : out.conn.outputSide
        = (.disconnected, c.channel.unsetAllInterest, c.writeBuffer, false))
      (sent : out.sent = []) (queued : out.queued = []) (accepts : accepted = 0)

variable (c : TcpConnection)

/-- How many bytes a call takes over: a `write()` whose `::write` fails takes none, any other takes
all of its own. -/
def accepts : ConnCall → ℕ
  | .write _ len _ answer => if c.pending = false ∧ answer = .fails .other then 0 else len
  | _ => 0

/-! ## The member functions -/

theorem outputSide_enqueue (data : Pointer) (written : ℤ) {remaining : ℕ} (h : 0 < remaining) :
    (c.enqueue data written remaining).outputSide = (c.state,
      if c.Asks then c.channel.setWriteInterest else c.channel,
      c.writeBuffer ++ data.read written remaining, c.writeCompleteCallback) := by
  rw [enqueue, if_pos h]
  dsimp only
  by_cases hasks : c.Asks
  · have hopen := hasks
    rw [Asks] at hopen
    rw [if_pos hopen, if_pos hasks]
    rfl
  · have hclosing := hasks
    rw [Asks] at hclosing
    rw [if_neg hclosing, if_neg hasks]
    rfl

theorem enqueue_zero (data : Pointer) (written : ℤ) : c.enqueue data written 0 = c := by
  rw [enqueue, if_neg (Nat.lt_irrefl 0)]

/-- The tail of a `write()`. -/
theorem effect_enqueue (data : Pointer) (written : ℤ) (remaining : ℕ) {sent : Bytes} {accepted : ℕ}
    (hsent : c.pending = true → sent = []) (hnone : remaining = 0 → sent = [])
    (haccepts : accepted = sent.length + remaining) :
    c.Effect ⟨c.enqueue data written remaining, sent, [], []⟩ accepted := by
  rcases Nat.eq_zero_or_pos remaining with rfl | hpos
  · rw [enqueue_zero]
    refine .quiet rfl (hnone rfl) List.not_mem_nil ?_
    rw [haccepts, hnone rfl]
    rfl
  · have hlength : (data.read written remaining).length = remaining := data.length_read written _
    refine .enqueue (data.read written remaining) ?_ (c.outputSide_enqueue data written hpos) hsent rfl
      (haccepts.trans (congrArg (sent.length + ·) hlength.symm))
    intro hnil
    rw [hnil] at hlength
    exact hpos.ne hlength

theorem write_effect (data : Pointer) (len : ℕ) (junk : ℤ) (answer : WriteAnswer) :
    c.Effect (c.write data len junk answer).2 (c.accepts (.write data len junk answer)) := by
  by_cases hp : c.pending = true
  · rw [c.write_of_pending hp, accepts, if_neg (by simp [hp])]
    exact c.effect_enqueue data junk len (fun _ => rfl) (fun _ => rfl) (Nat.zero_add len).symm
  · have hp' : c.pending = false := Bool.not_eq_true _ ▸ hp
    rw [c.write_of_not_pending hp']
    cases answer with
    | fails e =>
      cases e with
      | again =>
        rw [accepts, if_neg (by simp)]
        exact c.effect_enqueue data 0 len (fun _ => rfl) (fun _ => rfl) (Nat.zero_add len).symm
      | other =>
        rw [accepts, if_pos ⟨hp', rfl⟩]
        exact .quiet rfl rfl List.not_mem_nil rfl
    | takes room =>
      rw [accepts, if_neg (by simp)]
      simp only [WriteAnswer.result]
      split
      · refine .direct hp' rfl rfl ?_
        show len = (data.read 0 (min room len)).length
        rw [Pointer.length_read]
        omega
      · rename_i hrest
        refine c.effect_enqueue data _ _ (fun h => absurd h hp) (fun h => absurd h hrest) ?_
        rw [Pointer.length_read, Nat.add_sub_cancel' (Nat.min_le_right room len)]

theorem forceClose_effect : c.Effect c.forceClose 0 := by
  rw [forceClose]
  split
  · rename_i hstate
    exact .force hstate rfl rfl rfl rfl
  · exact .quiet rfl rfl List.not_mem_nil rfl

theorem handleClose_effect : c.Effect c.handleClose 0 := by
  rw [handleClose]
  split
  · rename_i hopen
    exact .close hopen rfl rfl rfl rfl
  · exact .quiet rfl rfl List.not_mem_nil rfl

theorem handleError_effect : c.Effect c.handleError 0 := .quiet rfl rfl List.not_mem_nil rfl

theorem handleRead_effect (answer : ReadAnswer) : c.Effect (c.handleRead answer) 0 := by
  rcases answer with (- | ⟨b, bs⟩) | e
  · exact c.handleClose_effect
  · exact .quiet rfl rfl List.not_mem_nil rfl
  · cases e with
    | again => exact .quiet rfl rfl List.not_mem_nil rfl
    | other => exact c.handleError_effect

theorem handleWrite_effect (answer : WriteAnswer) : c.Effect (c.handleWrite answer) 0 := by
  rw [handleWrite]
  split
  · cases answer with
    | fails e =>
      cases e with
      | again => exact .quiet rfl rfl List.not_mem_nil rfl
      | other => exact c.handleError_effect
    | takes room =>
      dsimp only [WriteAnswer.result]
      split
      · rename_i hempty
        have hrest := List.isEmpty_iff.mp hempty
        refine .flush (congrArg (fun b => (c.state, _, b, c.writeCompleteCallback)) hrest) ?_ rfl rfl
        have happend := List.take_append_drop (min room c.writeBuffer.length) c.writeBuffer
        rwa [hrest, List.append_nil] at happend
      · rename_i hempty
        exact .drain _ (fun hrest => hempty (List.isEmpty_iff.mpr hrest)) rfl rfl rfl rfl
  · exact .quiet rfl rfl List.not_mem_nil rfl

theorem call_effect (call : ConnCall) : c.Effect (c.call call) (c.accepts call) := by
  cases call with
  | write data len junk answer => exact c.write_effect data len junk answer
  | shutdown inLoop => cases inLoop <;> exact .quiet rfl rfl (by simp [call, shutdown, quiet]) rfl
  | forceClose => exact c.forceClose_effect

theorem handle_effect (read : ReadAnswer) (write : WriteAnswer) (h : Handler) :
    c.Effect (c.handle read write h) 0 := by
  cases h with
  | close => exact c.handleClose_effect
  | error => exact c.handleError_effect
  | read => exact c.handleRead_effect read
  | write => exact c.handleWrite_effect write

theorem runTask_effect (t : ConnTask) : c.Effect (c.runTask t) 0 := by
  cases t with
  | writeComplete => exact .quiet rfl rfl List.not_mem_nil rfl
  | handleClose => exact c.handleClose_effect
  | shutdownWrite => exact .quiet rfl rfl List.not_mem_nil rfl

end TcpConnection

/-! ## Events -/

namespace Lifecycle

variable (x : Lifecycle)

/-- **What an event does to a life**: the member function that it calls leaves `out` behind, if it
calls one, and the life is `y` afterwards. -/
inductive Moves (x : Lifecycle) : LifeEvent → Option Outcome → Lifecycle → Prop
  | idle (e : LifeEvent) : Moves x e none x
  | failed (e : LifeEvent) (h : x.conn.state ≠ .connecting) : Moves x e none x.abort
  | established (h : x.conn.state = .connecting) (idle : x.handlers = []) :
    Moves x .connectEstablished none { x with conn := x.conn.connectEstablished }
  | destroyed (idle : x.handlers = []) :
    Moves x .connectDestroyed none { x with conn := x.conn.connectDestroyed, destroyed := true }
  | polled (events : EpollMask) (idle : x.handlers = []) (known : x.conn.channel.registered.isSome) :
    Moves x (.dispatch events) none { x with
      conn := { x.conn with channel := x.conn.channel.setEvents events }
      handlers := events.handlers }
  | called (c : ConnCall) : Moves x (.call c) (some (x.conn.call c)) (x.after (x.conn.call c))
  | handled (read : ReadAnswer) (write : WriteAnswer) (h : Handler) (rest : List Handler)
      (handlers : x.handlers = h :: rest) :
    Moves x (.handler read write) (some (x.conn.handle read write h))
      ({ x with handlers := rest }.after (x.conn.handle read write h))
  | ran (t : ConnTask) (rest : List ConnTask) (idle : x.handlers = []) (tasks : x.tasks = t :: rest) :
    Moves x .runTask (some (x.conn.runTask t)) ({ x with tasks := rest }.after (x.conn.runTask t))

/-- What the member function leaves behind that an event calls, if it calls one… -/
def performs : LifeEvent → Option Outcome
  | .call c => some (x.conn.call c)
  | .handler read write => x.handlers.head?.map (x.conn.handle read write)
  | .runTask => if x.handlers = [] then x.tasks.head?.map x.conn.runTask else none
  | _ => none

/-- …while the process runs. -/
def outcome (e : LifeEvent) : Option Outcome := if x.conn.channel.aborted then none else x.performs e

/-- The bytes that an event hands to the socket. -/
def sends (e : LifeEvent) : Bytes := ((x.outcome e).map Outcome.sent).getD []

/-- The tasks that an event queues. -/
def queues (e : LifeEvent) : List ConnTask := ((x.outcome e).map Outcome.queued).getD []

theorem moves_perform (e : LifeEvent) : x.Moves e (x.performs e) (x.perform e) := by
  cases e with
  | connectEstablished =>
    rw [perform]
    split
    · rename_i hidle
      split
      · rename_i hstate
        exact .established hstate hidle
      · rename_i hstate
        exact .failed _ hstate
    · exact .idle _
  | connectDestroyed =>
    rw [perform]
    split
    · rename_i hidle
      exact .destroyed hidle
    · exact .idle _
  | call c => exact .called c
  | dispatch events =>
    rw [perform]
    split
    · rename_i hpolled
      exact .polled events hpolled.1 hpolled.2
    · exact .idle _
  | handler read write =>
    obtain ⟨conn, tasks, handlers, called, destroyed⟩ := x
    cases handlers with
    | nil => exact .idle _
    | cons h rest => exact .handled read write h rest rfl
  | runTask =>
    obtain ⟨conn, tasks, handlers, called, destroyed⟩ := x
    cases handlers with
    | nil =>
      cases tasks with
      | nil => exact .idle _
      | cons t rest => exact .ran t rest rfl rfl
    | cons h rest => exact .idle _

/-- **What an event does to a life.** -/
theorem moves (e : LifeEvent) : x.Moves e (x.outcome e) (x.step e) := by
  rw [step, outcome]
  split
  · exact .idle e
  · exact x.moves_perform e

end Lifecycle
