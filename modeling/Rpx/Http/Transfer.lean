import Rpx.Core.ByteStream
import Rpx.Core.PendingOutput
import Rpx.Http.Serving

/-!
# Http/Transfer — a file, block by block

    head ──▶ write() ──▶ write-complete task ──▶ sendMore ──▶ block ──▶ write() ──▶ … ──▶ shutdown()

`StaticHandler` writes the head of the response and leaves the file to `sendMore`, which every
write-complete task runs once: it sends the next block, and shuts the connection down once its stream is
no longer good.  So a transfer goes on as long as another run of `sendMore` is **outstanding**: a task in
the queue, or output whose end will queue one.  A block that is sent leaves one outstanding; the read
that finds the file at its end sends nothing and leaves none.

* `finished_iff` — a transfer finishes exactly when no step takes its last outstanding run away.
* `rest_ne_nil_run` — that happens only to a file whose length is a multiple of a block's.
* `empty_file_unfinished` — an empty file whose head the kernel takes at one go: nobody shuts down.
-/

open Machinery

namespace TcpConnection

/-- The connection is open, with the callbacks that a server gives it, and its output is watched. -/
structure Working (c : TcpConnection) : Prop where
  isOpen : c.state = .established ∨ c.state = .disconnecting
  callbacks : c.callbacks = (true, true, true, false)
  aborted : c.channel.aborted = false
  pumped : Pumped c.outputSide

/-- The write-complete task that the end of the pending output will queue. -/
def owed (c : TcpConnection) : ℕ := if c.writeBuffer = [] then 0 else 1

variable {c : TcpConnection}

theorem owed_of_nil (h : c.writeBuffer = []) : c.owed = 0 := if_pos h

theorem owed_of_ne_nil (h : c.writeBuffer ≠ []) : c.owed = 1 := if_neg h

theorem Working.writeComplete (h : c.Working) : c.writeCompleteCallback = true :=
  congrArg (·.2.1) h.callbacks

theorem Working.writeCompleteTask (h : c.Working) : c.writeCompleteTask = [.writeComplete] :=
  if_pos h.writeComplete

/-- **A member function that clears no callback** leaves the connection working. -/
theorem Working.of_effect (h : c.Working) {out : Outcome} {n : ℕ} (he : c.Effect out n)
    (hcallbacks : out.conn.callbacks = c.callbacks) : out.conn.Working := by
  have hcomplete : out.conn.writeCompleteCallback = true :=
    (congrArg (·.2.1) hcallbacks).trans h.writeComplete
  refine ⟨?_, hcallbacks.trans h.callbacks, (aborted_of_effect h.pumped.consistent he).trans h.aborted,
    h.pumped.of_effect he⟩
  have hstate : out.conn.state = c.state ∨ out.conn.state = .disconnecting := by
    cases he with
    | quiet side => exact .inl (congrArg (·.1) side)
    | direct _ side => exact .inl (congrArg (·.1) side)
    | enqueue _ _ side => exact .inl (congrArg (·.1) side)
    | drain _ _ side => exact .inl (congrArg (·.1) side)
    | flush side => exact .inl (congrArg (·.1) side)
    | force _ side => exact .inr (congrArg (·.1) side)
    | close _ side =>
      rw [show out.conn.writeCompleteCallback = false from congrArg (·.2.2.2) side] at hcomplete
      cases hcomplete
  rcases hstate with hsame | hforced
  · rw [hsame]
    exact h.isOpen
  · exact .inr hforced

theorem owed_le {d : TcpConnection} (h : c.writeBuffer <+: d.writeBuffer) : c.owed ≤ d.owed := by
  by_cases hnil : c.writeBuffer = []
  · rw [owed_of_nil hnil]
    exact Nat.zero_le _
  · rw [owed_of_ne_nil hnil, owed_of_ne_nil fun hd => hnil (List.prefix_nil.mp (hd ▸ h))]

theorem owed_enqueue (c : TcpConnection) (data : Pointer) (written : ℤ) {remaining : ℕ}
    (h : 0 < remaining) : (c.enqueue data written remaining).owed = 1 := by
  refine owed_of_ne_nil fun hnil => h.ne' ?_
  rw [writeBuffer_enqueue, List.append_eq_nil_iff, ← List.length_eq_zero_iff, ← List.length_eq_zero_iff,
    Pointer.length_read] at hnil
  exact hnil.2

/-- **A `write()` of some bytes** queues a write-complete task, or leaves output behind. -/
theorem Working.owed_write (h : c.Working) (data : Pointer) {len : ℕ} (junk : ℤ) {answer : WriteAnswer}
    (hlen : 0 < len) (hanswer : answer ≠ .fails .other) :
    let out := (c.write data len junk answer).2
    0 < out.queued.count .writeComplete + out.conn.owed := by
  have hqueue : ∀ d : TcpConnection, d.owed = 1 → ∀ ts : List ConnTask,
      0 < ts.count .writeComplete + d.owed := fun d hd ts => by
    rw [hd]
    exact Nat.succ_pos _
  intro out
  by_cases hp : c.pending = true
  · rw [show out = _ from congrArg Prod.snd (c.write_of_pending hp data len junk answer)]
    exact hqueue _ (c.owed_enqueue data junk hlen) _
  · rw [show out = _ from congrArg Prod.snd
      (c.write_of_not_pending (Bool.not_eq_true _ ▸ hp) data len junk answer)]
    cases answer with
    | fails e =>
      cases e with
      | again => exact hqueue _ (c.owed_enqueue data 0 hlen) _
      | other => exact absurd rfl hanswer
    | takes room =>
      dsimp only [WriteAnswer.result]
      split
      · rw [h.writeCompleteTask]
        exact Nat.lt_of_lt_of_le Nat.one_pos (Nat.le_add_right _ _)
      · rename_i hrest
        exact hqueue _ (c.owed_enqueue data _ (Nat.pos_of_ne_zero hrest)) _

/-- The server gives the connection no error callback. -/
theorem Working.called_handleError (h : c.Working) : c.handleError.called = [] := by
  have herror : c.errorCallback = false := congrArg (·.2.2.2) h.callbacks
  rw [handleError, herror]
  rfl

theorem Working.called_handleWrite (h : c.Working) (answer : WriteAnswer) :
    (c.handleWrite answer).called = [] := by
  rw [handleWrite]
  split
  · cases answer with
    | fails e =>
      cases e with
      | again => rfl
      | other => exact h.called_handleError
    | takes room =>
      dsimp only [WriteAnswer.result]
      split <;> rfl
  · rfl

/-- **A `handleWrite` turns what it owes into the task**, once it has handed everything over. -/
theorem Working.owed_handleWrite (h : c.Working) (hbuffer : c.writeBuffer ≠ []) (answer : WriteAnswer) :
    (c.handleWrite answer).queued.count .writeComplete + (c.handleWrite answer).conn.owed = c.owed := by
  rw [handleWrite]
  split
  · cases answer with
    | fails e => cases e <;> exact Nat.zero_add _
    | takes room =>
      dsimp only [WriteAnswer.result]
      split
      · rename_i hempty
        have hnone : owed { c with
            writeBuffer := c.writeBuffer.drop (min room c.writeBuffer.length)
            channel := c.channel.unsetWriteInterest } = 0 :=
          owed_of_nil (List.isEmpty_iff.mp hempty)
        show c.writeCompleteTask.count .writeComplete + owed _ = c.owed
        rw [h.writeCompleteTask, owed_of_ne_nil hbuffer, hnone]
        rfl
      · rename_i hempty
        rw [owed_of_ne_nil hbuffer]
        have hsome : owed { c with
            writeBuffer := c.writeBuffer.drop (min room c.writeBuffer.length) } = 1 :=
          owed_of_ne_nil fun hnil => hempty (List.isEmpty_iff.mpr hnil)
        exact congrArg (0 + ·) hsome
  · exact Nat.zero_add _

end TcpConnection

namespace Serving

/-- How many runs of `sendMore` are outstanding. -/
def outstanding (x : Serving) : ℕ :=
  x.server.tasks.count (.conn .writeComplete) + x.server.conn.owed

theorem outstanding_pos (x : Serving) :
    0 < x.outstanding ↔ .conn .writeComplete ∈ x.server.tasks ∨ x.server.conn.writeBuffer ≠ [] := by
  rw [outstanding, TcpConnection.owed, Nat.add_pos_iff_pos_or_pos, List.count_pos_iff]
  refine or_congr Iff.rfl ?_
  split
  · rename_i hnil
    exact ⟨fun h => absurd h (Nat.lt_irrefl 0), fun h => absurd hnil h⟩
  · rename_i hne
    exact ⟨fun _ => hne, fun _ => Nat.one_pos⟩

/-- The connection is in use and its output is watched; a `handleWrite` still to come finds output. -/
structure Carrying (x : Serving) : Prop where
  isOpen : x.Open
  working : x.server.conn.Working
  nodup : x.server.handlers.Nodup
  writable : .write ∈ x.server.handlers → x.server.conn.writeBuffer ≠ []

variable {x y z : Serving}

/-! ## Sending -/

/-- A member function that runs no callback. -/
theorem server_after {out : Outcome} (hcalled : out.called = []) :
    x.server.after out
      = { x.server with conn := out.conn, tasks := x.server.tasks ++ out.queued.map .conn } := by
  rw [HttpConnection.after, hcalled]
  rfl

theorem Carrying.after (h : x.Carrying) {out : Outcome} (hcalled : out.called = [])
    (hopen : y.Open) (hserver : y.server = x.server.after out) (hworking : out.conn.Working)
    (hwritable : .write ∈ x.server.handlers → out.conn.writeBuffer ≠ []) : y.Carrying := by
  rw [server_after hcalled] at hserver
  have hnodup := h.nodup
  refine ⟨hopen, ?_, ?_, ?_⟩
  · rwa [hserver]
  · rwa [hserver]
  · rwa [hserver]

theorem outstanding_after {out : Outcome} (hcalled : out.called = [])
    (hserver : y.server = x.server.after out) :
    y.outstanding = x.server.tasks.count (.conn .writeComplete)
      + (out.queued.count .writeComplete + out.conn.owed) := by
  have hinjective : Function.Injective ServerTask.conn := fun _ _ heq => ServerTask.conn.inj heq
  rw [outstanding, hserver, server_after hcalled]
  show (x.server.tasks ++ out.queued.map ServerTask.conn).count (.conn .writeComplete) + out.conn.owed = _
  rw [List.count_append, List.count_map_of_injective _ _ hinjective, Nat.add_assoc]

/-- **What sending leaves behind**: the pieces are logged, the transfer is otherwise as it was, and no
run of `sendMore` is taken away. -/
structure Sends (x y : Serving) (pieces : List Bytes) : Prop where
  carrying : y.Carrying
  log : y.log = x.log ++ pieces.map .write
  served : y.served = x.served
  complete : y.writeCompleteCallback = x.writeCompleteCallback
  outstanding : x.outstanding ≤ y.outstanding

theorem Sends.trans {ps qs : List Bytes} (h : Sends x y ps) (h' : Sends y z qs) :
    Sends x z (ps ++ qs) :=
  ⟨h'.carrying, by rw [h'.log, h.log, List.map_append, List.append_assoc], h'.served.trans h.served,
    h'.complete.trans h.complete, h.outstanding.trans h'.outstanding⟩

theorem Carrying.send (h : x.Carrying) (bs : Bytes) (f : Feed) : Sends x (x.send bs f).2 [bs] := by
  have hcalled := x.server.conn.write_called (Pointer.ofBytes bs f.around) bs.length f.junk f.answer
  have hprefix := TcpConnection.writeBuffer_call x.server.conn
    (.write (Pointer.ofBytes bs f.around) bs.length f.junk f.answer)
  refine ⟨h.after hcalled (h.isOpen.send bs f) rfl ?_ fun hw hnil => h.writable hw ?_, rfl, rfl, rfl, ?_⟩
  · exact h.working.of_effect (x.server.conn.write_effect _ _ _ _)
      (x.server.conn.write_outputOnly _ _ _ _).callbacks
  · exact List.prefix_nil.mp (hnil ▸ hprefix)
  · rw [outstanding_after (x := x) (y := (x.send bs f).2) hcalled rfl]
    exact Nat.add_le_add_left ((TcpConnection.owed_le hprefix).trans (Nat.le_add_left _ _)) _

/-- **Some bytes sent** leave a run of `sendMore` outstanding. -/
theorem Carrying.outstanding_send (h : x.Carrying) {bs : Bytes} (hbs : bs ≠ []) {f : Feed}
    (hanswer : f.answer ≠ .fails .other) : 0 < (x.send bs f).2.outstanding := by
  rw [outstanding_after (x.server.conn.write_called _ _ _ _) rfl]
  exact Nat.lt_of_lt_of_le
    (h.working.owed_write _ f.junk (List.length_pos_iff.mpr hbs) hanswer) (Nat.le_add_left _ _)

theorem Carrying.sendAll (h : x.Carrying) (pieces : List Bytes) (f : ℕ → Feed) :
    Sends x (x.sendAll pieces f) pieces := by
  induction pieces generalizing x f with
  | nil => exact ⟨h, (List.append_nil _).symm, rfl, rfl, le_rfl⟩
  | cons bs pieces ih =>
    have hsend := h.send bs (f 0)
    exact hsend.trans (ih hsend.carrying fun n => f (n + 1))

theorem Carrying.outstanding_sendAll (h : x.Carrying) {bs : Bytes} (hbs : bs ≠ []) (pieces : List Bytes)
    {f : ℕ → Feed} (hanswer : (f 0).answer ≠ .fails .other) :
    0 < (x.sendAll (bs :: pieces) f).outstanding :=
  Nat.lt_of_lt_of_le (h.outstanding_send hbs hanswer)
    ((h.send bs (f 0)).carrying.sendAll pieces fun n => f (n + 1)).outstanding

theorem log_setWriteCompleteCallback (x : Serving) (cb : Option Reader) :
    (x.setWriteCompleteCallback cb).log = x.log := rfl

theorem served_setWriteCompleteCallback (x : Serving) (cb : Option Reader) :
    (x.setWriteCompleteCallback cb).served = x.served := rfl

theorem outstanding_setWriteCompleteCallback (x : Serving) (cb : Option Reader) :
    (x.setWriteCompleteCallback cb).outstanding = x.outstanding := rfl

theorem handleRequest_file (x : Serving) (content : Bytes) (f : ℕ → Feed) :
    x.handleRequest (some (.file content)) f
      = (Serving.sendAll { x with served := x.served ++ [some (.file content)] }
          (Exchange.fileHead content) f).setWriteCompleteCallback (some ⟨content, 0, true⟩) := rfl

theorem Carrying.setWriteCompleteCallback (h : x.Carrying) (cb : Option Reader) :
    (x.setWriteCompleteCallback cb).Carrying :=
  ⟨h.isOpen.setWriteCompleteCallback cb, h.working, h.nodup, h.writable⟩

theorem Carrying.shutdown (h : x.Carrying) : x.shutdown.Carrying :=
  h.after rfl h.isOpen.shutdown rfl
    ⟨h.working.isOpen, h.working.callbacks, h.working.aborted, h.working.pumped⟩ h.writable

/-- **What one run of `sendMore` does**, `n` more being outstanding. -/
inductive Resumes (log : List ResponseCall) (n : ℕ) (r : Reader) (y : Serving) : Prop
  | block (good : r.good = true) (appends : y.log = log ++ [.write (r.read 4096).1])
      (complete : y.writeCompleteCallback = some (r.read 4096).2) (outstanding : 0 < y.outstanding)
      (rest : r.rest ≠ [])
  | nothing (good : r.good = true) (appends : y.log = log)
      (complete : y.writeCompleteCallback = some (r.read 4096).2) (outstanding : y.outstanding = n)
      (rest : r.rest = [])
  | finish (good : r.good = false) (appends : y.log = log ++ [.shutdown])
      (complete : y.writeCompleteCallback = none)

theorem Carrying.sendMore (h : x.Carrying) (r : Reader) {f : Feed} (hanswer : f.answer ≠ .fails .other) :
    (x.sendMore r f).Carrying ∧ (x.sendMore r f).served = x.served
      ∧ Resumes x.log x.outstanding r (x.sendMore r f) := by
  rw [Serving.sendMore]
  split
  · rename_i hgood
    have hnext := h.setWriteCompleteCallback (some (r.read 4096).2)
    dsimp only
    split
    · rename_i hblock
      have hbs : (r.read 4096).1 ≠ [] := List.length_pos_iff.mp hblock
      have hsend := hnext.send (r.read 4096).1 f
      -- a block has at most 4096 bytes, whose number `write()` returns as it is
      have hlength : (r.read 4096).1.length ≤ 4096 := List.length_take_le _ _
      have hvalue : (Serving.send (x.setWriteCompleteCallback (some (r.read 4096).2))
          (r.read 4096).1 f).1 = ((r.read 4096).1.length : ℤ) := by
        rw [Serving.send, TcpConnection.write_value, if_neg fun hfails => hanswer hfails.2,
          toInt_of_lt (hlength.trans_lt (by norm_num))]
      rw [if_neg (by rw [hvalue]; exact not_lt.mpr (Int.natCast_nonneg _))]
      refine ⟨hsend.carrying, hsend.served,
        .block hgood hsend.log hsend.complete (hnext.outstanding_send hbs hanswer) fun hrest => hbs ?_⟩
      show r.rest.take 4096 = []
      rw [hrest, List.take_nil]
    · rename_i hblock
      have hnil : r.rest.take 4096 = [] := List.length_eq_zero_iff.mp (Nat.eq_zero_of_not_pos hblock)
      refine ⟨hnext, rfl, .nothing hgood rfl rfl rfl ?_⟩
      exact (List.take_eq_nil_iff.mp hnil).resolve_left (by norm_num)
  · rename_i hgood
    exact ⟨(h.setWriteCompleteCallback none).shutdown, rfl,
      .finish (Bool.not_eq_true _ ▸ hgood) rfl rfl⟩

/-! ## Steps -/

/-- **The runs meant**: the poller reports `EPOLLOUT` only where it is asked for, no `::write` of the
response fails, and one request comes over the connection, for the file. -/
def Calm (content : Bytes) (x : Serving) : ServingEvent → Prop
  | .dispatch events =>
    events.epollout = true → ∃ mask ∈ x.server.conn.channel.registered, mask.epollout = true
  | .handler _ _ env =>
    env.requests.length + x.served.length ≤ 1
      ∧ ∀ r ∈ env.requests, r.1 = some (.file content) ∧ ∀ n, (r.2 n).answer ≠ .fails .other
  | .runTask env => env.feed.answer ≠ .fails .other
  | .erase => True
  | .forceClose => True

/-- **The step leaves the transfer what it needs**: it does not close the connection before the end of
the file, and where it reads the empty last block, another write-complete task is queued, or output is
still in the buffer. -/
def Fed (x : Serving) : ServingEvent → Prop
  | .handler read _ _ =>
    match x.server.handlers with
    | .close :: _ => x.writeCompleteCallback = none
    | .read :: _ => read = .reads [] → x.writeCompleteCallback = none
    | _ => True
  | .runTask _ =>
    match x.server.handlers, x.server.tasks with
    | [], .conn .handleClose :: _ => x.writeCompleteCallback = none
    | [], .conn .writeComplete :: tasks =>
      ∀ r ∈ x.writeCompleteCallback, r.good = true → r.rest = [] →
        .conn .writeComplete ∈ tasks ∨ x.server.conn.writeBuffer ≠ []
    | _, _ => True
  | _ => True

/-- With no file to send, nothing is needed. -/
theorem fed_of_none (h : x.writeCompleteCallback = none) (e : ServingEvent) : Fed x e := by
  cases e with
  | handler read write env =>
    rw [Fed]
    split
    · exact h
    · exact fun _ => h
    · trivial
  | runTask env =>
    rw [Fed]
    split
    · exact h
    · intro r hr
      rw [h] at hr
      cases hr
    · trivial
  | _ => trivial

/-- **What a step of a run meant does** while the connection carries a transfer. -/
inductive Advances (content : Bytes) (x : Serving) (e : ServingEvent) (y : Serving) : Prop
  | still (carrying : y.Carrying) (log : y.log = x.log) (served : y.served = x.served)
      (complete : y.writeCompleteCallback = x.writeCompleteCallback)
      (outstanding : x.writeCompleteCallback ≠ none → y.outstanding = x.outstanding) (fed : Fed x e)
  | begun (fresh : x.served = []) (carrying : y.Carrying)
      (log : y.log = x.log ++ (Exchange.fileHead content).map .write)
      (served : y.served = [some (.file content)])
      (complete : y.writeCompleteCallback = some ⟨content, 0, true⟩) (outstanding : 0 < y.outstanding)
      (fed : Fed x e)
  | resumed (r : Reader) (n : ℕ) (reading : x.writeCompleteCallback = some r)
      (spends : x.outstanding = n + 1) (carrying : y.Carrying) (served : y.served = x.served)
      (resumes : Resumes x.log n r y) (fed : Fed x e ↔ (r.good = true → r.rest = [] → 0 < n))
  | closed (silent : y.server.conn.Silent) (log : y.log = x.log) (served : y.served = x.served)
      (complete : y.writeCompleteCallback = x.writeCompleteCallback)
      (fed : Fed x e ↔ x.writeCompleteCallback = none)

/-- The connection's own functions that run no callback, once a handler or a task has been taken. -/
theorem Carrying.still (h : y.Carrying) (hsame : y.log = x.log ∧ y.served = x.served
      ∧ y.writeCompleteCallback = x.writeCompleteCallback ∧ y.outstanding = x.outstanding)
    {out : Outcome} (hcalled : out.called = []) (hworking : out.conn.Working)
    (hwritable : .write ∈ y.server.handlers → out.conn.writeBuffer ≠ [])
    (howed : out.queued.count .writeComplete + out.conn.owed = y.server.conn.owed)
    {content : Bytes} {e : ServingEvent} (fed : Fed x e) (env : ServingEnv) :
    Advances content x e (y.after out env) := by
  have hafter : y.after out env = { y with server := y.server.after out } := by
    rw [Serving.after, hcalled]
    rfl
  obtain ⟨hlog, hserved, hcomplete, houtstanding⟩ := hsame
  rw [hafter]
  refine .still (h.after hcalled ?_ rfl hworking hwritable) hlog hserved hcomplete (fun _ => ?_) fed
  · exact ⟨inUse_after h.isOpen.server hcalled, h.isOpen.messageCallback, h.isOpen.listed,
      h.isOpen.erasures⟩
  · rw [outstanding_after (x := y) (y := { y with server := y.server.after out }) hcalled rfl, howed,
      ← houtstanding]
    rfl

/-- **`handleClose`** runs the close callback alone. -/
theorem Carrying.handleClose (h : y.Carrying) (env : ServingEnv) :
    (y.after y.server.conn.handleClose env).server.conn.Silent
      ∧ (y.after y.server.conn.handleClose env).log = y.log
      ∧ (y.after y.server.conn.handleClose env).served = y.served
      ∧ (y.after y.server.conn.handleClose env).writeCompleteCallback = y.writeCompleteCallback := by
  have hclose : y.server.conn.closeCallback = true := congrArg (·.2.2.1) h.working.callbacks
  have hcalled : y.server.conn.handleClose.called = [.close] := by
    rw [TcpConnection.handleClose, if_pos h.working.isOpen]
    exact if_pos hclose
  have hsilent : y.server.conn.handleClose.conn.Silent :=
    y.server.conn.handleClose_onward.closing (hcalled ▸ List.mem_singleton_self _)
  rw [Serving.after, HttpConnection.after, hcalled]
  exact ⟨hsilent, rfl, rfl, rfl⟩

/-- The message callback, once the parser is through with what was read. -/
theorem Carrying.message (hy : y.Carrying) {content : Bytes} {e : ServingEvent} {env : ServingEnv}
    (hone : env.requests.length + x.served.length ≤ 1)
    (hfile : ∀ r ∈ env.requests, r.1 = some (.file content) ∧ ∀ n, (r.2 n).answer ≠ .fails .other)
    (fed : Fed x e) (hlog : y.log = x.log) (hserved : y.served = x.served)
    (hcomplete : y.writeCompleteCallback = x.writeCompleteCallback)
    (houtstanding : y.outstanding = x.outstanding) :
    Advances content x e (y.callback env .message) := by
  have hfound : y.server.found = true := hy.isOpen.server.found
  rw [Serving.callback, hfound, hy.isOpen.messageCallback, if_pos (by decide)]
  rcases hrequests : env.requests with - | ⟨r, - | ⟨r', rs⟩⟩
  · exact .still hy hlog hserved hcomplete (fun _ => houtstanding) fed
  · obtain ⟨hr, hanswer⟩ := hfile r (hrequests ▸ List.mem_singleton_self r)
    rw [hrequests] at hone
    have hfresh : x.served = [] := by
      rw [List.length_singleton] at hone
      exact List.length_eq_zero_iff.mp (by omega)
    have hstart : Carrying { y with served := y.served ++ [some (.file content)] } :=
      ⟨⟨hy.isOpen.server, hy.isOpen.messageCallback, hy.isOpen.listed, hy.isOpen.erasures⟩, hy.working,
        hy.nodup, hy.writable⟩
    have hsends := hstart.sendAll (Exchange.fileHead content) r.2
    rw [List.foldl_cons, List.foldl_nil, hr, handleRequest_file]
    refine .begun hfresh (hsends.carrying.setWriteCompleteCallback _) ?_ ?_ rfl ?_ fed
    · rw [log_setWriteCompleteCallback, hsends.log]
      exact congrArg (· ++ _) hlog
    · rw [served_setWriteCompleteCallback, hsends.served]
      exact congrArg (· ++ _) (hserved.trans hfresh)
    · rw [outstanding_setWriteCompleteCallback]
      have hpiece : ascii "HTTP/1.1 " ≠ [] := by decide
      exact hstart.outstanding_sendAll hpiece _ (hanswer 0)
  · rw [hrequests] at hone
    rw [List.length_cons, List.length_cons] at hone
    omega

/-- **The server finds the context** for a callback that leaves the connection in use. -/
theorem Carrying.after_called (h : y.Carrying) (bs : Bytes) (env : ServingEnv) {b : Callback}
    (hb : b = .message ∨ b = .writeComplete) :
    ∃ z : Serving, z.Carrying ∧ z.log = y.log ∧ z.served = y.served
      ∧ z.writeCompleteCallback = y.writeCompleteCallback ∧ z.outstanding = y.outstanding
      ∧ y.after ⟨{ y.server.conn with readBuffer := bs }, [], [], [b]⟩ env = z.callback env b := by
  have hquiet : HttpConnection.InUse { y.server with
      conn := { y.server.conn with readBuffer := bs }
      tasks := y.server.tasks ++ [] } :=
    h.isOpen.server.withConn _ []
  have hworking : ∀ bs, TcpConnection.Working { y.server.conn with readBuffer := bs } := fun _ =>
    ⟨h.working.isOpen, h.working.callbacks, h.working.aborted, h.working.pumped⟩
  have hcount : (y.server.tasks ++ []).count (ServerTask.conn .writeComplete) + y.server.conn.owed
      = y.outstanding := by
    rw [List.append_nil]
    rfl
  rcases hb with rfl | rfl
  · refine ⟨{ y with server := HttpConnection.callback _ .message },
      ⟨⟨hquiet.handleMessage, h.isOpen.messageCallback, h.isOpen.listed, h.isOpen.erasures⟩, ?_, ?_, ?_⟩,
      rfl, rfl, rfl, ?_, rfl⟩
    all_goals rw [HttpConnection.callback, HttpConnection.handleMessage, if_pos hquiet.found]
    · exact hworking []
    · exact h.nodup
    · exact h.writable
    · exact hcount
  · exact ⟨{ y with server := HttpConnection.writeCompleteCallback _ },
      ⟨⟨hquiet.writeCompleteCallback, h.isOpen.messageCallback, h.isOpen.listed, h.isOpen.erasures⟩,
        hworking bs, h.nodup, h.writable⟩, rfl, rfl, rfl, hcount, rfl⟩

/-- A handler of the dispatch in progress. -/
theorem Carrying.handler (h : x.Carrying) {content : Bytes} (read : ReadAnswer) (write : WriteAnswer)
    {env : ServingEnv} (he : Calm content x (.handler read write env)) {hd : Handler}
    {rest : List Handler} (hhandlers : x.server.handlers = hd :: rest) :
    Advances content x (.handler read write env)
      (Serving.after { x with server := { x.server with handlers := rest } }
        (x.server.conn.handle read write hd) env) := by
  obtain ⟨hnotin, hnodup⟩ := List.nodup_cons.mp (hhandlers ▸ h.nodup)
  have hwritable : .write ∈ rest → x.server.conn.writeBuffer ≠ [] := fun hw =>
    h.writable (hhandlers ▸ List.mem_cons_of_mem hd hw)
  have hrest : Carrying { x with server := { x.server with handlers := rest } } :=
    ⟨⟨h.isOpen.server.frame x.server.conn rest, h.isOpen.messageCallback, h.isOpen.listed,
      h.isOpen.erasures⟩, h.working, hnodup,
      hwritable⟩
  cases hd with
  | close =>
    obtain ⟨hsilent, hlog, hserved, hcomplete⟩ := hrest.handleClose env
    refine .closed hsilent hlog hserved hcomplete ?_
    rw [Fed, hhandlers]
  | error =>
    have hfed : Fed x (.handler read write env) := by
      rw [Fed, hhandlers]
      trivial
    exact hrest.still (x := x) (y := { x with server := { x.server with handlers := rest } })
      ⟨rfl, rfl, rfl, rfl⟩ h.working.called_handleError h.working hwritable (Nat.zero_add _) hfed env
  | read =>
    rcases read with (- | ⟨b, bs⟩) | err
    · obtain ⟨hsilent, hlog, hserved, hcomplete⟩ := hrest.handleClose env
      refine .closed hsilent hlog hserved hcomplete ?_
      rw [Fed, hhandlers]
      exact ⟨fun hfed => hfed rfl, fun hnone _ => hnone⟩
    · have hfed : Fed x (.handler (.reads (b :: bs)) write env) := by
        rw [Fed, hhandlers]
        exact fun heq => by cases heq
      have hread : x.server.conn.handle (.reads (b :: bs)) write .read = ⟨{ x.server.conn with
          readBuffer := x.server.conn.readBuffer ++ b :: bs }, [], [], [.message]⟩ := by
        have hmessage : x.server.conn.messageCallback = true := congrArg (·.1) h.working.callbacks
        rw [TcpConnection.handle, x.server.conn.handleRead_reads (List.cons_ne_nil b bs)]
        exact congrArg (fun called => (⟨_, [], [], called⟩ : Outcome)) (if_pos hmessage)
      obtain ⟨z, hz, hlog, hserved, hcomplete, houtstanding, hafter⟩ :=
        hrest.after_called (x.server.conn.readBuffer ++ b :: bs) env (.inl rfl)
      rw [hread, hafter]
      exact hz.message he.1 he.2 hfed hlog hserved hcomplete houtstanding
    · have hfed : Fed x (.handler (.fails err) write env) := by
        rw [Fed, hhandlers]
        exact fun heq => by cases heq
      cases err with
      | again =>
        exact hrest.still (x := x) (y := { x with server := { x.server with handlers := rest } })
          ⟨rfl, rfl, rfl, rfl⟩ (show x.server.conn.quiet.called = [] from rfl) h.working hwritable
          (Nat.zero_add _) hfed env
      | other =>
        exact hrest.still (x := x) (y := { x with server := { x.server with handlers := rest } })
          ⟨rfl, rfl, rfl, rfl⟩ h.working.called_handleError h.working hwritable (Nat.zero_add _) hfed env
  | write =>
    have hfed : Fed x (.handler read write env) := by
      rw [Fed, hhandlers]
      trivial
    have hbuffer : x.server.conn.writeBuffer ≠ [] := h.writable (hhandlers ▸ List.mem_cons_self)
    exact hrest.still (x := x) (y := { x with server := { x.server with handlers := rest } })
      ⟨rfl, rfl, rfl, rfl⟩ (h.working.called_handleWrite write)
      (h.working.of_effect (x.server.conn.handleWrite_effect write)
        (x.server.conn.handleWrite_outputOnly write).callbacks)
      (fun hw => absurd hw hnotin) (h.working.owed_handleWrite hbuffer write) hfed env

/-- The oldest task. -/
theorem Carrying.runTask (h : x.Carrying) {content : Bytes} {env : ServingEnv}
    (he : env.feed.answer ≠ .fails .other) (hhandlers : x.server.handlers = []) {t : ServerTask}
    {rest : List ServerTask} (htasks : x.server.tasks = t :: rest) :
    Advances content x (.runTask env)
      (Serving.runTask { x with server := { x.server with tasks := rest } } env t) := by
  cases t with
  | established => exact absurd (htasks ▸ List.mem_cons_self) h.isOpen.server.established
  | closed => exact absurd (htasks ▸ List.mem_cons_self) h.isOpen.server.closed
  | conn t =>
    have hrest : Carrying { x with server := { x.server with tasks := rest } } :=
      ⟨⟨h.isOpen.server.pop htasks, h.isOpen.messageCallback, h.isOpen.listed, h.isOpen.erasures⟩,
        h.working, h.nodup, h.writable⟩
    cases t with
    | writeComplete =>
      have hspends : x.outstanding
          = outstanding { x with server := { x.server with tasks := rest } } + 1 := by
        rw [outstanding, htasks, List.count_cons_self, Nat.add_right_comm]
        rfl
      obtain ⟨z, hz, hlog, hserved, hcomplete, houtstanding, hafter⟩ :=
        hrest.after_called x.server.conn.readBuffer env (.inr rfl)
      have hcomplete' : x.server.conn.runTask .writeComplete
          = ⟨{ x.server.conn with readBuffer := x.server.conn.readBuffer }, [], [], [.writeComplete]⟩ := by
        rw [TcpConnection.runTask, h.working.writeComplete]
        rfl
      have hrun : Serving.runTask { x with server := { x.server with tasks := rest } } env
          (.conn .writeComplete) = z.callback env .writeComplete := by
        rw [Serving.runTask, hcomplete', hafter]
      have hfound : z.server.found = true := hz.isOpen.server.found
      rw [hrun, Serving.callback, if_pos hfound]
      rcases hreading : z.writeCompleteCallback with - | r
      · refine .still hz hlog hserved hcomplete (fun hne => absurd (hcomplete.symm.trans hreading) hne) ?_
        rw [Fed, hhandlers, htasks]
        intro r hr
        rw [show x.writeCompleteCallback = none from hcomplete.symm.trans hreading] at hr
        cases hr
      · have hx : x.writeCompleteCallback = some r := hcomplete.symm.trans hreading
        obtain ⟨hcarrying, hserved', hresumes⟩ := hz.sendMore r he
        have hlog' : z.log = x.log := hlog
        rw [houtstanding, hlog'] at hresumes
        refine .resumed r _ hx hspends hcarrying (hserved'.trans hserved) hresumes ?_
        rw [Fed, hhandlers, htasks, hx, outstanding_pos]
        exact ⟨fun hfed => hfed r rfl, fun hmore r' hr' => Option.some.inj hr' ▸ hmore⟩
    | handleClose =>
      obtain ⟨hsilent, hlog, hserved, hcomplete⟩ := hrest.handleClose env
      refine .closed hsilent hlog hserved hcomplete ?_
      rw [Fed, hhandlers, htasks]
    | shutdownWrite =>
      have hfed : Fed x (.runTask env) := by
        rw [Fed, hhandlers, htasks]
        trivial
      have hsame : outstanding { x with server := { x.server with tasks := rest } } = x.outstanding := by
        rw [outstanding, outstanding, htasks, List.count_cons_of_ne (by simp)]
      exact hrest.still (x := x) (y := { x with server := { x.server with tasks := rest } })
        ⟨rfl, rfl, rfl, hsame⟩ (show (x.server.conn.runTask .shutdownWrite).called = [] from rfl)
        ⟨h.working.isOpen, h.working.callbacks, h.working.aborted, h.working.pumped⟩ h.writable
        (Nat.zero_add _) hfed env

/-- **Every step of a run meant.** -/
theorem Carrying.step (h : x.Carrying) {content : Bytes} {e : ServingEvent} (he : Calm content x e) :
    Advances content x e (x.step e) := by
  have hidle : ∀ {e : ServingEvent}, Fed x e → Advances content x e x := fun hfed =>
    .still h rfl rfl rfl (fun _ => rfl) hfed
  have hlive : ¬ (x.server.threw || x.server.conn.channel.aborted) = true := by
    rw [h.isOpen.server.threw, h.working.aborted]
    decide
  rw [Serving.step, if_neg hlive]
  cases e with
  | dispatch events =>
    rw [Serving.perform, HttpConnection.perform]
    split
    · refine .still ⟨⟨h.isOpen.server.frame _ _, h.isOpen.messageCallback, h.isOpen.listed,
          h.isOpen.erasures⟩, ⟨h.working.isOpen, h.working.callbacks, h.working.aborted, ?_⟩,
        events.nodup_handlers, fun hw => ?_⟩ rfl rfl rfl (fun _ => rfl) trivial
      · exact ⟨h.working.pumped.consistent, h.working.pumped.pending, h.working.pumped.flushing⟩
      · exact h.working.pumped.of_registered (he (events.write_mem_handlers.mp hw))
    · exact hidle trivial
  | handler read write env =>
    rw [Serving.perform]
    split
    · rename_i hhandlers
      refine hidle ?_
      rw [Fed, hhandlers]
      trivial
    · rename_i hd rest hhandlers
      exact h.handler read write he hhandlers
  | runTask env =>
    rw [Serving.perform]
    split
    · rename_i t rest hhandlers htasks
      exact h.runTask he hhandlers htasks
    · rename_i hnone
      refine hidle ?_
      rw [Fed]
      split
      · rename_i hhandlers htasks
        exact absurd htasks (hnone _ _ hhandlers)
      · rename_i hhandlers htasks
        exact absurd htasks (hnone _ _ hhandlers)
      · trivial
  | erase =>
    rw [Serving.perform, if_neg (by rw [h.isOpen.erasures]; exact Nat.lt_irrefl 0)]
    exact hidle trivial
  | forceClose =>
    have hcalled := x.server.conn.called_forceClose
    have hsame := x.server.conn.writeBuffer_forceClose
    have howed : x.server.conn.forceClose.queued.count .writeComplete
        + x.server.conn.forceClose.conn.owed = x.server.conn.owed := by
      rw [TcpConnection.forceClose]
      split <;> exact Nat.zero_add _
    have hafter : x.perform .forceClose
        = x.after x.server.conn.forceClose ⟨⟨fun _ => 0, 0, .takes 0⟩, []⟩ := by
      rw [Serving.perform, HttpConnection.perform, if_neg (by rw [h.isOpen.server.userData]; decide),
        Serving.after, hcalled]
      rfl
    rw [hafter]
    exact h.still (x := x) (e := .forceClose) ⟨rfl, rfl, rfl, rfl⟩ hcalled
      (h.working.of_effect x.server.conn.forceClose_effect x.server.conn.callbacks_forceClose)
      (fun hw => hsame ▸ h.writable hw) howed trivial _

/-- **A connection that has closed** writes nothing more. -/
theorem silent_step (h : x.server.conn.Silent) (e : ServingEvent) :
    (x.step e).server.conn.Silent ∧ (x.step e).log = x.log ∧ (x.step e).served = x.served
      ∧ (x.writeCompleteCallback = none → (x.step e).writeCompleteCallback = none) := by
  have hafter : ∀ {y : Serving} {out : Outcome} (env : ServingEnv), y.server.conn.Silent →
      y.server.conn.Onward out → (y.after out env).server.conn.Silent ∧ (y.after out env).log = y.log
        ∧ (y.after out env).served = y.served
        ∧ (y.after out env).writeCompleteCallback = y.writeCompleteCallback := by
    intro y out env hy hout
    have hserver := server_after (x := y) (hout.hushed hy).1
    rw [after_of_silent hy hout]
    refine ⟨?_, rfl, rfl, rfl⟩
    rw [hserver]
    exact (hout.hushed hy).2
  have hkeep : ∀ {y : Serving}, y.server.conn.Silent ∧ y.log = x.log ∧ y.served = x.served
      ∧ y.writeCompleteCallback = x.writeCompleteCallback →
      y.server.conn.Silent ∧ y.log = x.log ∧ y.served = x.served
        ∧ (x.writeCompleteCallback = none → y.writeCompleteCallback = none) :=
    fun ⟨hsilent, hlog, hserved, hcomplete⟩ => ⟨hsilent, hlog, hserved, fun hnone => hcomplete.trans hnone⟩
  rw [Serving.step]
  split
  · exact ⟨h, rfl, rfl, id⟩
  · cases e with
    | dispatch events =>
      refine hkeep ⟨?_, rfl, rfl, rfl⟩
      show (x.server.perform (.dispatch events)).conn.Silent
      rw [HttpConnection.perform]
      split <;> exact h
    | handler read write env =>
      rw [perform]
      split
      · exact ⟨h, rfl, rfl, id⟩
      · rename_i hd rest _
        exact hkeep (hafter (y := { x with server := { x.server with handlers := rest } }) env h
          (x.server.conn.handle_onward read write hd))
    | runTask env =>
      rw [perform]
      split
      · rename_i t rest _ _
        cases t with
        | established => exact ⟨h, rfl, rfl, id⟩
        | conn t =>
          exact hkeep (hafter (y := { x with server := { x.server with tasks := rest } }) env h
            (x.server.conn.runTask_onward t))
        | closed =>
          have hdestroyed : (HttpConnection.runTask { x.server with tasks := rest } .closed).conn.Silent := by
            rw [HttpConnection.runTask, HttpConnection.deleteConnection]
            split <;> exact x.server.conn.callbacks_connectDestroyed.trans h
          rw [runTask]
          split
          · exact ⟨hdestroyed, rfl, rfl, fun _ => rfl⟩
          · exact ⟨hdestroyed, rfl, rfl, id⟩
      · exact ⟨h, rfl, rfl, id⟩
    | erase =>
      rw [perform]
      split <;> exact ⟨h, rfl, rfl, id⟩
    | forceClose =>
      refine hkeep ⟨?_, rfl, rfl, rfl⟩
      show (x.server.perform (.call .forceClose)).conn.Silent
      have hout := x.server.conn.call_onward .forceClose
      rw [HttpConnection.perform]
      split
      · exact h
      · rw [server_after (x := x) (hout.hushed h).1]
        exact (hout.hushed h).2

/-! ## The transfer -/

/-- **The transfer is finished**: the head of the response and the whole file have been passed to
`write()`, in order, and `shutdown()` has been called once, after the last of them. -/
def Finished (content : Bytes) (x : Serving) : Prop :=
  ∃ pieces : List Bytes, x.log = pieces.map .write ++ [.shutdown]
    ∧ pieces.flatten = (Exchange.fileHead content).flatten ++ content

/-- **Where a connection is that carries a transfer.** -/
inductive Transfer (content : Bytes) (x : Serving) : Prop
  | accepted (h : x = .accepted)
  | idle (carrying : x.Carrying) (served : x.served = []) (log : x.log = [])
      (complete : x.writeCompleteCallback = none)
  | going (r : Reader) (carrying : x.Carrying) (served : x.served = [some (.file content)])
      (complete : x.writeCompleteCallback = some r) (reading : r.content = content)
      (sent : ∃ pieces : List Bytes, x.log = pieces.map .write
        ∧ pieces.flatten = (Exchange.fileHead content).flatten ++ content.take r.pos)
      (aligned : r.good = true → r.pos ≤ content.length ∧ 4096 ∣ r.pos)
      (stopped : r.good = false → content.length ≤ r.pos)
  | done (carrying : x.Carrying) (served : x.served = [some (.file content)])
      (complete : x.writeCompleteCallback = none) (finished : Finished content x)
  | closed (silent : x.server.conn.Silent)
      (cut : x.writeCompleteCallback ≠ none → x.served ≠ [] ∧ ¬ Finished content x)

/-- **The transfer goes on**, or there is none, or it is finished. -/
def Goes (content : Bytes) (x : Serving) : Prop :=
  x.served = [] ∨ Finished content x
    ∨ x.server.conn.writeCompleteCallback = true ∧ 0 < x.outstanding

/-- The calls made tell whether it is. -/
theorem finished_congr {content : Bytes} (h : y.log = x.log) : Finished content y ↔ Finished content x := by
  rw [Finished, Finished, h]

/-- Without a `shutdown()` nothing is finished. -/
theorem not_finished {content : Bytes} {pieces : List Bytes} (h : x.log = pieces.map .write) :
    ¬ Finished content x := by
  rintro ⟨qs, hlog, -⟩
  have hmem : ResponseCall.shutdown ∈ x.log := hlog ▸ List.mem_concat_self
  rw [h] at hmem
  obtain ⟨bs, -, hbs⟩ := List.mem_map.mp hmem
  cases hbs

/-- A transfer under way goes on while a run of `sendMore` is outstanding. -/
theorem goes_iff_of_going {content : Bytes} (hcarrying : x.Carrying)
    (hserved : x.served = [some (.file content)]) {pieces : List Bytes} (hlog : x.log = pieces.map .write) :
    Goes content x ↔ 0 < x.outstanding := by
  refine ⟨fun h => ?_, fun h => .inr (.inr ⟨hcarrying.working.writeComplete, h⟩)⟩
  rcases h with hfresh | hfinished | ⟨-, hmore⟩
  · rw [hserved] at hfresh
    cases hfresh
  · exact absurd hfinished (not_finished hlog)
  · exact hmore

/-- Once the connection has closed, what has been written is all there will be. -/
theorem goes_iff_of_silent {content : Bytes} (h : x.server.conn.Silent) :
    Goes content x ↔ x.served = [] ∨ Finished content x := by
  have hcomplete : x.server.conn.writeCompleteCallback = false := congrArg (·.2.1) h
  rw [Goes, hcomplete]
  simp

/-- The first task makes an accepted connection ready. -/
theorem transfer_step_accepted (content : Bytes) (e : ServingEvent) :
    Transfer content (accepted.step e) ∧ (accepted.step e).served = [] ∧ Fed accepted e := by
  cases e with
  | dispatch events => exact ⟨.accepted rfl, rfl, trivial⟩
  | handler read write env => exact ⟨.accepted rfl, rfl, trivial⟩
  | runTask env =>
    have hworking : TcpConnection.Working (accepted.server.conn.connectEstablished) :=
      ⟨.inl rfl, rfl, rfl, (Lifecycle.pumping_start true true true false).pumped.connectEstablished rfl⟩
    exact ⟨.idle ⟨open_perform_accepted env, hworking, List.nodup_nil,
      fun hw => absurd hw List.not_mem_nil⟩ rfl rfl rfl, rfl, trivial⟩
  | erase => exact ⟨.accepted rfl, rfl, trivial⟩
  | forceClose => exact ⟨.accepted rfl, rfl, trivial⟩

/-- **One run of `sendMore`** in the course of a transfer: what is left of it. -/
theorem Transfer.resumes {content : Bytes} {r : Reader} {n : ℕ} (hcarrying : y.Carrying)
    (hserved : y.served = [some (.file content)]) (hreading : r.content = content)
    {pieces : List Bytes}
    (hflatten : pieces.flatten = (Exchange.fileHead content).flatten ++ content.take r.pos)
    (haligned : r.good = true → r.pos ≤ content.length ∧ 4096 ∣ r.pos)
    (hstopped : r.good = false → content.length ≤ r.pos)
    (hresumes : Resumes (pieces.map .write) n r y) :
    Transfer content y ∧ (Goes content y ↔ (r.good = true → r.rest = [] → 0 < n)) := by
  have hnext : (r.read 4096).2.good = false → content.length ≤ (r.read 4096).2.pos := fun hshort => by
    have hlength : r.rest.length < 4096 := not_le.mp (of_decide_eq_false hshort)
    rw [Reader.rest, List.length_drop, hreading] at hlength
    show content.length ≤ r.pos + 4096
    omega
  have hfull : r.good = true → (r.read 4096).2.good = true →
      (r.read 4096).2.pos ≤ content.length ∧ 4096 ∣ (r.read 4096).2.pos := fun hgood hfull => by
    have hlength : 4096 ≤ r.rest.length := of_decide_eq_true hfull
    rw [Reader.rest, List.length_drop, hreading] at hlength
    exact ⟨show r.pos + 4096 ≤ content.length by omega,
      Nat.dvd_add (haligned hgood).2 (dvd_refl 4096)⟩
  cases hresumes with
  | block good appends complete outstanding rest =>
    have hlog : y.log = (pieces ++ [(r.read 4096).1]).map .write := by
      rw [appends, List.map_append]
      rfl
    refine ⟨.going _ hcarrying hserved complete hreading ⟨_, hlog, ?_⟩ (hfull good) hnext,
      (goes_iff_of_going hcarrying hserved hlog).trans ⟨fun _ _ hnil => absurd hnil rest,
        fun _ => outstanding⟩⟩
    rw [List.flatten_append, hflatten, List.flatten_singleton, List.append_assoc]
    show _ ++ (content.take r.pos ++ r.rest.take 4096) = _ ++ content.take (r.pos + 4096)
    rw [Reader.rest, hreading, List.take_add]
  | nothing good appends complete outstanding rest =>
    have hend : content.length ≤ r.pos := by
      rw [Reader.rest, hreading] at rest
      exact List.drop_eq_nil_iff.mp rest
    refine ⟨.going _ hcarrying hserved complete hreading ⟨pieces, appends, ?_⟩ (hfull good) hnext,
      (goes_iff_of_going hcarrying hserved appends).trans ?_⟩
    · rw [hflatten, List.take_of_length_le hend]
      exact congrArg _ (List.take_of_length_le (hend.trans (Nat.le_add_right _ _))).symm
    · rw [outstanding]
      exact ⟨fun hmore _ _ => hmore, fun hmore => hmore good rest⟩
  | finish good appends complete =>
    have hfinished : Finished content y :=
      ⟨pieces, appends, by rw [hflatten, List.take_of_length_le (hstopped good)]⟩
    refine ⟨.done hcarrying hserved complete hfinished, fun _ hgood => ?_, fun _ => .inr (.inl hfinished)⟩
    rw [good] at hgood
    cases hgood

/-- **Every step keeps a transfer going** that was going and that it leaves what it needs, and no
other. -/
theorem Transfer.step {content : Bytes} (h : Transfer content x) {e : ServingEvent}
    (he : Calm content x e) :
    Transfer content (x.step e) ∧ (Goes content (x.step e) ↔ Goes content x ∧ Fed x e) := by
  cases h with
  | accepted h =>
    subst h
    obtain ⟨htransfer, hserved, hfed⟩ := transfer_step_accepted content e
    exact ⟨htransfer, fun _ => ⟨.inl rfl, hfed⟩, fun _ => .inl hserved⟩
  | idle carrying served log complete =>
    cases carrying.step he with
    | still carrying' log' served' complete' _ fed =>
      have hserved := served'.trans served
      exact ⟨.idle carrying' hserved (log'.trans log) (complete'.trans complete),
        fun _ => ⟨.inl served, fed⟩, fun _ => .inl hserved⟩
    | begun _ carrying' log' served' complete' outstanding fed =>
      have hlog : (x.step e).log = (Exchange.fileHead content).map .write := by
        rw [log', log, List.nil_append]
      refine ⟨.going _ carrying' served' complete' rfl ⟨_, hlog, (List.append_nil _).symm⟩
        (fun _ => ⟨Nat.zero_le _, dvd_zero 4096⟩) (fun hgood => absurd hgood (by simp)),
        fun _ => ⟨.inl served, fed⟩, fun _ => ?_⟩
      exact (goes_iff_of_going carrying' served' hlog).mpr outstanding
    | resumed r n reading =>
      rw [complete] at reading
      cases reading
    | closed silent _ served' complete' fed =>
      have hserved := served'.trans served
      exact ⟨.closed silent fun hne => absurd (complete'.trans complete) hne,
        fun _ => ⟨.inl served, fed.mpr complete⟩, fun _ => .inl hserved⟩
  | going r carrying served complete reading sent aligned stopped =>
    obtain ⟨pieces, hlog, hflatten⟩ := sent
    have hgoes := goes_iff_of_going carrying served hlog
    cases carrying.step he with
    | still carrying' log' served' complete' outstanding fed =>
      have hlog' := log'.trans hlog
      have hserved := served'.trans served
      refine ⟨.going r carrying' hserved (complete'.trans complete) reading ⟨pieces, hlog', hflatten⟩
        aligned stopped, ?_⟩
      rw [goes_iff_of_going carrying' hserved hlog', hgoes, outstanding (by simp [complete])]
      exact (and_iff_left fed).symm
    | begun fresh =>
      rw [served] at fresh
      cases fresh
    | resumed r' n reading' spends carrying' served' resumes fed =>
      obtain rfl : r = r' := Option.some.inj (complete.symm.trans reading')
      rw [hlog] at resumes
      obtain ⟨htransfer, hiff⟩ :=
        Transfer.resumes carrying' (served'.trans served) reading hflatten aligned stopped resumes
      refine ⟨htransfer, ?_⟩
      rw [hiff, hgoes, fed, spends]
      exact (and_iff_right (Nat.succ_pos n)).symm
    | closed silent log' served' complete' fed =>
      have hcut : (x.step e).served ≠ [] ∧ ¬ Finished content (x.step e) :=
        ⟨by rw [served', served]; simp, not_finished (log'.trans hlog)⟩
      refine ⟨.closed silent fun _ => hcut, ?_⟩
      rw [goes_iff_of_silent silent, fed, complete]
      exact ⟨fun h => absurd h (not_or.mpr hcut), fun h => absurd h.2 (by simp)⟩
  | done carrying served complete finished =>
    have hgoes : Goes content x := .inr (.inl finished)
    have hfinished : (x.step e).log = x.log → Finished content (x.step e) := fun hlog =>
      (finished_congr hlog).mpr finished
    cases carrying.step he with
    | still carrying' log' served' complete' _ fed =>
      exact ⟨.done carrying' (served'.trans served) (complete'.trans complete) (hfinished log'),
        fun _ => ⟨hgoes, fed⟩, fun _ => .inr (.inl (hfinished log'))⟩
    | begun fresh =>
      rw [served] at fresh
      cases fresh
    | resumed r n reading =>
      rw [complete] at reading
      cases reading
    | closed silent log' _ complete' fed =>
      exact ⟨.closed silent fun hne => absurd (complete'.trans complete) hne,
        fun _ => ⟨hgoes, fed.mpr complete⟩, fun _ => .inr (.inl (hfinished log'))⟩
  | closed silent cut =>
    obtain ⟨hsilent, hlog, hserved, hcomplete⟩ := silent_step silent e
    have hsame : Goes content (x.step e) ↔ Goes content x := by
      rw [goes_iff_of_silent hsilent, goes_iff_of_silent silent, hserved, finished_congr hlog]
    have hfed : Goes content x → Fed x e := fun hgoes => by
      have hnone : x.writeCompleteCallback = none := by
        by_contra hne
        exact absurd ((goes_iff_of_silent silent).mp hgoes) (not_or.mpr (cut hne))
      exact fed_of_none hnone e
    refine ⟨.closed hsilent fun hne => ?_, hsame.trans (and_iff_left_of_imp hfed).symm⟩
    rw [hserved, finished_congr hlog]
    exact cut fun hnone => hne (hcomplete hnone)

/-- A stream that is good has read whole blocks, and its file ends between two of them. -/
theorem Transfer.rest_ne_nil {content : Bytes} (h : Transfer content x)
    (hlength : ¬ 4096 ∣ content.length) (hset : x.server.conn.writeCompleteCallback = true) {r : Reader}
    (hr : x.writeCompleteCallback = some r) (hgood : r.good = true) : r.rest ≠ [] := by
  cases h with
  | accepted h =>
    rw [h] at hr
    cases hr
  | idle _ _ _ complete =>
    rw [complete] at hr
    cases hr
  | going r' _ _ complete reading _ aligned =>
    obtain rfl : r = r' := Option.some.inj (hr.symm.trans complete)
    obtain ⟨hle, hdvd⟩ := aligned hgood
    intro hrest
    rw [Reader.rest, reading, List.drop_eq_nil_iff] at hrest
    exact hlength (Nat.le_antisymm hle hrest ▸ hdvd)
  | done _ _ complete =>
    rw [complete] at hr
    cases hr
  | closed silent =>
    rw [show x.server.conn.writeCompleteCallback = false from congrArg (·.2.1) silent] at hset
    cases hset

/-- **A file whose length is no multiple of 4096** never gives `sendMore` an empty block, so that a
transfer of it is never starved. -/
theorem rest_ne_nil_run {content : Bytes} (hlength : ¬ 4096 ∣ content.length) {es : List ServingEvent}
    (hcalm : Meets step (Calm content) accepted es) :
    let x := run step accepted es
    x.server.conn.writeCompleteCallback = true →
      ∀ r, x.writeCompleteCallback = some r → r.good = true → r.rest ≠ [] := by
  intro x hset r hr hgood
  have hx : Transfer content x := inv_run (fun _ _ h he => (h.step he).1) (.accepted rfl) hcalm
  exact hx.rest_ne_nil hlength hset hr hgood

/-- **A transfer finishes exactly when it is never starved.**  A file that the only request asks for, of
any length, and any answers of the kernel: once no write-complete task is pending and the output buffer
is empty, the head and the file have been written and `shutdown()` called after them if and only if no
step closed the connection before the end of the file, and a read that found the file at its end left
another write-complete task queued, or output in the buffer. -/
theorem finished_iff (content : Bytes) (es : List ServingEvent)
    (hcalm : Meets step (Calm content) accepted es)
    (hserved : (run step accepted es).served = [some (.file content)])
    (hpending : .conn .writeComplete ∉ (run step accepted es).server.tasks)
    (hbuffer : (run step accepted es).server.conn.writeBuffer = []) :
    Finished content (run step accepted es) ↔ Meets step Fed accepted es := by
  have hkeep : ∀ x e, Transfer content x → Calm content x e → Transfer content (x.step e) :=
    fun _ _ h he => (h.step he).1
  have hgoes : Goes content (run step accepted es) ↔ Meets step Fed accepted es := by
    refine inv_run_iff (fun x e hx hg => ?_) (fun x e hg hx => ?_) (.inl rfl)
      (Meets.and_inv hkeep (.accepted rfl) hcalm)
    · rw [(hg.1.step hg.2).2]
      exact and_iff_right hx
    · rw [(hg.1.step hg.2).2]
      exact fun h => hx h.1
  rw [← hgoes]
  refine ⟨fun h => .inr (.inl h), fun h => ?_⟩
  rcases h with hfresh | hfinished | ⟨-, hmore⟩
  · rw [hserved] at hfresh
    cases hfresh
  · exact hfinished
  · rcases (outstanding_pos _).mp hmore with htask | hne
    · exact absurd htask hpending
    · exact absurd hbuffer hne

/-! ## Two short transfers -/

/-- A write of which the kernel takes nothing at once. -/
def deferred : Feed := ⟨fun _ => 0, 0, .takes 0⟩

theorem deferred_answer : deferred.answer ≠ .fails .other := by decide

/-- One request, for `content`: the kernel takes nothing of the head while it is written, and all of it
once the poller reports room; then one write-complete task runs. -/
def headAtOnce (content : Bytes) : List ServingEvent :=
  [.runTask ⟨deferred, []⟩, .dispatch .input,
    .handler (.reads [0]) (.takes 0) ⟨deferred, [(some (.file content), fun _ => deferred)]⟩,
    .dispatch .out, .handler (.reads [0]) (.takes 1000) ⟨deferred, []⟩, .runTask ⟨deferred, []⟩]

/-- The block of a short file goes out like its head, and `sendMore` runs once more. -/
def blockAtOnce : List ServingEvent :=
  [.dispatch .out, .handler (.reads [0]) (.takes 1000) ⟨deferred, []⟩, .runTask ⟨deferred, []⟩]

set_option maxRecDepth 4000 in
/-- One byte: the head, the block, and the run of `sendMore` that shuts down. -/
theorem finished_iff_one_byte :
    let es := headAtOnce [7] ++ blockAtOnce
    Finished [7] (run step accepted es) ∧ Meets step Fed accepted es := by
  have hcalm : Meets step (Calm [7]) accepted (headAtOnce [7] ++ blockAtOnce) := by
    refine ⟨deferred_answer, fun h => absurd h (by decide), ⟨le_rfl, fun r hr => ?_⟩,
      fun _ => by decide +kernel, ⟨by decide +kernel, fun r hr => absurd hr List.not_mem_nil⟩,
      deferred_answer, fun _ => by decide +kernel,
      ⟨by decide +kernel, fun r hr => absurd hr List.not_mem_nil⟩, deferred_answer, trivial⟩
    obtain rfl := List.mem_singleton.mp hr
    exact ⟨rfl, fun _ => deferred_answer⟩
  have hfinished : Finished [7] (run step accepted (headAtOnce [7] ++ blockAtOnce)) :=
    ⟨Exchange.fileHead [7] ++ [[7]], by decide +kernel, by decide +kernel⟩
  exact ⟨hfinished,
    (finished_iff [7] _ hcalm rfl (by decide +kernel) (by decide +kernel)).mp hfinished⟩

set_option maxRecDepth 4000 in
/-- **An empty file is never shut down** when its head goes out at one go: the one write-complete task
reads an empty block, and nothing runs `sendMore` again. -/
theorem empty_file_unfinished :
    Meets step (Calm []) accepted (headAtOnce [])
      ∧ (run step accepted (headAtOnce [])).served = [some (.file [])]
      ∧ .conn .writeComplete ∉ (run step accepted (headAtOnce [])).server.tasks
      ∧ (run step accepted (headAtOnce [])).server.conn.writeBuffer = []
      ∧ ¬ Finished [] (run step accepted (headAtOnce [])) := by
  refine ⟨⟨deferred_answer, fun h => absurd h (by decide), ⟨le_rfl, fun r hr => ?_⟩,
    fun _ => by decide +kernel, ⟨by decide +kernel, fun r hr => absurd hr List.not_mem_nil⟩,
    deferred_answer, trivial⟩, rfl, by decide +kernel, by decide +kernel, ?_⟩
  · obtain rfl := List.mem_singleton.mp hr
    exact ⟨rfl, fun _ => deferred_answer⟩
  · rintro ⟨pieces, hlog, -⟩
    have hnone : ResponseCall.shutdown ∉ (run step accepted (headAtOnce [])).log := by decide +kernel
    exact hnone (hlog ▸ List.mem_concat_self)

end Serving
