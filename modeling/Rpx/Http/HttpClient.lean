import Rpx.Http.Body
import Rpx.Http.Splitting

/-!
# Http/HttpClient — the responses of a connection, from its first byte to its close

    readv ──▶ handleMessage ──▶ llhttp_execute ──▶ callbacks ──▶ _responseCallback
    end of stream ──▶ handleClose ──▶ connectDestroyed, deleteConnection

A session is a connection of the client with its parser.  `initConnection`, `handleMessage`,
`writeCompleteCallback` and `deleteConnection` are those of the server but for the callbacks of the user
that they run, so that the connection is a `HttpConnection`; only it is established, and given its
context, before its first event.  llhttp calls `on_message_complete` for a response that the end of the
connection delimits when `llhttp_finish` tells it of that end; `HttpParser::finish` would, and nothing
calls it.

* `responses_iff` — every response is delivered with its full body exactly when none is delimited by the
  end of the connection and none that has a body has trailers.
* `response_until_close_lost` — a response without a length, and a close.
-/

open Machinery

/-! ## Responses -/

/-- llhttp, for responses: its state, and the calls that `llhttp_execute` makes. -/
abbrev LlhttpResponses (σ : Type) := Source σ UInt8 (LlhttpEvent UInt16)

/-- **A response as it is sent**: a message, whose body the end of the connection delimits or not. -/
structure SentResponse where
  message : Message UInt16
  untilClose : Bool
  plain : untilClose = true → ∃ spans, message.framing = .plain spans

namespace SentResponse

variable (r : SentResponse)

/-- The calls that `llhttp_execute` makes for it; without a length the message is not complete. -/
def executed : List (LlhttpEvent UInt16) :=
  if r.untilClose then r.message.headEvents ++ r.message.framing.bodyEvents UInt16
  else r.message.events

/-- The response that the callback is called with is this one, with its full body. -/
structure Delivered (r : SentResponse) (d : HttpResponse) : Prop where
  code : d.code = r.message.code
  text : d.text = r.message.text
  version : d.major = r.message.major ∧ d.minor = r.message.minor
  body : d.body = r.message.body

end SentResponse

/-- **`stream` is a stream of the responses `rs`**: only the last is delimited by the end of the
connection, and llhttp reports them for the stream, in whatever pieces it comes. -/
structure StreamOf {σ : Type} (l : LlhttpResponses σ) (stream : Bytes) (rs : List SentResponse) :
    Prop where
  last : ∀ r ∈ rs.dropLast, r.untilClose = false
  reports : ∀ pieces : List Bytes, [] ∉ pieces → pieces.flatten = stream →
    Recut LlhttpEvent.join (l.feed l.init pieces).2 (rs.flatMap SentResponse.executed)

namespace HttpParser

/-- Lines touch nothing of the start line. -/
theorem startLine_foldl_storeLine {κ : Type} (p : HttpParser κ) (ls : List HeaderLine) :
    (ls.foldl storeLine p).data.code = p.data.code ∧ (ls.foldl storeLine p).data.text = p.data.text
      ∧ (ls.foldl storeLine p).data.major = p.data.major
      ∧ (ls.foldl storeLine p).data.minor = p.data.minor := by
  induction ls generalizing p with
  | nil => exact ⟨rfl, rfl, rfl, rfl⟩
  | cons l ls ih => exact ih (p.storeLine l)

/-- **One response**: it is delivered with its full body if it is complete without the end of the
connection, and no trailer takes the body. -/
theorem run_executed (p : HttpParser UInt16) (hcur : p.currentBuffer = []) (r : SentResponse)
    (hr : r.untilClose = false) :
    (run advance p r.executed).currentBuffer = []
      ∧ ∃ d, (run advance p r.executed).delivered = p.delivered ++ [d]
        ∧ (r.Delivered d ↔ r.message.trailers = [] ∨ r.message.body = []) := by
  obtain ⟨-, hbody, -, hdel⟩ := p.headDone_spec r.message
  obtain ⟨hbody', -, hdel'⟩ :=
    frame_foldl_storeLine ((p.headDone r.message).collect r.message.body) r.message.trailers
  obtain ⟨hcode, htext, hmajor, hminor⟩ := startLine_foldl_storeLine
    ((p.headDone r.message).collect r.message.body) r.message.trailers
  obtain ⟨hcode', htext', -, -⟩ := startLine_foldl_storeLine (p.started r.message) r.message.lines
  rw [SentResponse.executed, hr, if_neg (by decide), run_events_eq p hcur]
  refine ⟨hbody'.trans hbody,
    { (p.trailersDone r.message).data with body := (p.trailersDone r.message).currentBuffer },
    congrArg (· ++ _) (hdel'.trans hdel), ?_⟩
  rw [← p.body_trailersDone r.message]
  exact ⟨fun h => h.body, fun h => ⟨hcode.trans hcode', htext.trans htext', ⟨hmajor, hminor⟩, h⟩⟩

/-- A response delimited by the end of the connection is not delivered. -/
theorem delivered_run_executed (p : HttpParser UInt16) (hcur : p.currentBuffer = []) (r : SentResponse)
    (hr : r.untilClose = true) : (run advance p r.executed).delivered = p.delivered := by
  rw [SentResponse.executed, if_pos hr, run_append, run_headEvents p r.message hcur, run_bodyEvents]
  exact (p.headDone_spec r.message).2.2.2

/-- **What is delivered of the responses of a connection.** -/
theorem run_responses (p : HttpParser UInt16) (hcur : p.currentBuffer = []) (rs : List SentResponse)
    (hlast : ∀ r ∈ rs.dropLast, r.untilClose = false) :
    ∃ ds, (run advance p (rs.flatMap SentResponse.executed)).delivered = p.delivered ++ ds
      ∧ (List.Forall₂ SentResponse.Delivered rs ds
        ↔ ∀ r ∈ rs, r.untilClose = false ∧ (r.message.trailers = [] ∨ r.message.body = [])) := by
  induction rs generalizing p with
  | nil => exact ⟨[], (List.append_nil _).symm, by simp⟩
  | cons r rs ih =>
    rw [List.flatMap_cons, run_append]
    cases hr : r.untilClose with
    | true =>
      -- nothing follows it, so that nothing more is delivered
      have hnone : rs = [] := by
        by_contra hne
        rw [List.dropLast_cons_of_ne_nil hne] at hlast
        rw [hlast r List.mem_cons_self] at hr
        cases hr
      subst hnone
      refine ⟨[], ?_, ?_⟩
      · rw [List.append_nil]
        exact p.delivered_run_executed hcur r hr
      · simp [hr]
    | false =>
      obtain ⟨hcur', d, hd, hiff⟩ := p.run_executed hcur r hr
      have hlast' : ∀ r ∈ rs.dropLast, r.untilClose = false := fun r' hr' => by
        have hne : rs ≠ [] := List.ne_nil_of_mem (List.mem_of_mem_dropLast hr')
        rw [List.dropLast_cons_of_ne_nil hne] at hlast
        exact hlast r' (List.mem_cons_of_mem _ hr')
      obtain ⟨ds, hds, hall⟩ := ih _ hcur' hlast'
      refine ⟨d :: ds, ?_, ?_⟩
      · rw [hds, hd, List.append_assoc]
        rfl
      · rw [List.forall₂_cons, hiff, hall, List.forall_mem_cons, hr]
        simp

end HttpParser

/-! ## What can close a connection -/

namespace TcpConnection

variable (c : TcpConnection)

/-- Only `forceClose()` queues `handleClose`. -/
theorem not_mem_queued_call {call : ConnCall} (hcall : call ≠ .forceClose) :
    .handleClose ∉ (c.call call).queued := fun hm => by
  cases call with
  | write data len junk answer =>
    cases (c.write_outputOnly data len junk answer).queued _ hm
  | shutdown inLoop => cases inLoop <;> simp [TcpConnection.call, shutdown, quiet] at hm
  | forceClose => exact hcall rfl

theorem not_mem_queued_handle (read : ReadAnswer) (write : WriteAnswer) (h : Handler) :
    .handleClose ∉ (c.handle read write h).queued := by
  have hclose : .handleClose ∉ c.handleClose.queued := by
    rw [queued_handleClose]
    exact List.not_mem_nil
  cases h with
  | close => exact hclose
  | error => exact List.not_mem_nil
  | read =>
    rcases read with (- | ⟨b, bs⟩) | e
    · exact hclose
    · exact List.not_mem_nil
    · cases e <;> exact List.not_mem_nil
  | write => exact fun hm => by cases (c.handleWrite_outputOnly write).queued _ hm

theorem not_mem_queued_runTask (t : ConnTask) : .handleClose ∉ (c.runTask t).queued := by
  cases t with
  | handleClose =>
    show .handleClose ∉ c.handleClose.queued
    rw [queued_handleClose]
    exact List.not_mem_nil
  | writeComplete => exact List.not_mem_nil
  | shutdownWrite => exact List.not_mem_nil

/-- A call other than `forceClose()` leaves the state as it was… -/
theorem state_call {call : ConnCall} (hcall : call ≠ .forceClose) :
    (c.call call).conn.state = c.state := by
  cases call with
  | write data len junk answer => exact (c.write_outputOnly data len junk answer).state
  | shutdown inLoop => cases inLoop <;> rfl
  | forceClose => exact absurd rfl hcall

/-- …and so does a handler, but for `handleClose` and the end of the stream. -/
theorem state_handle (read : ReadAnswer) (write : WriteAnswer) {h : Handler} (hclose : h ≠ .close)
    (hread : h = .read → read ≠ .reads []) : (c.handle read write h).conn.state = c.state := by
  cases h with
  | close => exact absurd rfl hclose
  | error => rfl
  | read =>
    rcases read with (- | ⟨b, bs⟩) | e
    · exact absurd rfl (hread rfl)
    · rfl
    · cases e <;> rfl
  | write => exact (c.handleWrite_outputOnly write).state

end TcpConnection

namespace HttpConnection

variable {x : HttpConnection}

/-- **What a member function of the connection leaves** of state, handlers and tasks, whatever it
calls. -/
theorem frame_after (out : Outcome) :
    (x.after out).conn.state = out.conn.state ∧ (x.after out).handlers = x.handlers
      ∧ (.conn .handleClose ∈ (x.after out).tasks →
        .conn .handleClose ∈ x.tasks ∨ .handleClose ∈ out.queued) := by
  have hfold : ∀ (bs : List Callback) (y : HttpConnection),
      (bs.foldl callback y).conn.state = y.conn.state ∧ (bs.foldl callback y).handlers = y.handlers
        ∧ (.conn .handleClose ∈ (bs.foldl callback y).tasks → .conn .handleClose ∈ y.tasks) := by
    intro bs
    induction bs with
    | nil => exact fun y => ⟨rfl, rfl, id⟩
    | cons b bs ih =>
      intro y
      obtain ⟨hstate, hhandlers, htasks⟩ := ih (y.callback b)
      have hone : (y.callback b).conn.state = y.conn.state ∧ (y.callback b).handlers = y.handlers
          ∧ (.conn .handleClose ∈ (y.callback b).tasks → .conn .handleClose ∈ y.tasks) := by
        cases b with
        | message =>
          rw [callback, handleMessage]
          split <;> exact ⟨rfl, rfl, id⟩
        | writeComplete => exact ⟨rfl, rfl, id⟩
        | close =>
          refine ⟨rfl, rfl, fun hm => ?_⟩
          exact (List.mem_append.mp hm).resolve_right (by simp)
        | error => exact ⟨rfl, rfl, id⟩
      exact ⟨hstate.trans hone.1, hhandlers.trans hone.2.1, fun hm => hone.2.2 (htasks hm)⟩
  obtain ⟨hstate, hhandlers, htasks⟩ :=
    hfold out.called { x with conn := out.conn, tasks := x.tasks ++ out.queued.map .conn }
  refine ⟨hstate, hhandlers, fun hm => ?_⟩
  rcases List.mem_append.mp (htasks hm) with hm | hm
  · exact .inl hm
  · obtain ⟨t, ht, heq⟩ := List.mem_map.mp hm
    exact .inr (ServerTask.conn.inj heq ▸ ht)

/-- **The peer has ended the connection** as far as the event shows: the kernel reports a hang-up and
nothing to read, or `readv` gives nothing. -/
def Ends (x : HttpConnection) : ServerEvent → Prop
  | .dispatch events => events.epollhup = true ∧ events.epollin = false
  | .handler read _ => x.handlers.head? = some .read ∧ read = .reads []
  | _ => False

/-- The connection is open, and nothing that is to come will close it. -/
structure Lasting (x : HttpConnection) : Prop where
  isOpen : x.conn.state ≠ .disconnected
  handlers : .close ∉ x.handlers

/-- No `handleClose` is queued, and there is none to come without `forceClose()`. -/
theorem unforced_step (h : .conn .handleClose ∉ x.tasks) {e : ServerEvent}
    (he : e ≠ .call .forceClose) : .conn .handleClose ∉ (x.step e).tasks := by
  rw [step]
  split
  · exact h
  cases e with
  | call c =>
    rw [perform]
    split
    · exact h
    · have hcall : c ≠ .forceClose := fun heq => he (heq ▸ rfl)
      exact fun hm => ((frame_after _).2.2 hm).elim h (x.conn.not_mem_queued_call hcall)
  | dispatch events =>
    rw [perform]
    split <;> exact h
  | handler read write =>
    rw [perform]
    split
    · exact h
    · rename_i hd rest _
      exact fun hm => ((frame_after (x := { x with handlers := rest }) _).2.2 hm).elim h
        (x.conn.not_mem_queued_handle read write hd)
  | runTask =>
    rw [perform]
    split
    · rename_i t rest _ htasks
      have hrest : .conn .handleClose ∉ rest := fun hm => h (htasks ▸ List.mem_cons_of_mem t hm)
      cases t with
      | established => exact hrest
      | conn t =>
        exact fun hm => ((frame_after (x := { x with tasks := rest }) _).2.2 hm).elim hrest
          (x.conn.not_mem_queued_runTask t)
      | closed =>
        rw [HttpConnection.runTask, deleteConnection]
        split <;> exact hrest
    · exact h

/-- **A connection lasts until its peer ends it.** -/
theorem Lasting.step (h : x.Lasting) (hvalid : x.Valid) (hattentive : Attentive x.conn)
    (hunforced : .conn .handleClose ∉ x.tasks) {e : ServerEvent} (hcall : e ≠ .call .forceClose)
    (he : ¬ x.Ends e) : (x.step e).Lasting := by
  have hafter : ∀ {y : HttpConnection} {out : Outcome}, .close ∉ y.handlers →
      out.conn.state = x.conn.state → (y.after out).Lasting := by
    intro y out hhandlers hstate
    obtain ⟨hstate', hhandlers', -⟩ := frame_after (x := y) out
    exact ⟨by rw [hstate', hstate]; exact h.isOpen, by rw [hhandlers']; exact hhandlers⟩
  rw [HttpConnection.step]
  split
  · exact h
  cases e with
  | call c =>
    rw [perform]
    split
    · exact h
    · have hne : c ≠ .forceClose := fun heq => hcall (heq ▸ rfl)
      exact hafter h.handlers (x.conn.state_call hne)
  | dispatch events =>
    rw [perform]
    split
    · refine ⟨h.isOpen, fun hm => he ?_⟩
      obtain ⟨hhup, hin⟩ : events.epollhup = true ∧ events.epollin = false := by
        simpa [EpollMask.handlers] using hm
      exact ⟨hhup, hin⟩
    · exact h
  | handler read write =>
    rw [perform]
    split
    · exact h
    · rename_i hd rest hhandlers
      have hrest : .close ∉ rest := fun hm =>
        h.handlers (hhandlers ▸ List.mem_cons_of_mem hd hm)
      have hclose : hd ≠ .close := fun heq => h.handlers (hhandlers ▸ heq ▸ List.mem_cons_self)
      refine hafter (y := { x with handlers := rest }) hrest
        (x.conn.state_handle read write hclose fun hread heq => he ⟨?_, heq⟩)
      rw [hhandlers, hread]
      rfl
  | runTask =>
    rw [perform]
    split
    · rename_i t rest hhandlers htasks
      cases t with
      | established => exact ⟨(fun hstate => by cases hstate), h.handlers⟩
      | conn t =>
        refine hafter (y := { x with tasks := rest }) h.handlers ?_
        cases t with
        | writeComplete => rfl
        | handleClose => exact absurd (htasks ▸ List.mem_cons_self) hunforced
        | shutdownWrite => rfl
      | closed =>
        -- the connection that ends has run its close callback, and is not open
        have hsilent : x.conn.messageCallback = false := by
          cases hvalid with
          | accepted hx =>
            subst hx
            cases htasks
          | begun hx =>
            cases hx with
            | inUse hx => exact absurd (htasks ▸ List.mem_cons_self) hx.closed
            | ending hx => exact congrArg (·.1) hx.silent
            | ended hx => exact absurd (htasks ▸ List.mem_cons_self) hx.closed
        rw [hattentive h.isOpen] at hsilent
        cases hsilent
    · exact h

end HttpConnection

/-! ## Sessions -/

/-- A connection of the client, its input and its parser. -/
structure HttpClientSession (σ : Type) where
  client : HttpConnection
  /-- `_readBuffer`, as a byte queue. -/
  readBuffer : Bytes
  /-- `_parser`. -/
  llhttp : σ
  /-- What the callbacks of `_parser` have collected. -/
  parser : HttpParser UInt16
  /-- The bytes read so far. -/
  received : Bytes

namespace HttpClientSession

variable {σ : Type} (l : LlhttpResponses σ) (x : HttpClientSession σ)

/-- `TcpClient::newConnection`: the connection is established, and `initConnection` gives it its context,
before its first event. -/
def newConnection : HttpClientSession σ :=
  ⟨HttpConnection.runTask { HttpConnection.accepted with tasks := [] } .established, [], l.init,
    .new UInt16, []⟩

/-- What `_responseCallback` was called with: `initConnection` makes it the message callback of the
parser. -/
def responses : List HttpResponse := x.parser.delivered

/-- `handleMessage(conn, buffer)`: all the buffer holds is parsed, and the buffer emptied. -/
def handleMessage : HttpClientSession σ :=
  let (llhttp, events) := l.execute x.llhttp x.readBuffer
  { x with
    llhttp := llhttp
    parser := run HttpParser.advance x.parser events
    readBuffer := [] }

def step (e : ServerEvent) : HttpClientSession σ :=
  match x.client.incoming e with
  | none => { x with client := x.client.step e }
  | some bs =>
    let y := { x with
      client := x.client.step e
      readBuffer := x.readBuffer ++ bs
      received := x.received ++ bs }
    if x.client.messaged e then y.handleMessage l else y

/-- **The server sends `stream`, and closes**: `readv` gives bytes of it while there are any, the kernel
reports no hang-up alone before all of them have been read, and nobody here calls `forceClose()`. -/
def Sending (stream : Bytes) (x : HttpClientSession σ) (e : ServerEvent) : Prop :=
  e ≠ .call .forceClose ∧ (x.client.Ends e → x.received = stream)
    ∧ ∀ bs ∈ x.client.incoming e, x.received ++ bs <+: stream

variable {l x}

/-- **What holds until the stream has ended, and after**: what has been read has been parsed, and the
connection is closed by the end of the stream alone. -/
structure Parsing (l : LlhttpResponses σ) (stream : Bytes) (x : HttpClientSession σ) : Prop where
  valid : x.client.Valid
  attentive : Attentive x.client.conn
  unforced : .conn .handleClose ∉ x.client.tasks
  lasting : x.received = stream ∨ x.client.Lasting
  empty : x.readBuffer = []
  sent : x.received <+: stream
  fed : ∃ pieces : List Bytes, [] ∉ pieces ∧ pieces.flatten = x.received
    ∧ x.llhttp = (l.feed l.init pieces).1
    ∧ x.parser = run HttpParser.advance (.new UInt16) (l.feed l.init pieces).2

theorem parsing_newConnection (l : LlhttpResponses σ) (stream : Bytes) :
    Parsing l stream (newConnection l) := by
  refine ⟨.begun (.inUse HttpConnection.inUse_established), fun _ => rfl, List.not_mem_nil,
    .inr ⟨(fun hstate => by cases hstate), List.not_mem_nil⟩, rfl, List.nil_prefix, [], List.not_mem_nil,
    rfl, rfl, rfl⟩

/-- **Every step parses what it reads.** -/
theorem Parsing.step {stream : Bytes} (h : Parsing l stream x) {e : ServerEvent}
    (he : Sending stream x e) : Parsing l stream (x.step l e) := by
  obtain ⟨hcall, hends, hreads⟩ := he
  have hvalid := h.valid.step e
  have hattentive := h.valid.attentive_step h.attentive e
  have hunforced := HttpConnection.unforced_step h.unforced hcall
  have hlasting : x.received = stream ∨ (x.client.step e).Lasting := by
    by_cases hend : x.client.Ends e
    · exact .inl (hends hend)
    · exact h.lasting.imp_right fun hlasting =>
        hlasting.step h.valid h.attentive h.unforced hcall hend
  rw [HttpClientSession.step]
  rcases hbs : x.client.incoming e with - | bs
  · exact ⟨hvalid, hattentive, hunforced, hlasting, h.empty, h.sent, h.fed⟩
  have hprefix : x.received ++ bs <+: stream := hreads bs hbs
  by_cases hne : bs = []
  · subst hne
    dsimp only
    rw [HttpConnection.messaged_of_nil hbs, if_neg (by decide), List.append_nil, List.append_nil]
    exact ⟨hvalid, hattentive, hunforced, hlasting, h.empty, h.sent, h.fed⟩
  · -- more is read, so that the stream has not ended, and the connection is open
    have hmore : x.received ≠ stream := fun heq => by
      have hlength := hprefix.length_le
      rw [heq, List.length_append] at hlength
      exact hne (List.length_eq_zero_iff.mp (by omega))
    have hopen := (h.lasting.resolve_left hmore).isOpen
    obtain ⟨pieces, hpieces, hflat, hllhttp, hparser⟩ := h.fed
    have hfeed := l.feed_concat l.init pieces bs
    dsimp only
    rw [h.valid.messaged_of_ne_nil h.attentive hbs hne hopen, if_pos rfl, h.empty, List.nil_append]
    refine ⟨hvalid, hattentive, hunforced, ?_, rfl, hprefix, pieces ++ [bs], ?_, ?_, ?_, ?_⟩
    · exact .inr (hlasting.resolve_left hmore)
    · simpa using ⟨hpieces, hne⟩
    · rw [List.flatten_append, hflat, List.flatten_singleton]
      rfl
    · rw [hfeed, ← hllhttp]
      rfl
    · rw [hfeed, ← hllhttp, run_append, ← hparser]
      rfl

/-- **Every response is delivered with its full body, exactly when…** the end of the connection delimits
none of them, and none that has trailers has a body.  For any stream of responses, however it is cut and
whatever happens meanwhile, once `deleteConnection` has run. -/
theorem responses_iff (l : LlhttpResponses σ) (stream : Bytes) (rs : List SentResponse)
    (hstream : StreamOf l stream rs) (es : List ServerEvent)
    (hes : Meets (step l) (Sending stream) (newConnection l) es)
    (hdeleted : .deleteConnection true ∈ (run (step l) (newConnection l) es).client.log) :
    List.Forall₂ SentResponse.Delivered rs (run (step l) (newConnection l) es).responses
      ↔ ∀ r ∈ rs, r.untilClose = false ∧ (r.message.trailers = [] ∨ r.message.body = []) := by
  have hx : Parsing l stream (run (step l) (newConnection l) es) :=
    inv_run (fun _ _ h he => h.step he) (parsing_newConnection l stream) hes
  generalize run (step l) (newConnection l) es = x at hx hdeleted
  have hreceived : x.received = stream := hx.lasting.resolve_right fun hlasting => by
    have hset := hx.attentive hlasting.isOpen
    have hsilent := hx.valid.silent_of_deleted hdeleted
    rw [show x.client.conn.messageCallback = false from congrArg (·.1) hsilent] at hset
    cases hset
  obtain ⟨pieces, hpieces, hflat, -, hparser⟩ := hx.fed
  have hrecut := hstream.reports pieces hpieces (hflat.trans hreceived)
  obtain ⟨ds, hds, hall⟩ := HttpParser.run_responses (.new UInt16) rfl rs hstream.last
  have hresponses : x.responses = ds := by
    rw [responses, hparser, run_eq_of_recut (fun p _ _ _ => p.advance_join) hrecut, hds]
    rfl
  rw [hresponses, hall]

/-! ## A source that reads responses with a length, or without one -/

/-- Where in a response, of the status `n`, whose length so far is `len`.  With the status `204` it has no
body; without a length, the end of the connection delimits its body. -/
inductive ResponseState
  | idle
  | version
  | code (n : UInt16)
  | text (n : UInt16)
  | line (n : UInt16) (len : Option ℕ)
  | name (n : UInt16)
  | colon (n : UInt16)
  | value (n : UInt16) (len : ℕ)
  | blank (n : UInt16) (len : Option ℕ)
  | body (left : ℕ)
  | bodyUntilClose
  deriving DecidableEq

/-- One byte, and the calls llhttp makes for it; the header lines it knows are `Content-Length`. -/
def ResponseState.read : ResponseState → UInt8 → ResponseState × List (LlhttpEvent UInt16)
  | .idle, _ => (.version, [.messageBegin])
  | .version, b => if b = 32 then (.code 0, []) else (.version, [])
  | .code n, b => if b = 32 then (.text n, []) else (.code (n * 10 + (b - 48).toUInt16), [])
  | .text n, b =>
    if b = 13 then (.text n, [])
    else if b = 10 then (.line n none, [.startComplete n])
    else (.text n, [.start [b]])
  | .line n len, b => if b = 13 then (.blank n len, []) else (.name n, [.headerField [b]])
  | .name n, b =>
    if b = 58 then (.colon n, [.headerFieldComplete]) else (.name n, [.headerField [b]])
  | .colon n, _ => (.value n 0, [])
  | .value n len, b =>
    if b = 13 then (.value n len, [])
    else if b = 10 then (.line n (some len), [.headerValueComplete])
    else (.value n (len * 10 + (b - 48).toNat), [.headerValue [b]])
  | .blank n len, _ =>
    match len with
    | none =>
      if n = 204 then (.idle, [.headersComplete 1 1, .messageComplete])
      else (.bodyUntilClose, [.headersComplete 1 1])
    | some 0 => (.idle, [.headersComplete 1 1, .messageComplete])
    | some left => (.body left, [.headersComplete 1 1])
  | .body left, b =>
    if left = 1 then (.idle, [.body [b], .messageComplete]) else (.body (left - 1), [.body [b]])
  | .bodyUntilClose, b => (.bodyUntilClose, [.body [b]])

def responseSource : LlhttpResponses ResponseState :=
  itemwise LlhttpEvent.join .idle ResponseState.read

/-- What it reports for a stream, whatever the pieces. -/
theorem streamOf_responseSource {stream : Bytes} {rs : List SentResponse}
    (hlast : ∀ r ∈ rs.dropLast, r.untilClose = false)
    (hscan : (scan ResponseState.read .idle stream).2 = rs.flatMap SentResponse.executed) :
    StreamOf responseSource stream rs := by
  refine ⟨hlast, fun pieces _ hflat => ?_⟩
  have hfeed : Recut LlhttpEvent.join (responseSource.feed .idle pieces).2
      (scan ResponseState.read .idle pieces.flatten).2 :=
    feed_itemwise _ _ _ _
  rwa [hflat, hscan] at hfeed

/-- The stream in one read, then its end, and the task that ends the connection. -/
def readAndClose (stream : Bytes) : List ServerEvent :=
  [.dispatch .input, .handler (.reads stream) (.takes 0), .dispatch .input,
    .handler (.reads []) (.takes 0), .runTask]

theorem sending_readAndClose (l : LlhttpResponses σ) (b : UInt8) (bs : Bytes) :
    Meets (step l) (Sending (b :: bs)) (newConnection l) (readAndClose (b :: bs)) := by
  have hnone : ∀ {s : Bytes}, ∀ bs' ∈ (none : Option Bytes), s ++ bs' <+: b :: bs :=
    fun _ h => by cases h
  refine ⟨⟨by simp, fun h => absurd h.1 (by decide), hnone⟩,
    ⟨by simp, fun h => absurd h.2 (by simp), fun bs' h => ?_⟩,
    ⟨by simp, fun h => absurd h.1 (by decide), hnone⟩,
    ⟨by simp, fun _ => ?_, fun bs' h => ?_⟩, ⟨by simp, False.elim, hnone⟩, trivial⟩
  · obtain rfl : b :: bs = bs' := Option.some.inj h
    exact List.prefix_rfl
  · rfl
  · obtain rfl : [] = bs' := Option.some.inj h
    rw [List.append_nil]
    exact List.prefix_rfl

/-- `204 No Content`, a response of its own. -/
def noContent : SentResponse :=
  ⟨⟨204, (ascii "No Content").map ([·]), [], 1, 1, .plain []⟩, false, fun _ => ⟨_, rfl⟩⟩

/-- `200 OK`, with the body `ab` and its length. -/
def okLength : SentResponse :=
  ⟨⟨200, (ascii "OK").map ([·]), [⟨(ascii "Content-Length").map ([·]), [ascii "2"], by decide⟩],
    1, 1, .plain ((ascii "ab").map ([·]))⟩, false, fun _ => ⟨_, rfl⟩⟩

/-- One after the other. -/
theorem responses_iff_noContent :
    List.Forall₂ SentResponse.Delivered [noContent, okLength] (run (step responseSource)
      (newConnection responseSource)
      (readAndClose (ascii
        "HTTP/1.1 204 No Content\r\n\r\nHTTP/1.1 200 OK\r\nContent-Length: 2\r\n\r\nab"))).responses := by
  refine (responses_iff responseSource _ [noContent, okLength]
    (streamOf_responseSource (by decide) (by decide +kernel)) _ (sending_readAndClose _ _ _)
    (by decide +kernel)).mpr fun r hr => ?_
  rcases List.mem_pair.mp hr with rfl | rfl
  · exact ⟨rfl, .inl rfl⟩
  · exact ⟨rfl, .inl rfl⟩

/-- `200 OK`, with the body `ab` and no length. -/
def okUntilClose : SentResponse :=
  ⟨⟨200, (ascii "OK").map ([·]), [], 1, 1, .plain ((ascii "ab").map ([·]))⟩, true,
    fun _ => ⟨_, rfl⟩⟩

/-- **A response that the end of the connection delimits is lost**: all of it has been read and parsed,
the connection is closed, and the response callback has not been called. -/
theorem response_until_close_lost :
    let stream := ascii "HTTP/1.1 200 OK\r\n\r\nab"
    let x := run (step responseSource) (newConnection responseSource) (readAndClose stream)
    StreamOf responseSource stream [okUntilClose]
      ∧ Meets (step responseSource) (Sending stream) (newConnection responseSource) (readAndClose stream)
      ∧ .deleteConnection true ∈ x.client.log
      ∧ ¬ List.Forall₂ SentResponse.Delivered [okUntilClose] x.responses := by
  refine ⟨streamOf_responseSource (by decide) (by decide +kernel), sending_readAndClose _ _ _,
    by decide +kernel, fun h => ?_⟩
  exact absurd h.length_eq (by decide +kernel)

end HttpClientSession
