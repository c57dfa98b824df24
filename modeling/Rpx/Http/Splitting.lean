import Rpx.Core.ReadBuffer
import Rpx.Http.HttpParser
import Rpx.Http.HttpServer
import Rpx.Machinery.Stream

/-!
# Http/Splitting — requests do not depend on how the stream was cut

    readv ──▶ readFd ──▶ handleMessage ──▶ llhttp_execute ──▶ callbacks ──▶ _requestCallback

A session is a connection of the server with its input buffer, llhttp's state and what the callbacks
have collected.  llhttp is a source of its own; it is assumed to be seamless, that is to emit the same
events for the same stream, a span of data in one piece or in several.  Each read hands it exactly the
bytes of the socket, and the callbacks take the pieces of a span as they take the span, so that what
has been read is all that counts.
-/

open Machinery

/-- Two spans in a row that are one. -/
def LlhttpEvent.join {κ : Type} : LlhttpEvent κ → LlhttpEvent κ → Option (LlhttpEvent κ)
  | .start a, .start b => some (.start (a ++ b))
  | .headerField a, .headerField b => some (.headerField (a ++ b))
  | .headerValue a, .headerValue b => some (.headerValue (a ++ b))
  | .body a, .body b => some (.body (a ++ b))
  | _, _ => none

/-- **The callbacks take the pieces of a span as they take the span.** -/
theorem HttpParser.advance_join {κ : Type} [Inhabited κ] (p : HttpParser κ) {e f g : LlhttpEvent κ}
    (h : LlhttpEvent.join e f = some g) : p.advance g = (p.advance e).advance f := by
  cases e <;> cases f <;> first
    | cases h
      simp [advance, collect, onHeaderField, onHeaderValue, onBody]
    | cases h

/-- llhttp, for requests: its state, and the calls that `llhttp_execute` makes. -/
abbrev Llhttp (σ : Type) := Source σ UInt8 (LlhttpEvent LlhttpMethod)

/-! ## An open connection is listened to -/

/-- From `c` to `d` a connection drops its message callback only when it is closed. -/
def Heeds (c d : TcpConnection) : Prop :=
  d.state ≠ .disconnected → c.state ≠ .disconnected ∧ d.messageCallback = c.messageCallback

/-- The message callback of a connection that is not closed is set. -/
def Attentive (c : TcpConnection) : Prop := c.state ≠ .disconnected → c.messageCallback = true

section

variable {c d : TcpConnection}

theorem Attentive.heeds (h : Attentive c) (hd : Heeds c d) : Attentive d := fun hstate =>
  (hd hstate).2.trans (h (hd hstate).1)

theorem Heeds.of_same (hstate : d.state = c.state) (hcallbacks : d.callbacks = c.callbacks) :
    Heeds c d := fun hd => ⟨hstate ▸ hd, congrArg (·.1) hcallbacks⟩

theorem heeds_handleClose (c : TcpConnection) : Heeds c c.handleClose.conn := by
  rw [TcpConnection.handleClose]
  split
  · exact fun hd => absurd rfl hd
  · exact .of_same rfl rfl

theorem heeds_connectDestroyed (c : TcpConnection) : Heeds c c.connectDestroyed := by
  rw [TcpConnection.connectDestroyed]
  split
  · exact fun hd => absurd rfl hd
  · exact .of_same rfl rfl

theorem heeds_call (c : TcpConnection) (call : ConnCall) : Heeds c (c.call call).conn := by
  cases call with
  | write data len junk answer =>
    have hout := c.write_outputOnly data len junk answer
    exact .of_same hout.state hout.callbacks
  | shutdown inLoop => cases inLoop <;> exact .of_same rfl rfl
  | forceClose =>
    show Heeds c c.forceClose.conn
    rw [TcpConnection.forceClose]
    split
    · rename_i hstate
      exact fun _ => ⟨by simp [hstate], rfl⟩
    · exact .of_same rfl rfl

theorem heeds_handle (c : TcpConnection) (read : ReadAnswer) (write : WriteAnswer) (h : Handler) :
    Heeds c (c.handle read write h).conn := by
  cases h with
  | close => exact heeds_handleClose c
  | error => exact .of_same rfl rfl
  | read =>
    rcases read with (- | ⟨b, bs⟩) | e
    · exact heeds_handleClose c
    · exact .of_same rfl rfl
    · cases e <;> exact .of_same rfl rfl
  | write =>
    have hout := c.handleWrite_outputOnly write
    exact .of_same hout.state hout.callbacks

theorem heeds_runTask (c : TcpConnection) (t : ConnTask) : Heeds c (c.runTask t).conn := by
  cases t with
  | writeComplete => exact .of_same rfl rfl
  | handleClose => exact heeds_handleClose c
  | shutdownWrite => exact .of_same rfl rfl

end

namespace HttpConnection

variable {x : HttpConnection}

/-- The callbacks of the server change no connection but for its input. -/
theorem heeds_callback (x : HttpConnection) (b : Callback) : Heeds x.conn (x.callback b).conn := by
  cases b with
  | message =>
    rw [callback, handleMessage]
    split <;> exact .of_same rfl rfl
  | writeComplete => exact .of_same rfl rfl
  | close => exact .of_same rfl rfl
  | error => exact .of_same rfl rfl

theorem attentive_after (h : Attentive x.conn) {out : Outcome} (hout : Heeds x.conn out.conn) :
    Attentive (x.after out).conn := by
  have hfold : ∀ (bs : List Callback) (y : HttpConnection), Attentive y.conn →
      Attentive (bs.foldl callback y).conn := fun bs => by
    induction bs with
    | nil => exact fun y hy => hy
    | cons b bs ih => exact fun y hy => ih _ (hy.heeds (heeds_callback y b))
  exact hfold out.called _ (h.heeds hout)

/-- A connection that has begun will not be established again. -/
theorem Begun.established (h : x.Begun) : .established ∉ x.tasks := by
  cases h with
  | inUse h => exact h.established
  | ending h => exact h.established
  | ended h => exact h.established

/-- **Every step keeps an open connection listened to.** -/
theorem Valid.attentive_step (h : x.Valid) (hx : Attentive x.conn) (e : ServerEvent) :
    Attentive (x.step e).conn := by
  rw [HttpConnection.step]
  split
  · exact hx
  cases e with
  | call c =>
    rw [perform]
    split
    · exact hx
    · exact attentive_after hx (heeds_call x.conn c)
  | dispatch events =>
    rw [perform]
    split
    · exact hx
    · exact hx
  | handler read write =>
    rw [perform]
    split
    · exact hx
    · rename_i hd rest _
      have hrest : Attentive (HttpConnection.conn { x with handlers := rest }) := hx
      exact attentive_after hrest (heeds_handle x.conn read write hd)
  | runTask =>
    rw [perform]
    split
    · rename_i t rest _ htasks
      cases t with
      | established =>
        cases h with
        | accepted h =>
          subst h
          exact fun _ => rfl
        | begun h => exact absurd (htasks ▸ List.mem_cons_self) h.established
      | conn t =>
        have hrest : Attentive (HttpConnection.conn { x with tasks := rest }) := hx
        exact attentive_after hrest (heeds_runTask x.conn t)
      | closed =>
        have hdestroyed := hx.heeds (heeds_connectDestroyed x.conn)
        rw [HttpConnection.runTask, HttpConnection.deleteConnection]
        split <;> exact hdestroyed
    · exact hx

/-- What `readv` gives, when the event calls `handleRead`. -/
def incoming (x : HttpConnection) : ServerEvent → Option Bytes
  | .handler (.reads bs) _ =>
    if x.threw || x.conn.channel.aborted then none
    else if x.handlers.head? = some .read then some bs else none
  | _ => none

/-- The step calls `handleMessage`, which finds its context. -/
def messaged (x : HttpConnection) (e : ServerEvent) : Bool :=
  ((x.step e).log.drop x.log.length).contains (.handleMessage true)

/-- A read is a handler of the dispatch in progress. -/
theorem incoming_eq_some {e : ServerEvent} {bs : Bytes} (h : x.incoming e = some bs) :
    ∃ rest, x.handlers = .read :: rest
      ∧ x.step e = HttpConnection.after { x with handlers := rest } (x.conn.handleRead (.reads bs)) := by
  cases e with
  | call c => cases h
  | dispatch events => cases h
  | runTask => cases h
  | handler read write =>
    rcases read with bs' | err
    · rw [incoming] at h
      split at h
      · cases h
      rename_i hruns
      split at h
      · rename_i hread
        obtain ⟨rest, hrest⟩ := List.head?_eq_some_iff.mp hread
        obtain rfl : bs' = bs := Option.some.inj h
        refine ⟨rest, hrest, ?_⟩
        rw [step, if_neg hruns, perform, hrest]
        rfl
      · cases h
    · cases h

/-- A connection that is listened to in the middle of a dispatch has its context. -/
theorem Valid.found_of_heard (h : x.Valid) {hd : Handler} {rest : List Handler}
    (hhandlers : x.handlers = hd :: rest) (hheard : x.conn.messageCallback = true) :
    x.found = true := by
  have hloud : ¬ x.conn.Silent := fun hsilent =>
    absurd ((congrArg (·.1) hsilent : x.conn.messageCallback = false).symm.trans hheard)
      Bool.false_ne_true
  cases h with
  | accepted h =>
    subst h
    cases hhandlers
  | begun h =>
    cases h with
    | inUse h => exact h.found
    | ending h => exact absurd h.silent hloud
    | ended h => exact absurd h.silent hloud

/-- **A read that gives data** to an open connection calls `handleMessage`. -/
theorem Valid.messaged_of_ne_nil (h : x.Valid) (hx : Attentive x.conn) {e : ServerEvent} {bs : Bytes}
    (hbs : x.incoming e = some bs) (hne : bs ≠ []) (hopen : x.conn.state ≠ .disconnected) :
    x.messaged e = true := by
  obtain ⟨rest, hhandlers, hstep⟩ := incoming_eq_some hbs
  have hheard := hx hopen
  have hfound : x.found = true := h.found_of_heard hhandlers hheard
  have hlog : (x.step e).log = x.log ++ [.handleMessage true] := by
    rw [hstep, x.conn.handleRead_reads hne, hheard, if_pos rfl]
    exact congrArg HttpConnection.log (if_pos hfound)
  rw [messaged, hlog, List.drop_left]
  rfl

/-- …and one that gives none does not. -/
theorem messaged_of_nil {e : ServerEvent} (hbs : x.incoming e = some []) : x.messaged e = false := by
  obtain ⟨rest, -, hstep⟩ := incoming_eq_some hbs
  have hlog : (x.step e).log = x.log := by
    rw [hstep, after]
    rcases x.conn.handleClose_cases with ⟨-, hcalled, -⟩ | ⟨hcalled, -, -⟩
    · have hcalled' : (x.conn.handleRead (.reads [])).called = [.close] := hcalled
      rw [hcalled']
      rfl
    · have hcalled' : (x.conn.handleRead (.reads [])).called = [] := hcalled
      rw [hcalled']
      rfl
  rw [messaged, hlog, List.drop_length]
  rfl

end HttpConnection

/-- A connection of the server, its input and its parser. -/
structure HttpSession (σ : Type) where
  server : HttpConnection
  /-- `_readBuffer`. -/
  readBuffer : StreamBuffer
  /-- `_parser`. -/
  llhttp : σ
  /-- What the callbacks of `_parser` have collected. -/
  parser : HttpParser LlhttpMethod
  /-- The bytes read so far. -/
  received : Bytes

namespace HttpSession

variable {σ : Type} (l : Llhttp σ) (x : HttpSession σ)

/-- A connection just accepted. -/
def accepted : HttpSession σ := ⟨.accepted, .new 1024 0, l.init, .new LlhttpMethod, []⟩

/-- What `_requestCallback` was called with: `initConnection` makes it the message callback of the
parser. -/
def requests : List HttpRequest := x.parser.delivered

/-- `handleMessage(conn, buffer)`: all the buffer holds is parsed, and the buffer emptied.  A byte that
nothing was written to is no data. -/
def handleMessage : Option (HttpSession σ) := do
  let data ← x.readBuffer.contents.mapM id
  let (llhttp, events) := l.execute x.llhttp data
  return { x with
    llhttp := llhttp
    parser := run HttpParser.advance x.parser events
    readBuffer := x.readBuffer.popFrontAll }

/-- One event; `none` is undefined behaviour. -/
def step (e : ServerEvent) : Option (HttpSession σ) :=
  match x.server.incoming e with
  | none => some { x with server := x.server.step e }
  | some bs => do
    let readBuffer ← x.readBuffer.readFd bs
    let y := { x with
      server := x.server.step e
      readBuffer := readBuffer
      received := x.received ++ bs }
    if x.server.messaged e then y.handleMessage l else return y

/-- **Data comes while the connection is not closed**, and `readv` gives what its two buffers take. -/
def Reads (x : HttpSession σ) (e : ServerEvent) : Prop :=
  ∀ bs ∈ x.server.incoming e, bs ≠ [] → x.server.conn.state ≠ .disconnected
    ∧ bs.length ≤ x.readBuffer.endCapacity + StreamBuffer.extraBufSize

variable {l x}

/-! ## What every session keeps -/

/-- **What has been read has been parsed**, in whatever pieces it came. -/
structure Parsed (l : Llhttp σ) (x : HttpSession σ) : Prop where
  valid : x.server.Valid
  attentive : Attentive x.server.conn
  wellFormed : x.readBuffer.WellFormed
  /-- The buffer is empty, and starts at the front of its block. -/
  empty : x.readBuffer.contents = []
  front : x.readBuffer.head = 0 ∧ x.readBuffer.headRoom = 0
  fed : ∃ pieces : List Bytes, [] ∉ pieces ∧ pieces.flatten = x.received
    ∧ x.llhttp = (l.feed l.init pieces).1
    ∧ x.parser = run HttpParser.advance (.new LlhttpMethod) (l.feed l.init pieces).2

theorem parsed_accepted (l : Llhttp σ) : Parsed l (accepted l) := by
  refine ⟨.accepted rfl, fun _ => rfl, ⟨le_rfl, le_rfl, ?_⟩, ?_, ⟨rfl, rfl⟩, [], List.not_mem_nil, rfl,
    rfl, rfl⟩
  · exact Nat.zero_le _
  · exact List.drop_nil

theorem Parsed.tail (h : Parsed l x) : x.readBuffer.tail = 0 := by
  have hlength := h.wellFormed.length_contents
  have hhead := h.wellFormed.head_le
  have hfront := h.front.1
  rw [h.empty, List.length_nil, StreamBuffer.size] at hlength
  omega

/-- The bytes of a buffer that holds them. -/
theorem mapM_some (bs : Bytes) : (bs.map some).mapM id = some bs := by
  induction bs with
  | nil => rfl
  | cons b bs ih => simp [ih]

/-- A piece is parsed. -/
theorem Parsed.piece (h : Parsed l x) {bs : Bytes} (hne : bs ≠ []) {server : HttpConnection}
    (hvalid : server.Valid) (hattentive : Attentive server.conn) {readBuffer : StreamBuffer}
    (hwf : readBuffer.WellFormed) (hheadRoom : readBuffer.headRoom = 0)
    (hcontents : readBuffer.contents = bs.map some) :
    ∃ y, HttpSession.handleMessage l { x with
        server := server
        readBuffer := readBuffer
        received := x.received ++ bs } = some y
      ∧ Parsed l y ∧ y.readBuffer.capacity = readBuffer.capacity := by
  obtain ⟨pieces, hpieces, hflat, hllhttp, hparser⟩ := h.fed
  have hfeed := l.feed_concat l.init pieces bs
  have hmapM := mapM_some bs
  rw [← hcontents] at hmapM
  refine ⟨_, by rw [HttpSession.handleMessage]; simp only [hmapM]; rfl, ⟨hvalid, hattentive,
    hwf.restored.1, hwf.restored.2, ⟨hheadRoom, hheadRoom⟩, pieces ++ [bs], ?_, ?_, ?_, ?_⟩, rfl⟩
  · simpa using ⟨hpieces, hne⟩
  · simp [hflat]
  · rw [hfeed, hllhttp]
  · rw [hfeed, hparser, hllhttp, run_append]

/-- **Every step parses what it reads**, and runs into no undefined behaviour; the block grows to the
size of the largest read. -/
theorem Parsed.step (h : Parsed l x) (e : ServerEvent) (he : x.Reads e) :
    ∃ y, HttpSession.step l x e = some y ∧ Parsed l y ∧ y.readBuffer.capacity
      = max x.readBuffer.capacity ((x.server.incoming e).getD []).length := by
  have hvalid := h.valid.step e
  have hattentive := h.valid.attentive_step h.attentive e
  rw [HttpSession.step]
  rcases hbs : x.server.incoming e with - | bs
  · exact ⟨_, rfl, ⟨hvalid, hattentive, h.wellFormed, h.empty, h.front, h.fed⟩,
      (Nat.max_zero _).symm⟩
  have hroom : bs.length ≤ x.readBuffer.endCapacity + StreamBuffer.extraBufSize := by
    by_cases hne : bs = []
    · rw [hne]
      exact Nat.zero_le _
    · exact (he bs hbs hne).2
  obtain ⟨readBuffer, hread, hwf, hhead, hheadRoom, hcontents, hcap⟩ := h.wellFormed.readFd_spec hroom
  rw [h.empty, List.nil_append] at hcontents
  rw [h.tail, Nat.zero_add] at hcap
  simp only [hread, Option.bind_eq_bind, Option.bind_some]
  by_cases hne : bs = []
  · subst hne
    rw [HttpConnection.messaged_of_nil hbs]
    obtain ⟨pieces, hpieces, hflat, hrest⟩ := h.fed
    refine ⟨_, rfl, ⟨hvalid, hattentive, hwf, hcontents,
      ⟨hhead.trans h.front.1, hheadRoom.trans h.front.2⟩, pieces, hpieces, ?_, hrest⟩, hcap⟩
    simpa using hflat
  · rw [h.valid.messaged_of_ne_nil h.attentive hbs hne (he bs hbs hne).1]
    obtain ⟨y, hy, hparsed, hcap'⟩ :=
      h.piece hne hvalid hattentive hwf (hheadRoom.trans h.front.2) hcontents
    exact ⟨y, hy, hparsed, hcap'.trans hcap⟩

/-- Every run parses what it reads. -/
theorem parsed_run {es : List ServerEvent}
    (hes : Meets (lift (HttpSession.step l)) (onSome Reads) (some (accepted l)) es) :
    ∃ x, run (lift (HttpSession.step l)) (some (accepted l)) es = some x ∧ Parsed l x := by
  refine @inv_run _ _ (lift (HttpSession.step l)) (onSome Reads) (fun o => ∃ x, o = some x ∧ Parsed l x)
    (fun o e ho he => ?_) _ ⟨_, rfl, parsed_accepted l⟩ es hes
  obtain ⟨x, rfl, hx⟩ := ho
  obtain ⟨y, hy, hparsed, -⟩ := hx.step e (he x rfl)
  exact ⟨y, hy, hparsed⟩

/-- **The block is no larger than the largest read**, so that its sizes are `int`s if those are:
`readv` transfers less than `2^31` bytes. -/
theorem capacity_run {n : ℕ} (hn : 1024 ≤ n) {es : List ServerEvent}
    (hes : Meets (lift (HttpSession.step l)) (onSome fun x e => Reads x e
      ∧ ((x.server.incoming e).getD []).length ≤ n) (some (accepted l)) es) :
    ∃ x, run (lift (HttpSession.step l)) (some (accepted l)) es = some x
      ∧ x.readBuffer.capacity ≤ n := by
  have hstart : (accepted l).readBuffer.capacity = 1024 := List.length_replicate
  obtain ⟨x, hx, -, hcap⟩ := @inv_run _ _ (lift (HttpSession.step l)) (onSome fun x e => Reads x e
      ∧ ((x.server.incoming e).getD []).length ≤ n)
    (fun o => ∃ x, o = some x ∧ Parsed l x ∧ x.readBuffer.capacity ≤ n)
    (fun o e ho he => by
      obtain ⟨x, rfl, hx, hcap⟩ := ho
      obtain ⟨y, hy, hparsed, hcap'⟩ := hx.step e (he x rfl).1
      exact ⟨y, hy, hparsed, hcap'.trans_le (max_le hcap (he x rfl).2)⟩) _
    ⟨_, rfl, parsed_accepted l, hstart.trans_le hn⟩ es hes
  exact ⟨x, hx, hcap⟩

/-- **Requests do not depend on how the stream was cut.**  Of two sessions whose connections are not
closed before the last byte of the same stream has been read, neither runs into undefined behaviour,
and `_requestCallback` is called with the same requests. -/
theorem requests_of_stream (l : Llhttp σ) (hl : l.Seamless LlhttpEvent.join) (es fs : List ServerEvent)
    (hes : Meets (lift (HttpSession.step l)) (onSome Reads) (some (accepted l)) es)
    (hfs : Meets (lift (HttpSession.step l)) (onSome Reads) (some (accepted l)) fs) :
    ∃ x y, run (lift (HttpSession.step l)) (some (accepted l)) es = some x
      ∧ run (lift (HttpSession.step l)) (some (accepted l)) fs = some y
      ∧ (x.received = y.received → x.requests = y.requests) := by
  obtain ⟨x, hx, hxparsed⟩ := parsed_run hes
  obtain ⟨y, hy, hyparsed⟩ := parsed_run hfs
  refine ⟨x, y, hx, hy, fun hsame => ?_⟩
  obtain ⟨ps, hps, hpsflat, -, hpsparser⟩ := hxparsed.fed
  obtain ⟨qs, hqs, hqsflat, -, hqsparser⟩ := hyparsed.fed
  have hrecut := hl ps qs hps hqs (hpsflat.trans (hsame.trans hqsflat.symm))
  have hparser : x.parser = y.parser := by
    rw [hpsparser, hqsparser]
    exact run_eq_of_recut (fun p _ _ _ => p.advance_join) hrecut _
  exact congrArg HttpParser.delivered hparser

/-! ## A source that reads `GET` requests -/

/-- Where in a request without headers. -/
inductive GetState
  | idle
  | method
  | url
  | version
  | fields
  deriving DecidableEq

/-- One byte, and the calls llhttp makes for it. -/
def GetState.read : GetState → UInt8 → GetState × List (LlhttpEvent LlhttpMethod)
  | .idle, _ => (.method, [.messageBegin])
  | .method, b => if b = 32 then (.url, []) else (.method, [])
  | .url, b => if b = 32 then (.version, [.startComplete .get]) else (.url, [.start [b]])
  | .version, b => if b = 10 then (.fields, []) else (.version, [])
  | .fields, b =>
    if b = 10 then (.idle, [.headersComplete 1 1, .messageComplete]) else (.fields, [])

def getSource : Llhttp GetState := itemwise LlhttpEvent.join .idle GetState.read

instance (x : HttpSession σ) (e : ServerEvent) : Decidable (x.Reads e) :=
  inferInstanceAs (Decidable (∀ bs ∈ x.server.incoming e, bs ≠ [] → _ ∧ _))

/-- The server sets the connection up, and pieces come. -/
def arrivals (pieces : List Bytes) : List ServerEvent :=
  .runTask :: pieces.flatMap fun bs => [.dispatch .input, .handler (.reads bs) (.takes 0)]

/-- A request in one read and in two, cut in its path. -/
theorem requests_of_stream_get :
    ∃ x y, run (lift (HttpSession.step getSource)) (some (accepted getSource))
        (arrivals [ascii "GET /ab HTTP/1.1\r\n\r\n"]) = some x
      ∧ run (lift (HttpSession.step getSource)) (some (accepted getSource))
        (arrivals [ascii "GET /a", ascii "b HTTP/1.1\r\n\r\n"]) = some y
      ∧ (x.received = y.received → x.requests = y.requests) :=
  requests_of_stream getSource (seamless_itemwise _ _) _ _ (by decide +kernel) (by decide +kernel)

end HttpSession
