import Rpx.Core.Bytes

/-!
# Http/Llhttp — the events of a parsed message

    message_begin  start⁺  complete  (field⁺ complete value* complete)*  headers_complete
        body and chunk events  (trailer lines)  message_complete

llhttp is a library of its own; what it promises its callbacks is the shape of a `Message`, and
`Message.events` is the order in which they are called.  Data comes in spans, cut wherever the
input was.
-/

/-- `llhttp_method_t`, in the order of its values. -/
inductive LlhttpMethod
  | delete | get | head | post | put | connect | options | trace
  | copy | lock | mkcol | move | propfind | proppatch | search | unlock | bind | rebind | unbind | acl
  | report | mkactivity | checkout | merge
  | msearch | notify | subscribe | unsubscribe
  | patch | purge | mkcalendar | link | unlink | source | pri
  | describe | announce | setup | play | pause | teardown | getParameter | setParameter | redirect
  | record | flush
  deriving DecidableEq, Repr

/-- A value-initialised method is the one of value `0`. -/
instance : Inhabited LlhttpMethod := ⟨.delete⟩

/-- `llhttp_method_name`. -/
def llhttpMethodName : LlhttpMethod → Bytes
  | .delete => ascii "DELETE" | .get => ascii "GET" | .head => ascii "HEAD" | .post => ascii "POST"
  | .put => ascii "PUT" | .connect => ascii "CONNECT" | .options => ascii "OPTIONS"
  | .trace => ascii "TRACE" | .copy => ascii "COPY" | .lock => ascii "LOCK"
  | .mkcol => ascii "MKCOL" | .move => ascii "MOVE" | .propfind => ascii "PROPFIND"
  | .proppatch => ascii "PROPPATCH" | .search => ascii "SEARCH" | .unlock => ascii "UNLOCK"
  | .bind => ascii "BIND" | .rebind => ascii "REBIND" | .unbind => ascii "UNBIND"
  | .acl => ascii "ACL" | .report => ascii "REPORT" | .mkactivity => ascii "MKACTIVITY"
  | .checkout => ascii "CHECKOUT" | .merge => ascii "MERGE" | .msearch => ascii "M-SEARCH"
  | .notify => ascii "NOTIFY" | .subscribe => ascii "SUBSCRIBE"
  | .unsubscribe => ascii "UNSUBSCRIBE" | .patch => ascii "PATCH" | .purge => ascii "PURGE"
  | .mkcalendar => ascii "MKCALENDAR" | .link => ascii "LINK" | .unlink => ascii "UNLINK"
  | .source => ascii "SOURCE" | .pri => ascii "PRI" | .describe => ascii "DESCRIBE"
  | .announce => ascii "ANNOUNCE" | .setup => ascii "SETUP" | .play => ascii "PLAY"
  | .pause => ascii "PAUSE" | .teardown => ascii "TEARDOWN"
  | .getParameter => ascii "GET_PARAMETER" | .setParameter => ascii "SET_PARAMETER"
  | .redirect => ascii "REDIRECT" | .record => ascii "RECORD" | .flush => ascii "FLUSH"

/-- **A call llhttp makes.**  `κ` is what its start line carries: the method of a request, the status
code of a response. -/
inductive LlhttpEvent (κ : Type)
  | messageBegin
  /-- `on_url` of a request, `on_status` of a response. -/
  | start (span : Bytes)
  /-- `on_url_complete` or `on_status_complete`, with what the getter answers then. -/
  | startComplete (code : κ)
  | headerField (span : Bytes)
  | headerFieldComplete
  | headerValue (span : Bytes)
  | headerValueComplete
  | headersComplete (major minor : UInt8)
  | chunkHeader
  | chunkComplete
  | body (span : Bytes)
  | messageComplete
  deriving DecidableEq

/-! ## Messages -/

/-- A header line, or a trailer line: the spans of its name, one or more, and those of its value. -/
structure HeaderLine where
  nameSpans : List Bytes
  valueSpans : List Bytes
  nameSpans_ne_nil : nameSpans ≠ []

namespace HeaderLine

/-- A line that comes in one piece. -/
def ofBytes (name value : Bytes) : HeaderLine := ⟨[name], [value], List.cons_ne_nil _ _⟩

variable (l : HeaderLine)

def name : Bytes := l.nameSpans.flatten

def value : Bytes := l.valueSpans.flatten

def events (κ : Type) : List (LlhttpEvent κ) :=
  l.nameSpans.map .headerField ++ [.headerFieldComplete] ++ l.valueSpans.map .headerValue
    ++ [.headerValueComplete]

end HeaderLine

/-- The body of a message: its spans, as they are framed. -/
inductive Framing
  /-- Delimited by its length, by the end of the connection, or absent. -/
  | plain (spans : List Bytes)
  /-- Cut in chunks, the last one empty; trailer lines may follow that. -/
  | chunked (chunks : List (List Bytes)) (trailers : List HeaderLine)

namespace Framing

def spans : Framing → List Bytes
  | .plain spans => spans
  | .chunked chunks _ => chunks.flatten

def trailers : Framing → List HeaderLine
  | .plain _ => []
  | .chunked _ trailers => trailers

/-- Everything before the trailer lines. -/
def bodyEvents (κ : Type) : Framing → List (LlhttpEvent κ)
  | .plain spans => spans.map .body
  | .chunked chunks _ =>
    chunks.flatMap (fun spans => [.chunkHeader] ++ spans.map .body ++ [.chunkComplete])
      ++ [.chunkHeader]

/-- The trailer lines, and what closes the last chunk. -/
def trailerEvents (κ : Type) : Framing → List (LlhttpEvent κ)
  | .plain _ => []
  | .chunked _ trailers => trailers.flatMap (·.events κ) ++ [.chunkComplete]

end Framing

/-- **A message, as llhttp reports it.** -/
structure Message (κ : Type) where
  code : κ
  startSpans : List Bytes
  lines : List HeaderLine
  major : UInt8
  minor : UInt8
  framing : Framing

namespace Message

variable {κ : Type} (m : Message κ)

/-- The url of a request, the status text of a response. -/
def text : Bytes := m.startSpans.flatten

def body : Bytes := m.framing.spans.flatten

def trailers : List HeaderLine := m.framing.trailers

/-- The start line and the header lines. -/
def headEvents : List (LlhttpEvent κ) :=
  [.messageBegin] ++ m.startSpans.map .start ++ [.startComplete m.code]
    ++ m.lines.flatMap (·.events κ) ++ [.headersComplete m.major m.minor]

/-- **The calls of one message, in order.** -/
def events : List (LlhttpEvent κ) :=
  m.headEvents ++ m.framing.bodyEvents κ ++ m.framing.trailerEvents κ ++ [.messageComplete]

end Message
