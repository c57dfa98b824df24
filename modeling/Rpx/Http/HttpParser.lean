import Mathlib.Data.Finmap
import Mathlib.Data.Finset.Sort
import Mathlib.Data.List.Lex
import Rpx.Http.Llhttp
import Rpx.Machinery.Run

/-!
# Http/HttpParser — what the callbacks collect

`HttpParser<T>` serves requests and responses alike: `T` is a `HttpMessage`, its start line apart.
Url, status text, header names and body all gather in `_currentBuffer`, header values in
`_currentBuffer1`; each is taken out by a swap, and what the swap puts in its place stays.
-/

open Machinery

/-- `std::unordered_map<std::string, std::string>`. -/
abbrev Headers := Finmap fun _ : Bytes => Bytes

/-- **What `HttpRequest` and `HttpResponse` have in common.** -/
structure HttpMessage (κ : Type) where
  /-- `method`, or `status_code`. -/
  code : κ
  /-- `path`, or `status_message`. -/
  text : Bytes
  major : UInt8
  minor : UInt8
  headers : Headers
  body : Bytes
  deriving DecidableEq

abbrev HttpRequest := HttpMessage LlhttpMethod

abbrev HttpResponse := HttpMessage UInt16

/-- `std::make_shared<T>()`. -/
def HttpMessage.fresh (κ : Type) [Inhabited κ] : HttpMessage κ := ⟨default, [], 0, 0, ∅, []⟩

/-! ## Serialisation -/

/-- The order in which the headers are iterated. -/
structure HeaderOrder where
  list : Headers → List (Bytes × Bytes)
  nodup_names : ∀ h, ((list h).map Prod.fst).Nodup
  mem_iff : ∀ h l, l ∈ list h ↔ h.lookup l.1 = some l.2

namespace HeaderOrder

/-- The order of the names, byte by byte. -/
def NameLe (a b : Bytes) : Prop := a.map UInt8.toNat ≤ b.map UInt8.toNat

instance : DecidableRel NameLe := fun a b =>
  inferInstanceAs (Decidable (a.map UInt8.toNat ≤ b.map UInt8.toNat))

instance : IsTrans Bytes NameLe := ⟨fun _ _ _ => le_trans⟩

instance : Std.Antisymm NameLe :=
  ⟨fun _ _ h h' => List.map_injective_iff.mpr (fun _ _ => UInt8.toNat_inj.mp) (le_antisymm h h')⟩

instance : Std.Total NameLe := ⟨fun _ _ => le_total _ _⟩

/-- By increasing name. -/
def ascending : HeaderOrder where
  list h := (h.keys.sort NameLe).map fun n => (n, (h.lookup n).getD [])
  nodup_names h := by
    rw [List.map_map]
    exact (Finset.sort_nodup h.keys NameLe).map Function.injective_id
  mem_iff h l := by
    simp only [List.mem_map, Finset.mem_sort, Finmap.mem_keys, Finmap.mem_iff]
    constructor
    · rintro ⟨n, ⟨v, hv⟩, rfl⟩
      rw [hv]
      rfl
    · intro hl
      exact ⟨l.1, ⟨l.2, hl⟩, by rw [hl]; rfl⟩

end HeaderOrder

/-- `"\r\n"`. -/
def crlf : Bytes := ascii "\r\n"

/-- The header lines, the empty line and the body. -/
def HttpMessage.serializeRest {κ : Type} (order : HeaderOrder) (m : HttpMessage κ) : Bytes :=
  (order.list m.headers).flatMap (fun kv => kv.1 ++ ascii ": " ++ kv.2 ++ crlf) ++ crlf ++ m.body

/-- `HTTP/major.minor`. -/
def HttpMessage.version {κ : Type} (m : HttpMessage κ) : Bytes :=
  ascii "HTTP/" ++ decimal m.major.toNat ++ ascii "." ++ decimal m.minor.toNat

def HttpRequest.serialize (order : HeaderOrder) (r : HttpRequest) : Bytes :=
  llhttpMethodName r.code ++ ascii " " ++ r.text ++ ascii " " ++ r.version ++ crlf
    ++ r.serializeRest order

def HttpResponse.serialize (order : HeaderOrder) (r : HttpResponse) : Bytes :=
  r.version ++ ascii " " ++ decimal r.code.toNat ++ ascii " " ++ r.text ++ crlf
    ++ r.serializeRest order

/-- A parser's data.  `_data` is null before the first message begins, and no callback that reads
it comes before that. -/
structure HttpParser (κ : Type) where
  data : HttpMessage κ
  currentBuffer : Bytes
  currentBuffer1 : Bytes
  /-- What `_headerCallback` was called with. -/
  headed : List (HttpMessage κ)
  /-- What `_messageCallback` was called with. -/
  delivered : List (HttpMessage κ)

namespace HttpParser

variable {κ : Type}

def new (κ : Type) [Inhabited κ] : HttpParser κ := ⟨.fresh κ, [], [], [], []⟩

/-! ## The callbacks -/

def reset [Inhabited κ] (p : HttpParser κ) : HttpParser κ := { p with data := .fresh κ }

section

variable (p : HttpParser κ)

/-- `_currentBuffer.append(at, length)`. -/
def collect (span : Bytes) : HttpParser κ := { p with currentBuffer := p.currentBuffer ++ span }

def onUrl (span : Bytes) : HttpParser κ := p.collect span

def onStatus (span : Bytes) : HttpParser κ := p.collect span

/-- The code is stored, and the text swapped with `_currentBuffer`. -/
def onStartComplete (code : κ) : HttpParser κ :=
  { p with
    data := { p.data with code := code, text := p.currentBuffer }
    currentBuffer := p.data.text }

def onUrlComplete (p : HttpParser LlhttpMethod) (method : LlhttpMethod) : HttpParser LlhttpMethod :=
  p.onStartComplete method

def onStatusComplete (p : HttpParser UInt16) (statusCode : UInt16) : HttpParser UInt16 :=
  p.onStartComplete statusCode

def onHeaderField (span : Bytes) : HttpParser κ := p.collect span

def onHeaderFieldComplete : HttpParser κ := p

def onHeaderValue (span : Bytes) : HttpParser κ :=
  { p with currentBuffer1 := p.currentBuffer1 ++ span }

/-- `headers[_currentBuffer]`, created empty when it is not there, is swapped with
`_currentBuffer1`; only `_currentBuffer` is cleared. -/
def onHeaderValueComplete : HttpParser κ :=
  { p with
    data := { p.data with headers := p.data.headers.insert p.currentBuffer p.currentBuffer1 }
    currentBuffer := []
    currentBuffer1 := (p.data.headers.lookup p.currentBuffer).getD [] }

def onHeadersComplete (major minor : UInt8) : HttpParser κ :=
  let data := { p.data with major := major, minor := minor }
  { p with data := data, headed := p.headed ++ [data] }

def onChunkHeader : HttpParser κ := p

def onChunkComplete : HttpParser κ := p

def onBody (span : Bytes) : HttpParser κ := p.collect span

def onMessageComplete : HttpParser κ :=
  let data := { p.data with body := p.currentBuffer }
  { p with data := data, currentBuffer := p.data.body, delivered := p.delivered ++ [data] }

end

variable [Inhabited κ] (p : HttpParser κ)

def onMessageBegin : HttpParser κ := p.reset

/-- The callback of an event.  The start line is the one of `T`: `on_url` and `on_url_complete` for
a request, `on_status` and `on_status_complete` for a response. -/
def advance : LlhttpEvent κ → HttpParser κ
  | .messageBegin => p.onMessageBegin
  | .start span => p.collect span
  | .startComplete code => p.onStartComplete code
  | .headerField span => p.onHeaderField span
  | .headerFieldComplete => p.onHeaderFieldComplete
  | .headerValue span => p.onHeaderValue span
  | .headerValueComplete => p.onHeaderValueComplete
  | .headersComplete major minor => p.onHeadersComplete major minor
  | .chunkHeader => p.onChunkHeader
  | .chunkComplete => p.onChunkComplete
  | .body span => p.onBody span
  | .messageComplete => p.onMessageComplete

/-- The parser after the messages of a connection. -/
def parse (ms : List (Message κ)) : HttpParser κ := run advance p (ms.flatMap Message.events)

/-! ## Spans and lines -/

/-- Spans that collect in `_currentBuffer` collect whole. -/
theorem run_collect {f : Bytes → LlhttpEvent κ}
    (hf : ∀ (q : HttpParser κ) (span : Bytes), q.advance (f span) = q.collect span)
    (spans : List Bytes) : run advance p (spans.map f) = p.collect spans.flatten := by
  induction spans generalizing p with
  | nil => simp [collect]
  | cons span spans ih =>
    rw [List.map_cons, run_cons, hf, ih]
    simp [collect]

/-- …and so do those of a header value, in `_currentBuffer1`. -/
theorem run_headerValue (spans : List Bytes) :
    run advance p (spans.map LlhttpEvent.headerValue)
      = { p with currentBuffer1 := p.currentBuffer1 ++ spans.flatten } := by
  induction spans generalizing p with
  | nil => simp
  | cons span spans ih =>
    rw [List.map_cons, run_cons, ih]
    simp [advance, onHeaderValue]

/-- What the events of a header line do. -/
def storeLine (p : HttpParser κ) (l : HeaderLine) : HttpParser κ :=
  { p with
    data := { p.data with
      headers := p.data.headers.insert (p.currentBuffer ++ l.name) (p.currentBuffer1 ++ l.value) }
    currentBuffer := []
    currentBuffer1 := (p.data.headers.lookup (p.currentBuffer ++ l.name)).getD [] }

theorem run_line (l : HeaderLine) : run advance p (l.events κ) = p.storeLine l := by
  rw [HeaderLine.events, run_append, run_append, run_append,
    run_collect p (fun _ _ => rfl) l.nameSpans]
  rw [run_cons, run_nil, run_headerValue]
  rfl

theorem run_lines (ls : List HeaderLine) :
    run advance p (ls.flatMap (·.events κ)) = ls.foldl storeLine p := by
  induction ls generalizing p with
  | nil => rfl
  | cons l ls ih => rw [List.flatMap_cons, run_append, run_line, ih, List.foldl_cons]

/-! ## Messages -/

/-- The body and chunk events collect the body. -/
theorem run_bodyEvents (f : Framing) :
    run advance p (f.bodyEvents κ) = p.collect f.spans.flatten := by
  cases f with
  | plain spans => exact run_collect p (fun _ _ => rfl) spans
  | chunked chunks trailers =>
    have hchunks : run advance p (chunks.flatMap fun spans =>
        [.chunkHeader] ++ spans.map .body ++ [.chunkComplete]) = p.collect chunks.flatten.flatten := by
      induction chunks generalizing p with
      | nil => simp [collect]
      | cons spans chunks ih =>
        rw [List.flatMap_cons, run_append, run_append, run_append, run_cons, run_nil,
          run_collect _ (fun _ _ => rfl) spans, run_cons, run_nil, ih]
        simp [advance, collect, onChunkHeader, onChunkComplete]
    rw [Framing.bodyEvents, run_append, hchunks]
    rfl

/-- The trailer events store the trailer lines. -/
theorem run_trailerEvents (f : Framing) :
    run advance p (f.trailerEvents κ) = f.trailers.foldl storeLine p := by
  cases f with
  | plain spans => rfl
  | chunked chunks trailers =>
    rw [Framing.trailerEvents, run_append, run_lines]
    rfl

/-- The start line sets code and text, and leaves an empty `_currentBuffer`. -/
def started (p : HttpParser κ) (m : Message κ) : HttpParser κ :=
  { p with
    data := { HttpMessage.fresh κ with code := m.code, text := m.text }
    currentBuffer := [] }

theorem run_headEvents (m : Message κ) (hcur : p.currentBuffer = []) :
    run advance p m.headEvents
      = (m.lines.foldl storeLine (p.started m)).onHeadersComplete m.major m.minor := by
  have hstart : run advance p ([.messageBegin] ++ m.startSpans.map .start ++ [.startComplete m.code])
      = p.started m := by
    rw [run_append, run_append, run_collect _ (fun _ _ => rfl) m.startSpans]
    simp [advance, onMessageBegin, reset, collect, onStartComplete, started, Message.text, hcur,
      HttpMessage.fresh]
  rw [Message.headEvents, run_append, run_append, hstart, run_lines]
  rfl

end HttpParser
