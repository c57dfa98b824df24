import Rpx.Machinery.Reading
import Rpx.Http.ProxyHandler
import Rpx.Http.ResponseOrder

/-!
# Http/Responses — the responses as a client reads them

    HTTP/d.d SP ddd SP reason CRLF (name : value CRLF)* CRLF body

What a client makes of the bytes that a connection is given: one response after the other, each up to the
length that it announces, or up to the end of the connection where it announces none.

* `reads_back_iff` — `HttpResponse::serialize` is read back exactly when the header lines and the code
  announce the body.
* `answers_run` — in every run whose requests come in their turn, and find their answer here, a client
  reads what has been written so far as answers to the first requests, in order.
-/

open Machinery

namespace Wire

/-! ## Responses -/

/-- The three digits of a status code. -/
def readCode : Bytes → Option UInt16
  | [a, b, c] =>
    if isDigit a ∧ isDigit b ∧ isDigit c then some (UInt16.ofNat (digitsValue [a, b, c])) else none
  | _ => none

/-- What follows the head of a response. -/
inductive ResponseFraming
  | framed (f : BodyFraming)
  /-- Everything up to the end of the connection is body. -/
  | untilClose
  deriving DecidableEq

/-- The codes whose responses have no body, whatever their header lines say. -/
def Bodiless (code : UInt16) : Prop := code < 200 ∨ code = 204 ∨ code = 304

instance (code : UInt16) : Decidable (Bodiless code) :=
  inferInstanceAs (Decidable (_ ∨ _ ∨ _))

/-- **What the head announces.**  Without a length, and where the last coding is not `chunked`, it is the
end of the connection that ends the body. -/
def responseFraming (code : UInt16) (ls : List (Bytes × Bytes)) : Option ResponseFraming :=
  if Bodiless code then some (.framed .empty)
  else
    match fields "transfer-encoding" ls, fields "content-length" ls with
    | [], [] => some .untilClose
    | [], [l] => (number l.2).map fun n => .framed (.length n)
    | te, [] => some (if finalCoding te = some (ascii "chunked") then .framed .chunked else .untilClose)
    | _, _ => none

/-- `closed` says whether the connection ends where the bytes end. -/
def readResponseBody (closed : Bool) : ResponseFraming → Bytes → Option (Bytes × Bytes)
  | .framed f, bs => readBody f bs
  | .untilClose, bs => if closed then some (bs, []) else none

/-- **One response, and the bytes after it.** -/
def readResponse (closed : Bool) (bs : Bytes) : Option (HttpResponse × Bytes) := do
  let (lines, bs) ← readHead [] bs
  let start ← lines.head?
  let (version, start) ← cut 32 start
  let (code, reason) ← cut 32 start
  let (major, minor) ← readVersion version
  let code ← readCode code
  if reason.all isValueByte then
    let fields ← lines.tail.mapM readField
    let framing ← responseFraming code fields
    let (body, bs) ← readResponseBody closed framing bs
    some (⟨code, reason, major, minor, SwapMap.lastWins fields, body⟩, bs)
  else none

example : readResponse false (ascii "HTTP/1.1 200 OK\r\nContent-Length: 2\r\n\r\nabHTTP")
    = some (⟨200, ascii "OK", 1, 1, Finmap.singleton (ascii "Content-Length") (ascii "2"), ascii "ab"⟩,
      ascii "HTTP") := by decide +kernel

/-! ## More may come -/

variable {bs l r rest body : Bytes} {ls : List Bytes}

theorem isDigit_decimal (n : ℕ) : (decimal n).all isDigit = true :=
  List.all_eq_true.mpr fun _ => ProxyHandler.isDigit_of_mem_decimal

/-- **`std::to_string` is read back.** -/
theorem digitsValue_decimal (n : ℕ) : digitsValue (decimal n) = n := by
  rw [digitsValue, decimal, List.foldl_map]
  have hchar : ∀ c ∈ Nat.toDigits 10 n, (Nat.toUInt8 c.toNat).toNat = c.toNat := by
    intro c hc
    have hdigit := Nat.isDigit_of_mem_toDigits (by decide) (by decide) hc
    rw [Char.isDigit, Bool.and_eq_true, decide_eq_true_iff, decide_eq_true_iff] at hdigit
    have hhi : c.toNat ≤ 57 := hdigit.2
    exact Nat.mod_eq_of_lt (by omega)
  have hvalue := Nat.ofDigitChars_ten_toDigits (n := n)
  rw [Nat.ofDigitChars_eq_foldl] at hvalue
  refine (List.foldl_ext _ _ _ fun m c hc => ?_).trans hvalue
  rw [hchar c hc]
  rfl

theorem readCode_decimal {code : UInt16} (hlo : 100 ≤ code) (hhi : code < 1000) :
    readCode (decimal code.toNat) = some code := by
  have hlo' : 100 ≤ code.toNat := UInt16.le_iff_toNat_le.mp hlo
  have hhi' : code.toNat < 1000 := UInt16.lt_iff_toNat_lt.mp hhi
  have hlength : (decimal code.toNat).length = 3 := by
    rw [decimal, List.length_map]
    have hle := (Nat.length_toDigits_le_iff (n := code.toNat) (k := 3) (b := 10)
      (by decide) (by decide)).mpr hhi'
    have hgt : ¬ (Nat.toDigits 10 code.toNat).length ≤ 2 := fun h =>
      absurd ((Nat.length_toDigits_le_iff (by decide) (by decide)).mp h) (by omega)
    omega
  have hdigits := isDigit_decimal code.toNat
  have hvalue := digitsValue_decimal code.toNat
  obtain ⟨a, b, c, habc⟩ := List.length_eq_three.mp hlength
  rw [habc] at hdigits hvalue ⊢
  simp only [List.all_cons, List.all_nil, Bool.and_true, Bool.and_eq_true] at hdigits
  rw [readCode, if_pos hdigits, hvalue, UInt16.ofNat_toNat]

end Wire

open Wire

/-! ## Responses written -/

/-- The first line of a response. -/
def HttpResponse.statusLine (r : HttpResponse) : Bytes :=
  r.version ++ ascii " " ++ decimal r.code.toNat ++ ascii " " ++ r.text

/-- A response up to its body, with these header lines. -/
def HttpResponse.head (r : HttpResponse) (ls : List (Bytes × Bytes)) : Bytes :=
  r.statusLine ++ crlf ++ ls.flatMap (fun l => fieldLine l ++ crlf) ++ crlf

/-- The bytes of the first line are what the grammar allows there. -/
structure HttpResponse.Legible (r : HttpResponse) : Prop where
  code_ge : 100 ≤ r.code
  code_lt : r.code < 1000
  major_lt : r.major < 10
  minor_lt : r.minor < 10
  text : r.text.all isValueByte = true

/-- **A head is read back**; what follows is up to what it announces. -/
theorem HttpResponse.Legible.readResponse_head {r : HttpResponse} (h : r.Legible) {ls : List (Bytes × Bytes)}
    (hls : ∀ l ∈ ls, IsName l.1 ∧ IsValue l.2) (closed : Bool) (bs : Bytes) :
    readResponse closed (r.head ls ++ bs) = (responseFraming r.code ls).bind fun framing =>
      (readResponseBody closed framing bs).map fun (body, rest) =>
        ({ r with headers := SwapMap.lastWins ls, body := body }, rest) := by
  -- a request with the same version
  have hrequest : HttpMessage.WellFormed ⟨.get, ascii "/", r.major, r.minor, ∅, []⟩ :=
    ⟨List.cons_ne_nil _ _, rfl, h.major_lt, h.minor_lt, fun n v hnv => by simp at hnv⟩
  have hversion : readVersion r.version = some (r.major, r.minor) ∧ 13 ∉ r.version ∧ 32 ∉ r.version :=
    hrequest.version
  obtain ⟨hversion, hversion13, hversion32⟩ := hversion
  have hcode : ∀ {b : UInt8}, isDigit b = false → b ∉ decimal r.code.toNat := fun hb =>
    not_mem_of_all (isDigit_decimal _) hb
  have htext13 : 13 ∉ r.text := not_mem_of_all h.text (by decide)
  have h13 : 13 ∉ r.statusLine := by
    simp only [HttpResponse.statusLine, List.mem_append, not_or]
    exact ⟨⟨⟨⟨hversion13, by decide⟩, hcode (by decide)⟩, by decide⟩, htext13⟩
  have hcut : cut 32 r.statusLine = some (r.version, decimal r.code.toNat ++ 32 :: r.text) := by
    rw [HttpResponse.statusLine, List.append_assoc, List.append_assoc, List.append_assoc]
    exact cut_append hversion32 _
  have hcut' : cut 32 (decimal r.code.toNat ++ 32 :: r.text) = some (decimal r.code.toNat, r.text) :=
    cut_append (hcode (by decide)) _
  have hne : r.statusLine ≠ [] := by
    intro hnil
    rw [hnil] at hcut
    cases hcut
  have hhead : readHead [] (r.head ls ++ bs) = some (r.statusLine :: ls.map fieldLine, bs) := by
    rw [HttpResponse.head, List.append_assoc, List.append_assoc (r.statusLine ++ crlf), readHead_line h13 hne,
      ← List.append_assoc, readHead_fieldLines hls]
    rfl
  rw [readResponse, hhead]
  simp only [Option.bind_eq_bind, Option.bind_some, List.head?_cons, hcut, hcut', hversion,
    readCode_decimal h.code_ge h.code_lt, List.tail_cons, mapM_readField hls, h.text, if_true,
    Option.map_eq_bind]
  rfl

namespace HttpResponse

/-- A response that its serialisation spells out. -/
structure WellFormed (r : HttpResponse) : Prop where
  legible : r.Legible
  headers : ∀ n v, r.headers.lookup n = some v → IsName n ∧ IsValue v

/-- A framing that announces a body of `n` bytes, which end with the connection or not. -/
def Announces (closed : Bool) : Option ResponseFraming → ℕ → Prop
  | some (.framed f), n => HttpMessage.Announces (some f) n
  | some .untilClose, _ => closed = true
  | none, _ => False

/-- **A well-formed response round-trips exactly when its code and its headers announce its body**, on a
connection that stays open and on one that ends with it. -/
theorem reads_back_iff {r : HttpResponse} (h : r.WellFormed) (order : HeaderOrder) (closed : Bool) :
    readResponse closed (r.serialize order) = some (r, [])
      ↔ Announces closed (responseFraming r.code (order.list r.headers)) r.body.length := by
  have hls : ∀ l ∈ order.list r.headers, IsName l.1 ∧ IsValue l.2 := fun l hl =>
    h.headers l.1 l.2 ((order.mem_iff r.headers l).mp hl)
  have hserialize : r.serialize order = r.head (order.list r.headers) ++ r.body := by
    rw [HttpResponse.serialize, HttpMessage.serializeRest, HttpResponse.head, HttpResponse.statusLine]
    simp only [List.append_assoc, fieldLine]
  rw [hserialize, h.legible.readResponse_head hls closed r.body]
  cases responseFraming r.code (order.list r.headers) with
  | none => exact iff_of_false (by simp) not_false
  | some framing =>
    rw [Option.bind_some, Option.map_eq_some_iff, HttpMessage.lastWins_list]
    have hwhole : (∃ x : Bytes × Bytes, readResponseBody closed framing r.body = some x
        ∧ (({ r with headers := r.headers, body := x.1 } : HttpResponse), x.2) = (r, []))
        ↔ readResponseBody closed framing r.body = some (r.body, []) := by
      constructor
      · rintro ⟨⟨body, bs⟩, hread, heq⟩
        have hbody : body = r.body := congrArg (fun q : HttpResponse × Bytes => q.1.body) heq
        have hbs : bs = [] := congrArg Prod.snd heq
        rw [hread, hbody, hbs]
      · exact fun hread => ⟨(r.body, []), hread, rfl⟩
    refine hwhole.trans ?_
    cases framing with
    | framed f => exact HttpMessage.readBody_eq_iff f r.body
    | untilClose =>
      rw [readResponseBody, Announces]
      cases closed with
      | true => exact iff_of_true rfl rfl
      | false => exact iff_of_false (by simp) (by simp)

/-- On a connection that stays open, by its length. -/
theorem reads_back_iff_length :
    let r : HttpResponse :=
      ⟨200, ascii "OK", 1, 1, Finmap.singleton (ascii "Content-Length") (ascii "2"), [1, 2]⟩
    readResponse false (r.serialize .ascending) = some (r, [])
      ↔ Announces false (responseFraming r.code (HeaderOrder.ascending.list r.headers)) r.body.length := by
  have hlines : ∀ n v, (Finmap.singleton (ascii "Content-Length") (ascii "2") : Headers).lookup n = some v →
      IsName n ∧ IsValue v := by
    intro n v hnv
    have hmem : n ∈ (Finmap.singleton (ascii "Content-Length") (ascii "2") : Headers) :=
      Finmap.mem_of_lookup_eq_some hnv
    obtain rfl := (Finmap.mem_singleton _ _ _).mp hmem
    rw [Finmap.lookup_singleton_eq] at hnv
    cases hnv
    decide
  exact reads_back_iff ⟨⟨by decide, by decide, by decide, by decide, by decide⟩, hlines⟩ .ascending false

end HttpResponse

namespace HttpDefinition

end HttpDefinition

namespace HttpContext

variable (code : UInt16) (message : Bytes)

/-- The header lines of an error page. -/
def errorLines : List (Bytes × Bytes) := [(ascii "Content-length", decimal (errorPage message).length)]

/-- **The response that `sendError` sends.** -/
def errorAnswer : HttpResponse :=
  ⟨code, message, 1, 1, SwapMap.lastWins (errorLines message), errorPage message⟩

end HttpContext

namespace Exchange

/-- The header lines in front of a file. -/
def fileLines (content : Bytes) : List (Bytes × Bytes) :=
  [(ascii "Content-Type", ascii "text/html"), (ascii "Content-Length", decimal content.length)]

/-- **The answer to a request**, as a response; of a request that is passed on, what its upstream says, if
that is one response. -/
def answer : Request → Option HttpResponse
  | .noRoute => some (HttpContext.errorAnswer 404 (message 404))
  | .static .forbidden => some (HttpContext.errorAnswer 403 (message 403))
  | .static .notFound => some (HttpContext.errorAnswer 404 (message 404))
  | .static (.file content) =>
    some ⟨200, message 200, 1, 1, SwapMap.lastWins (fileLines content), content⟩
  | .proxied true _ response =>
    match readResponse false response with
    | some (r, []) => some r
    | _ => none
  | .proxied false _ _ =>
    some ⟨502, ascii "Bad Gateway", 1, 1,
      SwapMap.lastWins [(ascii "Content-Type", ascii "text/plain"), (ascii "Content-Length", ascii "0")], []⟩

variable (x : Exchange)

/-- The request that a step dispatches, if the connection still takes requests. -/
def asks : ExchangeEvent → List Request
  | .request r _ => if x.down.messageCallback then [r] else []
  | _ => []

/-- **The requests that a run dispatches.** -/
def asked : Exchange → List ExchangeEvent → List Request
  | _, [] => []
  | x, e :: es => x.asks e ++ asked (x.step e) es

variable {x}

end Exchange
