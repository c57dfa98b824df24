import Mathlib.Data.List.DropRight
import Rpx.Http.HttpParser
import Rpx.Machinery.SwapMap

/-!
# Http/Wire — a request read off the wire

    method SP target SP HTTP/d.d CRLF (name : value CRLF)* CRLF body

The reading an upstream gives to a byte stream: one request, and the bytes left after it.  How much
is body the header lines say: `Transfer-Encoding` if there is one, else `Content-Length`, else
nothing.
-/

open Machinery

namespace Wire

/-! ## Scanning -/

/-- Cut at the first `b`, which is dropped. -/
def cut (b : UInt8) : Bytes → Option (Bytes × Bytes)
  | [] => none
  | x :: xs => if x = b then some ([], xs) else (cut b xs).map fun (l, r) => (x :: l, r)

theorem cut_append {b : UInt8} {l : Bytes} (h : b ∉ l) (r : Bytes) :
    cut b (l ++ b :: r) = some (l, r) := by
  induction l with
  | nil => exact if_pos rfl
  | cons x l ih =>
    obtain ⟨hx, hl⟩ := List.ne_and_not_mem_of_not_mem_cons h
    rw [List.cons_append, cut, if_neg (Ne.symm hx), ih hl]
    rfl

theorem eq_of_cut {b : UInt8} {bs l r : Bytes} (h : cut b bs = some (l, r)) : bs = l ++ b :: r := by
  induction bs generalizing l with
  | nil => cases h
  | cons x xs ih =>
    rw [cut] at h
    split at h
    · rename_i hx
      cases h
      rw [hx, List.nil_append]
    · obtain ⟨⟨l', r'⟩, hcut, heq⟩ := Option.map_eq_some_iff.mp h
      cases heq
      rw [ih hcut, List.cons_append]

/-- The lines up to the first empty one, and what follows that; `cur` is what has been read of the
present line. -/
def readHead (cur : Bytes) : Bytes → Option (List Bytes × Bytes)
  | [] => none
  | 13 :: 10 :: bs =>
    if cur = [] then some ([], bs) else (readHead [] bs).map fun (ls, r) => (cur :: ls, r)
  | b :: bs => readHead (cur ++ [b]) bs

theorem readHead_crlf (bs : Bytes) : readHead [] (crlf ++ bs) = some ([], bs) := rfl

/-- One line of the head. -/
theorem readHead_line {l : Bytes} (hl : 13 ∉ l) (hne : l ≠ []) (bs : Bytes) :
    readHead [] (l ++ crlf ++ bs) = (readHead [] bs).map fun (ls, r) => (l :: ls, r) := by
  have hgen : ∀ cur : Bytes, cur ++ l ≠ [] → readHead cur (l ++ crlf ++ bs)
      = (readHead [] bs).map fun (ls, r) => ((cur ++ l) :: ls, r) := by
    clear hne
    induction l with
    | nil =>
      intro cur hcur
      rw [List.append_nil] at hcur ⊢
      exact if_neg hcur
    | cons b l ih =>
      intro cur _
      obtain ⟨hb, hl⟩ := List.ne_and_not_mem_of_not_mem_cons hl
      rw [List.cons_append, List.cons_append, readHead, ih hl (cur ++ [b]) (by simp),
        List.append_assoc, List.singleton_append]
      exact fun _ h13 _ => hb h13.symm
  exact hgen [] hne

theorem length_of_readHead {cur bs r : Bytes} {ls : List Bytes}
    (h : readHead cur bs = some (ls, r)) : r.length < bs.length := by
  fun_induction readHead cur bs generalizing ls with
  | case1 => cases h
  | case2 => cases h; simp
  | case3 cur bs hcur ih =>
    obtain ⟨⟨ls', r'⟩, hrest, heq⟩ := Option.map_eq_some_iff.mp h
    cases heq
    exact (ih hrest).trans (by simp)
  | case4 cur b bs hb ih => exact (ih h).trans (by simp)

/-! ## Lexical matters -/

/-- Space and tab. -/
def isBlank (b : UInt8) : Bool := b = 32 || b = 9

def isDigit (b : UInt8) : Bool := 48 ≤ b && b ≤ 57

/-- The bytes of a token. -/
def isToken (b : UInt8) : Bool :=
  isDigit b || (65 ≤ b && b ≤ 90) || (97 ≤ b && b ≤ 122) || b ∈ ascii "!#$%&'*+-.^_`|~"

/-- The bytes a field value has none of: NUL, CR and LF. -/
def isValueByte (b : UInt8) : Bool := b ≠ 0 && b ≠ 13 && b ≠ 10

/-- The bytes of a request target: everything above the space. -/
def isTargetByte (b : UInt8) : Bool := 32 < b

/-- An ASCII letter, in lower case. -/
def lower (b : UInt8) : UInt8 := if 65 ≤ b && b ≤ 90 then b + 32 else b

/-- The value of a string of decimal digits. -/
def digitsValue (ds : Bytes) : ℕ := ds.foldl (fun n d => 10 * n + (d.toNat - 48)) 0

/-- A decimal number, blanks after it ignored. -/
def number (v : Bytes) : Option ℕ :=
  let ds := v.rdropWhile isBlank
  if ds ≠ [] ∧ ds.all isDigit then some (digitsValue ds) else none

/-- A hexadecimal digit. -/
def hexDigit (b : UInt8) : Option ℕ :=
  if isDigit b then some (b.toNat - 48)
  else if 97 ≤ lower b && lower b ≤ 102 then some ((lower b).toNat - 87) else none

/-- A chunk size, extensions ignored. -/
def chunkSize (line : Bytes) : Option ℕ := do
  let digits ← ((line.takeWhile (· ≠ 59)).rdropWhile isBlank).mapM hexDigit
  if digits = [] then none else some (digits.foldl (fun n d => 16 * n + d) 0)

/-! ## Fields and framing -/

def readField (line : Bytes) : Option (Bytes × Bytes) := do
  let (n, v) ← cut 58 line
  let v := v.dropWhile isBlank
  if n ≠ [] ∧ n.all isToken ∧ v.all isValueByte then some (n, v) else none

/-- `name` is `field`, in any letter case. -/
def isNamed (field : String) (name : Bytes) : Bool := name.map lower = ascii field

/-- The fields of that name, in any letter case. -/
def fields (field : String) (ls : List (Bytes × Bytes)) : List (Bytes × Bytes) :=
  ls.filter fun l => isNamed field l.1

/-- How much of what follows the head is body. -/
inductive BodyFraming
  | empty
  | length (n : ℕ)
  | chunked
  deriving DecidableEq

/-- The last of the transfer codings, in lower case. -/
def finalCoding (ls : List (Bytes × Bytes)) : Option Bytes :=
  let codings := ls.flatMap fun l => l.2.splitOn 44
  let codings := codings.map fun c => ((c.dropWhile isBlank).rdropWhile isBlank).map lower
  (codings.filter (· ≠ [])).getLast?

/-- **What the header lines announce.**  Two lengths, a length next to a transfer coding, and a body
whose last coding is not `chunked` are errors. -/
def bodyFraming (ls : List (Bytes × Bytes)) : Option BodyFraming :=
  match fields "transfer-encoding" ls, fields "content-length" ls with
  | [], [] => some .empty
  | [], [l] => (number l.2).map .length
  | te, [] => if finalCoding te = some (ascii "chunked") then some .chunked else none
  | _, _ => none

/-! ## Bodies -/

/-- Chunks up to the empty one, and the trailer section after it.  Every chunk uses up fuel, and at
least one byte. -/
def readChunks : ℕ → Bytes → Option (Bytes × Bytes)
  | 0, _ => none
  | fuel + 1, bs => do
    let (line, bs) ← cut 10 bs
    let size ← chunkSize (line.rdropWhile (· = 13))
    if size = 0 then
      let (_, bs) ← readHead [] bs
      some ([], bs)
    else if size + 2 ≤ bs.length ∧ (bs.drop size).take 2 = crlf then
      let (body, rest) ← readChunks fuel (bs.drop (size + 2))
      some (bs.take size ++ body, rest)
    else none

/-- **Chunks decode to fewer bytes than they take.** -/
theorem length_of_readChunks {fuel : ℕ} {bs body rest : Bytes}
    (h : readChunks fuel bs = some (body, rest)) : body.length + rest.length < bs.length := by
  induction fuel generalizing bs body with
  | zero => cases h
  | succ fuel ih =>
    rw [readChunks] at h
    obtain ⟨⟨line, bs'⟩, hcut, h⟩ := Option.bind_eq_some_iff.mp h
    obtain ⟨size, -, h⟩ := Option.bind_eq_some_iff.mp h
    have hlen : bs'.length < bs.length := by
      rw [eq_of_cut hcut, List.length_append, List.length_cons]
      omega
    split at h
    · obtain ⟨⟨ls, r⟩, hhead, h⟩ := Option.bind_eq_some_iff.mp h
      cases h
      have hrest := length_of_readHead hhead
      simp only [List.length_nil]
      omega
    · split at h
      · rename_i hsize
        obtain ⟨⟨body', r⟩, hrest, h⟩ := Option.bind_eq_some_iff.mp h
        cases h
        have hrec := ih hrest
        rw [List.length_drop] at hrec
        rw [List.length_append, List.length_take]
        omega
      · cases h

/-- The body of a message, and the bytes after it; `none` while bytes are missing. -/
def readBody : BodyFraming → Bytes → Option (Bytes × Bytes)
  | .empty, bs => some ([], bs)
  | .length n, bs => if n ≤ bs.length then some (bs.take n, bs.drop n) else none
  | .chunked, bs => readChunks bs.length bs

example : readBody .chunked (ascii "2;x=y\r\nab\r\nA\r\n0123456789\r\n0\r\nT: 1\r\n\r\nGET")
    = some (ascii "ab0123456789", ascii "GET") := by decide

/-! ## Requests -/

def methods : List LlhttpMethod :=
  [.delete, .get, .head, .post, .put, .connect, .options, .trace, .copy, .lock, .mkcol, .move,
    .propfind, .proppatch, .search, .unlock, .bind, .rebind, .unbind, .acl, .report, .mkactivity,
    .checkout, .merge, .msearch, .notify, .subscribe, .unsubscribe, .patch, .purge, .mkcalendar,
    .link, .unlink, .source, .pri, .describe, .announce, .setup, .play, .pause, .teardown,
    .getParameter, .setParameter, .redirect, .record, .flush]

def readMethod (name : Bytes) : Option LlhttpMethod := methods.find? fun m => llhttpMethodName m = name

/-- `HTTP/d.d`. -/
def readVersion (bs : Bytes) : Option (UInt8 × UInt8) :=
  match bs with
  | [h, t₁, t₂, p, slash, major, dot, minor] =>
    if [h, t₁, t₂, p, slash, dot] = ascii "HTTP/." ∧ isDigit major ∧ isDigit minor then
      some (major - 48, minor - 48)
    else none
  | _ => none

/-- **One request, and the bytes after it.** -/
def readRequest (bs : Bytes) : Option (HttpRequest × Bytes) := do
  let (lines, bs) ← readHead [] bs
  let start ← lines.head?
  let (method, start) ← cut 32 start
  let (target, version) ← cut 32 start
  let method ← readMethod method
  let (major, minor) ← readVersion version
  if target ≠ [] ∧ target.all isTargetByte then
    let fields ← lines.tail.mapM readField
    let framing ← bodyFraming fields
    let (body, bs) ← readBody framing bs
    some (⟨method, target, major, minor, SwapMap.lastWins fields, body⟩, bs)
  else none

end Wire
