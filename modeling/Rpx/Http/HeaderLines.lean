import Rpx.Http.HttpParser
import Rpx.Machinery.SwapMap

/-!
# Http/HeaderLines — the headers of a message, and residue of other lines

`headers[name].swap(_currentBuffer1)` leaves in `_currentBuffer1` what stood under that name.  For a
name seen for the first time this is nothing; for a repeated one it is the earlier value, and the
next header line, of this message or of a later one, gets it as a prefix.  `headers_eq_own_iff` says
exactly when no message shows it.
-/

open Machinery

/-- A name and a value. -/
abbrev Line := Bytes × Bytes

/-- The line as it was sent. -/
def HeaderLine.pair (l : HeaderLine) : Line := (l.name, l.value)

namespace Message

variable {κ : Type} (m : Message κ)

def headerLines : List Line := m.lines.map HeaderLine.pair

/-- **The headers of a message**: its own lines, the last value of a name winning. -/
def ownHeaders : Headers := SwapMap.lastWins m.headerLines

end Message

/-! ## What is delivered -/

/-- The map and the residue after the header lines of a message; `r` is the residue before. -/
def storeLines (r : Bytes) (ls : List Line) : Headers × Bytes :=
  ls.foldl (SwapMap.store (· ++ ·) []) (∅, r)

/-- The message delivered for a message without trailers, when it finds the residue `r`. -/
def Message.received {κ : Type} (m : Message κ) (r : Bytes) : HttpMessage κ :=
  ⟨m.code, m.text, m.major, m.minor, (storeLines r m.headerLines).1, m.body⟩

namespace HttpParser

variable {κ : Type}

/-- The parser with another map and another residue. -/
def withStore (p : HttpParser κ) (s : Headers × Bytes) : HttpParser κ :=
  { p with data := { p.data with headers := s.1 }, currentBuffer1 := s.2 }

/-- Between header lines `_currentBuffer` is empty, and the others are a `SwapMap`. -/
theorem foldl_storeLine (p : HttpParser κ) (hcur : p.currentBuffer = []) (ls : List HeaderLine) :
    ls.foldl storeLine p
      = p.withStore ((ls.map HeaderLine.pair).foldl (SwapMap.store (· ++ ·) [])
          (p.data.headers, p.currentBuffer1)) := by
  induction ls generalizing p with
  | nil => rfl
  | cons l ls ih =>
    have hline : p.storeLine l = p.withStore
        (SwapMap.store (· ++ ·) [] (p.data.headers, p.currentBuffer1) l.pair) := by
      rw [storeLine, hcur, List.nil_append, ← hcur]
      rfl
    rw [List.foldl_cons, hline]
    exact ih (p.withStore _) hcur

variable [Inhabited κ]

/-- **A message without trailers is delivered as `received`**, and leaves its residue behind. -/
theorem run_events (p : HttpParser κ) (hcur : p.currentBuffer = []) (m : Message κ)
    (htrailers : m.trailers = []) :
    let q := run advance p m.events
    q.currentBuffer = [] ∧ q.currentBuffer1 = (storeLines p.currentBuffer1 m.headerLines).2
      ∧ q.delivered = p.delivered ++ [m.received p.currentBuffer1] := by
  have htr : m.framing.trailers = [] := htrailers
  rw [Message.events, run_append, run_append, run_append, run_headEvents p m hcur,
    run_bodyEvents, run_trailerEvents, htr, List.foldl_nil, foldl_storeLine _ rfl]
  refine ⟨rfl, rfl, rfl⟩

/-- What is delivered for the messages of a connection, from the residue `r` on. -/
def deliveries (r : Bytes) : List (Message κ) → List (HttpMessage κ)
  | [] => []
  | m :: ms => m.received r :: deliveries (storeLines r m.headerLines).2 ms

theorem delivered_parse (p : HttpParser κ) (hcur : p.currentBuffer = []) (ms : List (Message κ))
    (htrailers : ∀ m ∈ ms, m.trailers = []) :
    (p.parse ms).delivered = p.delivered ++ deliveries p.currentBuffer1 ms := by
  induction ms generalizing p with
  | nil => exact (List.append_nil _).symm
  | cons m ms ih =>
    obtain ⟨hm, hms⟩ := List.forall_mem_cons.mp htrailers
    obtain ⟨hcur', hres, hdel⟩ := run_events p hcur m hm
    rw [parse, List.flatMap_cons, run_append, ← parse, ih _ hcur' hms, hres, hdel,
      List.append_assoc, List.singleton_append, deliveries]

end HttpParser

/-! ## Residue -/

/-- **Whether the next header line finds a byte of residue that `p` reads**, from the lines so far
of its message, the latest first, and from whether the first of them found one.  It does when the
latest line repeats a name, and the latest of the earlier lines of that name had such a byte in its
value or itself found one. -/
def finds (p : UInt8 → Bool) (r : Bool) (earlier : List Line) : Bool :=
  SwapMap.residue (· || ·) false r (earlier.map (Prod.map id (List.any · p)))

theorem any_residue (p : UInt8 → Bool) (r : Bytes) (earlier : List Line) :
    (SwapMap.residue (· ++ ·) [] r earlier).any p = finds p (r.any p) earlier :=
  (SwapMap.map_residue _ _ (List.any · p) (fun _ _ => List.any_append) rfl r earlier).1

/-- Any byte at all. -/
def anyByte (_ : UInt8) : Bool := true

theorem any_anyByte_eq_false_iff {bs : Bytes} : bs.any anyByte = false ↔ bs = [] := by
  cases bs <;> simp [anyByte]

/-- **No line that stands in the end finds residue**: every line that does is overridden by a later
line of the same name. -/
def NoneShows (r : Bool) (ls : List Line) : Prop :=
  ∀ earlier n v later, ls = earlier ++ (n, v) :: later → n ∉ later.map Prod.fst →
    finds anyByte r earlier.reverse = false

/-- …in no message of a connection, each beginning with what the one before it left. -/
def NoneShowsIn (r : Bool) : List (List Line) → Prop
  | [] => True
  | ls :: rest => NoneShows r ls ∧ NoneShowsIn (finds anyByte r ls.reverse) rest

theorem storeLines_eq_iff (r : Bytes) (ls : List Line) :
    (storeLines r ls).1 = SwapMap.lastWins ls ↔ NoneShows (r.any anyByte) ls := by
  rw [storeLines, SwapMap.foldl_store_eq_lastWins_iff]
  refine forall₄_congr fun earlier n v later => forall₂_congr fun _ _ => ?_
  rw [← any_residue, any_anyByte_eq_false_iff]
  exact List.append_left_eq_self

theorem any_storeLines (p : UInt8 → Bool) (r : Bytes) (ls : List Line) :
    (storeLines r ls).2.any p = finds p (r.any p) ls.reverse := by
  rw [storeLines, (SwapMap.foldl_store _ _ r ls).2, any_residue]

namespace HttpParser

variable {κ : Type} [Inhabited κ]

omit [Inhabited κ] in
theorem headers_deliveries_iff (r : Bytes) (ms : List (Message κ)) :
    (deliveries r ms).map (·.headers) = ms.map Message.ownHeaders
      ↔ NoneShowsIn (r.any anyByte) (ms.map Message.headerLines) := by
  induction ms generalizing r with
  | nil => exact iff_of_true rfl trivial
  | cons m ms ih =>
    rw [deliveries, List.map_cons, List.map_cons, List.map_cons, List.cons.injEq, ih,
      any_storeLines, NoneShowsIn]
    exact and_congr_left' (storeLines_eq_iff r m.headerLines)

/-- **Header fidelity, exactly.**  Over the messages of a connection, none with trailers, every
header map delivered is the last-value-wins map of its own message's lines if and only if no line
that stands in the end finds residue. -/
theorem headers_eq_own_iff (ms : List (Message κ)) (htrailers : ∀ m ∈ ms, m.trailers = []) :
    ((new κ).parse ms).delivered.map (·.headers) = ms.map Message.ownHeaders
      ↔ NoneShowsIn false (ms.map Message.headerLines) := by
  rw [delivered_parse (new κ) rfl ms htrailers]
  exact headers_deliveries_iff [] ms

/-- Two requests, the first repeating a name that had a value, the second with a line of its own. -/
def repeatedThenPlain : List (Message LlhttpMethod) :=
  [⟨.get, [ascii "/"], [.ofBytes (ascii "A") (ascii "1"), .ofBytes (ascii "A") (ascii "2")], 1, 1,
      .plain []⟩,
    ⟨.get, [ascii "/"], [.ofBytes (ascii "B") (ascii "3")], 1, 1, .plain []⟩]

theorem headers_eq_own_iff_repeatedThenPlain :
    ((new LlhttpMethod).parse repeatedThenPlain).delivered.map (·.headers)
        = repeatedThenPlain.map Message.ownHeaders
      ↔ NoneShowsIn false (repeatedThenPlain.map Message.headerLines) :=
  headers_eq_own_iff repeatedThenPlain (by decide)

/-- **A header of one request shows in the next.**  The first sends `A: 1` and `A: 2`, the second
`B: 3`; the second is delivered with `B: 13`. -/
theorem header_shows_in_next_request :
    ((new LlhttpMethod).parse repeatedThenPlain).delivered.map (·.headers)
      ≠ repeatedThenPlain.map Message.ownHeaders := by
  intro h
  have hB := congrArg (List.map (Finmap.lookup (ascii "B"))) h
  exact absurd hB (by decide)

end HttpParser
