import Rpx.Http.HttpParser

/-!
# Http/Body — the body of a message, and the trailer lines after it

    on_body*  ──▶  _currentBuffer  ◀──  on_header_field (trailers)

The body waits in `_currentBuffer` until the message is complete, and the name of a trailer line is
collected behind it: the first trailer is stored under body and name together, and clears the
buffer.  `faithful_iff` says that nothing else goes wrong.
-/

open Machinery

/-- **Entries are made under these names, one after the other**, whatever their values. -/
def KeyedBy (before after : Headers) : List Bytes → Prop
  | [] => after = before
  | n :: ns => ∃ v, KeyedBy (before.insert n v) after ns

/-- **A message with its own body, and its trailers under their own names**: `before` is what the
header callback saw, `after` what is delivered. -/
def Message.Faithful {κ : Type} (m : Message κ) (seen : HttpMessage κ × HttpMessage κ) : Prop :=
  seen.2.body = m.body ∧ KeyedBy seen.1.headers seen.2.headers (m.trailers.map HeaderLine.name)

namespace HttpParser

variable {κ : Type}

/-- A line clears `_currentBuffer`. -/
theorem currentBuffer_foldl_storeLine (p : HttpParser κ) {ls : List HeaderLine}
    (h : p.currentBuffer = [] ∨ ls ≠ []) : (ls.foldl storeLine p).currentBuffer = [] := by
  induction ls generalizing p with
  | nil => exact h.resolve_right fun hne => hne rfl
  | cons l ls ih => exact ih (p.storeLine l) (.inl rfl)

/-- With an empty `_currentBuffer`, lines are stored under their own names. -/
theorem keyedBy_foldl_storeLine (p : HttpParser κ) (hcur : p.currentBuffer = [])
    (ls : List HeaderLine) :
    KeyedBy p.data.headers (ls.foldl storeLine p).data.headers (ls.map HeaderLine.name) := by
  induction ls generalizing p with
  | nil => rfl
  | cons l ls ih =>
    refine ⟨p.currentBuffer1 ++ l.value, ?_⟩
    have hrest := ih (p.storeLine l) rfl
    rwa [show (p.storeLine l).data.headers = p.data.headers.insert l.name
      (p.currentBuffer1 ++ l.value) by rw [storeLine, hcur, List.nil_append]] at hrest

/-- Lines touch neither the body nor what the callbacks saw. -/
theorem frame_foldl_storeLine (p : HttpParser κ) (ls : List HeaderLine) :
    (ls.foldl storeLine p).data.body = p.data.body ∧ (ls.foldl storeLine p).headed = p.headed
      ∧ (ls.foldl storeLine p).delivered = p.delivered := by
  induction ls generalizing p with
  | nil => exact ⟨rfl, rfl, rfl⟩
  | cons l ls ih => exact ih (p.storeLine l)

variable [Inhabited κ]

/-- The parser when the headers of a message are complete. -/
def headDone (p : HttpParser κ) (m : Message κ) : HttpParser κ :=
  (m.lines.foldl storeLine (p.started m)).onHeadersComplete m.major m.minor

/-- The parser when its trailers have been stored. -/
def trailersDone (p : HttpParser κ) (m : Message κ) : HttpParser κ :=
  m.trailers.foldl storeLine ((p.headDone m).collect m.body)

theorem run_events_eq (p : HttpParser κ) (hcur : p.currentBuffer = []) (m : Message κ) :
    run advance p m.events = (p.trailersDone m).onMessageComplete := by
  rw [Message.events, run_append, run_append, run_append, run_headEvents p m hcur,
    run_bodyEvents, run_trailerEvents]
  rfl

theorem headDone_spec (p : HttpParser κ) (m : Message κ) :
    (p.headDone m).currentBuffer = [] ∧ (p.headDone m).data.body = []
      ∧ (p.headDone m).headed = p.headed ++ [(p.headDone m).data]
      ∧ (p.headDone m).delivered = p.delivered := by
  obtain ⟨hbody, hheaded, hdel⟩ := frame_foldl_storeLine (p.started m) m.lines
  refine ⟨currentBuffer_foldl_storeLine _ (.inl rfl), hbody, ?_, hdel⟩
  show (m.lines.foldl storeLine (p.started m)).headed ++ _ = _
  rw [hheaded]
  rfl

/-- **The delivered message keeps its body exactly when no trailer line took it.** -/
theorem body_trailersDone (p : HttpParser κ) (m : Message κ) :
    (p.trailersDone m).currentBuffer = m.body ↔ m.trailers = [] ∨ m.body = [] := by
  have hcollect : ((p.headDone m).collect m.body).currentBuffer = m.body := by
    rw [collect, (p.headDone_spec m).1, List.nil_append]
  by_cases htr : m.trailers = []
  · rw [trailersDone, htr, List.foldl_nil, hcollect]
    exact iff_of_true rfl (.inl rfl)
  · rw [trailersDone, currentBuffer_foldl_storeLine _ (.inr htr), or_iff_right htr]
    exact eq_comm

/-- The trailers keep their names when there is no body to take. -/
theorem keyedBy_trailersDone (p : HttpParser κ) (m : Message κ)
    (h : m.trailers = [] ∨ m.body = []) :
    KeyedBy (p.headDone m).data.headers (p.trailersDone m).data.headers
      (m.trailers.map HeaderLine.name) := by
  rcases h with htr | hbody
  · rw [trailersDone, htr]
    rfl
  · refine keyedBy_foldl_storeLine ((p.headDone m).collect m.body) ?_ m.trailers
    rw [collect, (p.headDone_spec m).1, hbody, List.nil_append]

/-- **One message is faithful exactly when it has no trailers or no body.** -/
theorem run_events_faithful (p : HttpParser κ) (hcur : p.currentBuffer = []) (m : Message κ) :
    let q := run advance p m.events
    q.currentBuffer = [] ∧ ∃ seen, q.headed = p.headed ++ [seen.1]
      ∧ q.delivered = p.delivered ++ [seen.2]
      ∧ (m.Faithful seen ↔ m.trailers = [] ∨ m.body = []) := by
  obtain ⟨-, hbody, hheaded, hdel⟩ := p.headDone_spec m
  obtain ⟨hbody', hheaded', hdel'⟩ :=
    frame_foldl_storeLine ((p.headDone m).collect m.body) m.trailers
  rw [run_events_eq p hcur m]
  refine ⟨hbody'.trans hbody,
    ⟨(p.headDone m).data, { (p.trailersDone m).data with body := (p.trailersDone m).currentBuffer }⟩,
    hheaded'.trans hheaded, ?_, ?_⟩
  · show (p.trailersDone m).delivered ++ _ = _
    rw [trailersDone, hdel']
    exact congrArg (· ++ _) hdel
  · rw [Message.Faithful, ← p.body_trailersDone m]
    exact and_iff_left_of_imp fun h => p.keyedBy_trailersDone m ((p.body_trailersDone m).mp h)

/-- What the callbacks see of the messages of a connection, from any parser between two messages. -/
theorem parse_faithful (p : HttpParser κ) (hcur : p.currentBuffer = []) (ms : List (Message κ)) :
    ∃ seen, (p.parse ms).headed = p.headed ++ seen.map Prod.fst
      ∧ (p.parse ms).delivered = p.delivered ++ seen.map Prod.snd
      ∧ (List.Forall₂ Message.Faithful ms seen ↔ ∀ m ∈ ms, m.trailers = [] ∨ m.body = []) := by
  induction ms generalizing p with
  | nil => exact ⟨[], by simp [parse]⟩
  | cons m ms ih =>
    obtain ⟨hcur', s, hheaded, hdel, hs⟩ := run_events_faithful p hcur m
    obtain ⟨seen, hheaded', hdel', hseen⟩ := ih _ hcur'
    refine ⟨s :: seen, ?_, ?_, ?_⟩
    · rw [parse, List.flatMap_cons, run_append, ← parse, hheaded', hheaded, List.append_assoc]
      rfl
    · rw [parse, List.flatMap_cons, run_append, ← parse, hdel', hdel, List.append_assoc]
      rfl
    · rw [List.forall₂_cons, hs, hseen, List.forall_mem_cons]

/-- **Body fidelity, exactly.**  Over the messages of a connection, every body and every trailer name
is delivered as sent if and only if every message that has trailers has an empty body. -/
theorem faithful_iff (ms : List (Message κ)) :
    List.Forall₂ Message.Faithful ms
        (((new κ).parse ms).headed.zip ((new κ).parse ms).delivered)
      ↔ ∀ m ∈ ms, m.trailers = [] ∨ m.body = [] := by
  obtain ⟨seen, hheaded, hdel, hseen⟩ := parse_faithful (new κ) rfl ms
  rw [← hseen, hheaded, hdel]
  simp [new, List.zip_map']

/-- A chunked request with one chunk and one trailer line. -/
def chunkThenTrailer : Message LlhttpMethod :=
  ⟨.post, [ascii "/"], [.ofBytes (ascii "Transfer-Encoding") (ascii "chunked")], 1, 1,
    .chunked [[ascii "ab"]] [.ofBytes (ascii "T") (ascii "1")]⟩

/-- **A trailer takes the body into its name.**  The chunk `ab` and the trailer `T: 1` are delivered
as an empty body and an entry `abT`. -/
theorem trailer_takes_body :
    ¬ List.Forall₂ Message.Faithful [chunkThenTrailer]
      (((new LlhttpMethod).parse [chunkThenTrailer]).headed.zip
        ((new LlhttpMethod).parse [chunkThenTrailer]).delivered) := by
  intro h
  obtain ⟨seen, rest, hfaithful, -, hseen⟩ := List.forall₂_cons_left_iff.mp h
  have hempty : some [] = some seen.2.body := congrArg (fun l => l.head?.map (·.2.body)) hseen
  rw [hfaithful.1] at hempty
  exact absurd (Option.some.inj hempty) (by decide)

end HttpParser
