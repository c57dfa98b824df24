import Rpx.Core.TcpConnection
import Rpx.Machinery.Fifo
import Rpx.Machinery.Run

/-!
# Core/ByteStream — the bytes of a connection, from `write()` to the kernel

    handed to the kernel ++ _writeBuffer  =  what write() accepted

The left side grows by `carried`, what a call really moves; the right side by `counted`, the data of
a call that returned a non-negative value.  The two part only where `write()` finds output pending
and copies from `data + written` with `written` never assigned, or where its length does not fit the
`int` it returns.  Once they have parted they stay apart, so `stream_eq_accepted_iff` reads the last
state of a run.
-/

open Machinery

/-- A connection, what the kernel took from it and what `write()` accepted for it. -/
structure Traffic where
  conn : TcpConnection
  /-- The bytes handed to the kernel, in order. -/
  kernel : Bytes
  /-- The data of the `write()` calls that returned a non-negative value, in call order. -/
  accepted : Bytes

/-- What happens on the output side of a connection. -/
inductive IoEvent
  /-- `write(data, len)`, with what the uninitialised `written` holds and the kernel's answer. -/
  | write (data : Pointer) (len : ℕ) (junk : ℤ) (answer : WriteAnswer)
  /-- A dispatch of `handleWrite`, under the events the poll reported. -/
  | handleWrite (events : EpollMask) (answer : WriteAnswer)

namespace Traffic

/-- A connection no byte of which has reached the kernel yet. -/
def start (c : TcpConnection) : Traffic := ⟨c, [], c.writeBuffer⟩

/-- One event on the output side. -/
def step (w : Traffic) : IoEvent → Traffic
  | .write data len junk answer =>
    let (rv, out) := w.conn.write data len junk answer
    { conn := out.conn
      kernel := w.kernel ++ out.sent
      accepted := if rv < 0 then w.accepted else w.accepted ++ data.read 0 len }
  | .handleWrite events answer =>
    let out := { w.conn with channel := w.conn.channel.setEvents events }.handleWrite answer
    { w with conn := out.conn, kernel := w.kernel ++ out.sent }

/-- Everything on its way: handed to the kernel, then buffered. -/
def stream (w : Traffic) : Bytes := w.kernel ++ w.conn.writeBuffer

@[simp] theorem stream_start (c : TcpConnection) : (start c).stream = c.writeBuffer := rfl

end Traffic

/-! ## What a call moves -/

namespace TcpConnection

variable (c : TcpConnection) (data : Pointer) (len : ℕ) (junk : ℤ) (answer : WriteAnswer)

/-- The bytes a `write()` puts on their way. -/
def carried : Bytes :=
  if c.pending then data.read junk len else if answer = .fails .other then [] else data.read 0 len

/-- **A `write()` puts exactly `carried` on its way**, whatever the kernel answers. -/
theorem write_stream :
    (c.write data len junk answer).2.sent ++ (c.write data len junk answer).2.conn.writeBuffer
      = c.writeBuffer ++ c.carried data len junk answer := by
  by_cases hp : c.pending
  · rw [c.write_of_pending hp, carried, if_pos hp]
    simp [quiet]
  · have hp' : c.pending = false := by simpa using hp
    have hempty : c.writeBuffer = [] := (c.not_pending_iff.mp hp').2
    rw [c.write_of_not_pending hp', carried, if_neg hp, hempty]
    cases answer with
    | fails e => cases e <;> simp [WriteAnswer.result, quiet, hempty]
    | takes room =>
      simp only [WriteAnswer.result, reduceCtorEq, if_false, List.nil_append]
      split
      · have hall : min room len = len := by omega
        rw [hempty, hall, List.append_nil]
      · simp only [writeBuffer_enqueue, hempty, List.nil_append]
        exact data.read_append_read (Nat.min_le_right room len)

/-- The value `write()` returns. -/
theorem write_value :
    (c.write data len junk answer).1
      = if c.pending = false ∧ answer = .fails .other then -1 else toInt len := by
  by_cases hp : c.pending
  · rw [c.write_of_pending hp, if_neg (by simp [hp])]
  · have hp' : c.pending = false := by simpa using hp
    rw [c.write_of_not_pending hp']
    cases answer with
    | fails e => cases e <;> simp [WriteAnswer.result, hp']
    | takes room =>
      simp only [WriteAnswer.result, reduceCtorEq, and_false, if_false]
      split <;> dsimp only

/-- **A `handleWrite` moves bytes from the buffer to the kernel and loses none.** -/
theorem handleWrite_stream :
    (c.handleWrite answer).sent ++ (c.handleWrite answer).conn.writeBuffer = c.writeBuffer := by
  unfold handleWrite
  split
  · cases answer with
    | fails e => cases e <;> rfl
    | takes room =>
      simp only [WriteAnswer.result]
      split <;> exact List.take_append_drop _ _
  · rfl

/-- **The call that keeps the stream**: it fails at once, or its length fits the `int` it returns
and, when output is pending, the memory at `data + written` holds the very bytes at `data`. -/
def WellRead : Prop :=
  (c.pending = false ∧ answer = .fails .other) ∨
    (0 ≤ toInt len ∧ (c.pending = true → data.read junk len = data.read 0 len))

end TcpConnection

namespace Traffic

open TcpConnection

/-- What an event adds to the stream. -/
def carried (w : Traffic) : IoEvent → Bytes
  | .write data len junk answer => w.conn.carried data len junk answer
  | .handleWrite _ _ => []

/-- What an event adds to the accepted bytes. -/
def counted (w : Traffic) : IoEvent → Bytes
  | .write data len junk answer =>
    if (w.conn.write data len junk answer).1 < 0 then [] else data.read 0 len
  | .handleWrite _ _ => []

/-- The guard of a well-read run. -/
def WellRead (w : Traffic) : IoEvent → Prop
  | .write data len junk answer => w.conn.WellRead data len junk answer
  | .handleWrite _ _ => True

theorem stream_step (w : Traffic) (e : IoEvent) : (w.step e).stream = w.stream ++ w.carried e := by
  cases e with
  | write data len junk answer =>
    simp only [stream, step, carried, List.append_assoc, write_stream]
  | handleWrite events answer =>
    simp only [stream, step, carried, List.append_assoc, handleWrite_stream, List.append_nil]

theorem accepted_step (w : Traffic) (e : IoEvent) :
    (w.step e).accepted = w.accepted ++ w.counted e := by
  cases e with
  | write data len junk answer =>
    simp only [step, counted]
    split <;> simp
  | handleWrite events answer => simp [step, counted]

/-- A counted call carries as many bytes as it counts. -/
theorem counted_eq_nil_or_length (w : Traffic) (e : IoEvent) :
    w.counted e = [] ∨ (w.counted e).length = (w.carried e).length := by
  cases e with
  | handleWrite events answer => exact .inl rfl
  | write data len junk answer =>
    simp only [counted, carried, TcpConnection.carried, write_value]
    by_cases hfail : w.conn.pending = false ∧ answer = .fails .other
    · exact .inl (by simp [hfail])
    · rw [if_neg hfail]
      by_cases hneg : toInt len < 0
      · exact .inl (if_pos hneg)
      · right
        rw [if_neg hneg]
        by_cases hp : w.conn.pending
        · simp [hp]
        · have ha : answer ≠ .fails .other := fun ha => hfail ⟨by simpa using hp, ha⟩
          simp [hp, ha]

/-- A length that does not fit the `int` is not zero. -/
theorem ne_zero_of_toInt_neg {n : ℕ} (h : toInt n < 0) : n ≠ 0 := by
  rintro rfl
  rw [toInt_of_lt (by norm_num)] at h
  exact absurd h (by decide)

/-- **One event keeps the two sides together exactly when it is well read.** -/
theorem carried_eq_counted_iff (w : Traffic) (e : IoEvent) :
    w.carried e = w.counted e ↔ w.WellRead e := by
  cases e with
  | handleWrite events answer => exact iff_of_true rfl trivial
  | write data len junk answer =>
    simp only [counted, carried, TcpConnection.carried, write_value, WellRead,
      TcpConnection.WellRead]
    by_cases hfail : w.conn.pending = false ∧ answer = .fails .other
    · simp [hfail]
    · rw [if_neg hfail]
      by_cases hp : w.conn.pending
      · by_cases hneg : toInt len < 0
        · have hne : data.read junk len ≠ [] := fun h =>
            ne_zero_of_toInt_neg hneg (by simpa using congrArg List.length h)
          simp [hp, hneg, hne, hneg.not_ge]
        · simp [hp, hneg, not_lt.mp hneg]
      · have ha : answer ≠ .fails .other := fun ha => hfail ⟨by simpa using hp, ha⟩
        by_cases hneg : toInt len < 0
        · have hne : data.read 0 len ≠ [] := fun h =>
            ne_zero_of_toInt_neg hneg (by simpa using congrArg List.length h)
          simp [hp, ha, hneg, hne, hneg.not_ge]
        · simp [hp, ha, hneg, not_lt.mp hneg]

/-! ## Runs -/

/-- The two sides agree. -/
def Intact (w : Traffic) : Prop := w.stream = w.accepted

theorem intact_start (c : TcpConnection) : (start c).Intact := rfl

/-- An intact connection is a byte queue: `write()` pushes, the kernel pops. -/
def Intact.fifo {w : Traffic} (h : w.Intact) : Fifo UInt8 :=
  ⟨w.accepted, w.kernel, w.conn.writeBuffer, h⟩

/-- What the kernel has is a prefix of what was accepted. -/
theorem Intact.kernel_prefix {w : Traffic} (h : w.Intact) : w.kernel <+: w.accepted :=
  h.fifo.popped_prefix

/-- What was accepted is what the kernel has and what is buffered, in number too. -/
theorem Intact.length_accepted {w : Traffic} (h : w.Intact) :
    w.accepted.length = w.kernel.length + w.conn.writeBuffer.length := by
  rw [← show w.stream = w.accepted from h, stream, List.length_append]

theorem intact_step_iff (w : Traffic) (e : IoEvent) (h : w.Intact) :
    (w.step e).Intact ↔ w.WellRead e := by
  rw [← carried_eq_counted_iff, Intact, stream_step, accepted_step,
    show w.stream = w.accepted from h, List.append_right_inj]

/-- No more is ever accepted than is on its way. -/
theorem length_accepted_step (w : Traffic) (e : IoEvent)
    (h : w.accepted.length ≤ w.stream.length) :
    (w.step e).accepted.length ≤ (w.step e).stream.length := by
  rw [stream_step, accepted_step, List.length_append, List.length_append]
  rcases w.counted_eq_nil_or_length e with hnil | hlen
  · rw [hnil, List.length_nil]
    omega
  · omega

/-- **Sides that have parted stay apart.** -/
theorem not_intact_step (w : Traffic) (e : IoEvent) (hlen : w.accepted.length ≤ w.stream.length)
    (h : ¬ w.Intact) : ¬ (w.step e).Intact := by
  rw [Intact, stream_step, accepted_step]
  intro heq
  rcases w.counted_eq_nil_or_length e with hnil | hsame
  · have hl := congrArg List.length heq
    rw [hnil, List.append_nil, List.length_append] at hl
    have hcarried : w.carried e = [] := List.length_eq_zero_iff.mp (by omega)
    rw [hnil, hcarried, List.append_nil, List.append_nil] at heq
    exact h heq
  · exact h (List.append_inj' heq hsame.symm).1

/-- **Byte-stream integrity, exactly.**  After any run of `write()` calls and `handleWrite` events,
the bytes handed to the kernel followed by the output buffer are the accepted bytes if and only if
every `write()` of the run was well read. -/
theorem stream_eq_accepted_iff (c : TcpConnection) (es : List IoEvent) :
    (run step (start c) es).kernel ++ (run step (start c) es).conn.writeBuffer
        = (run step (start c) es).accepted
      ↔ Meets step WellRead (start c) es := by
  have hlen : Meets step (fun w _ => w.accepted.length ≤ w.stream.length ∧ True) (start c) es :=
    Meets.and_inv (fun w e h _ => length_accepted_step w e h) le_rfl (meets_true _ es)
  exact inv_run_iff (fun w e h _ => intact_step_iff w e h)
    (fun w e h => not_intact_step w e h.1) (intact_start c) hlen

/-- **A second write behind a partial one sends the wrong bytes.**  The kernel takes `1` of `[1, 2]`;
`[3, 4]` is then written while `2` is pending, `written` holds `1`, and the bytes buffered are the
`4` and whatever lies behind it. -/
theorem second_write_misread :
    let es : List IoEvent :=
      [.write (.ofBytes [1, 2] fun _ => 0) 2 0 (.takes 1),
        .write (.ofBytes [3, 4] fun _ => 0) 2 1 (.takes 2)]
    (run step (start .opened) es).kernel ++ (run step (start .opened) es).conn.writeBuffer
      ≠ (run step (start .opened) es).accepted := by
  decide

end Traffic
