import Rpx.Core.InputBuffer

/-!
# Core/BufferInts — the buffers in the integers of the source

    size_t ──toInt──▶ int ──toSize──▶ size_t

`readFd`, `append` and `popFront` keep what they measure of the block in `int`s, and compare these with
`size_t`s.  The definitions here do the same, conversion by conversion.  While the block is smaller than
`2^31` bytes they lose nothing, and each call does what it does in natural numbers (`besideInput_eq`,
`beside_eq`).
-/

open Machinery

namespace StreamBuffer

namespace InInts

/-- The conversion of an `int` to a `size_t`. -/
def toSize (i : ℤ) : ℕ := (i % 2 ^ 64).toNat

/-- The result of an `int` operation; an overflow is undefined. -/
def checked (i : ℤ) : Option ℤ := if -2 ^ 31 ≤ i ∧ i < 2 ^ 31 then some i else none

theorem toSize_of_lt {n : ℕ} (h : n < 2 ^ 31) : toSize n = n := by
  rw [toSize, Int.emod_eq_of_lt (by omega) (by omega), Int.toNat_natCast]

theorem checked_of_lt {n : ℕ} (h : n < 2 ^ 31) : checked n = some (n : ℤ) := if_pos ⟨by omega, by omega⟩

/-! ## The calls -/

/-- `_headRoom + size() + len`. -/
def wanted (b : StreamBuffer) (len : ℕ) : ℕ := (toSize (toInt b.headRoom) + b.size + len) % 2 ^ 64

/-- The block `append` copies into. -/
def reserve (b : StreamBuffer) (len : ℕ) : Option StreamBuffer := do
  let endRoom := toInt b.endCapacity
  let headRoom := toInt b.headCapacity
  if headRoom > toInt b.headRoom then
    let popped ← checked (headRoom - toInt b.headRoom)
    let room ← checked (popped + endRoom)
    if len > toSize room then
      b.upResize (wanted b len)
    else
      b.alignLeft
  else if len > toSize endRoom then
    b.upResize (wanted b len)
  else
    some b

def append (b : StreamBuffer) (data : Bytes) : Option StreamBuffer := do
  let b ← reserve b data.length
  let block ← store b.block b.tail (data.map some)
  return { b with block := block, tail := b.tail + data.length }

/-- `readFd(fd)` when `readv` gives `bs`, which it does not when it is passed a negative length. -/
def readFd (b : StreamBuffer) (bs : Bytes) : Option StreamBuffer := do
  let room := toInt b.endCapacity
  if 0 ≤ room ∧ bs.length ≤ room + extraBufSize then
    let block ← store b.block b.tail ((bs.take room.toNat).map some)
    let b := { b with block := block }
    let extraLen := bs.length - room
    if extraLen > 0 then
      let b ← { b with tail := b.tail + room.toNat }.upResize (b.capacity + extraLen.toNat)
      let block ← store b.block b.tail ((bs.drop room.toNat).map some)
      return { b with block := block, tail := b.tail + extraLen.toNat }
    else
      return { b with tail := b.tail + bs.length }
  else none

/-- `popFront(n)`, with its assertion. -/
def popFront (b : StreamBuffer) (n : ℕ) : Option StreamBuffer :=
  let len := toInt b.size
  if n ≤ toSize len then
    if n = toSize len then
      some { b with head := b.headRoom, tail := b.headRoom }
    else
      some { b with head := b.head + n }
  else none

/-! ## Small blocks -/

variable {b : StreamBuffer}

theorem readFd_eq (hcap : b.capacity < 2 ^ 31) (bs : Bytes) : readFd b bs = b.readFd bs := by
  have hroom : toInt b.endCapacity = b.endCapacity := toInt_of_lt ((Nat.sub_le _ _).trans_lt hcap)
  have hgiven : (0 ≤ (b.endCapacity : ℤ) ∧ (bs.length : ℤ) ≤ b.endCapacity + extraBufSize)
      ↔ bs.length ≤ b.endCapacity + extraBufSize := by omega
  have hextra : (bs.length : ℤ) - b.endCapacity > 0 ↔ bs.length - b.endCapacity > 0 := by omega
  simp only [readFd, StreamBuffer.readFd, hroom, hgiven, hextra, Int.toNat_natCast, Int.toNat_sub]

theorem popFront_eq (h : b.WellFormed) (hcap : b.capacity < 2 ^ 31) (n : ℕ) :
    popFront b n = b.popFront n := by
  have hsize : b.size < 2 ^ 31 := ((Nat.sub_le _ _).trans h.tail_le).trans_lt hcap
  rw [popFront, StreamBuffer.popFront, toInt_of_lt hsize, toSize_of_lt hsize]

theorem reserve_eq (h : b.WellFormed) (hcap : b.capacity < 2 ^ 31) {len : ℕ}
    (hlen : b.headRoom + b.size + len < 2 ^ 31) : reserve b len = b.reserve len := by
  obtain ⟨hroom, htail, hend⟩ := h
  have hendRoom : b.endCapacity < 2 ^ 31 := (Nat.sub_le _ _).trans_lt hcap
  have hhead : b.headCapacity < 2 ^ 31 := (htail.trans hend).trans_lt hcap
  have hheadRoom : b.headRoom < 2 ^ 31 := hroom.trans_lt hhead
  have hwanted : wanted b len = b.headRoom + b.size + len := by
    rw [wanted, toInt_of_lt hheadRoom, toSize_of_lt hheadRoom, Nat.mod_eq_of_lt (by omega)]
  rw [reserve, StreamBuffer.reserve, hwanted, toInt_of_lt hendRoom, toInt_of_lt hhead,
    toInt_of_lt hheadRoom, toSize_of_lt hendRoom]
  by_cases hpopped : b.headCapacity > b.headRoom
  · have hfree : b.headCapacity - b.headRoom + b.endCapacity < 2 ^ 31 := by
      simp only [headCapacity, endCapacity] at *
      omega
    have hsub : (b.headCapacity : ℤ) - b.headRoom = (b.headCapacity - b.headRoom : ℕ) := by omega
    rw [if_pos (by omega), if_pos hpopped, hsub, checked_of_lt (by omega), Option.bind_eq_bind,
      Option.bind_some, ← Nat.cast_add, checked_of_lt hfree, Option.bind_some, toSize_of_lt hfree]
  · rw [if_neg (by omega), if_neg hpopped]

theorem append_eq (h : b.WellFormed) (hcap : b.capacity < 2 ^ 31) {data : Bytes}
    (hlen : b.headRoom + b.size + data.length < 2 ^ 31) : append b data = b.append data := by
  rw [append, StreamBuffer.append, reserve_eq h hcap hlen]

/-! ## Runs -/

/-- What a call does to an input buffer. -/
def inputCall (b : StreamBuffer) : InputOp → Option StreamBuffer
  | .readFd none => some b
  | .readFd (some bs) => readFd b bs
  | .popFront n => popFront b n
  | .popFrontAll => some b.popFrontAll

/-- An input buffer and the queue it stands for. -/
def besideInput (s : Option StreamBuffer × Fifo UInt8) (op : InputOp) : Option StreamBuffer × Fifo UInt8 :=
  (lift inputCall s.1 op, op.onFifo s.2)

/-- What a call does to an output buffer. -/
def call (b : StreamBuffer) : Op → Option StreamBuffer
  | .append data => append b data
  | .popFront n => popFront b n
  | .popFrontAll => some b.popFrontAll

/-- An output buffer and the queue it stands for. -/
def beside (s : Option StreamBuffer × Fifo UInt8) (op : Op) : Option StreamBuffer × Fifo UInt8 :=
  (lift call s.1 op, op.onFifo s.2)

/-- **A call on a small input buffer loses nothing.** -/
theorem besideInput_eq (h : b.WellFormed) (hcap : b.capacity < 2 ^ 31) (q : Fifo UInt8) (op : InputOp) :
    besideInput (some b, q) op = StreamBuffer.besideInput (some b, q) op := by
  have hcall : inputCall b op = StreamBuffer.inputCall b op := by
    cases op with
    | readFd got =>
      cases got with
      | none => rfl
      | some bs => exact readFd_eq hcap bs
    | popFront n => exact popFront_eq h hcap n
    | popFrontAll => rfl
  exact congrArg (·, op.onFifo q) hcall

/-- What an `append` asks the block to hold is small. -/
def Small (b : StreamBuffer) : Op → Prop
  | .append data => b.headRoom + b.size + data.length < 2 ^ 31
  | _ => True

/-- **A call on a small output buffer loses nothing.** -/
theorem beside_eq (h : b.WellFormed) (hcap : b.capacity < 2 ^ 31) (q : Fifo UInt8) {op : Op}
    (hsmall : Small b op) : beside (some b, q) op = StreamBuffer.beside (some b, q) op := by
  have hcall : call b op = StreamBuffer.call b op := by
    cases op with
    | append data => exact append_eq h hcap hsmall
    | popFront n => exact popFront_eq h hcap n
    | popFrontAll => rfl
  exact congrArg (·, op.onFifo q) hcall

end InInts

end StreamBuffer
