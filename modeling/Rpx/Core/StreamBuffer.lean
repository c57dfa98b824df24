import Rpx.Core.Bytes

/-!
# Core/StreamBuffer — the block, the four pointers and the copies

`StreamBuffer` is one allocated block `[_data, _end)` with the pointers `_head` and `_tail` into it,
kept here as offsets from `_data`.  A copy is checked: `none` is a copy that reads or writes a byte
outside the block (or an assertion that fails), from where on the program's behaviour is undefined.
Sizes are below `2^31`, so the source's `int` and `size_t` hold the same numbers.
-/

/-- One byte of a block; `none` until something is written to it. -/
abbrev Cell := Option UInt8

/-- An output or input buffer. -/
structure StreamBuffer where
  /-- The bytes of `[_data, _end)`. -/
  block : List Cell
  /-- `_head - _data`. -/
  head : ℕ
  /-- `_tail - _data`. -/
  tail : ℕ
  /-- `_headRoom`. -/
  headRoom : ℕ
  deriving DecidableEq, Repr

namespace StreamBuffer

/-- `new char[n]`. -/
def alloc (n : ℕ) : List Cell := List.replicate n none

/-- The bytes at `[lo, hi)` of a block, when the range lies inside it. -/
def load (block : List Cell) (lo hi : ℕ) : Option (List Cell) :=
  if lo ≤ hi ∧ hi ≤ block.length then some ((block.take hi).drop lo) else none

/-- The block with `cs` written at `dst`, when they fit inside it. -/
def store (block : List Cell) (dst : ℕ) (cs : List Cell) : Option (List Cell) :=
  if dst + cs.length ≤ block.length then
    some (block.take dst ++ cs ++ block.drop (dst + cs.length))
  else none

/-- `StreamBuffer(n, headRoom)`. -/
def new (n headRoom : ℕ) : StreamBuffer where
  block := alloc n
  head := headRoom
  tail := headRoom
  headRoom := headRoom

variable (b : StreamBuffer)

def capacity : ℕ := b.block.length

def headCapacity : ℕ := b.head

def endCapacity : ℕ := b.capacity - b.tail

def size : ℕ := b.tail - b.head

def isEmpty : Bool := b.head == b.tail

/-- `[_head, _tail)`. -/
def contents : List Cell := (b.block.take b.tail).drop b.head

/-- Moves the contents into a fresh block of `n` bytes, at the head offset they had. -/
def upResize (n : ℕ) : Option StreamBuffer := do
  let newHead := b.headCapacity
  let held ← load b.block b.head b.tail
  let block ← store (alloc n) newHead held
  return { b with block := block, head := newHead, tail := newHead + b.size }

/-- Moves the contents down to the head room. -/
def alignLeft : Option StreamBuffer := do
  let newHead := b.headRoom
  let held ← load b.block b.head b.tail
  let block ← store b.block newHead held
  return { b with block := block, head := newHead, tail := newHead + b.size }

/-- The block `append` copies into, for `len` more bytes. -/
def reserve (len : ℕ) : Option StreamBuffer :=
  let endRoom := b.endCapacity
  let headRoom := b.headCapacity
  if headRoom > b.headRoom then
    if len > headRoom - b.headRoom + endRoom then
      b.upResize (b.headRoom + b.size + len)
    else
      b.alignLeft
  else if len > endRoom then
    b.upResize (b.headRoom + b.size + len)
  else
    some b

def append (data : Bytes) : Option StreamBuffer := do
  let b ← b.reserve data.length
  let block ← store b.block b.tail (data.map some)
  return { b with block := block, tail := b.tail + data.length }

/-- The size of `extraBuf`. -/
def extraBufSize : ℕ := 65536

/-- `readFd(fd)` when `readv` gives `bs`: it fills the room behind the contents first, then `extraBuf`,
and can give no more. -/
def readFd (bs : Bytes) : Option StreamBuffer := do
  let room := b.endCapacity
  if bs.length ≤ room + extraBufSize then
    let block ← store b.block b.tail ((bs.take room).map some)
    let b := { b with block := block }
    let extraLen := bs.length - room
    if extraLen > 0 then
      let b ← { b with tail := b.tail + room }.upResize (b.capacity + extraLen)
      let block ← store b.block b.tail ((bs.drop room).map some)
      return { b with block := block, tail := b.tail + extraLen }
    else
      return { b with tail := b.tail + bs.length }
  else none

/-- `popFront(n)`, with its assertion. -/
def popFront (n : ℕ) : Option StreamBuffer :=
  if n ≤ b.size then
    if n = b.size then
      some { b with head := b.headRoom, tail := b.headRoom }
    else
      some { b with head := b.head + n }
  else none

/-- `popFront()`. -/
def popFrontAll : StreamBuffer := { b with head := b.headRoom, tail := b.headRoom }

end StreamBuffer
