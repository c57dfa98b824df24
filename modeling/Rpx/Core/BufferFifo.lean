import Rpx.Core.StreamBuffer
import Rpx.Machinery.Fifo
import Rpx.Machinery.Run

/-!
# Core/BufferFifo — the output buffer as a byte queue

    _data ≤ _data + _headRoom ≤ _head ≤ _tail ≤ _end,      [_head, _tail) = pushed − popped

`append` keeps this while it finds room or a head at the head room.  When it must grow a block whose
front has been popped in part, `upResize` keeps the old head offset inside a block sized for the
head room, and the copy that follows runs past `_end`: `WellFormed.append_eq_none` is that case, and
`refines_iff_fits` says that along a run nothing else goes wrong.
-/

open Machinery

namespace StreamBuffer

variable {b b' : StreamBuffer} {block : List Cell} {cs : List Cell} {lo dst hi n : ℕ}

/-! ## Copies -/

/-- **The order of the pointers.** -/
structure WellFormed (b : StreamBuffer) : Prop where
  headRoom_le : b.headRoom ≤ b.head
  head_le : b.head ≤ b.tail
  tail_le : b.tail ≤ b.capacity

theorem load_eq_some (hlo : lo ≤ hi) (hhi : hi ≤ block.length) :
    load block lo hi = some ((block.take hi).drop lo) := if_pos ⟨hlo, hhi⟩

theorem store_eq_some (h : dst + cs.length ≤ block.length) :
    store block dst cs = some (block.take dst ++ cs ++ block.drop (dst + cs.length)) := if_pos h

theorem store_eq_none (h : block.length < dst + cs.length) : store block dst cs = none :=
  if_neg (by omega)

theorem WellFormed.load_eq (h : b.WellFormed) : load b.block b.head b.tail = some b.contents :=
  load_eq_some h.head_le h.tail_le

theorem WellFormed.length_contents (h : b.WellFormed) : b.contents.length = b.size := by
  have := h.tail_le
  simp only [contents, List.length_drop, List.length_take, size, capacity] at *
  omega

/-- A written block has the length it had. -/
theorem length_stored (h : dst + cs.length ≤ block.length) :
    (block.take dst ++ cs ++ block.drop (dst + cs.length)).length = block.length := by
  simp only [List.length_append, List.length_take, List.length_drop]
  omega

/-- **Reading back across a write**: what lay before it, then what was written. -/
theorem slice_stored (lo : ℕ) (hlo : lo ≤ dst) (h : dst + cs.length ≤ block.length) :
    ((block.take dst ++ cs ++ block.drop (dst + cs.length)).take (dst + cs.length)).drop lo
      = (block.take dst).drop lo ++ cs := by
  have hlen : (block.take dst ++ cs).length = dst + cs.length := by
    rw [List.length_append, List.length_take]
    omega
  rw [← hlen, List.take_left, List.drop_append_of_le_length (by rw [List.length_take]; omega)]

/-! ## Moving the contents -/

/-- What a move of the contents keeps, and where it puts them. -/
structure Moved (b b' : StreamBuffer) (head cap : ℕ) : Prop where
  head_eq : b'.head = head
  tail_eq : b'.tail = head + b.size
  capacity_eq : b'.capacity = cap
  headRoom_eq : b'.headRoom = b.headRoom
  contents_eq : b'.contents = b.contents

/-- Copying the contents to `dst` of a block they fit in. -/
theorem WellFormed.moved (h : b.WellFormed) (block : List Cell) (dst : ℕ)
    (hfit : dst + b.size ≤ block.length) :
    ∃ block', store block dst b.contents = some block' ∧
      Moved b { b with block := block', head := dst, tail := dst + b.size } dst block.length := by
  rw [← h.length_contents] at hfit ⊢
  refine ⟨_, store_eq_some hfit, rfl, by simp only [h.length_contents], length_stored hfit, rfl, ?_⟩
  simpa [contents] using slice_stored dst le_rfl hfit

/-- **`upResize` moves the contents to the same offset of a block of `n` bytes.** -/
theorem WellFormed.upResize_spec (h : b.WellFormed) (hfit : b.head + b.size ≤ n) :
    ∃ b', b.upResize n = some b' ∧ Moved b b' b.head n := by
  have hlen : (alloc n).length = n := by simp [alloc]
  obtain ⟨block', hstore, hmoved⟩ := h.moved (alloc n) b.head (by omega)
  rw [hlen] at hmoved
  exact ⟨_, by simp [upResize, headCapacity, h.load_eq, hstore], hmoved⟩

/-- **`alignLeft` moves the contents down to the head room.** -/
theorem WellFormed.alignLeft_spec (h : b.WellFormed) :
    ∃ b', b.alignLeft = some b' ∧ Moved b b' b.headRoom b.capacity := by
  have hfit : b.headRoom + b.size ≤ b.block.length := by
    have := h.headRoom_le
    have := h.head_le
    have := h.tail_le
    simp only [size, capacity] at *
    omega
  obtain ⟨block', hstore, hmoved⟩ := h.moved b.block b.headRoom hfit
  exact ⟨_, by simp [alignLeft, h.load_eq, hstore], hmoved⟩

/-! ## Append -/

/-- **Where `append` has room**: nothing has been popped from the front since the head room was
last restored, or the contents and the new bytes fit in the block from the head room on. -/
def Fits (b : StreamBuffer) (len : ℕ) : Prop :=
  b.head = b.headRoom ∨ b.headRoom + b.size + len ≤ b.capacity

instance (b : StreamBuffer) (len : ℕ) : Decidable (b.Fits len) :=
  inferInstanceAs (Decidable (_ ∨ _))

/-- The block `append` copies into holds the old contents and has room for the new bytes. -/
theorem WellFormed.reserve_spec (h : b.WellFormed) {len : ℕ} (hfits : b.Fits len) :
    ∃ b', b.reserve len = some b' ∧ b'.WellFormed ∧ b'.headRoom = b.headRoom ∧
      b'.contents = b.contents ∧ b'.tail + len ≤ b'.capacity := by
  obtain ⟨hroom, htail, hend⟩ := h
  by_cases hpopped : b.headCapacity > b.headRoom
  · have hfit : b.headRoom + b.size + len ≤ b.capacity :=
      hfits.resolve_left (by simp only [headCapacity] at hpopped; omega)
    have hlen : ¬ len > b.headCapacity - b.headRoom + b.endCapacity := by
      simp only [size, headCapacity, endCapacity] at *
      omega
    obtain ⟨b', hb', hmoved⟩ := WellFormed.alignLeft_spec ⟨hroom, htail, hend⟩
    refine ⟨b', by rw [reserve, if_pos hpopped, if_neg hlen, hb'], ⟨?_, ?_, ?_⟩,
      hmoved.headRoom_eq, hmoved.contents_eq, ?_⟩ <;>
    · simp only [hmoved.headRoom_eq, hmoved.head_eq, hmoved.tail_eq, hmoved.capacity_eq]
      omega
  · have hhead : b.head = b.headRoom := by simp only [headCapacity] at hpopped; omega
    by_cases hlen : len > b.endCapacity
    · obtain ⟨b', hb', hmoved⟩ := WellFormed.upResize_spec ⟨hroom, htail, hend⟩
        (n := b.headRoom + b.size + len) (by omega)
      refine ⟨b', by rw [reserve, if_neg hpopped, if_pos hlen, hb'], ⟨?_, ?_, ?_⟩,
        hmoved.headRoom_eq, hmoved.contents_eq, ?_⟩ <;>
      · simp only [hmoved.headRoom_eq, hmoved.head_eq, hmoved.tail_eq, hmoved.capacity_eq]
        omega
    · refine ⟨b, by rw [reserve, if_neg hpopped, if_neg hlen], ⟨hroom, htail, hend⟩, rfl, rfl, ?_⟩
      simp only [endCapacity] at hlen
      omega

/-- **`append` puts its bytes behind the contents.** -/
theorem WellFormed.append_spec (h : b.WellFormed) {data : Bytes} (hfits : b.Fits data.length) :
    ∃ b', b.append data = some b' ∧ b'.WellFormed ∧ b'.contents = b.contents ++ data.map some := by
  obtain ⟨r, hr, hwf, -, hcontents, hend⟩ := h.reserve_spec hfits
  have hfit : r.tail + (data.map some).length ≤ r.block.length := by simpa [capacity] using hend
  let stored := r.block.take r.tail ++ data.map some
    ++ r.block.drop (r.tail + (data.map some).length)
  refine ⟨{ r with block := stored, tail := r.tail + data.length }, ?_,
    ⟨hwf.headRoom_le, hwf.head_le.trans (Nat.le_add_right _ _), ?_⟩, ?_⟩
  · simp only [append, hr, Option.bind_eq_bind, Option.bind_some, store_eq_some hfit]
    rfl
  · simpa only [capacity, stored, length_stored hfit] using hend
  · have hslice := slice_stored r.head hwf.head_le hfit
    rw [← hcontents]
    simpa only [contents, stored, List.length_map] using hslice

/-- **Growing a block whose front was popped in part runs past its end.** -/
theorem WellFormed.append_eq_none (h : b.WellFormed) {data : Bytes} (hfits : ¬ b.Fits data.length) :
    b.append data = none := by
  obtain ⟨hhead, hcap⟩ := not_or.mp hfits
  have hroom := h.headRoom_le
  have htail := h.head_le
  have hend := h.tail_le
  have hpopped : b.headCapacity > b.headRoom := by simp only [headCapacity]; omega
  have hlen : data.length > b.headCapacity - b.headRoom + b.endCapacity := by
    simp only [size, headCapacity, endCapacity] at *
    omega
  obtain ⟨r, hr, hmoved⟩ := h.upResize_spec (n := b.headRoom + b.size + data.length) (by
    simp only [headCapacity] at hlen
    omega)
  have hover : r.block.length < r.tail + (data.map some).length := by
    have := hmoved.capacity_eq
    simp only [capacity] at this
    simp only [this, hmoved.tail_eq, List.length_map]
    omega
  simp [append, reserve, hpopped, hlen, hr, store_eq_none hover]

/-! ## Popping -/

theorem WellFormed.restored (h : b.WellFormed) :
    b.popFrontAll.WellFormed ∧ b.popFrontAll.contents = [] := by
  have := h.headRoom_le.trans (h.head_le.trans h.tail_le)
  refine ⟨⟨le_rfl, le_rfl, this⟩, ?_⟩
  simp [contents, popFrontAll]

theorem WellFormed.popFront_spec (h : b.WellFormed) (hn : n ≤ b.size) :
    ∃ b', b.popFront n = some b' ∧ b'.WellFormed ∧ b'.contents = b.contents.drop n := by
  by_cases hall : n = b.size
  · refine ⟨b.popFrontAll, by rw [popFront, if_pos hn, if_pos hall]; rfl, h.restored.1, ?_⟩
    rw [h.restored.2, List.drop_eq_nil_of_le (h.length_contents.trans_le hall.ge)]
  · refine ⟨{ b with head := b.head + n }, by rw [popFront, if_pos hn, if_neg hall],
      ⟨h.headRoom_le.trans (Nat.le_add_right _ _), ?_, h.tail_le⟩, ?_⟩
    · have := h.head_le
      simp only [size] at hn
      change b.head + n ≤ b.tail
      omega
    · simp only [contents, List.drop_drop]

/-! ## Runs -/

/-- A call on an output buffer. -/
inductive Op
  | append (data : Bytes)
  | popFront (n : ℕ)
  | popFrontAll
  deriving DecidableEq, Repr

/-- What a call does to the buffer. -/
def call (b : StreamBuffer) : Op → Option StreamBuffer
  | .append data => b.append data
  | .popFront n => b.popFront n
  | .popFrontAll => some b.popFrontAll

/-- What the call means for a byte queue. -/
def Op.onFifo (q : Fifo UInt8) : Op → Fifo UInt8
  | .append data => q.push data
  | .popFront n => q.pop n
  | .popFrontAll => q.pop q.held.length

/-- The buffer and the queue it stands for, moving together. -/
def beside (s : Option StreamBuffer × Fifo UInt8) (op : Op) : Option StreamBuffer × Fifo UInt8 :=
  (lift call s.1 op, op.onFifo s.2)

/-- **The buffer stands for the queue**: no copy has left the block, the pointers are in order, and
the contents are exactly the bytes the queue holds. -/
def Refines (s : Option StreamBuffer × Fifo UInt8) : Prop :=
  ∃ b, s.1 = some b ∧ b.WellFormed ∧ b.contents = s.2.held.map some

/-- The callers' side: no more is popped than is there. -/
def PopsHeld (s : Option StreamBuffer × Fifo UInt8) : Op → Prop
  | .popFront n => ∀ b ∈ s.1, n ≤ b.size
  | _ => True

/-- Every `append` has room in the sense of `Fits`. -/
def AppendFits (s : Option StreamBuffer × Fifo UInt8) : Op → Prop
  | .append data => ∀ b ∈ s.1, b.Fits data.length
  | _ => True

instance (s : Option StreamBuffer × Fifo UInt8) : DecidablePred (PopsHeld s)
  | .popFront n => inferInstanceAs (Decidable (∀ b ∈ s.1, n ≤ b.size))
  | .append _ => .isTrue trivial
  | .popFrontAll => .isTrue trivial

theorem WellFormed.new {headRoom : ℕ} (h : headRoom ≤ n) : (new n headRoom).WellFormed :=
  ⟨le_rfl, le_rfl, by simpa [StreamBuffer.new, capacity, alloc] using h⟩

/-- **One call keeps the refinement exactly when it has room.** -/
theorem refines_beside_iff (s : Option StreamBuffer × Fifo UInt8) (op : Op) (h : Refines s)
    (hop : PopsHeld s op) : Refines (beside s op) ↔ AppendFits s op := by
  obtain ⟨o, q⟩ := s
  obtain ⟨b, rfl, hwf, hcontents⟩ := h
  change b.contents = q.held.map some at hcontents
  cases op with
  | append data =>
    simp only [AppendFits, Option.mem_def, Option.some.injEq, forall_eq']
    constructor
    · rintro ⟨b', hb', -⟩
      by_contra hfits
      simp [beside, call, hwf.append_eq_none hfits] at hb'
    · intro hfits
      obtain ⟨b', hb', hwf', hcontents'⟩ := hwf.append_spec hfits
      refine ⟨b', by simpa [beside, call] using hb', hwf', ?_⟩
      simp [hcontents', beside, Op.onFifo, hcontents]
  | popFront n =>
    obtain ⟨b', hb', hwf', hcontents'⟩ := hwf.popFront_spec (hop b rfl)
    refine iff_of_true ⟨b', by simpa [beside, call] using hb', hwf', ?_⟩ trivial
    simp [hcontents', beside, Op.onFifo, hcontents, List.map_drop]
  | popFrontAll =>
    refine iff_of_true ⟨b.popFrontAll, rfl, hwf.restored.1, ?_⟩ trivial
    simp [hwf.restored.2, beside, Op.onFifo]

/-- **The output buffer is a byte queue, run by run, exactly as long as no `append` grows a block
whose front was popped in part.** -/
theorem refines_iff_fits (n headRoom : ℕ) (h : headRoom ≤ n) (ops : List Op)
    (hops : Meets beside PopsHeld (some (new n headRoom), Fifo.empty) ops) :
    (∀ done, done <+: ops → Refines (run beside (some (new n headRoom), Fifo.empty) done))
      ↔ Meets beside AppendFits (some (new n headRoom), Fifo.empty) ops := by
  have hstart : Refines (some (new n headRoom), Fifo.empty) :=
    ⟨_, rfl, WellFormed.new h, by simp [contents, new, Fifo.empty]⟩
  exact forall_prefix_iff refines_beside_iff hstart hops

/-- A queue that is filled, popped and realigned: the refinement at every point of the run comes down to
the room each `append` finds. -/
theorem refines_iff_fits_realigned :
    (∀ done, done <+: [.append [1, 2, 3], .popFront 2, .append [4, 5], .popFrontAll] →
        Refines (run beside (some (new 4 0), Fifo.empty) done))
      ↔ Meets beside AppendFits (some (new 4 0), Fifo.empty)
          [.append [1, 2, 3], .popFront 2, .append [4, 5], .popFrontAll] :=
  refines_iff_fits 4 0 (by decide) _ (by decide)

/-- **A full block, popped by one byte and asked for two more, is overrun**: `upResize` allocates
the five bytes that the contents and the new bytes need, and leaves the contents at offset one. -/
theorem not_refines_grown :
    Meets beside PopsHeld (some (new 4 0), Fifo.empty)
        [.append [1, 2, 3, 4], .popFront 1, .append [5, 6]] ∧
      ¬ Refines (run beside (some (new 4 0), Fifo.empty)
        [.append [1, 2, 3, 4], .popFront 1, .append [5, 6]]) := by
  refine ⟨by decide, ?_⟩
  rintro ⟨b, hb, -⟩
  have hnone : (run beside (some (new 4 0), Fifo.empty)
      [.append [1, 2, 3, 4], .popFront 1, .append [5, 6]]).1 = none := by decide
  exact Option.some_ne_none b (hb.symm.trans hnone)

end StreamBuffer
