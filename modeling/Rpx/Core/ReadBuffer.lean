import Rpx.Core.BufferFifo

/-!
# Core/ReadBuffer — the input buffer, and what `readFd` leaves in it

    [_head, _tail)  ──readv──▶  [_head, _end) + extraBuf  ──upResize──▶  [_head, _tail')

`readv` writes into the room behind the contents and spills into `extraBuf`; what has spilled is copied
behind the rest once the block has grown by as much.  `readFd_spec` says that the bytes of the socket
follow the contents, spilled or not.
-/

namespace StreamBuffer

variable {b : StreamBuffer} {bs : Bytes}

/-- Bytes written into the room behind the contents follow them. -/
theorem WellFormed.fill (h : b.WellFormed) (hbs : bs.length ≤ b.endCapacity) :
    ∃ block, store b.block b.tail (bs.map some) = some block
      ∧ WellFormed { b with block := block, tail := b.tail + bs.length }
      ∧ contents { b with block := block, tail := b.tail + bs.length } = b.contents ++ bs.map some
      ∧ block.length = b.block.length := by
  have htail := h.tail_le
  have hfit : b.tail + (bs.map some).length ≤ b.block.length := by
    simp only [List.length_map, endCapacity, capacity] at *
    omega
  have hlength := length_stored hfit
  have hslice := slice_stored b.head h.head_le hfit
  refine ⟨_, store_eq_some hfit, ⟨h.headRoom_le, h.head_le.trans (Nat.le_add_right _ _), ?_⟩, ?_, hlength⟩
  · show b.tail + bs.length ≤ List.length _
    rw [hlength]
    simpa only [List.length_map] using hfit
  · simpa only [contents, List.length_map] using hslice

/-- **A full block grows by what has spilled**, and takes it. -/
theorem WellFormed.spill (h : b.WellFormed) (hfull : b.tail = b.capacity) (bs : Bytes) :
    ∃ r block, b.upResize (b.capacity + bs.length) = some r
      ∧ store r.block r.tail (bs.map some) = some block
      ∧ r.head = b.head ∧ r.headRoom = b.headRoom
      ∧ WellFormed { r with block := block, tail := r.tail + bs.length }
      ∧ contents { r with block := block, tail := r.tail + bs.length } = b.contents ++ bs.map some
      ∧ block.length = b.capacity + bs.length := by
  have hhead := h.head_le
  have hsize : b.head + b.size = b.capacity := by
    simp only [size]
    omega
  obtain ⟨r, hresize, hmoved⟩ := h.upResize_spec (hsize.trans_le (Nat.le_add_right _ bs.length))
  have htail : r.tail = b.capacity := hmoved.tail_eq.trans hsize
  have hcap : r.capacity = b.capacity + bs.length := hmoved.capacity_eq
  have hr : r.WellFormed := by
    refine ⟨?_, ?_, ?_⟩
    · rw [hmoved.headRoom_eq, hmoved.head_eq]
      exact h.headRoom_le
    · rw [hmoved.head_eq, htail]
      omega
    · rw [htail, hcap]
      exact Nat.le_add_right _ _
  have hroom : bs.length ≤ r.endCapacity := by
    rw [endCapacity, htail, hcap, Nat.add_sub_cancel_left]
  obtain ⟨block, hstore, hwf, hcontents, hlength⟩ := hr.fill hroom
  exact ⟨r, block, hresize, hstore, hmoved.head_eq, hmoved.headRoom_eq, hwf,
    hmoved.contents_eq ▸ hcontents, hlength.trans hcap⟩

/-- **`readFd` puts the bytes of the socket behind the contents**, and the block grows by what would
not fit. -/
theorem WellFormed.readFd_spec (h : b.WellFormed) (hbs : bs.length ≤ b.endCapacity + extraBufSize) :
    ∃ b', b.readFd bs = some b' ∧ b'.WellFormed ∧ b'.head = b.head ∧ b'.headRoom = b.headRoom
      ∧ b'.contents = b.contents ++ bs.map some ∧ b'.capacity = max b.capacity (b.tail + bs.length) := by
  have hend : b.tail + b.endCapacity = b.capacity := Nat.add_sub_cancel' h.tail_le
  have hroom : (bs.take b.endCapacity).length ≤ b.endCapacity := List.length_take_le _ _
  obtain ⟨block, hstore, hwf, hcontents, hlength⟩ := h.fill hroom
  by_cases hextra : bs.length - b.endCapacity > 0
  · have htaken : (bs.take b.endCapacity).length = b.endCapacity := by
      rw [List.length_take]
      omega
    rw [htaken] at hwf hcontents
    have hcap : block.length = b.capacity := hlength
    obtain ⟨r, last, hresize, hlast, hhead, hheadRoom, hwf', hcontents', hlength'⟩ :=
      hwf.spill (hend.trans hcap.symm) (bs.drop b.endCapacity)
    rw [List.length_drop] at hresize hwf' hcontents' hlength'
    refine ⟨{ r with block := last, tail := r.tail + (bs.length - b.endCapacity) }, ?_, hwf', hhead,
      hheadRoom, ?_, ?_⟩
    · rw [readFd]
      simp only [if_pos hbs, hstore, Option.bind_eq_bind, Option.bind_some, if_pos hextra]
      exact (congrArg (Option.bind · _) hresize).trans (congrArg (Option.bind · _) hlast)
    · rw [hcontents', hcontents, List.append_assoc, ← List.map_append, List.take_append_drop]
    · have hlast_length : last.length = block.length + (bs.length - b.endCapacity) := hlength'
      show last.length = _
      rw [hlast_length, hcap]
      omega
  · have hall : bs.take b.endCapacity = bs := List.take_of_length_le (by omega)
    rw [hall] at hstore hwf hcontents
    refine ⟨{ b with block := block, tail := b.tail + bs.length }, ?_, hwf, rfl, rfl, hcontents, ?_⟩
    · rw [readFd]
      simp only [if_pos hbs, hall, hstore, Option.bind_eq_bind, Option.bind_some, if_neg hextra]
      rfl
    · have hcap : block.length = b.capacity := hlength
      show block.length = _
      rw [hcap]
      omega

end StreamBuffer
