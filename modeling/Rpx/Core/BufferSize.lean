import Rpx.Core.BufferInts

/-!
# Core/BufferSize — how large the buffers get

    output:   capacity = max n (_headRoom + the most that was held)
    input:    capacity = max n (_headRoom + the most that was read between two times it was empty)

The block of a buffer never shrinks and is never larger than it had to be.  `append` moves what the
output buffer holds back to the head room before it grows the block, so what was popped costs nothing.
`readFd` does not: until the input buffer is empty, what was popped stays in front of what is held.  A
consumer that always leaves a byte behind makes it grow with all that it ever reads.

The runs are those of `InInts`: from `2^31` bytes on the integers of the source lose what they measure, and
the formulas say how far they can be trusted.
-/

open Machinery

namespace StreamBuffer

/-! ## Levels -/

/-- **What goes through a buffer**, in numbers. -/
structure Level where
  held : ℕ
  /-- What entered it since it was last empty. -/
  since : ℕ
  /-- The most that either bound of the block has had to provide for. -/
  peak : ℕ
  deriving DecidableEq, Repr

namespace Level

def zero : Level := ⟨0, 0, 0⟩

/-- Of an input buffer, the peak of what entered since it was last empty. -/
def input (l : Level) : InputOp → Level
  | .readFd none => l
  | .readFd (some bs) =>
    ⟨l.held + bs.length, l.since + bs.length, max l.peak (l.since + bs.length)⟩
  | .popFront n => ⟨l.held - n, if n = l.held then 0 else l.since, l.peak⟩
  | .popFrontAll => ⟨0, 0, l.peak⟩

/-- Of an output buffer, the peak of what it holds. -/
def output (l : Level) : Op → Level
  | .append data => ⟨l.held + data.length, l.since + data.length, max l.peak (l.held + data.length)⟩
  | .popFront n => ⟨l.held - n, if n = l.held then 0 else l.since, l.peak⟩
  | .popFrontAll => ⟨0, 0, l.peak⟩

end Level

variable {b b' : StreamBuffer} {n headRoom : ℕ} {l : Level}

/-- Popping moves the head, or starts over. -/
theorem popFront_sizes {k : ℕ} (hb' : b.popFront k = some b') :
    b'.headRoom = b.headRoom ∧ b'.size = b.size - k
      ∧ b'.tail = (if k = b.size then b.headRoom else b.tail) := by
  rw [popFront] at hb'
  split at hb'
  · split at hb'
    · rename_i hall
      cases hb'
      rw [if_pos hall, hall, Nat.sub_self]
      exact ⟨rfl, Nat.sub_self _, rfl⟩
    · rename_i hnot
      cases hb'
      rw [if_neg hnot]
      exact ⟨rfl, (Nat.sub_sub _ _ _).symm, rfl⟩
  · cases hb'

/-! ## The input buffer -/

/-- **The block of an input buffer** provides for what was read since it was last empty. -/
structure InputSized (n headRoom : ℕ) (l : Level) (b : StreamBuffer) : Prop where
  wellFormed : b.WellFormed
  headRoom_eq : b.headRoom = headRoom
  size_eq : b.size = l.held
  tail_eq : b.tail = headRoom + l.since
  capacity_eq : b.capacity = max n (headRoom + l.peak)

theorem InputSized.call (h : InputSized n headRoom l b) {q : Fifo UInt8} {op : InputOp}
    (hop : Allowed (some b, q) op) :
    ∃ b', inputCall b op = some b' ∧ InputSized n headRoom (l.input op) b' := by
  obtain ⟨hwf, hheadRoom, hsize, htail, hcap⟩ := h
  cases op with
  | readFd got =>
    cases got with
    | none => exact ⟨b, rfl, hwf, hheadRoom, hsize, htail, hcap⟩
    | some bs =>
      obtain ⟨b', hb', hwf', hhead', hheadRoom', hcontents', hcap'⟩ := hwf.readFd_spec (hop b rfl)
      have hsize' : b'.size = l.held + bs.length := by
        rw [← hwf'.length_contents, hcontents', List.length_append, hwf.length_contents, hsize,
          List.length_map]
      refine ⟨b', hb', hwf', hheadRoom'.trans hheadRoom, hsize', ?_, ?_⟩
      · have hle := hwf.head_le
        have hle' := hwf'.head_le
        show b'.tail = headRoom + (l.since + bs.length)
        simp only [size] at hsize hsize'
        omega
      · show b'.capacity = max n (headRoom + max l.peak (l.since + bs.length))
        rw [hcap', hcap, htail, max_assoc, ← Nat.add_max_add_left, Nat.add_assoc]
  | popFront k =>
    obtain ⟨b', hb', hwf', -⟩ := hwf.popFront_spec (hop b rfl)
    obtain ⟨hheadRoom', hsize', htail'⟩ := popFront_sizes hb'
    refine ⟨b', hb', hwf', hheadRoom'.trans hheadRoom, hsize'.trans (by rw [hsize]; rfl), ?_,
      (capacity_popFront hb').trans hcap⟩
    show b'.tail = headRoom + if k = l.held then 0 else l.since
    rw [htail', hsize]
    split
    · exact hheadRoom
    · exact htail
  | popFrontAll =>
    exact ⟨b.popFrontAll, rfl, hwf.restored.1, hheadRoom, Nat.sub_self _, hheadRoom, hcap⟩

/-- A peak is not forgotten. -/
theorem Level.peak_le_input (l : Level) (op : InputOp) : l.peak ≤ (l.input op).peak := by
  cases op with
  | readFd got =>
    cases got with
    | none => exact le_rfl
    | some bs => exact le_max_left _ _
  | popFront k => exact le_rfl
  | popFrontAll => exact le_rfl

theorem Level.peak_le_run_input (l : Level) (ops : List InputOp) :
    l.peak ≤ (Machinery.run Level.input l ops).peak := by
  induction ops generalizing l with
  | nil => exact le_rfl
  | cons op ops ih => exact (l.peak_le_input op).trans (ih _)

theorem InputSized.run (h : InputSized n headRoom l b) {q : Fifo UInt8} {ops : List InputOp}
    (hops : Meets InInts.besideInput Allowed (some b, q) ops)
    (hsmall : max n (headRoom + (Machinery.run Level.input l ops).peak) < 2 ^ 31) :
    ∃ b', (Machinery.run InInts.besideInput (some b, q) ops).1 = some b'
      ∧ InputSized n headRoom (Machinery.run Level.input l ops) b' := by
  induction ops generalizing b q l with
  | nil => exact ⟨b, rfl, h⟩
  | cons op ops ih =>
    obtain ⟨hop, hrest⟩ := hops
    obtain ⟨b', hb', h'⟩ := h.call hop
    -- the block is no larger now than in the end
    have hcap : b.capacity < 2 ^ 31 := by
      rw [h.capacity_eq]
      exact (max_le_max_left n (Nat.add_le_add_left (l.peak_le_run_input (op :: ops)) _)).trans_lt hsmall
    have hstep : InInts.besideInput (some b, q) op = (some b', op.onFifo q) :=
      (InInts.besideInput_eq h.wellFormed hcap q op).trans (Prod.ext hb' rfl)
    rw [run_cons, run_cons, hstep]
    rw [hstep] at hrest
    exact ih h' hrest hsmall

/-- **The input buffer grows to what it reads between two times that it is empty**, and no further: in
every run, whatever `readv` gives and however much is popped, in which that is less than `2^31` bytes. -/
theorem capacity_input (n headRoom : ℕ) (h : headRoom ≤ n) (ops : List InputOp)
    (hops : Meets InInts.besideInput Allowed (inputStart n headRoom) ops)
    (hsmall : max n (headRoom + (run Level.input .zero ops).peak) < 2 ^ 31) :
    ∃ b, (run InInts.besideInput (inputStart n headRoom) ops).1 = some b
      ∧ b.capacity = max n (headRoom + (run Level.input .zero ops).peak) := by
  have hstart : InputSized n headRoom .zero (new n headRoom) := by
    refine ⟨.new h, rfl, Nat.sub_self _, rfl, ?_⟩
    show (alloc n).length = max n headRoom
    rw [alloc, List.length_replicate, max_eq_left h]
  obtain ⟨b, hb, hsized⟩ := hstart.run hops hsmall
  exact ⟨b, hb, hsized.capacity_eq⟩

/-- The consumer leaves a byte behind each time: what it has popped is still paid for. -/
theorem capacity_input_left :
    ∃ b, (run InInts.besideInput (inputStart 2 0)
        [.readFd (some [1, 2]), .popFront 1, .readFd (some [3, 4]), .popFront 2]).1 = some b
      ∧ b.capacity = max 2 (0 + (run Level.input .zero
        [.readFd (some [1, 2]), .popFront 1, .readFd (some [3, 4]), .popFront 2]).peak) :=
  capacity_input 2 0 (by decide) _ (by decide) (by decide)

/-! ## The output buffer -/

/-- **Room is made for the contents and the new bytes**, from the head room on. -/
theorem WellFormed.reserve_sizes (h : b.WellFormed) {len : ℕ} (hfits : b.Fits len) {r : StreamBuffer}
    (hr : b.reserve len = some r) :
    r.headRoom = b.headRoom ∧ r.capacity = max b.capacity (b.headRoom + b.size + len) := by
  have hroom := h.headRoom_le
  have hhead := h.head_le
  have htail := h.tail_le
  rw [reserve] at hr
  split at hr
  · rename_i hpopped
    have hfit : b.headRoom + b.size + len ≤ b.capacity :=
      hfits.resolve_left (by simp only [headCapacity] at hpopped; omega)
    rw [if_neg (by simp only [size, headCapacity, endCapacity] at *; omega)] at hr
    obtain ⟨b', hb', hmoved⟩ := h.alignLeft_spec
    obtain rfl : b' = r := Option.some.inj (hb'.symm.trans hr)
    exact ⟨hmoved.headRoom_eq, hmoved.capacity_eq.trans (max_eq_left hfit).symm⟩
  · rename_i hpopped
    have hsame : b.head = b.headRoom := by simp only [headCapacity] at hpopped; omega
    split at hr
    · rename_i hlen
      obtain ⟨b', hb', hmoved⟩ := h.upResize_spec (show b.head + b.size ≤ b.headRoom + b.size + len by omega)
      obtain rfl : b' = r := Option.some.inj (hb'.symm.trans hr)
      refine ⟨hmoved.headRoom_eq, hmoved.capacity_eq.trans (max_eq_right ?_).symm⟩
      simp only [size, endCapacity] at *
      omega
    · rename_i hlen
      cases hr
      refine ⟨rfl, (max_eq_left ?_).symm⟩
      simp only [size, endCapacity] at *
      omega

/-- What is written changes no size but the tail's. -/
theorem WellFormed.append_sizes (h : b.WellFormed) {data : Bytes} (hfits : b.Fits data.length)
    (hb' : b.append data = some b') :
    b'.headRoom = b.headRoom ∧ b'.capacity = max b.capacity (b.headRoom + b.size + data.length) := by
  obtain ⟨r, hr, -, -, -, hend⟩ := h.reserve_spec hfits
  have hfit : r.tail + (data.map some).length ≤ r.block.length := by simpa [capacity] using hend
  have hlength := length_stored hfit
  rw [append, hr] at hb'
  simp only [Option.bind_eq_bind, Option.bind_some, store_eq_some hfit] at hb'
  cases hb'
  obtain ⟨hheadRoom, hcap⟩ := h.reserve_sizes hfits hr
  exact ⟨hheadRoom, hlength.trans hcap⟩

/-- **The block of an output buffer** provides for what it holds. -/
structure OutputSized (n headRoom : ℕ) (l : Level) (b : StreamBuffer) : Prop where
  wellFormed : b.WellFormed
  headRoom_eq : b.headRoom = headRoom
  size_eq : b.size = l.held
  capacity_eq : b.capacity = max n (headRoom + l.peak)

theorem OutputSized.call (h : OutputSized n headRoom l b) {q : Fifo UInt8} {op : Op}
    (hop : PopsHeld (some b, q) op) (hfits : AppendFits (some b, q) op) :
    ∃ b', StreamBuffer.call b op = some b' ∧ OutputSized n headRoom (l.output op) b' := by
  obtain ⟨hwf, hheadRoom, hsize, hcap⟩ := h
  cases op with
  | append data =>
    obtain ⟨b', hb', hwf', hcontents'⟩ := hwf.append_spec (hfits b rfl)
    obtain ⟨hheadRoom', hcap'⟩ := hwf.append_sizes (hfits b rfl) hb'
    refine ⟨b', hb', hwf', hheadRoom'.trans hheadRoom, ?_, ?_⟩
    · show b'.size = l.held + data.length
      rw [← hwf'.length_contents, hcontents', List.length_append, hwf.length_contents, hsize,
        List.length_map]
    · show b'.capacity = max n (headRoom + max l.peak (l.held + data.length))
      rw [hcap', hcap, hheadRoom, hsize, max_assoc, ← Nat.add_max_add_left, Nat.add_assoc]
  | popFront k =>
    obtain ⟨b', hb', hwf', -⟩ := hwf.popFront_spec (hop b rfl)
    obtain ⟨hheadRoom', hsize', -⟩ := popFront_sizes hb'
    exact ⟨b', hb', hwf', hheadRoom'.trans hheadRoom, hsize'.trans (by rw [hsize]; rfl),
      (capacity_popFront hb').trans hcap⟩
  | popFrontAll => exact ⟨b.popFrontAll, rfl, hwf.restored.1, hheadRoom, Nat.sub_self _, hcap⟩

theorem Level.peak_le_output (l : Level) (op : Op) : l.peak ≤ (l.output op).peak := by
  cases op with
  | append data => exact le_max_left _ _
  | popFront k => exact le_rfl
  | popFrontAll => exact le_rfl

theorem Level.peak_le_run_output (l : Level) (ops : List Op) :
    l.peak ≤ (Machinery.run Level.output l ops).peak := by
  induction ops generalizing l with
  | nil => exact le_rfl
  | cons op ops ih => exact (l.peak_le_output op).trans (ih _)

/-- What an `append` asks for is within the peak. -/
theorem OutputSized.small (h : OutputSized n headRoom l b) {op : Op}
    (hsmall : headRoom + (l.output op).peak < 2 ^ 31) : InInts.Small b op := by
  cases op with
  | append data =>
    show b.headRoom + b.size + data.length < 2 ^ 31
    have hheld : l.held + data.length ≤ (l.output (.append data)).peak := le_max_right _ _
    rw [h.headRoom_eq, h.size_eq]
    omega
  | popFront k => trivial
  | popFrontAll => trivial

theorem OutputSized.run (h : OutputSized n headRoom l b) {q : Fifo UInt8} {ops : List Op}
    (hops : Meets InInts.beside PopsHeld (some b, q) ops)
    (hfits : Meets InInts.beside AppendFits (some b, q) ops)
    (hsmall : max n (headRoom + (Machinery.run Level.output l ops).peak) < 2 ^ 31) :
    ∃ b', (Machinery.run InInts.beside (some b, q) ops).1 = some b'
      ∧ OutputSized n headRoom (Machinery.run Level.output l ops) b' := by
  induction ops generalizing b q l with
  | nil => exact ⟨b, rfl, h⟩
  | cons op ops ih =>
    obtain ⟨hop, hrest⟩ := hops
    obtain ⟨hfit, hfits⟩ := hfits
    obtain ⟨b', hb', h'⟩ := h.call hop hfit
    have hcap : b.capacity < 2 ^ 31 := by
      rw [h.capacity_eq]
      exact (max_le_max_left n (Nat.add_le_add_left (l.peak_le_run_output (op :: ops)) _)).trans_lt hsmall
    have hnext : headRoom + (l.output op).peak < 2 ^ 31 :=
      ((Nat.add_le_add_left ((l.output op).peak_le_run_output ops) _).trans (le_max_right n _)).trans_lt hsmall
    have hstep : InInts.beside (some b, q) op = (some b', op.onFifo q) :=
      (InInts.beside_eq h.wellFormed hcap q (h.small hnext)).trans (Prod.ext hb' rfl)
    rw [run_cons, run_cons, hstep]
    rw [hstep] at hrest hfits
    exact ih h' hrest hfits hsmall

/-- **The output buffer grows to the most that it holds**, and no further: in every run in which no
`append` grows a block whose front was popped in part, and which holds less than `2^31` bytes. -/
theorem capacity_output (n headRoom : ℕ) (h : headRoom ≤ n) (ops : List Op)
    (hops : Meets InInts.beside PopsHeld (some (new n headRoom), Fifo.empty) ops)
    (hfits : Meets InInts.beside AppendFits (some (new n headRoom), Fifo.empty) ops)
    (hsmall : max n (headRoom + (run Level.output .zero ops).peak) < 2 ^ 31) :
    ∃ b, (run InInts.beside (some (new n headRoom), Fifo.empty) ops).1 = some b
      ∧ b.capacity = max n (headRoom + (run Level.output .zero ops).peak) := by
  have hstart : OutputSized n headRoom .zero (new n headRoom) := by
    refine ⟨.new h, rfl, Nat.sub_self _, ?_⟩
    show (alloc n).length = max n headRoom
    rw [alloc, List.length_replicate, max_eq_left h]
  obtain ⟨b, hb, hsized⟩ := hstart.run hops hfits hsmall
  exact ⟨b, hb, hsized.capacity_eq⟩

instance (s : Option StreamBuffer × Fifo UInt8) : DecidablePred (AppendFits s)
  | .append data => inferInstanceAs (Decidable (∀ b ∈ s.1, b.Fits data.length))
  | .popFront _ | .popFrontAll => .isTrue trivial

/-- What was popped makes room for as much again. -/
theorem capacity_output_realigned :
    ∃ b, (run InInts.beside (some (new 4 0), Fifo.empty)
        [.append [1, 2, 3], .popFront 2, .append [4, 5], .popFrontAll, .append [6, 7, 8, 9, 10]]).1 = some b
      ∧ b.capacity = max 4 (0 + (run Level.output .zero
        [.append [1, 2, 3], .popFront 2, .append [4, 5], .popFrontAll, .append [6, 7, 8, 9, 10]]).peak) :=
  capacity_output 4 0 (by decide) _ (by decide) (by decide) (by decide)

end StreamBuffer
