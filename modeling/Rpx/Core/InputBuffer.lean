import Rpx.Core.ReadBuffer

/-!
# Core/InputBuffer — the input buffer as a byte queue

    readv ──readFd──▶ [_head, _tail) ──popFront──▶

The input buffer is filled by `readFd` alone.  That grows the block by what has spilled, on top of the
capacity it had, so the head that a partial `popFront` has moved costs nothing and the copy that follows
always fits: unlike the output buffer, the input buffer is a byte queue on every run (`input_refines`).
-/

open Machinery

namespace StreamBuffer

/-- A call on an input buffer. -/
inductive InputOp
  /-- `readFd(fd)`, with what `readv` gives; `none` is its −1. -/
  | readFd (got : Option Bytes)
  | popFront (n : ℕ)
  | popFrontAll

/-- What a call does to the buffer. -/
def inputCall (b : StreamBuffer) : InputOp → Option StreamBuffer
  | .readFd none => some b
  | .readFd (some bs) => b.readFd bs
  | .popFront n => b.popFront n
  | .popFrontAll => some b.popFrontAll

/-- What the call means for a byte queue. -/
def InputOp.onFifo (q : Fifo UInt8) : InputOp → Fifo UInt8
  | .readFd none => q
  | .readFd (some bs) => q.push bs
  | .popFront n => q.pop n
  | .popFrontAll => q.pop q.held.length

/-- The buffer and the queue it stands for, moving together. -/
def besideInput (s : Option StreamBuffer × Fifo UInt8) (op : InputOp) :
    Option StreamBuffer × Fifo UInt8 :=
  (lift inputCall s.1 op, op.onFifo s.2)

/-- `readv` gives no more than it has room for, and no more is popped than is there. -/
def Allowed (s : Option StreamBuffer × Fifo UInt8) : InputOp → Prop
  | .readFd (some bs) => ∀ b ∈ s.1, bs.length ≤ b.endCapacity + extraBufSize
  | .popFront n => ∀ b ∈ s.1, n ≤ b.size
  | _ => True

instance (s : Option StreamBuffer × Fifo UInt8) : DecidablePred (Allowed s)
  | .readFd none => .isTrue trivial
  | .readFd (some bs) => inferInstanceAs (Decidable (∀ b ∈ s.1, bs.length ≤ b.endCapacity + extraBufSize))
  | .popFront n => inferInstanceAs (Decidable (∀ b ∈ s.1, n ≤ b.size))
  | .popFrontAll => .isTrue trivial

/-- A block of at least `cap` bytes. -/
def Holds (cap : ℕ) (s : Option StreamBuffer × Fifo UInt8) : Prop := ∀ b ∈ s.1, cap ≤ b.capacity

variable {b b' : StreamBuffer} {n : ℕ}

theorem capacity_popFront (h : b.popFront n = some b') : b'.capacity = b.capacity := by
  rw [popFront] at h
  split at h
  · split at h <;> cases h <;> rfl
  · cases h

/-- **One call keeps the refinement**, and the block. -/
theorem Refines.besideInput {s : Option StreamBuffer × Fifo UInt8} (h : Refines s) {op : InputOp}
    (hop : Allowed s op) {cap : ℕ} (hcap : Holds cap s) :
    Refines (StreamBuffer.besideInput s op) ∧ Holds cap (StreamBuffer.besideInput s op) := by
  obtain ⟨o, q⟩ := s
  obtain ⟨b, rfl, hwf, hcontents⟩ := h
  change b.contents = q.held.map some at hcontents
  have hblock : cap ≤ b.capacity := hcap b rfl
  -- a call that succeeds with the right contents, in a block no smaller
  have hdone : ∀ b', inputCall b op = some b' → b'.WellFormed →
      b'.contents = (op.onFifo q).held.map some → b.capacity ≤ b'.capacity →
      Refines (StreamBuffer.besideInput (some b, q) op)
        ∧ Holds cap (StreamBuffer.besideInput (some b, q) op) := by
    intro b' hb' hwf' hcontents' hgrown
    refine ⟨⟨b', hb', hwf', hcontents'⟩, fun b'' hb'' => ?_⟩
    have heq : b' = b'' := Option.some.inj (hb'.symm.trans hb'')
    exact heq ▸ hblock.trans hgrown
  cases op with
  | readFd got =>
    cases got with
    | none => exact hdone b rfl hwf hcontents le_rfl
    | some bs =>
      obtain ⟨b', hb', hwf', -, -, hcontents', hcap'⟩ := hwf.readFd_spec (hop b rfl)
      refine hdone b' hb' hwf' ?_ (hcap' ▸ le_max_left _ _)
      rw [hcontents', hcontents]
      exact List.map_append.symm
  | popFront n =>
    obtain ⟨b', hb', hwf', hcontents'⟩ := hwf.popFront_spec (hop b rfl)
    refine hdone b' hb' hwf' ?_ (capacity_popFront hb').ge
    rw [hcontents', hcontents]
    exact List.map_drop.symm
  | popFrontAll =>
    refine hdone b.popFrontAll rfl hwf.restored.1 ?_ le_rfl
    rw [hwf.restored.2]
    simp [InputOp.onFifo]

/-- A new buffer, and nothing delivered. -/
def inputStart (n headRoom : ℕ) : Option StreamBuffer × Fifo UInt8 := (some (new n headRoom), .empty)

theorem refines_inputStart {headRoom : ℕ} (h : headRoom ≤ n) : Refines (inputStart n headRoom) :=
  ⟨_, rfl, .new h, by simp [contents, new, inputStart, Fifo.empty]⟩

/-- **A run keeps the refinement**, and the block. -/
theorem Refines.run_besideInput {s : Option StreamBuffer × Fifo UInt8} (h : Refines s)
    {ops : List InputOp} (hops : Meets StreamBuffer.besideInput Allowed s ops) {cap : ℕ}
    (hcap : Holds cap s) :
    Refines (run StreamBuffer.besideInput s ops) ∧ Holds cap (run StreamBuffer.besideInput s ops) :=
  @inv_run _ _ _ _ (fun s => Refines s ∧ Holds cap s)
    (fun _ _ hs hop => hs.1.besideInput hop hs.2) s ⟨h, hcap⟩ ops hops

/-- **The input buffer is a byte queue.**  Whatever `readv` gives and however much is popped, after every
call the pointers are in order, no copy has left the block and the contents are what was delivered, less
what was popped, in order; and from one point of a run to a later one the block does not shrink. -/
theorem input_refines (n headRoom : ℕ) (h : headRoom ≤ n) (ops : List InputOp)
    (hops : Meets besideInput Allowed (inputStart n headRoom) ops) :
    (∀ done, done <+: ops → Refines (run besideInput (inputStart n headRoom) done))
      ∧ ∀ done more, done ++ more <+: ops →
        ∀ b ∈ (run besideInput (inputStart n headRoom) done).1,
          Holds b.capacity (run besideInput (inputStart n headRoom) (done ++ more)) := by
  have hrun : ∀ done, done <+: ops → Refines (run besideInput (inputStart n headRoom) done) := by
    intro done hdone
    exact ((refines_inputStart h).run_besideInput (hops.of_prefix hdone) (fun _ _ => Nat.zero_le _)).1
  refine ⟨hrun, fun done more hmore b hb => ?_⟩
  have hlater : Meets besideInput Allowed (run besideInput (inputStart n headRoom) done) more :=
    (hops.of_prefix hmore).of_append
  have hblock : Holds b.capacity (run besideInput (inputStart n headRoom) done) := by
    intro b' hb'
    have heq : b = b' := Option.some.inj (hb.symm.trans hb')
    exact heq ▸ le_rfl
  rw [run_append]
  exact ((hrun done ((List.prefix_append done more).trans hmore)).run_besideInput hlater hblock).2

/-- A read that spills after a partial `popFront`. -/
theorem input_refines_spilled :
    (∀ done, done <+: [.readFd (some [1, 2]), .popFront 1, .readFd (some [3, 4, 5]), .readFd none] →
        Refines (run besideInput (inputStart 4 1) done))
      ∧ ∀ done more,
        done ++ more <+: [.readFd (some [1, 2]), .popFront 1, .readFd (some [3, 4, 5]), .readFd none] →
        ∀ b ∈ (run besideInput (inputStart 4 1) done).1,
          Holds b.capacity (run besideInput (inputStart 4 1) (done ++ more)) :=
  input_refines 4 1 (by decide) _ (by decide)

end StreamBuffer
