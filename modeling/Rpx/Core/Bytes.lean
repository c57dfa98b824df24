import Mathlib.Tactic

/-!
# Core/Bytes — byte strings, and memory read through a pointer

A `std::string` is its bytes.  A `const char*` argument is the memory around it, read relative to
the pointer: `data i` is the byte at `data + i`, for every `i`, inside the caller's array or not.  A
`size_t` is a natural number, and loses what does not fit where the source keeps it in an `int`.
-/

/-- A byte string. -/
abbrev Bytes := List UInt8

/-- The bytes of an ASCII literal. -/
def ascii (s : String) : Bytes := s.toList.map fun c => c.toNat.toUInt8

/-- `std::to_string` of an unsigned number. -/
def decimal (n : ℕ) : Bytes := (Nat.toDigits 10 n).map fun c => c.toNat.toUInt8

/-- The conversion of a `size_t` to an `int`. -/
def toInt (n : ℕ) : ℤ := (n : ℤ).bmod (2 ^ 32)

theorem toInt_of_lt {n : ℕ} (h : n < 2 ^ 31) : toInt n = n :=
  Int.bmod_eq_of_le (by omega) (by omega)

/-- **Memory seen from a pointer**: the byte at each offset. -/
abbrev Pointer := ℤ → UInt8

namespace Pointer

/-- The `len` bytes at `p + off`. -/
def read (p : Pointer) (off : ℤ) (len : ℕ) : Bytes :=
  (List.range len).map fun i : ℕ => p (off + i)

@[simp] theorem length_read (p : Pointer) (off : ℤ) (len : ℕ) : (p.read off len).length = len := by
  simp [read]

@[simp] theorem read_zero (p : Pointer) (off : ℤ) : p.read off 0 = [] := rfl

/-- A read splits at any point. -/
theorem read_add (p : Pointer) (off : ℤ) (m n : ℕ) :
    p.read off (m + n) = p.read off m ++ p.read (off + m) n := by
  simp [read, List.range_add, add_assoc]

/-- The first `m` bytes of a read of `n`, and the rest of it. -/
theorem read_append_read (p : Pointer) {m n : ℕ} (h : m ≤ n) :
    p.read 0 m ++ p.read m (n - m) = p.read 0 n := by
  have hadd := p.read_add 0 m (n - m)
  rw [zero_add, Nat.add_sub_cancel' h] at hadd
  exact hadd.symm

/-- A pointer to a byte string lying in memory that is otherwise `around`. -/
def ofBytes (bs : Bytes) (around : Pointer) : Pointer := fun i =>
  if 0 ≤ i then (bs[i.toNat]?).getD (around i) else around i

/-- **What the pointer points to is the string.** -/
@[simp] theorem read_ofBytes (bs : Bytes) (around : Pointer) : (ofBytes bs around).read 0 bs.length = bs := by
  refine List.ext_getElem (by simp) fun i h₁ h₂ => ?_
  simp [read, ofBytes, h₂]

end Pointer
