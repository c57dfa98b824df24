import Rpx.Machinery.Run

/-!
# Machinery/Progress — what is left of a run

    tally p  +  what is left in the end   ≤   what was left   +   k · tally e

A **potential** `μ : σ → ℕ` counts the steps `p` that are left.  Each of them is paid for by the
potential, and only the steps `e` put something back, at most `k` each: so a run cannot go on for ever
with steps of its own, and where one is always at hand it ends.  A quantity that such steps alone put up,
by one each, is their number (`eq_add_tally`).
-/

namespace Machinery

variable {σ ι : Type*} {step : σ → ι → σ} {c p e : σ → ι → Prop} {Inv : σ → Prop}

section Tally

variable [∀ s i, Decidable (p s i)]

/-- How many steps of a run satisfy `p`. -/
def tally (step : σ → ι → σ) (p : σ → ι → Prop) [∀ s i, Decidable (p s i)] : σ → List ι → ℕ
  | _, [] => 0
  | s, i :: is => (if p s i then 1 else 0) + tally step p (step s i) is

@[simp] theorem tally_nil (s : σ) : tally step p s [] = 0 := rfl

@[simp] theorem tally_cons (s : σ) (i : ι) (is : List ι) :
    tally step p s (i :: is) = (if p s i then 1 else 0) + tally step p (step s i) is := rfl

/-- **The potential pays for every step**, to the last unit. -/
theorem tally_add_eq (μ : σ → ℕ) (hstep : ∀ s i, Inv s → c s i → Inv (step s i))
    (hpay : ∀ s i, Inv s → c s i → (if p s i then 1 else 0) + μ (step s i) = μ s)
    {s : σ} (h : Inv s) {is : List ι} (hc : Meets step c s is) :
    tally step p s is + μ (run step s is) = μ s := by
  induction is generalizing s with
  | nil => exact Nat.zero_add _
  | cons i is ih =>
    obtain ⟨hi, his⟩ := hc
    have hrest := ih (hstep s i h hi) his
    have hfirst := hpay s i h hi
    rw [tally_cons, run_cons]
    omega

/-- **What every such step adds one to, and no other step changes**, counts them. -/
theorem eq_add_tally (μ : σ → ℕ) (hcount : ∀ s i, μ (step s i) = μ s + if p s i then 1 else 0) (s : σ)
    (is : List ι) : μ (run step s is) = μ s + tally step p s is := by
  induction is generalizing s with
  | nil => rfl
  | cons i is ih => rw [run_cons, tally_cons, ih, hcount, Nat.add_assoc]

/-- **…or at least so**, when some steps put something back. -/
theorem tally_add_le [∀ s i, Decidable (e s i)] {k : ℕ} (μ : σ → ℕ)
    (hstep : ∀ s i, Inv s → c s i → Inv (step s i))
    (hpay : ∀ s i, Inv s → c s i →
      (if p s i then 1 else 0) + μ (step s i) ≤ μ s + k * (if e s i then 1 else 0))
    {s : σ} (h : Inv s) {is : List ι} (hc : Meets step c s is) :
    tally step p s is + μ (run step s is) ≤ μ s + k * tally step e s is := by
  induction is generalizing s with
  | nil => simp
  | cons i is ih =>
    obtain ⟨hi, his⟩ := hc
    have hrest := ih (hstep s i h hi) his
    have hfirst := hpay s i h hi
    rw [tally_cons, tally_cons, run_cons, Nat.mul_add]
    omega

end Tally

/-- **Where a step of its own is always at hand, the run can be brought to its end**, in no more of them
than the potential allows. -/
theorem exists_run_done {Done : σ → Prop} (μ : σ → ℕ) (hstep : ∀ s i, Inv s → c s i → Inv (step s i))
    (hpay : ∀ s i, Inv s → c s i → p s i → μ (step s i) < μ s)
    (hgo : ∀ s, Inv s → Done s ∨ ∃ i, c s i ∧ p s i) {s : σ} (h : Inv s) :
    ∃ is, Meets step c s is ∧ is.length ≤ μ s ∧ Done (run step s is) := by
  induction hn : μ s using Nat.strong_induction_on generalizing s with
  | _ n ih =>
    rcases hgo s h with hdone | ⟨i, hi, hp⟩
    · exact ⟨[], trivial, Nat.zero_le _, hdone⟩
    · have hlt := hpay s i h hi hp
      obtain ⟨is, his, hlength, hdone⟩ := ih _ (hn ▸ hlt) (hstep s i h hi) rfl
      refine ⟨i :: is, ⟨hi, his⟩, ?_, hdone⟩
      rw [List.length_cons]
      omega

end Machinery
