import Mathlib.Tactic

/-!
# Machinery/Spacing — times that come far enough apart

    w ≤ t₀      t₀ + d ≤ t₁      t₁ + d ≤ t₂      …

`Spaced d w ts` — the first time is no earlier than `w`, and each of the others comes `d` or more after
the one before it.  `nextFrom d w ts` is the time from which the next one may come, so that a list of
times grows at its end (`spaced_concat`).  The spacing adds up: `Spaced.add_le_get`.
-/

namespace Machinery

variable {α : Type*} [AddCommMonoid α]

/-- From when on the next time may come, `d` after the last. -/
def nextFrom (d w : α) (ts : List α) : α := ts.getLast?.elim w (· + d)

@[simp] theorem nextFrom_nil (d w : α) : nextFrom d w [] = w := rfl

@[simp] theorem nextFrom_concat (d w : α) (ts : List α) (t : α) : nextFrom d w (ts ++ [t]) = t + d := by
  rw [nextFrom, List.getLast?_concat]
  rfl

theorem nextFrom_cons (d w t : α) (ts : List α) : nextFrom d w (t :: ts) = nextFrom d (t + d) ts := by
  cases ts with
  | nil => rfl
  | cons t' ts =>
    rw [nextFrom, List.getLast?_cons_cons]
    rfl

variable [PartialOrder α]

/-- **Each time is `d` or more after the one before it**, the first being `w` or later. -/
def Spaced (d : α) : α → List α → Prop
  | _, [] => True
  | w, t :: ts => w ≤ t ∧ Spaced d (t + d) ts

instance decidableSpaced [DecidableLE α] (d : α) : ∀ (w : α) (ts : List α), Decidable (Spaced d w ts)
  | _, [] => .isTrue trivial
  | _, t :: ts =>
    have := decidableSpaced d (t + d) ts
    inferInstanceAs (Decidable (_ ∧ _))

/-- **The times grow at their end.** -/
theorem spaced_concat (d w : α) (ts : List α) (t : α) :
    Spaced d w (ts ++ [t]) ↔ Spaced d w ts ∧ nextFrom d w ts ≤ t := by
  induction ts generalizing w with
  | nil => exact ⟨fun h => ⟨trivial, h.1⟩, fun h => ⟨h.2, trivial⟩⟩
  | cons t' ts ih => rw [List.cons_append, nextFrom_cons, Spaced, Spaced, ih, and_assoc]

/-- **The spacing adds up.** -/
theorem Spaced.add_le_get [IsOrderedAddMonoid α] {d w : α} {ts : List α} (h : Spaced d w ts) {n : ℕ}
    (hn : n < ts.length) : w + n • d ≤ ts[n] := by
  induction ts generalizing w n with
  | nil => cases hn
  | cons t ts ih =>
    cases n with
    | zero => simpa using h.1
    | succ n =>
      have hn' : n < ts.length := Nat.lt_of_succ_lt_succ hn
      calc w + (n + 1) • d
          = w + d + n • d := by rw [succ_nsmul', add_assoc]
        _ ≤ t + d + n • d := add_le_add_left (add_le_add_left h.1 d) (n • d)
        _ ≤ ts[n] := ih h.2 hn'

end Machinery
