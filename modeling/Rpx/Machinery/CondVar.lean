import Mathlib.Tactic

/-!
# Machinery/CondVar — threads blocked on a condition

    wait ──▶ waiting ── notified, or for no reason ──▶ woken ── lock taken again ──▶ resume

A condition variable as its two crowds: the threads blocked on it, and those woken that have yet to
take the lock.  Which one a `notify_one` wakes is the scheduler's choice, and so an argument.

* `Covered n extra` — units are left for the blocked only when each has a thread of its own to come for
  it: while somebody is blocked, the `n` units at hand are no more than the woken and `extra` others.
  A unit that comes with a `notify_one` keeps it so, and so does a thread that blocks when there is none.
-/

namespace Machinery

/-- **A condition variable.** -/
structure CondVar (τ : Type*) where
  /-- Blocked, and not notified. -/
  waiting : List τ
  /-- Woken, and yet to take the lock. -/
  woken : List τ
  deriving DecidableEq, Repr

namespace CondVar

variable {τ : Type*}

def empty : CondVar τ := ⟨[], []⟩

variable (c : CondVar τ)

/-- A thread blocks. -/
def wait (t : τ) : CondVar τ := { c with waiting := c.waiting ++ [t] }

/-- One of the blocked threads is woken, if there is one; `k` tells which. -/
def notifyOne (k : ℕ) : CondVar τ :=
  match c.waiting[k % c.waiting.length]? with
  | none => c
  | some t => ⟨c.waiting.eraseIdx (k % c.waiting.length), c.woken ++ [t]⟩

def notifyAll : CondVar τ := ⟨[], c.woken ++ c.waiting⟩

/-- The `i`-th of the woken threads takes the lock. -/
def resume (i : ℕ) : Option (τ × CondVar τ) :=
  c.woken[i]?.map fun t => (t, { c with woken := c.woken.eraseIdx i })

variable {c} {c' : CondVar τ} {t : τ} {i k m n extra extra' : ℕ}

/-- **Nobody is lost**: a thread is blocked or woken as before, or has the lock. -/
theorem perm_notifyOne (c : CondVar τ) (k : ℕ) :
    ((c.notifyOne k).waiting ++ (c.notifyOne k).woken).Perm (c.waiting ++ c.woken) := by
  rw [notifyOne]
  split
  · exact .refl _
  · rename_i t ht
    obtain ⟨hlt, rfl⟩ := List.getElem?_eq_some_iff.mp ht
    have hmove : (c.waiting.eraseIdx (k % c.waiting.length)
        ++ (c.woken ++ [c.waiting[k % c.waiting.length]])).Perm
          (c.waiting[k % c.waiting.length] :: (c.waiting.eraseIdx (k % c.waiting.length) ++ c.woken)) := by
      rw [← List.append_assoc]
      exact List.perm_append_singleton _ _
    exact hmove.trans ((List.getElem_cons_eraseIdx_perm hlt).append_right c.woken)

theorem perm_resume (h : c.resume i = some (t, c')) :
    c'.waiting = c.waiting ∧ (t :: c'.woken).Perm c.woken := by
  obtain ⟨t', ht, heq⟩ := Option.map_eq_some_iff.mp h
  obtain ⟨hlt, rfl⟩ := List.getElem?_eq_some_iff.mp ht
  obtain ⟨rfl, rfl⟩ := Prod.ext_iff.mp heq
  exact ⟨rfl, List.getElem_cons_eraseIdx_perm hlt⟩

/-- A notification wakes somebody, if anybody is blocked. -/
theorem length_woken_notifyOne (h : c.waiting ≠ []) (k : ℕ) :
    (c.notifyOne k).woken.length = c.woken.length + 1 := by
  have hlt : k % c.waiting.length < c.waiting.length :=
    Nat.mod_lt _ (List.length_pos_iff.mpr h)
  rw [notifyOne, List.getElem?_eq_getElem hlt]
  simp

theorem waiting_notifyOne_of_nil (h : c.waiting = []) (k : ℕ) : c.notifyOne k = c := by
  rw [notifyOne, h]
  rfl

/-! ## Units and those who come for them -/

/-- **While somebody is blocked, each of the `n` units has somebody to come for it.** -/
def Covered (c : CondVar τ) (n extra : ℕ) : Prop := c.waiting ≠ [] → n ≤ c.woken.length + extra

theorem covered_of_nil (h : c.waiting = []) : c.Covered n extra := fun hne => absurd h hne

/-- Fewer units, or more to come for them. -/
theorem Covered.mono (h : c.Covered n extra) (hn : m ≤ n) (hextra : extra ≤ extra') :
    c.Covered m extra' := fun hne => by
  have hcover := h hne
  omega

/-- A thread that blocks when there is no unit. -/
theorem covered_wait (c : CondVar τ) (t : τ) (extra : ℕ) : (c.wait t).Covered 0 extra :=
  fun _ => Nat.zero_le _

/-- **A unit that is announced.** -/
theorem Covered.notifyOne (h : c.Covered n extra) (k : ℕ) : (c.notifyOne k).Covered (n + 1) extra := by
  by_cases hnil : c.waiting = []
  · rw [waiting_notifyOne_of_nil hnil]
    exact covered_of_nil hnil
  · intro _
    have hcover := h hnil
    rw [length_woken_notifyOne hnil]
    omega

/-- **A woken thread takes the lock**, and is one of the others from then on. -/
theorem Covered.resume (h : c.Covered n extra) (hc : c.resume i = some (t, c')) :
    c'.Covered n (extra + 1) := by
  obtain ⟨hwaiting, hperm⟩ := perm_resume hc
  intro hne
  have hcover := h (hwaiting ▸ hne)
  have hlength := hperm.length_eq
  rw [List.length_cons] at hlength
  omega

/-- One of the others takes a unit with it. -/
theorem Covered.take (h : c.Covered n (extra + 1)) : c.Covered (n - 1) extra := fun hne => by
  have hcover := h hne
  omega

/-- **When a unit is at hand, not all are blocked.** -/
theorem Covered.exists_woken (h : c.Covered n extra) (hn : extra < n) (hne : c.waiting ≠ []) :
    c.woken ≠ [] := by
  have hcover := h hne
  intro hnil
  rw [hnil, List.length_nil] at hcover
  omega

end CondVar

end Machinery
