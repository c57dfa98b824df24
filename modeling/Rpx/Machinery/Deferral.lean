import Mathlib.Tactic

/-!
# Machinery/Deferral — a queue whose entries point at what later entries keep

    front ──▶ … points k … keeps k … ──▶ back

A queue is served from the front.  Some entries point at an object without keeping it, others keep it.
The queue is **deferred** when behind every entry that points at an object there is one that keeps it, or
the object is anchored elsewhere: whatever the front entry points at is then still there.  An entry that
points must be pushed while its object is anchored, and an anchor may be given up for an entry that keeps.
-/

namespace Machinery

variable {α κ : Type*} {points keeps : α → Option κ} {anchored anchored' : κ → Prop} {l : List α}

/-- **Behind every entry that points at an object, one keeps it**, unless it is anchored. -/
def Deferred (points keeps : α → Option κ) (anchored : κ → Prop) : List α → Prop
  | [] => True
  | a :: l => (∀ k ∈ points a, anchored k ∨ ∃ b ∈ l, keeps b = some k)
      ∧ Deferred points keeps anchored l

namespace Deferred

theorem tail (h : Deferred points keeps anchored l) : Deferred points keeps anchored l.tail := by
  cases l with
  | nil => exact h
  | cons a l => exact h.2

/-- **What the front entry points at is anchored, or kept further back.** -/
theorem head {a : α} (h : Deferred points keeps anchored (a :: l)) {k : κ} (hk : points a = some k) :
    anchored k ∨ ∃ b ∈ l, keeps b = some k := h.1 k hk

/-- More is anchored. -/
theorem mono (h : Deferred points keeps anchored l) (ha : ∀ k, anchored k → anchored' k) :
    Deferred points keeps anchored' l := by
  induction l with
  | nil => trivial
  | cons a l ih => exact ⟨fun k hk => (h.1 k hk).imp_left (ha k), ih h.2⟩

/-- **Entries that point only at what is anchored are pushed.** -/
theorem append (h : Deferred points keeps anchored l) {m : List α}
    (hm : ∀ a ∈ m, ∀ k ∈ points a, anchored k) : Deferred points keeps anchored (l ++ m) := by
  induction l with
  | nil =>
    induction m with
    | nil => trivial
    | cons a m ih =>
      exact ⟨fun k hk => .inl (hm a List.mem_cons_self k hk),
        ih fun b hb => hm b (List.mem_cons_of_mem a hb)⟩
  | cons a l ih =>
    refine ⟨fun k hk => ?_, ih h.2⟩
    rcases h.1 k hk with hanchored | ⟨b, hb, hkeeps⟩
    · exact .inl hanchored
    · exact .inr ⟨b, List.mem_append_left m hb, hkeeps⟩

/-- **An anchor is given up for an entry that keeps**, which is pushed. -/
theorem handOver {b : α} {k : κ} (h : Deferred points keeps anchored l) (hb : points b = none)
    (hkeeps : keeps b = some k) (ha : ∀ j, anchored j → anchored' j ∨ j = k) :
    Deferred points keeps anchored' (l ++ [b]) := by
  induction l with
  | nil => exact ⟨fun j hj => absurd (hb.symm.trans hj) (Option.some_ne_none j).symm, trivial⟩
  | cons a l ih =>
    refine ⟨fun j hj => ?_, ih h.2⟩
    rcases h.1 j hj with hanchored | ⟨b', hb', hkeeps'⟩
    · rcases ha j hanchored with hanchored' | rfl
      · exact .inl hanchored'
      · exact .inr ⟨b, List.mem_append_right l List.mem_cons_self, hkeeps⟩
    · exact .inr ⟨b', List.mem_append_left [b] hb', hkeeps'⟩

end Deferred

end Machinery
