import Rpx.Machinery.Run

/-!
# Machinery/Batches — a queue that is emptied a batch at a time

    push ──▶ waiting ──swap──▶ current ──pop──▶

Whoever empties the queue takes all that waits, and works through that before he looks again.  Every
element is recorded on its way in and on its way out, with the number of batches taken out by then.

Pushes and pops keep its history in order, and so does taking out a batch when nothing is left of the
last one (`Kept`); then the queue is first-in first-out, and nothing leaves it with the batch that was out
when it came (`Kept.inOrder`).
-/

namespace Machinery

/-- What happens to the queue. -/
inductive BatchOp (α : Type*)
  | push (a : α)
  | swap
  | pop

/-- **A queue in two parts**, with its history. -/
structure Batches (α : Type*) where
  /-- What is left of the batch taken out last. -/
  current : List α
  waiting : List α
  /-- How many batches have been taken out. -/
  taken : ℕ
  /-- Everything pushed so far, each with the batches taken out before. -/
  pushed : List (α × ℕ)
  /-- Everything popped so far, likewise. -/
  popped : List (α × ℕ)

namespace Batches

variable {α : Type*}

def empty : Batches α := ⟨[], [], 0, [], []⟩

def step (q : Batches α) : BatchOp α → Batches α
  | .push a => { q with waiting := q.waiting ++ [a], pushed := q.pushed ++ [(a, q.taken)] }
  | .swap => { q with current := q.waiting, waiting := [], taken := q.taken + 1 }
  | .pop =>
    match q.current with
    | [] => q
    | a :: rest => { q with current := rest, popped := q.popped ++ [(a, q.taken)] }

/-- **First in, first out, and never with the batch that is out.** -/
structure InOrder (q : Batches α) : Prop where
  /-- Nothing is lost, duplicated or reordered. -/
  balance : q.popped.map Prod.fst ++ q.current ++ q.waiting = q.pushed.map Prod.fst
  /-- What was popped in the `k`-th place was pushed in the `k`-th place, before its batch was taken out. -/
  later : ∀ (k : ℕ) (x : α × ℕ), q.popped[k]? = some x → ∃ m < x.2, q.pushed[k]? = some (x.1, m)

/-- The history falls into what is out, what is left of the batch and what waits. -/
def Kept (q : Batches α) : Prop :=
  ∃ out current waiting, q.pushed = out ++ (current ++ waiting)
    ∧ List.Forall₂ (fun x p => x.1 = p.1 ∧ p.2 < x.2) q.popped out
    ∧ current.map Prod.fst = q.current ∧ (∀ p ∈ current, p.2 < q.taken)
    ∧ waiting.map Prod.fst = q.waiting ∧ (∀ p ∈ waiting, p.2 ≤ q.taken)

variable {q : Batches α}

theorem kept_empty : (empty : Batches α).Kept :=
  ⟨[], [], [], rfl, .nil, rfl, by simp, rfl, by simp⟩

theorem Kept.push (h : q.Kept) (a : α) : (q.step (.push a)).Kept := by
  obtain ⟨out, current, waiting, hpushed, hout, hcurrent, hbefore, hwaiting, hsince⟩ := h
  refine ⟨out, current, waiting ++ [(a, q.taken)], ?_, hout, hcurrent, hbefore, ?_, fun p hp => ?_⟩
  · rw [step, hpushed]
    simp only [List.append_assoc]
  · rw [List.map_append, hwaiting]
    rfl
  · rcases List.mem_append.mp hp with hp | hp
    · exact hsince p hp
    · exact List.mem_singleton.mp hp ▸ le_rfl

/-- What was pushed since the last batch was taken out goes into the next. -/
theorem Kept.swap (h : q.Kept) (hspent : q.current = []) : (q.step .swap).Kept := by
  obtain ⟨out, current, waiting, hpushed, hout, hcurrent, -, hwaiting, hsince⟩ := h
  rw [hspent, List.map_eq_nil_iff] at hcurrent
  refine ⟨out, waiting, [], ?_, hout, hwaiting, fun p hp => Nat.lt_succ_of_le (hsince p hp), rfl, by simp⟩
  rw [step, hpushed, hcurrent, List.nil_append, List.append_nil]

theorem Kept.pop (h : q.Kept) : (q.step .pop).Kept := by
  rw [step]
  split
  · exact h
  · rename_i a rest hq
    obtain ⟨out, current, waiting, hpushed, hout, hcurrent, hbefore, hwaiting, hsince⟩ := h
    rw [hq] at hcurrent
    obtain ⟨p, current, rfl, hp, hrest⟩ := List.map_eq_cons_iff.mp hcurrent
    refine ⟨out ++ [p], current, waiting, ?_, ?_, hrest, fun r hr => ?_, hwaiting, hsince⟩
    · rw [hpushed]
      simp
    · exact List.rel_append hout (.cons ⟨hp.symm, hbefore p List.mem_cons_self⟩ .nil)
    · exact hbefore r (List.mem_cons_of_mem p hr)

/-- **The batch rule.**  A queue whose batches are worked through is first-in first-out, by batches. -/
theorem Kept.inOrder (h : q.Kept) : q.InOrder := by
  obtain ⟨out, current, waiting, hpushed, hout, hcurrent, -, hwaiting, -⟩ := h
  refine ⟨?_, fun k x hx => ?_⟩
  · have hfst : q.popped.map Prod.fst = out.map Prod.fst :=
      List.forall₂_eq_eq_eq ▸ List.forall₂_map_left_iff.mpr
        (List.forall₂_map_right_iff.mpr (hout.imp fun _ _ hxp => hxp.1))
    rw [hpushed, hfst, ← hcurrent, ← hwaiting]
    simp
  · obtain ⟨hk, rfl⟩ := List.getElem?_eq_some_iff.mp hx
    have hk' : k < out.length := hout.length_eq ▸ hk
    obtain ⟨hfst, hlt⟩ := List.forall₂_iff_get.mp hout |>.2 k hk hk'
    refine ⟨(out.get ⟨k, hk'⟩).2, hlt, ?_⟩
    rw [hpushed, List.getElem?_append_left hk', List.getElem?_eq_getElem hk']
    exact congrArg some (Prod.ext hfst.symm rfl)

end Batches

end Machinery
