import Mathlib.Data.Finmap
import Mathlib.Tactic

/-!
# Machinery/SwapMap — a map filled by swaps, and the residue they leave

    m[n].swap(acc)        acc collects the value;   what m[n] held stays in acc

A line `(n, v)` is stored by appending `v` to an accumulator and swapping that with the entry `n`.
The swap leaves behind what the entry held, and the next line finds it: a **residue**.  `residue`
and `held` say, from the lines alone, what a line finds and what an entry holds; `foldl_store` says
that this is what the map does, and `map_residue` that a reading of the values reads the residues.
-/

namespace Machinery.SwapMap

universe u

variable {ν μ : Type u} [DecidableEq ν] (op : μ → μ → μ) (e : μ)

/-- One line stored: the map and the accumulator after it. -/
def store (s : (Finmap fun _ : ν => μ) × μ) (l : ν × μ) : (Finmap fun _ : ν => μ) × μ :=
  (s.1.insert l.1 (op s.2 l.2), (s.1.lookup l.1).getD e)

/-! ## Residues

Both read the lines so far, the latest first; `r` is what the first of them finds. -/

mutual

/-- **What the next line finds** in the accumulator: what the entry of the latest line held before
it. -/
def residue (r : μ) : List (ν × μ) → μ
  | [] => r
  | (n, _) :: earlier => (held r n earlier).getD e

/-- **What the entry `n` holds**: the value of its latest line, after the residue that line found. -/
def held (r : μ) (n : ν) : List (ν × μ) → Option μ
  | [] => none
  | (m, v) :: earlier => if m = n then some (op (residue r earlier) v) else held r n earlier

end

/-- **The map holds `held`, the accumulator holds `residue`.** -/
theorem foldl_store (r : μ) (ls : List (ν × μ)) :
    (∀ n, (ls.foldl (store op e) (∅, r)).1.lookup n = held op e r n ls.reverse)
      ∧ (ls.foldl (store op e) (∅, r)).2 = residue op e r ls.reverse := by
  induction ls using List.reverseRecOn with
  | nil => exact ⟨fun n => Finmap.lookup_empty n, rfl⟩
  | append_singleton ls l ih =>
    obtain ⟨hmap, hacc⟩ := ih
    obtain ⟨m, v⟩ := l
    rw [List.foldl_append, List.foldl_cons, List.foldl_nil, List.reverse_append,
      List.reverse_singleton, List.singleton_append]
    refine ⟨fun n => ?_, ?_⟩
    · rw [held, store]
      split
      · rename_i hmn
        rw [← hmn, Finmap.lookup_insert, hacc]
      · rename_i hmn
        rw [Finmap.lookup_insert_of_ne _ (Ne.symm hmn), hmap]
    · rw [residue, store, hmap]

/-- **A reading of the values reads the residues.** -/
theorem map_residue {μ' : Type u} {op' : μ' → μ' → μ'} {e' : μ'} (f : μ → μ')
    (hop : ∀ a b, f (op a b) = op' (f a) (f b)) (he : f e = e') (r : μ) (ls : List (ν × μ)) :
    f (residue op e r ls) = residue op' e' (f r) (ls.map (Prod.map id f))
      ∧ ∀ n, (held op e r n ls).map f = held op' e' (f r) n (ls.map (Prod.map id f)) := by
  induction ls with
  | nil => exact ⟨rfl, fun _ => rfl⟩
  | cons l ls ih =>
    obtain ⟨m, v⟩ := l
    obtain ⟨hres, hheld⟩ := ih
    refine ⟨?_, fun n => ?_⟩
    · simp only [residue, List.map_cons, Prod.map_apply, id_eq, ← hheld]
      cases held op e r m ls with
      | none => exact he
      | some a => rfl
    · simp only [held, List.map_cons, Prod.map_apply, id_eq]
      split
      · rw [Option.map_some, hop, hres]
      · exact hheld n

/-- **What every value has and appending keeps, every residue and every entry has.** -/
theorem forall_residue {P : μ → Prop} (hop : ∀ a b, P a → P b → P (op a b)) (he : P e) {r : μ}
    (hr : P r) (ls : List (ν × μ)) (hls : ∀ l ∈ ls, P l.2) :
    P (residue op e r ls) ∧ ∀ n, ∀ v ∈ held op e r n ls, P v := by
  induction ls with
  | nil => exact ⟨hr, fun n v hv => absurd hv (Option.not_mem_none v)⟩
  | cons l ls ih =>
    obtain ⟨m, w⟩ := l
    obtain ⟨hw, hls⟩ := List.forall_mem_cons.mp hls
    obtain ⟨hres, hheld⟩ := ih hls
    refine ⟨?_, fun n v hv => ?_⟩
    · rw [residue]
      cases hm : held op e r m ls with
      | none => exact he
      | some v => exact hheld m v hm
    · rw [held] at hv
      split at hv
      · cases hv
        exact hop _ _ hres hw
      · exact hheld n v hv

/-! ## Against the map where the last value wins -/

/-- The map of the latest value of each name. -/
def lastWins (ls : List (ν × μ)) : Finmap fun _ : ν => μ :=
  ls.foldl (fun m l => m.insert l.1 l.2) ∅

theorem lookup_foldl_insert (m : Finmap fun _ : ν => μ) {n : ν} {ls : List (ν × μ)}
    (h : n ∉ ls.map Prod.fst) :
    (ls.foldl (fun m l => m.insert l.1 l.2) m).lookup n = m.lookup n := by
  induction ls generalizing m with
  | nil => rfl
  | cons l ls ih =>
    obtain ⟨hne, hls⟩ := List.ne_and_not_mem_of_not_mem_cons h
    rw [List.foldl_cons, ih _ hls, Finmap.lookup_insert_of_ne _ hne]

theorem lookup_lastWins_of_not_mem {n : ν} {ls : List (ν × μ)} (h : n ∉ ls.map Prod.fst) :
    (lastWins ls).lookup n = none :=
  (lookup_foldl_insert ∅ h).trans (Finmap.lookup_empty n)

theorem lookup_lastWins (earlier : List (ν × μ)) (n : ν) (v : μ) {later : List (ν × μ)}
    (h : n ∉ later.map Prod.fst) :
    (lastWins (earlier ++ (n, v) :: later)).lookup n = some v := by
  rw [lastWins, List.foldl_append, List.foldl_cons, lookup_foldl_insert _ h,
    Finmap.lookup_insert]

/-- An entry is decided by its latest line, whatever follows that. -/
theorem held_append_of_not_mem (r : μ) {n : ν} {later : List (ν × μ)}
    (h : n ∉ later.map Prod.fst) (earlier : List (ν × μ)) :
    held op e r n (later ++ earlier) = held op e r n earlier := by
  induction later with
  | nil => rfl
  | cons l later ih =>
    obtain ⟨hm, hlater⟩ := List.ne_and_not_mem_of_not_mem_cons h
    rw [List.cons_append, held, if_neg (Ne.symm hm), ih hlater]

theorem lookup_store_of_not_mem (r : μ) {n : ν} {ls : List (ν × μ)} (h : n ∉ ls.map Prod.fst) :
    (ls.foldl (store op e) (∅, r)).1.lookup n = none := by
  have hrev : n ∉ ls.reverse.map Prod.fst := by
    rwa [List.map_reverse, List.mem_reverse]
  rw [(foldl_store op e r ls).1, ← List.append_nil ls.reverse,
    held_append_of_not_mem op e r hrev [], held]

/-- **An entry holds the value of its latest line, after the residue which that line found.** -/
theorem lookup_store (r : μ) (earlier : List (ν × μ)) (n : ν) (v : μ) {later : List (ν × μ)}
    (h : n ∉ later.map Prod.fst) :
    ((earlier ++ (n, v) :: later).foldl (store op e) (∅, r)).1.lookup n
      = some (op (residue op e r earlier.reverse) v) := by
  have hrev : n ∉ later.reverse.map Prod.fst := by
    rwa [List.map_reverse, List.mem_reverse]
  rw [(foldl_store op e r _).1, List.reverse_append, List.reverse_cons, List.append_assoc,
    held_append_of_not_mem op e r hrev, List.singleton_append, held, if_pos rfl]

omit [DecidableEq ν] in
/-- A name has a latest line, or none. -/
theorem exists_latest (n : ν) (ls : List (ν × μ)) :
    n ∉ ls.map Prod.fst
      ∨ ∃ earlier v later, ls = earlier ++ (n, v) :: later ∧ n ∉ later.map Prod.fst := by
  induction ls with
  | nil => exact .inl List.not_mem_nil
  | cons l ls ih =>
    obtain ⟨m, v⟩ := l
    rcases ih with hnone | ⟨earlier, w, later, rfl, hlater⟩
    · rcases eq_or_ne n m with rfl | hne
      · exact .inr ⟨[], v, ls, rfl, hnone⟩
      · exact .inl (List.not_mem_cons_of_ne_of_not_mem hne hnone)
    · exact .inr ⟨(m, v) :: earlier, w, later, rfl, hlater⟩

/-- The names of the map are those of the lines. -/
theorem isSome_lookup_store (r : μ) (n : ν) (ls : List (ν × μ)) :
    ((ls.foldl (store op e) (∅, r)).1.lookup n).isSome ↔ n ∈ ls.map Prod.fst := by
  rcases exists_latest n ls with hnone | ⟨earlier, v, later, rfl, hlater⟩
  · rw [lookup_store_of_not_mem op e r hnone]
    exact iff_of_false Bool.false_ne_true hnone
  · rw [lookup_store op e r earlier n v hlater]
    exact iff_of_true rfl (by simp)

/-- **The swaps lose against plain assignment exactly at the latest lines that found residue.** -/
theorem foldl_store_eq_lastWins_iff (r : μ) (ls : List (ν × μ)) :
    (ls.foldl (store op e) (∅, r)).1 = lastWins ls
      ↔ ∀ earlier n v later, ls = earlier ++ (n, v) :: later → n ∉ later.map Prod.fst →
          op (residue op e r earlier.reverse) v = v := by
  constructor
  · rintro heq earlier n v later rfl hlater
    have hlookup := lookup_store op e r earlier n v hlater
    rw [heq, lookup_lastWins earlier n v hlater] at hlookup
    exact (Option.some.inj hlookup).symm
  · intro hclean
    refine Finmap.ext_lookup fun n => ?_
    rcases exists_latest n ls with hnone | ⟨earlier, v, later, rfl, hlater⟩
    · rw [lookup_store_of_not_mem op e r hnone, lookup_lastWins_of_not_mem hnone]
    · rw [lookup_store op e r earlier n v hlater, lookup_lastWins earlier n v hlater,
        hclean earlier n v later rfl hlater]

end Machinery.SwapMap
