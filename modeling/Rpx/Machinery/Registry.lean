import Mathlib.Tactic

/-!
# Machinery/Registry — a table whose entries are erased later, by key

Entries are made under keys that may be used again, and are erased by requests that name the key alone.
A request is queued when an entry is retired and carried out later; what keeps the two in step is that
a retired entry stays in the table until its own request is carried out.  Both facts are fields, so a
registry in which a request would erase another entry cannot be built.
-/

namespace Machinery

/-- **A table and the erasures queued for it**: each request with the entry that it is for. -/
structure Registry (κ ι : Type*) where
  table : κ → Option ι
  retired : List (κ × ι)
  /-- A retired entry is still in the table. -/
  held : ∀ e ∈ retired, table e.1 = some e.2
  /-- No key is retired twice. -/
  once : (retired.map Prod.fst).Nodup

namespace Registry

variable {κ ι : Type*}

/-- The table without entries. -/
def empty : Registry κ ι := ⟨fun _ => none, [], fun _ he => absurd he List.not_mem_nil, List.nodup_nil⟩

/-- An entry is retired: the request to erase it is queued. -/
def retire (r : Registry κ ι) (k : κ) (i : ι) (hi : r.table k = some i)
    (hnew : ∀ e ∈ r.retired, e.2 ≠ i) : Registry κ ι where
  table := r.table
  retired := r.retired ++ [(k, i)]
  held := by
    intro e he
    rcases List.mem_append.mp he with he | he
    · exact r.held e he
    · obtain rfl := List.mem_singleton.mp he
      exact hi
  once := by
    rw [List.map_append, List.nodup_append]
    refine ⟨r.once, List.nodup_singleton _, fun k' hk' k'' hk'' heq => ?_⟩
    obtain ⟨e, he, rfl⟩ := List.mem_map.mp hk'
    obtain rfl : k'' = k := List.mem_singleton.mp hk''
    have hsame := r.held e he
    rw [heq, hi] at hsame
    exact hnew e he (Option.some.inj hsame).symm

@[simp] theorem table_retire (r : Registry κ ι) (k : κ) (i : ι) (hi : r.table k = some i)
    (hnew : ∀ e ∈ r.retired, e.2 ≠ i) : (r.retire k i hi hnew).table = r.table := rfl

@[simp] theorem retired_retire (r : Registry κ ι) (k : κ) (i : ι) (hi : r.table k = some i)
    (hnew : ∀ e ∈ r.retired, e.2 ≠ i) : (r.retire k i hi hnew).retired = r.retired ++ [(k, i)] := rfl

variable [DecidableEq κ]

/-- An entry is made under a key that is free. -/
def insert (r : Registry κ ι) (k : κ) (i : ι) (hk : r.table k = none) : Registry κ ι where
  table := Function.update r.table k (some i)
  retired := r.retired
  held := by
    intro e he
    have hne : e.1 ≠ k := by
      rintro rfl
      exact Option.some_ne_none e.2 ((r.held e he).symm.trans hk)
    rw [Function.update_of_ne hne]
    exact r.held e he
  once := r.once

@[simp] theorem table_insert (r : Registry κ ι) (k : κ) (i : ι) (hk : r.table k = none) :
    (r.insert k i hk).table = Function.update r.table k (some i) := rfl

@[simp] theorem retired_insert (r : Registry κ ι) (k : κ) (i : ι) (hk : r.table k = none) :
    (r.insert k i hk).retired = r.retired := rfl

/-- The oldest request is carried out. -/
def erase (r : Registry κ ι) {e : κ × ι} {rest : List (κ × ι)} (h : r.retired = e :: rest) :
    Registry κ ι where
  table := Function.update r.table e.1 none
  retired := rest
  held := by
    intro e' he'
    have honce := r.once
    rw [h, List.map_cons, List.nodup_cons] at honce
    have hne : e'.1 ≠ e.1 := fun heq => honce.1 (heq ▸ List.mem_map_of_mem he')
    rw [Function.update_of_ne hne]
    exact r.held e' (h ▸ List.mem_cons_of_mem e he')
  once := by
    have honce := r.once
    rw [h, List.map_cons, List.nodup_cons] at honce
    exact honce.2

@[simp] theorem table_erase (r : Registry κ ι) {e : κ × ι} {rest : List (κ × ι)}
    (h : r.retired = e :: rest) : (r.erase h).table = Function.update r.table e.1 none := rfl

@[simp] theorem retired_erase (r : Registry κ ι) {e : κ × ι} {rest : List (κ × ι)}
    (h : r.retired = e :: rest) : (r.erase h).retired = rest := rfl

end Registry

end Machinery
