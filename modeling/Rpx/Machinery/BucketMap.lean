import Mathlib.Tactic
import Mathlib.Data.Finset.Basic
import Mathlib.Data.Finset.Lattice.Basic

/-!
# Machinery/BucketMap — an ordered map from keys to finite sets

`std::map<K, std::unordered_set<T>>`: the entries in increasing order of their keys, which is a
field.  `update` is `m[k]` changed in place, the bucket created empty when `k` is new.
-/

namespace Machinery

/-- **An ordered map of buckets.** -/
structure BucketMap (κ α : Type*) [LinearOrder κ] where
  entries : List (κ × Finset α)
  /-- The keys increase. -/
  sorted : entries.Pairwise fun a b => a.1 < b.1

namespace BucketMap

variable {κ α : Type*} [LinearOrder κ]

@[ext] theorem ext {m m' : BucketMap κ α} (h : m.entries = m'.entries) : m = m' := by
  obtain ⟨es, hs⟩ := m
  obtain ⟨es', hs'⟩ := m'
  obtain rfl : es = es' := h
  rfl

/-- The map with no entry. -/
def empty : BucketMap κ α := ⟨[], List.Pairwise.nil⟩

def keys (m : BucketMap κ α) : List κ := m.entries.map Prod.fst

/-- The key of `begin()`. -/
def first? (m : BucketMap κ α) : Option κ := m.keys.head?

/-- The bucket at a key, empty when there is none. -/
def bucket (m : BucketMap κ α) (k : κ) : Finset α :=
  ((m.entries.find? fun e => e.1 = k).map Prod.snd).getD ∅

@[simp] theorem keys_empty : (empty : BucketMap κ α).keys = [] := rfl

theorem keys_sorted (m : BucketMap κ α) : m.keys.Pairwise (· < ·) :=
  List.pairwise_map.mpr m.sorted

/-- **`begin()` is the least key.** -/
theorem first?_eq_some_iff {m : BucketMap κ α} {k : κ} :
    m.first? = some k ↔ k ∈ m.keys ∧ ∀ x ∈ m.keys, k ≤ x := by
  have hsorted := m.keys_sorted
  rw [first?]
  cases hm : m.keys with
  | nil => simp
  | cons a l =>
    rw [hm] at hsorted
    have hmin : ∀ x ∈ l, a < x := (List.pairwise_cons.mp hsorted).1
    simp only [List.head?_cons, Option.some.injEq]
    constructor
    · rintro rfl
      exact ⟨List.mem_cons_self, List.forall_mem_cons.mpr ⟨le_rfl, fun x hx => (hmin x hx).le⟩⟩
    · rintro ⟨hk, hle⟩
      rcases List.mem_cons.mp hk with rfl | hk
      · rfl
      · exact absurd (hmin k hk) (not_lt.mpr (hle a List.mem_cons_self))

theorem first?_eq_none_iff {m : BucketMap κ α} : m.first? = none ↔ m.keys = [] := by
  rw [first?, List.head?_eq_none_iff]

theorem exists_first? {m : BucketMap κ α} {x : κ} (hx : x ∈ m.keys) : ∃ k, m.first? = some k := by
  cases hm : m.first? with
  | none => exact absurd hx (first?_eq_none_iff.mp hm ▸ List.not_mem_nil)
  | some k => exact ⟨k, rfl⟩

/-- A map with fewer keys begins no earlier. -/
theorem exists_first?_le {m m' : BucketMap κ α} (h : ∀ x ∈ m'.keys, x ∈ m.keys) {k' : κ}
    (hk' : m'.first? = some k') : ∃ k, m.first? = some k ∧ k ≤ k' := by
  have hmem : k' ∈ m.keys := h k' (first?_eq_some_iff.mp hk').1
  obtain ⟨k, hk⟩ := exists_first? hmem
  exact ⟨k, hk, (first?_eq_some_iff.mp hk).2 k' hmem⟩

/-- Only a key has a bucket with something in it. -/
theorem mem_keys_of_mem_bucket {m : BucketMap κ α} {k : κ} {a : α} (h : a ∈ m.bucket k) :
    k ∈ m.keys := by
  rw [bucket] at h
  cases hf : m.entries.find? fun e => e.1 = k with
  | none => simp [hf] at h
  | some e =>
    have hk : e.1 = k := by simpa using List.find?_some hf
    exact hk ▸ List.mem_map_of_mem (List.mem_of_find?_eq_some hf)

/-! ## Changing one bucket -/

/-- The entry list with the bucket at `k` changed by `f`. -/
def upsert (k : κ) (f : Finset α → Finset α) : List (κ × Finset α) → List (κ × Finset α)
  | [] => [(k, f ∅)]
  | (x, b) :: rest =>
    if k < x then (k, f ∅) :: (x, b) :: rest
    else if k = x then (x, f b) :: rest
    else (x, b) :: upsert k f rest

theorem mem_keys_upsert (k : κ) (f : Finset α → Finset α) (x : κ) (es : List (κ × Finset α)) :
    x ∈ (upsert k f es).map Prod.fst ↔ x = k ∨ x ∈ es.map Prod.fst := by
  induction es with
  | nil => simp [upsert]
  | cons e rest ih =>
    obtain ⟨y, b⟩ := e
    rw [upsert]
    split
    · simp
    · split
      · rename_i hky
        subst hky
        simp
      · simp only [List.map_cons, List.mem_cons, ih]
        tauto

theorem sorted_upsert (k : κ) (f : Finset α → Finset α) (es : List (κ × Finset α))
    (h : es.Pairwise fun a b => a.1 < b.1) : (upsert k f es).Pairwise fun a b => a.1 < b.1 := by
  induction es with
  | nil => exact List.pairwise_singleton _ _
  | cons e rest ih =>
    obtain ⟨y, b⟩ := e
    obtain ⟨hy, hrest⟩ := List.pairwise_cons.mp h
    rw [upsert]
    split
    · rename_i hky
      refine List.pairwise_cons.mpr ⟨fun z hz => ?_, h⟩
      rcases List.mem_cons.mp hz with rfl | hz
      · exact hky
      · exact hky.trans (hy z hz)
    · split
      · exact List.pairwise_cons.mpr ⟨hy, hrest⟩
      · rename_i hlt hne
        refine List.pairwise_cons.mpr ⟨fun z hz => ?_, ih hrest⟩
        rcases (mem_keys_upsert k f z.1 rest).mp (List.mem_map_of_mem hz) with hzk | hzr
        · exact hzk ▸ lt_of_le_of_ne (not_lt.mp hlt) (Ne.symm hne)
        · obtain ⟨w, hw, hwz⟩ := List.mem_map.mp hzr
          exact hwz ▸ hy w hw

/-- `m[k]`, changed by `f`. -/
def update (m : BucketMap κ α) (k : κ) (f : Finset α → Finset α) : BucketMap κ α :=
  ⟨upsert k f m.entries, sorted_upsert k f m.entries m.sorted⟩

@[simp] theorem mem_keys_update {m : BucketMap κ α} {k x : κ} {f : Finset α → Finset α} :
    x ∈ (m.update k f).keys ↔ x = k ∨ x ∈ m.keys :=
  mem_keys_upsert k f x m.entries

/-- A key no earlier than the first leaves the first in its place. -/
theorem first?_update_of_le {m : BucketMap κ α} {k w : κ} (f : Finset α → Finset α)
    (hk : m.first? = some k) (hw : k ≤ w) : (m.update w f).first? = some k := by
  obtain ⟨hmem, hle⟩ := first?_eq_some_iff.mp hk
  refine first?_eq_some_iff.mpr ⟨mem_keys_update.mpr (.inr hmem), fun x hx => ?_⟩
  rcases mem_keys_update.mp hx with rfl | hx
  · exact hw
  · exact hle x hx

/-- A key before all others is the first. -/
theorem first?_update_of_lt {m : BucketMap κ α} {w : κ} (f : Finset α → Finset α)
    (hw : ∀ k ∈ m.first?, w < k) : (m.update w f).first? = some w := by
  refine first?_eq_some_iff.mpr ⟨mem_keys_update.mpr (.inl rfl), fun x hx => ?_⟩
  rcases mem_keys_update.mp hx with rfl | hx
  · exact le_rfl
  · obtain ⟨k, hk⟩ := exists_first? hx
    exact ((hw k hk).trans_le ((first?_eq_some_iff.mp hk).2 x hx)).le

/-- **The bucket that `m[k]` then shows is the old one, changed.** -/
theorem bucket_update (m : BucketMap κ α) (k : κ) (f : Finset α → Finset α) :
    (m.update k f).bucket k = f (m.bucket k) := by
  obtain ⟨es, hsorted⟩ := m
  simp only [bucket, update]
  induction es with
  | nil => simp [upsert]
  | cons e rest ih =>
    obtain ⟨y, b⟩ := e
    obtain ⟨hy, hrest⟩ := List.pairwise_cons.mp hsorted
    rw [upsert]
    split
    · rename_i hky
      have hnone : ((y, b) :: rest).find? (fun e => e.1 = k) = none := by
        refine List.find?_eq_none.mpr fun z hz hzk => ?_
        obtain rfl : z.1 = k := by simpa using hzk
        rcases List.mem_cons.mp hz with rfl | hz
        · exact lt_irrefl _ hky
        · exact lt_asymm hky (hy z hz)
      rw [hnone]
      simp
    · split
      · rename_i hky
        simp [hky]
      · rename_i hne
        simp only [List.find?_cons, Ne.symm hne, decide_false]
        exact ih hrest

/-- The other buckets stay as they were. -/
theorem bucket_update_of_ne (m : BucketMap κ α) {k x : κ} (f : Finset α → Finset α) (hx : x ≠ k) :
    (m.update k f).bucket x = m.bucket x := by
  obtain ⟨es, hsorted⟩ := m
  simp only [bucket, update]
  induction es with
  | nil => simp [upsert, hx.symm]
  | cons e rest ih =>
    obtain ⟨y, b⟩ := e
    rw [upsert]
    split
    · simp [hx.symm]
    · split
      · rename_i hky
        subst hky
        simp [hx.symm]
      · by_cases hy : y = x
        · simp [hy]
        · simp only [List.find?_cons, hy, decide_false]
          exact ih (List.pairwise_cons.mp hsorted).2

/-- **The buckets are the entries.** -/
theorem mem_bucket_iff {m : BucketMap κ α} {k : κ} {a : α} :
    a ∈ m.bucket k ↔ ∃ b, (k, b) ∈ m.entries ∧ a ∈ b := by
  obtain ⟨es, hsorted⟩ := m
  simp only [bucket]
  induction es with
  | nil => simp
  | cons e rest ih =>
    obtain ⟨y, b⟩ := e
    obtain ⟨hy, hrest⟩ := List.pairwise_cons.mp hsorted
    by_cases hk : y = k
    · subst hk
      have hne : ∀ b', (y, b') ∉ rest := fun b' hb' => lt_irrefl y (hy (y, b') hb')
      simp [hne]
    · simp only [List.find?_cons, hk, decide_false, List.mem_cons, Prod.mk.injEq, Ne.symm hk,
        false_and, false_or]
      exact ih hrest

/-! ## Taking entries out -/

/-- The entries whose key satisfies `p`. -/
def filter (m : BucketMap κ α) (p : κ → Bool) : BucketMap κ α :=
  ⟨m.entries.filter fun e => p e.1, m.sorted.filter _⟩

@[simp] theorem mem_keys_filter {m : BucketMap κ α} {p : κ → Bool} {x : κ} :
    x ∈ (m.filter p).keys ↔ x ∈ m.keys ∧ p x = true := by
  simp only [keys, filter, List.mem_map, List.mem_filter]
  constructor
  · rintro ⟨e, ⟨he, hp⟩, rfl⟩
    exact ⟨⟨e, he, rfl⟩, hp⟩
  · rintro ⟨⟨e, he, rfl⟩, hp⟩
    exact ⟨e, ⟨he, hp⟩, rfl⟩

theorem mem_bucket_filter {m : BucketMap κ α} {p : κ → Bool} {k : κ} {a : α} :
    a ∈ (m.filter p).bucket k ↔ a ∈ m.bucket k ∧ p k = true := by
  rw [mem_bucket_iff, mem_bucket_iff]
  simp only [filter, List.mem_filter]
  constructor
  · rintro ⟨b, ⟨hb, hp⟩, ha⟩
    exact ⟨⟨b, hb, ha⟩, hp⟩
  · rintro ⟨⟨b, hb, ha⟩, hp⟩
    exact ⟨b, ⟨hb, hp⟩, ha⟩

/-- `m.erase(k)`. -/
def erase (m : BucketMap κ α) (k : κ) : BucketMap κ α := m.filter (· ≠ k)

/-- `[begin(), upper_bound(k))`. -/
def upTo (m : BucketMap κ α) (k : κ) : BucketMap κ α := m.filter (· ≤ k)

/-- `[upper_bound(k), end())`. -/
def after (m : BucketMap κ α) (k : κ) : BucketMap κ α := m.filter (k < ·)

@[simp] theorem mem_keys_erase {m : BucketMap κ α} {k x : κ} :
    x ∈ (m.erase k).keys ↔ x ∈ m.keys ∧ x ≠ k := by
  simp [erase]

@[simp] theorem mem_keys_after {m : BucketMap κ α} {k x : κ} :
    x ∈ (m.after k).keys ↔ x ∈ m.keys ∧ k < x := by
  simp [after]

/-! ## No empty bucket -/

/-- **No bucket is empty.** -/
def Filled (m : BucketMap κ α) : Prop := ∀ e ∈ m.entries, e.2 ≠ ∅

theorem filled_empty : (empty : BucketMap κ α).Filled := fun _ he => absurd he List.not_mem_nil

theorem bucket_of_mem {m : BucketMap κ α} {e : κ × Finset α} (he : e ∈ m.entries) :
    m.bucket e.1 = e.2 := by
  have hkeys : (m.entries.map Prod.fst).Nodup := m.keys_sorted.imp ne_of_lt
  ext a
  rw [mem_bucket_iff]
  refine ⟨?_, fun ha => ⟨e.2, he, ha⟩⟩
  rintro ⟨b, hb, ha⟩
  have hsame := List.inj_on_of_nodup_map hkeys hb he rfl
  rw [← hsame]
  exact ha

theorem filled_iff {m : BucketMap κ α} : m.Filled ↔ ∀ k ∈ m.keys, m.bucket k ≠ ∅ := by
  constructor
  · intro h k hk
    obtain ⟨e, he, rfl⟩ := List.mem_map.mp hk
    rw [bucket_of_mem he]
    exact h e he
  · intro h e he
    rw [← bucket_of_mem he]
    exact h e.1 (List.mem_map_of_mem he)

theorem Filled.filter {m : BucketMap κ α} (h : m.Filled) (p : κ → Bool) : (m.filter p).Filled :=
  fun e he => h e (List.mem_filter.mp he).1

/-- A bucket that something is put in. -/
theorem Filled.update {m : BucketMap κ α} (h : m.Filled) {k : κ} {f : Finset α → Finset α}
    (hf : f (m.bucket k) ≠ ∅) : (m.update k f).Filled := by
  rw [filled_iff] at h ⊢
  intro x hx
  rcases eq_or_ne x k with rfl | hne
  · rwa [bucket_update]
  · rw [bucket_update_of_ne _ _ hne]
    exact h x ((mem_keys_update.mp hx).resolve_left hne)

/-- **A bucket that is taken out when it has become empty.** -/
theorem Filled.prune [DecidableEq α] {m : BucketMap κ α} (h : m.Filled) (k : κ) (f : Finset α → Finset α) :
    (if (m.update k f).bucket k = ∅ then (m.update k f).erase k else m.update k f).Filled := by
  split
  · rw [filled_iff] at h ⊢
    intro x hx
    obtain ⟨hx, hne⟩ := mem_keys_erase.mp hx
    have hkept := h x ((mem_keys_update.mp hx).resolve_left hne)
    obtain ⟨a, ha⟩ := Finset.nonempty_iff_ne_empty.mpr hkept
    rw [← bucket_update_of_ne m f hne] at ha
    exact Finset.ne_empty_of_mem (mem_bucket_filter.mpr ⟨ha, decide_eq_true hne⟩)
  · rename_i hbucket
    rw [bucket_update] at hbucket
    exact h.update hbucket

end BucketMap

end Machinery
