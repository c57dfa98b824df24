import Rpx.Core.Bytes

/-!
# Http/StaticHandler — which file a path names

    path ──no ".."──▶ [ cut off the prefix ] ──▶ '/' … ──▶ root ++ path [ ++ "index.html" ] ──▶ open

The handler looks for `..` in the path as it came, and joins root and path where the path has a slash, its
own or one put in front of what the prefix has left.  So the root's last segment stays whole, and the
segments behind it are pieces of the path: `below_opened`.
-/

/-- `StaticHandler(rootPath, alias)`. -/
structure StaticHandler where
  rootPath : Bytes
  /-- `_alias` -/
  isAlias : Bool

namespace StaticHandler

/-- The path that `operator()` opens.  It opens none where it answers `FORBIDDEN`, and where `substr`
throws, past the end of the path. -/
def filePath (s : StaticHandler) (prefixLen : ℕ) (path : Bytes) : Option Bytes :=
  if ascii ".." <:+: path then none
  else if s.isAlias ∧ path.length < prefixLen then none
  else
    let filePath :=
      if s.isAlias then
        let path := path.drop prefixLen
        s.rootPath ++ if path.head? = some 47 then path else 47 :: path
      else s.rootPath ++ path
    some (if filePath.getLast? = some 47 then filePath ++ ascii "index.html" else filePath)

/-- The name that `std::ifstream` gives to the system: a string up to its first NUL. -/
def cString (path : Bytes) : Bytes := path.takeWhile (· ≠ 0)

/-! ## Segments -/

/-- The segments of a path, without those that are empty or `.`. -/
def segments (path : Bytes) : List Bytes :=
  (path.splitOn 47).filter fun seg => !decide (seg = [] ∨ seg = ascii ".")

/-- **A file at or below a root**, lexically. -/
def Below (root file : Bytes) : Prop :=
  ∃ rest, segments file = segments root ++ rest ∧ ascii ".." ∉ rest

/-- A slash ends a segment. -/
theorem segments_append_slash (p q : Bytes) : segments (p ++ 47 :: q) = segments p ++ segments q := by
  rw [segments, List.splitOn_append_cons_self, List.filter_append]
  rfl

/-- Between two separators lies a piece of the list, and in front of the first a prefix. -/
theorem infix_of_mem_splitOn {α : Type*} [BEq α] {a : α} {xs : List α} {hd : List α} {tl : List (List α)}
    (h : xs.splitOn a = hd :: tl) : hd <+: xs ∧ ∀ seg ∈ tl, seg <:+: xs := by
  induction xs generalizing hd tl with
  | nil =>
    rw [List.splitOn_nil] at h
    cases h
    exact ⟨List.nil_prefix, fun seg hseg => absurd hseg List.not_mem_nil⟩
  | cons x xs ih =>
    rw [List.splitOn_cons_eq_if_modifyHead] at h
    obtain ⟨hd', tl', heq⟩ := List.exists_cons_of_ne_nil (List.splitOn_ne_nil a xs)
    obtain ⟨hhead, hinside⟩ := ih heq
    rw [heq] at h
    split at h
    · cases h
      refine ⟨List.nil_prefix, fun seg hseg => ?_⟩
      rcases List.mem_cons.mp hseg with rfl | hseg
      · exact hhead.isInfix.trans (List.suffix_cons x xs).isInfix
      · exact (hinside seg hseg).trans (List.suffix_cons x xs).isInfix
    · cases h
      exact ⟨(List.prefix_cons_inj x).mpr hhead,
        fun seg hseg => (hinside seg hseg).trans (List.suffix_cons x xs).isInfix⟩

/-- **A path without `..` in it has no segment `..`.** -/
theorem not_mem_segments {p : Bytes} (hp : ¬ ascii ".." <:+: p) : ascii ".." ∉ segments p := by
  intro hmem
  obtain ⟨hd, tl, heq⟩ := List.exists_cons_of_ne_nil (List.splitOn_ne_nil 47 p)
  obtain ⟨hhead, hinside⟩ := infix_of_mem_splitOn heq
  have hseg := (List.mem_filter.mp hmem).1
  rw [heq] at hseg
  rcases List.mem_cons.mp hseg with hhd | htl
  · exact hp (hhd ▸ hhead.isInfix)
  · exact hp (hinside _ htl)

/-! ## Below the root -/

variable {root file p : Bytes}

/-- The root itself. -/
theorem below_refl (root : Bytes) : Below root root :=
  ⟨[], (List.append_nil _).symm, List.not_mem_nil⟩

/-- **What is joined with a slash** lies below the root. -/
theorem below_append (root : Bytes) (hp : ¬ ascii ".." <:+: p) : Below root (root ++ 47 :: p) :=
  ⟨segments p, segments_append_slash root p, not_mem_segments hp⟩

/-- …and so does the index of a directory that does. -/
theorem Below.index (h : Below root file) (hfile : file.getLast? = some 47) :
    Below root (file ++ ascii "index.html") := by
  obtain ⟨rest, hrest, hnot⟩ := h
  obtain ⟨dir, rfl⟩ := List.getLast?_eq_some_iff.mp hfile
  have hindex : segments (ascii "index.html") = [ascii "index.html"] := by
    rw [segments, List.splitOn_eq_singleton (by decide)]
    decide
  have hempty : segments [] = [] := by
    rw [segments, List.splitOn_nil]
    decide
  rw [segments_append_slash, hempty, List.append_nil] at hrest
  refine ⟨rest ++ [ascii "index.html"], ?_, ?_⟩
  · rw [List.append_assoc, List.singleton_append, segments_append_slash, hindex, hrest, List.append_assoc]
  · rw [List.mem_append, not_or]
    exact ⟨hnot, by decide⟩

/-- A name that is cut short. -/
theorem cString_append (p q : Bytes) : cString (p ++ q) = if 0 ∈ p then cString p else p ++ cString q := by
  induction p with
  | nil => rfl
  | cons b p ih =>
    by_cases hb : b = 0
    · simp [cString, hb]
    · have hcons : ∀ r, cString (b :: r) = b :: cString r := fun r =>
        List.takeWhile_cons_of_pos (by simp [hb])
      rw [List.cons_append, hcons, hcons, ih]
      simp only [List.mem_cons, Ne.symm hb, false_or]
      split
      · rfl
      · rfl

/-- **A name cut short still lies below the root**, cut short as well. -/
theorem below_cString_append (root : Bytes) (hp : ¬ ascii ".." <:+: p) :
    Below (cString root) (cString (root ++ 47 :: p)) := by
  rw [cString_append]
  split
  · exact below_refl _
  · rename_i hroot
    have hwhole : cString root = root := by
      have happend := cString_append root []
      rw [if_neg hroot, List.append_nil] at happend
      rw [happend]
      exact List.append_nil root
    have hslash : cString (47 :: p) = 47 :: cString p := rfl
    rw [hwhole, hslash]
    exact below_append root fun hin => hp (hin.trans (List.takeWhile_prefix _).isInfix)

theorem Below.cString_index (h : Below (cString root) (cString file)) (hfile : file.getLast? = some 47) :
    Below (cString root) (cString (file ++ ascii "index.html")) := by
  rw [cString_append]
  split
  · exact h
  · rename_i hnul
    have hwhole : cString file = file := by
      have happend := cString_append file []
      rw [if_neg hnul, List.append_nil] at happend
      rw [happend]
      exact List.append_nil file
    rw [hwhole] at h
    exact h.index hfile

/-- **No request leads out of the root.**  For every root, with and without alias, every path that begins
with a slash and every prefix, a file that is opened has the segments of the root, followed by segments
none of which is `..`; also when a name is taken to end at its first NUL. -/
theorem below_opened (s : StaticHandler) (prefixLen : ℕ) (path : Bytes) (hpath : path.head? = some 47)
    {file : Bytes} (hfile : s.filePath prefixLen path = some file) :
    Below s.rootPath file ∧ Below (cString s.rootPath) (cString file) := by
  rw [filePath] at hfile
  split at hfile
  · cases hfile
  rename_i hdots
  split at hfile
  · cases hfile
  · have hsafe : ∀ q : Bytes, q <:+: path → ¬ ascii ".." <:+: q := fun q hq hin => hdots (hin.trans hq)
    -- with its slash in front, whatever is joined is a piece of the path
    obtain ⟨q, hq, hjoined⟩ : ∃ q, ¬ ascii ".." <:+: q ∧
        (if s.isAlias then
          s.rootPath ++ if (path.drop prefixLen).head? = some 47 then path.drop prefixLen
            else 47 :: path.drop prefixLen
        else s.rootPath ++ path) = s.rootPath ++ 47 :: q := by
      have hdrop := (List.drop_suffix prefixLen path).isInfix
      split
      · split
        · rename_i hslash
          obtain ⟨q, hq⟩ := List.head?_eq_some_iff.mp hslash
          rw [hq] at hdrop ⊢
          exact ⟨q, hsafe q ((List.suffix_cons 47 q).isInfix.trans hdrop), rfl⟩
        · exact ⟨path.drop prefixLen, hsafe _ hdrop, rfl⟩
      · obtain ⟨q, rfl⟩ := List.head?_eq_some_iff.mp hpath
        exact ⟨q, hsafe q (List.suffix_cons 47 q).isInfix, rfl⟩
    simp only [hjoined] at hfile
    have hbelow := below_append s.rootPath hq
    have hcString := below_cString_append s.rootPath hq
    cases hfile
    split
    · rename_i hslash
      exact ⟨hbelow.index hslash, hcString.cString_index hslash⟩
    · exact ⟨hbelow, hcString⟩

/-- A prefix cut off in the middle of a segment, and a directory. -/
theorem below_opened_alias :
    Below (ascii "/srv/www") (ascii "/srv/www/tic/a/index.html")
      ∧ Below (cString (ascii "/srv/www")) (cString (ascii "/srv/www/tic/a/index.html")) :=
  below_opened ⟨ascii "/srv/www", true⟩ 4 (ascii "/static/a/") (by decide) (by decide)

end StaticHandler
