import Mathlib.Data.List.Pairwise
import Rpx.Http.HttpRouter
import Rpx.Http.StaticHandler

/-!
# Http/RouteOrder — when the order of registration matters

    /static          /static/a          /static2
       └── takes ──▶ /static/a    but not ──▶ /static2

Two simple routes get in each other's way exactly when one of them takes the text of the other for a path.
Where no two different ones do, the table can be registered in any order; where two do, some path goes to
the one that comes first: `any_order_iff`.  The five routes of `main` do not.
-/

namespace HttpRouter

variable {η : Type*}

/-- `addSimpleRoute(pattern, handler)`. -/
def simpleRoute (r : Bytes × η) : Route η := ⟨.simple r.1, r.2⟩

/-- The route takes the path. -/
def Takes (r : Bytes × η) (path : Bytes) : Prop := SimpleRoute.match r.1 path ≠ 0

instance (r : Bytes × η) (path : Bytes) : Decidable (Takes r path) :=
  inferInstanceAs (Decidable (_ ≠ _))

/-- Neither of two routes takes the text of the other. -/
def Apart (r s : Bytes × η) : Prop := ¬ Takes r s.1 ∧ ¬ Takes s r.1

instance (r s : Bytes × η) : Decidable (Apart r s) := inferInstanceAs (Decidable (_ ∧ _))

variable {r s : Bytes × η} {path : Bytes}

/-! ## What a simple route takes -/

/-- A route takes its own text and what goes on after it with punctuation. -/
theorem takes_iff (hpath : 0 ∉ path) :
    Takes r path ↔ r.1 ≠ [] ∧ r.1 <+: path ∧ ∀ c ∈ path[r.1.length]?, ispunct c = true := by
  obtain ⟨hmatch, hno⟩ := SimpleRoute.match_spec hpath r.1
  rw [Takes]
  by_cases h : r.1 <+: path ∧ ∀ c ∈ path[r.1.length]?, ispunct c = true
  · rw [hmatch h, and_iff_left h, ne_eq, List.length_eq_zero_iff]
  · rw [hno h]
    exact iff_of_false (fun hne => hne rfl) fun hand => h hand.2

/-- What it has taken off is its text. -/
theorem Takes.match_eq (h : Takes r path) (hpath : 0 ∉ path) :
    SimpleRoute.match r.1 path = r.1.length :=
  (SimpleRoute.match_spec hpath r.1).1 ((takes_iff hpath).mp h).2

theorem takes_self (hnul : 0 ∉ r.1) (hne : r.1 ≠ []) : Takes r r.1 :=
  (takes_iff hnul).mpr ⟨hne, List.prefix_rfl, fun c hc => by
    rw [List.getElem?_eq_none le_rfl] at hc
    cases hc⟩

/-- **Of two routes that take one path, the one takes the text of the other.** -/
theorem Takes.takes_text (h : Takes r path) (h' : Takes s path) (hpath : 0 ∉ path)
    (hle : r.1.length ≤ s.1.length) : Takes r s.1 := by
  obtain ⟨hne, hhead, hpunct⟩ := (takes_iff hpath).mp h
  obtain ⟨-, hhead', -⟩ := (takes_iff hpath).mp h'
  have hnul : 0 ∉ s.1 := fun hmem => hpath (hhead'.subset hmem)
  refine (takes_iff hnul).mpr ⟨hne, List.prefix_of_prefix_length_le hhead hhead' hle, fun c hc => ?_⟩
  obtain ⟨rest, rfl⟩ := hhead'
  refine hpunct c ?_
  obtain ⟨hlt, -⟩ := List.getElem?_eq_some_iff.mp hc
  rwa [List.getElem?_append_left hlt]

/-- **Routes that are apart take no path in common.** -/
theorem Apart.not_both (h : Apart r s) (hpath : 0 ∉ path) : ¬ (Takes r path ∧ Takes s path) := by
  rintro ⟨hr, hs⟩
  rcases le_total r.1.length s.1.length with hle | hle
  · exact h.1 (hr.takes_text hs hpath hle)
  · exact h.2 (hs.takes_text hr hpath hle)

/-! ## The first that takes it -/

/-- **The router calls the first route that takes the path.** -/
theorem handleRequest_find? (routes : List (Bytes × η)) (hpath : 0 ∉ path) :
    handleRequest path (routes.map simpleRoute)
      = some [match routes.find? fun r => decide (Takes r path) with
          | some r => .handle r.2 r.1.length
          | none => .sendError 404] := by
  induction routes with
  | nil => rfl
  | cons r routes ih =>
    rw [List.map_cons, handleRequest]
    have hmatch : (simpleRoute r).match path = some (SimpleRoute.match r.1 path) := rfl
    rw [hmatch]
    by_cases h : Takes r path
    · rw [List.find?_cons_of_pos (by simpa using h), h.match_eq hpath]
      obtain ⟨n, hn⟩ : ∃ n, r.1.length = n + 1 :=
        Nat.exists_eq_succ_of_ne_zero fun hzero => h ((h.match_eq hpath).trans hzero)
      rw [hn]
      exact congrArg (fun m => some [Action.handle r.2 m]) hn.symm
    · rw [List.find?_cons_of_neg (by simpa using h), ← ih]
      have hzero : SimpleRoute.match r.1 path = 0 := not_not.mp h
      rw [hzero]

/-- Where only one element can be found, the order makes no difference. -/
theorem find?_perm {α : Type*} {p : α → Bool} {l l' : List α} (hperm : l.Perm l')
    (hone : ∀ a ∈ l, ∀ b ∈ l, p a = true → p b = true → a = b) : l'.find? p = l.find? p := by
  cases hfind : l.find? p with
  | none =>
    rw [List.find?_eq_none] at hfind ⊢
    exact fun a ha => hfind a (hperm.mem_iff.mpr ha)
  | some a =>
    have ha := List.mem_of_find?_eq_some hfind
    have hpa := List.find?_some hfind
    cases hfind' : l'.find? p with
    | none => exact absurd hpa (List.find?_eq_none.mp hfind' a (hperm.mem_iff.mp ha))
    | some b =>
      have hb := hperm.mem_iff.mpr (List.mem_of_find?_eq_some hfind')
      rw [hone b hb a ha (List.find?_some hfind') hpa]

/-- **Two routes in each other's way** are told apart by their order. -/
theorem eq_of_swap {rest : List (Bytes × η)} (htakes : Takes r s.1) (hnul : 0 ∉ s.1)
    (h : handleRequest s.1 ((r :: s :: rest).map simpleRoute)
      = handleRequest s.1 ((s :: r :: rest).map simpleRoute)) : r = s := by
  obtain ⟨hne, hhead, -⟩ := (takes_iff hnul).mp htakes
  have hself : Takes s s.1 := takes_self hnul fun hnil => hne (List.prefix_nil.mp (hnil ▸ hhead))
  rw [handleRequest_find? _ hnul, handleRequest_find? _ hnul,
    List.find?_cons_of_pos (by simpa using htakes), List.find?_cons_of_pos (by simpa using hself)] at h
  injection h with h
  injection h with h
  injection h with hhandler hlength
  exact Prod.ext (hhead.eq_of_length hlength) hhandler

/-- **The order of registration, exactly.**  For every table of simple routes, with texts and paths that
hold no NUL: every path is handled alike in whichever order the routes are registered, if and only if of
any two different ones neither takes the text of the other. -/
theorem any_order_iff (routes : List (Bytes × η)) (hnul : ∀ r ∈ routes, 0 ∉ r.1) :
    (∀ routes' : List (Bytes × η), routes.Perm routes' → ∀ path : Bytes, 0 ∉ path →
        handleRequest path (routes'.map simpleRoute) = handleRequest path (routes.map simpleRoute))
      ↔ routes.Pairwise fun r s => r = s ∨ Apart r s := by
  constructor
  · intro h
    -- two routes are brought to the front, in either order
    have hfront : ∀ r s, [r, s].Sublist routes → ∀ path : Bytes, 0 ∉ path → ∃ rest,
        handleRequest path ((r :: s :: rest).map simpleRoute)
          = handleRequest path ((s :: r :: rest).map simpleRoute) := by
      intro r s hsub path hpath
      obtain ⟨rest, hperm⟩ := hsub.exists_perm_append
      refine ⟨rest, (h _ hperm path hpath).trans (h _ (hperm.trans ?_) path hpath).symm⟩
      exact List.Perm.swap s r rest
    refine List.pairwise_iff_forall_sublist.mpr fun {r s} hsub => ?_
    have hmem : ∀ x ∈ [r, s], x ∈ routes := fun x hx => hsub.subset hx
    have hr : 0 ∉ r.1 := hnul r (hmem r (by simp))
    have hs : 0 ∉ s.1 := hnul s (hmem s (by simp))
    by_cases hapart : Apart r s
    · exact .inr hapart
    · left
      by_cases htakes : Takes r s.1
      · obtain ⟨rest, heq⟩ := hfront r s hsub s.1 hs
        exact eq_of_swap htakes hs heq
      · have htakes' : Takes s r.1 := not_not.mp fun hno => hapart ⟨htakes, hno⟩
        obtain ⟨rest, heq⟩ := hfront r s hsub r.1 hr
        exact (eq_of_swap htakes' hr heq.symm).symm
  · intro h routes' hperm path hpath
    have hpair : ∀ r ∈ routes, ∀ s ∈ routes, r = s ∨ Apart r s := by
      have hsymm : Std.Symm fun r s : Bytes × η => r = s ∨ Apart r s :=
        ⟨fun _ _ hrs => hrs.imp Eq.symm And.symm⟩
      exact fun r hr s hs => List.Pairwise.forall_of_forall (fun _ _ => .inl rfl) h hr hs
    rw [handleRequest_find? _ hpath, handleRequest_find? _ hpath]
    rw [find?_perm hperm fun r hr s hs hp hp' => ?_]
    exact (hpair r hr s hs).resolve_right fun hapart =>
      hapart.not_both hpath ⟨of_decide_eq_true hp, of_decide_eq_true hp'⟩

/-! ## The routes of `main` -/

/-- A handler that `main` registers. -/
inductive Mounted
  /-- It answers `pong`. -/
  | ping
  | static (h : StaticHandler)
  | proxy (host : Bytes) (port : UInt16)

/-- The calls of `addSimpleRoute` in `main`. -/
def mainRoutes : List (Bytes × Mounted) :=
  [(ascii "/ping", .ping), (ascii "/static", .static ⟨ascii ".", false⟩),
    (ascii "/baidu", .proxy (ascii "www.baidu.com") 80),
    (ascii "/self", .proxy (ascii "127.0.0.1") 8080),
    (ascii "/other", .proxy (ascii "127.0.0.1") 8081)]

theorem any_order_iff_main :
    (∀ routes' : List (Bytes × Mounted), mainRoutes.Perm routes' → ∀ path : Bytes, 0 ∉ path →
        handleRequest path (routes'.map simpleRoute) = handleRequest path (mainRoutes.map simpleRoute))
      ↔ mainRoutes.Pairwise fun r s => r = s ∨ Apart r s :=
  any_order_iff mainRoutes (by decide)

/-- They can be registered in any order. -/
example : mainRoutes.Pairwise Apart := by
  decide

end HttpRouter
