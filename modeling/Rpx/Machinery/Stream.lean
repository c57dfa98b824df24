import Mathlib.Logic.Relation
import Rpx.Machinery.Run

/-!
# Machinery/Stream — a stream fed in pieces, and what comes out of it

A **source** takes a stream piece by piece and emits events.  Some events carry data, and two of them
in a row may be two pieces of one: `join e f` is that one, when there is one.

* `run_eq_of_recut` — a machine that takes two pieces as it takes the whole cannot tell two lists of
  events apart that differ in their cuts only.
* `seamless_itemwise` — a source that reads item by item, and joins what it can, emits the same events
  up to cuts, whatever the pieces it is fed.
-/

namespace Machinery

variable {σ α ε : Type*} {join : ε → ε → Option ε}

/-! ## Cuts -/

/-- One event is cut in two. -/
inductive Cut (join : ε → ε → Option ε) : List ε → List ε → Prop
  | cut (pre post : List ε) {e f g : ε} (h : join e f = some g) :
    Cut join (pre ++ g :: post) (pre ++ e :: f :: post)

/-- **The same events up to cuts.** -/
def Recut (join : ε → ε → Option ε) : List ε → List ε → Prop := Relation.EqvGen (Cut join)

namespace Recut

variable {es fs gs : List ε}

theorem refl (es : List ε) : Recut join es es := Relation.EqvGen.refl es

theorem symm (h : Recut join es fs) : Recut join fs es := Relation.EqvGen.symm _ _ h

theorem trans (h : Recut join es fs) (h' : Recut join fs gs) : Recut join es gs :=
  Relation.EqvGen.trans _ _ _ h h'

/-- Cuts further on, or further back, are cuts. -/
theorem context (h : Recut join es fs) (pre post : List ε) :
    Recut join (pre ++ es ++ post) (pre ++ fs ++ post) := by
  induction h with
  | rel _ _ h =>
    obtain ⟨pre', post', hjoin⟩ := h
    refine .rel _ _ ?_
    simpa using Cut.cut (pre ++ pre') (post' ++ post) hjoin
  | refl _ => exact .refl _
  | symm _ _ _ ih => exact ih.symm
  | trans _ _ _ _ _ ih ih' => exact ih.trans ih'

theorem cons (h : Recut join es fs) (e : ε) : Recut join (e :: es) (e :: fs) := by
  simpa using h.context [e] []

theorem append {es' fs' : List ε} (h : Recut join es fs) (h' : Recut join es' fs') :
    Recut join (es ++ es') (fs ++ fs') := by
  have hleft : Recut join (es ++ es') (fs ++ es') := by simpa using h.context [] es'
  have hright : Recut join (fs ++ es') (fs ++ fs') := by simpa using h'.context fs []
  exact hleft.trans hright

end Recut

/-- **A machine that takes two pieces as it takes the whole** ends where it would have ended. -/
theorem run_eq_of_recut {step : σ → ε → σ}
    (hjoin : ∀ s e f g, join e f = some g → step s g = step (step s e) f) {es fs : List ε}
    (h : Recut join es fs) (s : σ) : run step s es = run step s fs := by
  induction h with
  | rel _ _ h =>
    obtain ⟨pre, post, hcut⟩ := h
    rw [run_append, run_append, run_cons, run_cons, run_cons, hjoin _ _ _ _ hcut]
  | refl _ => rfl
  | symm _ _ _ ih => exact ih.symm
  | trans _ _ _ _ _ ih ih' => exact ih.trans ih'

/-! ## Sources -/

/-- What takes a stream in pieces, and emits events. -/
structure Source (σ α ε : Type*) where
  init : σ
  execute : σ → List α → σ × List ε

namespace Source

variable (l : Source σ α ε)

/-- Where the pieces lead, and all the events emitted. -/
def feed (s : σ) : List (List α) → σ × List ε
  | [] => (s, [])
  | p :: ps =>
    let (t, es) := l.execute s p
    let (u, fs) := feed t ps
    (u, es ++ fs)

theorem feed_concat (s : σ) (ps : List (List α)) (p : List α) :
    l.feed s (ps ++ [p]) = ((l.execute (l.feed s ps).1 p).1,
      (l.feed s ps).2 ++ (l.execute (l.feed s ps).1 p).2) := by
  induction ps generalizing s with
  | nil => simp [feed]
  | cons q ps ih => simp [feed, ih]

/-- **Seamless**: the same stream, cut in whatever non-empty pieces, gives the same events up to
cuts. -/
def Seamless (join : ε → ε → Option ε) : Prop :=
  ∀ ps qs : List (List α), [] ∉ ps → [] ∉ qs → ps.flatten = qs.flatten →
    Recut join (l.feed l.init ps).2 (l.feed l.init qs).2

end Source

/-! ## Sources that read item by item -/

/-- The items are read one by one. -/
def scan (δ : σ → α → σ × List ε) (s : σ) : List α → σ × List ε
  | [] => (s, [])
  | a :: as =>
    let (t, es) := δ s a
    let (u, fs) := scan δ t as
    (u, es ++ fs)

theorem scan_append (δ : σ → α → σ × List ε) (s : σ) (as bs : List α) :
    scan δ s (as ++ bs) = ((scan δ (scan δ s as).1 bs).1,
      (scan δ s as).2 ++ (scan δ (scan δ s as).1 bs).2) := by
  induction as generalizing s with
  | nil => simp [scan]
  | cons a as ih => simp [scan, ih]

/-- Neighbours that are pieces of one event are joined. -/
def joinAll (join : ε → ε → Option ε) : List ε → List ε
  | [] => []
  | e :: es =>
    match joinAll join es with
    | [] => [e]
    | f :: fs =>
      match join e f with
      | some g => g :: fs
      | none => e :: f :: fs

theorem recut_joinAll (es : List ε) : Recut join (joinAll join es) es := by
  induction es with
  | nil => exact .refl _
  | cons e es ih =>
    refine Recut.trans ?_ (ih.cons e)
    rw [joinAll]
    rcases joinAll join es with - | ⟨f, fs⟩
    · exact .refl _
    · dsimp only
      split
      · rename_i g hg
        exact Relation.EqvGen.rel _ _ (Cut.cut [] fs hg)
      · exact .refl _

/-- A source that reads item by item, and joins the events of a piece. -/
def itemwise (join : ε → ε → Option ε) (init : σ) (δ : σ → α → σ × List ε) : Source σ α ε where
  init := init
  execute s p := ((scan δ s p).1, joinAll join (scan δ s p).2)

/-- What it emits is what the whole stream would give, up to cuts. -/
theorem feed_itemwise (init : σ) (δ : σ → α → σ × List ε) (s : σ) (ps : List (List α)) :
    Recut join ((itemwise join init δ).feed s ps).2 (scan δ s ps.flatten).2 := by
  induction ps generalizing s with
  | nil => exact .refl _
  | cons p ps ih =>
    rw [List.flatten_cons, scan_append]
    exact (recut_joinAll _).append (ih _)

/-- **A source that reads item by item is seamless.** -/
theorem seamless_itemwise (init : σ) (δ : σ → α → σ × List ε) :
    (itemwise join init δ).Seamless join := by
  intro ps qs _ _ hflat
  have hps : Recut join ((itemwise join init δ).feed init ps).2 (scan δ init ps.flatten).2 :=
    feed_itemwise init δ init ps
  have hqs : Recut join ((itemwise join init δ).feed init qs).2 (scan δ init qs.flatten).2 :=
    feed_itemwise init δ init qs
  rw [hflat] at hps
  exact hps.trans hqs.symm

end Machinery
