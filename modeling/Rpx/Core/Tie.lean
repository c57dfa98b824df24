import Rpx.Core.Lifecycle

/-!
# Core/Tie — how long a tied channel holds its owner

    _tie.lock() ──▶ end of the condition ──▶ handleEventGuarded ──▶ _handlingEvent = false

`handleEvent` tests `_tie.lock()` in the condition of an `if`, and the reference that `lock()` makes is
a temporary of that condition: it is gone before `handleEventGuarded` begins.  While the callbacks run,
the tied object lives by the references that others hold, and the channel with it.

`kept_iff_outlasts` — the object lives to the end of the dispatch exactly when the callbacks called
leave somebody a reference.
-/

open Machinery

/-- What the code of a callback does to the strong references to the tied object. -/
inductive RefOp
  | hold
  | release
  deriving DecidableEq, Repr

/-- One step of a dispatch. -/
inductive TieStep
  | ref (op : RefOp)
  /-- A member of the channel is read or written. -/
  | touch
  deriving DecidableEq, Repr

/-- The tied object, of which the channel is a part. -/
structure TiedObject where
  /-- How many strong references there are; without one the object has been destroyed. -/
  strong : ℕ
  /-- The channel was touched after that. -/
  strayed : Bool
  deriving DecidableEq, Repr

namespace TiedObject

/-- An object that has been destroyed is not held again. -/
def refer (strong : ℕ) : RefOp → ℕ
  | .hold => if strong = 0 then 0 else strong + 1
  | .release => strong - 1

def step (o : TiedObject) : TieStep → TiedObject
  | .ref op => { o with strong := refer o.strong op }
  | .touch => { o with strayed := o.strayed || o.strong == 0 }

end TiedObject

namespace Channel

/-- A test of `_events`, and the callback called behind it. -/
def tested (called : Bool) (callback : List RefOp) : List TieStep :=
  .touch :: if called then callback.map .ref else []

/-- `handleEventGuarded()`, from `_handlingEvent = true` to `_handlingEvent = false`. -/
def handleEventGuarded (events : EpollMask) (callbacks : Handler → List RefOp) : List TieStep :=
  [.touch]
    ++ tested (events.epollhup && !events.epollin) (callbacks .close)
    ++ tested events.epollerr (callbacks .error)
    ++ tested (events.epollin || events.epollpri || events.epollrdhup) (callbacks .read)
    ++ tested events.epollout (callbacks .write)
    ++ [.touch]

/-- The dispatch to a tied object that `_tie.lock()` has found alive: the temporary reference goes with
the condition it was made in. -/
def handleTied (events : EpollMask) (callbacks : Handler → List RefOp) : List TieStep :=
  [.ref .hold, .ref .release] ++ handleEventGuarded events callbacks

/-- `handleEvent()`. -/
def handleEvent (tied : Bool) (events : EpollMask) (callbacks : Handler → List RefOp)
    (o : TiedObject) : TiedObject :=
  if tied then
    if 0 < o.strong then run TiedObject.step o (handleTied events callbacks) else o
  else run TiedObject.step o (handleEventGuarded events callbacks)

end Channel

namespace TiedObject

/-- **A tied object lives until its dispatch is over**: from `_tie.lock()` to the end of
`handleEventGuarded` there is a strong reference to it, and no member of the channel is touched after
it was destroyed. -/
def Kept (strong : ℕ) (events : EpollMask) (callbacks : Handler → List RefOp) : Prop :=
  (∀ js, js <+: Channel.handleTied events callbacks → 0 < (run step ⟨strong, false⟩ js).strong)
    ∧ (Channel.handleEvent true events callbacks ⟨strong, false⟩).strayed = false

/-- **The references held elsewhere outlast the calls**: at no point have as many been released as there
were and have been taken since.  Where this fails, a build with assertions stops in `~Channel`, which finds
`_handlingEvent` set. -/
def Outlasts (strong : ℕ) (ops : List RefOp) : Prop :=
  ∀ js, js <+: ops → js.count .release < strong + js.count .hold

/-- The references that a step takes and releases. -/
def refOp? : TieStep → Option RefOp
  | .ref op => some op
  | .touch => none

variable {strong : ℕ} {events : EpollMask} {callbacks : Handler → List RefOp}

/-- Only the references count. -/
theorem strong_run (o : TiedObject) (es : List TieStep) :
    (run step o es).strong = (es.filterMap refOp?).foldl refer o.strong := by
  induction es generalizing o with
  | nil => rfl
  | cons e es ih =>
    rw [run_cons, ih]
    cases e with
    | ref op => rfl
    | touch => rfl

/-- **An object that lives throughout is not touched astray.** -/
theorem strayed_run {o : TiedObject} {es : List TieStep} (h : o.strayed = false)
    (hlive : ∀ js, js <+: es → 0 < (run step o js).strong) : (run step o es).strayed = false := by
  induction es generalizing o with
  | nil => exact h
  | cons e es ih =>
    refine ih ?_ fun js hjs => hlive (e :: js) ((List.prefix_cons_inj e).mpr hjs)
    have ho : 0 < o.strong := hlive [] List.nil_prefix
    cases e with
    | ref op => exact h
    | touch => simp [step, h, ho.ne']

theorem filterMap_tested (called : Bool) (callback : List RefOp) :
    (Channel.tested called callback).filterMap refOp? = if called then callback else [] := by
  have hmap : (callback.map TieStep.ref).filterMap refOp? = callback := by
    rw [List.filterMap_map]
    exact List.filterMap_some
  cases called with
  | true => exact hmap
  | false => rfl

/-- **What a dispatch does to the references** is what the callbacks of its events do. -/
theorem filterMap_handleEventGuarded :
    (Channel.handleEventGuarded events callbacks).filterMap refOp? = events.handlers.flatMap callbacks := by
  simp only [Channel.handleEventGuarded, List.filterMap_append, filterMap_tested, EpollMask.handlers,
    List.flatMap_append]
  have hone : ∀ (b : Bool) (f : Handler), (if b = true then callbacks f else [])
      = (if b = true then [f] else []).flatMap callbacks := fun b f => by
    cases b with
    | true => simp
    | false => rfl
  have htouch : [TieStep.touch].filterMap refOp? = [] := rfl
  rw [htouch, hone, hone, hone, hone, List.nil_append, List.append_nil]

/-- **The object lives through the calls exactly as long as they are outlasted.** -/
theorem alive_iff_outlasts {ops : List RefOp} :
    (∀ js, js <+: ops → 0 < js.foldl refer strong) ↔ Outlasts strong ops := by
  have hzero : ∀ js : List RefOp, js.foldl refer 0 = 0 := fun js => by
    induction js with
    | nil => rfl
    | cons op js ih =>
      cases op with
      | hold => exact ih
      | release => exact ih
  induction ops generalizing strong with
  | nil => simp [Outlasts]
  | cons op ops ih =>
    by_cases hstrong : strong = 0
    · subst hstrong
      refine iff_of_false (fun h => ?_) fun h => ?_
      · exact absurd (h [] List.nil_prefix) (Nat.lt_irrefl 0)
      · exact absurd (h [] List.nil_prefix) (by simp)
    · have hsplit : ∀ p : List RefOp → Prop, (∀ js, js <+: op :: ops → p js)
          ↔ p [] ∧ ∀ js, js <+: ops → p (op :: js) := fun p => by
        constructor
        · exact fun h => ⟨h [] List.nil_prefix, fun js hjs => h _ ((List.prefix_cons_inj op).mpr hjs)⟩
        · rintro ⟨hnil, hcons⟩ js hjs
          rcases List.prefix_cons_iff.mp hjs with rfl | ⟨t, rfl, ht⟩
          · exact hnil
          · exact hcons t ht
      have hpos : 0 < strong := Nat.pos_of_ne_zero hstrong
      rw [hsplit, Outlasts, hsplit]
      simp only [List.foldl_cons, List.foldl_nil, List.count_nil, hpos, Nat.add_zero, true_and]
      refine (@ih (refer strong op)).trans ?_
      refine forall₂_congr fun js _ => ?_
      cases op with
      | hold =>
        rw [refer, if_neg hstrong, List.count_cons_self, List.count_cons_of_ne (by decide)]
        omega
      | release =>
        rw [refer, List.count_cons_self, List.count_cons_of_ne (by decide)]
        omega

/-- **A tied channel keeps its owner alive, exactly.**  For every mask and whatever the callbacks do, an
object that was alive when `handleEvent` tested it has a strong reference until `handleEventGuarded` has
returned, and its channel is not touched after its destruction, if and only if the references held
elsewhere outlast the callbacks called. -/
theorem kept_iff_outlasts (strong : ℕ) (hstrong : 0 < strong) (events : EpollMask)
    (callbacks : Handler → List RefOp) :
    Kept strong events callbacks ↔ Outlasts strong (events.handlers.flatMap callbacks) := by
  have hlive : (∀ js, js <+: Channel.handleTied events callbacks → 0 < (run step ⟨strong, false⟩ js).strong)
      ↔ Outlasts strong (events.handlers.flatMap callbacks) := by
    have hops : (Channel.handleTied events callbacks).filterMap refOp?
        = .hold :: .release :: events.handlers.flatMap callbacks := by
      rw [Channel.handleTied, List.filterMap_append, filterMap_handleEventGuarded]
      rfl
    have hcut : (∀ js, js <+: Channel.handleTied events callbacks →
        0 < (run step ⟨strong, false⟩ js).strong)
          ↔ ∀ ks, ks <+: RefOp.hold :: .release :: events.handlers.flatMap callbacks →
            0 < ks.foldl refer strong := by
      rw [← hops]
      constructor
      · intro h ks hks
        obtain ⟨js, hjs, rfl⟩ := List.prefix_filterMap_iff.mp hks
        rw [← strong_run ⟨strong, false⟩]
        exact h js hjs
      · intro h js hjs
        rw [strong_run]
        exact h _ (hjs.filterMap refOp?)
    rw [hcut, alive_iff_outlasts]
    -- the temporary reference makes no difference to the calls
    constructor
    · intro h js hjs
      have hcalls := h (.hold :: .release :: js) (by simpa using hjs)
      simp only [List.count_cons_self, List.count_cons_of_ne, ne_eq, reduceCtorEq, not_false_eq_true]
        at hcalls
      omega
    · intro h js hjs
      rcases List.prefix_cons_iff.mp hjs with rfl | ⟨t, rfl, ht⟩
      · simpa using hstrong
      · rcases List.prefix_cons_iff.mp ht with rfl | ⟨u, rfl, hu⟩
        · simp
        · have hcalls := h u hu
          simp only [List.count_cons_self, List.count_cons_of_ne, ne_eq, reduceCtorEq,
            not_false_eq_true]
          omega
  refine ⟨fun h => hlive.mp h.1, fun h => ⟨hlive.mpr h, ?_⟩⟩
  rw [Channel.handleEvent, if_pos rfl, if_pos hstrong]
  exact strayed_run rfl (hlive.mpr h)

/-- Of three references one goes with the close callback and one with the write callback. -/
theorem kept_iff_outlasts_close :
    Kept 3 { EpollMask.none with epollhup := true, epollout := true } (fun _ => [.release])
      ↔ Outlasts 3 (EpollMask.handlers { EpollMask.none with epollhup := true, epollout := true }
        |>.flatMap fun _ => [.release]) :=
  kept_iff_outlasts 3 (by decide) _ _

/-- **A read callback drops the last reference**: the object that was alive at the test is destroyed, and
then `_handlingEvent` is written in it. -/
theorem not_kept_released : ¬ Kept 1 .input fun _ => [.release] := by
  rintro ⟨-, hstrayed⟩
  revert hstrayed
  decide

end TiedObject
