import Mathlib.Tactic

/-!
# Machinery/Run — runs of a machine, and the steps that keep an invariant

A machine is a total step function `σ → ι → σ`; whatever the environment decides is part of the
input.  A **guard** `c : σ → ι → Prop` is a condition on the state a step starts from and on the
step's input, and `Meets step c s is` says that every step of a run passes it.

* `inv_run` — an invariant kept by every guarded step holds along every guarded run.
* `forall_prefix_iff_of_inv` — when the guard *decides* whether a step stays good, it decides whether
  the whole run does.
* `inv_run_iff` — when moreover a broken invariant stays broken, the last state alone tells.
* `meets_iff_of_inv` — two guards that agree wherever the invariant holds pass the same runs.
-/

namespace Machinery

variable {σ ι : Type*} {step : σ → ι → σ} {c g : σ → ι → Prop} {Inv : σ → Prop}

/-! ## Runs -/

/-- The state a run ends in. -/
def run (step : σ → ι → σ) (s : σ) (is : List ι) : σ := is.foldl step s

@[simp] theorem run_nil (step : σ → ι → σ) (s : σ) : run step s [] = s := rfl

@[simp] theorem run_cons (step : σ → ι → σ) (s : σ) (i : ι) (is : List ι) :
    run step s (i :: is) = run step (step s i) is := rfl

theorem run_append (step : σ → ι → σ) (s : σ) (is js : List ι) :
    run step s (is ++ js) = run step (run step s is) js :=
  List.foldl_append

/-- **Every step of the run passes the guard.** -/
def Meets (step : σ → ι → σ) (c : σ → ι → Prop) : σ → List ι → Prop
  | _, [] => True
  | s, i :: is => c s i ∧ Meets step c (step s i) is

@[simp] theorem meets_nil (s : σ) : Meets step c s [] := trivial

@[simp] theorem meets_cons (s : σ) (i : ι) (is : List ι) :
    Meets step c s (i :: is) ↔ c s i ∧ Meets step c (step s i) is := Iff.rfl

instance decidableMeets [∀ s i, Decidable (c s i)] :
    ∀ (s : σ) (is : List ι), Decidable (Meets step c s is)
  | _, [] => .isTrue trivial
  | s, i :: is =>
    have := decidableMeets (step s i) is
    inferInstanceAs (Decidable (c s i ∧ Meets step c (step s i) is))

/-! ## Invariants -/

/-- **The run rule.**  What every guarded step keeps, every guarded run keeps. -/
theorem inv_run (hstep : ∀ s i, Inv s → c s i → Inv (step s i)) {s : σ} (h : Inv s)
    {is : List ι} (hc : Meets step c s is) : Inv (run step s is) := by
  induction is generalizing s with
  | nil => exact h
  | cons i is ih => exact ih (hstep s i h hc.1) hc.2

/-- A prefix of a guarded run is guarded. -/
theorem Meets.of_prefix {s : σ} {is js : List ι} (hc : Meets step c s is) (hjs : js <+: is) :
    Meets step c s js := by
  induction js generalizing s is with
  | nil => trivial
  | cons j js ih =>
    obtain ⟨is', rfl⟩ := hjs
    exact ⟨hc.1, ih hc.2 (List.prefix_append js is')⟩

/-- …and so is what comes behind it. -/
theorem Meets.of_append {s : σ} {is js : List ι} (hc : Meets step c s (is ++ js)) :
    Meets step c (run step s is) js := by
  induction is generalizing s with
  | nil => exact hc
  | cons i is ih => exact ih hc.2

/-- Along a guarded run, what the guarded steps keep may be assumed at every step. -/
theorem Meets.and_inv (hstep : ∀ s i, Inv s → g s i → Inv (step s i)) {s : σ} (h : Inv s)
    {is : List ι} (hg : Meets step g s is) : Meets step (fun s i => Inv s ∧ g s i) s is := by
  induction is generalizing s with
  | nil => trivial
  | cons i is ih => exact ⟨⟨h, hg.1⟩, ih (hstep s i h hg.1) hg.2⟩

/-- A guard on the inputs alone. -/
theorem meets_of_forall {d : ι → Prop} {is : List ι} (h : ∀ i ∈ is, d i) (s : σ) :
    Meets step (fun _ i => d i) s is := by
  induction is generalizing s with
  | nil => trivial
  | cons i is ih => exact ⟨h i List.mem_cons_self, ih (fun j hj => h j (List.mem_cons_of_mem i hj)) _⟩

/-- The guard that asks nothing. -/
theorem meets_true (s : σ) (is : List ι) : Meets step (fun _ _ => True) s is :=
  meets_of_forall (fun _ _ => trivial) s

/-- **A guard that decides what is good of a run.**  Steps that pass `c` keep an invariant of good
states, and a step that fails it ends in a bad state; the standing guard `g` says which runs are
meant. -/
theorem forall_prefix_iff_of_inv {Good : σ → Prop} (hgood : ∀ s, Inv s → Good s)
    (hkeep : ∀ s i, Inv s → g s i → c s i → Inv (step s i))
    (hbreak : ∀ s i, Inv s → g s i → ¬ c s i → ¬ Good (step s i)) {s : σ} (h : Inv s)
    {is : List ι} (hg : Meets step g s is) :
    (∀ js, js <+: is → Good (run step s js)) ↔ Meets step c s is := by
  induction is generalizing s with
  | nil =>
    refine ⟨fun _ => trivial, fun _ js hjs => ?_⟩
    rw [List.prefix_nil.mp hjs]
    exact hgood s h
  | cons i is ih =>
    obtain ⟨hgi, hgs⟩ := hg
    constructor
    · intro hall
      have hi : Good (step s i) := hall [i] (by simp)
      have hc : c s i := not_not.mp fun hc => hbreak s i h hgi hc hi
      refine ⟨hc, (ih (hkeep s i h hgi hc) hgs).mp fun js hjs => ?_⟩
      exact hall (i :: js) ((List.prefix_cons_inj i).mpr hjs)
    · rintro ⟨hc, hrest⟩ js hjs
      cases js with
      | nil => exact hgood s h
      | cons j js =>
        obtain ⟨rfl, hjs'⟩ := List.cons_prefix_cons.mp hjs
        exact (ih (hkeep s j h hgi hc) hgs).mpr hrest js hjs'

/-- **A guard that decides the step decides the run.** -/
theorem forall_prefix_iff (hstep : ∀ s i, Inv s → g s i → (Inv (step s i) ↔ c s i)) {s : σ}
    (h : Inv s) {is : List ι} (hg : Meets step g s is) :
    (∀ js, js <+: is → Inv (run step s js)) ↔ Meets step c s is :=
  forall_prefix_iff_of_inv (fun _ hs => hs) (fun s i hs hgi => (hstep s i hs hgi).mpr)
    (fun s i hs hgi => mt (hstep s i hs hgi).mp) h hg

/-- **Two guards that agree on the states of a run** pass the same runs. -/
theorem meets_iff_of_inv {d : σ → ι → Prop} (hiff : ∀ s i, Inv s → (c s i ↔ d s i))
    (hkeep : ∀ s i, Inv s → d s i → Inv (step s i)) {s : σ} (h : Inv s) (is : List ι) :
    Meets step c s is ↔ Meets step d s is := by
  induction is generalizing s with
  | nil => exact Iff.rfl
  | cons i is ih =>
    rw [meets_cons, meets_cons, hiff s i h]
    exact and_congr_right fun hd => ih (hkeep s i h hd)

/-- …and so do two that agree there on the runs that a standing guard lets through. -/
theorem meets_congr {d : σ → ι → Prop} (hiff : ∀ s i, Inv s → g s i → (c s i ↔ d s i))
    (hkeep : ∀ s i, Inv s → g s i → Inv (step s i)) {s : σ} (h : Inv s) {is : List ι}
    (hg : Meets step g s is) : Meets step c s is ↔ Meets step d s is := by
  induction is generalizing s with
  | nil => exact Iff.rfl
  | cons i is ih =>
    obtain ⟨hgi, hgs⟩ := hg
    exact and_congr (hiff s i h hgi) (ih (hkeep s i h hgi) hgs)

/-- A broken invariant that every step leaves broken is broken in the end. -/
theorem not_inv_run (hbad : ∀ s i, g s i → ¬ Inv s → ¬ Inv (step s i)) {s : σ} (h : ¬ Inv s)
    {is : List ι} (hg : Meets step g s is) : ¬ Inv (run step s is) :=
  @inv_run _ _ step g (fun s => ¬ Inv s) (fun s i hn hgi => hbad s i hgi hn) s h is hg

/-- **…and when a broken invariant stays broken, the last state tells.** -/
theorem inv_run_iff (hstep : ∀ s i, Inv s → g s i → (Inv (step s i) ↔ c s i))
    (hbad : ∀ s i, g s i → ¬ Inv s → ¬ Inv (step s i)) {s : σ} (h : Inv s) {is : List ι}
    (hg : Meets step g s is) : Inv (run step s is) ↔ Meets step c s is := by
  induction is generalizing s with
  | nil => simpa using h
  | cons i is ih =>
    obtain ⟨hgi, hgs⟩ := hg
    by_cases hi : Inv (step s i)
    · simp [(hstep s i h hgi).mp hi, ih hi hgs]
    · have hc : ¬ c s i := fun hc => hi ((hstep s i h hgi).mpr hc)
      simp [hc, not_inv_run hbad hi hgs]

/-! ## Partial machines

A machine that can fail runs on `Option`: `none` is the failed state and no step leaves it. -/

/-- A partial step, made total: a failed state stays failed. -/
def lift (step : σ → ι → Option σ) : Option σ → ι → Option σ := fun o i => o.bind (step · i)

@[simp] theorem lift_none (step : σ → ι → Option σ) (i : ι) : lift step none i = none := rfl

@[simp] theorem lift_some (step : σ → ι → Option σ) (s : σ) (i : ι) :
    lift step (some s) i = step s i := rfl

/-- A guard on states, read on the states a run has not failed in. -/
def onSome (c : σ → ι → Prop) : Option σ → ι → Prop := fun o i => ∀ s ∈ o, c s i

instance [∀ s i, Decidable (c s i)] (o : Option σ) (i : ι) : Decidable (onSome c o i) :=
  inferInstanceAs (Decidable (∀ s ∈ o, c s i))

@[simp] theorem onSome_some (s : σ) (i : ι) : onSome c (some s) i ↔ c s i := by simp [onSome]

end Machinery
