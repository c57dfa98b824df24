import Rpx.Core.TimerSteps

/-!
# Core/TimerHandles — cancelling by address

    addTimer ──▶ h = (address, _sequence)        cancel(h) ──▶ cancelInLoop(address)

A handle is the address of its timer, and `cancelInLoop` looks no further: whatever timer lies at the
address is cancelled.  `_sequence` would tell two timers apart, and nothing compares it.  A call from
another thread queues a task that refers to the parameter of `cancel`, and reads whatever is there
once `cancel` has returned.

`onlyNamed_iff_names` — a cancellation touches no other timer exactly when the address that it reads
holds none.
-/

open Machinery

/-- What a call to `addTimer` returned, and the `_sequence` of the timer it created. -/
structure TimerHandle where
  addr : Addr
  sequence : ℕ
  deriving DecidableEq, Repr

/-- What `cancelInLoop` reads as `timerId`. -/
inductive TimerIdRead
  /-- The argument: `cancel` has not returned. -/
  | argument
  /-- `cancel` has returned, and its parameter is what lies on the stack there. -/
  | stack (a : Addr)

def TimerIdRead.addr (h : TimerHandle) : TimerIdRead → Addr
  | argument => h.addr
  | stack a => a

structure TimerHandles where
  steps : TimerSteps
  /-- `_sequence` of the timer that lies at an address, or lay there last. -/
  sequence : Addr → ℕ
  /-- `_id`. -/
  id : ℕ
  /-- The handles returned so far. -/
  issued : List TimerHandle

inductive HandleEvent
  /-- `addTimer`, in any thread: a timer is allocated at `a`, and its handle returned. -/
  | addTimer (a : Addr) (timer : Timer)
  | addTimerInLoop (a : Addr) (now : Time)
  /-- The `cancelInLoop` of a call `cancel(h)` from any thread. -/
  | cancel (h : TimerHandle) (timerId : TimerIdRead)
  | handleRead (now : Time) (order : IterOrder)
  | run
  | called
  | settle
  | finish (later : Time)

/-- What the event is to the queue. -/
def HandleEvent.onSteps : HandleEvent → TimerStep
  | addTimer a timer => .new a timer
  | addTimerInLoop a now => .addTimerInLoop a now
  | cancel h timerId => .cancelInLoop (timerId.addr h)
  | handleRead now order => .handleRead now order
  | run => .run
  | called => .called
  | settle => .settle
  | finish later => .finish later

namespace TimerHandles

/-- No timer. -/
def new (heap : Addr → Timer) : TimerHandles := ⟨.new heap, fun _ => 0, 0, []⟩

def step (s : TimerHandles) (e : HandleEvent) : TimerHandles :=
  match e with
  | .addTimer a _ =>
    { steps := s.steps.step e.onSteps
      sequence := Function.update s.sequence a (s.id + 1)
      id := s.id + 1
      issued := s.issued ++ [⟨a, s.id + 1⟩] }
  | _ => { s with steps := s.steps.step e.onSteps }

/-- **Memory in use is not handed out again, and `cancel` is called with a handle.** -/
def Valid (s : TimerHandles) : HandleEvent → Prop
  | .addTimer a _ => a ∉ s.steps.queue.live
  | .cancel h _ => h ∈ s.issued
  | _ => True

instance (s : TimerHandles) : ∀ e, Decidable (s.Valid e)
  | .addTimer _ _ => inferInstanceAs (Decidable (_ ∉ _))
  | .cancel _ _ => inferInstanceAs (Decidable (_ ∈ _))
  | .addTimerInLoop .. | .handleRead .. | .run | .called | .settle | .finish _ => .isTrue trivial

/-! ## What a timer has to lose

A timer is known by its sequence number `x`. -/

variable (s s' : TimerHandles) (x : ℕ)

/-- The timer has not been destroyed. -/
def Exists : Prop := ∃ a ∈ s.steps.queue.live, s.sequence a = x

/-- The timer is queued. -/
def Queued : Prop := ∃ a ∈ s.steps.queue.activeTimers, s.sequence a = x

/-- The timer is of the batch, and will be queued again. -/
def Repeats : Prop :=
  ∃ a ∈ s.steps.stage.pending, s.sequence a = x ∧ s.steps.queue.Restarts a

/-- **The timer is destroyed, removed, or keeps from repeating**, between `s` and `s'`. -/
def Struck : Prop :=
  (s.Exists x ∧ ¬ s'.Exists x) ∨ (s.Queued x ∧ ¬ s'.Queued x) ∨ (s.Repeats x ∧ ¬ s'.Repeats x)

/-- **Cancelling affects only the timer named.** -/
def OnlyNamed (s : TimerHandles) : HandleEvent → Prop
  | .cancel h timerId => ∀ x, s.Struck (s.step (.cancel h timerId)) x → x = h.sequence
  | _ => True

/-- A timer lies at `a` that a cancellation can take something from. -/
def Exposed (a : Addr) : Prop :=
  a ∈ s.steps.queue.activeTimers ∨ a ∈ s.steps.stage.pending ∧ s.steps.queue.Restarts a

/-- **The address names the timer**: what `cancelInLoop` reads is the address of no other timer that is
queued, or of the batch and to be queued again. -/
def Names (s : TimerHandles) : HandleEvent → Prop
  | .cancel h timerId => s.steps.stage.callsOut = true → s.Exposed (timerId.addr h) →
      s.sequence (timerId.addr h) = h.sequence
  | _ => True

instance (q : TimerQueue) (a : Addr) : Decidable (q.Restarts a) :=
  inferInstanceAs (Decidable (_ ∧ _))

instance : Decidable (s.Exists x) := inferInstanceAs (Decidable (∃ a ∈ _, _))

instance : Decidable (s.Queued x) := inferInstanceAs (Decidable (∃ a ∈ _, _))

instance : Decidable (s.Repeats x) := inferInstanceAs (Decidable (∃ a ∈ _, _))

instance : Decidable (s.Struck s' x) := inferInstanceAs (Decidable (_ ∨ _ ∨ _))

/-! ## One timer, one sequence number -/

/-- **No two timers share a sequence number.** -/
structure Sound (s : TimerHandles) : Prop where
  steps : s.steps.Sound
  distinct : ∀ a ∈ s.steps.queue.live, ∀ b ∈ s.steps.queue.live, s.sequence a = s.sequence b → a = b
  bounded : ∀ a ∈ s.steps.queue.live, s.sequence a ≤ s.id

variable {s}

theorem sound_new (heap : Addr → Timer) : (new heap).Sound := by
  refine ⟨TimerSteps.sound_new heap, fun a ha => ?_, fun a ha => ?_⟩
  · exact absurd ha (Finset.notMem_empty a)
  · exact absurd ha (Finset.notMem_empty a)

theorem live_cancelInLoop (q : TimerQueue) (a : Addr) : (q.cancelInLoop a).live ⊆ q.live := by
  rw [TimerQueue.cancelInLoop]
  split
  · exact Finset.erase_subset _ _
  · split
    · exact Finset.Subset.refl _
    · exact Finset.Subset.refl _

/-- Only `new` makes a timer. -/
theorem live_step (t : TimerSteps) (e : TimerStep) (he : ∀ a timer, e ≠ .new a timer) :
    (t.step e).queue.live ⊆ t.queue.live := by
  cases e with
  | new a timer => exact absurd rfl (he a timer)
  | addTimerInLoop a now =>
    rw [TimerSteps.step]
    split
    · obtain ⟨fd, hfd⟩ := TimerQueue.exists_timerfd t.queue a now
      exact (congrArg TimerQueue.live hfd).subset
    · exact Finset.Subset.refl _
  | cancelInLoop a =>
    rw [TimerSteps.step]
    split
    · exact live_cancelInLoop t.queue a
    · exact Finset.Subset.refl _
  | settle =>
    rw [TimerSteps.step]
    split
    · rename_i now a left changed _
      by_cases hr : t.queue.Restarts a
      · rw [TimerQueue.settle_of_restarts hr]
        exact Finset.Subset.refl _
      · rw [TimerQueue.settle_of_not_restarts hr]
        exact Finset.erase_subset _ _
    · exact Finset.Subset.refl _
  | finish later =>
    rw [TimerSteps.step]
    split
    · rename_i now changed _
      obtain ⟨fd, hfd⟩ := TimerSteps.exists_timerfd_rearm t.queue changed later
      exact (congrArg TimerQueue.live hfd).subset
    · exact Finset.Subset.refl _
  | _ =>
    rw [TimerSteps.step]
    split <;> exact Finset.Subset.refl _

/-- A timer is created with a number of its own. -/
theorem Sound.addTimer (h : s.Sound) {a : Addr} (ha : a ∉ s.steps.queue.live) (timer : Timer) :
    (s.step (.addTimer a timer)).Sound := by
  have hold : ∀ b ∈ s.steps.queue.live, Function.update s.sequence a (s.id + 1) b = s.sequence b :=
    fun b hb => by
      refine Function.update_of_ne ?_ _ _
      rintro rfl
      exact ha hb
  have hnew : ∀ b ∈ s.steps.queue.live, s.sequence b ≠ s.id + 1 := fun b hb heq => by
    have hle := h.bounded b hb
    omega
  refine ⟨h.steps.allocate ha timer, fun b hb c hc hbc => ?_, fun b hb => ?_⟩
  · change Function.update s.sequence a (s.id + 1) b = Function.update s.sequence a (s.id + 1) c at hbc
    rcases Finset.mem_insert.mp hb with hba | hb'
    · rcases Finset.mem_insert.mp hc with hca | hc'
      · exact hba.trans hca.symm
      · rw [hba, Function.update_self, hold c hc'] at hbc
        exact absurd hbc.symm (hnew c hc')
    · rcases Finset.mem_insert.mp hc with hca | hc'
      · rw [hca, Function.update_self, hold b hb'] at hbc
        exact absurd hbc (hnew b hb')
      · rw [hold b hb', hold c hc'] at hbc
        exact h.distinct b hb' c hc' hbc
  · show Function.update s.sequence a (s.id + 1) b ≤ s.id + 1
    rcases Finset.mem_insert.mp hb with rfl | hb
    · rw [Function.update_self]
    · rw [hold b hb]
      exact (h.bounded b hb).trans (Nat.le_succ _)

theorem Sound.step (h : s.Sound) {e : HandleEvent} (he : s.Valid e) : (s.step e).Sound := by
  have hother : (∀ a timer, e ≠ .addTimer a timer) →
      Sound { s with steps := s.steps.step e.onSteps } := fun hne => by
    have hsteps : (s.steps.step e.onSteps).Sound := h.steps.step (by
      cases e with
      | addTimer a timer => exact absurd rfl (hne a timer)
      | _ => trivial)
    have hlive : (s.steps.step e.onSteps).queue.live ⊆ s.steps.queue.live :=
      live_step s.steps _ fun a timer heq => by
        cases e with
        | addTimer a' timer' => exact hne a' timer' rfl
        | _ => cases heq
    exact ⟨hsteps, fun a ha b hb => h.distinct a (hlive ha) b (hlive hb), fun a ha => h.bounded a (hlive ha)⟩
  cases e with
  | addTimer a timer => exact h.addTimer he timer
  | _ => exact hother (fun _ _ heq => by cases heq)

/-! ## What a cancellation takes -/

variable {x}

/-- **A timer of the queue is cancelled.** -/
theorem Sound.struck_queued (h : s.Sound) {a : Addr} (ha : a ∈ s.steps.queue.activeTimers) :
    Struck s { s with steps := { s.steps with queue := s.steps.queue.cancelInLoop a } } x
      ↔ x = s.sequence a := by
  have hlive : a ∈ s.steps.queue.live := (h.steps.live a).mpr (.inl ha)
  rw [TimerQueue.cancelInLoop, if_pos ha]
  constructor
  · rintro (⟨⟨b, hb, rfl⟩, hgone⟩ | ⟨⟨b, hb, rfl⟩, hgone⟩ | ⟨hrepeats, hgone⟩)
    · by_contra hne
      refine hgone ⟨b, Finset.mem_erase.mpr ⟨?_, hb⟩, rfl⟩
      rintro rfl
      exact hne rfl
    · by_contra hne
      refine hgone ⟨b, Finset.mem_erase.mpr ⟨?_, hb⟩, rfl⟩
      rintro rfl
      exact hne rfl
    · exact absurd hrepeats hgone
  · rintro rfl
    refine .inl ⟨⟨a, hlive, rfl⟩, ?_⟩
    rintro ⟨b, hb, heq⟩
    obtain ⟨hne, hb⟩ := Finset.mem_erase.mp hb
    exact hne (h.distinct b hb a hlive heq)

/-- **A timer of the batch is kept from repeating.** -/
theorem Sound.struck_batch (h : s.Sound) (a : Addr) :
    Struck s { s with steps := { s.steps with queue := { s.steps.queue with
        cancelingTimers := Insert.insert a s.steps.queue.cancelingTimers } } } x
      ↔ (a ∈ s.steps.stage.pending ∧ s.steps.queue.Restarts a) ∧ x = s.sequence a := by
  have hlive : ∀ b ∈ s.steps.stage.pending, b ∈ s.steps.queue.live := fun b hb =>
    (h.steps.live b).mpr (.inr (.inl hb))
  constructor
  · rintro (⟨hexists, hgone⟩ | ⟨hqueued, hgone⟩ | ⟨⟨b, hb, rfl, hr⟩, hgone⟩)
    · exact absurd hexists hgone
    · exact absurd hqueued hgone
    · have hba : b = a := by
        by_contra hne
        refine hgone ⟨b, hb, rfl, hr.1, fun hin => ?_⟩
        exact hr.2 (Finset.mem_of_mem_insert_of_ne hin hne)
      rw [← hba]
      exact ⟨⟨hb, hr⟩, rfl⟩
  · rintro ⟨⟨ha, hr⟩, rfl⟩
    refine .inr (.inr ⟨⟨a, ha, rfl, hr⟩, ?_⟩)
    rintro ⟨b, hb, heq, -, hnot⟩
    obtain rfl := h.distinct b (hlive b hb) a (hlive a ha) heq
    exact hnot (Finset.mem_insert_self b _)

/-- **A cancellation takes something from the timer at the address, if from any.** -/
theorem Sound.struck_cancel_iff (h : s.Sound) (g : TimerHandle) (timerId : TimerIdRead) :
    s.Struck (s.step (.cancel g timerId)) x ↔ s.steps.stage.callsOut = true
      ∧ s.Exposed (timerId.addr g) ∧ x = s.sequence (timerId.addr g) := by
  have hsame : ¬ s.Struck s x := by
    rintro (⟨hhas, hgone⟩ | ⟨hhas, hgone⟩ | ⟨hhas, hgone⟩) <;> exact hgone hhas
  show Struck s { s with steps := s.steps.step (.cancelInLoop (timerId.addr g)) } x ↔ _
  generalize timerId.addr g = a
  rw [TimerSteps.step]
  split
  · rename_i hout
    rw [and_iff_right hout]
    by_cases ha : a ∈ s.steps.queue.activeTimers
    · rw [h.struck_queued ha, and_iff_right (show s.Exposed a from .inl ha)]
    · rw [Exposed, or_iff_right ha, TimerQueue.cancelInLoop, if_neg ha]
      split
      · exact h.struck_batch a
      · rename_i hcalling
        refine iff_of_false hsame fun hbatch => ?_
        -- outside a batch nothing is pending
        rw [h.steps.calling] at hcalling
        cases hstage : s.steps.stage with
        | idle =>
          rw [hstage] at hbatch
          exact List.not_mem_nil hbatch.1.1
        | calling now batch left =>
          rw [hstage] at hcalling
          exact hcalling rfl
        | settling now left changed =>
          rw [hstage] at hout
          cases hout
  · rename_i hout
    exact iff_of_false hsame fun hx => hout hx.1

/-! ## Runs -/

/-- **Cancelling affects only the timer named, exactly.**  In a run in which every handle passed to
`cancel` was returned by `addTimer` and memory is used again freely, no cancellation destroys, removes or
keeps from repeating a timer other than its own, if and only if each reads an address that names no other
timer in the queue or about to return to it. -/
theorem onlyNamed_iff_names (heap : Addr → Timer) (es : List HandleEvent)
    (hes : Meets step Valid (new heap) es) :
    Meets step OnlyNamed (new heap) es ↔ Meets step Names (new heap) es := by
  refine meets_congr ?_ (fun _ _ h he => h.step he) (sound_new heap) hes
  intro s e h _
  cases e with
  | cancel g timerId =>
    show (∀ x, s.Struck (s.step (.cancel g timerId)) x → x = g.sequence) ↔ _
    simp only [h.struck_cancel_iff]
    constructor
    · intro honly hout hexposed
      exact honly _ ⟨hout, hexposed, rfl⟩
    · rintro hnames x ⟨hout, hexposed, rfl⟩
      exact hnames hout hexposed
  | _ => exact Iff.rfl

/-- A task that reads the address of a timer created since, which has yet to be queued. -/
theorem onlyNamed_iff_names_unqueued :
    let es : List HandleEvent :=
      [.addTimer 0 ⟨1, true, 5⟩, .addTimerInLoop 0 0, .addTimer 1 ⟨4, true, 5⟩, .cancel ⟨0, 1⟩ (.stack 1)]
    Meets step OnlyNamed (new fun _ => ⟨0, false, 0⟩) es
      ↔ Meets step Names (new fun _ => ⟨0, false, 0⟩) es :=
  onlyNamed_iff_names _ _ (by decide)

/-- **A timer is cancelled by the handle of another.**  A timer at address `0` runs once and is deleted;
the next one is allocated there, and the handle of the first destroys it. -/
theorem not_onlyNamed_reused :
    let es : List HandleEvent :=
      [.addTimer 0 ⟨1, false, 0⟩, .addTimerInLoop 0 0, .handleRead 1 .ascending, .run, .called, .settle,
        .finish 1, .addTimer 0 ⟨9, true, 5⟩, .addTimerInLoop 0 2, .cancel ⟨0, 1⟩ .argument]
    Meets step Valid (new fun _ => ⟨0, false, 0⟩) es
      ∧ ¬ Meets step OnlyNamed (new fun _ => ⟨0, false, 0⟩) es := by
  refine ⟨by decide, ?_⟩
  rintro ⟨-, -, -, -, -, -, -, -, -, honly, -⟩
  exact absurd (honly 2 (by decide)) (by decide)

end TimerHandles
