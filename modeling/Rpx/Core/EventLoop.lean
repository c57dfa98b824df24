import Rpx.Machinery.Run

/-!
# Core/EventLoop — one loop thread, and the threads that queue tasks for it

    test `running` ──▶ epoll_wait ──▶ handlers ──▶ swap `_pendingTask` ──▶ tasks ──▶ test `running` …

Pushing a task and raising the wake-up event are two steps, and so are setting `running` and raising
it in `quit()`; the steps of other threads come anywhere between those of the loop.  Tasks and handlers
are the owner thread: what they queue comes between two of its steps.

`noneLost_iff_announced` — the loop never blocks over a queued task, unless the owner thread queued
it before `loop()` and `_callingPendingTasks` happened to start out `false`.
-/

open Machinery

/-- Where the loop thread is. -/
inductive LoopPhase
  /-- `loop()` has not been called. -/
  | before
  /-- At the test of `running`. -/
  | test
  /-- Entering `epoll_wait`, or blocked in it. -/
  | polling
  | handlers
  /-- About to swap `_pendingTask`. -/
  | swapping
  | tasks
  /-- `loop()` has returned. -/
  | done
  deriving DecidableEq, Repr

/-- Where another thread is. -/
inductive CallerPhase
  | idle
  /-- In `queueInLoop`, between the push and the wake-up. -/
  | pushed
  /-- In `quit`, between the two statements. -/
  | quitting
  deriving DecidableEq, Repr

structure EventLoop (τ α : Type*) where
  running : Bool
  pendingTask : List α
  callingPendingTasks : Bool
  /-- The counter of the wake-up eventfd. -/
  wakeupFd : ℕ
  phase : LoopPhase
  /-- The wake-up channel is active and its handler has not been called. -/
  woken : Bool
  /-- What is left of the tasks swapped out. -/
  tasks : List α
  /-- The owner thread is in `queueInLoop`, between the push and the wake-up. -/
  ownerPushed : Bool
  callers : τ → CallerPhase
  /-- The owner thread has called `queueInLoop`. -/
  ownerQueued : Bool
  /-- Another thread has. -/
  othersQueued : Bool

/-- A step of the loop thread or of another thread. -/
inductive LoopEvent (τ α : Type*)
  | enter
  | test
  /-- `epoll_wait` returns, with the wake-up channel among the active ones or not. -/
  | pollReturns (woken : Bool)
  | wakeupRead
  /-- The last handler has returned. -/
  | handled
  | swap
  /-- The next task is called. -/
  | task
  | batchDone
  | ownerPush (a : α)
  | ownerWake
  | ownerQuit
  | push (t : τ) (a : α)
  | quit (t : τ)
  /-- A thread raises the wake-up event, at the end of its `queueInLoop` or `quit`. -/
  | wake (t : τ)

/-- The owner thread runs code that is not the loop's own. -/
def LoopPhase.callsOut : LoopPhase → Bool
  | .before | .handlers | .tasks | .done => true
  | .test | .polling | .swapping => false

namespace EventLoop

variable {τ α : Type*}

/-- `EventLoop()`, which leaves `_callingPendingTasks` as it finds it. -/
def new (callingPendingTasks : Bool) : EventLoop τ α where
  running := true
  pendingTask := []
  callingPendingTasks := callingPendingTasks
  wakeupFd := 0
  phase := .before
  woken := false
  tasks := []
  ownerPushed := false
  callers := fun _ => .idle
  ownerQueued := false
  othersQueued := false

/-- The owner thread is free to run code that is not the loop's own. -/
def free (s : EventLoop τ α) : Bool := s.phase.callsOut && !s.ownerPushed

section Step

variable [DecidableEq τ]

def step (s : EventLoop τ α) : LoopEvent τ α → EventLoop τ α
  | .enter => if s.phase = .before ∧ s.ownerPushed = false then { s with phase := .test } else s
  | .test =>
    if s.phase = .test then { s with phase := if s.running then .polling else .done } else s
  | .pollReturns woken =>
    if s.phase = .polling ∧ (woken = true → 0 < s.wakeupFd) then
      { s with phase := .handlers, woken := woken }
    else s
  | .wakeupRead =>
    if s.phase = .handlers ∧ s.ownerPushed = false ∧ s.woken = true then
      { s with wakeupFd := 0, woken := false }
    else s
  | .handled =>
    if s.phase = .handlers ∧ s.ownerPushed = false ∧ s.woken = false then
      { s with phase := .swapping, callingPendingTasks := true }
    else s
  | .swap =>
    if s.phase = .swapping then { s with phase := .tasks, tasks := s.pendingTask, pendingTask := [] }
    else s
  | .task =>
    if s.phase = .tasks ∧ s.ownerPushed = false then { s with tasks := s.tasks.tail } else s
  | .batchDone =>
    if s.phase = .tasks ∧ s.ownerPushed = false ∧ s.tasks = [] then
      { s with phase := .test, callingPendingTasks := true }
    else s
  | .ownerPush a =>
    if s.free then
      { s with pendingTask := s.pendingTask ++ [a], ownerPushed := true, ownerQueued := true }
    else s
  | .ownerWake =>
    if s.ownerPushed then
      { s with
        ownerPushed := false
        wakeupFd := if s.callingPendingTasks then s.wakeupFd + 1 else s.wakeupFd }
    else s
  | .ownerQuit => if s.free then { s with running := false } else s
  | .push t a =>
    if s.callers t = .idle then
      { s with
        pendingTask := s.pendingTask ++ [a]
        callers := Function.update s.callers t .pushed
        othersQueued := true }
    else s
  | .quit t =>
    if s.callers t = .idle then
      { s with running := false, callers := Function.update s.callers t .quitting }
    else s
  | .wake t =>
    if s.callers t = .idle then s
    else { s with wakeupFd := s.wakeupFd + 1, callers := Function.update s.callers t .idle }

end Step

/-! ## The wake-up -/

/-- The wake-up event is raised, or is about to be by a thread that has pushed a task. -/
def Woken (s : EventLoop τ α) : Prop := 0 < s.wakeupFd ∨ ∃ t, s.callers t = .pushed

/-- **No wake-up is lost**: the loop thread does not enter or stay in `epoll_wait` over a queued task
that no wake-up announces. -/
def NoneLost (s : EventLoop τ α) : Prop := s.phase = .polling → s.pendingTask ≠ [] → s.Woken

/-- **The loop is entered announced**: when the loop thread goes to `epoll_wait`, its flag is set, or
the owner thread has queued nothing, or another thread has. -/
def Announced (s : EventLoop τ α) : LoopEvent τ α → Prop
  | .test => s.phase = .test → s.running = true →
      s.callingPendingTasks = true ∨ s.ownerQueued = false ∨ s.othersQueued = true
  | _ => True

/-- Before the first `epoll_wait`, with the flag down: only other threads announce what they queue. -/
structure First (s : EventLoop τ α) : Prop where
  owner : s.ownerQueued = true → s.pendingTask ≠ []
  silent : s.running = true → s.othersQueued = false → ¬ s.Woken
  others : s.othersQueued = true → s.Woken
  queued : s.pendingTask ≠ [] → s.ownerQueued = true ∨ s.othersQueued = true

/-- What holds of every run that goes to `epoll_wait` announced. -/
structure Kept (s : EventLoop τ α) : Prop where
  announced : s.phase ≠ .handlers → s.phase ≠ .swapping →
    s.callingPendingTasks = true ∨ s.phase = .polling → s.pendingTask ≠ [] →
    s.Woken ∨ s.ownerPushed = true
  calling : s.phase = .swapping ∨ s.phase = .tasks → s.callingPendingTasks = true
  first : s.callingPendingTasks = false → s.phase = .before ∨ s.phase = .test → s.First
  outside : s.ownerPushed = true → s.phase.callsOut = true
  quitting : ∀ t, s.callers t = .quitting → s.running = false

variable {s : EventLoop τ α}

/-- A thread that was idle goes elsewhere. -/
theorem Woken.update [DecidableEq τ] (h : s.Woken) {t : τ} (ht : s.callers t = .idle) {running : Bool}
    {p : CallerPhase} :
    Woken { s with running := running, callers := Function.update s.callers t p } := by
  obtain hfd | ⟨t', ht'⟩ := h
  · exact .inl hfd
  · have hne : t' ≠ t := by
      rintro rfl
      rw [ht] at ht'
      cases ht'
    exact .inr ⟨t', (Function.update_of_ne hne ..).trans ht'⟩

/-- **In `epoll_wait`, no wake-up has been lost.** -/
theorem Kept.noneLost (h : s.Kept) : s.NoneLost := by
  intro hphase hpending
  have hother : s.phase ≠ .handlers ∧ s.phase ≠ .swapping := by
    rw [hphase]
    exact ⟨by simp, by simp⟩
  rcases h.announced hother.1 hother.2 (.inr hphase) hpending with hwoken | howner
  · exact hwoken
  · have hout := h.outside howner
    rw [hphase] at hout
    cases hout

theorem kept_new (callingPendingTasks : Bool) :
    (new callingPendingTasks : EventLoop τ α).Kept := by
  refine ⟨fun _ _ _ hp => absurd rfl hp, fun hp => by simp [new] at hp, fun _ _ => ?_,
    fun ho => (by cases ho), fun _ ht => (by cases ht)⟩
  refine ⟨fun ho => (by cases ho), fun _ _ hw => ?_, fun ho => (by cases ho), fun hp => absurd rfl hp⟩
  obtain hfd | ⟨t, ht⟩ := hw
  · exact absurd hfd (Nat.lt_irrefl 0)
  · cases ht

variable [DecidableEq τ]

/-! ## The steps of the loop thread -/

theorem Kept.enter (h : s.Kept) : (s.step .enter).Kept := by
  rw [step]
  split
  · rename_i hs
    obtain ⟨hphase, howner⟩ := hs
    refine ⟨fun _ _ hc hp => ?_, fun hp => ?_, fun hc _ => ?_, fun ho => ?_, h.quitting⟩
    · have hc' : s.callingPendingTasks = true := hc.resolve_right (by simp)
      exact h.announced (by simp [hphase]) (by simp [hphase]) (.inl hc') hp
    · simp at hp
    · have hfirst := h.first hc (.inl hphase)
      exact ⟨hfirst.owner, hfirst.silent, hfirst.others, hfirst.queued⟩
    · rw [howner] at ho
      cases ho
  · exact h

/-- **Going to `epoll_wait` announced.** -/
theorem Kept.test (h : s.Kept) (hs : s.Announced .test) : (s.step .test).Kept := by
  rw [step]
  split
  · rename_i hphase
    have howner : s.ownerPushed = false := by
      by_contra ho
      have hout := h.outside (Bool.not_eq_false _ ▸ ho)
      rw [hphase] at hout
      cases hout
    refine ⟨fun _ _ hc hp => ?_, fun hp => ?_, fun hc hp => ?_, fun ho => ?_, h.quitting⟩
    · by_cases hcalling : s.callingPendingTasks = true
      · exact h.announced (by simp [hphase]) (by simp [hphase]) (.inl hcalling) hp
      · have hfirst := h.first (Bool.not_eq_true _ ▸ hcalling) (.inr hphase)
        have hrunning : s.running = true := by
          by_contra hr
          have hpolling := hc.resolve_left hcalling
          simp [hr] at hpolling
        rcases hs hphase hrunning with hs | hs | hs
        · exact absurd hs hcalling
        · refine .inl (hfirst.others ((hfirst.queued hp).resolve_left ?_))
          simp [hs]
        · exact .inl (hfirst.others hs)
    · cases hr : s.running <;> simp [hr] at hp
    · cases hr : s.running <;> simp [hr] at hp
    · rw [howner] at ho
      cases ho
  · exact h

theorem Kept.pollReturns (h : s.Kept) (woken : Bool) : (s.step (.pollReturns woken)).Kept := by
  rw [step]
  split
  · exact ⟨fun hne => absurd rfl hne, fun hp => by simp at hp, fun _ hp => by simp at hp,
      fun _ => rfl, h.quitting⟩
  · exact h

/-- The event is taken back only where the loop thread looks at `_pendingTask` before it blocks. -/
theorem Kept.wakeupRead (h : s.Kept) : (s.step .wakeupRead).Kept := by
  rw [step]
  split
  · rename_i hs
    obtain ⟨hphase, -⟩ := hs
    exact ⟨fun hne => absurd hphase hne, h.calling, fun _ hp => by simp [hphase] at hp, h.outside,
      h.quitting⟩
  · exact h

theorem Kept.handled (h : s.Kept) : (s.step .handled).Kept := by
  rw [step]
  split
  · rename_i hs
    obtain ⟨hphase, howner, -⟩ := hs
    refine ⟨fun _ hne => absurd rfl hne, fun _ => rfl, fun hc => ?_, fun ho => ?_, h.quitting⟩
    · cases hc
    · rw [howner] at ho
      cases ho
  · exact h

theorem Kept.swap (h : s.Kept) : (s.step .swap).Kept := by
  rw [step]
  split
  · rename_i hphase
    exact ⟨fun _ _ _ hp => absurd rfl hp, fun _ => h.calling (.inl hphase),
      fun _ hp => by simp at hp, fun _ => rfl, h.quitting⟩
  · exact h

theorem Kept.task (h : s.Kept) : (s.step .task).Kept := by
  rw [step]
  split
  · refine ⟨h.announced, h.calling, fun hc hp => ?_, h.outside, h.quitting⟩
    have hfirst := h.first hc hp
    exact ⟨hfirst.owner, hfirst.silent, hfirst.others, hfirst.queued⟩
  · exact h

theorem Kept.batchDone (h : s.Kept) : (s.step .batchDone).Kept := by
  rw [step]
  split
  · rename_i hs
    obtain ⟨hphase, howner, -⟩ := hs
    refine ⟨fun _ _ _ hp => ?_, fun hp => by simp at hp, fun hc => ?_, fun ho => ?_, h.quitting⟩
    · exact h.announced (by simp [hphase]) (by simp [hphase]) (.inl (h.calling (.inr hphase))) hp
    · cases hc
    · rw [howner] at ho
      cases ho
  · exact h

/-! ## The steps of the owner thread in its own code -/

theorem Kept.ownerPush (h : s.Kept) (a : α) : (s.step (.ownerPush a)).Kept := by
  rw [step]
  split
  · rename_i hfree
    have hout : s.phase.callsOut = true := (Bool.and_eq_true_iff.mp hfree).1
    refine ⟨fun _ _ _ _ => .inr rfl, h.calling, fun hc hp => ?_, fun _ => hout, h.quitting⟩
    have hfirst := h.first hc hp
    exact ⟨fun _ => by simp, hfirst.silent, hfirst.others, fun _ => .inl rfl⟩
  · exact h

theorem Kept.ownerWake (h : s.Kept) : (s.step .ownerWake).Kept := by
  rw [step]
  split
  · rename_i howner
    refine ⟨fun _ _ hc hp => .inl ?_, h.calling, fun hc hp => ?_, fun ho => ?_, h.quitting⟩
    · rcases hc with hc | hphase
      · left
        show 0 < if s.callingPendingTasks = true then s.wakeupFd + 1 else s.wakeupFd
        rw [if_pos hc]
        exact Nat.succ_pos _
      · have hout := h.outside howner
        rw [hphase] at hout
        cases hout
    · have hdown : ¬ s.callingPendingTasks = true := by
        rw [hc]
        simp
      have hfirst := h.first hc hp
      rw [if_neg hdown]
      exact ⟨hfirst.owner, hfirst.silent, hfirst.others, hfirst.queued⟩
    · cases ho
  · exact h

theorem Kept.ownerQuit (h : s.Kept) : (s.step .ownerQuit).Kept := by
  rw [step]
  split
  · refine ⟨h.announced, h.calling, fun hc hp => ?_, h.outside, fun _ _ => rfl⟩
    have hfirst := h.first hc hp
    exact ⟨hfirst.owner, fun hr => (by cases hr), hfirst.others, hfirst.queued⟩
  · exact h

/-! ## The steps of other threads -/

/-- A thread that goes elsewhere than to `quit()`. -/
theorem Kept.quitting_update (h : s.Kept) (t : τ) {p : CallerPhase} (hp : p ≠ .quitting) (t' : τ)
    (ht' : Function.update s.callers t p t' = .quitting) : s.running = false := by
  rcases eq_or_ne t' t with rfl | hne
  · rw [Function.update_self] at ht'
    exact absurd ht' hp
  · rw [Function.update_of_ne hne] at ht'
    exact h.quitting t' ht'

theorem Kept.push (h : s.Kept) (t : τ) (a : α) : (s.step (.push t a)).Kept := by
  rw [step]
  split
  · have hwoken : Woken { s with
        pendingTask := s.pendingTask ++ [a]
        callers := Function.update s.callers t .pushed
        othersQueued := true } :=
      .inr ⟨t, Function.update_self ..⟩
    refine ⟨fun _ _ _ _ => .inl hwoken, h.calling, fun _ _ => ?_, h.outside, fun t' ht' => ?_⟩
    · exact ⟨fun _ => by simp, fun _ ho => by simp at ho, fun _ => hwoken, fun _ => .inr rfl⟩
    · exact h.quitting_update t (by simp) t' ht'
  · exact h

theorem Kept.quit (h : s.Kept) (t : τ) : (s.step (.quit t)).Kept := by
  rw [step]
  split
  · rename_i ht
    refine ⟨fun h₁ h₂ hc hp => ?_, h.calling, fun hc hp => ?_, h.outside, fun _ _ => rfl⟩
    · exact (h.announced h₁ h₂ hc hp).imp_left fun hw => hw.update ht
    · have hfirst := h.first hc hp
      exact ⟨hfirst.owner, fun hr => (by cases hr), fun ho => (hfirst.others ho).update ht,
        hfirst.queued⟩
  · exact h

theorem Kept.wake (h : s.Kept) (t : τ) : (s.step (.wake t)).Kept := by
  rw [step]
  split
  · exact h
  · rename_i ht
    refine ⟨fun _ _ _ _ => .inl (.inl (Nat.succ_pos _)), h.calling, fun hc hp => ?_, h.outside,
      fun t' ht' => ?_⟩
    · have hfirst := h.first hc hp
      refine ⟨hfirst.owner, fun hr ho => ?_, fun _ => .inl (Nat.succ_pos _), hfirst.queued⟩
      -- a thread that is in the middle of a call has queued a task, or has cleared `running`
      cases hcaller : s.callers t with
      | idle => exact absurd hcaller ht
      | pushed => exact absurd (.inr ⟨t, hcaller⟩) (hfirst.silent hr ho)
      | quitting => exact absurd (hr.symm.trans (h.quitting t hcaller)) (by simp)
    · exact h.quitting_update t (by simp) t' ht'

/-! ## Every step -/

theorem Kept.step (h : s.Kept) (e : LoopEvent τ α) (hs : s.Announced e) : (s.step e).Kept := by
  cases e with
  | enter => exact h.enter
  | test => exact h.test hs
  | pollReturns woken => exact h.pollReturns woken
  | wakeupRead => exact h.wakeupRead
  | handled => exact h.handled
  | swap => exact h.swap
  | task => exact h.task
  | batchDone => exact h.batchDone
  | ownerPush a => exact h.ownerPush a
  | ownerWake => exact h.ownerWake
  | ownerQuit => exact h.ownerQuit
  | push t a => exact h.push t a
  | quit t => exact h.quit t
  | wake t => exact h.wake t

/-- **A task of the owner thread alone, and the flag down**: the loop blocks over it. -/
theorem Kept.lost_test (h : s.Kept) (hs : ¬ s.Announced .test) : ¬ (s.step .test).NoneLost := by
  obtain ⟨hphase, hs⟩ := Classical.not_imp.mp hs
  obtain ⟨hrunning, hs⟩ := Classical.not_imp.mp hs
  obtain ⟨hcalling, hs⟩ := not_or.mp hs
  obtain ⟨howner, hothers⟩ := not_or.mp hs
  have hfirst := h.first (Bool.not_eq_true _ ▸ hcalling) (.inr hphase)
  have hstep : s.step .test = { s with phase := .polling } := by
    rw [EventLoop.step, if_pos hphase, if_pos hrunning]
  rw [hstep]
  intro hnone
  exact hfirst.silent hrunning (Bool.not_eq_true _ ▸ hothers)
    (hnone rfl (hfirst.owner (Bool.not_eq_false _ ▸ howner)))

/-- **No lost wake-up, exactly.**  In every state of a run the loop thread is not in `epoll_wait` over
a queued task that nothing announces, if and only if the loop is entered announced. -/
theorem noneLost_iff_announced (callingPendingTasks : Bool) (es : List (LoopEvent τ α)) :
    (∀ js, js <+: es → (run step (new callingPendingTasks) js).NoneLost)
      ↔ Meets step Announced (new callingPendingTasks) es := by
  refine forall_prefix_iff_of_inv (fun _ h => h.noneLost) (fun _ e h _ hs => h.step e hs) ?_
    (kept_new callingPendingTasks) (meets_true _ es)
  intro s e h _ hs
  cases e with
  | test => exact h.lost_test hs
  | _ => exact absurd trivial hs

/-- **A task queued before `loop()`**, by the owner thread and with the flag down, as
`Connector::start` does: the loop blocks over it. -/
theorem queued_before_loop_lost :
    ¬ (run step (new false : EventLoop Unit Unit) [.ownerPush (), .ownerWake, .enter, .test]).NoneLost := by
  intro hnone
  obtain hfd | ⟨t, ht⟩ := hnone rfl (List.cons_ne_nil _ _)
  · exact absurd hfd (Nat.lt_irrefl 0)
  · cases ht

/-! ## What `quit()` leaves behind

`P` says which tasks must not be left behind. -/

/-- The tasks that have been queued and not called, oldest first. -/
def queue (s : EventLoop τ α) : List α := s.tasks ++ s.pendingTask

/-- The task that the next `task` step calls. -/
def next? (s : EventLoop τ α) : Option α :=
  if s.phase = .tasks ∧ s.ownerPushed = false then s.tasks.head? else none

/-- The loop thread will swap `_pendingTask` before it tests `running` again. -/
def WillSwap (s : EventLoop τ α) : Prop :=
  s.phase = .polling ∨ s.phase = .handlers ∨ s.phase = .swapping

instance (s : EventLoop τ α) : Decidable s.WillSwap := by
  unfold WillSwap
  infer_instance

/-- **A loop that leaves nothing behind**: told to quit, it still swaps or has nothing to swap. -/
structure Drains (P : α → Prop) (s : EventLoop τ α) : Prop where
  resting : s.phase ≠ .tasks → s.tasks = []
  drained : s.running = false → s.WillSwap ∨ ∀ a ∈ s.pendingTask, ¬ P a
  returned : s.phase = .done → s.running = false

/-- **A loop that will leave a task behind.** -/
structure Strands (P : α → Prop) (s : EventLoop τ α) : Prop where
  told : s.running = false
  late : ¬ s.WillSwap
  left : ∃ a ∈ s.pendingTask, P a

variable {P : α → Prop}

omit [DecidableEq τ] in
theorem drains_new (callingPendingTasks : Bool) :
    (new callingPendingTasks : EventLoop τ α).Drains P :=
  ⟨fun _ => rfl, fun hr => absurd hr (by simp [new]), fun hp => absurd hp (by simp [new])⟩

omit [DecidableEq τ] in
/-- A loop that has returned left nothing behind. -/
theorem Drains.not_of_done (h : s.Drains P) (hdone : s.phase = .done) : ∀ a ∈ s.queue, ¬ P a := by
  have hlate : ¬ s.WillSwap := by simp [WillSwap, hdone]
  have hrest : s.tasks = [] := h.resting (by simp [hdone])
  rw [queue, hrest]
  exact (h.drained (h.returned hdone)).resolve_left hlate

/-- A loop that calls a task calls the oldest. -/
theorem queue_of_next {a : α} (ha : s.next? = some a) :
    s.phase = .tasks ∧ s.queue = a :: (s.step .task).queue := by
  rw [next?] at ha
  split at ha
  · rename_i hs
    obtain ⟨rest, htasks⟩ := List.head?_eq_some_iff.mp ha
    refine ⟨hs.1, ?_⟩
    rw [step, if_pos hs, queue, queue, htasks]
    rfl
  · cases ha

/-- **What is queued and called**: an event pushes its own task, calls the next one, or neither. -/
theorem queue_step (hrest : s.phase ≠ .tasks → s.tasks = []) (e : LoopEvent τ α) :
    (s.step e).queue = s.queue
      ∨ (∃ a, (e = .ownerPush a ∨ ∃ t, e = .push t a) ∧ (s.step e).queue = s.queue ++ [a])
      ∨ ∃ a, e = .task ∧ s.next? = some a ∧ s.queue = a :: (s.step e).queue := by
  cases e with
  | swap =>
    left
    rw [step]
    split
    · rename_i hphase
      rw [queue, queue, hrest (by simp [hphase])]
      simp
    · rfl
  | task =>
    rw [step]
    split
    · rename_i hs
      cases htasks : s.tasks with
      | nil =>
        left
        rw [queue, queue, htasks]
        rfl
      | cons a rest =>
        have hnext : s.next? = some a := by rw [next?, if_pos hs, htasks]; rfl
        have hq := (queue_of_next hnext).2
        rw [step, if_pos hs, htasks] at hq
        exact .inr (.inr ⟨a, rfl, hnext, hq⟩)
    · exact .inl rfl
  | ownerPush a =>
    rw [step]
    split
    · exact .inr (.inl ⟨a, .inl rfl, (List.append_assoc ..).symm⟩)
    · exact .inl rfl
  | push t a =>
    rw [step]
    split
    · exact .inr (.inl ⟨a, .inr ⟨t, rfl⟩, (List.append_assoc ..).symm⟩)
    · exact .inl rfl
  | _ =>
    left
    rw [step]
    split <;> rfl

/-- Of the steps of a loop only `quit()` clears `running`. -/
theorem running_step (e : LoopEvent τ α) (hquit : e ≠ .ownerQuit ∧ ∀ t, e ≠ .quit t) :
    (s.step e).running = s.running := by
  cases e with
  | ownerQuit => exact absurd rfl hquit.1
  | quit t => exact absurd rfl (hquit.2 t)
  | _ =>
    rw [step]
    split <;> rfl

/-- Only its own calls move a thread. -/
theorem callers_step {t : τ} (e : LoopEvent τ α) (hpush : ∀ a, e ≠ .push t a) (hquit : e ≠ .quit t)
    (hwake : e ≠ .wake t) : (s.step e).callers t = s.callers t := by
  cases e with
  | push t' a =>
    have hne : t ≠ t' := fun heq => hpush a (heq ▸ rfl)
    rw [step]
    split
    · exact Function.update_of_ne hne ..
    · rfl
  | quit t' =>
    have hne : t ≠ t' := fun heq => hquit (heq ▸ rfl)
    rw [step]
    split
    · exact Function.update_of_ne hne ..
    · rfl
  | wake t' =>
    have hne : t ≠ t' := fun heq => hwake (heq ▸ rfl)
    rw [step]
    split
    · rfl
    · exact Function.update_of_ne hne ..
  | _ =>
    rw [step]
    split <;> rfl

/-- A thread that pushes a task queues it. -/
theorem queue_push {t : τ} (ht : s.callers t = .idle) (a : α) :
    (s.step (.push t a)).queue = s.queue ++ [a] := by
  rw [step, if_pos ht]
  exact (List.append_assoc ..).symm

/-- A thread that raises the wake-up event, or quits, queues nothing. -/
theorem queue_wake (t : τ) : (s.step (.wake t)).queue = s.queue := by
  rw [step]
  split <;> rfl

theorem queue_quit (t : τ) : (s.step (.quit t)).queue = s.queue := by
  rw [step]
  split <;> rfl

/-- After the wake-up the thread is idle. -/
theorem callers_wake (t : τ) : (s.step (.wake t)).callers t = .idle := by
  rw [step]
  split
  · assumption
  · exact Function.update_self ..

/-- **From `s` to `s'` nothing is queued and nobody quits**: the loop thread moves, not past its swap,
and on to another only while it runs. -/
structure Moves (s s' : EventLoop τ α) : Prop where
  pendingTask : s'.pendingTask = s.pendingTask
  running : s'.running = s.running
  resting : (s.phase ≠ .tasks → s.tasks = []) → s'.phase ≠ .tasks → s'.tasks = []
  swaps : s.WillSwap → s'.WillSwap
  goesOn : s'.WillSwap → s.WillSwap ∨ s.running = true
  returns : s'.phase = .done → s.phase = .done ∨ s.running = false

omit [DecidableEq τ] in
/-- The phase and the batch are as they were. -/
theorem Moves.of_phase {s' : EventLoop τ α} (hpending : s'.pendingTask = s.pendingTask)
    (hrunning : s'.running = s.running) (hphase : s'.phase = s.phase)
    (htasks : s.phase = .tasks ∨ s'.tasks = s.tasks) : s.Moves s' := by
  refine ⟨hpending, hrunning, fun hrest hne => ?_, fun hw => ?_, fun hw => ?_, fun hd => ?_⟩
  · rw [hphase] at hne
    rw [htasks.resolve_left hne]
    exact hrest hne
  · rwa [WillSwap, hphase]
  · rw [WillSwap, hphase] at hw
    exact .inl hw
  · exact .inl (hphase ▸ hd)

omit [DecidableEq τ] in
theorem Moves.refl (s : EventLoop τ α) : s.Moves s := .of_phase rfl rfl rfl (.inr rfl)

theorem moves_enter : s.Moves (s.step .enter) := by
  rw [step]
  split
  · rename_i hs
    exact ⟨rfl, rfl, fun hrest _ => hrest (by simp [hs.1]), fun hw => by simp [WillSwap, hs.1] at hw,
      fun hw => by simp [WillSwap] at hw, fun hd => by simp at hd⟩
  · exact .refl s

/-- The loop thread goes to `epoll_wait` or returns. -/
theorem moves_test : s.Moves (s.step .test) := by
  rw [step]
  split
  · rename_i hphase
    refine ⟨rfl, rfl, fun hrest _ => hrest (by simp [hphase]), fun hw => ?_, fun hw => .inr ?_,
      fun hd => .inr ?_⟩
    · simp [WillSwap, hphase] at hw
    · by_contra hr
      simp [WillSwap, hr] at hw
    · by_contra hr
      simp [hr] at hd
  · exact .refl s

theorem moves_pollReturns (woken : Bool) : s.Moves (s.step (.pollReturns woken)) := by
  rw [step]
  split
  · rename_i hs
    exact ⟨rfl, rfl, fun hrest _ => hrest (by simp [hs.1]), fun _ => .inr (.inl rfl),
      fun _ => .inl (.inl hs.1), fun hd => by simp at hd⟩
  · exact .refl s

theorem moves_handled : s.Moves (s.step .handled) := by
  rw [step]
  split
  · rename_i hs
    exact ⟨rfl, rfl, fun hrest _ => hrest (by simp [hs.1]), fun _ => .inr (.inr rfl),
      fun _ => .inl (.inr (.inl hs.1)), fun hd => by simp at hd⟩
  · exact .refl s

theorem moves_task : s.Moves (s.step .task) := by
  rw [step]
  split
  · rename_i hs
    exact .of_phase rfl rfl rfl (.inl hs.1)
  · exact .refl s

theorem moves_batchDone : s.Moves (s.step .batchDone) := by
  rw [step]
  split
  · rename_i hs
    exact ⟨rfl, rfl, fun _ _ => hs.2.2, fun hw => by simp [WillSwap, hs.1] at hw,
      fun hw => by simp [WillSwap] at hw, fun hd => by simp at hd⟩
  · exact .refl s

/-- **What a step is to `quit()`**: it pushes a task, swaps, quits, or moves on. -/
theorem step_cases (e : LoopEvent τ α) :
    (∃ a, (e = .ownerPush a ∨ ∃ t, e = .push t a)
        ∧ s.step e = { s with
          pendingTask := s.pendingTask ++ [a]
          ownerPushed := (s.step e).ownerPushed
          ownerQueued := (s.step e).ownerQueued
          callers := (s.step e).callers
          othersQueued := (s.step e).othersQueued })
      ∨ (s.phase = .swapping ∧ s.step e = { s with
          phase := .tasks
          tasks := s.pendingTask
          pendingTask := [] })
      ∨ ((e = .ownerQuit ∨ ∃ t, e = .quit t)
        ∧ s.step e = { s with running := false, callers := (s.step e).callers })
      ∨ s.Moves (s.step e) := by
  cases e with
  | enter => exact .inr (.inr (.inr moves_enter))
  | test => exact .inr (.inr (.inr moves_test))
  | pollReturns woken => exact .inr (.inr (.inr (moves_pollReturns woken)))
  | handled => exact .inr (.inr (.inr moves_handled))
  | task => exact .inr (.inr (.inr moves_task))
  | batchDone => exact .inr (.inr (.inr moves_batchDone))
  | swap =>
    rw [step]
    split
    · rename_i hphase
      exact .inr (.inl ⟨hphase, rfl⟩)
    · exact .inr (.inr (.inr (.refl s)))
  | ownerPush a =>
    rw [step]
    split
    · exact .inl ⟨a, .inl rfl, rfl⟩
    · exact .inr (.inr (.inr (.refl s)))
  | push t a =>
    rw [step]
    split
    · exact .inl ⟨a, .inr ⟨t, rfl⟩, rfl⟩
    · exact .inr (.inr (.inr (.refl s)))
  | ownerQuit =>
    rw [step]
    split
    · exact .inr (.inr (.inl ⟨.inl rfl, rfl⟩))
    · exact .inr (.inr (.inr (.refl s)))
  | quit t =>
    rw [step]
    split
    · exact .inr (.inr (.inl ⟨.inr ⟨t, rfl⟩, rfl⟩))
    · exact .inr (.inr (.inr (.refl s)))
  | _ =>
    refine .inr (.inr (.inr ?_))
    rw [step]
    split <;> exact .of_phase rfl rfl rfl (.inr rfl)

/-- **A step that does not quit** leaves nothing behind, if it pushes no such task too late. -/
theorem Drains.step (h : s.Drains P) (e : LoopEvent τ α) (hquit : e ≠ .ownerQuit ∧ ∀ t, e ≠ .quit t)
    (hpush : s.running = false → ∀ a, e = .ownerPush a ∨ (∃ t, e = .push t a) → ¬ P a) :
    (s.step e).Drains P := by
  rcases s.step_cases e with ⟨a, ha, hstep⟩ | ⟨-, hstep⟩ | ⟨he, -⟩ | hmoves
  · rw [hstep]
    refine ⟨h.resting, fun hr => ?_, h.returned⟩
    refine (h.drained hr).imp_right fun hleft b hb => ?_
    rcases List.mem_append.mp hb with hb | hb
    · exact hleft b hb
    · exact List.mem_singleton.mp hb ▸ hpush hr a ha
  · rw [hstep]
    exact ⟨fun hne => absurd rfl hne, fun _ => .inr fun _ ha => absurd ha List.not_mem_nil,
      fun hp => by simp at hp⟩
  · exact (he.elim hquit.1 fun ⟨t, ht⟩ => hquit.2 t ht).elim
  · refine ⟨hmoves.resting h.resting, fun hr => ?_, fun hd => hmoves.running.trans ?_⟩
    · rw [hmoves.pendingTask]
      exact (h.drained (hmoves.running ▸ hr)).imp_left hmoves.swaps
    · exact (hmoves.returns hd).elim h.returned id

/-- **A loop told in time** leaves nothing behind. -/
theorem Drains.quit (h : s.Drains P) (t : τ)
    (hs : s.WillSwap ∨ ∀ a ∈ s.pendingTask, ¬ P a) : (s.step (.quit t)).Drains P := by
  rw [EventLoop.step]
  split
  · exact ⟨h.resting, fun _ => hs, fun _ => rfl⟩
  · exact h

/-- A loop told too late leaves the task behind. -/
theorem strands_quit {t : τ} (ht : s.callers t = .idle)
    (hs : ¬ (s.WillSwap ∨ ∀ a ∈ s.pendingTask, ¬ P a)) : (s.step (.quit t)).Strands P := by
  obtain ⟨hlate, hleft⟩ := not_or.mp hs
  rw [EventLoop.step, if_pos ht]
  refine ⟨rfl, hlate, ?_⟩
  push Not at hleft
  exact hleft

/-- **…whatever happens then.** -/
theorem Strands.step (h : s.Strands P) (e : LoopEvent τ α) : (s.step e).Strands P := by
  obtain ⟨htold, hlate, a, ha, hPa⟩ := h
  rcases s.step_cases e with ⟨b, -, hstep⟩ | ⟨hswapping, -⟩ | ⟨-, hstep⟩ | hmoves
  · rw [hstep]
    exact ⟨htold, hlate, a, List.mem_append_left _ ha, hPa⟩
  · exact absurd (.inr (.inr hswapping)) hlate
  · rw [hstep]
    exact ⟨rfl, hlate, a, ha, hPa⟩
  · refine ⟨hmoves.running.trans htold, fun hw => ?_, a, hmoves.pendingTask ▸ ha, hPa⟩
    exact (hmoves.goesOn hw).elim hlate fun hr => absurd (htold.symm.trans hr) Bool.false_ne_true

end EventLoop
