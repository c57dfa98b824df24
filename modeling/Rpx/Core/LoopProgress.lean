import Rpx.Core.TaskOrder
import Rpx.Machinery.Progress

/-!
# Core/LoopProgress — a loop gets round to its tasks, and to `quit()`

    tasks 7 ──▶ test 6 ──▶ polling 5 ──▶ handlers 4, 3 ──▶ swapping 2 ──▶ tasks, with the task in the batch

What is ahead of a task that has been queued: those queued before it, and the phases up to the swap that
takes it out.  Other threads add nothing to this, and the owner thread only what it does itself in
between.  The loop thread can be held up in `epoll_wait` alone, and is not for long: the task, or the
call of `quit()`, has raised the wake-up event or is about to.
-/

open Machinery

namespace EventLoop

variable {τ α : Type*} {s : EventLoop τ α}

/-- A step of the loop thread. -/
def OfLoop (s : EventLoop τ α) : LoopEvent τ α → Prop
  | .enter => s.phase = .before ∧ s.ownerPushed = false
  | .test => s.phase = .test
  | .pollReturns woken => s.phase = .polling ∧ (woken = true → 0 < s.wakeupFd)
  | .wakeupRead => s.phase = .handlers ∧ s.ownerPushed = false ∧ s.woken = true
  | .handled => s.phase = .handlers ∧ s.ownerPushed = false ∧ s.woken = false
  | .swap => s.phase = .swapping
  | .task => s.phase = .tasks ∧ s.ownerPushed = false ∧ s.tasks ≠ []
  | .batchDone => s.phase = .tasks ∧ s.ownerPushed = false ∧ s.tasks = []
  | .ownerWake => s.ownerPushed = true
  | _ => False

instance (s : EventLoop τ α) : ∀ e, Decidable (s.OfLoop e)
  | .enter => inferInstanceAs (Decidable (_ ∧ _))
  | .test => inferInstanceAs (Decidable (_ = _))
  | .pollReturns _ => inferInstanceAs (Decidable (_ ∧ (_ → _)))
  | .wakeupRead => inferInstanceAs (Decidable (_ ∧ _ ∧ _))
  | .handled => inferInstanceAs (Decidable (_ ∧ _ ∧ _))
  | .swap => inferInstanceAs (Decidable (_ = _))
  | .task => inferInstanceAs (Decidable (_ ∧ _ ∧ _))
  | .batchDone => inferInstanceAs (Decidable (_ ∧ _ ∧ _))
  | .ownerWake => inferInstanceAs (Decidable (_ = _))
  | .ownerPush _ | .ownerQuit | .push _ _ | .quit _ | .wake _ => inferInstanceAs (Decidable False)

/-- The owner thread queues a task, and has to see to its wake-up. -/
def OwnerPushes : LoopEvent τ α → Prop
  | .ownerPush _ => True
  | _ => False

instance : ∀ e : LoopEvent τ α, Decidable (OwnerPushes e)
  | .ownerPush _ => inferInstanceAs (Decidable True)
  | .enter | .test | .pollReturns _ | .wakeupRead | .handled | .swap | .task | .batchDone | .ownerWake
  | .ownerQuit | .push _ _ | .quit _ | .wake _ => inferInstanceAs (Decidable False)

/-- Nobody calls `quit()`. -/
def Stays : LoopEvent τ α → Prop
  | .ownerQuit | .quit _ => False
  | _ => True

instance : ∀ e : LoopEvent τ α, Decidable (Stays e)
  | .ownerQuit | .quit _ => inferInstanceAs (Decidable False)
  | .enter | .test | .pollReturns _ | .wakeupRead | .handled | .swap | .task | .batchDone | .ownerWake
  | .ownerPush _ | .push _ _ | .wake _ => inferInstanceAs (Decidable True)

/-- **The loop thread can take a step**, without anything else happening to a descriptor; or another thread
is about to raise the wake-up event. -/
def CanGoOn (s : EventLoop τ α) : Prop :=
  (∃ e, s.OfLoop e ∧ e ≠ .pollReturns false) ∨ ∃ t, s.callers t ≠ .idle

/-- **Outside `epoll_wait` the loop thread is never held up.** -/
theorem canGoOn_of_ne (hpolling : s.phase ≠ .polling) (hdone : s.phase ≠ .done) : s.CanGoOn := by
  refine .inl ?_
  by_cases howner : s.ownerPushed = true
  · exact ⟨.ownerWake, howner, by simp⟩
  · have hfree : s.ownerPushed = false := Bool.not_eq_true _ ▸ howner
    cases hphase : s.phase with
    | before => exact ⟨.enter, ⟨hphase, hfree⟩, by simp⟩
    | test => exact ⟨.test, hphase, by simp⟩
    | polling => exact absurd hphase hpolling
    | handlers =>
      cases hwoken : s.woken with
      | true => exact ⟨.wakeupRead, ⟨hphase, hfree, hwoken⟩, by simp⟩
      | false => exact ⟨.handled, ⟨hphase, hfree, hwoken⟩, by simp⟩
    | swapping => exact ⟨.swap, hphase, by simp⟩
    | tasks =>
      by_cases htasks : s.tasks = []
      · exact ⟨.batchDone, ⟨hphase, hfree, htasks⟩, by simp⟩
      · exact ⟨.task, ⟨hphase, hfree, htasks⟩, by simp⟩
    | done => exact absurd hphase hdone

/-- …and in it not for long, once the event is raised or about to be. -/
theorem canGoOn_of_polling (hphase : s.phase = .polling)
    (hwoken : 0 < s.wakeupFd ∨ ∃ t, s.callers t ≠ .idle) : s.CanGoOn :=
  hwoken.imp_left fun hfd => ⟨.pollReturns true, ⟨hphase, fun _ => hfd⟩, by simp⟩

/-! ## The next swap -/

/-- The steps up to the swap and the call of what it takes out. -/
def ahead (s : EventLoop τ α) : ℕ :=
  match s.phase with
  | .before | .tasks => 7
  | .test => 6
  | .polling => 5
  | .handlers => if s.woken then 4 else 3
  | .swapping => 2
  | .done => 0

/-- What is ahead of the call of the `j`-th task queued, when `x` have been called. -/
def rank (j x : ℕ) (s : EventLoop τ α) : ℕ :=
  if j < x then 0
  else (j + 1 - x) + (if j < x + s.tasks.length then 0 else s.ahead) + (if s.ownerPushed then 1 else 0)

theorem rank_le (j x : ℕ) (s : EventLoop τ α) : s.rank j x ≤ (j + 1 - x) + 8 := by
  have hahead : s.ahead ≤ 7 := by
    rw [ahead]
    split
    all_goals first | decide | (split <;> decide)
  rw [rank]
  split
  · exact Nat.zero_le _
  · split <;> split <;> omega

variable {j x : ℕ}

theorem rank_of_le (hx : x ≤ j) :
    s.rank j x = (j + 1 - x) + (if j < x + s.tasks.length then 0 else s.ahead)
      + (if s.ownerPushed then 1 else 0) :=
  if_neg (Nat.not_lt.mpr hx)

/-- Behind the batch that is out, the task waits for the next swap. -/
theorem rank_of_nil (hx : x ≤ j) (htasks : s.tasks = []) :
    s.rank j x = (j + 1 - x) + s.ahead + (if s.ownerPushed then 1 else 0) := by
  rw [rank_of_le hx, if_neg (by rw [htasks]; exact Nat.not_lt.mpr hx)]

theorem rank_of_lt (hx : j < x) : s.rank j x = 0 := if_pos hx

/-- What other threads do makes no difference. -/
theorem rank_congr {s' : EventLoop τ α} (htasks : s'.tasks = s.tasks) (hphase : s'.phase = s.phase)
    (hwoken : s'.woken = s.woken) (howner : s'.ownerPushed = s.ownerPushed) :
    s'.rank j x = s.rank j x := by
  rw [rank, rank, ahead, ahead, htasks, hphase, hwoken, howner]

/-- **While a task waits**: `running` is set, the task is in the batch or in `_pendingTask`, and a loop that
is not calling tasks has no batch. -/
structure Waits (j x : ℕ) (s : EventLoop τ α) : Prop where
  running : s.running = true
  resting : s.phase ≠ .tasks → s.tasks = []
  queued : j < x + s.tasks.length + s.pendingTask.length
  waiting : x ≤ j

/-- The loop thread goes on to another phase, without a batch. -/
theorem Waits.rank_phase (h : Waits j x s) {s' : EventLoop τ α} (hs' : s'.tasks = s.tasks)
    (hphase : s.phase ≠ .tasks) (howner : s'.ownerPushed = s.ownerPushed) (hahead : s'.ahead < s.ahead) :
    1 + s'.rank j x ≤ s.rank j x := by
  have htasks := h.resting hphase
  rw [rank_of_nil h.waiting (hs'.trans htasks), rank_of_nil h.waiting htasks, howner]
  omega

variable [DecidableEq τ]

/-- **A step of the loop thread that calls no task** brings the task nearer to its call. -/
theorem Waits.rank_step (h : Waits j x s) {e : LoopEvent τ α} (he : s.OfLoop e) (hcall : e ≠ .task) :
    1 + (s.step e).rank j x ≤ s.rank j x := by
  have hx := h.waiting
  cases e with
  | enter =>
    obtain ⟨hphase, howner⟩ := he
    rw [step, if_pos ⟨hphase, howner⟩]
    exact h.rank_phase rfl (by simp [hphase]) rfl (by simp [ahead, hphase])
  | test =>
    have hphase : s.phase = .test := he
    rw [step, if_pos hphase, if_pos h.running]
    exact h.rank_phase rfl (by simp [hphase]) rfl (by simp [ahead, hphase])
  | pollReturns woken =>
    obtain ⟨hphase, hfd⟩ := he
    rw [step, if_pos ⟨hphase, hfd⟩]
    refine h.rank_phase rfl (by simp [hphase]) rfl ?_
    simp only [ahead, hphase]
    split <;> omega
  | wakeupRead =>
    obtain ⟨hphase, howner, hwoken⟩ := he
    rw [step, if_pos ⟨hphase, howner, hwoken⟩]
    exact h.rank_phase rfl (by simp [hphase]) rfl (by simp [ahead, hphase, hwoken])
  | handled =>
    obtain ⟨hphase, howner, hwoken⟩ := he
    rw [step, if_pos ⟨hphase, howner, hwoken⟩]
    exact h.rank_phase rfl (by simp [hphase]) rfl (by simp [ahead, hphase, hwoken])
  | swap =>
    have hphase : s.phase = .swapping := he
    have hqueued := h.queued
    rw [h.resting (by simp [hphase]), List.length_nil, Nat.add_zero] at hqueued
    rw [rank_of_nil hx (h.resting (by simp [hphase])), ahead, hphase, step, if_pos hphase, rank_of_le hx]
    dsimp only
    rw [if_pos hqueued]
    omega
  | task => exact absurd rfl hcall
  | batchDone =>
    obtain ⟨hphase, howner, htasks⟩ := he
    rw [step, if_pos ⟨hphase, howner, htasks⟩, rank_of_nil hx htasks,
      rank_of_nil (s := { s with phase := .test, callingPendingTasks := true }) hx htasks, ahead, ahead, hphase]
    dsimp only
    omega
  | ownerWake =>
    have howner : s.ownerPushed = true := he
    rw [step, if_pos howner, rank_of_le hx, rank_of_le hx, howner, if_pos rfl]
    dsimp only
    rw [if_neg Bool.false_ne_true]
    simp only [ahead]
    omega
  | ownerPush a | ownerQuit | push t a | quit t | wake t => exact absurd he id

/-- **…and so does the call of another.** -/
theorem Waits.rank_task (h : Waits j x s) (he : s.OfLoop .task) :
    1 + (s.step .task).rank j (x + 1) ≤ s.rank j x := by
  obtain ⟨hphase, howner, htasks⟩ := he
  have hx := h.waiting
  have hpos := List.length_pos_iff.mpr htasks
  have htail : s.tasks.tail.length = s.tasks.length - 1 := List.length_tail
  rw [step, if_pos ⟨hphase, howner⟩, rank_of_le hx]
  rcases Nat.lt_or_ge j (x + 1) with hlt | hge
  · rw [rank_of_lt hlt]
    omega
  · rw [rank_of_le hge]
    dsimp only
    simp only [ahead, hphase, htail, howner, Bool.false_eq_true, if_false]
    split <;> split <;> omega

/-- **Any other step** leaves it where it was, but for the wake-up that the owner thread owes. -/
theorem rank_step_other {e : LoopEvent τ α} (he : ¬ s.OfLoop e) (hstays : Stays e) :
    (s.step e).rank j x ≤ s.rank j x + (if OwnerPushes e then 1 else 0) := by
  cases e with
  | ownerPush a =>
    rw [step]
    split
    · rw [if_pos (show OwnerPushes (.ownerPush a : LoopEvent τ α) from trivial)]
      rcases Nat.lt_or_ge j x with hlt | hge
      · rw [rank_of_lt hlt]
        exact Nat.zero_le _
      · rw [rank_of_le hge, rank_of_le hge]
        simp only [ahead, if_true]
        omega
    · exact Nat.le_add_right _ _
  | push t a =>
    rw [step]
    split
    · exact (rank_congr rfl rfl rfl rfl).le
    · exact Nat.le_add_right _ _
  | wake t =>
    rw [step]
    split
    · exact Nat.le_add_right _ _
    · exact (rank_congr rfl rfl rfl rfl).le
  | ownerQuit | quit t => exact absurd hstays id
  | enter | test | pollReturns _ | wakeupRead | handled | swap | batchDone | ownerWake =>
    rw [step, if_neg]
    · exact Nat.le_add_right _ _
    · exact he
  | task =>
    rw [step]
    split
    · rename_i hs
      -- there is none to call
      have hnil : s.tasks = [] := not_not.mp fun hne => he ⟨hs.1, hs.2, hne⟩
      have hsame : { s with tasks := s.tasks.tail } = s := by rw [hnil, List.tail_nil, ← hnil]
      rw [hsame]
      exact Nat.le_add_right _ _
    · exact Nat.le_add_right _ _

end EventLoop

/-! ## A task is called in time -/

namespace TaskRecord

open EventLoop

variable {τ α : Type*} {r : TaskRecord τ α} {j : ℕ}

/-- A push, a swap or a pop takes nothing back. -/
theorem length_pushed_le (q : Batches α) (ops : List (BatchOp α)) :
    q.pushed.length ≤ (run Batches.step q ops).pushed.length := by
  induction ops generalizing q with
  | nil => exact le_rfl
  | cons op ops ih =>
    refine le_trans ?_ (ih _)
    cases op with
    | push a =>
      show q.pushed.length ≤ (q.pushed ++ [_]).length
      rw [List.length_append]
      exact Nat.le_add_right _ _
    | swap => exact le_rfl
    | pop =>
      rw [Batches.step]
      split <;> exact le_rfl

variable [DecidableEq τ]

theorem queued_le_step (e : LoopEvent τ α) : r.queued.length ≤ (r.step e).queued.length := by
  rw [queued, queued, List.length_map, List.length_map]
  exact length_pushed_le _ _

/-- **The call of a task** is recorded. -/
theorem executed_task (h : r.Agrees) (he : r.loop.OfLoop .task) :
    (r.step .task).executed.length = r.executed.length + 1 := by
  obtain ⟨hphase, howner, htasks⟩ := he
  obtain ⟨a, rest, hcons⟩ := List.exists_cons_of_ne_nil (h.current ▸ htasks)
  rw [executed, executed, step, batchOps, if_pos ⟨hphase, howner⟩, run_cons, run_nil, Batches.step, hcons]
  simp

/-- …and nothing else is one. -/
theorem executed_other (h : r.Agrees) {e : LoopEvent τ α} (he : r.loop.OfLoop e → e ≠ .task) :
    (r.step e).executed = r.executed := by
  cases e with
  | task =>
    rw [executed, executed, step, batchOps]
    split
    · rename_i hs
      have hnil : r.loop.tasks = [] := not_not.mp fun hne => he ⟨hs.1, hs.2, hne⟩ rfl
      rw [run_cons, run_nil, Batches.step, h.current, hnil]
    · rfl
  | ownerPush a | push t a | swap =>
    rw [executed, executed, step, batchOps]
    split <;> rfl
  | _ => rfl

/-- **A loop that nobody tells to quit**, and that was entered announced. -/
def Goes (r : TaskRecord τ α) (e : LoopEvent τ α) : Prop := r.loop.Announced e ∧ Stays e

instance (r : TaskRecord τ α) : ∀ e, Decidable (r.Goes e)
  | .test => inferInstanceAs (Decidable ((_ → _ → _ ∨ _ ∨ _) ∧ True))
  | .ownerQuit | .quit _ => inferInstanceAs (Decidable (True ∧ False))
  | .enter | .pollReturns _ | .wakeupRead | .handled | .swap | .task | .batchDone | .ownerWake | .ownerPush _
  | .push _ _ | .wake _ => inferInstanceAs (Decidable (True ∧ True))

/-- What holds of it. -/
structure Live (r : TaskRecord τ α) : Prop where
  agrees : r.Agrees
  kept : r.loop.Kept
  drains : r.loop.Drains fun _ => False
  running : r.loop.running = true

omit [DecidableEq τ] in
theorem live_new (callingPendingTasks : Bool) : (new callingPendingTasks : TaskRecord τ α).Live :=
  ⟨agrees_new _, kept_new _, drains_new _, rfl⟩

theorem Live.step (h : r.Live) {e : LoopEvent τ α} (he : r.Goes e) : (r.step e).Live := by
  have hquit : e ≠ .ownerQuit ∧ ∀ t, e ≠ .quit t := by
    refine ⟨?_, fun t => ?_⟩
    all_goals
      rintro rfl
      exact he.2
  exact ⟨h.agrees.step e, h.kept.step e he.1, h.drains.step e hquit fun _ _ _ hP => hP,
    (running_step e hquit).trans h.running⟩

omit [DecidableEq τ] in
theorem Live.waits (h : r.Live) (hj : j < r.queued.length) (hwaits : r.executed.length ≤ j) :
    Waits j r.executed.length r.loop := by
  have hbalance := congrArg List.length h.agrees.kept.inOrder.1
  rw [List.length_append, List.length_append, h.agrees.current, h.agrees.waiting] at hbalance
  refine ⟨h.running, h.drains.resting, ?_, hwaits⟩
  rw [queued, ← hbalance] at hj
  exact hj

/-- A step of the loop thread, while the `j`-th task has not been called. -/
def Nears (j : ℕ) (r : TaskRecord τ α) (e : LoopEvent τ α) : Prop := r.executed.length ≤ j ∧ r.loop.OfLoop e

instance (j : ℕ) (r : TaskRecord τ α) (e : LoopEvent τ α) : Decidable (Nears j r e) :=
  inferInstanceAs (Decidable (_ ∧ _))

/-- **Every step of the loop thread brings the task nearer**, and nothing takes it away but a push of the
owner thread, by the wake-up that goes with it. -/
theorem Live.pay (h : r.Live) (hj : j < r.queued.length) {e : LoopEvent τ α} (he : r.Goes e) :
    (if Nears j r e then 1 else 0) + (r.step e).loop.rank j (r.step e).executed.length
      ≤ r.loop.rank j r.executed.length + 1 * (if OwnerPushes e then 1 else 0) := by
  rw [Nat.one_mul]
  rcases Nat.lt_or_ge j r.executed.length with hcalled | hwaits
  · rw [if_neg fun hn : Nears j r e => Nat.not_le.mpr hcalled hn.1, Nat.zero_add]
    refine le_trans (le_of_eq (rank_of_lt ?_)) (Nat.zero_le _)
    by_cases htask : r.loop.OfLoop e ∧ e = .task
    · obtain ⟨he, rfl⟩ := htask
      rw [executed_task h.agrees he]
      exact Nat.lt_succ_of_lt hcalled
    · rwa [executed_other h.agrees fun he hcall => htask ⟨he, hcall⟩]
  · have hw := h.waits hj hwaits
    by_cases hloop : r.loop.OfLoop e
    · rw [if_pos ⟨hwaits, hloop⟩]
      refine le_trans ?_ (Nat.le_add_right _ _)
      by_cases hcall : e = .task
      · subst hcall
        rw [executed_task h.agrees hloop]
        exact hw.rank_task hloop
      · rw [executed_other h.agrees fun _ => hcall]
        exact hw.rank_step hloop hcall
    · rw [if_neg fun hn : Nears j r e => hloop hn.2, Nat.zero_add,
        executed_other h.agrees fun he => absurd he hloop]
      exact rank_step_other hloop he.2

omit [DecidableEq τ] in
/-- **While a task waits, the loop thread can go on**, or a thread is about to wake it. -/
theorem Live.canGoOn (h : r.Live) (hj : j < r.queued.length) (hwaits : r.executed.length ≤ j) :
    r.loop.CanGoOn := by
  have hw := h.waits hj hwaits
  by_cases hpolling : r.loop.phase = .polling
  · have hpending : r.loop.pendingTask ≠ [] := by
      have hqueued := hw.queued
      rw [h.drains.resting (by simp [hpolling]), List.length_nil] at hqueued
      exact List.length_pos_iff.mp (by omega)
    refine canGoOn_of_polling hpolling ((h.kept.noneLost hpolling hpending).imp_right fun ⟨t, ht⟩ => ⟨t, ?_⟩)
    rw [ht]
    simp
  · refine canGoOn_of_ne hpolling fun hdone => ?_
    exact Bool.false_ne_true ((h.drains.returned hdone).symm.trans h.running)

/-- **Every queued task is called, in so many steps.**  In a loop that nobody tells to quit and that is
entered announced, whatever the threads do: as long as a task that has been queued has not been called, the
loop thread can take a step or another thread is about to wake it; and before it is called the loop thread
takes no more steps than one for each task up to it, eight, and one for each task that it queues itself
meanwhile. -/
theorem called_in_time (callingPendingTasks : Bool) (es es' : List (LoopEvent τ α))
    (hes : Meets step Goes (new callingPendingTasks) (es ++ es')) (j : ℕ)
    (hj : j < (run step (new callingPendingTasks) es).queued.length) :
    let r := run step (new callingPendingTasks) es
    let r' := run step r es'
    tally step (Nears j) r es' ≤ (j + 1 - r.executed.length) + 8 + tally step (fun _ => OwnerPushes) r es'
      ∧ (j < r'.executed.length ∨ r'.loop.CanGoOn) := by
  intro r r'
  have hlive : r.Live := inv_run (fun _ _ h he => h.step he) (live_new callingPendingTasks)
    (hes.of_prefix (List.prefix_append es es'))
  have hstep : ∀ (q : TaskRecord τ α) e, q.Live ∧ j < q.queued.length → q.Goes e →
      (q.step e).Live ∧ j < (q.step e).queued.length :=
    fun q e hq he => ⟨hq.1.step he, hq.2.trans_le (queued_le_step e)⟩
  have htally := tally_add_le (fun q : TaskRecord τ α => q.loop.rank j q.executed.length)
    (p := Nears j) (e := fun _ => OwnerPushes) (k := 1) hstep (fun q e hq he => hq.1.pay hq.2 he)
    ⟨hlive, hj⟩ hes.of_append
  have hrank := rank_le j r.executed.length r.loop
  obtain ⟨hlive', hj'⟩ : r'.Live ∧ j < r'.queued.length :=
    @inv_run _ _ step Goes (fun q => q.Live ∧ j < q.queued.length) hstep r ⟨hlive, hj⟩ es' hes.of_append
  refine ⟨?_, (Nat.lt_or_ge j r'.executed.length).imp_right fun hwaits => hlive'.canGoOn hj' hwaits⟩
  rw [Nat.one_mul] at htally
  exact (Nat.le_add_right _ _).trans (htally.trans (Nat.add_le_add_right hrank _))

/-- Two threads queue tasks while the loop blocks, and a task queues one itself. -/
theorem called_in_time_third :
    let es : List (LoopEvent Bool ℕ) :=
      [.push true 1, .wake true, .enter, .test, .push false 2, .pollReturns true, .push true 3]
    let es' : List (LoopEvent Bool ℕ) :=
      [.wakeupRead, .handled, .swap, .task, .ownerPush 4, .ownerWake, .task, .wake false, .task, .batchDone]
    let r := run step (new false) es
    let r' := run step r es'
    tally step (Nears 2) r es' ≤ (2 + 1 - r.executed.length) + 8 + tally step (fun _ => OwnerPushes) r es'
      ∧ (2 < r'.executed.length ∨ r'.loop.CanGoOn) :=
  called_in_time false _ _ (by decide) 2 (by decide)

end TaskRecord

/-! ## The loop returns -/

namespace EventLoop

variable {τ α : Type*} {s : EventLoop τ α}

/-- A thread queues a task. -/
def Queues : LoopEvent τ α → Prop
  | .ownerPush _ | .push _ _ => True
  | _ => False

instance : ∀ e : LoopEvent τ α, Decidable (Queues e)
  | .ownerPush _ | .push _ _ => inferInstanceAs (Decidable True)
  | .enter | .test | .pollReturns _ | .wakeupRead | .handled | .swap | .task | .batchDone | .ownerWake
  | .ownerQuit | .quit _ | .wake _ => inferInstanceAs (Decidable False)

/-- The steps that the loop thread takes until it finds `running` clear. -/
def left (s : EventLoop τ α) : ℕ :=
  (match s.phase with
    | .before => 2
    | .test => 1
    | .polling => 6 + s.pendingTask.length
    | .handlers => 4 + s.pendingTask.length + if s.woken then 1 else 0
    | .swapping => 3 + s.pendingTask.length
    | .tasks => 2 + s.tasks.length
    | .done => 0) + if s.ownerPushed then 1 else 0

theorem left_le (s : EventLoop τ α) : s.left ≤ 7 + s.tasks.length + s.pendingTask.length := by
  rw [left]
  split <;> split <;> (try split) <;> omega

/-- **`quit()` is heard**: a loop that it finds in `epoll_wait` has been woken, or is about to be. -/
def Heard (s : EventLoop τ α) : Prop :=
  s.running = false → s.phase = .polling → 0 < s.wakeupFd ∨ ∃ t, s.callers t ≠ .idle

theorem Heard.canGoOn (h : s.Heard) (hrun : s.running = false) : s.phase = .done ∨ s.CanGoOn := by
  by_cases hdone : s.phase = .done
  · exact .inl hdone
  · right
    by_cases hpolling : s.phase = .polling
    · exact canGoOn_of_polling hpolling (h hrun hpolling)
    · exact canGoOn_of_ne hpolling hdone

variable [DecidableEq τ]

theorem Heard.step (h : s.Heard) (e : LoopEvent τ α) : (s.step e).Heard := by
  intro hrun hphase
  cases e with
  | test =>
    rw [EventLoop.step] at hrun hphase ⊢
    split at hphase
    · rename_i htest
      rw [if_pos htest] at hrun
      have hstopped : s.running = false := hrun
      rw [hstopped] at hphase
      cases hphase
    · rename_i htest
      rw [if_neg htest] at hrun ⊢
      exact h hrun hphase
  | push t a =>
    rw [EventLoop.step] at hrun hphase ⊢
    split
    · exact .inr ⟨t, by simp⟩
    · rename_i hbusy
      exact .inr ⟨t, hbusy⟩
  | quit t =>
    rw [EventLoop.step] at hrun hphase ⊢
    split
    · exact .inr ⟨t, by simp⟩
    · rename_i hbusy
      exact .inr ⟨t, hbusy⟩
  | wake t =>
    rw [EventLoop.step] at hrun hphase ⊢
    split at hphase
    · rename_i hidle
      rw [if_pos hidle] at hrun ⊢
      exact h hrun hphase
    · rename_i hbusy
      rw [if_neg hbusy]
      exact .inl (Nat.succ_pos _)
  | enter | pollReturns _ | handled | swap | batchDone =>
    -- the phase is another one now, or the step is none
    rw [EventLoop.step] at hrun hphase ⊢
    split at hphase
    · cases hphase
    · rename_i hno
      rw [if_neg hno] at hrun ⊢
      exact h hrun hphase
  | wakeupRead =>
    rw [EventLoop.step] at hrun hphase ⊢
    split at hphase
    · rename_i hs
      cases hs.1.symm.trans hphase
    · rename_i hno
      rw [if_neg hno] at hrun ⊢
      exact h hrun hphase
  | task =>
    rw [EventLoop.step] at hrun hphase ⊢
    split at hphase
    · rename_i hs
      cases hs.1.symm.trans hphase
    · rename_i hno
      rw [if_neg hno] at hrun ⊢
      exact h hrun hphase
  | ownerPush a | ownerQuit =>
    rw [EventLoop.step] at hrun hphase ⊢
    split at hphase
    · rename_i hfree
      have hout : s.phase.callsOut = true := (Bool.and_eq_true_iff.mp hfree).1
      rw [show s.phase = .polling from hphase] at hout
      cases hout
    · rename_i hno
      rw [if_neg hno] at hrun ⊢
      exact h hrun hphase
  | ownerWake =>
    rw [EventLoop.step] at hrun hphase ⊢
    split at hphase
    · rename_i howner
      rw [if_pos howner] at hrun ⊢
      refine (h hrun hphase).imp_left fun hfd => ?_
      dsimp only
      split
      · exact Nat.succ_pos _
      · exact hfd
    · rename_i hno
      rw [if_neg hno] at hrun ⊢
      exact h hrun hphase

/-- `running` stays clear. -/
theorem running_step_of_told (h : s.running = false) (e : LoopEvent τ α) : (s.step e).running = false := by
  cases e with
  | ownerQuit | quit t =>
    rw [step]
    split
    · rfl
    · exact h
  | _ => exact (running_step _ (by simp)).trans h

/-- **A step of the loop thread takes it nearer to its return**, and only a task that is queued meanwhile may
be called first. -/
theorem left_step (hrun : s.running = false) (e : LoopEvent τ α) :
    (if s.OfLoop e then 1 else 0) + (s.step e).left ≤ s.left + 2 * (if Queues e then 1 else 0) := by
  by_cases he : s.OfLoop e
  · rw [if_pos he]
    refine le_trans ?_ (Nat.le_add_right _ _)
    cases e with
    | enter =>
      obtain ⟨hphase, howner⟩ := he
      rw [step, if_pos ⟨hphase, howner⟩]
      simp [left, hphase, howner]
    | test =>
      have hphase : s.phase = .test := he
      rw [step, if_pos hphase, hrun]
      simp only [left, hphase, Bool.false_eq_true, if_false]
      omega
    | pollReturns woken =>
      obtain ⟨hphase, hfd⟩ := he
      rw [step, if_pos ⟨hphase, hfd⟩]
      simp only [left, hphase]
      split <;> split <;> omega
    | wakeupRead =>
      obtain ⟨hphase, howner, hwoken⟩ := he
      rw [step, if_pos ⟨hphase, howner, hwoken⟩]
      simp only [left, hphase, howner, hwoken, Bool.false_eq_true, if_false, if_true]
      omega
    | handled =>
      obtain ⟨hphase, howner, hwoken⟩ := he
      rw [step, if_pos ⟨hphase, howner, hwoken⟩]
      simp only [left, hphase, howner, hwoken, Bool.false_eq_true, if_false]
      omega
    | swap =>
      have hphase : s.phase = .swapping := he
      rw [step, if_pos hphase]
      simp only [left, hphase]
      omega
    | task =>
      obtain ⟨hphase, howner, htasks⟩ := he
      have hpos := List.length_pos_iff.mpr htasks
      rw [step, if_pos ⟨hphase, howner⟩]
      simp only [left, hphase, howner, List.length_tail, Bool.false_eq_true, if_false]
      omega
    | batchDone =>
      obtain ⟨hphase, howner, htasks⟩ := he
      rw [step, if_pos ⟨hphase, howner, htasks⟩]
      simp [left, hphase, howner, htasks]
    | ownerWake =>
      have howner : s.ownerPushed = true := he
      rw [step, if_pos howner]
      simp only [left, howner, Bool.false_eq_true, if_false, if_true]
      omega
    | ownerPush a | ownerQuit | push t a | quit t | wake t => exact absurd he id
  · rw [if_neg he, Nat.zero_add]
    cases e with
    | ownerPush a =>
      rw [step]
      split
      · rw [if_pos (show Queues (.ownerPush a : LoopEvent τ α) from trivial)]
        simp only [left, if_true, List.length_append, List.length_singleton]
        split <;> omega
      · exact Nat.le_add_right _ _
    | push t a =>
      rw [step]
      split
      · rw [if_pos (show Queues (.push t a : LoopEvent τ α) from trivial)]
        simp only [left, List.length_append, List.length_singleton]
        split <;> omega
      · exact Nat.le_add_right _ _
    | wake t =>
      rw [step]
      split <;> exact Nat.le_add_right _ _
    | ownerQuit | quit t =>
      rw [step]
      split <;> exact Nat.le_add_right _ _
    | enter | test | pollReturns _ | wakeupRead | handled | swap | batchDone | ownerWake =>
      rw [step, if_neg]
      · exact Nat.le_add_right _ _
      · exact he
    | task =>
      rw [step]
      split
      · rename_i hs
        have hnil : s.tasks = [] := not_not.mp fun hne => he ⟨hs.1, hs.2, hne⟩
        have hsame : { s with tasks := s.tasks.tail } = s := by rw [hnil, List.tail_nil, ← hnil]
        rw [hsame]
        exact Nat.le_add_right _ _
      · exact Nat.le_add_right _ _

/-- What holds of a loop that has been told to quit. -/
structure Told (s : EventLoop τ α) : Prop where
  running : s.running = false
  heard : s.Heard

omit [DecidableEq τ] in
theorem heard_new (callingPendingTasks : Bool) : (new callingPendingTasks : EventLoop τ α).Heard :=
  fun hrun => absurd hrun (by simp [new])

/-- **`quit()` is never lost.**  Once it has cleared `running`, wherever it found the loop and whoever
called it: until `loop()` returns the loop thread can take a step, or the thread that called `quit()` is
about to wake it; and it takes no more steps than one for each task that is queued, seven, and two for each
that is queued meanwhile. -/
theorem returns_in_time (callingPendingTasks : Bool) (es es' : List (LoopEvent τ α))
    (hquit : (run step (new callingPendingTasks) es).running = false) :
    let s := run step (new callingPendingTasks) es
    let s' := run step s es'
    tally step OfLoop s es' + s'.left
        ≤ 7 + s.tasks.length + s.pendingTask.length + 2 * tally step (fun _ => Queues) s es'
      ∧ (s'.phase = .done ∨ s'.CanGoOn) := by
  intro s s'
  have hheard : s.Heard :=
    @inv_run _ _ step (fun _ _ => True) Heard (fun _ e hq _ => hq.step e) _ (heard_new callingPendingTasks) es
      (meets_true _ es)
  have htold : s.Told := ⟨hquit, hheard⟩
  have hstep : ∀ (q : EventLoop τ α) e, q.Told → True → (q.step e).Told := fun q e hq _ =>
    ⟨running_step_of_told hq.running e, hq.heard.step e⟩
  have htally := tally_add_le left (p := OfLoop) (e := fun _ => Queues) (k := 2) hstep
    (fun q e hq _ => left_step hq.running e) htold (meets_true s es')
  have htold' : s'.Told := inv_run hstep htold (meets_true s es')
  exact ⟨htally.trans (Nat.add_le_add_right s.left_le _), htold'.heard.canGoOn htold'.running⟩

/-- Told to quit between its test of `running` and `epoll_wait`, with a task queued. -/
theorem returns_in_time_polling :
    let es : List (LoopEvent Bool ℕ) := [.push true 1, .wake true, .enter, .test, .quit false]
    let es' : List (LoopEvent Bool ℕ) := [.wake false, .pollReturns true, .wakeupRead, .handled, .swap, .task]
    let s := run step (new true) es
    let s' := run step s es'
    tally step OfLoop s es' + s'.left
        ≤ 7 + s.tasks.length + s.pendingTask.length + 2 * tally step (fun _ => Queues) s es'
      ∧ (s'.phase = .done ∨ s'.CanGoOn) :=
  returns_in_time true _ _ (by decide)

end EventLoop
