import Rpx.Core.EventLoop
import Rpx.Machinery.Batches

/-!
# Core/TaskOrder — the order in which queued tasks run

    queueInLoop ──▶ `_pendingTask` ──swap──▶ tasks ──▶ task()

The loop keeps its tasks in a queue of two parts (`Machinery.Batches`): every thread pushes at the back
of `_pendingTask`, and the loop thread alone swaps, once it has called all that it swapped out before.
Every push, swap and call is recorded when the loop makes that step, and the two parts are the loop's own
lists (`Agrees`): the tasks run in the order of their pushes, and in a later batch (`tasks_inOrder`).
-/

open Machinery

/-- A loop, with a record of its tasks. -/
structure TaskRecord (τ α : Type*) where
  loop : EventLoop τ α
  tasks : Batches α

namespace TaskRecord

variable {τ α : Type*}

/-- Before `loop()`. -/
def new (callingPendingTasks : Bool) : TaskRecord τ α := ⟨.new callingPendingTasks, .empty⟩

section Step

variable [DecidableEq τ]

/-- What a step of a loop does to its tasks: a push by whoever, the swap, or the call of the next. -/
def batchOps (s : EventLoop τ α) : LoopEvent τ α → List (BatchOp α)
  | .ownerPush a => if s.free then [.push a] else []
  | .push t a => if s.callers t = .idle then [.push a] else []
  | .swap => if s.phase = .swapping then [.swap] else []
  | .task => if s.phase = .tasks ∧ s.ownerPushed = false then [.pop] else []
  | _ => []

def step (r : TaskRecord τ α) (e : LoopEvent τ α) : TaskRecord τ α where
  loop := r.loop.step e
  tasks := run Batches.step r.tasks (batchOps r.loop e)

end Step

/-- **The record is about the lists of the loop**, which has a batch only while it calls tasks. -/
structure Agrees (r : TaskRecord τ α) : Prop where
  current : r.tasks.current = r.loop.tasks
  waiting : r.tasks.waiting = r.loop.pendingTask
  resting : r.loop.phase ≠ .tasks → r.loop.tasks = []
  kept : r.tasks.Kept

variable {r : TaskRecord τ α}

theorem agrees_new (callingPendingTasks : Bool) : (new callingPendingTasks : TaskRecord τ α).Agrees :=
  ⟨rfl, rfl, fun _ => rfl, Batches.kept_empty⟩

/-- A step that leaves both lists alone, and enters no batch. -/
theorem Agrees.of_lists (h : r.Agrees) {s : EventLoop τ α} (htasks : s.tasks = r.loop.tasks)
    (hpending : s.pendingTask = r.loop.pendingTask) (hphase : s.phase ≠ .tasks → s.tasks = []) :
    (⟨s, r.tasks⟩ : TaskRecord τ α).Agrees :=
  ⟨h.current.trans htasks.symm, h.waiting.trans hpending.symm, hphase, h.kept⟩

variable [DecidableEq τ]

theorem Agrees.ownerPush (h : r.Agrees) (a : α) : (r.step (.ownerPush a)).Agrees := by
  rw [step, EventLoop.step, batchOps]
  split
  · exact ⟨h.current, congrArg (· ++ [a]) h.waiting, h.resting, h.kept.push a⟩
  · exact h

theorem Agrees.push (h : r.Agrees) (t : τ) (a : α) : (r.step (.push t a)).Agrees := by
  rw [step, EventLoop.step, batchOps]
  split
  · exact ⟨h.current, congrArg (· ++ [a]) h.waiting, h.resting, h.kept.push a⟩
  · exact h

/-- The loop swaps with an empty batch in its hands. -/
theorem Agrees.swap (h : r.Agrees) : (r.step .swap).Agrees := by
  rw [step, EventLoop.step, batchOps]
  split
  · rename_i hphase
    have hspent : r.tasks.current = [] := h.current.trans (h.resting (by simp [hphase]))
    exact ⟨h.waiting, rfl, fun hne => absurd rfl hne, h.kept.swap hspent⟩
  · exact h

theorem Agrees.task (h : r.Agrees) : (r.step .task).Agrees := by
  rw [step, EventLoop.step, batchOps]
  split
  · rename_i hs
    have hpop : (r.tasks.step .pop).current = r.tasks.current.tail
        ∧ (r.tasks.step .pop).waiting = r.tasks.waiting := by
      rw [Batches.step]
      split
      · rename_i hnil
        exact ⟨by rw [hnil]; rfl, rfl⟩
      · rename_i hcons
        exact ⟨by rw [hcons]; rfl, rfl⟩
    exact ⟨hpop.1.trans (congrArg List.tail h.current), hpop.2.trans h.waiting,
      fun hne => absurd hs.1 hne, h.kept.pop⟩
  · exact h

theorem Agrees.step (h : r.Agrees) (e : LoopEvent τ α) : (r.step e).Agrees := by
  cases e with
  | ownerPush a => exact h.ownerPush a
  | push t a => exact h.push t a
  | swap => exact h.swap
  | task => exact h.task
  | batchDone =>
    rw [TaskRecord.step, EventLoop.step]
    split
    · rename_i hs
      exact h.of_lists rfl rfl fun _ => hs.2.2
    · exact h
  | _ =>
    rw [TaskRecord.step, EventLoop.step]
    split
    all_goals refine h.of_lists rfl rfl fun hne => h.resting ?_
    all_goals grind

/-! ## Every run -/

/-- The tasks that have been called, in the order of the calls. -/
def executed (r : TaskRecord τ α) : List α := r.tasks.popped.map Prod.fst

/-- The tasks that have been queued, in the order of the pushes. -/
def queued (r : TaskRecord τ α) : List α := r.tasks.pushed.map Prod.fst

/-- **Once, in order, and in a later batch.** -/
structure InOrder (r : TaskRecord τ α) : Prop where
  /-- What has been called, the rest of the batch and `_pendingTask` make up what has been queued. -/
  balance : r.executed ++ r.loop.tasks ++ r.loop.pendingTask = r.queued
  /-- The `k`-th call is that of the `k`-th task queued, in a batch swapped out after its push. -/
  later : ∀ (k : ℕ) (x : α × ℕ), r.tasks.popped[k]? = some x →
    ∃ m < x.2, r.tasks.pushed[k]? = some (x.1, m)

/-- **Queued tasks run once, in order.**  After every run of a loop, its tasks and the threads that
queue tasks for it, the tasks called are the first ones queued, each once and in the order of the pushes;
what is left of them is the batch and `_pendingTask`, and no task runs in the batch that was out when it
was queued. -/
theorem tasks_inOrder (callingPendingTasks : Bool) (es : List (LoopEvent τ α)) :
    (run step (new callingPendingTasks) es).InOrder := by
  have h : (run step (new callingPendingTasks) es).Agrees :=
    inv_run (fun _ e hr _ => hr.step e) (agrees_new callingPendingTasks) (meets_true _ es)
  obtain ⟨hbalance, hlater⟩ := h.kept.inOrder
  rw [h.current, h.waiting] at hbalance
  exact ⟨hbalance, hlater⟩

/-- A task that queues another while it runs: the other runs in the next batch. -/
example : (run step (new false : TaskRecord Unit ℕ)
    [.push () 1, .wake (), .enter, .test, .pollReturns true, .wakeupRead, .handled, .swap, .task,
      .ownerPush 2, .ownerWake, .batchDone, .test, .pollReturns true, .wakeupRead, .handled, .swap,
      .task]).tasks.popped = [(1, 1), (2, 2)] := by decide

end TaskRecord
