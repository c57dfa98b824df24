import Rpx.Core.ThreadPool
import Rpx.Machinery.Progress

/-!
# Core/Joining — the end of a thread pool

    stop ──▶ running = false, everybody woken ──▶ take or return ──▶ look at running ──▶ join

`stop()` joins every worker, so it returns when the last has left.  After it nobody blocks any more, and
each worker has two steps left at most: it comes out of `take()`, with a task if one is left, and then
finds `running` clear.  A caller of `waitTaskClear()` is not woken by it.
-/

open Machinery

namespace ThreadPool

variable {ω α : Type} {p : ThreadPool ω α}

/-- A worker takes a step. -/
def OfWorker (p : ThreadPool ω α) : MonitorEvent α → Prop
  | .look i => i < p.outside.length
  | .take i _ => i < p.entering.length
  | .takeAgain i _ => i < p.notEmpty.woken.length
  | _ => False

instance (p : ThreadPool ω α) : ∀ e, Decidable (p.OfWorker e)
  | .look _ => inferInstanceAs (Decidable (_ < _))
  | .take _ _ => inferInstanceAs (Decidable (_ < _))
  | .takeAgain _ _ => inferInstanceAs (Decidable (_ < _))
  | .addTask _ _ | .addTaskAgain _ _ | .stop | .waitTaskClear | .waitTaskClearAgain _ | .wakeNotEmpty _
  | .wakeNotFull _ | .wakeIsEmpty _ => inferInstanceAs (Decidable False)

/-- The workers that will come out of `take()`. -/
def coming (p : ThreadPool ω α) : ℕ := p.entering.length + p.notEmpty.woken.length

/-- The steps that the workers of a stopped pool have left. -/
def remaining (p : ThreadPool ω α) : ℕ := p.outside.length + 2 * p.coming

/-- **The pool has stopped**, and nobody is left blocked on what it will not notify again. -/
structure Stopped (p : ThreadPool ω α) : Prop where
  stopped : p.running = false
  notEmpty : p.notEmpty.waiting = []
  notFull : p.notFull.waiting = []

/-- What the steps of the workers leave of a task count. -/
def due (p : ThreadPool ω α) : ℕ := p.handed.length + min p.coming p.taskQueue.length

/-! ## One step of a stopped pool -/

/-- A caller of `addTask` returns at once. -/
theorem addTask_of_stopped (h : p.running = false) (func : α) (k : ℕ) : p.addTask func k = p := by
  rw [addTask, h, Bool.and_false, if_neg Bool.false_ne_true]
  exact if_pos rfl

/-- **`take()` does not block**, and hands out a task if there is one. -/
theorem take_of_stopped (h : p.Stopped) (t : ω) (k : ℕ) :
    (p.take t k).Stopped ∧ (p.take t k).outside = p.outside ++ [t] ∧ (p.take t k).entering = p.entering
      ∧ (p.take t k).notEmpty = p.notEmpty ∧ (p.take t k).accepted = p.accepted
      ∧ (p.take t k).handed.length = p.handed.length + min 1 p.taskQueue.length
      ∧ (p.take t k).taskQueue.length = p.taskQueue.length - 1 := by
  have hgo : ¬ (p.taskQueue.isEmpty && p.running) = true := by simp [h.stopped]
  rw [take, if_neg hgo]
  split
  · rename_i hnil
    exact ⟨⟨h.stopped, h.notEmpty, h.notFull⟩, rfl, rfl, rfl, rfl, by simp [hnil], by simp [hnil]⟩
  · rename_i task rest hqueue
    refine ⟨⟨h.stopped, h.notEmpty, ?_⟩, rfl, rfl, rfl, rfl, ?_, ?_⟩
    · show (if 0 < p.maxQueueSize then p.notFull.notifyOne k else p.notFull).waiting = []
      split
      · rw [CondVar.waiting_notifyOne_of_nil h.notFull]
        exact h.notFull
      · exact h.notFull
    · simp [hqueue]
    · simp [hqueue]

/-- **One step of a stopped pool**: a worker's takes it nearer to its end by one, and no other matters. -/
structure Nearer (p p' : ThreadPool ω α) (work : ℕ) : Prop where
  stopped : p'.Stopped
  remaining : work + p'.remaining = p.remaining
  due : p'.due = p.due
  accepted : p'.accepted = p.accepted

theorem Stopped.nearer (h : p.Stopped) : p.Nearer p 0 := ⟨h, Nat.zero_add _, rfl, rfl⟩

/-- A worker that had been woken or was about to enter comes out of `take()`. -/
theorem nearer_take {r : ThreadPool ω α} (hr : r.Stopped) (houtside : r.outside = p.outside)
    (hcoming : r.coming + 1 = p.coming) (hqueue : r.taskQueue = p.taskQueue) (hhanded : r.handed = p.handed)
    (haccepted : r.accepted = p.accepted) (t : ω) (k : ℕ) : p.Nearer (r.take t k) 1 := by
  obtain ⟨hstopped, hout, hentering, hnotEmpty, hacc, hhand, hleft⟩ := take_of_stopped hr t k
  have hcoming' : (r.take t k).coming = r.coming := by rw [coming, hentering, hnotEmpty, coming]
  refine ⟨hstopped, ?_, ?_, hacc.trans haccepted⟩
  · rw [remaining, remaining, hcoming', hout, houtside, List.length_append, List.length_singleton]
    omega
  · rw [due, due, hcoming', hhand, hleft, hqueue, hhanded]
    omega

theorem Stopped.step (h : p.Stopped) (e : MonitorEvent α) :
    p.Nearer (p.step e) (if p.OfWorker e then 1 else 0) := by
  cases e with
  | addTask func k =>
    rw [ThreadPool.step, addTask_of_stopped h.stopped]
    exact h.nearer
  | addTaskAgain i k =>
    rw [ThreadPool.step]
    split
    · exact h.nearer
    · rename_i func notFull hresume
      obtain ⟨hwaiting, -⟩ := CondVar.perm_resume hresume
      rw [addTask_of_stopped (p := { p with notFull := notFull }) h.stopped]
      exact ⟨⟨h.stopped, h.notEmpty, hwaiting.trans h.notFull⟩, Nat.zero_add _, rfl, rfl⟩
  | look i =>
    rw [ThreadPool.step]
    split
    · rename_i hnone
      have hno : ¬ p.OfWorker (.look i) := Nat.not_lt.mpr (List.getElem?_eq_none_iff.mp hnone)
      rw [if_neg hno]
      exact h.nearer
    · rename_i t ht
      obtain ⟨hlt, -⟩ := List.getElem?_eq_some_iff.mp ht
      have hyes : p.OfWorker (.look i) := hlt
      dsimp only
      rw [if_neg (by simp [h.stopped]), if_pos hyes]
      refine ⟨⟨h.stopped, h.notEmpty, h.notFull⟩, ?_, rfl, rfl⟩
      have hlength := List.length_eraseIdx_add_one hlt
      show 1 + ((p.outside.eraseIdx i).length + 2 * p.coming) = p.outside.length + 2 * p.coming
      omega
  | take i k =>
    rw [ThreadPool.step]
    split
    · rename_i hnone
      have hno : ¬ p.OfWorker (.take i k) := Nat.not_lt.mpr (List.getElem?_eq_none_iff.mp hnone)
      rw [if_neg hno]
      exact h.nearer
    · rename_i t ht
      obtain ⟨hlt, -⟩ := List.getElem?_eq_some_iff.mp ht
      have hyes : p.OfWorker (.take i k) := hlt
      rw [if_pos hyes]
      refine nearer_take (p := p) (r := { p with entering := p.entering.eraseIdx i })
        ⟨h.stopped, h.notEmpty, h.notFull⟩ rfl ?_ rfl rfl rfl t k
      have hlength := List.length_eraseIdx_add_one hlt
      show (p.entering.eraseIdx i).length + p.notEmpty.woken.length + 1
        = p.entering.length + p.notEmpty.woken.length
      omega
  | takeAgain i k =>
    rw [ThreadPool.step]
    split
    · rename_i hnone
      rw [CondVar.resume, Option.map_eq_none_iff] at hnone
      have hno : ¬ p.OfWorker (.takeAgain i k) := Nat.not_lt.mpr (List.getElem?_eq_none_iff.mp hnone)
      rw [if_neg hno]
      exact h.nearer
    · rename_i t notEmpty hresume
      obtain ⟨hwaiting, hwoken⟩ := CondVar.perm_resume hresume
      have hyes : p.OfWorker (.takeAgain i k) := by
        obtain ⟨t', ht, -⟩ := Option.map_eq_some_iff.mp hresume
        exact (List.getElem?_eq_some_iff.mp ht).1
      rw [if_pos hyes]
      refine nearer_take (p := p) (r := { p with notEmpty := notEmpty })
        ⟨h.stopped, hwaiting.trans h.notEmpty, h.notFull⟩ rfl ?_ rfl rfl rfl t k
      have hlength := hwoken.length_eq
      rw [List.length_cons] at hlength
      show p.entering.length + notEmpty.woken.length + 1 = p.entering.length + p.notEmpty.woken.length
      omega
  | stop =>
    rw [ThreadPool.step, ThreadPool.stop, if_neg (by simp [h.stopped])]
    exact h.nearer
  | waitTaskClear =>
    rw [ThreadPool.step, ThreadPool.waitTaskClear]
    split
    · exact ⟨⟨h.stopped, h.notEmpty, h.notFull⟩, Nat.zero_add _, rfl, rfl⟩
    · exact h.nearer
  | waitTaskClearAgain i =>
    rw [ThreadPool.step]
    split
    · exact h.nearer
    · exact ⟨⟨h.stopped, h.notEmpty, h.notFull⟩, Nat.zero_add _, rfl, rfl⟩
  | wakeNotEmpty k =>
    rw [ThreadPool.step, CondVar.waiting_notifyOne_of_nil h.notEmpty]
    exact h.nearer
  | wakeNotFull k =>
    rw [ThreadPool.step, CondVar.waiting_notifyOne_of_nil h.notFull]
    exact h.nearer
  | wakeIsEmpty k => exact ⟨⟨h.stopped, h.notEmpty, h.notFull⟩, Nat.zero_add _, rfl, rfl⟩

/-! ## Until it stops -/

/-- **While the pool runs every worker is in one of the four places**, and from then on no more than
that many are left. -/
structure Staffed (n : ℕ) (p : ThreadPool ω α) : Prop where
  sound : ∃ workers, workers.length = n ∧ Sound workers p
  joined : p.running = false → p.Stopped ∧ p.remaining ≤ 2 * n

theorem staffed_new {n : ℕ} {workers : List ω} (hworkers : workers.length = n) (maxQueueSize : Int32) :
    Staffed n (new workers maxQueueSize : ThreadPool ω α) :=
  ⟨⟨workers, hworkers, sound_new workers maxQueueSize⟩, fun h => absurd h (by simp [new])⟩

/-- `running` is only cleared by `stop()`. -/
theorem running_addTask (p : ThreadPool ω α) (func : α) (k : ℕ) : (p.addTask func k).running = p.running := by
  rw [addTask]
  split
  · rfl
  · split <;> rfl

theorem running_take (p : ThreadPool ω α) (t : ω) (k : ℕ) : (p.take t k).running = p.running := by
  rw [take]
  split
  · rfl
  · split <;> rfl

theorem running_step {e : MonitorEvent α} (he : e ≠ .stop) : (p.step e).running = p.running := by
  cases e with
  | addTask func k => exact p.running_addTask func k
  | addTaskAgain i k =>
    rw [step]
    split
    · rfl
    · exact running_addTask _ _ k
  | look i =>
    rw [step]
    split
    · rfl
    · dsimp only
      split <;> rfl
  | take i k =>
    rw [step]
    split
    · rfl
    · exact running_take _ _ k
  | takeAgain i k =>
    rw [step]
    split
    · rfl
    · exact running_take _ _ k
  | stop => exact absurd rfl he
  | waitTaskClear =>
    rw [step, waitTaskClear]
    split <;> rfl
  | waitTaskClearAgain i =>
    rw [step]
    split <;> rfl
  | wakeNotEmpty k | wakeNotFull k | wakeIsEmpty k => rfl

variable {n : ℕ}

/-- **`stop()` wakes everybody.** -/
theorem Staffed.stop (h : Staffed n p) : p.stop.Stopped ∧ p.stop.remaining ≤ 2 * n := by
  rw [ThreadPool.stop]
  split
  · rename_i hrun
    obtain ⟨workers, rfl, hsound⟩ := h.sound
    refine ⟨⟨rfl, rfl, rfl⟩, ?_⟩
    have hlength := (hsound.placed hrun).length_eq
    simp only [List.length_append] at hlength
    simp only [remaining, coming, CondVar.notifyAll, List.length_append]
    omega
  · rename_i hstopped
    exact h.joined (Bool.not_eq_true _ ▸ hstopped)

theorem Staffed.step (h : Staffed n p) (e : MonitorEvent α) : Staffed n (p.step e) := by
  obtain ⟨workers, hlength, hsound⟩ := h.sound
  refine ⟨⟨workers, hlength, hsound.step e⟩, fun hstopped => ?_⟩
  by_cases he : e = .stop
  · subst he
    exact h.stop
  · rw [running_step he] at hstopped
    obtain ⟨hp, hle⟩ := h.joined hstopped
    have hnearer := hp.step e
    refine ⟨hnearer.stopped, le_trans ?_ hle⟩
    rw [← hnearer.remaining]
    exact Nat.le_add_left _ _

/-- A worker that has not left can go on. -/
theorem exists_ofWorker (h : p.remaining ≠ 0) : ∃ e, p.OfWorker e := by
  rcases Nat.eq_zero_or_pos p.outside.length with hout | hout
  · rcases Nat.eq_zero_or_pos p.entering.length with hent | hent
    · refine ⟨.takeAgain 0 0, ?_⟩
      rw [remaining, coming] at h
      show 0 < p.notEmpty.woken.length
      omega
    · exact ⟨.take 0 0, hent⟩
  · exact ⟨.look 0, hout⟩

/-- **`stop()` gets to its end.**  From when it has let go of the lock, whatever the threads do: nobody is
blocked in `take()` or `addTask()`; the workers have no more than two steps each, of which every step of a
worker is one, and while one of them is left, it can take it (the tasks that they run return); no task is
accepted; and when the last worker has left, each that was still to come out of `take()` has been handed a
task, as far as there were any. -/
theorem stopped_run (numThreads : ℕ) (maxQueueSize : Int32) (es es' : List (MonitorEvent α)) :
    let p : ThreadPool (Fin numThreads) α :=
      (run step (new (List.finRange numThreads) maxQueueSize) es).stop
    let q := run step p es'
    q.notEmpty.waiting = [] ∧ q.notFull.waiting = []
      ∧ tally step OfWorker p es' + q.remaining = p.remaining ∧ p.remaining ≤ 2 * numThreads
      ∧ (q.remaining ≠ 0 → ∃ e, q.OfWorker e)
      ∧ q.accepted = p.accepted
      ∧ (q.remaining = 0 → q.handed.length = p.handed.length + min p.coming p.taskQueue.length) := by
  intro p q
  have hstaffed : Staffed numThreads (run step (new (List.finRange numThreads) maxQueueSize) es) :=
    inv_run (fun r e hr _ => hr.step e) (staffed_new List.length_finRange maxQueueSize) (meets_true _ es)
  obtain ⟨hp, hle⟩ : p.Stopped ∧ p.remaining ≤ 2 * numThreads := hstaffed.stop
  have hq : q.Stopped ∧ q.due = p.due ∧ q.accepted = p.accepted :=
    @inv_run _ _ step (fun _ _ => True)
      (fun r => r.Stopped ∧ r.due = p.due ∧ r.accepted = p.accepted)
      (fun r e hr _ => ⟨(hr.1.step e).stopped, (hr.1.step e).due.trans hr.2.1,
        (hr.1.step e).accepted.trans hr.2.2⟩) p ⟨hp, rfl, rfl⟩ es' (meets_true _ es')
  have htally : tally step OfWorker p es' + q.remaining = p.remaining :=
    tally_add_eq remaining (fun r e hr _ => (Stopped.step hr e).stopped)
      (fun r e hr _ => (Stopped.step hr e).remaining)
      hp (meets_true _ es')
  obtain ⟨hstopped, hdue, haccepted⟩ := hq
  refine ⟨hstopped.notEmpty, hstopped.notFull, htally, hle, exists_ofWorker, haccepted, fun hzero => ?_⟩
  have hcoming : q.coming = 0 := by
    rw [remaining] at hzero
    omega
  rw [due, due, hcoming, Nat.zero_min] at hdue
  exact hdue

/-! ## Waiting until the queue is empty -/

/-- A caller blocked in `waitTaskClear()` waits for a queue that is not empty. -/
def AwaitsTask (p : ThreadPool ω α) : Prop := p.isEmpty.waiting ≠ [] → p.taskQueue ≠ []

/-- **The queue is empty, and all callers have been woken.** -/
def Cleared (p : ThreadPool ω α) : Prop := p.isEmpty.waiting = [] ∧ p.taskQueue = []

/-- A step clears the queue, or wakes nobody and lets nobody wait for nothing. -/
def ClearStep (p p' : ThreadPool ω α) : Prop :=
  p'.Cleared ∨ p'.isEmpty.woken.length ≤ p.isEmpty.woken.length ∧ (p.AwaitsTask → p'.AwaitsTask)

theorem Cleared.awaitsTask (h : p.Cleared) : p.AwaitsTask := fun hne => absurd h.1 hne

/-- A step that leaves the callers alone and the queue no shorter. -/
theorem clearStep_of_grows {p' : ThreadPool ω α} (hcond : p'.isEmpty = p.isEmpty)
    (hqueue : p.taskQueue ≠ [] → p'.taskQueue ≠ []) : ClearStep p p' :=
  .inr ⟨hcond ▸ le_rfl, fun h hne => hqueue (h (hcond ▸ hne))⟩

theorem clearStep_addTask (p : ThreadPool ω α) (func : α) (k : ℕ) : ClearStep p (p.addTask func k) := by
  rw [addTask]
  split
  · exact clearStep_of_grows rfl id
  · split
    · exact clearStep_of_grows rfl id
    · exact clearStep_of_grows rfl fun _ => by simp

/-- **The last task that is handed out wakes every caller.** -/
theorem clearStep_take (p : ThreadPool ω α) (t : ω) (k : ℕ) : ClearStep p (p.take t k) := by
  rw [take]
  split
  · exact clearStep_of_grows rfl id
  · split
    · rename_i hnil
      exact clearStep_of_grows rfl fun hne => absurd hnil hne
    · rename_i task rest hqueue
      cases rest with
      | nil => exact .inl ⟨rfl, rfl⟩
      | cons task' rest => exact clearStep_of_grows rfl fun _ => List.cons_ne_nil task' rest

theorem clearStep_step {e : MonitorEvent α} (he : ∀ k, e ≠ .wakeIsEmpty k) : ClearStep p (p.step e) := by
  cases e with
  | addTask func k => exact p.clearStep_addTask func k
  | addTaskAgain i k =>
    rw [step]
    split
    · exact clearStep_of_grows rfl id
    · exact clearStep_addTask _ _ k
  | look i =>
    rw [step]
    split
    · exact clearStep_of_grows rfl id
    · dsimp only
      split <;> exact clearStep_of_grows rfl id
  | take i k =>
    rw [step]
    split
    · exact clearStep_of_grows rfl id
    · exact clearStep_take _ _ k
  | takeAgain i k =>
    rw [step]
    split
    · exact clearStep_of_grows rfl id
    · exact clearStep_take _ _ k
  | stop =>
    rw [step, stop]
    split <;> exact clearStep_of_grows rfl id
  | waitTaskClear =>
    rw [step, waitTaskClear]
    split
    · rename_i hqueue
      exact .inr ⟨le_rfl, fun _ _ hnil => by simp [show p.taskQueue = [] from hnil] at hqueue⟩
    · exact clearStep_of_grows rfl id
  | waitTaskClearAgain i =>
    rw [step]
    split
    · exact clearStep_of_grows rfl id
    · rename_i isEmpty hresume
      obtain ⟨hwaiting, hwoken⟩ := CondVar.perm_resume hresume
      refine .inr ⟨?_, fun h hne => h (hwaiting ▸ hne)⟩
      rw [← hwoken.length_eq]
      exact Nat.le_succ _
  | wakeNotEmpty k | wakeNotFull k => exact clearStep_of_grows rfl id
  | wakeIsEmpty k => exact absurd rfl (he k)

theorem AwaitsTask.step (h : p.AwaitsTask) (e : MonitorEvent α) : (p.step e).AwaitsTask := by
  by_cases he : ∀ k, e ≠ .wakeIsEmpty k
  · rcases clearStep_step (p := p) he with hcleared | ⟨-, hkeeps⟩
    · exact hcleared.awaitsTask
    · exact hkeeps h
  · obtain ⟨k, rfl⟩ : ∃ k, e = .wakeIsEmpty k := by simpa using he
    intro hne
    refine h fun hnil => hne ?_
    show (p.isEmpty.notifyOne k).waiting = []
    rw [CondVar.waiting_notifyOne_of_nil hnil]
    exact hnil

/-- **`waitTaskClear()` waits as long as it has to.**  A caller is blocked in it only while a task is in
the queue, and while the pool runs a worker is then awake; and the step that wakes it, if it does not wake
for no reason, has woken every other caller too and handed out the last of the tasks accepted so far. -/
theorem waitTaskClear_run (numThreads : ℕ) (maxQueueSize : Int32) (es : List (MonitorEvent α)) :
    let p : ThreadPool (Fin numThreads) α :=
      run step (new (List.finRange numThreads) maxQueueSize) es
    (p.isEmpty.waiting ≠ [] → p.taskQueue ≠ []
        ∧ (p.running = true → 0 < numThreads → ∃ t, t ∉ p.notEmpty.waiting))
      ∧ ∀ e, (∀ k, e ≠ .wakeIsEmpty k) → p.isEmpty.woken.length < (p.step e).isEmpty.woken.length →
        (p.step e).isEmpty.waiting = [] ∧ (p.step e).handed = (p.step e).accepted := by
  intro p
  obtain ⟨hsound, hawaits⟩ : Sound (List.finRange numThreads) p ∧ p.AwaitsTask :=
    @inv_run _ _ step (fun _ _ => True) (fun r => Sound (List.finRange numThreads) r ∧ r.AwaitsTask)
      (fun r e hr _ => ⟨hr.1.step e, hr.2.step e⟩) _
      ⟨sound_new _ maxQueueSize, fun hne => absurd rfl hne⟩ es (meets_true _ es)
  refine ⟨fun hne => ⟨hawaits hne, fun hrun hn => hsound.exists_awake hrun (hawaits hne) hn⟩,
    fun e he hwakes => ?_⟩
  rcases clearStep_step (p := p) he with ⟨hnone, hqueue⟩ | ⟨hle, -⟩
  · have hordered := (hsound.step e).ordered
    rw [hqueue, List.append_nil] at hordered
    exact ⟨hnone, hordered⟩
  · exact absurd hwakes (Nat.not_lt.mpr hle)

/-- `stop()` does not wake it.  The one worker leaves with a task in the queue, and nothing will come for
that: the caller stays where it is. -/
example :
    let p : ThreadPool (Fin 1) ℕ := run step (new (List.finRange 1) 0)
      [.addTask 7 0, .addTask 8 0, .waitTaskClear, .look 0, .take 0 0, .stop, .look 0]
    p.remaining = 0 ∧ p.isEmpty.waiting = [()] ∧ p.isEmpty.woken = [] ∧ p.taskQueue = [8] := by decide

end ThreadPool
