import Rpx.Machinery.CondVar
import Rpx.Machinery.Run

/-!
# Core/ThreadPool — workers, callers and one queue

    addTask ──▶ [ notFull ] ──▶ taskQueue ──▶ [ notEmpty ] ──▶ take ──▶ worker

Every critical section of `qMutex` is one step, and so is a worker's look at `running` before it; the
steps of any number of workers and callers come in any order.  A caller blocked in `addTask` is known
by its task.  Which thread a `notify_one` wakes is an argument, and any blocked thread may wake for no
reason.

`monitor_run` — the queue keeps its bound, tasks are handed on in the order they were accepted in, and
neither a task nor a free place is ever left to threads that are all blocked.
-/

open Machinery

/-- A pool of workers `ω` that runs tasks `α`. -/
structure ThreadPool (ω α : Type) where
  running : Bool
  maxQueueSize : Int32
  taskQueue : List α
  /-- The workers blocked in `take()`. -/
  notEmpty : CondVar ω
  /-- The callers blocked in `addTask`, by their tasks. -/
  notFull : CondVar α
  /-- The callers blocked in `waitTaskClear`. -/
  isEmpty : CondVar Unit
  /-- The workers that run a task, or are about to look at `running`. -/
  outside : List ω
  /-- The workers that found `running` set, and are about to take the lock in `take()`. -/
  entering : List ω
  /-- The tasks accepted by `addTask`, and those handed to workers by `take()`, in order. -/
  accepted : List α
  handed : List α

/-- A step of a thread.  `k` tells which thread a `notify_one` wakes, `i` which of several threads takes
the step. -/
inductive MonitorEvent (α : Type)
  /-- A caller takes the lock in `addTask(func)`, for the first time or woken. -/
  | addTask (func : α) (k : ℕ)
  | addTaskAgain (i k : ℕ)
  /-- A worker looks at `running`. -/
  | look (i : ℕ)
  /-- A worker takes the lock in `take()`, for the first time or woken. -/
  | take (i k : ℕ)
  | takeAgain (i k : ℕ)
  | stop
  /-- A caller takes the lock in `waitTaskClear()`, for the first time or woken. -/
  | waitTaskClear
  | waitTaskClearAgain (i : ℕ)
  /-- A thread wakes for no reason. -/
  | wakeNotEmpty (k : ℕ)
  | wakeNotFull (k : ℕ)
  | wakeIsEmpty (k : ℕ)

namespace ThreadPool

variable {ω α : Type}

/-- `ThreadPool(numThreads, maxQueueSize)`, whose threads are `workers`. -/
def new (workers : List ω) (maxQueueSize : Int32) : ThreadPool ω α where
  running := true
  maxQueueSize := maxQueueSize
  taskQueue := []
  notEmpty := .empty
  notFull := .empty
  isEmpty := .empty
  outside := workers
  entering := []
  accepted := []
  handed := []

variable (p : ThreadPool ω α)

def isFullLocked : Bool :=
  decide (0 < p.maxQueueSize) && decide (p.maxQueueSize ≤ Int32.ofNat p.taskQueue.length)

/-- `addTask(func)`, once it has the lock. -/
def addTask (func : α) (k : ℕ) : ThreadPool ω α :=
  if p.isFullLocked && p.running then { p with notFull := p.notFull.wait func }
  else if !p.running then p
  else { p with
    taskQueue := p.taskQueue ++ [func]
    notEmpty := p.notEmpty.notifyOne k
    accepted := p.accepted ++ [func] }

/-- `take()` by the worker `t`, once it has the lock. -/
def take (t : ω) (k : ℕ) : ThreadPool ω α :=
  if p.taskQueue.isEmpty && p.running then { p with notEmpty := p.notEmpty.wait t }
  else match p.taskQueue with
    -- the pool has stopped, and the task returned is null
    | [] => { p with outside := p.outside ++ [t] }
    | task :: rest => { p with
      taskQueue := rest
      notFull := if 0 < p.maxQueueSize then p.notFull.notifyOne k else p.notFull
      isEmpty := if rest.isEmpty then p.isEmpty.notifyAll else p.isEmpty
      outside := p.outside ++ [t]
      handed := p.handed ++ [task] }

def stop : ThreadPool ω α :=
  if p.running then { p with
    running := false
    notEmpty := p.notEmpty.notifyAll
    notFull := p.notFull.notifyAll }
  else p

def waitTaskClear : ThreadPool ω α :=
  if !p.taskQueue.isEmpty then { p with isEmpty := p.isEmpty.wait () } else p

def step : MonitorEvent α → ThreadPool ω α
  | .addTask func k => p.addTask func k
  | .addTaskAgain i k =>
    match p.notFull.resume i with
    | none => p
    | some (func, notFull) => { p with notFull := notFull }.addTask func k
  | .look i =>
    match p.outside[i]? with
    | none => p
    | some t =>
      let p := { p with outside := p.outside.eraseIdx i }
      if p.running then { p with entering := p.entering ++ [t] } else p
  | .take i k =>
    match p.entering[i]? with
    | none => p
    | some t => { p with entering := p.entering.eraseIdx i }.take t k
  | .takeAgain i k =>
    match p.notEmpty.resume i with
    | none => p
    | some (t, notEmpty) => { p with notEmpty := notEmpty }.take t k
  | .stop => p.stop
  | .waitTaskClear => p.waitTaskClear
  | .waitTaskClearAgain i =>
    match p.isEmpty.resume i with
    | none => p
    | some (_, isEmpty) => { p with isEmpty := isEmpty }
  | .wakeNotEmpty k => { p with notEmpty := p.notEmpty.notifyOne k }
  | .wakeNotFull k => { p with notFull := p.notFull.notifyOne k }
  | .wakeIsEmpty k => { p with isEmpty := p.isEmpty.notifyOne k }

/-! ## The bound -/

/-- How many more tasks the queue takes. -/
def free : ℕ := p.maxQueueSize.toInt.toNat - p.taskQueue.length

variable {p}

/-- **The size is compared as an `int`**, which it fits in while the queue keeps its bound. -/
theorem isFullLocked_iff (h : 0 < p.maxQueueSize → p.taskQueue.length ≤ p.maxQueueSize.toInt) :
    p.isFullLocked = true ↔ 0 < p.maxQueueSize ∧ p.free = 0 := by
  rw [isFullLocked, Bool.and_eq_true, decide_eq_true_iff, decide_eq_true_iff]
  refine and_congr_right fun hmax => ?_
  have hle := h hmax
  have hsize : (Int32.ofNat p.taskQueue.length).toInt = p.taskQueue.length :=
    Int32.toInt_ofNat_of_lt (by have := p.maxQueueSize.toInt_lt; omega)
  rw [Int32.le_iff_toInt_le, hsize, free]
  omega

/-! ## The invariant -/

/-- **What holds between two critical sections**, of a pool of those workers. -/
structure Sound (workers : List ω) (p : ThreadPool ω α) : Prop where
  bounded : 0 < p.maxQueueSize → p.taskQueue.length ≤ p.maxQueueSize.toInt
  ordered : p.handed ++ p.taskQueue = p.accepted
  /-- While the pool runs, no worker has left. -/
  placed : p.running = true →
    (p.outside ++ p.entering ++ (p.notEmpty.waiting ++ p.notEmpty.woken)).Perm workers
  /-- Each task has a worker to come for it, as long as one is blocked. -/
  served : p.running = true →
    p.notEmpty.Covered p.taskQueue.length (p.outside.length + p.entering.length)
  /-- Each free place has a caller to come for it, as long as one is blocked. -/
  fed : p.running = true → p.notFull.Covered p.free 0
  unbounded : ¬ 0 < p.maxQueueSize → p.notFull.waiting = []

theorem sound_new (workers : List ω) (maxQueueSize : Int32) :
    Sound workers (new workers maxQueueSize : ThreadPool ω α) := by
  refine ⟨fun hmax => ?_, rfl, fun _ => ?_, fun _ => CondVar.covered_of_nil rfl,
    fun _ => CondVar.covered_of_nil rfl,
    fun _ => rfl⟩
  · exact (Int32.lt_iff_toInt_lt.mp hmax).le
  · simp [new, CondVar.empty]

/-! ## One critical section -/

variable {workers : List ω}

/-- **A caller in `addTask`**, who comes for a free place itself. -/
theorem Sound.addTask (h : Sound workers p) {notFull : CondVar α}
    (hfed : p.running = true → notFull.Covered p.free 1)
    (hunbounded : ¬ 0 < p.maxQueueSize → notFull.waiting = []) (func : α) (k : ℕ) :
    Sound workers ({ p with notFull := notFull }.addTask func k) := by
  have hfull := p.isFullLocked_iff h.bounded
  rw [ThreadPool.addTask]
  split
  · rename_i hwait
    obtain ⟨hmax, hfree⟩ := hfull.mp (Bool.and_eq_true_iff.mp hwait).1
    refine ⟨h.bounded, h.ordered, h.placed, h.served, fun _ => ?_, fun hno => absurd hmax hno⟩
    show (notFull.wait func).Covered p.free 0
    rw [hfree]
    exact notFull.covered_wait func 0
  · rename_i hgo
    split
    · rename_i hstopped
      have hstopped : p.running = false := by simpa using hstopped
      refine ⟨h.bounded, h.ordered, h.placed, h.served, fun hrun => ?_, hunbounded⟩
      exact absurd hrun (by simp [hstopped])
    · rename_i hrunning
      have hrunning : p.running = true := by simpa using hrunning
      have hroom : 0 < p.maxQueueSize → p.free ≠ 0 := fun hmax hfree =>
        hgo (Bool.and_eq_true_iff.mpr ⟨hfull.mpr ⟨hmax, hfree⟩, hrunning⟩)
      refine ⟨fun hmax => ?_, ?_, fun hrun => ?_, fun hrun => ?_, fun hrun => ?_, hunbounded⟩
      · have hne := hroom hmax
        rw [free] at hne
        show ((p.taskQueue ++ [func]).length : ℤ) ≤ p.maxQueueSize.toInt
        rw [List.length_append, List.length_singleton]
        omega
      · show p.handed ++ (p.taskQueue ++ [func]) = p.accepted ++ [func]
        rw [← List.append_assoc, h.ordered]
      · exact ((p.notEmpty.perm_notifyOne k).append_left _).trans (h.placed hrun)
      · have hserved := (h.served hrun).notifyOne k
        simpa using hserved
      · refine (hfed hrun).take.mono ?_ le_rfl
        show p.maxQueueSize.toInt.toNat - (p.taskQueue ++ [func]).length ≤ p.free - 1
        rw [List.length_append, List.length_singleton, free]
        omega

/-- **The worker `t` has the lock**; it is in none of the other places. -/
structure Taking (workers : List ω) (t : ω) (p : ThreadPool ω α) : Prop where
  bounded : 0 < p.maxQueueSize → p.taskQueue.length ≤ p.maxQueueSize.toInt
  ordered : p.handed ++ p.taskQueue = p.accepted
  placed : p.running = true →
    (t :: (p.outside ++ p.entering ++ (p.notEmpty.waiting ++ p.notEmpty.woken))).Perm workers
  served : p.running = true →
    p.notEmpty.Covered p.taskQueue.length (p.outside.length + p.entering.length + 1)
  fed : p.running = true → p.notFull.Covered p.free 0
  unbounded : ¬ 0 < p.maxQueueSize → p.notFull.waiting = []

/-- **A worker in `take()`** blocks when there is no task, and is outside again when it got one. -/
theorem Taking.take {t : ω} (h : Taking workers t p) (k : ℕ) : Sound workers (p.take t k) := by
  rw [ThreadPool.take]
  split
  · rename_i hwait
    obtain ⟨hempty, -⟩ := Bool.and_eq_true_iff.mp hwait
    refine ⟨h.bounded, h.ordered, fun hrun => ?_, fun _ => ?_, h.fed, h.unbounded⟩
    · refine List.Perm.trans ?_ (h.placed hrun)
      show (p.outside ++ p.entering ++ (p.notEmpty.waiting ++ [t] ++ p.notEmpty.woken)).Perm _
      rw [List.append_assoc p.notEmpty.waiting, ← List.append_assoc, List.singleton_append,
        ← List.append_assoc (p.outside ++ p.entering)]
      exact List.perm_middle
    · rw [List.isEmpty_iff.mp hempty]
      exact p.notEmpty.covered_wait t _
  · rename_i hgo
    split
    · rename_i hnil
      have hstopped : p.running ≠ true := fun hrun => hgo (by simp [hnil, hrun])
      exact ⟨h.bounded, h.ordered, fun hrun => absurd hrun hstopped, fun hrun => absurd hrun hstopped,
        h.fed, h.unbounded⟩
    · rename_i task rest hqueue
      refine ⟨fun hmax => ?_, ?_, fun hrun => ?_, fun hrun => ?_, fun hrun => ?_, fun hno => ?_⟩
      · have hle := h.bounded hmax
        rw [hqueue, List.length_cons] at hle
        show (rest.length : ℤ) ≤ p.maxQueueSize.toInt
        omega
      · have hordered := h.ordered
        rw [hqueue] at hordered
        show p.handed ++ [task] ++ rest = p.accepted
        rw [List.append_assoc, List.singleton_append, hordered]
      · refine List.Perm.trans ?_ (h.placed hrun)
        show (p.outside ++ [t] ++ p.entering ++ (p.notEmpty.waiting ++ p.notEmpty.woken)).Perm _
        rw [List.append_assoc, List.append_assoc, List.append_assoc p.outside, List.singleton_append]
        exact List.perm_middle
      · refine (h.served hrun).mono ?_ ?_
        · rw [hqueue, List.length_cons]
          exact Nat.le_succ _
        · show p.outside.length + p.entering.length + 1 ≤ (p.outside ++ [t]).length + p.entering.length
          rw [List.length_append, List.length_singleton]
          omega
      · dsimp only
        split
        · refine ((h.fed hrun).notifyOne k).mono ?_ le_rfl
          rw [free, free, hqueue, List.length_cons]
          dsimp only
          omega
        · rename_i hno
          exact CondVar.covered_of_nil (h.unbounded hno)
      · show (if 0 < p.maxQueueSize then _ else p.notFull).waiting = []
        rw [if_neg hno]
        exact h.unbounded hno

theorem Sound.stop (h : Sound workers p) : Sound workers p.stop := by
  rw [ThreadPool.stop]
  split
  · refine ⟨h.bounded, h.ordered, fun hrun => ?_, fun hrun => ?_, fun hrun => ?_, fun _ => rfl⟩
    · cases hrun
    · cases hrun
    · cases hrun
  · exact h

theorem Sound.waitTaskClear (h : Sound workers p) : Sound workers p.waitTaskClear := by
  rw [ThreadPool.waitTaskClear]
  split
  · exact ⟨h.bounded, h.ordered, h.placed, h.served, h.fed, h.unbounded⟩
  · exact h

/-- A worker that finds `running` set goes on to `take()`. -/
theorem Sound.look (h : Sound workers p) (i : ℕ) : Sound workers (p.step (.look i)) := by
  rw [step]
  split
  · exact h
  · rename_i t ht
    obtain ⟨hlt, rfl⟩ := List.getElem?_eq_some_iff.mp ht
    have herase := List.getElem_cons_eraseIdx_perm hlt
    have hlength := herase.length_eq
    dsimp only
    split
    · refine ⟨h.bounded, h.ordered, fun hrun => ?_, fun hrun => ?_, h.fed, h.unbounded⟩
      · refine List.Perm.trans ?_ (h.placed hrun)
        show (p.outside.eraseIdx i ++ (p.entering ++ [p.outside[i]]) ++ _).Perm _
        refine List.Perm.append_right _ ?_
        rw [← List.append_assoc]
        exact (List.perm_append_singleton _ _).trans (herase.append_right p.entering)
      · refine (h.served hrun).mono le_rfl ?_
        show p.outside.length + p.entering.length
          ≤ (p.outside.eraseIdx i).length + (p.entering ++ [p.outside[i]]).length
        rw [List.length_cons] at hlength
        rw [List.length_append, List.length_singleton]
        omega
    · rename_i hstopped
      exact ⟨h.bounded, h.ordered, fun hrun => absurd hrun hstopped, fun hrun => absurd hrun hstopped,
        h.fed, h.unbounded⟩

/-- **Every step** of a thread. -/
theorem Sound.step (h : Sound workers p) (e : MonitorEvent α) : Sound workers (p.step e) := by
  cases e with
  | addTask func k =>
    exact h.addTask (fun hrun => (h.fed hrun).mono le_rfl (Nat.zero_le _)) h.unbounded func k
  | addTaskAgain i k =>
    rw [ThreadPool.step]
    split
    · exact h
    · rename_i func notFull hresume
      obtain ⟨hwaiting, -⟩ := CondVar.perm_resume hresume
      exact h.addTask (fun hrun => (h.fed hrun).resume hresume)
        (fun hno => hwaiting.trans (h.unbounded hno)) func k
  | look i => exact h.look i
  | take i k =>
    rw [ThreadPool.step]
    split
    · exact h
    · rename_i t ht
      obtain ⟨hlt, rfl⟩ := List.getElem?_eq_some_iff.mp ht
      have herase := List.getElem_cons_eraseIdx_perm hlt
      have hlength := herase.length_eq
      refine Taking.take (p := { p with entering := p.entering.eraseIdx i })
        ⟨h.bounded, h.ordered, fun hrun => ?_, fun hrun => ?_, h.fed, h.unbounded⟩ k
      · refine List.Perm.trans ?_ (h.placed hrun)
        show (p.entering[i] :: (p.outside ++ p.entering.eraseIdx i ++ _)).Perm _
        rw [← List.cons_append]
        exact List.Perm.append_right _ (List.perm_middle.symm.trans (herase.append_left p.outside))
      · refine (h.served hrun).mono le_rfl ?_
        show p.outside.length + p.entering.length
          ≤ p.outside.length + (p.entering.eraseIdx i).length + 1
        rw [List.length_cons] at hlength
        omega
  | takeAgain i k =>
    rw [ThreadPool.step]
    split
    · exact h
    · rename_i t notEmpty hresume
      obtain ⟨hwaiting, hwoken⟩ := CondVar.perm_resume hresume
      refine Taking.take (p := { p with notEmpty := notEmpty })
        ⟨h.bounded, h.ordered, fun hrun => ?_, fun hrun => ?_, h.fed, h.unbounded⟩ k
      · refine List.Perm.trans ?_ (h.placed hrun)
        show (t :: (p.outside ++ p.entering ++ (notEmpty.waiting ++ notEmpty.woken))).Perm _
        rw [hwaiting, ← List.append_assoc, ← List.append_assoc]
        exact List.perm_middle.symm.trans (hwoken.append_left _)
      · exact (h.served hrun).resume hresume
  | stop => exact h.stop
  | waitTaskClear => exact h.waitTaskClear
  | waitTaskClearAgain i =>
    rw [ThreadPool.step]
    split
    · exact h
    · exact ⟨h.bounded, h.ordered, h.placed, h.served, h.fed, h.unbounded⟩
  | wakeNotEmpty k =>
    refine ⟨h.bounded, h.ordered, fun hrun => ?_, fun hrun => ?_, h.fed, h.unbounded⟩
    · exact ((p.notEmpty.perm_notifyOne k).append_left _).trans (h.placed hrun)
    · exact ((h.served hrun).notifyOne k).mono (Nat.le_succ _) le_rfl
  | wakeNotFull k =>
    refine ⟨h.bounded, h.ordered, h.placed, h.served, fun hrun => ?_, fun hno => ?_⟩
    · exact ((h.fed hrun).notifyOne k).mono (Nat.le_succ _) le_rfl
    · show (p.notFull.notifyOne k).waiting = []
      rw [CondVar.waiting_notifyOne_of_nil (h.unbounded hno)]
      exact h.unbounded hno
  | wakeIsEmpty k => exact ⟨h.bounded, h.ordered, h.placed, h.served, h.fed, h.unbounded⟩

/-! ## The monitor -/

theorem maxQueueSize_addTask (p : ThreadPool ω α) (func : α) (k : ℕ) :
    (p.addTask func k).maxQueueSize = p.maxQueueSize := by
  rw [ThreadPool.addTask]
  split
  · rfl
  · split <;> rfl

theorem maxQueueSize_take (p : ThreadPool ω α) (t : ω) (k : ℕ) :
    (p.take t k).maxQueueSize = p.maxQueueSize := by
  rw [ThreadPool.take]
  split
  · rfl
  · split <;> rfl

theorem maxQueueSize_step (p : ThreadPool ω α) (e : MonitorEvent α) :
    (p.step e).maxQueueSize = p.maxQueueSize := by
  cases e with
  | addTask func k => exact p.maxQueueSize_addTask func k
  | addTaskAgain i k =>
    rw [ThreadPool.step]
    split
    · rfl
    · exact maxQueueSize_addTask _ _ k
  | look i =>
    rw [ThreadPool.step]
    split
    · rfl
    · dsimp only
      split <;> rfl
  | take i k =>
    rw [ThreadPool.step]
    split
    · rfl
    · exact maxQueueSize_take _ _ k
  | takeAgain i k =>
    rw [ThreadPool.step]
    split
    · rfl
    · exact maxQueueSize_take _ _ k
  | stop =>
    rw [ThreadPool.step, ThreadPool.stop]
    split <;> rfl
  | waitTaskClear =>
    rw [ThreadPool.step, ThreadPool.waitTaskClear]
    split <;> rfl
  | waitTaskClearAgain i =>
    rw [ThreadPool.step]
    split <;> rfl
  | wakeNotEmpty k => rfl
  | wakeNotFull k => rfl
  | wakeIsEmpty k => rfl

/-- **No task is left to workers that are all blocked.** -/
theorem Sound.exists_awake {n : ℕ} {p : ThreadPool (Fin n) α} (h : Sound (List.finRange n) p)
    (hrun : p.running = true) (hqueue : p.taskQueue ≠ []) (hn : 0 < n) :
    ∃ t, t ∉ p.notEmpty.waiting := by
  by_contra hall
  have hsub : List.finRange n ⊆ p.notEmpty.waiting := fun t _ => not_not.mp (not_exists.mp hall t)
  have hlength := ((List.nodup_finRange n).subperm hsub).length_le
  have hplaced := (h.placed hrun).length_eq
  simp only [List.length_append, List.length_finRange] at hlength hplaced
  have hblocked : p.notEmpty.waiting ≠ [] := List.length_pos_iff.mp (by omega)
  have hserved := h.served hrun hblocked
  have hpos := List.length_pos_iff.mpr hqueue
  omega

/-- **The monitor is sound.**  In every state of every run of any number of workers and callers: the
queue keeps its bound; the tasks handed on and those in the queue are the tasks accepted, in order; and
while the pool runs, a task in the queue finds a worker that is not blocked, and a free place in the
queue finds a caller that is awake, if any caller is blocked. -/
theorem monitor_run (numThreads : ℕ) (maxQueueSize : Int32) (es : List (MonitorEvent α)) :
    let p : ThreadPool (Fin numThreads) α :=
      run step (new (List.finRange numThreads) maxQueueSize) es
    (0 < maxQueueSize → p.taskQueue.length ≤ maxQueueSize.toInt)
      ∧ p.handed ++ p.taskQueue = p.accepted
      ∧ (p.running = true → p.taskQueue ≠ [] → 0 < numThreads → ∃ t, t ∉ p.notEmpty.waiting)
      ∧ (p.running = true → p.isFullLocked = false → p.notFull.waiting ≠ [] → p.notFull.woken ≠ []) := by
  intro p
  obtain ⟨hmax, hp⟩ : p.maxQueueSize = maxQueueSize ∧ Sound (List.finRange numThreads) p :=
    @inv_run _ _ step (fun _ _ => True)
      (fun q => q.maxQueueSize = maxQueueSize ∧ Sound (List.finRange numThreads) q)
      (fun q e hq _ => ⟨(q.maxQueueSize_step e).trans hq.1, hq.2.step e⟩) _
      ⟨rfl, sound_new _ maxQueueSize⟩ es (meets_true _ es)
  refine ⟨fun hpos => ?_, hp.ordered, hp.exists_awake, fun hrun hroom hblocked => ?_⟩
  · rw [← hmax]
    exact hp.bounded (hmax ▸ hpos)
  · have hpos : 0 < p.maxQueueSize := not_not.mp fun hno => hblocked (hp.unbounded hno)
    have hfree : p.free ≠ 0 := fun hfree => by
      rw [(isFullLocked_iff hp.bounded).mpr ⟨hpos, hfree⟩] at hroom
      cases hroom
    exact (hp.fed hrun).exists_woken (Nat.pos_of_ne_zero hfree) hblocked

end ThreadPool
