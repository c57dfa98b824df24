import Rpx.Core.ThreadPool
import Rpx.Machinery.Progress

/-!
# Core/EventLoopThreadPool — the start of the io loops

    constructor:  addTask × n ──▶ initLatch.wait() ──▶ getNextLoop …
    worker:       take ──▶ EventLoop loop, *ret = &loop ──▶ init callback ──▶ countDown ──▶ loop.loop()

The constructor queues one `eventloopTask` for each slot of `_loops` and waits until all have counted
down.  The workers and the queue are those of `ThreadPool`.  A loop lives on the stack of the worker that
runs the task, so a pointer to it is the worker's name.  The latch asserts that it has something to wait
for, so that a pool has one thread at least.

`loops_started` — the constructor goes on when every slot holds the loop of a worker of its own, and from
then on each call of `getNextLoop` returns the next of these loops, round and round.
-/

open Machinery

/-- A latch that threads `τ` wait for. -/
structure CountDownLatch (τ : Type*) where
  count : ℤ
  cond : CondVar τ

namespace CountDownLatch

variable {τ : Type*}

/-- The constructor, which asserts that the count is positive. -/
def new (count : ℤ) (_ : 0 < count) : CountDownLatch τ := ⟨count, .empty⟩

def countDown (l : CountDownLatch τ) : CountDownLatch τ where
  count := l.count - 1
  cond := if l.count - 1 = 0 then l.cond.notifyAll else l.cond

end CountDownLatch

/-- How far a worker is in `eventloopTask`. -/
inductive TaskStage
  | started
  /-- `*ret = &loop` has been done. -/
  | stored
  /-- The init callback has returned, if there is one. -/
  | called
  /-- The latch has been counted down; the worker is in `loop.loop()` or about to enter it. -/
  | looping
  deriving DecidableEq, Repr

/-- Where the constructor is. -/
inductive BuilderPhase
  /-- So many tasks have been added; after the last, it is about to call `initLatch.wait()`. -/
  | adding (i : ℕ)
  /-- In `cond.wait`. -/
  | blocked
  | returned
  deriving DecidableEq, Repr

/-- A pool of `n` threads. -/
structure EventLoopThreadPool (n : ℕ) where
  /-- `_pool`, whose tasks are known by their slots. -/
  pool : ThreadPool (Fin n) (Fin n)
  /-- The task that a worker runs: its slot, and how far it is. -/
  tasks : Fin n → Option (Fin n × TaskStage)
  /-- `running` of the loop on a worker's stack. -/
  running : Fin n → Bool
  /-- `_loops`: null, or the loop of a worker. -/
  loops : Fin n → Option (Fin n)
  /-- The workers that have written a slot, in order. -/
  writers : Fin n → List (Fin n)
  initLatch : CountDownLatch Unit
  builder : BuilderPhase
  cnt : ℕ
  /-- What the calls of `getNextLoop` have returned, in order. -/
  results : List (Option (Fin n))

/-- A step of a thread; `i` and `k` are those of the monitor's steps. -/
inductive StartEvent (n : ℕ)
  /-- The constructor adds the next task. -/
  | addTask (k : ℕ)
  /-- The constructor takes the lock in `initLatch.wait()`, for the first time or woken. -/
  | wait
  | waitAgain
  /-- The constructor wakes for no reason. -/
  | wakeBuilder
  /-- A worker that runs no task looks at `running` of the pool. -/
  | look (i : ℕ)
  /-- A worker takes the lock in `take()`, for the first time or woken. -/
  | take (i k : ℕ)
  | takeAgain (i k : ℕ)
  /-- A worker wakes for no reason. -/
  | wakeWorker (k : ℕ)
  /-- A worker builds its loop and stores the pointer. -/
  | store (t : Fin n)
  /-- Its init callback returns. -/
  | callback (t : Fin n)
  | countDown (t : Fin n)
  /-- Somebody calls `quit()` of a worker's loop. -/
  | quit (t : Fin n)
  /-- `loop.loop()` returns, and `eventloopTask` with it. -/
  | loopReturns (t : Fin n)
  | getNextLoop

namespace EventLoopThreadPool

variable {n : ℕ}

/-- `EventLoopThreadPool(baseLoop, n, init)`, before the first `addTask`. -/
def new (n : ℕ) (hn : 0 < n) : EventLoopThreadPool n where
  pool := .new (List.finRange n) 0
  tasks := fun _ => none
  running := fun _ => true
  loops := fun _ => none
  writers := fun _ => []
  initLatch := .new n (by omega)
  builder := .adding 0
  cnt := 0
  results := []

section Step

variable (s : EventLoopThreadPool n)

/-- `initLatch.wait()`, once it has the lock. -/
def wait : EventLoopThreadPool n :=
  if 0 < s.initLatch.count then
    { s with
      initLatch := { s.initLatch with cond := s.initLatch.cond.wait () }
      builder := .blocked }
  else { s with builder := .returned }

/-- The worker `t` comes out of `take()`, or blocks in it: `pool` is the monitor afterwards. -/
def handOut (t : Fin n) (pool : ThreadPool (Fin n) (Fin n)) : EventLoopThreadPool n where
  __ := s
  pool := pool
  tasks :=
    match s.pool.taskQueue with
    | [] => s.tasks
    | slot :: _ => Function.update s.tasks t (some (slot, .started))

/-- `getNextLoop()`; beyond the end of `_loops` there is no loop to return. -/
def getNextLoop : EventLoopThreadPool n where
  __ := s
  results := s.results ++ [if h : s.cnt < n then s.loops ⟨s.cnt, h⟩ else none]
  cnt := if s.cnt + 1 = n then 0 else s.cnt + 1

def step : StartEvent n → EventLoopThreadPool n
  | .addTask k =>
    match s.builder with
    | .adding i =>
      if h : i < n then
        { s with pool := s.pool.step (.addTask ⟨i, h⟩ k), builder := .adding (i + 1) }
      else s
    | _ => s
  | .wait => if s.builder = .adding n then s.wait else s
  | .waitAgain =>
    match s.initLatch.cond.resume 0 with
    | none => s
    | some (_, cond) =>
      if s.builder = .blocked then
        { s with initLatch := { s.initLatch with cond := cond } }.wait
      else s
  | .wakeBuilder =>
    { s with initLatch := { s.initLatch with cond := s.initLatch.cond.notifyOne 0 } }
  | .look i =>
    match s.pool.outside[i]? with
    | none => s
    | some t => if s.tasks t = none then { s with pool := s.pool.step (.look i) } else s
  | .take i k =>
    match s.pool.entering[i]? with
    | none => s
    | some t => s.handOut t (s.pool.step (.take i k))
  | .takeAgain i k =>
    match s.pool.notEmpty.resume i with
    | none => s
    | some (t, _) => s.handOut t (s.pool.step (.takeAgain i k))
  | .wakeWorker k => { s with pool := s.pool.step (.wakeNotEmpty k) }
  | .store t =>
    match s.tasks t with
    | some (ret, .started) =>
      { s with
        tasks := Function.update s.tasks t (some (ret, .stored))
        running := Function.update s.running t true
        loops := Function.update s.loops ret (some t)
        writers := Function.update s.writers ret (s.writers ret ++ [t]) }
    | _ => s
  | .callback t =>
    match s.tasks t with
    | some (ret, .stored) => { s with tasks := Function.update s.tasks t (some (ret, .called)) }
    | _ => s
  | .countDown t =>
    match s.tasks t with
    | some (ret, .called) =>
      { s with
        tasks := Function.update s.tasks t (some (ret, .looping))
        initLatch := s.initLatch.countDown }
    | _ => s
  | .quit t => { s with running := Function.update s.running t false }
  | .loopReturns t =>
    match s.tasks t with
    | some (_, .looping) =>
      if s.running t then s else { s with tasks := Function.update s.tasks t none }
    | _ => s
  | .getNextLoop => if s.builder = .returned then s.getNextLoop else s

end Step

/-- **No loop is told to quit by its init callback.**  Until the constructor has returned, nobody else
knows the loops. -/
def Quiet (s : EventLoopThreadPool n) : StartEvent n → Prop
  | .quit _ => s.builder = .returned
  | _ => True

/-- **Every loop has been started**: each slot has been written once, by a worker of its own, which is in
its loop or about to enter it. -/
def AllStarted (s : EventLoopThreadPool n) : Prop :=
  ∃ worker : Fin n → Fin n, Function.Injective worker ∧ ∀ i,
    s.writers i = [worker i] ∧ s.loops i = some (worker i)
      ∧ s.tasks (worker i) = some (i, .looping)

/-- `getNextLoop` is called, as it can be once the constructor has returned. -/
def Asks (s : EventLoopThreadPool n) (e : StartEvent n) : Prop := e = .getNextLoop ∧ s.builder = .returned

instance (s : EventLoopThreadPool n) : ∀ e, Decidable (s.Asks e)
  | .getNextLoop => decidable_of_iff (s.builder = .returned) (by simp [Asks])
  | .addTask _ | .wait | .waitAgain | .wakeBuilder | .look _ | .take _ _ | .takeAgain _ _ | .wakeWorker _
  | .store _ | .callback _ | .countDown _ | .quit _ | .loopReturns _ => .isFalse (by simp [Asks])

/-- What is in slot `k mod n` is `loop`, which is not null. -/
def Next (s : EventLoopThreadPool n) (k : ℕ) (loop : Fin n) : Prop :=
  ∃ i : Fin n, i.val = k % n ∧ s.loops i = some loop

/-- **Round robin**: each of the calls of `getNextLoop`, so many, has returned something, and the `k`-th of
them the loop in slot `k mod n`. -/
def RoundRobin (s : EventLoopThreadPool n) (calls : ℕ) : Prop :=
  s.results.length = calls ∧ ∀ k < calls, ∃ loop, s.Next k loop ∧ s.results[k]? = some (some loop)

/-! ## The monitor's steps

While the pool runs, a worker comes out of `take()` with the first task of the queue, or blocks when
there is none; nothing else changes that the start depends on. -/

/-- A queue without a bound takes what it is given. -/
theorem addTask_unbounded {p : ThreadPool (Fin n) (Fin n)} (hrun : p.running = true)
    (hmax : p.maxQueueSize = 0) (slot : Fin n) (k : ℕ) :
    p.step (.addTask slot k) = { p with
      taskQueue := p.taskQueue ++ [slot]
      notEmpty := p.notEmpty.notifyOne k
      accepted := p.accepted ++ [slot] } := by
  have hfull : p.isFullLocked = false := by
    rw [ThreadPool.isFullLocked, hmax]
    rfl
  rw [ThreadPool.step, ThreadPool.addTask, hfull, Bool.false_and, if_neg Bool.false_ne_true,
    if_neg (by simp [hrun])]

/-- A worker that finds `running` set goes on to `take()`. -/
theorem look_running {p : ThreadPool (Fin n) (Fin n)} (hrun : p.running = true) {j : ℕ} {t : Fin n}
    (ht : p.outside[j]? = some t) :
    p.step (.look j) = { p with
      outside := p.outside.eraseIdx j
      entering := p.entering ++ [t] } := by
  rw [ThreadPool.step, ht]
  exact if_pos hrun

/-- **What `take()` does for the worker `t`.** -/
structure Hands (t : Fin n) (p p' : ThreadPool (Fin n) (Fin n)) : Prop where
  running : p'.running = p.running
  maxQueueSize : p'.maxQueueSize = p.maxQueueSize
  accepted : p'.accepted = p.accepted
  blocks : p.taskQueue = [] → p'.taskQueue = [] ∧ p'.outside = p.outside ∧ p'.handed = p.handed
  takes : ∀ task rest, p.taskQueue = task :: rest →
    p'.taskQueue = rest ∧ p'.outside = p.outside ++ [t] ∧ p'.handed = p.handed ++ [task]

variable {p : ThreadPool (Fin n) (Fin n)} {t : Fin n}

theorem hands (p : ThreadPool (Fin n) (Fin n)) (hrun : p.running = true) (t : Fin n) (k : ℕ) :
    Hands t p (p.take t k) := by
  rw [ThreadPool.take]
  split
  · rename_i hwait
    have hempty : p.taskQueue = [] := List.isEmpty_iff.mp (Bool.and_eq_true_iff.mp hwait).1
    exact ⟨rfl, rfl, rfl, fun _ => ⟨hempty, rfl, rfl⟩, fun _ _ hcons => by rw [hempty] at hcons; cases hcons⟩
  · rename_i hgo
    split
    · rename_i hnil
      exact absurd (by simp [hnil, hrun]) hgo
    · rename_i task rest hqueue
      refine ⟨rfl, rfl, rfl, fun hnil => ?_, fun task' rest' hcons => ?_⟩
      · rw [hqueue] at hnil
        cases hnil
      · rw [hqueue] at hcons
        cases hcons
        exact ⟨rfl, rfl, rfl⟩

/-- A worker that is about to take the lock. -/
theorem hands_take (hrun : p.running = true) {i : ℕ} (ht : p.entering[i]? = some t) (k : ℕ) :
    Hands t p (p.step (.take i k)) := by
  rw [ThreadPool.step, ht]
  have h := hands { p with entering := p.entering.eraseIdx i } hrun t k
  exact ⟨h.running, h.maxQueueSize, h.accepted, h.blocks, h.takes⟩

/-- A worker that has been woken. -/
theorem hands_takeAgain (hrun : p.running = true) {i : ℕ} {notEmpty : CondVar (Fin n)}
    (ht : p.notEmpty.resume i = some (t, notEmpty)) (k : ℕ) :
    Hands t p (p.step (.takeAgain i k)) := by
  rw [ThreadPool.step, ht]
  have h := hands { p with notEmpty := notEmpty } hrun t k
  exact ⟨h.running, h.maxQueueSize, h.accepted, h.blocks, h.takes⟩

/-- **A worker that takes is not outside.** -/
theorem not_outside (hp : p.Sound (List.finRange n)) (hrun : p.running = true)
    (ht : t ∈ p.entering ++ (p.notEmpty.waiting ++ p.notEmpty.woken)) : t ∉ p.outside := by
  have hnodup := (hp.placed hrun).nodup_iff.mpr (List.nodup_finRange n)
  rw [List.append_assoc] at hnodup
  exact fun hout => (List.disjoint_of_nodup_append hnodup) hout ht

/-! ## Until the constructor returns -/

/-- What is in a slot: nothing, never written, or the loop of the worker that has written it. -/
def Slot (s : EventLoopThreadPool n) (i : Fin n) (writer : Option (Fin n)) : Prop :=
  s.writers i = writer.toList ∧ s.loops i = writer

/-- The workers that have counted down. -/
def countedDown (tasks : Fin n → Option (Fin n × TaskStage)) : Finset (Fin n) :=
  Finset.univ.filter fun t => (tasks t).map Prod.snd = some .looping

/-- **What holds until the constructor returns.** -/
structure Starting (s : EventLoopThreadPool n) : Prop where
  sound : s.pool.Sound (List.finRange n)
  runs : s.pool.running = true
  maxQueueSize : s.pool.maxQueueSize = 0
  /-- The slots before the `k`-th have been queued. -/
  building : ∃ k ≤ n, s.pool.accepted = (List.finRange n).take k
    ∧ (s.builder = .adding k ∨ k = n ∧ s.builder = .blocked)
  live : ∀ t, s.running t = true
  busy : ∀ t i g, s.tasks t = some (i, g) → t ∈ s.pool.outside ∧ i ∈ s.pool.handed
  /-- No two workers run the task of one slot. -/
  sole : ∀ t t' i g g', s.tasks t = some (i, g) → s.tasks t' = some (i, g') → t = t'
  slot : ∀ t i g, s.tasks t = some (i, g) → s.Slot i (if g = .started then none else some t)
  untaken : ∀ i, i ∉ s.pool.handed → s.Slot i none
  count : s.initLatch.count = n - (countedDown s.tasks).card
  unasked : s.cnt = 0 ∧ s.results = []

/-- **What holds from then on**: nothing is queued, each slot holds the loop of a worker of its own, and
that worker is in the loop unless somebody has told the loop to quit. -/
structure Served (worker : Fin n → Fin n) (s : EventLoopThreadPool n) : Prop where
  runs : s.pool.running = true
  queue : s.pool.taskQueue = []
  builder : s.builder = .returned
  slot : ∀ i, s.Slot i (some (worker i))
  stage : ∀ t i g, s.tasks t = some (i, g) → g = .looping
  up : ∀ i, s.running (worker i) = true → s.tasks (worker i) = some (i, .looping)
  cnt : s.cnt = s.results.length % n
  robin : s.RoundRobin s.results.length

variable {s : EventLoopThreadPool n} {tasks : Fin n → Option (Fin n × TaskStage)} {i : Fin n}
  {g g' : TaskStage}

/-- A worker with a task is the one that has just got it or got on with it, or has the task it had. -/
theorem task_cases {t t' j : Fin n}
    (h : Function.update tasks t (some (i, g)) t' = some (j, g')) :
    t' = t ∧ j = i ∧ g' = g ∨ t' ≠ t ∧ tasks t' = some (j, g') := by
  by_cases heq : t' = t
  · subst heq
    rw [Function.update_self] at h
    cases h
    exact .inl ⟨rfl, rfl, rfl⟩
  · rw [Function.update_of_ne heq] at h
    exact .inr ⟨heq, h⟩

/-- A worker whose task does not reach its end, or leave it. -/
theorem countedDown_update {t : Fin n} {x : Option (Fin n × TaskStage)}
    (hx : x.map Prod.snd ≠ some .looping) (ht : (tasks t).map Prod.snd ≠ some .looping) :
    countedDown (Function.update tasks t x) = countedDown tasks := by
  refine Finset.filter_congr fun t' _ => ?_
  by_cases heq : t' = t
  · subst heq
    rw [Function.update_self]
    exact iff_of_false hx ht
  · rw [Function.update_of_ne heq]

/-- **One more has counted down.** -/
theorem card_countedDown {t : Fin n} (ht : (tasks t).map Prod.snd ≠ some .looping) :
    (countedDown (Function.update tasks t (some (i, .looping)))).card = (countedDown tasks).card + 1 := by
  have hinsert : countedDown (Function.update tasks t (some (i, .looping)))
      = insert t (countedDown tasks) := by
    ext t'
    rw [Finset.mem_insert, countedDown, countedDown, Finset.mem_filter, Finset.mem_filter]
    by_cases heq : t' = t
    · subst heq
      simp
    · rw [Function.update_of_ne heq]
      simp [heq]
  rw [hinsert]
  exact Finset.card_insert_of_notMem fun hin => ht (Finset.mem_filter.mp hin).2

theorem starting_new (n : ℕ) (hn : 0 < n) : (new n hn).Starting := by
  refine ⟨ThreadPool.sound_new _ _, rfl, rfl, ⟨0, Nat.zero_le n, rfl, .inl rfl⟩, fun _ => rfl,
    fun t i g ht => ?_,
    fun t t' i g g' ht => ?_, fun t i g ht => ?_, fun _ _ => ⟨rfl, rfl⟩, ?_, rfl, rfl⟩
  · cases ht
  · cases ht
  · cases ht
  · simp [new, CountDownLatch.new, countedDown]

/-! ### The builder -/

/-- The next task is queued; the queue has no bound. -/
theorem Starting.addTask (h : s.Starting) (k : ℕ) : (s.step (.addTask k)).Starting := by
  rw [step]
  split
  · rename_i j hbuilder
    split
    · rename_i hj
      obtain ⟨k', -, haccepted, hk'⟩ := h.building
      have hk : k' = j := by
        rcases hk' with hk' | ⟨-, hk'⟩
        · exact (BuilderPhase.adding.inj (hbuilder.symm.trans hk')).symm
        · cases hbuilder.symm.trans hk'
      subst hk
      have hsound := h.sound.step (.addTask ⟨k', hj⟩ k)
      rw [addTask_unbounded h.runs h.maxQueueSize] at hsound ⊢
      refine ⟨hsound, h.runs, h.maxQueueSize, ⟨k' + 1, hj, ?_, .inl rfl⟩, h.live, h.busy, h.sole, h.slot,
        h.untaken, h.count, h.unasked⟩
      show s.pool.accepted ++ [⟨k', hj⟩] = _
      rw [haccepted, List.take_add_one]
      simp [hj]
    · exact h
  · exact h

/-- No slot is queued twice. -/
theorem Starting.nodup (h : s.Starting) : (s.pool.handed ++ s.pool.taskQueue).Nodup := by
  obtain ⟨k, -, haccepted, -⟩ := h.building
  rw [h.sound.ordered, haccepted]
  exact (List.nodup_finRange n).sublist (List.take_sublist k _)

/-- **All have counted down**: each slot has a worker. -/
theorem Starting.served (h : s.Starting) (hcount : s.initLatch.count ≤ 0) :
    ∃ worker, Function.Injective worker ∧ Served worker { s with builder := .returned } := by
  have hall : ∀ t, ∃ i, s.tasks t = some (i, .looping) := by
    have hcard : n ≤ (countedDown s.tasks).card := by
      have hcount' := h.count
      omega
    have huniv : countedDown s.tasks = Finset.univ :=
      Finset.eq_univ_of_card _ (le_antisymm (Finset.card_le_univ _) (by simpa using hcard))
    intro t
    have ht : t ∈ countedDown s.tasks := huniv ▸ Finset.mem_univ t
    obtain ⟨⟨i, g⟩, htask, hg⟩ := Option.map_eq_some_iff.mp (Finset.mem_filter.mp ht).2
    exact ⟨i, htask.trans (congrArg (fun g => some (i, g)) hg)⟩
  choose slot hslot using hall
  have hinj : Function.Injective slot := fun t t' htt' =>
    h.sole t t' (slot t) .looping .looping (hslot t) (htt' ▸ hslot t')
  obtain ⟨worker, hleft, hright⟩ := Function.bijective_iff_has_inverse.mp
    (Finite.injective_iff_bijective.mp hinj)
  refine ⟨worker, hright.injective, h.runs, ?_, rfl, fun i => ?_, fun t i g ht => ?_, fun i _ => ?_, ?_, ?_⟩
  · -- a task left in the queue would be that of a slot already handed out
    rw [List.eq_nil_iff_forall_not_mem]
    intro i hi
    have hhanded : i ∈ s.pool.handed := (h.busy _ _ _ (hslot (worker i))).2 |> (hright i ▸ ·)
    exact List.disjoint_of_nodup_append h.nodup hhanded hi
  · have hs := h.slot _ _ _ (hslot (worker i))
    rwa [hright i] at hs
  · rw [hslot t] at ht
    cases ht
    rfl
  · have hs := hslot (worker i)
    rwa [hright i] at hs
  · show s.cnt = s.results.length % n
    rw [h.unasked.1, h.unasked.2, List.length_nil, Nat.zero_mod]
  · refine ⟨rfl, fun k hk => ?_⟩
    rw [show ({ s with builder := .returned } : EventLoopThreadPool n).results = [] from h.unasked.2] at hk
    cases hk

/-- Who waits for the latch makes no difference. -/
theorem Starting.of_cond (h : s.Starting) (cond : CondVar Unit) :
    Starting { s with initLatch := { s.initLatch with cond := cond } } :=
  ⟨h.sound, h.runs, h.maxQueueSize, h.building, h.live, h.busy, h.sole, h.slot, h.untaken, h.count, h.unasked⟩

theorem Starting.builder_ne (h : s.Starting) : s.builder ≠ .returned := by
  obtain ⟨k, -, -, hk | ⟨-, hk⟩⟩ := h.building
  · rw [hk]
    simp
  · rw [hk]
    simp

/-- The state in which the constructor returns. -/
def Returns (s : EventLoopThreadPool n) : Prop :=
  (∀ t, s.running t = true) ∧ ∃ worker, Function.Injective worker ∧ Served worker s

/-- **The constructor looks at the latch**, and goes on only when all have counted down. -/
theorem Starting.wait (h : s.Starting) (hbuilder : s.builder = .adding n ∨ s.builder = .blocked) :
    s.wait.Starting ∨ s.wait.Returns := by
  rw [EventLoopThreadPool.wait]
  split
  · left
    obtain ⟨k, -, haccepted, hk⟩ := h.building
    have hkn : k = n := by
      rcases hk with hk | ⟨hk, -⟩
      · rcases hbuilder with hbuilder | hbuilder
        · exact BuilderPhase.adding.inj (hk.symm.trans hbuilder)
        · cases hk.symm.trans hbuilder
      · exact hk
    exact ⟨h.sound, h.runs, h.maxQueueSize, ⟨k, hkn.le, haccepted, .inr ⟨hkn, rfl⟩⟩, h.live, h.busy, h.sole,
      h.slot, h.untaken, h.count, h.unasked⟩
  · rename_i hcount
    exact .inr ⟨h.live, h.served (not_lt.mp hcount)⟩

/-! ### The workers -/

/-- A worker that runs no task looks at `running`, and goes on to `take()`. -/
theorem Starting.look (h : s.Starting) (j : ℕ) : (s.step (.look j)).Starting := by
  rw [step]
  split
  · exact h
  · rename_i t ht
    split
    · rename_i hfree
      have hsound := h.sound.step (.look j)
      obtain ⟨hlt, rfl⟩ := List.getElem?_eq_some_iff.mp ht
      rw [look_running h.runs ht] at hsound ⊢
      refine ⟨hsound, h.runs, h.maxQueueSize, h.building, h.live, fun t i g ht' => ?_, h.sole, h.slot,
        h.untaken, h.count, h.unasked⟩
      obtain ⟨hout, hhanded⟩ := h.busy t i g ht'
      have hne : t ≠ s.pool.outside[j] := by
        rintro rfl
        cases hfree.symm.trans ht'
      have hmem := (List.getElem_cons_eraseIdx_perm hlt).mem_iff.mpr hout
      exact ⟨(List.mem_cons.mp hmem).resolve_left hne, hhanded⟩
    · exact h

/-- A worker that runs no task blocks in `take()`. -/
theorem Starting.block (h : s.Starting) {t : Fin n} {pool : ThreadPool (Fin n) (Fin n)}
    (hsound : pool.Sound (List.finRange n)) (hpool : Hands t s.pool pool) (hqueue : s.pool.taskQueue = []) :
    Starting { s with pool := pool } := by
  obtain ⟨-, houtside, hhanded⟩ := hpool.blocks hqueue
  exact ⟨hsound, hpool.running.trans h.runs, hpool.maxQueueSize.trans h.maxQueueSize,
    hpool.accepted ▸ h.building, h.live, houtside ▸ hhanded ▸ h.busy, h.sole, h.slot, hhanded ▸ h.untaken,
    h.count, h.unasked⟩

/-- …or gets the task of a slot that is nobody else's. -/
theorem Starting.hand (h : s.Starting) {t slot : Fin n} {rest : List (Fin n)}
    {pool : ThreadPool (Fin n) (Fin n)} (hfree : s.tasks t = none) (hsound : pool.Sound (List.finRange n))
    (hpool : Hands t s.pool pool) (hqueue : s.pool.taskQueue = slot :: rest) :
    Starting { s with pool := pool, tasks := Function.update s.tasks t (some (slot, .started)) } := by
  obtain ⟨-, houtside, hhanded⟩ := hpool.takes slot rest hqueue
  have hfresh : slot ∉ s.pool.handed := by
    have hnodup := h.nodup
    rw [hqueue] at hnodup
    exact fun hin => List.disjoint_of_nodup_append hnodup hin List.mem_cons_self
  refine ⟨hsound, hpool.running.trans h.runs, hpool.maxQueueSize.trans h.maxQueueSize,
    hpool.accepted ▸ h.building, h.live, fun t' i g ht' => ?_, fun t' t'' i g g' ht' ht'' => ?_,
    fun t' i g ht' => ?_, fun i hi => ?_, ?_, h.unasked⟩
  · show t' ∈ pool.outside ∧ i ∈ pool.handed
    rw [houtside, hhanded, List.mem_append, List.mem_append, List.mem_singleton, List.mem_singleton]
    rcases task_cases ht' with ⟨rfl, rfl, -⟩ | ⟨-, hold⟩
    · exact ⟨.inr rfl, .inr rfl⟩
    · exact ⟨.inl (h.busy t' i g hold).1, .inl (h.busy t' i g hold).2⟩
  · rcases task_cases ht' with ⟨rfl, rfl, -⟩ | ⟨-, hold⟩
    · rcases task_cases ht'' with ⟨rfl, -, -⟩ | ⟨-, hold'⟩
      · rfl
      · exact absurd (h.busy t'' _ g' hold').2 hfresh
    · rcases task_cases ht'' with ⟨rfl, rfl, -⟩ | ⟨-, hold'⟩
      · exact absurd (h.busy t' _ g hold).2 hfresh
      · exact h.sole t' t'' i g g' hold hold'
  · rcases task_cases ht' with ⟨rfl, rfl, rfl⟩ | ⟨-, hold⟩
    · exact h.untaken _ hfresh
    · exact h.slot t' i g hold
  · refine h.untaken i fun hin => hi ?_
    rw [hhanded]
    exact List.mem_append_left _ hin
  · rw [h.count]
    show (n : ℤ) - (countedDown s.tasks).card = n - (countedDown _).card
    rw [countedDown_update (by simp) (by simp [hfree])]

/-- **A worker that is not outside runs no task**, and comes out of `take()` with one or blocks. -/
theorem Starting.handOut (h : s.Starting) {t : Fin n} (hout : t ∉ s.pool.outside)
    {pool : ThreadPool (Fin n) (Fin n)} (hsound : pool.Sound (List.finRange n))
    (hpool : Hands t s.pool pool) : (s.handOut t pool).Starting := by
  have hfree : s.tasks t = none := by
    by_contra hbusy
    obtain ⟨⟨i, g⟩, ht⟩ := Option.ne_none_iff_exists'.mp hbusy
    exact hout (h.busy t i g ht).1
  rw [EventLoopThreadPool.handOut]
  cases hqueue : s.pool.taskQueue with
  | nil => exact h.block hsound hpool hqueue
  | cons slot rest => exact h.hand hfree hsound hpool hqueue

/-- **A worker gets on with its task**: no other slot is touched, and its own is as it should be. -/
theorem Starting.advance (h : s.Starting) {t i : Fin n} {g g' : TaskStage} (ht : s.tasks t = some (i, g))
    {s' : EventLoopThreadPool n} (htasks : s'.tasks = Function.update s.tasks t (some (i, g')))
    (hpool : s'.pool = s.pool) (hbuilder : s'.builder = s.builder) (hlive : ∀ t, s'.running t = true)
    (hslot : s'.Slot i (if g' = .started then none else some t))
    (hother : ∀ j, j ≠ i → s'.writers j = s.writers j ∧ s'.loops j = s.loops j)
    (hcount : s'.initLatch.count = n - (countedDown s'.tasks).card)
    (hunasked : s'.cnt = s.cnt ∧ s'.results = s.results) : s'.Starting := by
  have hold : ∀ t' j g₁, s'.tasks t' = some (j, g₁) → ∃ g₂, s.tasks t' = some (j, g₂) := by
    intro t' j g₁ ht'
    rw [htasks] at ht'
    rcases task_cases ht' with ⟨rfl, rfl, -⟩ | ⟨-, ht'⟩
    · exact ⟨g, ht⟩
    · exact ⟨g₁, ht'⟩
  have hkept : ∀ j writer, j ≠ i → s.Slot j writer → s'.Slot j writer := by
    intro j writer hne hs
    obtain ⟨hwriters, hloops⟩ := hother j hne
    exact ⟨hwriters.trans hs.1, hloops.trans hs.2⟩
  refine ⟨hpool ▸ h.sound, hpool ▸ h.runs, hpool ▸ h.maxQueueSize, hpool ▸ hbuilder ▸ h.building, hlive,
    fun t' j g₁ ht' => ?_, fun t' t'' j g₁ g₂ ht' ht'' => ?_, fun t' j g₁ ht' => ?_, fun j hj => ?_, hcount, ?_⟩
  · obtain ⟨g₂, hs⟩ := hold t' j g₁ ht'
    exact hpool ▸ h.busy t' j g₂ hs
  · obtain ⟨g₃, hs⟩ := hold t' j g₁ ht'
    obtain ⟨g₄, hs'⟩ := hold t'' j g₂ ht''
    exact h.sole t' t'' j g₃ g₄ hs hs'
  · rw [htasks] at ht'
    rcases task_cases ht' with ⟨rfl, rfl, rfl⟩ | ⟨hne, hs⟩
    · exact hslot
    · refine hkept j _ ?_ (h.slot t' j g₁ hs)
      rintro rfl
      exact hne (h.sole t' t j g₁ g hs ht)
  · rw [hpool] at hj
    refine hkept j none ?_ (h.untaken j hj)
    rintro rfl
    exact hj (h.busy t j g ht).2
  · rw [hunasked.1, hunasked.2]
    exact h.unasked

theorem Starting.store (h : s.Starting) (t : Fin n) : (s.step (.store t)).Starting := by
  rw [step]
  split
  · rename_i ret ht
    have hslot : s.Slot ret none := h.slot t ret .started ht
    refine h.advance ht rfl rfl rfl (fun t' => ?_) ⟨?_, Function.update_self ..⟩ (fun j hj => ?_) ?_ ⟨rfl, rfl⟩
    · show Function.update s.running t true t' = true
      by_cases heq : t' = t
      · subst heq
        exact Function.update_self ..
      · rw [Function.update_of_ne heq]
        exact h.live t'
    · show Function.update s.writers ret _ ret = [t]
      rw [Function.update_self, hslot.1]
      rfl
    · exact ⟨Function.update_of_ne hj .., Function.update_of_ne hj ..⟩
    · rw [countedDown_update (by simp) (by simp [ht])]
      exact h.count
  · exact h

theorem Starting.callback (h : s.Starting) (t : Fin n) : (s.step (.callback t)).Starting := by
  rw [step]
  split
  · rename_i ret ht
    refine h.advance ht rfl rfl rfl h.live (h.slot t ret .stored ht) (fun _ _ => ⟨rfl, rfl⟩) ?_ ⟨rfl, rfl⟩
    rw [countedDown_update (by simp) (by simp [ht])]
    exact h.count
  · exact h

theorem Starting.countDown (h : s.Starting) (t : Fin n) : (s.step (.countDown t)).Starting := by
  rw [step]
  split
  · rename_i ret ht
    refine h.advance ht rfl rfl rfl h.live (h.slot t ret .called ht) (fun _ _ => ⟨rfl, rfl⟩) ?_ ⟨rfl, rfl⟩
    show s.initLatch.count - 1 = n - (countedDown (Function.update s.tasks t _)).card
    rw [card_countedDown (by simp [ht]), h.count]
    omega
  · exact h

/-! ### Every step -/

/-- **A step before the constructor returns** keeps what holds until then, or is the one in which it
returns. -/
theorem Starting.step (h : s.Starting) (e : StartEvent n) (he : s.Quiet e) :
    (s.step e).Starting ∨ (s.step e).Returns := by
  cases e with
  | addTask k => exact .inl (h.addTask k)
  | wait =>
    rw [EventLoopThreadPool.step]
    split
    · rename_i hb
      exact h.wait (.inl hb)
    · exact .inl h
  | waitAgain =>
    rw [EventLoopThreadPool.step]
    split
    · exact .inl h
    · rename_i cond hresume
      split
      · rename_i hb
        exact (h.of_cond cond).wait (.inr hb)
      · exact .inl h
  | wakeBuilder => exact .inl (h.of_cond _)
  | look j => exact .inl (h.look j)
  | take j k =>
    rw [EventLoopThreadPool.step]
    split
    · exact .inl h
    · rename_i t ht
      have hin : t ∈ s.pool.entering ++ (s.pool.notEmpty.waiting ++ s.pool.notEmpty.woken) :=
        List.mem_append_left _ (List.mem_of_getElem? ht)
      exact .inl (h.handOut (not_outside h.sound h.runs hin) (h.sound.step _) (hands_take h.runs ht k))
  | takeAgain j k =>
    rw [EventLoopThreadPool.step]
    split
    · exact .inl h
    · rename_i t notEmpty hresume
      have hwoken : t ∈ s.pool.notEmpty.woken :=
        (CondVar.perm_resume hresume).2.mem_iff.mp List.mem_cons_self
      have hin : t ∈ s.pool.entering ++ (s.pool.notEmpty.waiting ++ s.pool.notEmpty.woken) :=
        List.mem_append_right _ (List.mem_append_right _ hwoken)
      exact .inl (h.handOut (not_outside h.sound h.runs hin) (h.sound.step _)
        (hands_takeAgain h.runs hresume k))
  | wakeWorker k =>
    exact .inl ⟨h.sound.step (.wakeNotEmpty k), h.runs, h.maxQueueSize, h.building, h.live, h.busy, h.sole,
      h.slot, h.untaken, h.count, h.unasked⟩
  | store t => exact .inl (h.store t)
  | callback t => exact .inl (h.callback t)
  | countDown t => exact .inl (h.countDown t)
  | quit t => exact absurd he h.builder_ne
  | loopReturns t =>
    rw [EventLoopThreadPool.step]
    split
    · rw [if_pos (h.live t)]
      exact .inl h
    · exact .inl h
  | getNextLoop =>
    rw [EventLoopThreadPool.step, if_neg h.builder_ne]
    exact .inl h

/-! ## Once the constructor has returned -/

variable {worker : Fin n → Fin n}

/-- The queue stays empty, so that no worker gets a task. -/
theorem Served.handOut (h : Served worker s) {t : Fin n} {pool : ThreadPool (Fin n) (Fin n)}
    (hpool : Hands t s.pool pool) : Served worker (s.handOut t pool) := by
  have hstep : s.handOut t pool = { s with pool := pool } := by
    rw [EventLoopThreadPool.handOut, h.queue]
  rw [hstep]
  exact ⟨hpool.running.trans h.runs, (hpool.blocks h.queue).1, h.builder, h.slot, h.stage, h.up, h.cnt, h.robin⟩

/-- **The index stays within `_loops`.** -/
theorem Served.cnt_lt (h : Served worker s) (hn : 0 < n) : s.cnt < n := h.cnt ▸ Nat.mod_lt _ hn

/-- **The next call of `getNextLoop`** returns the loop in the next slot. -/
theorem Served.results_getNextLoop (h : Served worker s) (hn : 0 < n) :
    ∃ loop, s.Next s.results.length loop ∧ s.getNextLoop.results = s.results ++ [some loop] := by
  have hlt := h.cnt_lt hn
  have hsome : s.loops ⟨s.cnt, hlt⟩ = some (worker ⟨s.cnt, hlt⟩) := (h.slot _).2
  refine ⟨worker ⟨s.cnt, hlt⟩, ⟨⟨s.cnt, hlt⟩, h.cnt, hsome⟩, ?_⟩
  show s.results ++ [_] = _
  rw [dif_pos hlt, hsome]

theorem Served.getNextLoop (h : Served worker s) (hn : 0 < n) : Served worker s.getNextLoop := by
  obtain ⟨loop, hnext, hresults⟩ := h.results_getNextLoop hn
  have hlength : s.getNextLoop.results.length = s.results.length + 1 := by simp [hresults]
  refine ⟨h.runs, h.queue, h.builder, h.slot, h.stage, h.up, ?_, rfl, fun k hk => ?_⟩
  · have hlt := h.cnt_lt hn
    show (if s.cnt + 1 = n then 0 else s.cnt + 1) = s.getNextLoop.results.length % n
    rw [hlength, Nat.add_mod, ← h.cnt]
    split
    · rename_i hlast
      rw [Nat.add_mod_mod, hlast, Nat.mod_self]
    · rw [Nat.add_mod_mod, Nat.mod_eq_of_lt (by omega)]
  · rw [hlength] at hk
    rcases Nat.lt_succ_iff_lt_or_eq.mp hk with hlt | rfl
    · obtain ⟨loop', hnext', hget⟩ := h.robin.2 k hlt
      exact ⟨loop', hnext', by rw [hresults, List.getElem?_append_left hlt, hget]⟩
    · exact ⟨loop, hnext, by rw [hresults, List.getElem?_concat_length]⟩

/-- A loop is told to quit. -/
theorem Served.quit (h : Served worker s) (t : Fin n) : Served worker (s.step (.quit t)) := by
  refine ⟨h.runs, h.queue, h.builder, h.slot, h.stage, fun i hi => ?_, h.cnt, h.robin⟩
  change Function.update s.running t false (worker i) = true at hi
  by_cases heq : worker i = t
  · rw [heq, Function.update_self] at hi
    cases hi
  · rw [Function.update_of_ne heq] at hi
    exact h.up i hi

/-- Its worker is done, and looks for another task. -/
theorem Served.loopReturns (h : Served worker s) (t : Fin n) :
    Served worker (s.step (.loopReturns t)) := by
  rw [step]
  split
  · split
    · exact h
    · rename_i hquit
      refine ⟨h.runs, h.queue, h.builder, h.slot, fun t' i g ht' => ?_, fun i hi => ?_, h.cnt, h.robin⟩
      · change Function.update s.tasks t none t' = some (i, g) at ht'
        by_cases heq : t' = t
        · rw [heq, Function.update_self] at ht'
          cases ht'
        · rw [Function.update_of_ne heq] at ht'
          exact h.stage t' i g ht'
      · have hne : worker i ≠ t := by
          rintro rfl
          exact hquit hi
        exact (Function.update_of_ne hne ..).trans (h.up i hi)
  · exact h

/-- **A step once the constructor has returned** leaves every slot as it is. -/
theorem Served.step (h : Served worker s) (hn : 0 < n) (e : StartEvent n) : Served worker (s.step e) := by
  cases e with
  | addTask k =>
    rw [EventLoopThreadPool.step, h.builder]
    exact h
  | wait =>
    rw [EventLoopThreadPool.step, if_neg (by simp [h.builder])]
    exact h
  | waitAgain =>
    rw [EventLoopThreadPool.step]
    split
    · exact h
    · rw [if_neg (by simp [h.builder])]
      exact h
  | wakeBuilder => exact ⟨h.runs, h.queue, h.builder, h.slot, h.stage, h.up, h.cnt, h.robin⟩
  | look j =>
    rw [EventLoopThreadPool.step]
    split
    · exact h
    · rename_i t ht
      split
      · rw [look_running h.runs ht]
        exact ⟨h.runs, h.queue, h.builder, h.slot, h.stage, h.up, h.cnt, h.robin⟩
      · exact h
  | take j k =>
    rw [EventLoopThreadPool.step]
    split
    · exact h
    · rename_i t ht
      exact h.handOut (hands_take h.runs ht k)
  | takeAgain j k =>
    rw [EventLoopThreadPool.step]
    split
    · exact h
    · rename_i t notEmpty hresume
      exact h.handOut (hands_takeAgain h.runs hresume k)
  | wakeWorker k => exact ⟨h.runs, h.queue, h.builder, h.slot, h.stage, h.up, h.cnt, h.robin⟩
  | store t =>
    rw [EventLoopThreadPool.step]
    split
    · rename_i ret ht
      cases h.stage t ret .started ht
    · exact h
  | callback t =>
    rw [EventLoopThreadPool.step]
    split
    · rename_i ret ht
      cases h.stage t ret .stored ht
    · exact h
  | countDown t =>
    rw [EventLoopThreadPool.step]
    split
    · rename_i ret ht
      cases h.stage t ret .called ht
    · exact h
  | quit t => exact h.quit t
  | loopReturns t => exact h.loopReturns t
  | getNextLoop =>
    rw [EventLoopThreadPool.step, if_pos h.builder]
    exact h.getNextLoop hn

/-! ## Every run -/

/-- Before and after. -/
def Phases (s : EventLoopThreadPool n) : Prop := s.Starting ∨ ∃ worker, Served worker s

theorem Phases.step (h : s.Phases) (hn : 0 < n) (e : StartEvent n) (he : s.Quiet e) :
    (s.step e).Phases := by
  rcases h with h | ⟨worker, h⟩
  · rcases h.step e he with h | ⟨-, worker, -, h⟩
    · exact .inl h
    · exact .inr ⟨worker, h⟩
  · exact .inr ⟨worker, h.step hn e⟩

theorem Phases.robin (h : s.Phases) : s.RoundRobin s.results.length := by
  rcases h with h | ⟨worker, h⟩
  · refine ⟨rfl, fun k hk => ?_⟩
    rw [h.unasked.2] at hk
    cases hk
  · exact h.robin

/-- Nothing but a call of `getNextLoop` adds to what has been returned. -/
theorem length_results_step (s : EventLoopThreadPool n) (e : StartEvent n) :
    (s.step e).results.length = s.results.length + if s.Asks e then 1 else 0 := by
  cases e with
  | getNextLoop =>
    by_cases hb : s.builder = .returned
    · rw [if_pos ⟨rfl, hb⟩, EventLoopThreadPool.step, if_pos hb]
      exact List.length_append
    · rw [if_neg fun hasks => hb hasks.2, EventLoopThreadPool.step, if_neg hb, Nat.add_zero]
  | _ =>
    rw [if_neg (by simp [Asks]), Nat.add_zero, EventLoopThreadPool.step]
    repeat' split
    all_goals first | rfl | (rw [wait]; split <;> rfl)

theorem Returns.allStarted (h : s.Returns) : s.AllStarted := by
  obtain ⟨hlive, worker, hinj, hserved⟩ := h
  exact ⟨worker, hinj, fun i => ⟨(hserved.slot i).1, (hserved.slot i).2, hserved.up i (hlive _)⟩⟩

/-- **The pool starts every loop.**  Whatever the order in which the constructor and the workers take their
steps, when `initLatch.wait()` returns each slot of `_loops` has been written once, by a worker of its own
that is in its loop or about to enter it; from then on a call of `getNextLoop` that comes after `k` others
returns the loop in slot `k mod n`; and at any time just so many loops have been returned as there have been
calls. -/
theorem loops_started (n : ℕ) (hn : 0 < n) (es : List (StartEvent n)) (hes : Meets step Quiet (new n hn) es) :
    (∀ js e, js ++ [e] <+: es → (run step (new n hn) js).builder ≠ .returned →
        (run step (new n hn) (js ++ [e])).builder = .returned →
        (run step (new n hn) (js ++ [e])).AllStarted)
      ∧ (∀ js, js ++ [.getNextLoop] <+: es → (run step (new n hn) js).builder = .returned →
        ∃ loop, (run step (new n hn) js).Next (tally step Asks (new n hn) js) loop
          ∧ (run step (new n hn) (js ++ [.getNextLoop])).results
            = (run step (new n hn) js).results ++ [some loop])
      ∧ ∀ js, js <+: es → (run step (new n hn) js).RoundRobin (tally step Asks (new n hn) js) := by
  have hphases : ∀ js, js <+: es → (run step (new n hn) js).Phases := fun js hjs =>
    inv_run (fun s e h he => h.step hn e he) (.inl (starting_new n hn)) (hes.of_prefix hjs)
  have hcalls : ∀ js, (run step (new n hn) js).results.length = tally step Asks (new n hn) js := fun js =>
    (eq_add_tally (fun s : EventLoopThreadPool n => s.results.length) length_results_step _ js).trans
      (Nat.zero_add _)
  refine ⟨fun js e hjs hbefore hafter => ?_, fun js hjs hreturned => ?_, fun js hjs => ?_⟩
  · have hquiet : (run step (new n hn) js).Quiet e := (hes.of_prefix hjs).of_append.1
    rcases hphases js ((List.prefix_append js [e]).trans hjs) with hs | ⟨worker, hs⟩
    · rw [run_append] at hafter ⊢
      rcases hs.step e hquiet with hstarting | hreturns
      · exact absurd hafter hstarting.builder_ne
      · exact hreturns.allStarted
    · exact absurd hs.builder hbefore
  · rcases hphases js ((List.prefix_append js _).trans hjs) with hs | ⟨worker, hs⟩
    · exact absurd hreturned hs.builder_ne
    · rw [← hcalls, run_append, run_cons, run_nil, step, if_pos hreturned]
      exact hs.results_getNextLoop hn
  · rw [← hcalls]
    exact (hphases js hjs).robin

/-- The first worker takes its task before the second is queued, the second counts down first, and the
constructor waits for both. -/
def twoWorkers : List (StartEvent 2) :=
  [.addTask 0, .look 0, .take 0 0, .store 0, .addTask 0, .look 0, .take 0 0, .store 1, .callback 1,
    .countDown 1, .wait, .callback 0, .countDown 0, .waitAgain, .getNextLoop, .getNextLoop, .quit 0,
    .loopReturns 0, .getNextLoop]

theorem loops_started_two :
    (∀ js e, js ++ [e] <+: twoWorkers → (run step (new 2 Nat.two_pos) js).builder ≠ .returned →
        (run step (new 2 Nat.two_pos) (js ++ [e])).builder = .returned →
        (run step (new 2 Nat.two_pos) (js ++ [e])).AllStarted)
      ∧ (∀ js, js ++ [.getNextLoop] <+: twoWorkers → (run step (new 2 Nat.two_pos) js).builder = .returned →
        ∃ loop, (run step (new 2 Nat.two_pos) js).Next (tally step Asks (new 2 Nat.two_pos) js) loop
          ∧ (run step (new 2 Nat.two_pos) (js ++ [.getNextLoop])).results
            = (run step (new 2 Nat.two_pos) js).results ++ [some loop])
      ∧ ∀ js, js <+: twoWorkers →
        (run step (new 2 Nat.two_pos) js).RoundRobin (tally step Asks (new 2 Nat.two_pos) js) := by
  have hquiet : Meets step Quiet (new 2 Nat.two_pos) twoWorkers := by
    simp only [twoWorkers, meets_cons, meets_nil, Quiet, true_and, and_true]
    decide
  exact loops_started 2 Nat.two_pos twoWorkers hquiet

example : (run step (new 2 Nat.two_pos) twoWorkers).results = [some 0, some 1, some 0] := by decide

end EventLoopThreadPool
