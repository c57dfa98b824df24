import Rpx.Core.EventLoopThreadPool
import Rpx.Machinery.Progress

/-!
# Core/PoolStart — the constructor of the pool comes to its end

    8 · unqueued + 6 · queued + Σ tasks + 3 · idle + 2 · entering + woken + builder

Each step of the constructor, and each step of a worker on its way to a task or on with it, takes
something away from this sum, and only a thread that wakes for no reason adds to it.  And until
`initLatch.wait()` returns somebody can take such a step: a task that is queued has a worker to come for
it that is not in another loop already, and one that has been taken is counted down.
-/

open Machinery

namespace EventLoopThreadPool

variable {n : ℕ} {s : EventLoopThreadPool n}

/-- How far a worker is with its task, if it has one. -/
def stage (s : EventLoopThreadPool n) (t : Fin n) : Option TaskStage := (s.tasks t).map Prod.snd

/-- **A step that gets the start of the pool on.** -/
def Advances (s : EventLoopThreadPool n) : StartEvent n → Prop
  | .addTask _ => ∃ i < n, s.builder = .adding i
  | .wait => s.builder = .adding n
  | .waitAgain => s.builder = .blocked ∧ s.initLatch.cond.woken ≠ []
  | .look i => ∃ t ∈ s.pool.outside[i]?, s.tasks t = none
  | .take i _ => i < s.pool.entering.length
  | .takeAgain i _ => i < s.pool.notEmpty.woken.length
  | .store t => s.stage t = some .started
  | .callback t => s.stage t = some .stored
  | .countDown t => s.stage t = some .called
  | _ => False

instance (s : EventLoopThreadPool n) : ∀ e, Decidable (s.Advances e)
  | .addTask _ => inferInstanceAs (Decidable (∃ i < n, s.builder = .adding i))
  | .wait => inferInstanceAs (Decidable (_ = _))
  | .waitAgain => inferInstanceAs (Decidable (_ ∧ _))
  | .look i => inferInstanceAs (Decidable (∃ t ∈ s.pool.outside[i]?, s.tasks t = none))
  | .take _ _ => inferInstanceAs (Decidable (_ < _))
  | .takeAgain _ _ => inferInstanceAs (Decidable (_ < _))
  | .store _ => inferInstanceAs (Decidable (_ = _))
  | .callback _ => inferInstanceAs (Decidable (_ = _))
  | .countDown _ => inferInstanceAs (Decidable (_ = _))
  | .wakeBuilder | .wakeWorker _ | .quit _ | .loopReturns _ | .getNextLoop => inferInstanceAs (Decidable False)

/-- A thread wakes for no reason. -/
def Wakes (_ : EventLoopThreadPool n) : StartEvent n → Prop
  | .wakeBuilder | .wakeWorker _ => True
  | _ => False

instance (s : EventLoopThreadPool n) : ∀ e, Decidable (s.Wakes e)
  | .wakeBuilder | .wakeWorker _ => inferInstanceAs (Decidable True)
  | .addTask _ | .wait | .waitAgain | .look _ | .take _ _ | .takeAgain _ _ | .store _ | .callback _
  | .countDown _ | .quit _ | .loopReturns _ | .getNextLoop => inferInstanceAs (Decidable False)

/-! ## What is left to do -/

/-- The steps left of a task, and one more for the constructor that the last of them wakes. -/
def TaskStage.load : Option TaskStage → ℕ
  | some .started => 4
  | some .stored => 3
  | some .called => 2
  | some .looping | none => 0

/-- The workers that run no task, and are about to look at `running`. -/
def idle (outside : List (Fin n)) (tasks : Fin n → Option (Fin n × TaskStage)) : List (Fin n) :=
  outside.filter fun t => (tasks t).isNone

def load (tasks : Fin n → Option (Fin n × TaskStage)) : ℕ :=
  ∑ t, TaskStage.load ((tasks t).map Prod.snd)

/-- What the constructor has left to do itself, apart from adding tasks. -/
def builderWork (s : EventLoopThreadPool n) : ℕ :=
  match s.builder with
  | .adding _ => 1
  | .blocked => s.initLatch.cond.woken.length
  | .returned => 0

/-- What is left to do until every task has been counted down. -/
def poolWork (p : ThreadPool (Fin n) (Fin n)) (tasks : Fin n → Option (Fin n × TaskStage)) : ℕ :=
  8 * (n - p.accepted.length) + 6 * p.taskQueue.length + load tasks
    + 3 * (idle p.outside tasks).length + 2 * p.entering.length + p.notEmpty.woken.length

/-- **What is left to do until the constructor returns.** -/
def work (s : EventLoopThreadPool n) : ℕ := poolWork s.pool s.tasks + s.builderWork

/-- Nothing, once it has. -/
def remaining (s : EventLoopThreadPool n) : ℕ := if s.builder = .returned then 0 else s.work

/-- One task is got on with. -/
theorem load_update (tasks : Fin n → Option (Fin n × TaskStage)) (t : Fin n) (x : Option (Fin n × TaskStage)) :
    load (Function.update tasks t x) + TaskStage.load ((tasks t).map Prod.snd)
      = load tasks + TaskStage.load (x.map Prod.snd) := by
  have hcomp : (fun t' => TaskStage.load ((Function.update tasks t x t').map Prod.snd))
      = Function.update (fun t' => TaskStage.load ((tasks t').map Prod.snd)) t
          (TaskStage.load (x.map Prod.snd)) := by
    funext t'
    rcases eq_or_ne t' t with rfl | hne
    · simp
    · simp [hne]
  have hsum := Finset.sum_update_of_mem (Finset.mem_univ t)
    (fun t' => TaskStage.load ((tasks t').map Prod.snd)) (TaskStage.load (x.map Prod.snd))
  have hsplit := Finset.sum_sdiff (Finset.subset_univ {t})
    (f := fun t' => TaskStage.load ((tasks t').map Prod.snd))
  rw [Finset.sum_singleton] at hsplit
  rw [load, load, hcomp, hsum, ← hsplit]
  omega

/-- **What holds until the constructor returns, besides `Starting`.** -/
structure Onward (s : EventLoopThreadPool n) : Prop where
  starting : s.Starting
  /-- Each task handed out has its worker. -/
  owned : ∀ i ∈ s.pool.handed, ∃ t g, s.tasks t = some (i, g)
  /-- Each task queued has a worker to come for it that runs none, as long as one is blocked. -/
  served : s.pool.notEmpty.Covered s.pool.taskQueue.length
    ((idle s.pool.outside s.tasks).length + s.pool.entering.length)
  /-- The constructor is blocked only while the latch is up… -/
  latched : s.initLatch.cond.waiting ≠ [] → 0 < s.initLatch.count
  /-- …and is nowhere else then. -/
  waiter : s.initLatch.cond.waiting.length + s.initLatch.cond.woken.length
    = if s.builder = .blocked then 1 else 0

theorem onward_new (n : ℕ) (hn : 0 < n) : (new n hn).Onward := by
  refine ⟨starting_new n hn, fun i hi => ?_, CondVar.covered_of_nil rfl, fun hne => absurd rfl hne, rfl⟩
  cases hi

/-- What one step that gets the start on does. -/
structure Advanced (s s' : EventLoopThreadPool n) : Prop where
  onward : s'.builder = .returned ∨ s'.Onward
  less : s'.remaining < s.remaining

theorem Onward.remaining_eq (h : s.Onward) : s.remaining = s.work := if_neg h.starting.builder_ne

theorem remaining_le_work (s : EventLoopThreadPool n) : s.remaining ≤ s.work := by
  rw [remaining]
  split
  · exact Nat.zero_le _
  · exact le_rfl

theorem Onward.advanced (h : s.Onward) {s' : EventLoopThreadPool n}
    (honward : s'.builder = .returned ∨ s'.Onward) (hless : s'.work < s.work) : s.Advanced s' :=
  ⟨honward, (remaining_le_work s').trans_lt (h.remaining_eq ▸ hless)⟩

theorem length_woken_notifyOne_le {τ : Type} (c : CondVar τ) (k : ℕ) :
    (c.notifyOne k).woken.length ≤ c.woken.length + 1 := by
  by_cases hnil : c.waiting = []
  · rw [CondVar.waiting_notifyOne_of_nil hnil]
    exact Nat.le_succ _
  · exact (CondVar.length_woken_notifyOne hnil k).le

/-! ## The constructor -/

/-- **The next task is queued**, and a worker that is blocked is woken for it. -/
theorem Onward.addTask (h : s.Onward) {k : ℕ} (ha : s.Advances (.addTask k)) :
    s.Advanced (s.step (.addTask k)) := by
  obtain ⟨j, hj, hbuilder⟩ := ha
  have hstarting := h.starting.addTask k
  obtain ⟨k', -, haccepted, hk'⟩ := h.starting.building
  have hlength : s.pool.accepted.length = j := by
    rcases hk' with hk' | ⟨-, hk'⟩
    · obtain rfl := BuilderPhase.adding.inj (hbuilder.symm.trans hk')
      rw [haccepted, List.length_take, List.length_finRange]
      exact Nat.min_eq_left hj.le
    · cases hbuilder.symm.trans hk'
  rw [step, hbuilder] at hstarting ⊢
  dsimp only at hstarting ⊢
  rw [dif_pos hj, addTask_unbounded h.starting.runs h.starting.maxQueueSize] at hstarting ⊢
  refine h.advanced (.inr ⟨hstarting, h.owned, ?_, h.latched, ?_⟩) ?_
  · have hserved := h.served.notifyOne k
    simpa using hserved
  · have hwaiter := h.waiter
    rw [hbuilder, if_neg (by simp)] at hwaiter
    rw [if_neg (by simp)]
    exact hwaiter
  · have hwoken := length_woken_notifyOne_le s.pool.notEmpty k
    simp only [work, poolWork, builderWork, hbuilder, List.length_append, List.length_singleton, hlength]
    omega

/-- **`initLatch.wait()`** blocks, or returns. -/
theorem Onward.wait {r : EventLoopThreadPool n} (h : s.Onward) (hr : r.Starting)
    (hbuilder : r.builder = .adding n ∨ r.builder = .blocked) (hpool : r.pool = s.pool)
    (htasks : r.tasks = s.tasks) (hwaiting : r.initLatch.cond.waiting = [])
    (hwoken : r.initLatch.cond.woken = []) (hwork : 0 < s.builderWork) : s.Advanced r.wait := by
  have hwait := hr.wait hbuilder
  rw [EventLoopThreadPool.wait] at hwait ⊢
  split at hwait
  · rename_i hpos
    rw [if_pos hpos]
    have hstarting := hwait.resolve_right fun hreturns => by
      obtain ⟨-, worker, -, hserved⟩ := hreturns
      cases hserved.builder
    refine h.advanced (.inr ⟨hstarting, hpool ▸ htasks ▸ h.owned, hpool ▸ htasks ▸ h.served,
      fun _ => hpos, ?_⟩) ?_
    · simp [CondVar.wait, hwaiting, hwoken]
    · have hzero : builderWork { r with
          initLatch := { r.initLatch with cond := r.initLatch.cond.wait () }, builder := .blocked } = 0 := by
        show (r.initLatch.cond.wait ()).woken.length = 0
        rw [CondVar.wait, hwoken]
        rfl
      rw [work, work, hzero]
      dsimp only
      rw [hpool, htasks]
      omega
  · rename_i hdone
    rw [if_neg hdone]
    refine h.advanced (.inl rfl) ?_
    have hzero : builderWork { r with builder := .returned } = 0 := rfl
    rw [work, work, hzero]
    dsimp only
    rw [hpool, htasks]
    omega

theorem Onward.waitFirst (h : s.Onward) (ha : s.Advances .wait) : s.Advanced (s.step .wait) := by
  have hbuilder : s.builder = .adding n := ha
  have hwaiter := h.waiter
  rw [hbuilder, if_neg (by simp)] at hwaiter
  rw [step, if_pos hbuilder]
  refine h.wait h.starting (.inl hbuilder) rfl rfl ?_ ?_ ?_
  · exact List.length_eq_zero_iff.mp (by omega)
  · exact List.length_eq_zero_iff.mp (by omega)
  · rw [builderWork, hbuilder]
    exact Nat.one_pos

theorem Onward.waitAgain (h : s.Onward) (ha : s.Advances .waitAgain) : s.Advanced (s.step .waitAgain) := by
  obtain ⟨hbuilder, hwoken⟩ := ha
  have hwaiter := h.waiter
  rw [hbuilder, if_pos rfl] at hwaiter
  have hpos := List.length_pos_iff.mpr hwoken
  rw [step]
  split
  · rename_i hnone
    rw [CondVar.resume, Option.map_eq_none_iff, List.getElem?_eq_none_iff] at hnone
    omega
  · rename_i cond hresume
    obtain ⟨hwaiting, hperm⟩ := CondVar.perm_resume hresume
    have hlength := hperm.length_eq
    rw [List.length_cons] at hlength
    rw [if_pos hbuilder]
    refine h.wait (h.starting.of_cond cond) (.inr hbuilder) rfl rfl ?_ ?_ ?_
    · show cond.waiting = []
      rw [hwaiting]
      exact List.length_eq_zero_iff.mp (by omega)
    · exact List.length_eq_zero_iff.mp (by show cond.woken.length = 0; omega)
    · rw [builderWork, hbuilder]
      exact hpos

/-! ## The workers -/

/-- A worker that is idle looks at `running`, and goes on to `take()`. -/
theorem length_idle_eraseIdx {outside : List (Fin n)} {tasks : Fin n → Option (Fin n × TaskStage)} {i : ℕ}
    (hlt : i < outside.length) (hfree : tasks outside[i] = none) :
    (idle (outside.eraseIdx i) tasks).length + 1 = (idle outside tasks).length := by
  have hperm := (List.getElem_cons_eraseIdx_perm hlt).filter fun t => (tasks t).isNone
  rw [List.filter_cons_of_pos (by simp [hfree])] at hperm
  exact hperm.length_eq

theorem Onward.look (h : s.Onward) {i : ℕ} (ha : s.Advances (.look i)) : s.Advanced (s.step (.look i)) := by
  obtain ⟨t, ht, hfree⟩ := ha
  obtain ⟨hlt, rfl⟩ := List.getElem?_eq_some_iff.mp ht
  have hstarting := h.starting.look i
  have hidle := length_idle_eraseIdx hlt hfree
  rw [step, ht] at hstarting ⊢
  dsimp only at hstarting ⊢
  rw [if_pos hfree, look_running h.starting.runs ht] at hstarting ⊢
  refine h.advanced (.inr ⟨hstarting, h.owned, h.served.mono le_rfl ?_, h.latched, h.waiter⟩) ?_
  · show _ ≤ (idle (s.pool.outside.eraseIdx i) s.tasks).length + (s.pool.entering ++ [_]).length
    rw [List.length_append, List.length_singleton]
    omega
  · show poolWork { s.pool with
        outside := s.pool.outside.eraseIdx i, entering := s.pool.entering ++ [s.pool.outside[i]] } s.tasks
      + s.builderWork < poolWork s.pool s.tasks + s.builderWork
    simp only [poolWork, List.length_append, List.length_singleton]
    omega

/-- **What a worker that has the lock leaves behind in the monitor.** -/
structure Took (t : Fin n) (r p : ThreadPool (Fin n) (Fin n)) : Prop where
  entering : p.entering = r.entering
  blocks : r.taskQueue = [] → p.notEmpty = r.notEmpty.wait t
  takes : r.taskQueue ≠ [] → p.notEmpty = r.notEmpty

theorem took {r : ThreadPool (Fin n) (Fin n)} (hrun : r.running = true) (t : Fin n) (k : ℕ) :
    Took t r (r.take t k) := by
  rw [ThreadPool.take]
  split
  · rename_i hwait
    have hempty : r.taskQueue = [] := List.isEmpty_iff.mp (Bool.and_eq_true_iff.mp hwait).1
    exact ⟨rfl, fun _ => rfl, fun hne => absurd hempty hne⟩
  · rename_i hgo
    split
    · rename_i hnil
      exact absurd (by simp [hnil, hrun]) hgo
    · rename_i task rest hqueue
      exact ⟨rfl, fun hnil => absurd (hqueue.symm.trans hnil) (List.cons_ne_nil task rest), fun _ => rfl⟩

/-- **A worker takes the lock in `take()`**; `r` is the monitor without it. -/
theorem Onward.handOut (h : s.Onward) {t : Fin n} {r p : ThreadPool (Fin n) (Fin n)}
    (hstarting : (s.handOut t p).Starting) (hout : t ∉ s.pool.outside) (hands : Hands t s.pool p)
    (htook : Took t r p) (hqueue : r.taskQueue = s.pool.taskQueue)
    (hserved : r.notEmpty.Covered s.pool.taskQueue.length
      ((idle s.pool.outside s.tasks).length + r.entering.length + 1))
    (hless : 2 * r.entering.length + r.notEmpty.woken.length
      < 2 * s.pool.entering.length + s.pool.notEmpty.woken.length) :
    s.Advanced (s.handOut t p) := by
  cases hq : s.pool.taskQueue with
  | nil =>
    obtain ⟨hqueue', hout', hhanded⟩ := hands.blocks hq
    have hnotEmpty := htook.blocks (hqueue.trans hq)
    have hsame : s.handOut t p = { s with pool := p } := by rw [EventLoopThreadPool.handOut, hq]
    rw [hsame] at hstarting ⊢
    refine h.advanced (.inr ⟨hstarting, hhanded ▸ h.owned, ?_, h.latched, h.waiter⟩) ?_
    · dsimp only
      rw [hnotEmpty, hqueue']
      exact r.notEmpty.covered_wait t _
    · rw [work, work]
      show poolWork _ _ + s.builderWork < poolWork _ _ + s.builderWork
      rw [poolWork, poolWork, hands.accepted, hqueue', hout', htook.entering, hnotEmpty, hq]
      show _ + r.notEmpty.woken.length + _ < _
      dsimp only
      omega
  | cons slot rest =>
    obtain ⟨hqueue', hout', hhanded⟩ := hands.takes slot rest hq
    have hnotEmpty := htook.takes (by rw [hqueue, hq]; exact List.cons_ne_nil slot rest)
    have hfree : s.tasks t = none := by
      by_contra hbusy
      obtain ⟨⟨i, g⟩, ht⟩ := Option.ne_none_iff_exists'.mp hbusy
      exact hout (h.starting.busy t i g ht).1
    have hsame : s.handOut t p
        = { s with pool := p, tasks := Function.update s.tasks t (some (slot, .started)) } := by
      rw [EventLoopThreadPool.handOut, hq]
    have hidle : idle p.outside (Function.update s.tasks t (some (slot, .started)))
        = idle s.pool.outside s.tasks := by
      rw [idle, idle, hout', List.filter_append, List.filter_singleton, Function.update_self]
      refine (List.append_nil _).trans ?_
      refine List.filter_congr fun t' ht' => ?_
      rw [Function.update_of_ne (by rintro rfl; exact hout ht')]
    have hload := load_update s.tasks t (some (slot, .started))
    rw [hfree] at hload
    simp only [Option.map_none, Option.map_some, TaskStage.load] at hload
    rw [hsame] at hstarting ⊢
    refine h.advanced (.inr ⟨hstarting, fun i hi => ?_, ?_, h.latched, h.waiter⟩) ?_
    · change i ∈ p.handed at hi
      rw [hhanded, List.mem_append, List.mem_singleton] at hi
      rcases hi with hi | rfl
      · obtain ⟨t', g, ht'⟩ := h.owned i hi
        refine ⟨t', g, (Function.update_of_ne ?_ ..).trans ht'⟩
        rintro rfl
        cases hfree.symm.trans ht'
      · exact ⟨t, .started, Function.update_self ..⟩
    · dsimp only
      rw [hnotEmpty, hqueue', hidle, htook.entering]
      rw [hq, List.length_cons] at hserved
      exact hserved.take
    · rw [work, work]
      show poolWork _ _ + s.builderWork < poolWork _ _ + s.builderWork
      dsimp only
      rw [poolWork, poolWork, hands.accepted, hqueue', hidle, htook.entering, hnotEmpty, hq, List.length_cons]
      omega

theorem Onward.take (h : s.Onward) {i k : ℕ} (ha : s.Advances (.take i k)) :
    s.Advanced (s.step (.take i k)) := by
  have hlt : i < s.pool.entering.length := ha
  have ht := List.getElem?_eq_getElem hlt
  have hlength := List.length_eraseIdx_add_one hlt
  have hin : s.pool.entering[i] ∈ s.pool.entering ++ (s.pool.notEmpty.waiting ++ s.pool.notEmpty.woken) :=
    List.mem_append_left _ (List.getElem_mem hlt)
  have hout := not_outside h.starting.sound h.starting.runs hin
  have hhands := hands_take h.starting.runs ht k
  have hstarting := h.starting.handOut hout (h.starting.sound.step (.take i k)) hhands
  have htook := took (r := { s.pool with entering := s.pool.entering.eraseIdx i }) h.starting.runs
    s.pool.entering[i] k
  have hpool : s.pool.step (.take i k)
      = { s.pool with entering := s.pool.entering.eraseIdx i }.take s.pool.entering[i] k := by
    rw [ThreadPool.step, ht]
  rw [← hpool] at htook
  rw [step, ht]
  refine h.handOut hstarting hout hhands htook rfl (h.served.mono le_rfl ?_) ?_
  · dsimp only
    omega
  · dsimp only
    omega

theorem Onward.takeAgain (h : s.Onward) {i k : ℕ} (ha : s.Advances (.takeAgain i k)) :
    s.Advanced (s.step (.takeAgain i k)) := by
  have hlt : i < s.pool.notEmpty.woken.length := ha
  have hresume : s.pool.notEmpty.resume i = some (s.pool.notEmpty.woken[i],
      { s.pool.notEmpty with woken := s.pool.notEmpty.woken.eraseIdx i }) := by
    rw [CondVar.resume, List.getElem?_eq_getElem hlt]
    rfl
  have hlength := List.length_eraseIdx_add_one hlt
  have hin : s.pool.notEmpty.woken[i] ∈
      s.pool.entering ++ (s.pool.notEmpty.waiting ++ s.pool.notEmpty.woken) :=
    List.mem_append_right _ (List.mem_append_right _ (List.getElem_mem hlt))
  have hout := not_outside h.starting.sound h.starting.runs hin
  have hhands := hands_takeAgain h.starting.runs hresume k
  have hstarting := h.starting.handOut hout (h.starting.sound.step (.takeAgain i k)) hhands
  have htook := took (r := { s.pool with notEmpty :=
    { s.pool.notEmpty with woken := s.pool.notEmpty.woken.eraseIdx i } }) h.starting.runs
    s.pool.notEmpty.woken[i] k
  have hpool : s.pool.step (.takeAgain i k)
      = { s.pool with notEmpty :=
            { s.pool.notEmpty with woken := s.pool.notEmpty.woken.eraseIdx i } }.take
          s.pool.notEmpty.woken[i] k := by
    rw [ThreadPool.step, hresume]
  rw [← hpool] at htook
  rw [step, hresume]
  refine h.handOut hstarting hout hhands htook rfl (h.served.resume hresume) ?_
  dsimp only
  omega

/-- **A worker gets on with its task.** -/
theorem Onward.getsOn (h : s.Onward) {s' : EventLoopThreadPool n} {t i : Fin n} {g g' : TaskStage}
    (hstarting : s'.Starting) (ht : s.tasks t = some (i, g)) (hpool : s'.pool = s.pool)
    (htasks : s'.tasks = Function.update s.tasks t (some (i, g')))
    (hlatched : s'.initLatch.cond.waiting ≠ [] → 0 < s'.initLatch.count)
    (hwaiter : s'.initLatch.cond.waiting.length + s'.initLatch.cond.woken.length
      = if s'.builder = .blocked then 1 else 0)
    (hless : TaskStage.load (some g') + s'.builderWork < TaskStage.load (some g) + s.builderWork) :
    s.Advanced s' := by
  have hidle : idle s.pool.outside (Function.update s.tasks t (some (i, g')))
      = idle s.pool.outside s.tasks := by
    refine List.filter_congr fun t' _ => ?_
    rcases eq_or_ne t' t with rfl | hne
    · rw [Function.update_self, ht]
      rfl
    · rw [Function.update_of_ne hne]
  have hload := load_update s.tasks t (some (i, g'))
  rw [ht, Option.map_some, Option.map_some] at hload
  refine h.advanced (.inr ⟨hstarting, fun j hj => ?_, ?_, hlatched, hwaiter⟩) ?_
  · rw [hpool] at hj
    rw [htasks]
    obtain ⟨t', g₁, ht'⟩ := h.owned j hj
    rcases eq_or_ne t' t with rfl | hne
    · obtain ⟨rfl, -⟩ := Prod.ext_iff.mp (Option.some.inj (ht.symm.trans ht'))
      exact ⟨t', g', Function.update_self ..⟩
    · exact ⟨t', g₁, (Function.update_of_ne hne ..).trans ht'⟩
  · rw [hpool, htasks, hidle]
    exact h.served
  · rw [work, work, hpool, htasks, poolWork, poolWork, hidle]
    dsimp only at hload
    omega

theorem exists_of_stage {t : Fin n} {g : TaskStage} (h : s.stage t = some g) :
    ∃ i, s.tasks t = some (i, g) := by
  obtain ⟨⟨i, g'⟩, ht, rfl⟩ := Option.map_eq_some_iff.mp h
  exact ⟨i, ht⟩

theorem Onward.store (h : s.Onward) {t : Fin n} (ha : s.Advances (.store t)) :
    s.Advanced (s.step (.store t)) := by
  obtain ⟨ret, ht⟩ := exists_of_stage ha
  have hstarting := h.starting.store t
  rw [step, ht] at hstarting ⊢
  exact h.getsOn hstarting ht rfl rfl h.latched h.waiter (Nat.add_lt_add_right (by decide) s.builderWork)

theorem Onward.callback (h : s.Onward) {t : Fin n} (ha : s.Advances (.callback t)) :
    s.Advanced (s.step (.callback t)) := by
  obtain ⟨ret, ht⟩ := exists_of_stage ha
  have hstarting := h.starting.callback t
  rw [step, ht] at hstarting ⊢
  exact h.getsOn hstarting ht rfl rfl h.latched h.waiter (Nat.add_lt_add_right (by decide) s.builderWork)

/-- **The last to count down wakes the constructor**, if it is blocked. -/
theorem Onward.countDown (h : s.Onward) {t : Fin n} (ha : s.Advances (.countDown t)) :
    s.Advanced (s.step (.countDown t)) := by
  obtain ⟨ret, ht⟩ := exists_of_stage ha
  have hwaiter := h.waiter
  have hstarting := h.starting.countDown t
  have htasks : (s.step (.countDown t)).tasks = Function.update s.tasks t (some (ret, .looping)) := by
    rw [step, ht]
  rw [step, ht] at hstarting htasks ⊢
  refine h.getsOn hstarting ht rfl htasks (fun hne => ?_) ?_ ?_
  · change (s.initLatch.countDown).cond.waiting ≠ [] at hne
    show 0 < s.initLatch.count - 1
    rw [CountDownLatch.countDown] at hne
    dsimp only at hne
    split at hne
    · exact absurd rfl hne
    · have hpos := h.latched hne
      omega
  · show (s.initLatch.countDown).cond.waiting.length + (s.initLatch.countDown).cond.woken.length
      = if s.builder = .blocked then 1 else 0
    rw [CountDownLatch.countDown]
    dsimp only
    split
    · simp only [CondVar.notifyAll, List.length_append, List.length_nil]
      omega
    · exact hwaiter
  · have hone : (if s.builder = .blocked then 1 else 0) ≤ 1 := by split <;> omega
    have hbuilder : builderWork { s with
        tasks := Function.update s.tasks t (some (ret, .looping))
        initLatch := s.initLatch.countDown } ≤ s.builderWork + 1 := by
      rw [builderWork, builderWork]
      dsimp only
      split
      · exact Nat.le_succ _
      · show (s.initLatch.countDown).cond.woken.length ≤ s.initLatch.cond.woken.length + 1
        rw [CountDownLatch.countDown]
        dsimp only
        split
        · rw [CondVar.notifyAll, List.length_append]
          omega
        · exact Nat.le_succ _
      · exact Nat.zero_le _
    simp only [TaskStage.load]
    omega

/-! ## Every step -/

/-- A step that does not get the start on, and is nobody's waking up, does nothing. -/
theorem step_eq_self (h : s.Onward) {e : StartEvent n} (he : s.Quiet e) (hno : ¬ s.Advances e)
    (hw : ¬ s.Wakes e) : s.step e = s := by
  cases e with
  | addTask k =>
    rw [step]
    split
    · rename_i i hbuilder
      exact dif_neg fun hi => hno ⟨i, hi, hbuilder⟩
    · rfl
  | wait => exact if_neg hno
  | waitAgain =>
    rw [step]
    split
    · rfl
    · rename_i cond hresume
      refine if_neg fun hbuilder => hno ⟨hbuilder, fun hnil => ?_⟩
      rw [CondVar.resume, hnil] at hresume
      cases hresume
  | look i =>
    rw [step]
    split
    · rfl
    · rename_i t ht
      exact if_neg fun hfree => hno ⟨t, ht, hfree⟩
  | take i k =>
    rw [step, List.getElem?_eq_none_iff.mpr (Nat.not_lt.mp hno)]
  | takeAgain i k =>
    rw [step, CondVar.resume, List.getElem?_eq_none_iff.mpr (Nat.not_lt.mp hno)]
    rfl
  | store t =>
    rw [step]
    split
    · rename_i ret ht
      exact absurd (congrArg (Option.map Prod.snd) ht) hno
    · rfl
  | callback t =>
    rw [step]
    split
    · rename_i ret ht
      exact absurd (congrArg (Option.map Prod.snd) ht) hno
    · rfl
  | countDown t =>
    rw [step]
    split
    · rename_i ret ht
      exact absurd (congrArg (Option.map Prod.snd) ht) hno
    · rfl
  | wakeBuilder => exact absurd trivial hw
  | wakeWorker k => exact absurd trivial hw
  | quit t => exact absurd he h.starting.builder_ne
  | loopReturns t =>
    rw [step]
    split
    · exact if_pos (h.starting.live t)
    · rfl
  | getNextLoop => exact if_neg h.starting.builder_ne

theorem Onward.step_advances (h : s.Onward) {e : StartEvent n} (ha : s.Advances e) : s.Advanced (s.step e) := by
  cases e with
  | addTask k => exact h.addTask ha
  | wait => exact h.waitFirst ha
  | waitAgain => exact h.waitAgain ha
  | look i => exact h.look ha
  | take i k => exact h.take ha
  | takeAgain i k => exact h.takeAgain ha
  | store t => exact h.store ha
  | callback t => exact h.callback ha
  | countDown t => exact h.countDown ha
  | wakeBuilder | wakeWorker _ | quit _ | loopReturns _ | getNextLoop => exact absurd ha id

/-- **A thread that wakes for no reason** has to be put up with once more. -/
theorem Onward.step_wakes (h : s.Onward) {e : StartEvent n} (hw : s.Wakes e) :
    (s.step e).Onward ∧ (s.step e).remaining ≤ s.remaining + 1 := by
  cases e with
  | wakeBuilder =>
    have hwoken := length_woken_notifyOne_le s.initLatch.cond 0
    have hperm := (s.initLatch.cond.perm_notifyOne 0).length_eq
    rw [List.length_append, List.length_append] at hperm
    refine ⟨⟨h.starting.of_cond _, h.owned, h.served, fun hne => h.latched fun hnil => hne ?_,
      hperm.trans h.waiter⟩, (remaining_le_work _).trans ?_⟩
    · show (s.initLatch.cond.notifyOne 0).waiting = []
      rw [CondVar.waiting_notifyOne_of_nil hnil]
      exact hnil
    · have hbuilder : (s.step .wakeBuilder).builderWork ≤ s.builderWork + 1 := by
        rw [builderWork, builderWork, step]
        dsimp only
        split
        · exact Nat.le_succ _
        · exact hwoken
        · exact Nat.zero_le _
      rw [h.remaining_eq, work, work]
      exact Nat.add_le_add_left hbuilder _
  | wakeWorker k =>
    have hwoken := length_woken_notifyOne_le s.pool.notEmpty k
    have hstarting := (h.starting.step (.wakeWorker k) trivial).resolve_right fun hreturns => by
      obtain ⟨-, worker, -, hserved⟩ := hreturns
      exact h.starting.builder_ne hserved.builder
    refine ⟨⟨hstarting, h.owned, (h.served.notifyOne k).mono (Nat.le_succ _) le_rfl, h.latched, h.waiter⟩,
      (remaining_le_work _).trans ?_⟩
    rw [h.remaining_eq, work, work]
    show poolWork { s.pool with notEmpty := s.pool.notEmpty.notifyOne k } s.tasks + s.builderWork
      ≤ poolWork s.pool s.tasks + s.builderWork + 1
    simp only [poolWork]
    omega
  | _ => exact absurd hw id

/-- The constructor does not come back. -/
theorem builder_step_of_returned (h : s.builder = .returned) (e : StartEvent n) :
    (s.step e).builder = .returned := by
  cases e with
  | addTask k => rw [step, h]; exact h
  | wait => rw [step, if_neg (by simp [h])]; exact h
  | waitAgain =>
    rw [step]
    split
    · exact h
    · rw [if_neg (by simp [h])]
      exact h
  | look i =>
    rw [step]
    split
    · exact h
    · split <;> exact h
  | take i k | takeAgain i k =>
    rw [step]
    split <;> exact h
  | store t | callback t | countDown t =>
    rw [step]
    split <;> exact h
  | loopReturns t =>
    rw [step]
    split
    · split <;> exact h
    · exact h
  | getNextLoop =>
    rw [step, if_pos h, getNextLoop]
    split <;> exact h
  | wakeBuilder | wakeWorker _ | quit _ => exact h

/-! ## Somebody can always go on -/

/-- A worker whose task is not in its loop yet gets on with it. -/
theorem exists_advances_of_task {t i : Fin n} {g : TaskStage} (ht : s.tasks t = some (i, g))
    (hg : g ≠ .looping) : ∃ e, s.Advances e := by
  have hstage : s.stage t = some g := congrArg (Option.map Prod.snd) ht
  cases g with
  | started => exact ⟨.store t, hstage⟩
  | stored => exact ⟨.callback t, hstage⟩
  | called => exact ⟨.countDown t, hstage⟩
  | looping => exact absurd rfl hg

/-- **When the queue is empty**, each slot has its worker; were all of them in their loops, the latch would
be down. -/
theorem Onward.exists_task (h : s.Onward) (hhanded : ∀ i, i ∈ s.pool.handed) (hcount : 0 < s.initLatch.count) :
    ∃ t i g, s.tasks t = some (i, g) ∧ g ≠ .looping := by
  by_contra hnone
  have hlooping : ∀ i, ∃ t, s.tasks t = some (i, .looping) := by
    intro i
    obtain ⟨t, g, ht⟩ := h.owned i (hhanded i)
    have hg : g = .looping := not_not.mp fun hg => hnone ⟨t, i, g, ht, hg⟩
    exact ⟨t, hg ▸ ht⟩
  choose worker hworker using hlooping
  have hinj : Function.Injective worker := fun i i' heq => by
    have hsame := (hworker i).symm.trans (heq ▸ hworker i')
    exact congrArg Prod.fst (Option.some.inj hsame)
  have hmem : ∀ i, worker i ∈ countedDown s.tasks := fun i =>
    Finset.mem_filter.mpr ⟨Finset.mem_univ _, congrArg (Option.map Prod.snd) (hworker i)⟩
  have hcard : n ≤ (countedDown s.tasks).card := by
    have hle := Finset.card_le_card_of_injOn worker (fun i _ => hmem i) (s := Finset.univ) hinj.injOn
    rwa [Finset.card_univ, Fintype.card_fin] at hle
  have hcount' := h.starting.count
  omega

/-- **When it is not**, some worker is about to come for a task: were all of them busy, each slot would have
been handed out. -/
theorem Onward.exists_comer (h : s.Onward) (hqueue : s.pool.taskQueue ≠ []) :
    idle s.pool.outside s.tasks ≠ [] ∨ s.pool.entering ≠ [] ∨ s.pool.notEmpty.woken ≠ [] := by
  by_contra hnone
  obtain ⟨hidle, hentering, hwoken⟩ : idle s.pool.outside s.tasks = [] ∧ s.pool.entering = []
      ∧ s.pool.notEmpty.woken = [] := by simpa [not_or] using hnone
  have hwaiting : s.pool.notEmpty.waiting = [] := by
    by_contra hne
    have hserved := h.served hne
    rw [hidle, hentering, hwoken] at hserved
    exact hqueue (List.length_eq_zero_iff.mp (Nat.le_zero.mp hserved))
  have hbusy : ∀ t, ∃ i g, s.tasks t = some (i, g) := by
    intro t
    have hplaced := h.starting.sound.placed h.starting.runs
    rw [hentering, hwaiting, hwoken, List.append_nil, List.append_nil, List.append_nil] at hplaced
    have hout : t ∈ s.pool.outside := hplaced.mem_iff.mpr (List.mem_finRange t)
    have hnot : ¬ (s.tasks t).isNone = true := fun hfree => by
      have hin : t ∈ idle s.pool.outside s.tasks := List.mem_filter.mpr ⟨hout, hfree⟩
      rw [hidle] at hin
      cases hin
    obtain ⟨⟨i, g⟩, ht⟩ := Option.ne_none_iff_exists'.mp (mt Option.isNone_iff_eq_none.mpr hnot)
    exact ⟨i, g, ht⟩
  choose slot g hslot using hbusy
  have hinj : Function.Injective slot := fun t t' heq =>
    h.starting.sole t t' (slot t) (g t) (g t') (hslot t) (heq ▸ hslot t')
  obtain ⟨i, hi⟩ := List.exists_mem_of_ne_nil _ hqueue
  obtain ⟨t, rfl⟩ := (Finite.injective_iff_surjective.mp hinj) i
  exact List.disjoint_of_nodup_append h.starting.nodup (h.starting.busy t _ _ (hslot t)).2 hi

/-- **Until the constructor returns, some thread gets the start on.** -/
theorem Onward.exists_advances (h : s.Onward) : ∃ e, s.Advances e := by
  obtain ⟨k, hk, haccepted, hbuilder | ⟨rfl, hbuilder⟩⟩ := h.starting.building
  · rcases hk.lt_or_eq with hlt | rfl
    · exact ⟨.addTask 0, k, hlt, hbuilder⟩
    · exact ⟨.wait, hbuilder⟩
  · by_cases hwoken : s.initLatch.cond.woken = []
    · have hwaiter := h.waiter
      rw [if_pos hbuilder, hwoken, List.length_nil, Nat.add_zero] at hwaiter
      have hcount := h.latched (List.length_pos_iff.mp (by omega))
      by_cases hqueue : s.pool.taskQueue = []
      · have hordered := h.starting.sound.ordered
        rw [hqueue, List.append_nil, haccepted, List.take_of_length_le (by simp)] at hordered
        obtain ⟨t, i, g, ht, hg⟩ := h.exists_task (fun i => hordered ▸ List.mem_finRange i) hcount
        exact exists_advances_of_task ht hg
      · rcases h.exists_comer hqueue with hidle | hentering | hwoken'
        · obtain ⟨t, ht⟩ := List.exists_mem_of_ne_nil _ hidle
          obtain ⟨hout, hfree⟩ := List.mem_filter.mp ht
          obtain ⟨i, hi⟩ := List.mem_iff_getElem?.mp hout
          exact ⟨.look i, t, hi, Option.isNone_iff_eq_none.mp hfree⟩
        · exact ⟨.take 0 0, List.length_pos_iff.mpr hentering⟩
        · exact ⟨.takeAgain 0 0, List.length_pos_iff.mpr hwoken'⟩
    · exact ⟨.waitAgain, hbuilder, hwoken⟩

/-! ## Every run -/

/-- The start is got on, as long as it lasts. -/
def Starts (s : EventLoopThreadPool n) (e : StartEvent n) : Prop := s.builder ≠ .returned ∧ s.Advances e

instance (s : EventLoopThreadPool n) (e : StartEvent n) : Decidable (s.Starts e) :=
  inferInstanceAs (Decidable (_ ∧ _))

/-- Before and after. -/
def Lasts (s : EventLoopThreadPool n) : Prop := s.builder = .returned ∨ s.Onward

theorem Lasts.step (h : s.Lasts) {e : StartEvent n} (he : s.Quiet e) :
    (s.step e).Lasts ∧ (if s.Starts e then 1 else 0) + (s.step e).remaining
      ≤ s.remaining + 1 * (if s.Wakes e then 1 else 0) := by
  rcases h with hreturned | h
  · have hnext := builder_step_of_returned hreturned e
    rw [if_neg fun hs : s.Starts e => hs.1 hreturned, remaining, if_pos hnext]
    exact ⟨.inl hnext, Nat.zero_le _⟩
  · by_cases ha : s.Advances e
    · obtain ⟨hlasts, hless⟩ := h.step_advances ha
      rw [if_pos ⟨h.starting.builder_ne, ha⟩]
      exact ⟨hlasts, by omega⟩
    · rw [if_neg fun hs : s.Starts e => ha hs.2]
      by_cases hw : s.Wakes e
      · obtain ⟨honward, hle⟩ := h.step_wakes hw
        rw [if_pos hw]
        exact ⟨.inr honward, by omega⟩
      · rw [step_eq_self h he ha hw]
        exact ⟨.inr h, by omega⟩

theorem remaining_new (n : ℕ) (hn : 0 < n) : (new n hn).remaining = 11 * n + 1 := by
  rw [remaining, if_neg (by simp [new])]
  simp [work, poolWork, builderWork, new, ThreadPool.new, CondVar.empty, idle, load, TaskStage.load]
  omega

theorem Advances.quiet {e : StartEvent n} (h : s.Advances e) : s.Quiet e := by
  cases e with
  | quit t => exact absurd h id
  | _ => trivial

/-- Until the constructor returns, a step that gets the start on is at hand. -/
theorem Lasts.exists_starts (h : s.Lasts) : s.builder = .returned ∨ ∃ e, s.Quiet e ∧ s.Starts e := by
  refine h.imp_right fun honward => ?_
  obtain ⟨e, he⟩ := honward.exists_advances
  exact ⟨e, he.quiet, honward.starting.builder_ne, he⟩

theorem Lasts.remaining_lt (h : s.Lasts) {e : StartEvent n} (he : s.Starts e) :
    (s.step e).remaining < s.remaining :=
  ((h.resolve_left he.1).step_advances he.2).less

/-- **The constructor of a pool of one thread or more returns.**  Whatever the order in which the
constructor and the workers take their steps, as long as `initLatch.wait()` has not returned one of them can
get the start on; they can do so no more than `11 n + 1` times, and once more for each time a thread wakes
for no reason; and at any point so many of these steps are enough for the constructor to return. -/
theorem constructor_run (n : ℕ) (hn : 0 < n) (es : List (StartEvent n))
    (hes : Meets step Quiet (new n hn) es) :
    let s := run step (new n hn) es
    tally step Starts (new n hn) es + s.remaining ≤ 11 * n + 1 + tally step Wakes (new n hn) es
      ∧ (s.builder = .returned ∨ ∃ e, s.Quiet e ∧ s.Starts e)
      ∧ ∃ es', Meets step Quiet s es' ∧ es'.length ≤ s.remaining ∧ (run step s es').builder = .returned := by
  intro s
  have hstep : ∀ (r : EventLoopThreadPool n) e, r.Lasts → r.Quiet e → (r.step e).Lasts :=
    fun r e hr he => (hr.step he).1
  have hlasts : s.Lasts := inv_run hstep (.inr (onward_new n hn)) hes
  have htally := tally_add_le remaining (p := Starts) (e := Wakes) (k := 1) hstep
    (fun r e hr he => (hr.step he).2) (.inr (onward_new n hn)) hes
  rw [remaining_new, Nat.one_mul] at htally
  exact ⟨htally, hlasts.exists_starts, exists_run_done remaining hstep (fun r e hr _ he => hr.remaining_lt he)
    (fun r hr => hr.exists_starts) hlasts⟩

/-- Two workers, of which one wakes for no reason before there is a task. -/
theorem constructor_run_two :
    let es : List (StartEvent 2) :=
      [.look 0, .take 0 0, .wakeWorker 0, .takeAgain 0 0, .addTask 0, .takeAgain 0 0, .store 0, .addTask 0,
        .wait, .callback 0, .countDown 0, .look 0, .take 0 0, .store 1, .callback 1, .countDown 1]
    let s := run step (new 2 Nat.two_pos) es
    tally step Starts (new 2 Nat.two_pos) es + s.remaining
        ≤ 11 * 2 + 1 + tally step Wakes (new 2 Nat.two_pos) es
      ∧ (s.builder = .returned ∨ ∃ e, s.Quiet e ∧ s.Starts e)
      ∧ ∃ es', Meets step Quiet s es' ∧ es'.length ≤ s.remaining ∧ (run step s es').builder = .returned :=
  constructor_run 2 Nat.two_pos _ (by simp only [meets_cons, meets_nil, Quiet, and_true])

end EventLoopThreadPool
