import Rpx.Core.TimerQueue
import Rpx.Machinery.Run

/-!
# Core/TimerArming — whether the timerfd is armed for the first timer

    first deadline k queued   ⇒   timerfd armed, expiry ≤ max k (armedAt + 100)

`addTimerInLoop` and `cancelInLoop` keep this.  `handleRead` consumes the expiration, and arms the
timerfd again only where something is queued *ahead* of the rest: by a callback, or by the restart
of a timer that repeats.  When nothing is, the timers that had not expired are stranded — also when
the expiration came before any deadline.  `covered_iff_strandsNone` says that this is the only way.
-/

open Machinery

namespace TimerQueue

variable (q : TimerQueue)

/-- **The timerfd is armed in time for the first timer.** -/
def Covered : Prop :=
  ∀ k ∈ q.timers.first?, ∃ a ∈ q.timerfd, a.expiry ≤ max k (a.armedAt + 100)

/-! ## Ahead of the queue, or behind -/

theorem earliestChanged_eq_true_iff {w : Time} :
    q.earliestChanged w = true ↔ ∀ k ∈ q.timers.first?, w < k := by
  rw [earliestChanged]
  cases q.timers.first? <;> simp

theorem earliestChanged_eq_false_iff {w : Time} :
    q.earliestChanged w = false ↔ ∃ k, q.timers.first? = some k ∧ k ≤ w := by
  rw [earliestChanged]
  cases q.timers.first? <;> simp

variable {q}

/-- Behind the first deadline, nothing is armed and nothing has to be. -/
theorem first?_insert_of_behind {a : Addr} (h : (q.insert a).1 = false) :
    (q.insert a).2.timers.first? = q.timers.first? := by
  obtain ⟨k, hk, hle⟩ := q.earliestChanged_eq_false_iff.mp h
  rw [hk]
  exact BucketMap.first?_update_of_le _ hk hle

theorem first?_insert_of_ahead {a : Addr} (h : (q.insert a).1 = true) :
    (q.insert a).2.timers.first? = some (q.heap a).deadline :=
  BucketMap.first?_update_of_lt _ (q.earliestChanged_eq_true_iff.mp h)

/-! ## Arming -/

/-- **`resetTimerfd` for the first deadline covers it**, whatever the clock reads. -/
theorem covered_resetTimerfd {w : Time} (h : q.timers.first? = some w) (now : Time) :
    (q.resetTimerfd w now).Covered := by
  intro k hk
  obtain rfl : w = k := Option.some.inj (h.symm.trans hk)
  refine ⟨_, rfl, ?_⟩
  show now + max 100 (w - now) ≤ max w (now + 100)
  rcases max_cases (100 : ℤ) (w - now) with ⟨hmax, -⟩ | ⟨hmax, -⟩
  · rw [hmax]
    exact le_max_right _ _
  · rw [hmax, add_sub_cancel]
    exact le_max_left _ _

/-- Fewer timers need no earlier expiry. -/
theorem Covered.of_keys {q' : TimerQueue} (h : q.Covered)
    (hkeys : ∀ x ∈ q'.timers.keys, x ∈ q.timers.keys) (hfd : q'.timerfd = q.timerfd) :
    q'.Covered := by
  intro k' hk'
  obtain ⟨k, hk, hle⟩ := BucketMap.exists_first?_le hkeys hk'
  obtain ⟨a, ha, hexp⟩ := h k hk
  exact ⟨a, hfd ▸ ha, hexp.trans (max_le_max_right _ hle)⟩

/-! ## The calls -/

/-- A call that queues nothing ahead of the rest. -/
def Behind (q : TimerQueue) : QueueOp → Prop
  | .addTimer _ timer _ => q.earliestChanged timer.deadline = false
  | .cancel _ => True

instance : ∀ op, Decidable (q.Behind op)
  | .addTimer _ _ _ => inferInstanceAs (Decidable (_ = _))
  | .cancel _ => inferInstanceAs (Decidable True)

/-- A cancellation queues nothing. -/
theorem keys_cancelInLoop (a : Addr) :
    ∀ x ∈ (q.cancelInLoop a).timers.keys, x ∈ q.timers.keys := by
  intro x hx
  rw [cancelInLoop] at hx
  split at hx
  · simp only [delete] at hx
    split at hx
    · obtain ⟨hx, hne⟩ := BucketMap.mem_keys_erase.mp hx
      exact (BucketMap.mem_keys_update.mp hx).resolve_left hne
    · rename_i hbucket
      rcases BucketMap.mem_keys_update.mp hx with rfl | hx
      · -- the bucket left over was one of a queued deadline
        obtain ⟨b, hb⟩ := Finset.nonempty_iff_ne_empty.mpr hbucket
        rw [BucketMap.bucket_update] at hb
        exact BucketMap.mem_keys_of_mem_bucket (Finset.mem_of_mem_erase hb)
      · exact hx
  · split at hx <;> exact hx

theorem timerfd_cancelInLoop (a : Addr) : (q.cancelInLoop a).timerfd = q.timerfd := by
  rw [cancelInLoop]
  split
  · rfl
  · split <;> rfl

theorem heap_allocate_self (a : Addr) (timer : Timer) : (q.allocate a timer).heap a = timer :=
  Function.update_self _ _ _

/-- A timer queued ahead of the rest is armed for. -/
theorem covered_addTimer_of_ahead {a : Addr} {timer : Timer} {now : Time}
    (h : q.earliestChanged timer.deadline = true) :
    (q.perform (.addTimer a timer now)).Covered := by
  have hins : ((q.allocate a timer).insert a).1 = true := by
    rw [insert, heap_allocate_self]
    exact h
  have hfirst := first?_insert_of_ahead hins
  simp only [perform, addTimerInLoop, hins, if_true]
  exact covered_resetTimerfd hfirst now

theorem insert_allocate_of_behind (a : Addr) {timer : Timer}
    (h : q.earliestChanged timer.deadline = false) : ((q.allocate a timer).insert a).1 = false := by
  rw [insert, heap_allocate_self]
  exact h

/-- A timer queued behind another is only queued. -/
theorem perform_addTimer_of_behind (a : Addr) {timer : Timer} (now : Time)
    (h : q.earliestChanged timer.deadline = false) :
    q.perform (.addTimer a timer now) = ((q.allocate a timer).insert a).2 := by
  simp [perform, addTimerInLoop, insert_allocate_of_behind a h]

/-- **A call never uncovers a timer.** -/
theorem covered_perform (h : q.Covered) (op : QueueOp) : (q.perform op).Covered := by
  cases op with
  | cancel a => exact h.of_keys (keys_cancelInLoop a) (timerfd_cancelInLoop a)
  | addTimer a timer now =>
    cases hw : q.earliestChanged timer.deadline with
    | true => exact covered_addTimer_of_ahead hw
    | false =>
      have hins := insert_allocate_of_behind a hw
      intro k hk
      rw [perform_addTimer_of_behind a now hw] at hk ⊢
      rw [first?_insert_of_behind hins] at hk
      exact h k hk

/-- **A call that queues something ahead covers the first timer.** -/
theorem covered_perform_of_not_behind {op : QueueOp} (h : ¬ q.Behind op) :
    (q.perform op).Covered := by
  cases op with
  | cancel a => exact absurd trivial h
  | addTimer a timer now => exact covered_addTimer_of_ahead (Bool.not_eq_false _ ▸ h)

/-- Any other call leaves the timerfd alone. -/
theorem timerfd_perform_of_behind {op : QueueOp} (h : q.Behind op) :
    (q.perform op).timerfd = q.timerfd := by
  cases op with
  | cancel a => exact timerfd_cancelInLoop a
  | addTimer a timer now => rw [perform_addTimer_of_behind a now h]; rfl

/-- The calls of a batch: once something went ahead, the first timer is covered. -/
theorem covered_calls {ops : List QueueOp} (h : ¬ Meets perform Behind q ops) :
    (run perform q ops).Covered := by
  induction ops generalizing q with
  | nil => exact absurd trivial h
  | cons op ops ih =>
    rw [meets_cons, not_and_or] at h
    rcases h with h | h
    · have hstep : ∀ (r : TimerQueue) op, r.Covered → True → (r.perform op).Covered :=
        fun r op hr _ => covered_perform hr op
      exact inv_run hstep (covered_perform_of_not_behind h) (meets_true _ ops)
    · exact ih h

/-- …and until then the timerfd is left alone. -/
theorem timerfd_calls {ops : List QueueOp} (h : Meets perform Behind q ops) :
    (run perform q ops).timerfd = q.timerfd := by
  have hstep : ∀ (r : TimerQueue) op, r.timerfd = q.timerfd → r.Behind op →
      (r.perform op).timerfd = q.timerfd :=
    fun r op hr hop => (timerfd_perform_of_behind hop).trans hr
  exact inv_run hstep rfl h

/-! ## The restarts -/

/-- A timer of the batch that is queued again. -/
def Restarts (q : TimerQueue) (a : Addr) : Prop :=
  (q.heap a).repeated = true ∧ a ∉ q.cancelingTimers

/-- The restarts of a batch, all behind the queue as the callbacks left it. -/
def RestartsBehind (q : TimerQueue) (now : Time) (batch : List Addr) : Prop :=
  ∀ a ∈ batch, q.Restarts a → q.earliestChanged (now + (q.heap a).micros) = false

variable {now : Time} {a : Addr}

theorem settle_of_restarts (h : q.Restarts a) :
    q.settle now a =
      { q with heap := Function.update q.heap a ((q.heap a).restart now) }.insert a :=
  if_pos h

theorem settle_of_not_restarts (h : ¬ q.Restarts a) : q.settle now a = (false, q.delete a) :=
  if_neg h

theorem settle_fst_eq_false_iff :
    (q.settle now a).1 = false
      ↔ (q.Restarts a → q.earliestChanged (now + (q.heap a).micros) = false) := by
  by_cases h : q.Restarts a
  · rw [settle_of_restarts h, forall_prop_of_true h]
    simp only [insert, Function.update_self, Timer.restart]
    rfl
  · rw [settle_of_not_restarts h]
    exact iff_of_true rfl fun hr => absurd hr h

/-- A timer settled behind the queue changes neither its first deadline nor the timerfd. -/
theorem settle_of_behind (h : (q.settle now a).1 = false) :
    (q.settle now a).2.timers.first? = q.timers.first?
      ∧ (q.settle now a).2.timerfd = q.timerfd := by
  by_cases hr : q.Restarts a
  · rw [settle_of_restarts hr] at h ⊢
    exact ⟨first?_insert_of_behind h, rfl⟩
  · rw [settle_of_not_restarts hr]
    exact ⟨rfl, rfl⟩

/-- What is asked of the other timers of the batch stays as it was. -/
theorem restarts_settle (b : Addr) :
    ((q.settle now a).2.Restarts b ↔ q.Restarts b)
      ∧ ((q.settle now a).2.heap b).micros = (q.heap b).micros := by
  by_cases hr : q.Restarts a
  · rw [settle_of_restarts hr]
    rcases eq_or_ne b a with rfl | hne
    · simp [Restarts, insert, Timer.restart]
    · simp [Restarts, insert, hne]
  · rw [settle_of_not_restarts hr]
    exact ⟨Iff.rfl, rfl⟩

/-- The flag of the loop is only ever raised. -/
theorem foldl_settle (changed : Bool) (batch : List Addr) :
    batch.foldl (fun s a => (s.1 || (s.2.settle now a).1, (s.2.settle now a).2)) (changed, q)
      = (changed || (q.settleAll now batch).1, (q.settleAll now batch).2) := by
  rw [settleAll]
  induction batch generalizing q changed with
  | nil => simp
  | cons a batch ih =>
    rw [List.foldl_cons, List.foldl_cons, ih, ih (false || _), Bool.false_or, Bool.or_assoc]

theorem settleAll_cons (a : Addr) (batch : List Addr) :
    q.settleAll now (a :: batch)
      = ((q.settle now a).1 || ((q.settle now a).2.settleAll now batch).1,
          ((q.settle now a).2.settleAll now batch).2) := by
  rw [settleAll, List.foldl_cons, Bool.false_or, foldl_settle]

/-- Behind one restart, the others find the queue and themselves as they were. -/
theorem restartsBehind_settle {batch : List Addr} (h : (q.settle now a).1 = false) :
    (q.settle now a).2.RestartsBehind now batch ↔ q.RestartsBehind now batch := by
  refine forall₂_congr fun b _ => ?_
  rw [(restarts_settle b).1, (restarts_settle b).2, earliestChanged, earliestChanged,
    (settle_of_behind h).1]

/-- **The earliest deadline changes just when some restart goes ahead of the queue.** -/
theorem settleAll_fst_eq_false_iff {batch : List Addr} :
    (q.settleAll now batch).1 = false ↔ q.RestartsBehind now batch := by
  induction batch generalizing q with
  | nil => exact iff_of_true rfl fun a ha => absurd ha List.not_mem_nil
  | cons a batch ih =>
    have hcons : q.RestartsBehind now (a :: batch)
        ↔ (q.settle now a).1 = false ∧ q.RestartsBehind now batch := by
      rw [settle_fst_eq_false_iff]
      exact List.forall_mem_cons
    rw [settleAll_cons, Bool.or_eq_false_iff, ih, hcons]
    exact and_congr_right restartsBehind_settle

/-- Otherwise the settling leaves the first deadline and the timerfd alone. -/
theorem settleAll_of_behind {batch : List Addr} (h : (q.settleAll now batch).1 = false) :
    (q.settleAll now batch).2.timers.first? = q.timers.first?
      ∧ (q.settleAll now batch).2.timerfd = q.timerfd := by
  induction batch generalizing q with
  | nil => exact ⟨rfl, rfl⟩
  | cons a batch ih =>
    rw [settleAll_cons] at h ⊢
    obtain ⟨ha, hrest⟩ := Bool.or_eq_false_iff.mp h
    obtain ⟨hfirst, hfd⟩ := settle_of_behind ha
    exact ⟨(ih hrest).1.trans hfirst, (ih hrest).2.trans hfd⟩

/-! ## An expiration -/

/-- The queue when the last callback of an expiration has returned. -/
def called (q : TimerQueue) (now : Time) (order : IterOrder) (script : Addr → List QueueOp) :
    TimerQueue :=
  let q := q.consumeTimerfd
  (q.beginBatch now order).runCallbacks (q.expired now order) script

/-- **An expiration that strands the timers left**: its callbacks queue nothing ahead of the rest,
they leave something queued, and every restart comes behind it. -/
def Strands (q : TimerQueue) (now : Time) (order : IterOrder) (script : Addr → List QueueOp) :
    Prop :=
  Meets perform Behind (q.consumeTimerfd.beginBatch now order)
      ((q.expired now order).flatMap script)
    ∧ (q.called now order script).timers.first? ≠ none
    ∧ (q.called now order script).RestartsBehind now (q.expired now order)

/-- After the callbacks, the first timer is covered if one went ahead or none is left. -/
theorem covered_called_iff {order : IterOrder} {script : Addr → List QueueOp} :
    (q.called now order script).Covered
      ↔ ¬ (Meets perform Behind (q.consumeTimerfd.beginBatch now order)
            ((q.expired now order).flatMap script)
          ∧ (q.called now order script).timers.first? ≠ none) := by
  by_cases h : Meets perform Behind (q.consumeTimerfd.beginBatch now order)
      ((q.expired now order).flatMap script)
  · have hfd : (q.called now order script).timerfd = none := timerfd_calls h
    rw [Covered, hfd]
    simp [h, Option.eq_none_iff_forall_not_mem]
  · exact iff_of_true (covered_calls h) fun hn => h hn.1

/-- An expiration after which the earliest deadline changed. -/
theorem covered_handleRead_of_changed {order : IterOrder} {script : Addr → List QueueOp}
    (later : Time)
    (h : ((q.called now order script).settleAll now (q.expired now order)).1 = true) :
    (q.handleRead now order script later).Covered := by
  show Covered (if ((q.called now order script).settleAll now (q.expired now order)).1 then _ else _)
  rw [if_pos h]
  split
  · rename_i hfirst
    exact covered_resetTimerfd hfirst later
  · rename_i hnone
    exact fun k hk => absurd (hnone ▸ hk) (Option.not_mem_none k)

/-- …and one after which it did not. -/
theorem covered_handleRead_of_unchanged {order : IterOrder} {script : Addr → List QueueOp}
    (later : Time)
    (h : ((q.called now order script).settleAll now (q.expired now order)).1 = false) :
    (q.handleRead now order script later).Covered ↔ (q.called now order script).Covered := by
  obtain ⟨hfirst, hfd⟩ := settleAll_of_behind h
  show Covered (if ((q.called now order script).settleAll now (q.expired now order)).1 then _
    else ((q.called now order script).settleAll now (q.expired now order)).2) ↔ _
  rw [if_neg (by rw [h]; decide)]
  rw [Covered, Covered, hfirst, hfd]

/-- **An expiration leaves the first timer covered exactly when it strands none.** -/
theorem covered_handleRead_iff (order : IterOrder) (script : Addr → List QueueOp) (later : Time) :
    (q.handleRead now order script later).Covered ↔ ¬ q.Strands now order script := by
  cases hflag : ((q.called now order script).settleAll now (q.expired now order)).1 with
  | true =>
    refine iff_of_true (covered_handleRead_of_changed later hflag) fun hs => ?_
    rw [settleAll_fst_eq_false_iff.mpr hs.2.2] at hflag
    exact absurd hflag (by decide)
  | false =>
    have hbehind := settleAll_fst_eq_false_iff.mp hflag
    rw [covered_handleRead_of_unchanged later hflag, covered_called_iff]
    exact not_congr ⟨fun hs => ⟨hs.1, hs.2, hbehind⟩, fun hs => ⟨hs.1, hs.2.1⟩⟩

end TimerQueue

/-! ## Runs -/

/-- What happens to a queue, one event handler at a time. -/
inductive TimerEvent
  /-- A task that adds or cancels a timer. -/
  | perform (op : QueueOp)
  /-- The timerfd is read at `now`, its callbacks make the calls of `script`, and the timerfd is set,
  if it is, at `later`. -/
  | handleRead (now : Time) (order : IterOrder) (script : Addr → List QueueOp) (later : Time)

namespace TimerQueue

def step (q : TimerQueue) : TimerEvent → TimerQueue
  | .perform op => q.perform op
  | .handleRead now order script later => q.handleRead now order script later

/-- An event that strands no timer. -/
def StrandsNone (q : TimerQueue) : TimerEvent → Prop
  | .perform _ => True
  | .handleRead now order script _ => ¬ q.Strands now order script

/-- **No timer is lost, exactly.**  Along a run from an empty queue the timerfd is armed in time for
the first timer after every event if and only if no expiration strands the timers left. -/
theorem covered_iff_strandsNone (heap : Addr → Timer) (es : List TimerEvent) :
    (∀ js, js <+: es → (run step (new heap) js).Covered)
      ↔ Meets step StrandsNone (new heap) es := by
  have hstep : ∀ (q : TimerQueue) (e : TimerEvent), q.Covered → True →
      ((q.step e).Covered ↔ q.StrandsNone e) := by
    intro q e h _
    cases e with
    | perform op => exact iff_of_true (covered_perform h op) trivial
    | handleRead now order script later => exact covered_handleRead_iff order script later
  have hnew : (new heap).Covered := fun k hk => absurd hk (by simp [new, BucketMap.first?])
  exact forall_prefix_iff hstep hnew (meets_true _ es)

/-- **The second of two timers is lost.**  Timers are due at `1` and at `5`; the expiration read at
`1` runs the first, and nothing is armed for the second. -/
theorem second_timer_stranded :
    ¬ (run step (new fun _ => ⟨0, false, 0⟩)
      [.perform (.addTimer 0 ⟨1, false, 0⟩ 0), .perform (.addTimer 1 ⟨5, false, 0⟩ 0),
        .handleRead 1 .ascending (fun _ => []) 1]).Covered := by
  intro h
  have hfirst : (run step (new fun _ => ⟨0, false, 0⟩)
      [.perform (.addTimer 0 ⟨1, false, 0⟩ 0), .perform (.addTimer 1 ⟨5, false, 0⟩ 0),
        .handleRead 1 .ascending (fun _ => []) 1]).timers.first? = some 5 := by decide
  obtain ⟨a, ha, -⟩ := h 5 hfirst
  cases ha

end TimerQueue
