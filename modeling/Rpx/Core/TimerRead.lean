import Rpx.Core.TimerArming

/-!
# Core/TimerRead — the read of the timerfd, which aborts when it fails

    armed ──expires──▶ expired ──poll──▶ reported ──handlers of other channels──▶ handleRead
      ▲                   │                                    │
      └───timerfd_settime─┴────────────────────────────────────┘

The timerfd is non-blocking, and `timerfd_settime` takes an expiration that has not been read back: a
timer queued ahead of the rest between the poll that reports the expiration and `handleRead` leaves the
read with nothing, and `consumeTimerfd` aborts.  `never_aborts` says why no timer goes ahead there: when
the expiration is reported the first deadline has passed, and `runAfter` and `runEvery` ask for one that
has not.  A cancellation of the first timer undoes this.
-/

open Machinery

/-! ## The period that is set -/

structure Timespec where
  sec : ℤ
  nsec : ℤ
  deriving DecidableEq, Repr

/-- `operator timespec()`, where `lldiv` rounds towards zero. -/
def Time.timespec (t : Time) : Timespec := ⟨Int.tdiv t 1000000, Int.tmod t 1000000 * 1000⟩

/-- What `timerfd_settime` accepts. -/
def Timespec.Valid (ts : Timespec) : Prop := 0 ≤ ts.sec ∧ 0 ≤ ts.nsec ∧ ts.nsec < 1000000000

/-- Zero disarms the timerfd. -/
def Timespec.Disarms (ts : Timespec) : Prop := ts.sec = 0 ∧ ts.nsec = 0

namespace TimerQueue

/-- `newValue.it_value` of `resetTimerfd(when)`, the clock reading `now`. -/
def period (w now : Time) : Timespec := Time.timespec (max 100 (w - now))

/-- **`resetTimerfd` always arms the timerfd**, for the period it computes, however late it is. -/
theorem period_valid (w now : Time) :
    (period w now).Valid ∧ ¬ (period w now).Disarms
      ∧ (period w now).sec * 1000000000 + (period w now).nsec = max 100 (w - now) * 1000 := by
  have hpos : (100 : ℤ) ≤ max 100 (w - now) := le_max_left _ _
  rw [period, Time.timespec]
  generalize max 100 (w - now) = p at hpos
  have hp : (0 : ℤ) ≤ p := by omega
  have hlt := Int.tmod_lt_of_pos p (show (0 : ℤ) < 1000000 by decide)
  have hnonneg := Int.tmod_nonneg 1000000 hp
  have hdiv : (0 : ℤ) ≤ Int.tdiv p 1000000 := Int.tdiv_nonneg hp (by decide)
  have hsum := Int.mul_tdiv_add_tmod p 1000000
  refine ⟨⟨hdiv, ?_, ?_⟩, fun h => ?_, ?_⟩
  · show 0 ≤ Int.tmod p 1000000 * 1000
    omega
  · show Int.tmod p 1000000 * 1000 < 1000000000
    omega
  · have hsec : Int.tdiv p 1000000 = 0 := h.1
    have hnsec : Int.tmod p 1000000 * 1000 = 0 := h.2
    omega
  · show Int.tdiv p 1000000 * 1000000000 + Int.tmod p 1000000 * 1000 = p * 1000
    omega

/-! ## The first deadline is due when the timerfd expires -/

variable {q : TimerQueue}

/-- **The timerfd is not armed ahead of the first timer.** -/
def Due (q : TimerQueue) : Prop := ∀ a ∈ q.timerfd, ∃ k ∈ q.timers.first?, k ≤ a.expiry

/-- A call after which the timers already there are due no later: it cancels none of the first. -/
def KeepsFirst (q : TimerQueue) : QueueOp → Prop
  | .addTimer _ _ _ => True
  | .cancel a => (q.cancelInLoop a).timers.first? = q.timers.first?

instance (q : TimerQueue) : ∀ op, Decidable (q.KeepsFirst op)
  | .addTimer _ _ _ => inferInstanceAs (Decidable True)
  | .cancel _ => inferInstanceAs (Decidable (_ = _))

theorem due_resetTimerfd {w : Time} (h : q.timers.first? = some w) (now : Time) :
    (q.resetTimerfd w now).Due := by
  intro a ha
  obtain rfl := Option.some.inj ha
  exact ⟨w, h, sub_le_iff_le_add'.mp (le_max_right _ _)⟩

theorem Due.congr {q' : TimerQueue} (h : q.Due) (hfirst : q'.timers.first? = q.timers.first?)
    (hfd : q'.timerfd = q.timerfd) : q'.Due := by
  intro a ha
  rw [hfirst]
  exact h a (hfd ▸ ha)

theorem due_of_timerfd_none (h : q.timerfd = none) : q.Due := fun a ha =>
  absurd (h ▸ ha) (Option.not_mem_none a)

/-- A call that keeps the first deadline and puts nothing ahead of it moves neither. -/
theorem first?_perform_of_behind {op : QueueOp} (hkeeps : q.KeepsFirst op) (hbehind : q.Behind op) :
    (q.perform op).timers.first? = q.timers.first? := by
  cases op with
  | cancel a => exact hkeeps
  | addTimer a timer now =>
    rw [perform_addTimer_of_behind a now hbehind]
    exact first?_insert_of_behind (insert_allocate_of_behind a hbehind)

/-- …and one that goes ahead arms the timerfd for it. -/
theorem perform_of_ahead {op : QueueOp} (h : ¬ q.Behind op) :
    ∃ (r : TimerQueue) (w now : Time), r.timers.first? = some w ∧ q.perform op = r.resetTimerfd w now := by
  cases op with
  | cancel a => exact absurd trivial h
  | addTimer a timer now =>
    have hins : ((q.allocate a timer).insert a).1 = true := by
      rw [insert, heap_allocate_self]
      exact Bool.not_eq_false _ ▸ h
    refine ⟨((q.allocate a timer).insert a).2, _, now, first?_insert_of_ahead hins, ?_⟩
    simp only [perform, addTimerInLoop, hins, if_true]
    rfl

/-- **A call keeps the timerfd behind the first timer.** -/
theorem Due.perform (h : q.Due) {op : QueueOp} (hop : q.KeepsFirst op) : (q.perform op).Due := by
  by_cases hbehind : q.Behind op
  · exact h.congr (first?_perform_of_behind hop hbehind) (timerfd_perform_of_behind hbehind)
  · obtain ⟨r, w, now, hfirst, hperform⟩ := perform_of_ahead hbehind
    rw [hperform]
    exact due_resetTimerfd hfirst now

/-! ## An expiration keeps this -/

/-- A restart leaves something queued. -/
theorem first?_settleAll_of_changed {now : Time} {batch : List Addr}
    (h : (q.settleAll now batch).1 = true) : (q.settleAll now batch).2.timers.first? ≠ none := by
  have hstep : ∀ (q : TimerQueue) (a : Addr),
      (q.timers.first? ≠ none ∨ (q.settle now a).1 = true) → (q.settle now a).2.timers.first? ≠ none := by
    intro q a hq
    cases hflag : (q.settle now a).1 with
    | false =>
      rw [(settle_of_behind hflag).1]
      exact hq.resolve_right (by rw [hflag]; decide)
    | true =>
      by_cases hr : q.Restarts a
      · rw [settle_of_restarts hr] at hflag ⊢
        rw [first?_insert_of_ahead hflag]
        exact Option.some_ne_none _
      · rw [settle_of_not_restarts hr] at hflag
        cases hflag
  have hall : ∀ (q : TimerQueue),
      (q.timers.first? ≠ none ∨ (q.settleAll now batch).1 = true) →
        (q.settleAll now batch).2.timers.first? ≠ none := by
    clear h
    induction batch with
    | nil => exact fun q hq => hq.resolve_right (by simp [settleAll])
    | cons a batch ih =>
      intro q hq
      rw [settleAll_cons] at hq ⊢
      refine ih _ ?_
      rw [Bool.or_eq_true, ← or_assoc] at hq
      exact hq.imp_left (hstep q a)
  exact hall q (.inr h)

/-- **After `handleRead`** the timerfd, if it is armed, is not ahead of the first timer. -/
theorem due_handleRead {now : Time} {order : IterOrder} {script : Addr → List QueueOp}
    (hscript : Meets perform KeepsFirst (q.consumeTimerfd.beginBatch now order)
      ((q.expired now order).flatMap script)) (later : Time) :
    (q.handleRead now order script later).Due := by
  have hcalled : (q.called now order script).Due :=
    @inv_run _ _ perform KeepsFirst Due (fun r op hr hop => hr.perform hop) _ (due_of_timerfd_none rfl)
      _ hscript
  show Due (if ((q.called now order script).settleAll now (q.expired now order)).1 then _ else _)
  split
  · rename_i hchanged
    split
    · rename_i hfirst
      exact due_resetTimerfd hfirst later
    · rename_i hnone
      exact absurd hnone (first?_settleAll_of_changed hchanged)
  · rename_i hsame
    obtain ⟨hfirst, hfd⟩ := settleAll_of_behind (Bool.not_eq_true _ ▸ hsame)
    exact hcalled.congr hfirst hfd

end TimerQueue

/-! ## The loop around it -/

/-- `runAt(time, cb)`, called in the loop thread; the `Timer` is allocated at `a`. -/
def QueueOp.runAt (a : Addr) (time now : Time) : QueueOp := .addTimer a ⟨time, false, 0⟩ now

/-- `runAfter(delayS, cb)`; `micros` is `(int64_t)(delayS * 1000000)`. -/
def QueueOp.runAfter (a : Addr) (micros : ℤ) (called now : Time) : QueueOp := .runAt a (called + micros) now

/-- `runEvery(intervalS, cb)`; `repeated` is `intervalS > 0`. -/
def QueueOp.runEvery (a : Addr) (repeated : Bool) (micros : ℤ) (called now : Time) : QueueOp :=
  .addTimer a ⟨called, repeated, micros⟩ now

/-- A timer queue, and where the loop that polls its timerfd is. -/
structure TimerDispatch where
  queue : TimerQueue
  /-- The timerfd has expired, and the expiration has not been read. -/
  expired : Bool
  /-- The poll that the loop is dispatching reported the timerfd, at this reading of the clock. -/
  reported : Option Time
  /-- `abort()`. -/
  aborted : Bool

inductive DispatchEvent
  /-- The timerfd expires. -/
  | expires
  /-- `epoll_wait` returns, and the clock reads `now`. -/
  | poll (now : Time)
  /-- A call from a handler of another channel, or from a task. -/
  | call (op : QueueOp)
  /-- The timerfd's channel, if the poll reported it, is given to `handleRead`. -/
  | handleRead (now : Time) (order : IterOrder) (script : Addr → List QueueOp) (later : Time)

namespace TimerDispatch

def new (heap : Addr → Timer) : TimerDispatch := ⟨.new heap, false, none, false⟩

def step (s : TimerDispatch) : DispatchEvent → TimerDispatch
  | .expires => if s.queue.timerfd.isSome then { s with expired := true } else s
  | .poll now =>
    -- the loop polls again when it has dispatched what the last poll reported
    if s.reported = none ∧ s.expired then { s with reported := some now } else s
  | .call op =>
    -- where the call sets the timerfd, the expiration is gone
    { s with queue := s.queue.perform op, expired := s.expired && decide (s.queue.Behind op) }
  | .handleRead now order script later =>
    match s.reported with
    | none => s
    | some _ =>
      -- `read` finds an expiration, or fails with `EAGAIN`
      if s.expired then
        { s with queue := s.queue.handleRead now order script later, expired := false, reported := none }
      else { s with aborted := true, reported := none }

/-- What is asked of a run: the timerfd does not run ahead of the clock, a timer added by a handler is
not due before the poll, and no cancellation leaves the first deadline later. -/
def Timely (s : TimerDispatch) : DispatchEvent → Prop
  | .expires => True
  | .poll now => s.expired = true → ∀ a ∈ s.queue.timerfd, a.expiry ≤ now
  | .call op => s.queue.KeepsFirst op ∧ match op with
    | .addTimer _ timer _ => ∀ polled ∈ s.reported, polled ≤ timer.deadline
    | .cancel _ => True
  | .handleRead now order script _ =>
    Meets TimerQueue.perform TimerQueue.KeepsFirst (s.queue.consumeTimerfd.beginBatch now order)
      ((s.queue.expired now order).flatMap script)

instance (s : TimerDispatch) : ∀ e, Decidable (s.Timely e)
  | .expires => inferInstanceAs (Decidable True)
  | .poll _ => inferInstanceAs (Decidable (_ → _))
  | .call (.addTimer ..) => inferInstanceAs (Decidable (_ ∧ _))
  | .call (.cancel _) => inferInstanceAs (Decidable (_ ∧ True))
  | .handleRead .. => inferInstanceAs (Decidable (Meets _ _ _ _))

variable {s : TimerDispatch}

/-- A timer that a handler asks for with `runAfter` or `runEvery` is not due before the poll, if the
clock is not set back meanwhile. -/
theorem timely_runAfter {micros : ℤ} (hmicros : 0 ≤ micros) {called : Time}
    (hclock : ∀ polled ∈ s.reported, polled ≤ called) (a : Addr) (now : Time) :
    s.Timely (.call (.runAfter a micros called now)) :=
  ⟨trivial, fun polled hp => (hclock polled hp).trans (le_add_of_nonneg_right hmicros)⟩

theorem timely_runEvery {called : Time} (hclock : ∀ polled ∈ s.reported, polled ≤ called) (a : Addr)
    (repeated : Bool) (micros : ℤ) (now : Time) :
    s.Timely (.call (.runEvery a repeated micros called now)) :=
  ⟨trivial, hclock⟩

/-! ## The read finds what was reported -/

/-- **What was reported is still there**: the first timer has been due since the poll, so nothing goes
ahead of it. -/
structure Sound (s : TimerDispatch) : Prop where
  due : s.queue.Due
  armed : s.expired = true → s.queue.timerfd.isSome = true
  kept : ∀ polled ∈ s.reported, s.expired = true ∧ ∃ k ∈ s.queue.timers.first?, k ≤ polled
  alive : s.aborted = false

theorem sound_new (heap : Addr → Timer) : (new heap).Sound :=
  ⟨TimerQueue.due_of_timerfd_none rfl, fun h => absurd h (by simp [new]),
    fun polled hp => absurd hp (by simp [new]), rfl⟩

/-- While an expiration is reported, no call goes ahead. -/
theorem Sound.behind (h : s.Sound) {op : QueueOp} (hop : s.Timely (.call op)) {polled : Time}
    (hp : polled ∈ s.reported) : s.queue.Behind op := by
  cases op with
  | cancel a => exact trivial
  | addTimer a timer now =>
    obtain ⟨-, k, hk, hle⟩ := h.kept polled hp
    exact s.queue.earliestChanged_eq_false_iff.mpr ⟨k, hk, hle.trans (hop.2 polled hp)⟩

theorem Sound.call (h : s.Sound) {op : QueueOp} (hop : s.Timely (.call op)) :
    (s.step (.call op)).Sound := by
  refine ⟨h.due.perform hop.1, fun hexpired => ?_, fun polled hp => ?_, h.alive⟩
  · obtain ⟨hexpired, hbehind⟩ := Bool.and_eq_true_iff.mp hexpired
    show (s.queue.perform op).timerfd.isSome = true
    rw [TimerQueue.timerfd_perform_of_behind (of_decide_eq_true hbehind)]
    exact h.armed hexpired
  · have hbehind := h.behind hop hp
    obtain ⟨hexpired, k, hk, hle⟩ := h.kept polled hp
    refine ⟨?_, k, ?_, hle⟩
    · show (s.expired && decide (s.queue.Behind op)) = true
      rw [hexpired, decide_eq_true hbehind]
      rfl
    · show k ∈ (s.queue.perform op).timers.first?
      rw [TimerQueue.first?_perform_of_behind hop.1 hbehind]
      exact hk

/-- **Every timely step keeps it.** -/
theorem Sound.step (h : s.Sound) {e : DispatchEvent} (he : s.Timely e) : (s.step e).Sound := by
  cases e with
  | expires =>
    rw [TimerDispatch.step]
    split
    · rename_i harmed
      exact ⟨h.due, fun _ => harmed, fun polled hp => ⟨rfl, (h.kept polled hp).2⟩, h.alive⟩
    · exact h
  | poll now =>
    rw [TimerDispatch.step]
    split
    · rename_i hpoll
      refine ⟨h.due, h.armed, fun polled hp => ⟨hpoll.2, ?_⟩, h.alive⟩
      obtain rfl := Option.some.inj hp
      obtain ⟨a, ha⟩ := Option.isSome_iff_exists.mp (h.armed hpoll.2)
      obtain ⟨k, hk, hle⟩ := h.due a ha
      exact ⟨k, hk, hle.trans (he hpoll.2 a ha)⟩
    · exact h
  | call op => exact h.call he
  | handleRead now order script later =>
    rw [TimerDispatch.step]
    split
    · exact h
    · rename_i polled hp
      rw [if_pos (h.kept polled hp).1]
      exact ⟨TimerQueue.due_handleRead he later, fun hf => absurd hf (by simp),
        fun polled hp => absurd hp (by simp), h.alive⟩

/-- **The read of the timerfd never fails.**  In a run whose handlers add timers that are not due before
the poll they are called for, and which cancels no first timer, `consumeTimerfd` finds the expiration the
poll reported, however the queue was used in between. -/
theorem never_aborts (heap : Addr → Timer) (es : List DispatchEvent)
    (hes : Meets step Timely (new heap) es) : (run step (new heap) es).aborted = false :=
  Sound.alive <| inv_run (fun _ _ h he => h.step he) (sound_new heap) hes

/-- A timer is due; before it is run, a handler adds two more, of which one repeats.  Its callback adds one
and cancels one. -/
theorem never_aborts_two_handlers :
    (run step (new fun _ => ⟨0, false, 0⟩)
      [.call (.runAfter 0 500 0 0), .call (.runAfter 1 900 0 0), .expires, .poll 501,
        .call (.runAfter 2 100 502 502), .call (.runEvery 3 true 50 503 503),
        .handleRead 504 .ascending (fun a => if a = 0 then [.runAfter 4 10 505 505, .cancel 1] else []) 506,
        .expires, .poll 700, .handleRead 701 .ascending (fun _ => []) 702]).aborted = false :=
  never_aborts _ _ (by decide)

/-- A cancellation is enough.  The first of two timers is cancelled, but the timerfd expires for it; a
handler asks for a timer ahead of the second, and with that takes the expiration back. -/
example :
    (run step (new fun _ => ⟨0, false, 0⟩)
      [.call (.runAfter 0 500 0 0), .call (.runAfter 1 90000 0 0), .call (.cancel 0), .expires, .poll 501,
        .call (.runAfter 2 1000 502 502), .handleRead 504 .ascending (fun _ => []) 504]).aborted = true := by
  decide

end TimerDispatch
