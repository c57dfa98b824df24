import Rpx.Core.TimerBatch

/-!
# Core/TimerSteps — the timer queue, one step at a time

    idle ──handleRead──▶ calling ──run … called──▶ settling ──settle … finish──▶ idle

`handleRead` is many steps here: the batch is taken out, its callbacks run, and its timers are queued
again or deleted one by one.  Timers are added and cancelled between any two callbacks, and another
thread may allocate one at any point, at an address that has been used before.  `run_handleRead` says
that the steps of one expiration add up to `TimerQueue.handleRead`.
-/

open Machinery

/-- Where `handleRead()` is. -/
inductive TimerStage
  | idle
  /-- The callbacks of `batch` are called; those of `left` have yet to be. -/
  | calling (now : Time) (batch left : List Addr)
  /-- The timers of `left` have yet to be queued again or deleted; `changed` is `earliestChanged`. -/
  | settling (now : Time) (left : List Addr) (changed : Bool)

namespace TimerStage

/-- The timers taken out of the queue and not settled. -/
def pending : TimerStage → List Addr
  | idle => []
  | calling _ batch _ => batch
  | settling _ left _ => left

def isCalling : TimerStage → Bool
  | calling .. => true
  | idle | settling .. => false

/-- Code that is not the queue's own may run in the loop thread. -/
def callsOut : TimerStage → Bool
  | idle | calling .. => true
  | settling .. => false

end TimerStage

/-- A timer queue in the middle of whatever it does. -/
structure TimerSteps where
  queue : TimerQueue
  stage : TimerStage
  /-- The timers that `addTimer` has allocated and `addTimerInLoop` has yet to be called for. -/
  unqueued : Finset Addr

inductive TimerStep
  /-- `new Timer(..)` at `a`, in any thread. -/
  | new (a : Addr) (timer : Timer)
  | addTimerInLoop (a : Addr) (now : Time)
  | cancelInLoop (a : Addr)
  /-- `handleRead()`, up to the first callback. -/
  | handleRead (now : Time) (order : IterOrder)
  /-- The next callback is called. -/
  | run
  /-- The last callback has returned. -/
  | called
  /-- The next timer of the batch is queued again or deleted. -/
  | settle
  /-- `handleRead()` returns, the timerfd being set, if it is, at `later`. -/
  | finish (later : Time)

/-- The end of `handleRead()`. -/
def TimerQueue.rearm (q : TimerQueue) (changed : Bool) (later : Time) : TimerQueue :=
  if changed then
    match q.timers.first? with
    | some first => q.resetTimerfd first later
    | none => q
  else q

namespace TimerSteps

/-- No timer. -/
def new (heap : Addr → Timer) : TimerSteps := ⟨.new heap, .idle, ∅⟩

def step (s : TimerSteps) : TimerStep → TimerSteps
  | .new a timer =>
    { s with queue := s.queue.allocate a timer, unqueued := Insert.insert a s.unqueued }
  | .addTimerInLoop a now =>
    if s.stage.callsOut ∧ a ∈ s.unqueued then
      { s with queue := s.queue.addTimerInLoop a now, unqueued := s.unqueued.erase a }
    else s
  | .cancelInLoop a => if s.stage.callsOut then { s with queue := s.queue.cancelInLoop a } else s
  | .handleRead now order =>
    match s.stage with
    | .idle =>
      let q := s.queue.consumeTimerfd
      let batch := q.expired now order
      { s with queue := q.beginBatch now order, stage := .calling now batch batch }
    | _ => s
  | .run =>
    match s.stage with
    | .calling now batch (_ :: left) => { s with stage := .calling now batch left }
    | _ => s
  | .called =>
    match s.stage with
    | .calling now batch [] =>
      { s with
        queue := { s.queue with callingExpiredTimers := false }
        stage := .settling now batch false }
    | _ => s
  | .settle =>
    match s.stage with
    | .settling now (a :: left) changed =>
      { s with
        queue := (s.queue.settle now a).2
        stage := .settling now left (changed || (s.queue.settle now a).1) }
    | _ => s
  | .finish later =>
    match s.stage with
    | .settling _ [] changed => { s with queue := s.queue.rearm changed later, stage := .idle }
    | _ => s

/-- **Memory in use is not handed out again.** -/
def Allocates (s : TimerSteps) : TimerStep → Prop
  | .new a _ => a ∉ s.queue.live
  | _ => True

instance (s : TimerSteps) : ∀ e, Decidable (s.Allocates e)
  | .new _ _ => inferInstanceAs (Decidable (_ ∉ _))
  | .addTimerInLoop .. | .cancelInLoop _ | .handleRead .. | .run | .called | .settle | .finish _ =>
    .isTrue trivial

/-! ## The steps of an expiration -/

/-- The steps of a call made in the loop thread. -/
def opSteps : QueueOp → List TimerStep
  | .addTimer a timer now => [.new a timer, .addTimerInLoop a now]
  | .cancel a => [.cancelInLoop a]

/-- The steps of `handleRead()` over `batch`, the callbacks making the calls of `script`. -/
def readSteps (now : Time) (order : IterOrder) (batch : List Addr) (script : Addr → List QueueOp)
    (later : Time) : List TimerStep :=
  .handleRead now order :: batch.flatMap (fun a => .run :: (script a).flatMap opSteps)
    ++ .called :: batch.map (fun _ => .settle) ++ [.finish later]

variable {s : TimerSteps}

/-- A call is its steps. -/
theorem run_opSteps (hs : s.stage.callsOut = true) (op : QueueOp) :
    (run step s (opSteps op)).queue = s.queue.perform op
      ∧ (run step s (opSteps op)).stage = s.stage := by
  cases op with
  | addTimer a timer now =>
    rw [opSteps, run_cons, run_cons, run_nil]
    have hadd : (s.step (.new a timer)).step (.addTimerInLoop a now)
        = { s with
            queue := (s.queue.allocate a timer).addTimerInLoop a now
            unqueued := (Insert.insert a s.unqueued).erase a } :=
      if_pos ⟨hs, Finset.mem_insert_self a s.unqueued⟩
    rw [hadd]
    exact ⟨rfl, rfl⟩
  | cancel a =>
    rw [opSteps, run_cons, run_nil, step, if_pos hs]
    exact ⟨rfl, rfl⟩

theorem run_calls (hs : s.stage.callsOut = true) (ops : List QueueOp) :
    (run step s (ops.flatMap opSteps)).queue = ops.foldl TimerQueue.perform s.queue
      ∧ (run step s (ops.flatMap opSteps)).stage = s.stage := by
  induction ops generalizing s with
  | nil => exact ⟨rfl, rfl⟩
  | cons op ops ih =>
    obtain ⟨hqueue, hstage⟩ := run_opSteps hs op
    rw [List.flatMap_cons, run_append, List.foldl_cons, ← hqueue, ← hstage]
    exact ih (hstage ▸ hs)

/-- The callbacks of a batch, one after the other. -/
theorem run_callbacks {now : Time} {batch left : List Addr} (hs : s.stage = .calling now batch left)
    (script : Addr → List QueueOp) :
    (run step s (left.flatMap fun a => .run :: (script a).flatMap opSteps)).queue
        = (left.flatMap script).foldl TimerQueue.perform s.queue
      ∧ (run step s (left.flatMap fun a => .run :: (script a).flatMap opSteps)).stage
        = .calling now batch [] := by
  induction left generalizing s with
  | nil => exact ⟨rfl, hs⟩
  | cons a left ih =>
    have hrun : s.step .run = { s with stage := .calling now batch left } := by rw [step, hs]
    obtain ⟨hqueue, hstage⟩ := @run_calls (s.step .run) (by rw [hrun]; rfl) (script a)
    rw [hrun] at hqueue hstage
    rw [List.flatMap_cons, List.cons_append, run_cons, run_append, hrun, List.flatMap_cons,
      List.foldl_append, ← hqueue]
    exact ih hstage

/-- The timers of a batch are settled one after the other. -/
theorem run_settles {now : Time} {left : List Addr} {changed : Bool}
    (hs : s.stage = .settling now left changed) :
    (run step s (left.map fun _ => .settle)).queue = (s.queue.settleAll now left).2
      ∧ (run step s (left.map fun _ => .settle)).stage
        = .settling now [] (changed || (s.queue.settleAll now left).1) := by
  induction left generalizing s changed with
  | nil => exact ⟨rfl, by simpa [TimerQueue.settleAll] using hs⟩
  | cons a left ih =>
    have hsettle : s.step .settle = { s with
        queue := (s.queue.settle now a).2
        stage := .settling now left (changed || (s.queue.settle now a).1) } := by rw [step, hs]
    rw [List.map_cons, run_cons, hsettle, TimerQueue.settleAll_cons, ← Bool.or_assoc]
    exact ih rfl

/-- **The steps of an expiration are `handleRead`.** -/
theorem run_handleRead (hs : s.stage = .idle) (now : Time) (order : IterOrder)
    (script : Addr → List QueueOp) (later : Time) :
    (run step s (readSteps now order (s.queue.expired now order) script later)).queue
        = s.queue.handleRead now order script later
      ∧ (run step s (readSteps now order (s.queue.expired now order) script later)).stage = .idle := by
  set batch := s.queue.expired now order with hbatch
  have hbegin : s.step (.handleRead now order) = { s with
      queue := s.queue.consumeTimerfd.beginBatch now order
      stage := .calling now batch batch } := by
    rw [step, hs]
    rfl
  obtain ⟨hqueue, hstage⟩ := @run_callbacks (s.step (.handleRead now order)) now batch batch
    (by rw [hbegin]) script
  set called := run step (s.step (.handleRead now order))
    (batch.flatMap fun a => .run :: (script a).flatMap opSteps) with hcalled
  have hend : called.step .called = { called with
      queue := s.queue.called now order script
      stage := .settling now batch false } := by
    rw [step, hstage, hqueue, hbegin]
    rfl
  obtain ⟨hsettled, hleft⟩ := @run_settles (called.step .called) now batch false (by rw [hend])
  set settled := run step (called.step .called) (batch.map fun _ => .settle) with hsettledDef
  have hall : run step s (readSteps now order batch script later) = settled.step (.finish later) := by
    rw [readSteps, List.append_assoc, List.cons_append, run_cons, run_append, ← hcalled, List.cons_append,
      run_cons, run_append, ← hsettledDef]
    rfl
  rw [hall, step, hleft]
  refine ⟨?_, rfl⟩
  show settled.queue.rearm _ later = _
  rw [hsettled, hend, Bool.false_or]
  rfl

/-! ## What holds between two steps -/

/-- **A timer that is there is queued, in the batch, or on its way into the queue**, and only one of
them. -/
structure Sound (s : TimerSteps) : Prop where
  indexed : s.queue.Indexed
  filled : s.queue.timers.Filled
  live : ∀ a, a ∈ s.queue.live ↔ a ∈ s.queue.activeTimers ∨ a ∈ s.stage.pending ∨ a ∈ s.unqueued
  nodup : s.stage.pending.Nodup
  away : ∀ a ∈ s.stage.pending, a ∉ s.queue.activeTimers
  apart : ∀ a ∈ s.unqueued, a ∉ s.queue.activeTimers ∧ a ∉ s.stage.pending
  calling : s.queue.callingExpiredTimers = s.stage.isCalling

theorem sound_new (heap : Addr → Timer) : (new heap).Sound := by
  refine ⟨fun a w => ?_, BucketMap.filled_empty, fun a => ?_, List.nodup_nil, fun a ha => ?_,
    fun a ha => ?_, rfl⟩
  · simp [new, TimerQueue.new, BucketMap.mem_bucket_iff, BucketMap.empty]
  · simp [new, TimerQueue.new, TimerStage.pending]
  · cases ha
  · exact absurd ha (Finset.notMem_empty a)

/-- Whether the timerfd is set at the end of `handleRead()` makes no difference here. -/
theorem exists_timerfd_rearm (q : TimerQueue) (changed : Bool) (later : Time) :
    ∃ fd, q.rearm changed later = { q with timerfd := fd } := by
  rw [TimerQueue.rearm]
  split
  · split
    · exact ⟨_, rfl⟩
    · exact ⟨_, rfl⟩
  · exact ⟨_, rfl⟩

/-- **A timer is allocated** where none is. -/
theorem Sound.allocate (h : s.Sound) {a : Addr} (ha : a ∉ s.queue.live) (timer : Timer) :
    (s.step (.new a timer)).Sound := by
  obtain ⟨hactive, hpending, -⟩ : a ∉ s.queue.activeTimers ∧ a ∉ s.stage.pending ∧ a ∉ s.unqueued := by
    simpa only [h.live a, not_or] using ha
  refine ⟨h.indexed.write hactive timer, h.filled, fun b => ?_, h.nodup, h.away, fun b hb => ?_,
    h.calling⟩
  · show b ∈ Insert.insert a s.queue.live
      ↔ b ∈ s.queue.activeTimers ∨ b ∈ s.stage.pending ∨ b ∈ Insert.insert a s.unqueued
    rw [Finset.mem_insert, Finset.mem_insert, h.live b]
    tauto
  · rcases Finset.mem_insert.mp hb with rfl | hb
    · exact ⟨hactive, hpending⟩
    · exact h.apart b hb

/-- **…and then queued.** -/
theorem Sound.addTimerInLoop (h : s.Sound) (a : Addr) (now : Time) :
    (s.step (.addTimerInLoop a now)).Sound := by
  rw [step]
  split
  · rename_i ha
    obtain ⟨-, ha⟩ := ha
    obtain ⟨fd, hfd⟩ := TimerQueue.exists_timerfd s.queue a now
    rw [hfd]
    refine ⟨h.indexed.insert a, h.filled.update (Finset.insert_ne_empty a _), fun b => ?_, h.nodup,
      fun b hb hin => ?_, fun b hb => ?_, h.calling⟩
    · show b ∈ s.queue.live ↔ b ∈ Insert.insert a s.queue.activeTimers ∨ b ∈ s.stage.pending
        ∨ b ∈ s.unqueued.erase a
      rw [h.live b, Finset.mem_insert, Finset.mem_erase]
      rcases eq_or_ne b a with rfl | hne
      · simp [ha]
      · simp [hne]
    · rcases Finset.mem_insert.mp hin with rfl | hin
      · exact (h.apart b ha).2 hb
      · exact h.away b hb hin
    · obtain ⟨hne, hb⟩ := Finset.mem_erase.mp hb
      refine ⟨fun hin => ?_, (h.apart b hb).2⟩
      exact (h.apart b hb).1 (Finset.mem_of_mem_insert_of_ne hin hne)
  · exact h

/-- **A cancellation**, by whatever address. -/
theorem Sound.cancelInLoop (h : s.Sound) (a : Addr) : (s.step (.cancelInLoop a)).Sound := by
  have hindexed := h.indexed.cancelInLoop a
  rw [step]
  split
  · rw [TimerQueue.cancelInLoop] at hindexed ⊢
    split
    · rename_i ha
      rw [if_pos ha] at hindexed
      have haway : a ∉ s.stage.pending := fun hin => h.away a hin ha
      have hapart : a ∉ s.unqueued := fun hin => (h.apart a hin).1 ha
      refine ⟨hindexed, h.filled.prune _ _, fun b => ?_, h.nodup, fun b hb hin => ?_, fun b hb => ?_,
        h.calling⟩
      · show b ∈ s.queue.live.erase a
          ↔ b ∈ s.queue.activeTimers.erase a ∨ b ∈ s.stage.pending ∨ b ∈ s.unqueued
        rw [Finset.mem_erase, Finset.mem_erase, h.live b]
        rcases eq_or_ne b a with rfl | hne
        · simp [haway, hapart]
        · simp [hne]
      · exact h.away b hb (Finset.mem_of_mem_erase hin)
      · exact ⟨fun hin => (h.apart b hb).1 (Finset.mem_of_mem_erase hin), (h.apart b hb).2⟩
    · split
      · exact ⟨h.indexed, h.filled, h.live, h.nodup, h.away, h.apart, h.calling⟩
      · exact h
  · exact h

/-- **The batch is taken out of both indexes.** -/
theorem Sound.handleRead (h : s.Sound) (now : Time) (order : IterOrder) :
    (s.step (.handleRead now order)).Sound := by
  rw [step]
  split
  · rename_i hidle
    have hmem := fun a => @TimerQueue.mem_expired s.queue now order h.indexed a
    refine ⟨h.indexed.beginBatch, h.filled.filter _, fun a => ?_,
      (TimerQueue.pairwise_expired h.indexed).1, fun a ha hin => ?_, fun a ha => ?_, rfl⟩
    · have hlive := h.live a
      rw [hidle] at hlive
      show a ∈ s.queue.live ↔ a ∈ s.queue.activeTimers \ (s.queue.expired now order).toFinset
        ∨ a ∈ s.queue.expired now order ∨ a ∈ s.unqueued
      have hactive := (hmem a).mp
      rw [hlive, Finset.mem_sdiff, List.mem_toFinset]
      simp only [TimerStage.pending, List.not_mem_nil, false_or]
      tauto
    · exact (Finset.mem_sdiff.mp hin).2 (List.mem_toFinset.mpr ha)
    · have hapart := (h.apart a ha).1
      exact ⟨fun hin => hapart (Finset.mem_sdiff.mp hin).1, fun hin => hapart ((hmem a).mp hin).1⟩
  · exact h

/-- **A timer of the batch** is queued again under its new deadline, or deleted. -/
theorem Sound.settle (h : s.Sound) : (s.step .settle).Sound := by
  rw [step]
  split
  · rename_i now a left changed hstage
    have hpending : s.stage.pending = a :: left := by rw [hstage]; rfl
    obtain ⟨hindexed, hfilled, hlive, hnodup, haway, hapart, hcalling⟩ := h
    rw [hstage] at hcalling
    rw [hpending] at hnodup haway
    have ha := haway a List.mem_cons_self
    obtain ⟨hnot, hnodup⟩ := List.nodup_cons.mp hnodup
    have hunqueued : a ∉ s.unqueued := fun hin =>
      (hapart a hin).2 (by rw [hpending]; exact List.mem_cons_self)
    have hleft : ∀ b ∈ s.unqueued, b ∉ left := fun b hb hin =>
      (hapart b hb).2 (by rw [hpending]; exact List.mem_cons_of_mem a hin)
    have hlive' : ∀ b, b ∈ s.queue.live
        ↔ b ∈ s.queue.activeTimers ∨ (b = a ∨ b ∈ left) ∨ b ∈ s.unqueued := fun b => by
      rw [hlive b, hpending, List.mem_cons]
    by_cases hr : s.queue.Restarts a
    · rw [TimerQueue.settle_of_restarts hr]
      refine ⟨(hindexed.write ha _).insert a, hfilled.update (Finset.insert_ne_empty a _), fun b => ?_,
        hnodup, fun b hb hin => ?_, fun b hb => ⟨fun hin => ?_, hleft b hb⟩, hcalling⟩
      · show b ∈ s.queue.live ↔ b ∈ Insert.insert a s.queue.activeTimers ∨ b ∈ left ∨ b ∈ s.unqueued
        rw [hlive' b, Finset.mem_insert]
        tauto
      · rcases Finset.mem_insert.mp hin with rfl | hin
        · exact hnot hb
        · exact haway b (List.mem_cons_of_mem a hb) hin
      · rcases Finset.mem_insert.mp hin with rfl | hin
        · exact hunqueued hb
        · exact (hapart b hb).1 hin
    · rw [TimerQueue.settle_of_not_restarts hr]
      refine ⟨hindexed, hfilled, fun b => ?_, hnodup, fun b hb => haway b (List.mem_cons_of_mem a hb),
        fun b hb => ⟨(hapart b hb).1, hleft b hb⟩, hcalling⟩
      show b ∈ s.queue.live.erase a ↔ b ∈ s.queue.activeTimers ∨ b ∈ left ∨ b ∈ s.unqueued
      rw [Finset.mem_erase, hlive' b]
      rcases eq_or_ne b a with rfl | hne
      · simp [ha, hnot, hunqueued]
      · simp [hne]
  · exact h

/-- `handleRead()` moves on, over the same timers. -/
theorem Sound.move (h : s.Sound) {queue : TimerQueue} {stage : TimerStage}
    (hqueue : ∃ fd calling, queue = { s.queue with timerfd := fd, callingExpiredTimers := calling })
    (hpending : s.stage.pending = stage.pending) (hcalling : queue.callingExpiredTimers = stage.isCalling) :
    Sound { s with queue := queue, stage := stage } := by
  obtain ⟨fd, calling, rfl⟩ := hqueue
  obtain ⟨hindexed, hfilled, hlive, hnodup, haway, hapart, -⟩ := h
  rw [hpending] at hlive hnodup haway hapart
  exact ⟨hindexed, hfilled, hlive, hnodup, haway, hapart, hcalling⟩

/-- **Every step**, when memory in use is not handed out again. -/
theorem Sound.step (h : s.Sound) {e : TimerStep} (he : s.Allocates e) : (s.step e).Sound := by
  have hcalling := h.calling
  cases e with
  | new a timer => exact h.allocate he timer
  | addTimerInLoop a now => exact h.addTimerInLoop a now
  | cancelInLoop a => exact h.cancelInLoop a
  | handleRead now order => exact h.handleRead now order
  | run =>
    rw [TimerSteps.step]
    split
    · rename_i hstage
      rw [hstage] at hcalling
      exact h.move ⟨_, _, rfl⟩ (by rw [hstage]; rfl) hcalling
    · exact h
  | called =>
    rw [TimerSteps.step]
    split
    · rename_i hstage
      exact h.move ⟨_, _, rfl⟩ (by rw [hstage]; rfl) rfl
    · exact h
  | settle => exact h.settle
  | finish later =>
    rw [TimerSteps.step]
    split
    · rename_i now changed hstage
      rw [hstage] at hcalling
      obtain ⟨fd, hfd⟩ := exists_timerfd_rearm s.queue changed later
      rw [hfd]
      exact h.move ⟨fd, _, rfl⟩ (by rw [hstage]; rfl) hcalling
    · exact h

/-- **The two indexes agree**, in every state of a run and so at every point of a callback: no bucket is
empty, a timer in the bucket of `w` is due at `w` and in no other bucket, and `_activeTimers` is the union
of the buckets.  So `cancelInLoop` finds each active timer in the bucket of its deadline, and no timer in
either index has been deleted. -/
theorem indexes_agree (heap : Addr → Timer) (es : List TimerStep)
    (hes : Meets step Allocates (new heap) es) :
    let q := (run step (new heap) es).queue
    (∀ e ∈ q.timers.entries, e.2 ≠ ∅)
      ∧ (∀ w, ∀ a ∈ q.timers.bucket w,
        (q.heap a).deadline = w ∧ ∀ w', a ∈ q.timers.bucket w' → w' = w)
      ∧ (∀ a, a ∈ q.activeTimers ↔ ∃ w, a ∈ q.timers.bucket w)
      ∧ ∀ a ∈ q.activeTimers, a ∈ q.timers.bucket (q.heap a).deadline ∧ a ∈ q.live := by
  intro q
  have hs : (run step (new heap) es).Sound := inv_run (fun _ _ h he => h.step he) (sound_new heap) hes
  have hfound : ∀ a ∈ q.activeTimers, a ∈ q.timers.bucket (q.heap a).deadline := fun a ha =>
    (hs.indexed a _).mpr ⟨ha, rfl⟩
  refine ⟨hs.filled, fun w a ha => ?_, fun a => ⟨fun ha => ⟨_, hfound a ha⟩, ?_⟩,
    fun a ha => ⟨hfound a ha, (hs.live a).mpr (.inl ha)⟩⟩
  · have hdue := ((hs.indexed a w).mp ha).2
    exact ⟨hdue, fun w' ha' => ((hs.indexed a w').mp ha').2.symm.trans hdue⟩
  · rintro ⟨w, ha⟩
    exact ((hs.indexed a w).mp ha).1

/-- Two timers are due.  The first cancels the second and another timer, whose memory is used again at
once; then the first is queued under its next deadline. -/
theorem indexes_agree_reused :
    let q := (run step (new fun _ => ⟨0, false, 0⟩)
      [.new 0 ⟨1, true, 10⟩, .addTimerInLoop 0 0, .new 1 ⟨2, true, 10⟩, .addTimerInLoop 1 0,
        .new 2 ⟨9, false, 0⟩, .addTimerInLoop 2 0, .handleRead 5 .ascending, .run, .cancelInLoop 1,
        .cancelInLoop 2, .new 2 ⟨3, true, 4⟩, .addTimerInLoop 2 5, .run, .called, .settle]).queue
    (∀ e ∈ q.timers.entries, e.2 ≠ ∅)
      ∧ (∀ w, ∀ a ∈ q.timers.bucket w,
        (q.heap a).deadline = w ∧ ∀ w', a ∈ q.timers.bucket w' → w' = w)
      ∧ (∀ a, a ∈ q.activeTimers ↔ ∃ w, a ∈ q.timers.bucket w)
      ∧ ∀ a ∈ q.activeTimers, a ∈ q.timers.bucket (q.heap a).deadline ∧ a ∈ q.live :=
  indexes_agree _ _ (by decide)

end TimerSteps
