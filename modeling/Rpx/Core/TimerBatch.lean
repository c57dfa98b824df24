import Rpx.Core.TimerArming

/-!
# Core/TimerBatch — what an expiration runs, and who owns a timer

    queued ── deadline passed ──▶ in the batch ──▶ run ──▶ queued again, or deleted
       └────────── cancelled ──────────────────────────────▶ deleted

A timer that was allocated is queued, in the batch of an expiration, or deleted.  A cancellation
deletes it where it is queued, and where it is in the batch only keeps it from being queued again.
`TimerHistory` is a queue with the history of its timers; `Held` says who owns each of them.

`batch_run` — an expiration runs each timer due once, in the order of the deadlines, and then queues it
again or deletes it, once; and no timer is touched once deleted.
-/

open Machinery

namespace TimerQueue

variable {q : TimerQueue}

/-! ## The two indexes -/

/-- **`_timers` and `_activeTimers` agree**: a queued timer is in the bucket of its deadline alone. -/
def Indexed (q : TimerQueue) : Prop :=
  ∀ a w, a ∈ q.timers.bucket w ↔ a ∈ q.activeTimers ∧ (q.heap a).deadline = w

/-- What is written where no queued timer lies. -/
theorem Indexed.write (h : q.Indexed) {a : Addr} (ha : a ∉ q.activeTimers) (timer : Timer) :
    Indexed { q with heap := Function.update q.heap a timer } := by
  intro b w
  rw [h b w]
  refine and_congr_right fun hb => ?_
  have hne : b ≠ a := fun heq => ha (heq ▸ hb)
  show (q.heap b).deadline = w ↔ (Function.update q.heap a timer b).deadline = w
  rw [Function.update_of_ne hne]

theorem Indexed.insert (h : q.Indexed) (a : Addr) : (q.insert a).2.Indexed := by
  intro b w
  show b ∈ (q.timers.update (q.heap a).deadline (Insert.insert a)).bucket w
    ↔ b ∈ Insert.insert a q.activeTimers ∧ (q.heap b).deadline = w
  rw [Finset.mem_insert]
  rcases eq_or_ne w (q.heap a).deadline with rfl | hw
  · rw [BucketMap.bucket_update, Finset.mem_insert, h b _, or_and_right]
    exact or_congr_left ⟨fun heq => ⟨heq, by rw [heq]⟩, And.left⟩
  · rw [BucketMap.bucket_update_of_ne _ _ hw, h b w, or_and_right]
    refine ⟨.inr, fun hor => hor.resolve_left ?_⟩
    rintro ⟨rfl, hwb⟩
    exact hw hwb.symm

/-- A cancellation takes a queued timer out of both. -/
theorem Indexed.cancelInLoop (h : q.Indexed) (a : Addr) : (q.cancelInLoop a).Indexed := by
  rw [TimerQueue.cancelInLoop]
  split
  · rename_i ha
    intro b w
    have hbucket : b ∈ (q.timers.update (q.heap a).deadline (·.erase a)).bucket w
        ↔ b ≠ a ∧ b ∈ q.timers.bucket w := by
      rcases eq_or_ne w (q.heap a).deadline with rfl | hw
      · rw [BucketMap.bucket_update, Finset.mem_erase]
      · rw [BucketMap.bucket_update_of_ne _ _ hw]
        refine ⟨fun hb => ⟨?_, hb⟩, And.right⟩
        rintro rfl
        exact hw ((h b w).mp hb).2.symm
    have hmem : b ∈ (q.timers.update (q.heap a).deadline (·.erase a)).bucket w
        ↔ b ∈ q.activeTimers.erase a ∧ (q.heap b).deadline = w := by
      rw [hbucket, h b w, Finset.mem_erase, and_assoc]
    show b ∈ (if (q.timers.update (q.heap a).deadline (·.erase a)).bucket (q.heap a).deadline = ∅ then
        (q.timers.update (q.heap a).deadline (·.erase a)).erase (q.heap a).deadline
      else q.timers.update (q.heap a).deadline (·.erase a)).bucket w
        ↔ b ∈ q.activeTimers.erase a ∧ (q.heap b).deadline = w
    split
    · rename_i hempty
      rw [BucketMap.erase, BucketMap.mem_bucket_filter, hmem]
      refine ⟨And.left, fun hb => ⟨hb, ?_⟩⟩
      rw [decide_eq_true_iff]
      rintro rfl
      have hin := hmem.mpr hb
      rw [hempty] at hin
      exact Finset.notMem_empty b hin
    · exact hmem
  · split
    · exact h
    · exact h

/-! ## The batch -/

variable {now : Time} {order : IterOrder}

/-- **The batch is what is due.** -/
theorem mem_expired (h : q.Indexed) (a : Addr) :
    a ∈ q.expired now order ↔ a ∈ q.activeTimers ∧ (q.heap a).deadline ≤ now := by
  have hbucket : a ∈ q.expired now order ↔ ∃ w, a ∈ q.timers.bucket w ∧ w ≤ now := by
    simp only [expired, List.mem_flatMap, order.mem_iff, BucketMap.upTo, BucketMap.filter,
      List.mem_filter, decide_eq_true_iff, BucketMap.mem_bucket_iff]
    constructor
    · rintro ⟨e, ⟨he, hle⟩, ha⟩
      exact ⟨e.1, ⟨e.2, he, ha⟩, hle⟩
    · rintro ⟨w, ⟨b, hb, ha⟩, hle⟩
      exact ⟨(w, b), ⟨hb, hle⟩, ha⟩
  rw [hbucket]
  constructor
  · rintro ⟨w, ha, hle⟩
    obtain ⟨hactive, rfl⟩ := (h a w).mp ha
    exact ⟨hactive, hle⟩
  · rintro ⟨hactive, hle⟩
    exact ⟨_, (h a _).mpr ⟨hactive, rfl⟩, hle⟩

/-- A timer in the bucket of an entry has its deadline. -/
theorem Indexed.deadline (h : q.Indexed) {e : Time × Finset Addr} (he : e ∈ q.timers.entries) {a : Addr}
    (ha : a ∈ e.2) : (q.heap a).deadline = e.1 :=
  ((h a e.1).mp (BucketMap.mem_bucket_iff.mpr ⟨e.2, he, ha⟩)).2

/-- **The batch runs in the order of the deadlines**, each timer once. -/
theorem pairwise_expired (h : q.Indexed) :
    (q.expired now order).Nodup
      ∧ (q.expired now order).Pairwise fun a b => (q.heap a).deadline ≤ (q.heap b).deadline := by
  have hsorted := (q.timers.upTo now).sorted
  have hentries : ∀ e ∈ (q.timers.upTo now).entries, e ∈ q.timers.entries :=
    fun e he => (List.mem_filter.mp he).1
  constructor
  · rw [expired, List.nodup_flatMap]
    refine ⟨fun e _ => order.nodup e.2, hsorted.imp_of_mem fun he he' hlt a ha ha' => ?_⟩
    have hdeadline := h.deadline (hentries _ he) ((order.mem_iff _ a).mp ha)
    rw [h.deadline (hentries _ he') ((order.mem_iff _ a).mp ha')] at hdeadline
    exact hlt.ne' hdeadline
  · rw [expired, List.pairwise_flatMap]
    refine ⟨fun e he => ?_, hsorted.imp_of_mem fun he he' hlt a ha b hb => ?_⟩
    · refine List.Pairwise.imp_of_mem (fun ha hb _ => ?_) (order.nodup e.2)
      rw [h.deadline (hentries e he) ((order.mem_iff _ _).mp ha),
        h.deadline (hentries e he) ((order.mem_iff _ _).mp hb)]
    · rw [h.deadline (hentries _ he) ((order.mem_iff _ a).mp ha),
        h.deadline (hentries _ he') ((order.mem_iff _ b).mp hb)]
      exact hlt.le

/-- The batch leaves both indexes. -/
theorem Indexed.beginBatch (h : q.Indexed) : (q.beginBatch now order).Indexed := by
  intro a w
  show a ∈ (q.timers.after now).bucket w
    ↔ a ∈ q.activeTimers \ (q.expired now order).toFinset ∧ (q.heap a).deadline = w
  rw [BucketMap.after, BucketMap.mem_bucket_filter, h a w, Finset.mem_sdiff, List.mem_toFinset,
    mem_expired h, decide_eq_true_iff]
  constructor
  · rintro ⟨⟨hactive, rfl⟩, hlt⟩
    exact ⟨⟨hactive, fun hdue => absurd hdue.2 (not_le.mpr hlt)⟩, rfl⟩
  · rintro ⟨⟨hactive, hdue⟩, rfl⟩
    exact ⟨⟨hactive, rfl⟩, not_le.mp fun hle => hdue ⟨hactive, hle⟩⟩

/-- Of what `handleRead()` leaves, the timerfd alone is not the work of the callbacks and the settling. -/
theorem handleRead_eq (q : TimerQueue) {script : Addr → List QueueOp} {later : Time} :
    q.handleRead now order script later =
      { ((q.called now order script).settleAll now (q.expired now order)).2 with
        timerfd := (q.handleRead now order script later).timerfd } := by
  have hread : ∃ fd, q.handleRead now order script later =
      { ((q.called now order script).settleAll now (q.expired now order)).2 with timerfd := fd } := by
    rw [handleRead]
    dsimp only
    split
    · split
      · exact ⟨_, rfl⟩
      · exact ⟨_, rfl⟩
    · exact ⟨_, rfl⟩
  obtain ⟨fd, hfd⟩ := hread
  rw [hfd]

/-- Whether the timerfd is set makes no difference here. -/
theorem exists_timerfd (q : TimerQueue) (a : Addr) (now : Time) :
    ∃ fd, q.addTimerInLoop a now = { (q.insert a).2 with timerfd := fd } := by
  rw [addTimerInLoop]
  dsimp only
  split
  · exact ⟨_, rfl⟩
  · exact ⟨_, rfl⟩

end TimerQueue

/-! ## The history of the timers -/

/-- A queue, and what became of its timers. -/
structure TimerHistory where
  queue : TimerQueue
  /-- Every address a timer was allocated at. -/
  created : Finset Addr
  /-- The timers run, and those deleted, in order. -/
  ran : List Addr
  destroyed : List Addr
  /-- A timer that is not there was touched. -/
  stray : Bool

namespace TimerHistory

def new (heap : Addr → Timer) : TimerHistory := ⟨.new heap, ∅, [], [], false⟩

variable (t : TimerHistory)

/-- A member of the timer is called or read, or it is deleted. -/
def touch (a : Addr) : TimerHistory := { t with stray := t.stray || decide (a ∉ t.queue.live) }

/-- `delete timer`, after which the queue is `q`. -/
def destroy (a : Addr) (q : TimerQueue) : TimerHistory :=
  { t.touch a with
    queue := q
    destroyed := t.destroyed ++ [a] }

def perform : QueueOp → TimerHistory
  | .addTimer a timer now =>
    touch { t with
      queue := t.queue.perform (.addTimer a timer now)
      created := Insert.insert a t.created } a
  | .cancel a =>
    if a ∈ t.queue.activeTimers then t.destroy a (t.queue.cancelInLoop a)
    else { t with queue := t.queue.cancelInLoop a }

/-- `timer->run()`, which makes the calls that `script` gives it. -/
def runTimer (script : Addr → List QueueOp) (a : Addr) : TimerHistory :=
  (script a).foldl perform { t.touch a with ran := t.ran ++ [a] }

/-- A timer of the batch is queued again, or deleted. -/
def settle (now : Time) (a : Addr) : TimerHistory :=
  if (t.queue.heap a).repeated ∧ a ∉ t.queue.cancelingTimers then
    { t.touch a with queue := (t.queue.settle now a).2 }
  else t.destroy a (t.queue.settle now a).2

/-- The batch when its last callback has returned. -/
def called (now : Time) (order : IterOrder) (script : Addr → List QueueOp) : TimerHistory :=
  let q := t.queue.consumeTimerfd
  let t := (q.expired now order).foldl (fun t a => t.runTimer script a)
    { t with queue := q.beginBatch now order }
  { t with queue := { t.queue with callingExpiredTimers := false } }

/-- `handleRead()`, with the history; the timerfd is that of the queue alone. -/
def handleRead (now : Time) (order : IterOrder) (script : Addr → List QueueOp) (later : Time) :
    TimerHistory :=
  let t' := (t.queue.expired now order).foldl (fun t a => t.settle now a) (t.called now order script)
  { t' with queue := { t'.queue with timerfd := (t.queue.handleRead now order script later).timerfd } }

/-! ## The history is that of the queue -/

variable {t} {now : Time} {order : IterOrder} {script : Addr → List QueueOp} {later : Time}

theorem queue_perform (op : QueueOp) : (t.perform op).queue = t.queue.perform op := by
  cases op with
  | addTimer a timer now => rfl
  | cancel a =>
    rw [perform]
    split
    · rfl
    · rfl

theorem queue_foldl_perform (ops : List QueueOp) :
    (ops.foldl perform t).queue = ops.foldl TimerQueue.perform t.queue := by
  induction ops generalizing t with
  | nil => rfl
  | cons op ops ih => rw [List.foldl_cons, List.foldl_cons, ih, queue_perform]

theorem queue_foldl_runTimer (batch : List Addr) :
    (batch.foldl (fun t a => t.runTimer script a) t).queue
      = (batch.flatMap script).foldl TimerQueue.perform t.queue := by
  induction batch generalizing t with
  | nil => rfl
  | cons a batch ih =>
    rw [List.foldl_cons, ih, List.flatMap_cons, List.foldl_append, runTimer, queue_foldl_perform]
    rfl

theorem queue_settle (a : Addr) : (t.settle now a).queue = (t.queue.settle now a).2 := by
  rw [settle]
  split
  · rfl
  · rfl

theorem queue_foldl_settle (batch : List Addr) :
    (batch.foldl (fun t a => t.settle now a) t).queue = (t.queue.settleAll now batch).2 := by
  induction batch generalizing t with
  | nil => rfl
  | cons a batch ih => rw [List.foldl_cons, ih, queue_settle, TimerQueue.settleAll_cons]

theorem queue_called : (t.called now order script).queue = t.queue.called now order script := by
  rw [called]
  dsimp only
  rw [queue_foldl_runTimer]
  rfl

/-- **The history is kept beside the queue** and changes nothing. -/
theorem queue_handleRead :
    (t.handleRead now order script later).queue = t.queue.handleRead now order script later := by
  have hsettled := @queue_foldl_settle (t.called now order script) now (t.queue.expired now order)
  rw [queue_called] at hsettled
  rw [handleRead]
  dsimp only
  rw [hsettled]
  exact t.queue.handleRead_eq.symm

/-! ## Who owns a timer -/

/-- **Each timer there is queued, or is one of the `pending` of a batch.** -/
structure Held (pending : List Addr) (t : TimerHistory) : Prop where
  indexed : t.queue.Indexed
  live : ∀ a, a ∈ t.queue.live ↔ a ∈ t.queue.activeTimers ∨ a ∈ pending
  nodup : pending.Nodup
  away : ∀ a ∈ pending, a ∉ t.queue.activeTimers
  created : ∀ a ∈ t.queue.live, a ∈ t.created
  once : t.destroyed.Nodup
  gone : ∀ a ∈ t.destroyed, a ∈ t.created ∧ a ∉ t.queue.live
  stray : t.stray = false

variable {pending : List Addr}

theorem held_new (heap : Addr → Timer) : (new heap).Held [] := by
  refine ⟨fun a w => ?_, fun a => ?_, List.nodup_nil, fun a ha => ?_, fun a ha => ?_, List.nodup_nil,
    fun a ha => ?_, rfl⟩
  · simp [new, TimerQueue.new, BucketMap.mem_bucket_iff, BucketMap.empty]
  · simp [new, TimerQueue.new]
  · cases ha
  · exact absurd ha (Finset.notMem_empty a)
  · cases ha

/-- A timer that is there is not touched astray. -/
theorem stray_touch {a : Addr} (ha : a ∈ t.queue.live) (h : t.stray = false) :
    (t.touch a).stray = false := by
  simp [touch, ha, h]

/-- **A timer is deleted**, and its address is not used again. -/
theorem Held.destroy (h : t.Held pending) {a : Addr} (ha : a ∈ t.queue.live) {q : TimerQueue}
    {pending' : List Addr} (hindexed : q.Indexed) (hlive : q.live = t.queue.live.erase a)
    (howned : ∀ b, b ∈ q.live ↔ b ∈ q.activeTimers ∨ b ∈ pending') (hnodup : pending'.Nodup)
    (haway : ∀ b ∈ pending', b ∉ q.activeTimers) : (t.destroy a q).Held pending' := by
  refine ⟨hindexed, howned, hnodup, haway, fun b hb => ?_, ?_, fun b hb => ?_, stray_touch ha h.stray⟩
  · rw [TimerHistory.destroy, hlive] at hb
    exact h.created b (Finset.mem_of_mem_erase hb)
  · show (t.destroyed ++ [a]).Nodup
    rw [← List.concat_eq_append]
    exact List.Nodup.concat (fun hmem => (h.gone a hmem).2 ha) h.once
  · show b ∈ t.created ∧ b ∉ q.live
    rw [hlive]
    rcases List.mem_append.mp hb with hb | hb
    · exact ⟨(h.gone b hb).1, fun hin => (h.gone b hb).2 (Finset.mem_of_mem_erase hin)⟩
    · obtain rfl := List.mem_singleton.mp hb
      exact ⟨h.created b ha, Finset.notMem_erase b _⟩

/-- A timer that is allocated and queued at once. -/
theorem exists_timerfd_perform (q : TimerQueue) (a : Addr) (timer : Timer) (now : Time) :
    ∃ fd, q.perform (.addTimer a timer now)
      = { ((q.allocate a timer).insert a).2 with timerfd := fd } :=
  TimerQueue.exists_timerfd (q.allocate a timer) a now

/-- **A timer is allocated and queued.** -/
theorem Held.addTimer (h : t.Held pending) {a : Addr} (ha : a ∉ t.created) (timer : Timer) (now : Time) :
    (t.perform (.addTimer a timer now)).Held pending := by
  have hlive : a ∉ t.queue.live := fun hin => ha (h.created a hin)
  have hactive : a ∉ t.queue.activeTimers := fun hin => hlive ((h.live a).mpr (.inl hin))
  have hpending : a ∉ pending := fun hin => hlive ((h.live a).mpr (.inr hin))
  have hwritten : (t.queue.allocate a timer).Indexed := h.indexed.write hactive timer
  have hindexed := hwritten.insert a
  obtain ⟨fd, hq⟩ := exists_timerfd_perform t.queue a timer now
  rw [perform, hq]
  refine ⟨hindexed, fun b => ?_, h.nodup, fun b hb => ?_, fun b hb => ?_, h.once, fun b hb => ?_, ?_⟩
  · show b ∈ Insert.insert a t.queue.live ↔ b ∈ Insert.insert a t.queue.activeTimers ∨ b ∈ pending
    rw [Finset.mem_insert, Finset.mem_insert, h.live b, or_assoc]
  · show b ∉ Insert.insert a t.queue.activeTimers
    rw [Finset.mem_insert, not_or]
    exact ⟨fun heq => hpending (heq ▸ hb), h.away b hb⟩
  · show b ∈ Insert.insert a t.created
    rcases Finset.mem_insert.mp hb with rfl | hb
    · exact Finset.mem_insert_self _ _
    · exact Finset.mem_insert_of_mem (h.created b hb)
  · obtain ⟨hcreated, hgone⟩ := h.gone b hb
    refine ⟨Finset.mem_insert_of_mem hcreated, fun hin => ?_⟩
    rcases Finset.mem_insert.mp hin with rfl | hin
    · exact ha hcreated
    · exact hgone hin
  · exact stray_touch (Finset.mem_insert_self a t.queue.live) h.stray

/-- **A cancellation** deletes a timer that is queued, and no other. -/
theorem Held.cancel (h : t.Held pending) (a : Addr) : (t.perform (.cancel a)).Held pending := by
  have hindexed := h.indexed.cancelInLoop a
  rw [perform]
  split
  · rename_i ha
    rw [TimerQueue.cancelInLoop, if_pos ha] at hindexed ⊢
    refine h.destroy ((h.live a).mpr (.inl ha)) hindexed rfl (fun b => ?_) h.nodup fun b hb hin => ?_
    · show b ∈ t.queue.live.erase a ↔ b ∈ t.queue.activeTimers.erase a ∨ b ∈ pending
      have hne : b ∈ pending → b ≠ a := fun hb heq => h.away b hb (heq ▸ ha)
      rw [Finset.mem_erase, Finset.mem_erase, h.live b]
      tauto
    · exact h.away b hb (Finset.mem_of_mem_erase hin)
  · rename_i ha
    rw [TimerQueue.cancelInLoop, if_neg ha] at hindexed ⊢
    split
    · exact ⟨h.indexed, h.live, h.nodup, h.away, h.created, h.once, h.gone, h.stray⟩
    · exact h

/-- The addresses at which the calls allocate. -/
def adds (ops : List QueueOp) : List Addr :=
  ops.filterMap fun
    | .addTimer a _ _ => some a
    | .cancel _ => none

theorem Held.perform (h : t.Held pending) {op : QueueOp} (hop : ∀ a ∈ adds [op], a ∉ t.created) :
    (t.perform op).Held pending := by
  cases op with
  | addTimer a timer now => exact h.addTimer (hop a (by simp [adds])) timer now
  | cancel a => exact h.cancel a

/-! ## The callbacks -/

/-- **What the calls of a batch leave of its timers.** -/
structure Passed (pending : List Addr) (t : TimerHistory) (ops : List QueueOp) (t' : TimerHistory) :
    Prop where
  held : t'.Held pending
  calling : t'.queue.callingExpiredTimers = true
  heap : ∀ a ∈ pending, t'.queue.heap a = t.queue.heap a
  cancelling : ∀ a ∈ pending,
    a ∈ t'.queue.cancelingTimers ↔ a ∈ t.queue.cancelingTimers ∨ .cancel a ∈ ops
  created : ∀ a ∈ t'.created, a ∈ t.created ∨ a ∈ adds ops

theorem Passed.trans {t' t'' : TimerHistory} {ops ops' : List QueueOp} (h : Passed pending t ops t')
    (h' : Passed pending t' ops' t'') : Passed pending t (ops ++ ops') t'' := by
  refine ⟨h'.held, h'.calling, fun a ha => (h'.heap a ha).trans (h.heap a ha), fun a ha => ?_,
    fun a ha => ?_⟩
  · rw [h'.cancelling a ha, h.cancelling a ha, List.mem_append, or_assoc]
  · rw [adds, List.filterMap_append, List.mem_append, ← or_assoc]
    exact (h'.created a ha).imp_left (h.created a)

/-- One call, of which a timer of the batch sees no more than its cancellation. -/
theorem Held.passed (h : t.Held pending) (hcalling : t.queue.callingExpiredTimers = true) {op : QueueOp}
    (hop : ∀ a ∈ adds [op], a ∉ t.created) : Passed pending t [op] (t.perform op) := by
  have hheld := h.perform hop
  cases op with
  | addTimer a timer now =>
    obtain ⟨fd, hq⟩ := exists_timerfd_perform t.queue a timer now
    have hqueue : (t.perform (.addTimer a timer now)).queue
        = { ((t.queue.allocate a timer).insert a).2 with timerfd := fd } := hq
    have hnew : a ∉ t.created := hop a (by simp [adds])
    refine ⟨hheld, ?_, fun b hb => ?_, fun b hb => ?_, fun b hb => ?_⟩
    · rw [hqueue]
      exact hcalling
    · rw [hqueue]
      refine Function.update_of_ne ?_ _ _
      rintro rfl
      exact hnew (h.created b ((h.live b).mpr (.inr hb)))
    · rw [hqueue]
      simp [TimerQueue.insert, TimerQueue.allocate]
    · rcases Finset.mem_insert.mp hb with rfl | hb
      · exact .inr (by simp [adds])
      · exact .inl hb
  | cancel a =>
    rw [TimerHistory.perform] at hheld ⊢
    split
    · rename_i ha
      rw [if_pos ha] at hheld
      rw [TimerQueue.cancelInLoop, if_pos ha] at hheld ⊢
      refine ⟨hheld, hcalling, fun b _ => rfl, fun b hb => ?_, fun b hb => .inl hb⟩
      -- what is queued is not in the batch
      have hne : b ≠ a := fun heq => h.away b hb (heq ▸ ha)
      show b ∈ t.queue.cancelingTimers ↔ _
      simp [hne]
    · rename_i ha
      rw [if_neg ha] at hheld
      rw [TimerQueue.cancelInLoop, if_neg ha, if_pos hcalling] at hheld ⊢
      refine ⟨hheld, hcalling, fun b _ => rfl, fun b _ => ?_, fun b hb => .inl hb⟩
      show b ∈ Insert.insert a t.queue.cancelingTimers ↔ _
      rw [Finset.mem_insert, List.mem_singleton, QueueOp.cancel.injEq, or_comm]

theorem ran_perform (op : QueueOp) : (t.perform op).ran = t.ran := by
  cases op with
  | addTimer a timer now => rfl
  | cancel a =>
    rw [perform]
    split
    · rfl
    · rfl

theorem ran_foldl_perform (ops : List QueueOp) : (ops.foldl perform t).ran = t.ran := by
  induction ops generalizing t with
  | nil => rfl
  | cons op ops ih => rw [List.foldl_cons, ih, ran_perform]

/-- Calls one after the other, each of which allocates where no timer was. -/
theorem Held.passed_foldl (h : t.Held pending) (hcalling : t.queue.callingExpiredTimers = true)
    {ops : List QueueOp} (hnodup : (adds ops).Nodup) (hfresh : ∀ a ∈ adds ops, a ∉ t.created) :
    Passed pending t ops (ops.foldl TimerHistory.perform t) := by
  induction ops generalizing t with
  | nil => exact ⟨h, hcalling, fun _ _ => rfl, fun _ _ => by simp, fun _ ha => .inl ha⟩
  | cons op ops ih =>
    have hsplit : adds (op :: ops) = adds [op] ++ adds ops := by
      rw [adds, adds, adds, ← List.filterMap_append, List.singleton_append]
    rw [hsplit] at hnodup hfresh
    have hop := h.passed hcalling fun a ha => hfresh a (List.mem_append_left _ ha)
    refine hop.trans (ih hop.held hop.calling (List.nodup_append.mp hnodup).2.1 fun a ha hin => ?_)
    rcases hop.created a hin with hold | hnew
    · exact hfresh a (List.mem_append_right _ ha) hold
    · exact (List.nodup_append.mp hnodup).2.2 a hnew a ha rfl

/-- **The batch runs**: its timers are there until the last callback has returned. -/
theorem Held.passed_runTimers (h : t.Held pending) (hcalling : t.queue.callingExpiredTimers = true)
    {batch : List Addr} (hbatch : ∀ a ∈ batch, a ∈ pending) (hnodup : (adds (batch.flatMap script)).Nodup)
    (hfresh : ∀ a ∈ adds (batch.flatMap script), a ∉ t.created) :
    Passed pending t (batch.flatMap script) (batch.foldl (fun t a => t.runTimer script a) t)
      ∧ (batch.foldl (fun t a => t.runTimer script a) t).ran = t.ran ++ batch := by
  induction batch generalizing t with
  | nil => exact ⟨⟨h, hcalling, fun _ _ => rfl, fun _ _ => by simp, fun _ ha => .inl ha⟩, by simp⟩
  | cons a batch ih =>
    rw [List.flatMap_cons, adds, List.filterMap_append] at hnodup hfresh
    have hlive : a ∈ t.queue.live := (h.live a).mpr (.inr (hbatch a List.mem_cons_self))
    have hrun : Held pending { t.touch a with ran := t.ran ++ [a] } :=
      ⟨h.indexed, h.live, h.nodup, h.away, h.created, h.once, h.gone, stray_touch hlive h.stray⟩
    have hfirst : Passed pending t (script a) (t.runTimer script a) := by
      have hpassed := hrun.passed_foldl hcalling (List.nodup_append.mp hnodup).1
        fun b hb => hfresh b (List.mem_append_left _ hb)
      exact ⟨hpassed.held, hpassed.calling, hpassed.heap, hpassed.cancelling, hpassed.created⟩
    obtain ⟨hrest, hran⟩ := ih hfirst.held hfirst.calling (fun b hb => hbatch b (List.mem_cons_of_mem a hb))
      (List.nodup_append.mp hnodup).2.1 fun b hb hin => by
        rcases hfirst.created b hin with hold | hnew
        · exact hfresh b (List.mem_append_right _ hb) hold
        · exact (List.nodup_append.mp hnodup).2.2 b hnew b hb rfl
    refine ⟨hfirst.trans hrest, ?_⟩
    rw [List.foldl_cons, hran, runTimer, ran_foldl_perform, List.append_assoc, List.singleton_append]

/-! ## The settling -/

/-- **The first timer of the batch** is queued again, or deleted. -/
theorem Held.settle {a : Addr} (h : t.Held (a :: pending)) : (t.settle now a).Held pending := by
  have haway := h.away a List.mem_cons_self
  have hlive : a ∈ t.queue.live := (h.live a).mpr (.inr List.mem_cons_self)
  obtain ⟨hnot, hnodup⟩ := List.nodup_cons.mp h.nodup
  rw [TimerHistory.settle]
  split
  · rename_i hr
    have hindexed := (h.indexed.write haway ((t.queue.heap a).restart now)).insert a
    rw [TimerQueue.settle_of_restarts hr]
    refine ⟨hindexed, fun b => ?_, hnodup, fun b hb hin => ?_, h.created, h.once, h.gone,
      stray_touch hlive h.stray⟩
    · show b ∈ t.queue.live ↔ b ∈ Insert.insert a t.queue.activeTimers ∨ b ∈ pending
      rw [h.live b, Finset.mem_insert, List.mem_cons]
      tauto
    · rcases Finset.mem_insert.mp hin with rfl | hin
      · exact hnot hb
      · exact h.away b (List.mem_cons_of_mem a hb) hin
  · rename_i hr
    rw [TimerQueue.settle_of_not_restarts hr]
    refine h.destroy hlive h.indexed rfl (fun b => ?_) hnodup fun b hb hin => ?_
    · show b ∈ t.queue.live.erase a ↔ b ∈ t.queue.activeTimers ∨ b ∈ pending
      have hne : b ∈ t.queue.activeTimers ∨ b ∈ pending → b ≠ a := by
        rintro (hb | hb) rfl
        · exact haway hb
        · exact hnot hb
      rw [Finset.mem_erase, h.live b, List.mem_cons]
      tauto
    · exact h.away b (List.mem_cons_of_mem a hb) hin

/-- **What the settling leaves.** -/
structure Settled (now : Time) (batch : List Addr) (t t' : TimerHistory) : Prop where
  held : t'.Held []
  ran : t'.ran = t.ran
  restarted : ∀ a ∈ batch, t.queue.Restarts a →
    a ∈ t'.queue.activeTimers ∧ (t'.queue.heap a).deadline = now + (t.queue.heap a).micros
  deleted : ∀ a ∈ batch, ¬ t.queue.Restarts a → a ∈ t'.destroyed
  queued : ∀ a ∈ t.queue.activeTimers, a ∈ t'.queue.activeTimers ∧ t'.queue.heap a = t.queue.heap a
  destroyed : ∀ a ∈ t.destroyed, a ∈ t'.destroyed

/-- What one settling does to the timer it is about, and leaves of those that are queued. -/
theorem settle_spec {a : Addr} (haway : a ∉ t.queue.activeTimers) :
    (t.queue.Restarts a → a ∈ (t.settle now a).queue.activeTimers
        ∧ ((t.settle now a).queue.heap a).deadline = now + (t.queue.heap a).micros)
      ∧ (¬ t.queue.Restarts a → a ∈ (t.settle now a).destroyed)
      ∧ (∀ b ∈ t.queue.activeTimers, b ∈ (t.settle now a).queue.activeTimers
        ∧ (t.settle now a).queue.heap b = t.queue.heap b)
      ∧ (∀ b ∈ t.destroyed, b ∈ (t.settle now a).destroyed) ∧ (t.settle now a).ran = t.ran := by
  by_cases hr : t.queue.Restarts a
  · have hsettle : t.settle now a = { t.touch a with queue := (t.queue.settle now a).2 } := if_pos hr
    rw [hsettle, TimerQueue.settle_of_restarts hr]
    refine ⟨fun _ => ⟨Finset.mem_insert_self _ _, ?_⟩, fun hn => absurd hr hn, fun b hb => ?_,
      fun b hb => hb, rfl⟩
    · simp [TimerQueue.insert, Timer.restart]
    · have hne : b ≠ a := fun heq => haway (heq ▸ hb)
      exact ⟨Finset.mem_insert_of_mem hb, Function.update_of_ne hne _ _⟩
  · have hsettle : t.settle now a = t.destroy a (t.queue.settle now a).2 := if_neg hr
    rw [hsettle, TimerQueue.settle_of_not_restarts hr]
    exact ⟨fun hn => absurd hn hr, fun _ => List.mem_append_right _ (List.mem_singleton_self a),
      fun b hb => ⟨hb, rfl⟩, fun b hb => List.mem_append_left _ hb, rfl⟩

theorem Held.settled {batch : List Addr} (h : t.Held batch) :
    Settled now batch t (batch.foldl (fun t a => t.settle now a) t) := by
  induction batch generalizing t with
  | nil =>
    refine ⟨h, rfl, fun a ha => ?_, fun a ha => ?_, fun a ha => ⟨ha, rfl⟩, fun a ha => ha⟩
    · cases ha
    · cases ha
  | cons a batch ih =>
    have haway := h.away a List.mem_cons_self
    obtain ⟨hrestarted, hdeleted, hqueued, hdestroyed, hran⟩ := @settle_spec t now a haway
    have hrest := ih (@Held.settle t now batch a h)
    -- what is asked of the others stays as it was
    have hsame := fun b => @TimerQueue.restarts_settle t.queue now a b
    rw [← queue_settle] at hsame
    refine ⟨hrest.held, hrest.ran.trans hran, fun b hb hr => ?_, fun b hb hr => ?_, fun b hb => ?_,
      fun b hb => hrest.destroyed b (hdestroyed b hb)⟩
    · rcases List.mem_cons.mp hb with rfl | hb
      · obtain ⟨hin, hdeadline⟩ := hrestarted hr
        obtain ⟨hin', hheap⟩ := hrest.queued b hin
        exact ⟨hin', (congrArg Timer.deadline hheap).trans hdeadline⟩
      · obtain ⟨hin, hdeadline⟩ := hrest.restarted b hb ((hsame b).1.mpr hr)
        rw [(hsame b).2] at hdeadline
        exact ⟨hin, hdeadline⟩
    · rcases List.mem_cons.mp hb with rfl | hb
      · exact hrest.destroyed b (hdeleted hr)
      · exact hrest.deleted b hb fun hn => hr ((hsame b).1.mp hn)
    · obtain ⟨hin, hheap⟩ := hqueued b hb
      obtain ⟨hin', hheap'⟩ := hrest.queued b hin
      exact ⟨hin', hheap'.trans hheap⟩

/-! ## An expiration -/

/-- The batch is taken out of the queue. -/
theorem Held.beginBatch (h : t.Held []) :
    Held (t.queue.expired now order)
      { t with queue := t.queue.consumeTimerfd.beginBatch now order } := by
  have hmem := fun a => @TimerQueue.mem_expired t.queue now order h.indexed a
  refine ⟨h.indexed.beginBatch, fun a => ?_, (TimerQueue.pairwise_expired h.indexed).1,
    fun a ha hin => ?_, h.created, h.once, h.gone, h.stray⟩
  · show a ∈ t.queue.live
      ↔ a ∈ t.queue.activeTimers \ (t.queue.expired now order).toFinset ∨ a ∈ t.queue.expired now order
    have hactive := (hmem a).mp
    rw [h.live a, Finset.mem_sdiff, List.mem_toFinset]
    simp only [List.not_mem_nil, or_false]
    tauto
  · exact (Finset.mem_sdiff.mp hin).2 (List.mem_toFinset.mpr ha)

/-- The calls that a batch makes allocate where no timer ever was. -/
def FreshCalls (t : TimerHistory) (ops : List QueueOp) : Prop :=
  (adds ops).Nodup ∧ ∀ a ∈ adds ops, a ∉ t.created

/-- **The callbacks of an expiration.** -/
theorem Held.called (h : t.Held [])
    (hfresh : t.FreshCalls ((t.queue.expired now order).flatMap script)) :
    Held (t.queue.expired now order) (t.called now order script)
      ∧ (t.called now order script).ran = t.ran ++ t.queue.expired now order
      ∧ ∀ a ∈ t.queue.expired now order,
        (t.called now order script).queue.heap a = t.queue.heap a
          ∧ (a ∈ (t.called now order script).queue.cancelingTimers
            ↔ .cancel a ∈ (t.queue.expired now order).flatMap script) := by
  obtain ⟨hpassed, hran⟩ := @Held.passed_runTimers _ script _ (@Held.beginBatch t now order h) rfl _
    (fun a ha => ha) hfresh.1 hfresh.2
  refine ⟨?_, hran, fun a ha => ⟨hpassed.heap a ha, ?_⟩⟩
  · obtain ⟨hindexed, hlive, hnodup, haway, hcreated, honce, hgone, hstray⟩ := hpassed.held
    exact ⟨hindexed, hlive, hnodup, haway, hcreated, honce, hgone, hstray⟩
  · refine (hpassed.cancelling a ha).trans (or_iff_right ?_)
    exact Finset.notMem_empty a

/-- **An expiration**, from its batch to the last timer settled. -/
theorem Held.handleRead (h : t.Held []) (later : Time)
    (hfresh : t.FreshCalls ((t.queue.expired now order).flatMap script)) :
    (t.handleRead now order script later).Held [] := by
  obtain ⟨hcalled, -⟩ := h.called hfresh
  obtain ⟨hindexed, hlive, hnodup, haway, hcreated, honce, hgone, hstray⟩ :=
    (@Held.settled _ now _ hcalled).held
  exact ⟨hindexed, hlive, hnodup, haway, hcreated, honce, hgone, hstray⟩

def step (t : TimerHistory) : TimerEvent → TimerHistory
  | .perform op => t.perform op
  | .handleRead now order script later => t.handleRead now order script later

/-- **Addresses are not used again**: the event allocates where no timer ever was. -/
def Fresh (t : TimerHistory) : TimerEvent → Prop
  | .perform op => t.FreshCalls [op]
  | .handleRead now order script _ => t.FreshCalls ((t.queue.expired now order).flatMap script)

theorem Held.step (h : t.Held []) {e : TimerEvent} (he : t.Fresh e) : (t.step e).Held [] := by
  cases e with
  | perform op => exact h.perform he.2
  | handleRead now order script later => exact h.handleRead later he

/-- **The history is that of the run.** -/
theorem queue_run (es : List TimerEvent) (t : TimerHistory) :
    (run step t es).queue = run TimerQueue.step t.queue es := by
  induction es generalizing t with
  | nil => rfl
  | cons e es ih =>
    have hstep : (t.step e).queue = t.queue.step e := by
      cases e with
      | perform op => exact queue_perform op
      | handleRead now order script later => exact queue_handleRead
    rw [run_cons, run_cons, ih, hstep]

/-- **What an expiration is to do**: `batch` is run, and each of its timers settled. -/
structure Expires (t t' : TimerHistory) (now : Time) (script : Addr → List QueueOp) (batch : List Addr) :
    Prop where
  ran : t'.ran = t.ran ++ batch
  nodup : batch.Nodup
  due : ∀ a, a ∈ batch ↔ ∃ w, a ∈ t.queue.timers.bucket w ∧ w ≤ now
  ordered : batch.Pairwise fun a b => (t.queue.heap a).deadline ≤ (t.queue.heap b).deadline
  /-- A timer that repeats and was not cancelled is queued once, an interval after `now`. -/
  requeued : ∀ a ∈ batch, (t.queue.heap a).repeated = true → .cancel a ∉ batch.flatMap script →
    (t'.queue.heap a).deadline = now + (t.queue.heap a).micros ∧ a ∉ t'.destroyed
      ∧ ∀ w, a ∈ t'.queue.timers.bucket w ↔ w = now + (t.queue.heap a).micros
  /-- Any other is deleted, once. -/
  deleted : ∀ a ∈ batch, (t.queue.heap a).repeated = false ∨ .cancel a ∈ batch.flatMap script →
    a ∉ t.destroyed ∧ t'.destroyed.count a = 1 ∧ ∀ w, a ∉ t'.queue.timers.bucket w

/-- **A batch, and who owns its timers.**  In every state of a run that uses no address twice, no timer
has been deleted twice or touched astray; and an expiration there runs just the timers due, each once
and in the order of their deadlines, and then queues each again or deletes it. -/
theorem batch_run (heap : Addr → Timer) (es : List TimerEvent) (hes : Meets step Fresh (new heap) es)
    (now : Time) (order : IterOrder) (script : Addr → List QueueOp) (later : Time)
    (hfresh : (run step (new heap) es).Fresh (.handleRead now order script later)) :
    let t := run step (new heap) es
    let t' := t.handleRead now order script later
    (t.destroyed.Nodup ∧ t.stray = false) ∧ (t'.destroyed.Nodup ∧ t'.stray = false)
      ∧ ∃ batch, t.Expires t' now script batch := by
  intro t t'
  have ht : t.Held [] := inv_run (fun _ _ h he => h.step he) (held_new heap) hes
  have ht' : t'.Held [] := ht.handleRead later hfresh
  obtain ⟨hcalled, hran, hbatch⟩ := ht.called hfresh
  have hsettled := @Held.settled _ now _ hcalled
  have hbucket : ∀ a, a ∈ t.queue.expired now order ↔ ∃ w, a ∈ t.queue.timers.bucket w ∧ w ≤ now := by
    intro a
    rw [TimerQueue.mem_expired ht.indexed]
    constructor
    · rintro ⟨hactive, hle⟩
      exact ⟨_, (ht.indexed a _).mpr ⟨hactive, rfl⟩, hle⟩
    · rintro ⟨w, hin, hle⟩
      obtain ⟨hactive, rfl⟩ := (ht.indexed a w).mp hin
      exact ⟨hactive, hle⟩
  obtain ⟨hnodup, hsorted⟩ := @TimerQueue.pairwise_expired _ now order ht.indexed
  have hrestarts : ∀ a ∈ t.queue.expired now order, (t.called now order script).queue.Restarts a
      ↔ (t.queue.heap a).repeated = true ∧ .cancel a ∉ (t.queue.expired now order).flatMap script := by
    intro a ha
    obtain ⟨hheap, hcancelled⟩ := hbatch a ha
    rw [TimerQueue.Restarts, hheap, hcancelled]
  refine ⟨⟨ht.once, ht.stray⟩, ⟨ht'.once, ht'.stray⟩, t.queue.expired now order,
    ⟨hsettled.ran.trans hran, hnodup, hbucket, hsorted, fun a ha hrepeated hkept => ?_,
      fun a ha hends => ⟨fun hgone => ?_, ?_⟩⟩⟩
  · obtain ⟨hactive, hdeadline⟩ := hsettled.restarted a ha ((hrestarts a ha).mpr ⟨hrepeated, hkept⟩)
    rw [(hbatch a ha).1] at hdeadline
    refine ⟨hdeadline, fun hgone => (ht'.gone a hgone).2 ((ht'.live a).mpr (.inl hactive)), fun w => ?_⟩
    rw [ht'.indexed a w, ← hdeadline]
    exact ⟨fun hin => hin.2.symm, fun hw => ⟨hactive, hw.symm⟩⟩
  · exact (ht.gone a hgone).2 ((ht.live a).mpr (.inl ((TimerQueue.mem_expired ht.indexed a).mp ha).1))
  · have hno : ¬ (t.called now order script).queue.Restarts a := fun hr => by
      obtain ⟨hrepeated, hkept⟩ := (hrestarts a ha).mp hr
      rcases hends with hends | hends
      · rw [hrepeated] at hends
        cases hends
      · exact hkept hends
    have hgone : a ∈ t'.destroyed := hsettled.deleted a ha hno
    refine ⟨List.count_eq_one_of_mem ht'.once hgone, fun w hin => ?_⟩
    exact (ht'.gone a hgone).2 ((ht'.live a).mpr (.inl ((ht'.indexed a w).mp hin).1))

instance (t : TimerHistory) : ∀ e, Decidable (t.Fresh e)
  | .perform _ => inferInstanceAs (Decidable (_ ∧ _))
  | .handleRead _ _ _ _ => inferInstanceAs (Decidable (_ ∧ _))

/-- Two timers are due, of which the first repeats, cancels the other and adds a third. -/
theorem batch_run_cancelled :
    let es : List TimerEvent :=
      [.perform (.addTimer 0 ⟨1, true, 10⟩ 0), .perform (.addTimer 1 ⟨5, true, 10⟩ 0)]
    let script : Addr → List QueueOp := fun a =>
      if a = 0 then [.cancel 1, .addTimer 2 ⟨3, false, 0⟩ 6] else []
    let t := run step (new fun _ => ⟨0, false, 0⟩) es
    let t' := t.handleRead 6 .ascending script 7
    (t.destroyed.Nodup ∧ t.stray = false) ∧ (t'.destroyed.Nodup ∧ t'.stray = false)
      ∧ ∃ batch, t.Expires t' 6 script batch :=
  batch_run _ _ (by decide) 6 .ascending _ 7 (by decide)

end TimerHistory
