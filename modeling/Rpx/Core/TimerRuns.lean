import Rpx.Core.TimerHandles
import Rpx.Machinery.Spacing

/-!
# Core/TimerRuns — when the callback of a timer is called

    created ──deadline──▶ called ──_interval──▶ called ──_interval──▶ …
       └────────cancelled──────┴──────cancelled──────┴──▶ no more

A timer is known by its sequence number, and `TimerRuns` notes the calls of its callback with the `now`
of the `handleRead()` that makes them.  Timers are added, cancelled and fire in any order, the clock is
whatever it is, and memory is used again.

`runs_spaced` — no timer is called ahead of its deadline, nor sooner than its interval after the last
time.  `cancelled_run` — a timer that is cancelled is not called again, but for the batch it is in.
-/

open Machinery

namespace TimerStage

/-- The timers of the batch whose callbacks have yet to be called. -/
def toCall : TimerStage → List Addr
  | calling _ _ left => left
  | idle | settling .. => []

/-- `now`, in `handleRead()`. -/
def now : TimerStage → Time
  | idle => 0
  | calling now .. | settling now .. => now

end TimerStage

/-- The timers of a loop, and when they were called. -/
structure TimerRuns where
  handles : TimerHandles
  /-- Each timer as it was created, by its sequence number. -/
  created : ℕ → Timer
  /-- The callbacks called, and the `now` of each. -/
  log : List (ℕ × Time)

namespace TimerRuns

/-- No timer. -/
def new (heap : Addr → Timer) : TimerRuns := ⟨.new heap, fun _ => ⟨0, false, 0⟩, []⟩

variable (r : TimerRuns)

abbrev queue : TimerQueue := r.handles.steps.queue

abbrev stage : TimerStage := r.handles.steps.stage

/-- What the event adds to the record. -/
def note : HandleEvent → TimerRuns
  | .addTimer _ timer => { r with created := Function.update r.created (r.handles.id + 1) timer }
  | .run =>
    match r.stage with
    | .calling now _ (a :: _) => { r with log := r.log ++ [(r.handles.sequence a, now)] }
    | _ => r
  | _ => r

def step (e : HandleEvent) : TimerRuns := { r.note e with handles := r.handles.step e }

/-- Memory in use is not handed out again, and `cancel` is called with a handle. -/
def Valid (e : HandleEvent) : Prop := r.handles.Valid e

instance : ∀ e, Decidable (r.Valid e) := fun e => inferInstanceAs (Decidable (r.handles.Valid e))

/-- When the callback of timer `x` was called. -/
def times (x : ℕ) : List Time := (r.log.filter fun e => e.1 = x).map Prod.snd

/-- The calls of it to come in the batch that is being called. -/
def toCome (x : ℕ) : List Time :=
  (r.stage.toCall.filter fun a => r.handles.sequence a = x).map fun _ => r.stage.now

/-- From when on it may be called. -/
def next (x : ℕ) : Time := nextFrom (r.created x).micros (r.created x).deadline (r.times x)

/-! ## What is known of a timer -/

/-- **A timer that is there**, at `a`: until it is called, it is due an interval after its last call. -/
structure Known (a : Addr) : Prop where
  repeated : (r.queue.heap a).repeated = (r.created (r.handles.sequence a)).repeated
  micros : (r.queue.heap a).micros = (r.created (r.handles.sequence a)).micros
  waiting : (a ∈ r.stage.pending → a ∈ r.stage.toCall) →
    (r.queue.heap a).deadline = r.next (r.handles.sequence a)
      ∧ (r.times (r.handles.sequence a) = [] ∨ (r.queue.heap a).repeated = true)
  called : a ∈ r.stage.pending → a ∉ r.stage.toCall →
    (r.times (r.handles.sequence a)).getLast? = some r.stage.now

/-- **What the record says of every timer**, of those deleted too. -/
structure Kept : Prop where
  sound : r.handles.Sound
  known : ∀ a ∈ r.queue.live, r.Known a
  batch : r.stage.toCall.Sublist r.stage.pending
  due : ∀ a ∈ r.stage.toCall, (r.queue.heap a).deadline ≤ r.stage.now
  spaced : ∀ x, Spaced (r.created x).micros (r.created x).deadline (r.times x)
  once : ∀ x, (r.created x).repeated = false → (r.times x).length ≤ 1
  later : ∀ x, r.handles.id < x → r.times x = []

variable {r}

theorem kept_new (heap : Addr → Timer) : (new heap).Kept := by
  refine ⟨TimerHandles.sound_new heap, fun a ha => ?_, List.Sublist.refl [], fun a ha => ?_, fun x => trivial,
    fun x _ => Nat.zero_le 1, fun x _ => rfl⟩
  · exact absurd ha (Finset.notMem_empty a)
  · cases ha

/-- **What is said of a timer is said of it alone**: of where it lies, and of where it is in a batch. -/
theorem Known.congr {r' : TimerRuns} {a : Addr} (h : r.Known a)
    (hheap : r'.queue.heap a = r.queue.heap a)
    (hsequence : r'.handles.sequence a = r.handles.sequence a)
    (hcreated : r'.created (r.handles.sequence a) = r.created (r.handles.sequence a))
    (htimes : r'.times (r.handles.sequence a) = r.times (r.handles.sequence a))
    (hpending : a ∈ r'.stage.pending ↔ a ∈ r.stage.pending)
    (htoCall : a ∈ r'.stage.toCall ↔ a ∈ r.stage.toCall)
    (hnow : a ∈ r.stage.pending → r'.stage.now = r.stage.now) : r'.Known a := by
  refine ⟨?_, ?_, ?_, ?_⟩
  · rw [hheap, hsequence, hcreated]
    exact h.repeated
  · rw [hheap, hsequence, hcreated]
    exact h.micros
  · rw [hpending, htoCall, hheap, hsequence, next, hcreated, htimes]
    exact h.waiting
  · rw [hpending, htoCall, hsequence, htimes]
    intro hin hdone
    rw [hnow hin]
    exact h.called hin hdone

/-! ## The steps that call nothing -/

/-- **No timer is written, made, taken for a batch, called or settled.** -/
structure Quiet (s s' : TimerSteps) : Prop where
  live : s'.queue.live ⊆ s.queue.live
  heap : s'.queue.heap = s.queue.heap
  pending : s'.stage.pending = s.stage.pending
  toCall : s'.stage.toCall = s.stage.toCall
  now : s.stage.pending ≠ [] → s'.stage.now = s.stage.now
  cancelling : s.queue.cancelingTimers ⊆ s'.queue.cancelingTimers

theorem Quiet.refl (s : TimerSteps) : Quiet s s :=
  ⟨Finset.Subset.refl _, rfl, rfl, rfl, fun _ => rfl, Finset.Subset.refl _⟩

/-- A cancellation writes no timer, and forgets none that was cancelled. -/
theorem heap_cancelInLoop (q : TimerQueue) (a : Addr) :
    (q.cancelInLoop a).heap = q.heap ∧ q.cancelingTimers ⊆ (q.cancelInLoop a).cancelingTimers := by
  rw [TimerQueue.cancelInLoop]
  split
  · exact ⟨rfl, Finset.Subset.refl _⟩
  · split
    · exact ⟨rfl, Finset.subset_insert _ _⟩
    · exact ⟨rfl, Finset.Subset.refl _⟩

theorem quiet_addTimerInLoop (s : TimerSteps) (a : Addr) (now : Time) :
    Quiet s (s.step (.addTimerInLoop a now)) := by
  rw [TimerSteps.step]
  split
  · obtain ⟨fd, hfd⟩ := TimerQueue.exists_timerfd s.queue a now
    rw [hfd]
    exact ⟨Finset.Subset.refl _, rfl, rfl, rfl, fun _ => rfl, Finset.Subset.refl _⟩
  · exact .refl s

theorem quiet_cancelInLoop (s : TimerSteps) (a : Addr) : Quiet s (s.step (.cancelInLoop a)) := by
  rw [TimerSteps.step]
  split
  · obtain ⟨hheap, hcancelling⟩ := heap_cancelInLoop s.queue a
    exact ⟨TimerHandles.live_cancelInLoop s.queue a, hheap, rfl, rfl, fun _ => rfl, hcancelling⟩
  · exact .refl s

theorem quiet_called (s : TimerSteps) : Quiet s (s.step .called) := by
  rw [TimerSteps.step]
  split
  · rename_i now batch hstage
    refine ⟨Finset.Subset.refl _, rfl, ?_, ?_, fun _ => ?_, Finset.Subset.refl _⟩
    · rw [hstage]
      rfl
    · rw [hstage]
      rfl
    · rw [hstage]
      rfl
  · exact .refl s

theorem quiet_finish (s : TimerSteps) (later : Time) : Quiet s (s.step (.finish later)) := by
  rw [TimerSteps.step]
  split
  · rename_i now changed hstage
    obtain ⟨fd, hfd⟩ := TimerSteps.exists_timerfd_rearm s.queue changed later
    rw [hfd]
    refine ⟨Finset.Subset.refl _, rfl, ?_, ?_, fun hpending => ?_, Finset.Subset.refl _⟩
    · rw [hstage]
      rfl
    · rw [hstage]
      rfl
    · rw [hstage] at hpending
      exact absurd rfl hpending
  · exact .refl s

theorem quiet_handleRead {s : TimerSteps} (hs : s.stage ≠ .idle) (now : Time) (order : IterOrder) :
    Quiet s (s.step (.handleRead now order)) := by
  rw [TimerSteps.step]
  split
  · rename_i hidle
    exact absurd hidle hs
  · exact .refl s

theorem quiet_run {s : TimerSteps} (hs : ¬ ∃ now batch a left, s.stage = .calling now batch (a :: left)) :
    Quiet s (s.step .run) := by
  rw [TimerSteps.step]
  split
  · rename_i hcalling
    exact absurd ⟨_, _, _, _, hcalling⟩ hs
  · exact .refl s

theorem quiet_settle {s : TimerSteps}
    (hs : ¬ ∃ now a left changed, s.stage = .settling now (a :: left) changed) :
    Quiet s (s.step .settle) := by
  rw [TimerSteps.step]
  split
  · rename_i hsettling
    exact absurd ⟨_, _, _, _, hsettling⟩ hs
  · exact .refl s

theorem Kept.quiet (h : r.Kept) {handles : TimerHandles} (hsound : handles.Sound)
    (hquiet : Quiet r.handles.steps handles.steps) (hsequence : handles.sequence = r.handles.sequence)
    (hid : handles.id = r.handles.id) : Kept { r with handles := handles } := by
  have hsome : ∀ a ∈ r.stage.pending, handles.steps.stage.now = r.stage.now := fun a ha =>
    hquiet.now (List.ne_nil_of_mem ha)
  refine ⟨hsound, fun a ha => ?_, ?_, fun a ha => ?_, h.spaced, h.once, fun x hx => h.later x (hid ▸ hx)⟩
  · exact (h.known a (hquiet.live ha)).congr (congrFun hquiet.heap a) (congrFun hsequence a) rfl rfl
      (iff_of_eq (congrArg (a ∈ ·) hquiet.pending)) (iff_of_eq (congrArg (a ∈ ·) hquiet.toCall)) (hsome a)
  · show handles.steps.stage.toCall.Sublist handles.steps.stage.pending
    rw [hquiet.toCall, hquiet.pending]
    exact h.batch
  · change a ∈ handles.steps.stage.toCall at ha
    rw [hquiet.toCall] at ha
    show (handles.steps.queue.heap a).deadline ≤ handles.steps.stage.now
    rw [hquiet.heap, hsome a (h.batch.subset ha)]
    exact h.due a ha

/-! ## A timer is created -/

theorem Kept.addTimer (h : r.Kept) {a : Addr} (ha : a ∉ r.queue.live) (timer : Timer) :
    (r.step (.addTimer a timer)).Kept := by
  have hpending : ∀ b ∈ r.stage.pending, b ≠ a := by
    rintro b hb rfl
    exact ha ((h.sound.steps.live b).mpr (.inr (.inl hb)))
  have hheap : ∀ b, b ≠ a → (r.step (.addTimer a timer)).queue.heap b = r.queue.heap b := fun b hb =>
    Function.update_of_ne hb _ _
  have hcreated : ∀ x, x ≠ r.handles.id + 1 →
      (r.step (.addTimer a timer)).created x = r.created x := fun x hx => Function.update_of_ne hx _ _
  have hnone : r.times (r.handles.id + 1) = [] := h.later _ (Nat.lt_succ_self _)
  refine ⟨h.sound.addTimer ha timer, fun b hb => ?_, h.batch, fun b hb => ?_, fun x => ?_, fun x hx => ?_,
    fun x hx => h.later x ((Nat.lt_succ_self _).trans hx)⟩
  · rcases Finset.mem_insert.mp hb with rfl | hlive
    · have hsequence : (r.step (.addTimer b timer)).handles.sequence b = r.handles.id + 1 :=
        Function.update_self b _ _
      have hself : (r.step (.addTimer b timer)).queue.heap b = timer := Function.update_self b _ _
      have hborn : (r.step (.addTimer b timer)).created (r.handles.id + 1) = timer :=
        Function.update_self _ _ _
      have htimes : (r.step (.addTimer b timer)).times (r.handles.id + 1) = [] := hnone
      refine ⟨?_, ?_, fun _ => ⟨?_, .inl ?_⟩, fun hin => absurd rfl (hpending b hin)⟩
      · rw [hsequence, hself, hborn]
      · rw [hsequence, hself, hborn]
      · rw [hsequence, next, htimes, hself, hborn, nextFrom_nil]
      · rw [hsequence, htimes]
    · have hne : b ≠ a := fun heq => ha (heq ▸ hlive)
      have hsequence : (r.step (.addTimer a timer)).handles.sequence b = r.handles.sequence b :=
        Function.update_of_ne hne _ _
      have hborn := hcreated (r.handles.sequence b) fun heq => by
        have hle := h.sound.bounded b hlive
        omega
      exact (h.known b hlive).congr (hheap b hne) hsequence hborn rfl Iff.rfl Iff.rfl fun _ => rfl
  · rw [hheap b (hpending b (h.batch.subset hb))]
    exact h.due b hb
  · rcases eq_or_ne x (r.handles.id + 1) with rfl | hne
    · show Spaced _ _ (r.times _)
      rw [hnone]
      trivial
    · rw [hcreated x hne]
      exact h.spaced x
  · rcases eq_or_ne x (r.handles.id + 1) with rfl | hne
    · show (r.times _).length ≤ 1
      rw [hnone]
      exact Nat.zero_le 1
    · rw [hcreated x hne] at hx
      exact h.once x hx

/-! ## A batch is taken out of the queue -/

/-- **What the start of an expiration leaves.** -/
theorem step_handleRead (hidle : r.stage = .idle) (now : Time) (order : IterOrder) :
    (r.step (.handleRead now order)).handles = { r.handles with steps := { r.handles.steps with
      queue := r.queue.consumeTimerfd.beginBatch now order
      stage := .calling now (r.queue.expired now order) (r.queue.expired now order) } } := by
  show ({ r.handles with steps := r.handles.steps.step (.handleRead now order) } : TimerHandles) = _
  rw [TimerSteps.step, show r.handles.steps.stage = .idle from hidle]
  rfl

theorem Kept.handleRead (h : r.Kept) (now : Time) (order : IterOrder) :
    (r.step (.handleRead now order)).Kept := by
  have hsound : (r.handles.step (.handleRead now order)).Sound := h.sound.step trivial
  by_cases hidle : r.stage = .idle
  · have hstep : r.step (.handleRead now order) =
        { r with handles := r.handles.step (.handleRead now order) } := rfl
    have hhandles : r.handles.step (.handleRead now order) = _ := step_handleRead hidle now order
    rw [hstep]
    rw [hhandles] at hsound ⊢
    refine ⟨hsound, fun a ha => ?_, List.Sublist.refl _, fun a ha => ?_, h.spaced, h.once, h.later⟩
    · obtain ⟨hrepeated, hmicros, hwaiting, -⟩ := h.known a ha
      refine ⟨hrepeated, hmicros, fun _ => hwaiting fun hin => ?_, fun hin hnot => absurd hin hnot⟩
      rw [hidle] at hin
      cases hin
    · exact ((TimerQueue.mem_expired h.sound.steps.indexed a).mp ha).2
  · exact h.quiet hsound (quiet_handleRead hidle now order) rfl rfl

/-! ## A callback is called -/

/-- **What a callback that is called leaves.** -/
theorem step_run {now : Time} {batch : List Addr} {a : Addr} {left : List Addr}
    (hstage : r.stage = .calling now batch (a :: left)) :
    (r.step .run).handles =
        { r.handles with steps := { r.handles.steps with stage := .calling now batch left } }
      ∧ (r.step .run).created = r.created
      ∧ ∀ x, (r.step .run).times x
        = if x = r.handles.sequence a then r.times x ++ [now] else r.times x := by
  have hhandles : r.handles.step .run =
      { r.handles with steps := { r.handles.steps with stage := .calling now batch left } } := by
    show ({ r.handles with steps := r.handles.steps.step .run } : TimerHandles) = _
    rw [TimerSteps.step, show r.handles.steps.stage = _ from hstage]
  have hnote : r.note .run = { r with log := r.log ++ [(r.handles.sequence a, now)] } := by
    rw [note, hstage]
  have hcreated : (r.step .run).created = r.created := by rw [step, hnote]
  refine ⟨hhandles, hcreated, fun x => ?_⟩
  show (((r.note .run).log.filter fun e => e.1 = x).map Prod.snd) = _
  rw [hnote, List.filter_append, List.map_append]
  split
  · rename_i hx
    simp [hx, times]
  · rename_i hx
    simp [Ne.symm hx, times]

theorem note_run (hcalling : ¬ ∃ now batch a left, r.stage = .calling now batch (a :: left)) :
    r.note .run = r := by
  rw [note]
  split
  · rename_i hstage
    exact absurd ⟨_, _, _, _, hstage⟩ hcalling
  · rfl

/-- The timer whose callback is next may be called. -/
theorem Kept.front (h : r.Kept) {now : Time} {batch : List Addr} {a : Addr} {left : List Addr}
    (hstage : r.stage = .calling now batch (a :: left)) :
    List.Sublist (a :: left) batch ∧ a ∈ r.queue.live ∧ a ∉ left
      ∧ r.next (r.handles.sequence a) ≤ now
      ∧ (r.times (r.handles.sequence a) = []
        ∨ (r.created (r.handles.sequence a)).repeated = true) := by
  have hsub := h.batch
  have hdue := h.due a
  have hnodup := h.sound.steps.nodup
  have hlive := fun hin => (h.sound.steps.live a).mpr (.inr (.inl hin))
  rw [hstage] at hsub hdue
  rw [show r.handles.steps.stage = _ from hstage] at hnodup hlive
  have ha : a ∈ r.queue.live := hlive (hsub.subset List.mem_cons_self)
  obtain ⟨hdeadline, hfirst⟩ := (h.known a ha).waiting fun _ => by
    rw [hstage]
    exact List.mem_cons_self
  rw [← hdeadline, ← (h.known a ha).repeated]
  exact ⟨hsub, ha, (List.nodup_cons.mp (hsub.nodup hnodup)).1, hdue List.mem_cons_self, hfirst⟩

/-- The timer that is called is not to be called again, and of the others nothing changes. -/
theorem Kept.known_run (h : r.Kept) {now : Time} {batch : List Addr} {a : Addr} {left : List Addr}
    (hstage : r.stage = .calling now batch (a :: left)) {b : Addr} (hb : b ∈ r.queue.live) :
    (r.step .run).Known b := by
  obtain ⟨hhandles, hcreated, htimes⟩ := step_run hstage
  obtain ⟨hsub, hlive, hleft, -⟩ := h.front hstage
  have hqueue : (r.step .run).queue = r.queue := by rw [queue, hhandles]
  have hstage' : (r.step .run).stage = .calling now batch left := by rw [stage, hhandles]
  have hsequence : (r.step .run).handles.sequence = r.handles.sequence := by rw [hhandles]
  rcases eq_or_ne b a with rfl | hne
  · refine ⟨?_, ?_, ?_, ?_⟩
    · rw [hqueue, hcreated, hsequence]
      exact (h.known b hb).repeated
    · rw [hqueue, hcreated, hsequence]
      exact (h.known b hb).micros
    · rw [hstage']
      intro hin
      exact absurd (hin (hsub.subset List.mem_cons_self)) hleft
    · rw [hstage', hsequence, htimes, if_pos rfl]
      exact fun _ _ => List.getLast?_concat
  · have hother : r.handles.sequence b ≠ r.handles.sequence a := fun heq =>
      hne (h.sound.distinct b hb a hlive heq)
    refine (h.known b hb).congr (by rw [hqueue]) (by rw [hsequence]) (by rw [hcreated]) ?_ ?_ ?_ ?_
    · rw [htimes, if_neg hother]
    · rw [hstage', hstage]
      rfl
    · rw [hstage', hstage]
      exact (List.mem_cons.trans (or_iff_right hne)).symm
    · rw [hstage', hstage]
      exact fun _ => rfl

theorem Kept.run (h : r.Kept) : (r.step .run).Kept := by
  have hsound : (r.handles.step .run).Sound := h.sound.step (e := .run) trivial
  by_cases hcalling : ∃ now batch a left, r.stage = .calling now batch (a :: left)
  · obtain ⟨now, batch, a, left, hstage⟩ := hcalling
    obtain ⟨hhandles, hcreated, htimes⟩ := step_run hstage
    obtain ⟨hsub, hlive, -, hnext, hfirst⟩ := h.front hstage
    have hqueue : (r.step .run).queue = r.queue := by rw [queue, hhandles]
    have hstage' : (r.step .run).stage = .calling now batch left := by rw [stage, hhandles]
    refine ⟨hsound, fun b hb => ?_, ?_, fun b hb => ?_, fun x => ?_, fun x hx => ?_, fun x hx => ?_⟩
    · rw [hqueue] at hb
      exact h.known_run hstage hb
    · rw [hstage']
      exact (List.sublist_cons_self a left).trans hsub
    · have hdue := h.due b
      rw [hstage] at hdue
      rw [hstage'] at hb
      rw [hqueue, hstage']
      exact hdue (List.mem_cons_of_mem a hb)
    · rw [hcreated, htimes]
      split
      · rename_i hx
        subst hx
        exact (spaced_concat _ _ _ _).mpr ⟨h.spaced _, hnext⟩
      · exact h.spaced x
    · rw [hcreated] at hx
      rw [htimes]
      split
      · rename_i hx'
        subst hx'
        rw [hx] at hfirst
        rw [hfirst.resolve_right Bool.false_ne_true]
        exact Nat.le_refl 1
      · exact h.once x hx
    · rw [hhandles] at hx
      rw [htimes, if_neg]
      · exact h.later x hx
      · rintro rfl
        exact absurd hx (not_lt.mpr (h.sound.bounded a hlive))
  · rw [step, note_run hcalling]
    exact h.quiet hsound (quiet_run hcalling) rfl rfl

/-! ## A timer is settled -/

/-- **What a timer that is settled leaves.** -/
theorem step_settle {now : Time} {a : Addr} {left : List Addr} {changed : Bool}
    (hstage : r.stage = .settling now (a :: left) changed) :
    (r.step .settle).handles = { r.handles with steps := { r.handles.steps with
      queue := (r.queue.settle now a).2
      stage := .settling now left (changed || (r.queue.settle now a).1) } } := by
  show ({ r.handles with steps := r.handles.steps.step .settle } : TimerHandles) = _
  rw [TimerSteps.step, show r.handles.steps.stage = _ from hstage]

/-- **A timer that is queued again** is due an interval after the call that it has just had. -/
theorem Known.restart {b : Addr} (h : r.Known b) {now : Time}
    (hcalled : (r.times (r.handles.sequence b)).getLast? = some now)
    (hrepeated : (r.queue.heap b).repeated = true) {r' : TimerRuns}
    (hheap : r'.queue.heap b = (r.queue.heap b).restart now)
    (hsequence : r'.handles.sequence b = r.handles.sequence b) (hcreated : r'.created = r.created)
    (hlog : r'.log = r.log) (hpending : b ∉ r'.stage.pending) : r'.Known b := by
  have hnext : r.next (r.handles.sequence b) = now + (r.queue.heap b).micros := by
    rw [next, nextFrom, hcalled, h.micros]
    rfl
  refine ⟨?_, ?_, fun _ => ⟨?_, .inr ?_⟩, fun hin => absurd hin hpending⟩
  · rw [hheap, hsequence, hcreated]
    exact h.repeated
  · rw [hheap, hsequence, hcreated]
    exact h.micros
  · rw [hheap, hsequence, next, times, hcreated, hlog]
    exact hnext.symm
  · rw [hheap]
    exact hrepeated

theorem Kept.settle (h : r.Kept) : (r.step .settle).Kept := by
  have hsound : (r.handles.step .settle).Sound := h.sound.step (e := .settle) trivial
  by_cases hsettling : ∃ now a left changed, r.stage = .settling now (a :: left) changed
  · obtain ⟨now, a, left, changed, hstage⟩ := hsettling
    have hhandles := step_settle hstage
    have hqueue : (r.step .settle).queue = (r.queue.settle now a).2 := by rw [queue, hhandles]
    have hstage' : (r.step .settle).stage
        = .settling now left (changed || (r.queue.settle now a).1) := by rw [stage, hhandles]
    have hsequence : (r.step .settle).handles.sequence = r.handles.sequence := by rw [hhandles]
    have hothers : ∀ b ∈ r.queue.live, b ≠ a →
        (r.step .settle).queue.heap b = r.queue.heap b → (r.step .settle).Known b := by
      intro b hb hne hheap
      refine (h.known b hb).congr hheap (by rw [hsequence]) rfl rfl ?_ ?_ ?_
      · rw [hstage', hstage]
        exact (List.mem_cons.trans (or_iff_right hne)).symm
      · rw [hstage', hstage]
        rfl
      · rw [hstage', hstage]
        exact fun _ => rfl
    refine ⟨hsound, ?_, ?_, ?_, h.spaced, h.once, fun x hx => ?_⟩
    · by_cases hr : r.queue.Restarts a
      · rw [TimerQueue.settle_of_restarts hr] at hqueue
        rw [hqueue]
        intro b hb
        rcases eq_or_ne b a with rfl | hne
        · have hnodup := h.sound.steps.nodup
          rw [show r.handles.steps.stage = _ from hstage] at hnodup
          have hcalled := (h.known b hb).called
          rw [hstage] at hcalled
          refine (h.known b hb).restart (hcalled List.mem_cons_self List.not_mem_nil) hr.1 ?_
            (by rw [hsequence]) rfl rfl ?_
          · rw [hqueue]
            exact Function.update_self b _ _
          · rw [hstage']
            exact (List.nodup_cons.mp hnodup).1
        · refine hothers b hb hne ?_
          rw [hqueue]
          exact Function.update_of_ne hne _ _
      · rw [TimerQueue.settle_of_not_restarts hr] at hqueue
        rw [hqueue]
        intro b hb
        obtain ⟨hne, hb⟩ := Finset.mem_erase.mp hb
        exact hothers b hb hne (by rw [hqueue]; rfl)
    · rw [hstage']
      exact List.nil_sublist _
    · rw [hstage']
      intro b hb
      cases hb
    · refine h.later x ?_
      rwa [hhandles] at hx
  · exact h.quiet hsound (quiet_settle hsettling) rfl rfl

/-! ## Runs -/

theorem Kept.step (h : r.Kept) {e : HandleEvent} (he : r.Valid e) : (r.step e).Kept := by
  have hsound : (r.handles.step e).Sound := h.sound.step he
  cases e with
  | addTimer a timer => exact h.addTimer he timer
  | addTimerInLoop a now => exact h.quiet hsound (quiet_addTimerInLoop _ a now) rfl rfl
  | cancel g timerId => exact h.quiet hsound (quiet_cancelInLoop _ (timerId.addr g)) rfl rfl
  | handleRead now order => exact h.handleRead now order
  | run => exact h.run
  | called => exact h.quiet hsound (quiet_called _) rfl rfl
  | settle => exact h.settle
  | finish later => exact h.quiet hsound (quiet_finish _ later) rfl rfl

/-- **No timer fires early.**  In every run, whatever is added and cancelled and whatever the clock reads:
each call of a timer's callback comes at its deadline or later, each but the first an interval or more
after the one before it; so the `n`-th is `n` intervals or more past the deadline.  And a timer that does
not repeat is called once at most. -/
theorem runs_spaced (heap : Addr → Timer) (es : List HandleEvent) (hes : Meets step Valid (new heap) es)
    (x : ℕ) :
    let r := run step (new heap) es
    Spaced (r.created x).micros (r.created x).deadline (r.times x)
      ∧ (∀ n, ∀ hn : n < (r.times x).length,
        (r.created x).deadline + n * (r.created x).micros ≤ (r.times x)[n])
      ∧ ((r.created x).repeated = false → (r.times x).length ≤ 1) := by
  intro r
  have h : r.Kept := inv_run (fun _ _ h he => h.step he) (kept_new heap) hes
  refine ⟨h.spaced x, fun n hn => ?_, h.once x⟩
  have hle := (h.spaced x).add_le_get hn
  rwa [nsmul_eq_mul] at hle

/-- A timer that repeats is called twice, the second time late; its memory is used again. -/
theorem runs_spaced_reused :
    let es : List HandleEvent :=
      [.addTimer 0 ⟨1, true, 5⟩, .addTimerInLoop 0 0, .handleRead 2 .ascending, .run, .called, .settle,
        .finish 2, .handleRead 9 .ascending, .run, .cancel ⟨0, 1⟩ .argument, .called, .settle, .finish 9,
        .addTimer 0 ⟨12, false, 0⟩, .addTimerInLoop 0 9]
    let r := run step (new fun _ => ⟨0, false, 0⟩) es
    r.times 1 = [2, 9] ∧ Spaced (r.created 1).micros (r.created 1).deadline (r.times 1)
      ∧ (∀ n, ∀ hn : n < (r.times 1).length,
        (r.created 1).deadline + n * (r.created 1).micros ≤ (r.times 1)[n])
      ∧ ((r.created 1).repeated = false → (r.times 1).length ≤ 1) :=
  ⟨by decide, runs_spaced _ _ (by decide) 1⟩

/-! ## A timer that is over -/

variable {x : ℕ}

/-- **Timer `x` is over**: it is no more, or in the batch and not to be queued again. -/
def Over (r : TimerRuns) (x : ℕ) : Prop :=
  x ≤ r.handles.id ∧ ∀ a ∈ r.queue.live, r.handles.sequence a = x →
    a ∈ r.stage.pending ∧ ¬ r.queue.Restarts a

theorem Over.quiet (hover : r.Over x) (h : r.Kept) {handles : TimerHandles}
    (hquiet : Quiet r.handles.steps handles.steps) (hsequence : handles.sequence = r.handles.sequence)
    (hid : handles.id = r.handles.id) :
    Over { r with handles := handles } x ∧ toCome { r with handles := handles } x = r.toCome x := by
  refine ⟨⟨hover.1.trans hid.ge, fun a ha heq => ?_⟩, ?_⟩
  · obtain ⟨hin, hnot⟩ := hover.2 a (hquiet.live ha) (by rw [← hsequence]; exact heq)
    refine ⟨?_, fun hr => hnot ⟨?_, fun hcancelled => hr.2 (hquiet.cancelling hcancelled)⟩⟩
    · show a ∈ handles.steps.stage.pending
      rw [hquiet.pending]
      exact hin
    · rw [queue, ← hquiet.heap]
      exact hr.1
  · show (handles.steps.stage.toCall.filter fun a => handles.sequence a = x).map _ = _
    rw [hquiet.toCall, hsequence]
    refine List.map_congr_left fun a ha => ?_
    exact hquiet.now (List.ne_nil_of_mem (h.batch.subset (List.mem_filter.mp ha).1))

theorem Over.addTimer (hover : r.Over x) (h : r.Kept) {a : Addr} (ha : a ∉ r.queue.live) (timer : Timer) :
    (r.step (.addTimer a timer)).Over x ∧ (r.step (.addTimer a timer)).toCome x = r.toCome x := by
  have hold : ∀ b, b ≠ a →
      (r.step (.addTimer a timer)).handles.sequence b = r.handles.sequence b
        ∧ (r.step (.addTimer a timer)).queue.heap b = r.queue.heap b := fun b hb =>
    ⟨Function.update_of_ne hb _ _, Function.update_of_ne hb _ _⟩
  refine ⟨⟨hover.1.trans (Nat.le_succ _), fun b hb heq => ?_⟩, ?_⟩
  · rcases Finset.mem_insert.mp hb with rfl | hlive
    · have hnew : (r.step (.addTimer b timer)).handles.sequence b = r.handles.id + 1 :=
        Function.update_self b _ _
      have hle := hover.1
      omega
    · obtain ⟨hsequence, hheap⟩ := hold b fun hba => ha (hba ▸ hlive)
      obtain ⟨hin, hnot⟩ := hover.2 b hlive (hsequence.symm.trans heq)
      refine ⟨hin, fun hr => hnot ⟨?_, hr.2⟩⟩
      rw [← hheap]
      exact hr.1
  · refine congrArg (List.map _) (List.filter_congr fun b hb => ?_)
    rw [(hold b _).1]
    rintro rfl
    exact ha ((h.sound.steps.live b).mpr (.inr (.inl (h.batch.subset hb))))

theorem Over.handleRead (hover : r.Over x) (h : r.Kept) (now : Time) (order : IterOrder) :
    (r.step (.handleRead now order)).Over x
      ∧ (r.step (.handleRead now order)).toCome x = r.toCome x := by
  by_cases hidle : r.stage = .idle
  · -- outside a batch it is no more
    have hnone : ∀ a ∈ r.queue.live, r.handles.sequence a ≠ x := fun a ha heq => by
      have hin := (hover.2 a ha heq).1
      rw [hidle] at hin
      cases hin
    have hhandles := step_handleRead hidle now order
    refine ⟨⟨?_, fun a ha heq => ?_⟩, ?_⟩
    · rw [hhandles]
      exact hover.1
    · rw [queue, hhandles] at ha
      rw [hhandles] at heq
      exact absurd heq (hnone a ha)
    · rw [toCome, toCome, stage, hhandles, hidle]
      refine List.map_eq_nil_iff.mpr (List.filter_eq_nil_iff.mpr fun a ha => ?_)
      have hqueued := ((TimerQueue.mem_expired h.sound.steps.indexed a).mp ha).1
      rw [decide_eq_true_iff]
      exact hnone a ((h.sound.steps.live a).mpr (.inl hqueued))
  · exact hover.quiet h (quiet_handleRead hidle now order) rfl rfl

theorem Over.run (hover : r.Over x) (h : r.Kept) :
    (r.step .run).Over x
      ∧ (r.step .run).times x ++ (r.step .run).toCome x = r.times x ++ r.toCome x := by
  by_cases hcalling : ∃ now batch a left, r.stage = .calling now batch (a :: left)
  · obtain ⟨now, batch, a, left, hstage⟩ := hcalling
    obtain ⟨hhandles, -, htimes⟩ := step_run hstage
    refine ⟨⟨?_, fun b hb heq => ?_⟩, ?_⟩
    · rw [hhandles]
      exact hover.1
    · rw [queue, hhandles] at hb
      rw [hhandles] at heq
      obtain ⟨hin, hnot⟩ := hover.2 b hb heq
      rw [hstage] at hin
      rw [stage, queue, hhandles]
      exact ⟨hin, hnot⟩
    · have hcome : (r.step .run).toCome x
          = (left.filter fun b => r.handles.sequence b = x).map fun _ => now := by
        rw [toCome, stage, hhandles]
        rfl
      have hcome' : r.toCome x
          = ((a :: left).filter fun b => r.handles.sequence b = x).map fun _ => now := by
        rw [toCome, hstage]
        rfl
      rw [htimes, hcome, hcome', List.filter_cons]
      by_cases hx : x = r.handles.sequence a
      · simp [hx]
      · simp [hx, Ne.symm hx]
  · have hsame : Over { r with handles := r.handles.step .run } x
        ∧ toCome { r with handles := r.handles.step .run } x = r.toCome x :=
      hover.quiet h (quiet_run hcalling) rfl rfl
    rw [step, note_run hcalling]
    exact ⟨hsame.1, congrArg (r.times x ++ ·) hsame.2⟩

theorem Over.settle (hover : r.Over x) (h : r.Kept) :
    (r.step .settle).Over x ∧ (r.step .settle).toCome x = r.toCome x := by
  by_cases hsettling : ∃ now a left changed, r.stage = .settling now (a :: left) changed
  · obtain ⟨now, a, left, changed, hstage⟩ := hsettling
    have hhandles := step_settle hstage
    refine ⟨⟨?_, fun b hb heq => ?_⟩, ?_⟩
    · rw [hhandles]
      exact hover.1
    · rw [queue, hhandles] at hb
      rw [hhandles] at heq
      have hlive : (r.queue.settle now a).2.live ⊆ r.queue.live := by
        by_cases hr : r.queue.Restarts a
        · rw [TimerQueue.settle_of_restarts hr]
          exact Finset.Subset.refl _
        · rw [TimerQueue.settle_of_not_restarts hr]
          exact Finset.erase_subset _ _
      obtain ⟨hin, hnot⟩ := hover.2 b (hlive hb) heq
      rw [hstage] at hin
      have hne : b ≠ a := by
        rintro rfl
        rw [TimerQueue.settle_of_not_restarts hnot] at hb
        exact Finset.notMem_erase b _ hb
      rw [stage, queue, hhandles]
      exact ⟨(List.mem_cons.mp hin).resolve_left hne, fun hr =>
        hnot ((TimerQueue.restarts_settle b).1.mp hr)⟩
    · rw [toCome, toCome, stage, hhandles, hstage]
      rfl
  · exact hover.quiet h (quiet_settle hsettling) rfl rfl

/-- **A timer that is over** is called no more than the batch has yet to call it. -/
theorem Over.step (hover : r.Over x) (h : r.Kept) {e : HandleEvent} (he : r.Valid e) :
    (r.step e).Over x ∧ (r.step e).times x ++ (r.step e).toCome x = r.times x ++ r.toCome x := by
  have hsame : (r.step e).Over x ∧ (r.step e).toCome x = r.toCome x → (r.step e).log = r.log →
      (r.step e).Over x ∧ (r.step e).times x ++ (r.step e).toCome x = r.times x ++ r.toCome x := by
    rintro ⟨hover', htoCome⟩ hlog
    rw [htoCome, times, hlog]
    exact ⟨hover', rfl⟩
  cases e with
  | addTimer a timer => exact hsame (hover.addTimer h he timer) rfl
  | addTimerInLoop a now => exact hsame (hover.quiet h (quiet_addTimerInLoop _ a now) rfl rfl) rfl
  | cancel g timerId =>
    exact hsame (hover.quiet h (quiet_cancelInLoop _ (timerId.addr g)) rfl rfl) rfl
  | handleRead now order => exact hsame (hover.handleRead h now order) rfl
  | run => exact hover.run h
  | called => exact hsame (hover.quiet h (quiet_called _) rfl rfl) rfl
  | settle => exact hsame (hover.settle h) rfl
  | finish later => exact hsame (hover.quiet h (quiet_finish _ later) rfl rfl) rfl

/-! ## Cancelling -/

/-- Of one timer, a batch calls the callback once. -/
theorem Kept.length_toCome (h : r.Kept) (x : ℕ) : (r.toCome x).length ≤ 1 := by
  rw [toCome, List.length_map]
  have hnodup : (r.stage.toCall.filter fun a => r.handles.sequence a = x).Nodup :=
    (h.batch.nodup h.sound.steps.nodup).filter _
  have hlive : ∀ a ∈ r.stage.toCall, a ∈ r.queue.live := fun a ha =>
    (h.sound.steps.live a).mpr (.inr (.inl (h.batch.subset ha)))
  match hcall : r.stage.toCall.filter fun a => r.handles.sequence a = x with
  | [] => exact Nat.zero_le 1
  | [_] => exact Nat.le_refl 1
  | a :: b :: _ =>
    have ha : a ∈ r.stage.toCall.filter fun a => r.handles.sequence a = x := by simp [hcall]
    have hb : b ∈ r.stage.toCall.filter fun a => r.handles.sequence a = x := by simp [hcall]
    rw [List.mem_filter, decide_eq_true_iff] at ha hb
    rw [hcall] at hnodup
    have hsame : a = b := h.sound.distinct a (hlive a ha.1) b (hlive b hb.1) (ha.2.trans hb.2.symm)
    exact absurd (hsame ▸ List.mem_cons_self) (List.nodup_cons.mp hnodup).1

/-- A timer that is there, and not among those to be called, is not called in this batch. -/
theorem Kept.toCome_eq_nil (h : r.Kept) {a : Addr} (hlive : a ∈ r.queue.live) (ha : a ∉ r.stage.toCall) :
    r.toCome (r.handles.sequence a) = [] := by
  rw [toCome, List.map_eq_nil_iff, List.filter_eq_nil_iff]
  intro b hb heq
  have hlive' : b ∈ r.queue.live := (h.sound.steps.live b).mpr (.inr (.inl (h.batch.subset hb)))
  have hsame : b = a := h.sound.distinct b hlive' a hlive (of_decide_eq_true heq)
  exact ha (hsame ▸ hb)

/-- What a cancellation does outside of `settling`. -/
theorem step_cancel (g : TimerHandle) (timerId : TimerIdRead) (hout : r.stage.callsOut = true) :
    (r.step (.cancel g timerId)).handles = { r.handles with steps := { r.handles.steps with
      queue := r.queue.cancelInLoop (timerId.addr g) } } := by
  show ({ r.handles with steps := r.handles.steps.step (.cancelInLoop (timerId.addr g)) } : TimerHandles)
    = _
  rw [TimerSteps.step, if_pos hout]

/-- **A timer that is queued, or in the batch, is over once it is cancelled.** -/
theorem Kept.over_cancel (h : r.Kept) (g : TimerHandle) (timerId : TimerIdRead)
    (hout : r.stage.callsOut = true)
    (hthere : timerId.addr g ∈ r.queue.activeTimers ∨ timerId.addr g ∈ r.stage.pending) :
    (r.step (.cancel g timerId)).Over (r.handles.sequence (timerId.addr g)) := by
  have hlive : timerId.addr g ∈ r.queue.live :=
    (h.sound.steps.live _).mpr (hthere.imp_right .inl)
  have hhandles := step_cancel g timerId hout
  refine ⟨?_, fun b hb heq => ?_⟩
  · rw [hhandles]
    exact h.sound.bounded _ hlive
  · rw [queue, hhandles] at hb
    rw [hhandles] at heq
    rw [stage, queue, hhandles]
    have hb' := TimerHandles.live_cancelInLoop r.queue (timerId.addr g) hb
    obtain rfl : b = timerId.addr g := h.sound.distinct b hb' _ hlive heq
    by_cases hactive : timerId.addr g ∈ r.queue.activeTimers
    · change timerId.addr g ∈ (r.queue.cancelInLoop (timerId.addr g)).live at hb
      rw [TimerQueue.cancelInLoop, if_pos hactive] at hb
      exact absurd hb (Finset.notMem_erase _ _)
    · have hin := hthere.resolve_left hactive
      have hcalling : r.queue.callingExpiredTimers = true := by
        rw [show r.queue.callingExpiredTimers = r.stage.isCalling from h.sound.steps.calling]
        revert hin hout
        cases r.stage with
        | idle => exact fun _ hin => absurd hin List.not_mem_nil
        | calling now batch left => exact fun _ _ => rfl
        | settling now left changed => exact fun hout _ => hout
      refine ⟨hin, fun hr => ?_⟩
      change (r.queue.cancelInLoop (timerId.addr g)).Restarts (timerId.addr g) at hr
      rw [TimerQueue.cancelInLoop, if_neg hactive, if_pos hcalling] at hr
      exact hr.2 (Finset.mem_insert_self _ _)

/-- **Cancelling is final.**  In every run: once `cancelInLoop` has been called, outside a batch or from a
callback of one, with the address of a timer that is queued or in the batch, that timer is called no more
than the batch has yet to call it, which is once at most, and not at all when the timer was queued or has been
called in the batch; whatever is added, cancelled and allocated, and however often the queue expires. -/
theorem cancelled_run (heap : Addr → Timer) (es : List HandleEvent) (g : TimerHandle)
    (timerId : TimerIdRead) (es' : List HandleEvent)
    (hes : Meets step Valid (new heap) (es ++ .cancel g timerId :: es')) :
    let r := run step (new heap) es
    let r' := run step (new heap) (es ++ .cancel g timerId :: es')
    let x := r.handles.sequence (timerId.addr g)
    r.stage.callsOut = true →
      timerId.addr g ∈ r.queue.activeTimers ∨ timerId.addr g ∈ r.stage.pending →
        r'.times x ++ r'.toCome x = r.times x ++ r.toCome x ∧ (r.toCome x).length ≤ 1
          ∧ (timerId.addr g ∈ r.queue.activeTimers ∨ timerId.addr g ∉ r.stage.toCall → r.toCome x = []) := by
  intro r r' x hout hthere
  have h : r.Kept :=
    inv_run (fun _ _ h he => h.step he) (kept_new heap) (hes.of_prefix (List.prefix_append es _))
  obtain ⟨hcancel, hrest⟩ := hes.of_append
  have hr' : r' = run step (r.step (.cancel g timerId)) es' := by rw [← run_cons, ← run_append]
  have hfirst : (r.step (.cancel g timerId)).times x ++ (r.step (.cancel g timerId)).toCome x
      = r.times x ++ r.toCome x := by
    rw [toCome, stage, step_cancel g timerId hout]
    rfl
  -- from here on the timer is over
  obtain ⟨-, -, hlast⟩ : r'.Kept ∧ r'.Over x
      ∧ r'.times x ++ r'.toCome x = r.times x ++ r.toCome x := by
    rw [hr']
    have hkeep : ∀ (s : TimerRuns) (e : HandleEvent),
        (s.Kept ∧ s.Over x ∧ s.times x ++ s.toCome x = r.times x ++ r.toCome x) → s.Valid e →
          ((s.step e).Kept ∧ (s.step e).Over x
            ∧ (s.step e).times x ++ (s.step e).toCome x = r.times x ++ r.toCome x) := by
      rintro s e ⟨hkept, hover, hsame⟩ he
      obtain ⟨hover', hsame'⟩ := hover.step hkept he
      exact ⟨hkept.step he, hover', hsame'.trans hsame⟩
    exact inv_run hkeep ⟨h.step hcancel, h.over_cancel g timerId hout hthere, hfirst⟩ hrest
  have hlive : timerId.addr g ∈ r.queue.live := (h.sound.steps.live _).mpr (hthere.imp_right .inl)
  refine ⟨hlast, h.length_toCome x, fun hdone => h.toCome_eq_nil hlive ?_⟩
  rcases hdone with hactive | hcalled
  · exact fun hin => h.sound.steps.away _ (h.batch.subset hin) hactive
  · exact hcalled

/-- The second timer of a batch is cancelled by the first, and is called all the same; then no more. -/
theorem cancelled_run_batch :
    let es : List HandleEvent :=
      [.addTimer 0 ⟨1, true, 5⟩, .addTimerInLoop 0 0, .addTimer 1 ⟨2, true, 5⟩, .addTimerInLoop 1 0,
        .handleRead 3 .ascending, .run]
    let es' : List HandleEvent :=
      [.run, .called, .settle, .settle, .finish 3, .handleRead 20 .ascending, .run, .called, .settle,
        .finish 20]
    let r := run step (new fun _ => ⟨0, false, 0⟩) es
    let r' := run step (new fun _ => ⟨0, false, 0⟩) (es ++ .cancel ⟨1, 2⟩ .argument :: es')
    r'.times 2 = [3] ∧ r'.times 2 ++ r'.toCome 2 = r.times 2 ++ r.toCome 2 ∧ (r.toCome 2).length ≤ 1
      ∧ (1 ∈ r.queue.activeTimers ∨ 1 ∉ r.stage.toCall → r.toCome 2 = []) :=
  ⟨by decide, cancelled_run _ _ ⟨1, 2⟩ .argument _ (by decide) (by decide) (by decide)⟩

end TimerRuns
