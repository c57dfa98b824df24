import Rpx.Core.Poller

/-!
# Core/LoopChannels — which channels can be destroyed, and the two of the loop itself

    ~Channel:   assert(!_addedInLoop)   ⟺   neither `_channels` nor the epoll set has the channel

Removing a channel is the only way out of both, and clears `_addedInLoop` on the way.  A loop has two
channels of its own, that of the wake-up event and that of the timer queue.  Both are made readable by its
constructor, and its destructor removes the first; nobody removes the second, whose assertion therefore
fails whenever a loop is destroyed: `destructed_run`.
-/

open Machinery

namespace Channel

/-- `_addedInLoop` is set exactly while the poller has the channel. -/
def Flagged (ch : Channel) : Prop := ch.addedInLoop = true ↔ ch.state ≠ .unset

variable {ch : Channel}

theorem state_epollCtl (op : EpollOp) : (ch.epollCtl op).state = ch.state := by
  unfold epollCtl
  split <;> rfl

/-- Whoever applies the interests is in the loop. -/
theorem flagged_applyInterest : ch.applyInterest.Flagged := by
  rw [Flagged, applyInterest, addOrUpdateChannel]
  split
  · rw [addedInLoop_epollCtl, state_epollCtl]
    simp
  · rename_i hstate
    split
    · rw [addedInLoop_epollCtl, state_epollCtl]
      simp
    · rw [addedInLoop_epollCtl, state_epollCtl]
      simp only [true_iff]
      exact fun h => hstate (.inl h)

/-- **Every call keeps the flag.** -/
theorem Flagged.call (h : ch.Flagged) (c : ChannelCall) : (ch.call c).Flagged := by
  by_cases hc : c = .remove
  · subst hc
    show ch.remove.Flagged
    cases hnone : ch.hasNoneInterest with
    | true =>
      obtain ⟨hadded, hstate⟩ := ch.remove_of_hasNoneInterest hnone
      rw [Flagged, hadded, hstate]
      simp
    | false =>
      rw [Channel.remove, hnone]
      exact h
  · rw [ch.call_of_ne_remove hc]
    exact flagged_applyInterest

end Channel

namespace Poller

variable {ι : Type} [DecidableEq ι] {p : Poller ι} {i : ι}

/-- The assertion of `~Channel`, outside a dispatch. -/
def Destroyable (p : Poller ι) (i : ι) : Prop := (p.chan i).addedInLoop = false

/-- **Neither the poller nor the kernel has the channel**, so no event is reported to it. -/
structure Forgotten (p : Poller ι) (i : ι) : Prop where
  kernel : p.kernel (p.fd i) = none
  pointer : ∀ j, ∀ ev ∈ p.kernel (p.fd j), ev.2 ≠ i
  channels : ∀ f, p.channels f ≠ some i

/-- The flag of every channel is right. -/
def Flagged (p : Poller ι) : Prop := ∀ i, (p.view i).Flagged

theorem Flagged.step (h : p.Flagged) (e : ι × ChannelCall) : (p.step e).Flagged := by
  rw [Poller.step]
  split
  · exact h
  · intro j
    rcases eq_or_ne j e.1 with rfl | hne
    · rw [view_call_self]
      exact (h e.1).call e.2
    · rw [(Apart.call e.1 p e.2).view hne]
      exact h j

omit [DecidableEq ι] in
/-- **A channel can be destroyed exactly when it has been forgotten.** -/
theorem Flagged.destroyable_iff (h : p.Flagged) (hp : p.Registered) (i : ι) :
    p.Destroyable i ↔ p.Forgotten i := by
  have hflag : (p.chan i).addedInLoop = true ↔ (p.chan i).state ≠ .unset := h i
  have hunset : p.Destroyable i ↔ (p.chan i).state = .unset := by
    rw [Destroyable, ← Bool.not_eq_true, hflag, not_not]
  rw [hunset]
  constructor
  · intro hstate
    refine ⟨?_, fun j ev hev heq => ?_, fun f hf => ((hp.channels f i).mp hf).2 hstate⟩
    · rw [hp.kernel, hstate]
      rfl
    · rw [hp.kernel] at hev
      split at hev
      · rename_i hset
        cases hev
        obtain rfl : j = i := heq
        rw [hstate] at hset
        cases hset
      · cases hev
  · intro hforgotten
    by_contra hstate
    exact hforgotten.channels (p.fd i) ((hp.channels _ i).mpr ⟨rfl, hstate⟩)

theorem flagged_run (fd : ι ↪ Fd) (es : List (ι × ChannelCall)) : (run step (new fd) es).Flagged :=
  inv_run (fun _ e h _ => h.step e) (fun _ => by simp [Channel.Flagged, view, new]) (meets_true _ es)

/-- A channel that nobody calls stays as it is. -/
theorem chan_run {es : List (ι × ChannelCall)} (hes : ∀ e ∈ es, e.1 ≠ i) (p : Poller ι) :
    (run step p es).chan i = p.chan i := by
  induction es generalizing p with
  | nil => rfl
  | cons e es ih =>
    obtain ⟨he, hes⟩ := List.forall_mem_cons.mp hes
    rw [run_cons, ih hes, Poller.step]
    split
    · rfl
    · exact (Apart.call e.1 p e.2).chan i he.symm

omit [DecidableEq ι] in
theorem asserted_epollCtl (p : Poller ι) (i : ι) (op : EpollOp) : (p.epollCtl i op).asserted = p.asserted := by
  unfold epollCtl
  split <;> rfl

/-- Only `remove` has an assertion, and none once it is passed. -/
theorem asserted_applyInterest (p : Poller ι) (i : ι) : (p.applyInterest i).asserted = p.asserted := by
  rw [applyInterest, addOrUpdateChannel]
  split
  · rw [asserted_epollCtl]
    split
    · rfl
    · rfl
  · split
    · exact asserted_epollCtl _ i .del
    · exact asserted_epollCtl _ i .mod

theorem asserted_removeChannel (p : Poller ι) (i : ι) : (p.removeChannel i).asserted = p.asserted := by
  rw [removeChannel]
  split
  · exact asserted_epollCtl _ i .del
  · rfl

/-- A call, while the process runs. -/
theorem step_of_running (hexited : p.exited = false) (hasserted : p.asserted = false)
    (e : ι × ChannelCall) : p.step e = p.call e.1 e.2 := by
  rw [Poller.step, hexited, hasserted]
  rfl

/-- **A channel is taken out**: the assertion of `remove` holds, and then that of the destructor. -/
theorem taken_out (hexited : p.exited = false) (hasserted : p.asserted = false)
    (hfirst : (p.step (i, .unsetAllInterest)).exited = false) :
    let q := run step p [(i, .unsetAllInterest), (i, .remove)]
    q.Destroyable i ∧ q.asserted = false := by
  rw [step_of_running hexited hasserted] at hfirst
  have hasserted' : (p.unsetAllInterest i).asserted = false :=
    (asserted_applyInterest _ i).trans hasserted
  have hq : run step p [(i, .unsetAllInterest), (i, .remove)] = (p.unsetAllInterest i).remove i := by
    rw [run_cons, run_cons, run_nil, step_of_running hexited hasserted,
      step_of_running hfirst hasserted']
    rfl
  have hview : (p.unsetAllInterest i).view i = (p.view i).unsetAllInterest :=
    p.view_call_self i .unsetAllInterest
  have hnone : ((p.unsetAllInterest i).view i).hasNoneInterest = true := by
    rw [hview, Channel.hasNoneInterest, Channel.interests_unsetAllInterest]
    rfl
  intro q
  have hremove : q.view i = ((p.unsetAllInterest i).view i).remove :=
    (congrArg (·.view i) hq).trans ((p.unsetAllInterest i).view_call_self i .remove)
  refine ⟨(congrArg Channel.addedInLoop hremove).trans (Channel.remove_of_hasNoneInterest _ hnone).1, ?_⟩
  show (run step p [(i, .unsetAllInterest), (i, .remove)]).asserted = false
  rw [hq, remove, if_pos (by rwa [hasNoneInterest_view] at hnone)]
  exact (asserted_removeChannel _ i).trans hasserted'

end Poller

/-! ## The channels of a loop -/

namespace EventLoop

variable {ι : Type} [DecidableEq ι] (timerfd wakeup : ι)

/-- What `EventLoop()` asks of its channels: `TimerQueue()` comes first. -/
def constructed : List (ι × ChannelCall) := [(timerfd, .setReadInterest), (wakeup, .setReadInterest)]

/-- What `~EventLoop()` asks of them, before its members are destroyed. -/
def destructed : List (ι × ChannelCall) := [(wakeup, .unsetAllInterest), (wakeup, .remove)]

variable {timerfd wakeup}

/-- **No loop can be destroyed.**  For any channels with descriptors of their own: after any calls a channel
can be destroyed exactly when neither the poller nor the kernel has it (any more).  After any calls on those
that are not the loop's, the destructor of the loop sees to that for the wake-up channel, with no assertion
failing; and it leaves the channel of the timer queue in the epoll set, so that its assertion fails. -/
theorem destructed_run (fd : ι ↪ Fd) {es : List (ι × ChannelCall)} (hne : timerfd ≠ wakeup)
    (hes : ∀ e ∈ es, e.1 ≠ timerfd)
    (hrun : (run Poller.step (.new fd) (constructed timerfd wakeup ++ es)).asserted = false) :
    let p := run Poller.step (.new fd) (constructed timerfd wakeup ++ es ++ destructed wakeup)
    (∀ js i, (run Poller.step (.new fd) js).Destroyable i ↔ (run Poller.step (.new fd) js).Forgotten i)
      ∧ p.asserted = false ∧ p.Forgotten wakeup
      ∧ (∃ mask, p.kernel (p.fd timerfd) = some (mask, timerfd) ∧ mask.epollin = true)
      ∧ ¬ p.Destroyable timerfd := by
  intro p
  have hiff : ∀ js i, (run Poller.step (.new fd) js).Destroyable i
      ↔ (run Poller.step (.new fd) js).Forgotten i := fun js =>
    (Poller.flagged_run fd js).destroyable_iff (Poller.registered_run fd js)
  have hexited : ∀ es, (run Poller.step (.new fd) es).exited = false := fun es =>
    (Poller.registered_run fd es).exited
  have htaken : p.Destroyable wakeup ∧ p.asserted = false := by
    show (run Poller.step (.new fd) _).Destroyable wakeup ∧ (run Poller.step (.new fd) _).asserted = false
    rw [run_append]
    refine Poller.taken_out (hexited _) hrun ?_
    have hhead := hexited (constructed timerfd wakeup ++ es ++ [(wakeup, .unsetAllInterest)])
    rwa [run_append] at hhead
  refine ⟨hiff, htaken.2, (hiff _ wakeup).mp htaken.1, ?_⟩
  -- after the constructor nobody calls the channel of the timer queue
  have hothers : ∀ e ∈ (wakeup, ChannelCall.setReadInterest) :: (es ++ destructed wakeup), e.1 ≠ timerfd := by
    intro e he
    rcases List.mem_cons.mp he with rfl | he
    · exact hne.symm
    · rcases List.mem_append.mp he with he | he
      · exact hes e he
      · have hwake : e.1 = wakeup := by
          simp only [destructed, List.mem_cons, List.not_mem_nil, or_false] at he
          rcases he with rfl | rfl
          · rfl
          · rfl
        rw [hwake]
        exact hne.symm
  have htimer : p.chan timerfd = ((Poller.new fd).setReadInterest timerfd).chan timerfd := by
    show (run Poller.step (.new fd) (constructed timerfd wakeup ++ es ++ destructed wakeup)).chan timerfd = _
    rw [constructed, List.append_assoc, List.cons_append, run_cons]
    exact (Poller.chan_run hothers _).trans rfl
  have hview : ((Poller.new fd).setReadInterest timerfd).view timerfd
      = ((Poller.new fd).view timerfd).setReadInterest :=
        (Poller.new fd).view_call_self timerfd .setReadInterest
  have hadded : (p.chan timerfd).addedInLoop = true := htimer ▸ congrArg Channel.addedInLoop hview
  have hset : (p.chan timerfd).state = .set := htimer ▸ congrArg Channel.state hview
  have hinput : (p.chan timerfd).interests.epollin = true :=
    htimer ▸ congrArg (fun ch : Channel => ch.interests.epollin) hview
  refine ⟨⟨(p.chan timerfd).interests, ?_, hinput⟩, ?_⟩
  · rw [(Poller.registered_run fd _).kernel timerfd, if_pos hset]
  · rw [Poller.Destroyable, hadded]
    decide

/-- A loop with one channel more, which comes and goes. -/
theorem destructed_run_three :
    let p := run Poller.step (.new Fin.valEmbedding)
      (constructed (0 : Fin 3) 1 ++ [(2, .setReadInterest), (2, .unsetAllInterest), (2, .remove)]
        ++ destructed 1)
    (∀ js (i : Fin 3), (run Poller.step (.new Fin.valEmbedding) js).Destroyable i
        ↔ (run Poller.step (.new Fin.valEmbedding) js).Forgotten i)
      ∧ p.asserted = false ∧ p.Forgotten 1
      ∧ (∃ mask, p.kernel (p.fd 0) = some (mask, 0) ∧ mask.epollin = true)
      ∧ ¬ p.Destroyable 0 :=
  destructed_run Fin.valEmbedding (by decide) (by decide) (by decide)

end EventLoop
