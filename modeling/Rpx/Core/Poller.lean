import Rpx.Core.Connector
import Rpx.Machinery.Run

/-!
# Core/Poller — the epoll set of a loop and the channels registered with it

    Channel::applyInterest ──▶ addOrUpdateChannel ──▶ epoll_ctl(ADD | MOD | DEL)
    Channel::remove        ──▶ removeChannel      ──▶ epoll_ctl(DEL)

`Core/Channel` looks at one channel and at what the kernel holds of its descriptor.  Here a loop has
any set `ι` of channels, one `_channels` map keyed by descriptor and one epoll set; `view` is what one
channel sees of it, and every call on a channel is the call of `Core/Channel` on its view
(`view_call_self`) and is invisible to the others (`Apart.view`).
-/

/-- What a `Channel` keeps itself. -/
structure PolledChannel where
  /-- `_interests`. -/
  interests : EpollMask
  addedInLoop : Bool
  /-- `poller_cb.state`. -/
  state : ChanState

/-- The calls on a channel that reach the poller. -/
inductive ChannelCall
  | setReadInterest
  | unsetReadInterest
  | setWriteInterest
  | unsetWriteInterest
  | unsetAllInterest
  | remove
  deriving DecidableEq, Repr

/-- The call, on a channel alone with its poller. -/
def Channel.call (ch : Channel) : ChannelCall → Channel
  | .setReadInterest => ch.setReadInterest
  | .unsetReadInterest => ch.unsetReadInterest
  | .setWriteInterest => ch.setWriteInterest
  | .unsetWriteInterest => ch.unsetWriteInterest
  | .unsetAllInterest => ch.unsetAllInterest
  | .remove => ch.remove

/-- What a call makes of the interests. -/
def ChannelCall.interests (m : EpollMask) : ChannelCall → EpollMask
  | .setReadInterest => { m with epollin := true, epollpri := true }
  | .unsetReadInterest => { m with epollin := false, epollpri := false }
  | .setWriteInterest => { m with epollout := true }
  | .unsetWriteInterest => { m with epollout := false }
  | .unsetAllInterest => .none
  | .remove => m

/-- Every call but `remove` changes the interests and applies them. -/
theorem Channel.call_of_ne_remove (ch : Channel) {c : ChannelCall} (h : c ≠ .remove) :
    ch.call c = { ch with interests := c.interests ch.interests }.applyInterest := by
  cases c with
  | remove => exact absurd rfl h
  | _ => rfl

/-- **A call keeps a channel consistent**; it aborts only where `remove` asserts. -/
theorem Channel.Consistent.call {ch : Channel} (h : ch.Consistent) (c : ChannelCall) :
    (ch.call c).Consistent
      ∧ (ch.call c).aborted = (ch.aborted || (c == .remove && !ch.hasNoneInterest)) := by
  by_cases hc : c = .remove
  · subst hc
    exact h.remove
  · have hknown : Channel.Known { ch with interests := c.interests ch.interests } := h.known
    rw [ch.call_of_ne_remove hc, beq_false_of_ne hc, Bool.false_and, Bool.or_false]
    exact hknown.applyInterest

structure Poller (ι : Type) where
  /-- The descriptors of the channels, pairwise distinct. -/
  fd : ι ↪ Fd
  chan : ι → PolledChannel
  /-- `_channels`. -/
  channels : Fd → Option ι
  /-- The kernel's epoll set: under each descriptor its mask, and the channel in `data.ptr`. -/
  kernel : Fd → Option (EpollMask × ι)
  /-- An `epoll_ctl` was refused, and `epollCtl` called `exit(-1)`. -/
  exited : Bool
  /-- The assertion of `Channel::remove` failed. -/
  asserted : Bool

namespace Poller

open Machinery

variable {ι : Type}

/-- A poller whose channels have asked for nothing yet. -/
def new (fd : ι ↪ Fd) : Poller ι where
  fd := fd
  chan := fun _ => ⟨.none, false, .unset⟩
  channels := fun _ => none
  kernel := fun _ => none
  exited := false
  asserted := false

variable [DecidableEq ι] (p : Poller ι) (i : ι)

def setChan (c : PolledChannel) : Poller ι := { p with chan := Function.update p.chan i c }

def setState (state : ChanState) : Poller ι := p.setChan i { p.chan i with state := state }

/-! ## The poller's side -/

/-- `epollCtl`: the kernel refuses to add what it holds and to change what it does not hold. -/
def epollCtl (op : EpollOp) : Poller ι :=
  let ev := ((p.chan i).interests, i)
  match op, p.kernel (p.fd i) with
  | .add, none => { p with kernel := Function.update p.kernel (p.fd i) (some ev) }
  | .mod, some _ => { p with kernel := Function.update p.kernel (p.fd i) (some ev) }
  | .del, some _ => { p with kernel := Function.update p.kernel (p.fd i) none }
  | _, _ => { p with exited := true }

def addOrUpdateChannel : Poller ι :=
  let state := (p.chan i).state
  if state = .unset ∨ state = .delet then
    let p :=
      if state = .unset then { p with channels := Function.update p.channels (p.fd i) (some i) }
      else p
    (p.setState i .set).epollCtl i .add
  else if (p.chan i).interests == .none then
    (p.setState i .delet).epollCtl i .del
  else
    p.epollCtl i .mod

def removeChannel : Poller ι :=
  let state := (p.chan i).state
  let p := { p with channels := Function.update p.channels (p.fd i) none }
  let p := if state = .set then p.epollCtl i .del else p
  p.setState i .unset

/-! ## The channel's side -/

def applyInterest : Poller ι :=
  (p.setChan i { p.chan i with addedInLoop := true }).addOrUpdateChannel i

/-- `_interests` is assigned. -/
def setInterests (interests : EpollMask) : Poller ι :=
  p.setChan i { p.chan i with interests := interests }

def setReadInterest : Poller ι :=
  (p.setInterests i { (p.chan i).interests with epollin := true, epollpri := true }).applyInterest i

def unsetReadInterest : Poller ι :=
  (p.setInterests i { (p.chan i).interests with epollin := false, epollpri := false }).applyInterest i

def setWriteInterest : Poller ι :=
  (p.setInterests i { (p.chan i).interests with epollout := true }).applyInterest i

def unsetWriteInterest : Poller ι :=
  (p.setInterests i { (p.chan i).interests with epollout := false }).applyInterest i

def unsetAllInterest : Poller ι := (p.setInterests i .none).applyInterest i

/-- `remove()`, with its assertion. -/
def remove : Poller ι :=
  if (p.chan i).interests == .none then
    (p.setChan i { p.chan i with addedInLoop := false }).removeChannel i
  else { p with asserted := true }

def call : ChannelCall → Poller ι
  | .setReadInterest => p.setReadInterest i
  | .unsetReadInterest => p.unsetReadInterest i
  | .setWriteInterest => p.setWriteInterest i
  | .unsetWriteInterest => p.unsetWriteInterest i
  | .unsetAllInterest => p.unsetAllInterest i
  | .remove => p.remove i

/-- One call on one channel; a process that has ended makes none. -/
def step (e : ι × ChannelCall) : Poller ι := if p.exited || p.asserted then p else p.call e.1 e.2

/-! ## What one channel sees -/

/-- A channel, and what the kernel holds of its descriptor. -/
def view : Channel where
  interests := (p.chan i).interests
  events := .none
  addedInLoop := (p.chan i).addedInLoop
  state := (p.chan i).state
  registered := (p.kernel (p.fd i)).map Prod.fst
  aborted := p.exited || p.asserted

omit [DecidableEq ι] in
theorem state_view : (p.view i).state = (p.chan i).state := rfl

omit [DecidableEq ι] in
theorem hasNoneInterest_view :
    (p.view i).hasNoneInterest = ((p.chan i).interests == EpollMask.none) := rfl

@[simp] theorem view_setChan_self (c : PolledChannel) :
    (p.setChan i c).view i
      = { p.view i with interests := c.interests, addedInLoop := c.addedInLoop, state := c.state } := by
  simp [view, setChan]

@[simp] theorem view_setState_self (state : ChanState) :
    (p.setState i state).view i = { p.view i with state := state } :=
  p.view_setChan_self i _

omit [DecidableEq ι] in
/-- **An `epoll_ctl` for a channel is the one of its view.** -/
theorem view_epollCtl_self (op : EpollOp) : (p.epollCtl i op).view i = (p.view i).epollCtl op := by
  rcases hk : p.kernel (p.fd i) with - | ev
  · cases op <;> simp [epollCtl, Channel.epollCtl, view, hk]
  · cases op <;> simp [epollCtl, Channel.epollCtl, view, hk]

theorem view_addOrUpdateChannel_self :
    (p.addOrUpdateChannel i).view i = (p.view i).addOrUpdateChannel := by
  rw [addOrUpdateChannel, Channel.addOrUpdateChannel, state_view, hasNoneInterest_view]
  split
  · rw [view_epollCtl_self, view_setState_self]
    split <;> rfl
  · split
    · rw [view_epollCtl_self, view_setState_self]
    · exact p.view_epollCtl_self i .mod

theorem view_removeChannel_self : (p.removeChannel i).view i = (p.view i).removeChannel := by
  rw [removeChannel, Channel.removeChannel, view_setState_self, state_view]
  dsimp only
  split
  · rw [view_epollCtl_self]
    rfl
  · rfl

theorem view_applyInterest_self : (p.applyInterest i).view i = (p.view i).applyInterest := by
  rw [applyInterest, Channel.applyInterest, view_addOrUpdateChannel_self, view_setChan_self]
  rfl

theorem view_setInterests_self (interests : EpollMask) :
    (p.setInterests i interests).view i = { p.view i with interests := interests } :=
  p.view_setChan_self i _

/-- Every call but `remove` changes the interests and applies them. -/
theorem call_of_ne_remove {c : ChannelCall} (h : c ≠ .remove) :
    p.call i c = (p.setInterests i (c.interests (p.chan i).interests)).applyInterest i := by
  cases c with
  | remove => exact absurd rfl h
  | _ => rfl

/-- **A call on a channel is the call on its view.** -/
theorem view_call_self (c : ChannelCall) : (p.call i c).view i = (p.view i).call c := by
  by_cases hc : c = .remove
  · subst hc
    show (p.remove i).view i = (p.view i).remove
    rw [remove, Channel.remove, hasNoneInterest_view]
    split
    · rw [view_removeChannel_self, view_setChan_self]
      rfl
    · simp [view]
  · rw [p.call_of_ne_remove i hc, Channel.call_of_ne_remove _ hc, view_applyInterest_self,
      view_setInterests_self]
    rfl

/-! ## What a call on one channel leaves alone -/

/-- Nothing changed but what the `i`-th channel and its descriptor have. -/
structure Apart (i : ι) (p q : Poller ι) : Prop where
  fd : q.fd = p.fd
  chan : ∀ j ≠ i, q.chan j = p.chan j
  channels : ∀ f ≠ p.fd i, q.channels f = p.channels f
  kernel : ∀ f ≠ p.fd i, q.kernel f = p.kernel f

namespace Apart

variable {i : ι} {p q r : Poller ι}

omit [DecidableEq ι] in
theorem refl (i : ι) (p : Poller ι) : Apart i p p := ⟨rfl, fun _ _ => rfl, fun _ _ => rfl, fun _ _ => rfl⟩

omit [DecidableEq ι] in
theorem trans (h : Apart i p q) (h' : Apart i q r) : Apart i p r := by
  refine ⟨h'.fd.trans h.fd, fun j hj => ?_, fun f hf => ?_, fun f hf => ?_⟩
  · exact (h'.chan j hj).trans (h.chan j hj)
  · exact (h'.channels f (h.fd ▸ hf)).trans (h.channels f hf)
  · exact (h'.kernel f (h.fd ▸ hf)).trans (h.kernel f hf)

theorem setChan (i : ι) (p : Poller ι) (c : PolledChannel) : Apart i p (p.setChan i c) :=
  ⟨rfl, fun _ hj => Function.update_of_ne hj _ _, fun _ _ => rfl, fun _ _ => rfl⟩

omit [DecidableEq ι] in
/-- An entry of `_channels` is assigned. -/
theorem setChannels (i : ι) (p : Poller ι) (o : Option ι) :
    Apart i p { p with channels := Function.update p.channels (p.fd i) o } :=
  ⟨rfl, fun _ _ => rfl, fun _ hf => Function.update_of_ne hf _ _, fun _ _ => rfl⟩

omit [DecidableEq ι] in
theorem epollCtl (i : ι) (p : Poller ι) (op : EpollOp) : Apart i p (p.epollCtl i op) := by
  unfold Poller.epollCtl
  split
  · exact ⟨rfl, fun _ _ => rfl, fun _ _ => rfl, fun _ hf => Function.update_of_ne hf _ _⟩
  · exact ⟨rfl, fun _ _ => rfl, fun _ _ => rfl, fun _ hf => Function.update_of_ne hf _ _⟩
  · exact ⟨rfl, fun _ _ => rfl, fun _ _ => rfl, fun _ hf => Function.update_of_ne hf _ _⟩
  · exact ⟨rfl, fun _ _ => rfl, fun _ _ => rfl, fun _ _ => rfl⟩

theorem addOrUpdateChannel (i : ι) (p : Poller ι) : Apart i p (p.addOrUpdateChannel i) := by
  rw [Poller.addOrUpdateChannel]
  split
  · split
    · exact (setChannels i p (some i)).trans ((setChan i _ _).trans (epollCtl i _ .add))
    · exact (setChan i p _).trans (epollCtl i _ .add)
  · split
    · exact (setChan i p _).trans (epollCtl i _ .del)
    · exact epollCtl i p .mod

theorem removeChannel (i : ι) (p : Poller ι) : Apart i p (p.removeChannel i) := by
  refine (setChannels i p none).trans (?_ : Apart i _ _)
  rw [Poller.removeChannel]
  split
  · exact (epollCtl i _ .del).trans (setChan i _ _)
  · exact setChan i _ _

theorem call (i : ι) (p : Poller ι) (c : ChannelCall) : Apart i p (p.call i c) := by
  by_cases hc : c = .remove
  · subst hc
    show Apart i p (p.remove i)
    rw [Poller.remove]
    split
    · exact (setChan i p _).trans (removeChannel i _)
    · exact ⟨rfl, fun _ _ => rfl, fun _ _ => rfl, fun _ _ => rfl⟩
  · rw [p.call_of_ne_remove i hc]
    exact (setChan i p _).trans ((setChan i _ _).trans (addOrUpdateChannel i _))

end Apart

/-! ## The invariant -/

omit [DecidableEq ι] in
@[simp] theorem fd_epollCtl (op : EpollOp) : (p.epollCtl i op).fd = p.fd := by
  unfold epollCtl
  split <;> rfl

omit [DecidableEq ι] in
@[simp] theorem chan_epollCtl (op : EpollOp) : (p.epollCtl i op).chan = p.chan := by
  unfold epollCtl
  split <;> rfl

omit [DecidableEq ι] in
@[simp] theorem channels_epollCtl (op : EpollOp) : (p.epollCtl i op).channels = p.channels := by
  unfold epollCtl
  split <;> rfl

/-- The kernel reports the descriptor of a channel to that channel. -/
def Pointed (p : Poller ι) (i : ι) : Prop := ∀ ev ∈ p.kernel (p.fd i), ev.2 = i

/-- `_channels` has a channel unless its state is `CHAN_UNSET`. -/
def Listed (p : Poller ι) (i : ι) : Prop :=
  p.channels (p.fd i) = if (p.chan i).state = .unset then none else some i

/-- What is so of one channel and its descriptor. -/
structure Settled (p : Poller ι) (i : ι) : Prop where
  consistent : (p.view i).Consistent
  pointer : p.Pointed i
  listed : p.Listed i

/-- **The poller, the kernel and the channels agree.** -/
structure Registered (p : Poller ι) : Prop where
  /-- The kernel holds a descriptor exactly while its channel's state is `CHAN_SET`, with the present
  interests, and reports it to that channel. -/
  kernel : ∀ i, p.kernel (p.fd i)
    = if (p.chan i).state = .set then some ((p.chan i).interests, i) else none
  /-- `_channels` holds exactly the channels whose state is not `CHAN_UNSET`. -/
  channels : ∀ f i, p.channels f = some i ↔ f = p.fd i ∧ (p.chan i).state ≠ .unset
  /-- No `epoll_ctl` was refused. -/
  exited : p.exited = false

variable {p i}

omit [DecidableEq ι] in
/-- **Another channel sees nothing of a call**, but the end of the process. -/
theorem Apart.view {q : Poller ι} (hq : Apart i p q) {j : ι} (hne : j ≠ i) :
    q.view j = { p.view j with aborted := q.exited || q.asserted } := by
  have hfd : q.fd j = p.fd j := by rw [hq.fd]
  have hkernel := hq.kernel _ (p.fd.injective.ne hne)
  simp [Poller.view, hfd, hkernel, hq.chan j hne]

omit [DecidableEq ι] in
theorem Settled.of_apart {q : Poller ι} {j : ι} (h : p.Settled j) (hne : j ≠ i) (hq : Apart i p q) :
    q.Settled j := by
  have hfd : q.fd j = p.fd j := by rw [hq.fd]
  have hother : p.fd j ≠ p.fd i := p.fd.injective.ne hne
  refine ⟨?_, ?_, ?_⟩
  · rw [hq.view hne]
    exact h.consistent
  · rw [Pointed, hfd, hq.kernel _ hother]
    exact h.pointer
  · rw [Listed, hfd, hq.channels _ hother, hq.chan j hne]
    exact h.listed

omit [DecidableEq ι] in
theorem Pointed.epollCtl (h : p.Pointed i) (op : EpollOp) : (p.epollCtl i op).Pointed i := by
  rw [Pointed, fd_epollCtl]
  unfold Poller.epollCtl
  split
  · simp
  · simp
  · simp
  · exact h

theorem Pointed.addOrUpdateChannel (h : p.Pointed i) : (p.addOrUpdateChannel i).Pointed i := by
  have hset : ∀ channels state, (setState { p with channels := channels } i state).Pointed i :=
    fun _ _ => h
  rw [Poller.addOrUpdateChannel]
  split
  · split
    · exact (hset _ .set).epollCtl .add
    · exact (hset p.channels .set).epollCtl .add
  · split
    · exact (hset p.channels .delet).epollCtl .del
    · exact h.epollCtl .mod

theorem Pointed.removeChannel (h : p.Pointed i) : (p.removeChannel i).Pointed i := by
  have herased : Pointed { p with channels := Function.update p.channels (p.fd i) none } i := h
  rw [Poller.removeChannel]
  split
  · exact herased.epollCtl .del
  · exact herased

theorem Pointed.call (h : p.Pointed i) (c : ChannelCall) : (p.call i c).Pointed i := by
  by_cases hc : c = .remove
  · subst hc
    show (p.remove i).Pointed i
    rw [Poller.remove]
    split
    · exact Pointed.removeChannel (p := p.setChan i _) h
    · exact h
  · rw [p.call_of_ne_remove i hc]
    exact Pointed.addOrUpdateChannel (p := Poller.setChan _ i _) h

theorem Listed.addOrUpdateChannel (h : p.Listed i) : (p.addOrUpdateChannel i).Listed i := by
  rw [Listed] at h
  rw [Poller.addOrUpdateChannel]
  split
  · split
    · simp [Listed, setState, setChan]
    · simp_all [Listed, setState, setChan]
  · split
    · simp_all [Listed, setState, setChan]
    · simp_all [Listed]

theorem Listed.removeChannel : (p.removeChannel i).Listed i := by
  rw [Poller.removeChannel]
  split
  · simp [Listed, setState, setChan]
  · simp [Listed, setState, setChan]

theorem Listed.call (h : p.Listed i) (c : ChannelCall) : (p.call i c).Listed i := by
  by_cases hc : c = .remove
  · subst hc
    show (p.remove i).Listed i
    rw [Poller.remove]
    split
    · exact Listed.removeChannel
    · exact h
  · rw [p.call_of_ne_remove i hc]
    refine Listed.addOrUpdateChannel ?_
    simpa [Listed, setInterests, setChan] using h

/-- **A call on one channel leaves every channel settled.** -/
theorem Settled.call {j : ι} (h : ∀ j, p.Settled j) (c : ChannelCall) : (p.call i c).Settled j := by
  by_cases hne : j = i
  · subst hne
    refine ⟨?_, Pointed.call (h j).pointer c, Listed.call (h j).listed c⟩
    rw [view_call_self]
    exact ((h j).consistent.call c).1
  · exact (h j).of_apart hne (.call i p c)

/-- **A settled poller has no `epoll_ctl` refused.** -/
theorem exited_call (h : p.Settled i) (hexited : p.exited = false) (hasserted : p.asserted = false)
    (c : ChannelCall) : (p.call i c).exited = false := by
  by_cases hc : c = .remove ∧ (p.view i).hasNoneInterest = false
  · obtain ⟨rfl, hnone⟩ := hc
    have hremove : p.call i .remove = { p with asserted := true } := if_neg (ne_true_of_eq_false hnone)
    rw [hremove]
    exact hexited
  · have hview : ((p.call i c).exited || (p.call i c).asserted) = ((p.view i).call c).aborted :=
      congrArg Channel.aborted (p.view_call_self i c)
    have hrunning : (p.view i).aborted = false := by simp [view, hexited, hasserted]
    have hassert : (c == .remove && !(p.view i).hasNoneInterest) = false := by
      simpa using hc
    rw [(h.consistent.call c).2, hrunning, hassert] at hview
    exact (Bool.or_eq_false_iff.mp hview).1

/-- Every channel is settled and no `epoll_ctl` was refused. -/
structure Kept (p : Poller ι) : Prop where
  settled : ∀ i, p.Settled i
  /-- `_channels` has the descriptors of channels only. -/
  owned : ∀ f i, p.channels f = some i → f = p.fd i
  exited : p.exited = false

theorem Kept.step (h : p.Kept) (e : ι × ChannelCall) : (p.step e).Kept := by
  rw [Poller.step]
  split
  · exact h
  · rename_i hrunning
    have hasserted : p.asserted = false := by
      simp_all
    have hq := Apart.call e.1 p e.2
    have hsettled : ∀ j, (p.call e.1 e.2).Settled j := fun j => Settled.call h.settled e.2
    refine ⟨hsettled, fun f j hj => ?_, exited_call (h.settled e.1) h.exited hasserted e.2⟩
    by_cases hf : f = p.fd e.1
    · have hlisted := (hsettled e.1).listed
      rw [Listed, hq.fd, ← hf, hj] at hlisted
      split at hlisted
      · cases hlisted
      · obtain rfl := Option.some.inj hlisted
        rw [hq.fd, hf]
    · rw [hq.channels f hf] at hj
      rw [hq.fd]
      exact h.owned f j hj

omit [DecidableEq ι] in
theorem Kept.registered (h : p.Kept) : p.Registered := by
  refine ⟨fun i => ?_, fun f i => ⟨fun hf => ?_, fun hf => ?_⟩, h.exited⟩
  · have hmask : (p.kernel (p.fd i)).map Prod.fst
        = if (p.chan i).state = .set then some (p.chan i).interests else none :=
      (h.settled i).consistent
    have hpointer := (h.settled i).pointer
    rcases hk : p.kernel (p.fd i) with - | ⟨mask, j⟩
    · rw [hk] at hmask
      split at hmask
      · cases hmask
      · rename_i hstate
        rw [if_neg hstate]
    · obtain rfl : j = i := hpointer _ hk
      rw [hk] at hmask
      split at hmask
      · rename_i hstate
        rw [if_pos hstate, ← Option.some.inj hmask]
      · cases hmask
  · obtain rfl := h.owned f i hf
    refine ⟨rfl, fun hstate => ?_⟩
    have hlisted := (h.settled i).listed
    rw [Listed, if_pos hstate] at hlisted
    exact Option.some_ne_none i (hf.symm.trans hlisted)
  · obtain ⟨rfl, hstate⟩ := hf
    exact (h.settled i).listed.trans (if_neg hstate)

omit [DecidableEq ι] in
theorem kept_new (fd : ι ↪ Fd) : (new fd).Kept := by
  refine ⟨fun i => ⟨rfl, fun ev hev => ?_, rfl⟩, fun f i hf => ?_, rfl⟩
  · cases hev
  · cases hf

/-- **Registration is consistent** after any calls on any channels. -/
theorem registered_run (fd : ι ↪ Fd) (es : List (ι × ChannelCall)) :
    (run step (new fd) es).Registered :=
  (inv_run (fun _ e h _ => h.step e) (kept_new fd) (meets_true _ es)).registered

end Poller
