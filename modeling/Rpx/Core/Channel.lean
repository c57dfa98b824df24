import Mathlib.Tactic

/-!
# Core/Channel — interests, events, and the channel's place in the poller

A `Channel` asks for events by its interest mask and is told of them by its event mask.  Every
change of interest goes through `applyInterest` to the poller, which keeps the kernel's epoll set in
step by `epoll_ctl`.  A refused `epoll_ctl` ends the process (`exit(-1)`), and so does the assertion
in `remove`; both set `aborted`.
-/

/-- The bits of an epoll mask that the program reads or writes. -/
structure EpollMask where
  epollin : Bool
  epollpri : Bool
  epollout : Bool
  epollerr : Bool
  epollhup : Bool
  epollrdhup : Bool
  deriving DecidableEq, Repr

namespace EpollMask

/-- The empty mask. -/
def none : EpollMask := ⟨false, false, false, false, false, false⟩

/-- `EPOLLOUT` alone. -/
def out : EpollMask := { none with epollout := true }

/-- `EPOLLIN` alone. -/
def input : EpollMask := { none with epollin := true }

end EpollMask

/-- `poller_cb.state`: `CHAN_UNSET`, `CHAN_SET`, `CHAN_DELET`. -/
inductive ChanState
  | unset
  | set
  | delet
  deriving DecidableEq, Repr

/-- The operation argument of `epoll_ctl`. -/
inductive EpollOp
  | add
  | mod
  | del
  deriving DecidableEq, Repr

structure Channel where
  /-- `_interests`. -/
  interests : EpollMask
  /-- `_events`. -/
  events : EpollMask
  addedInLoop : Bool
  /-- `poller_cb.state`. -/
  state : ChanState
  /-- The mask under which the kernel's epoll set holds the descriptor, if it holds it. -/
  registered : Option EpollMask
  /-- An `epoll_ctl` was refused or an assertion failed. -/
  aborted : Bool
  deriving DecidableEq, Repr

namespace Channel

/-- `Channel(loop, fd)`. -/
def new : Channel where
  interests := .none
  events := .none
  addedInLoop := false
  state := .unset
  registered := none
  aborted := false

variable (ch : Channel)

def hasNoneInterest : Bool := ch.interests == .none

def hasReadInterest : Bool := ch.interests.epollin || ch.interests.epollpri

def hasWriteInterest : Bool := ch.interests.epollout

def hasWriteEvent : Bool := ch.events.epollout

def setEvents (events : EpollMask) : Channel := { ch with events := events }

/-! ## The poller's side -/

/-- `epollCtl`: the kernel refuses to add what it holds and to change what it does not hold. -/
def epollCtl (op : EpollOp) : Channel :=
  match op, ch.registered with
  | .add, none => { ch with registered := some ch.interests }
  | .mod, some _ => { ch with registered := some ch.interests }
  | .del, some _ => { ch with registered := none }
  | _, _ => { ch with aborted := true }

def addOrUpdateChannel : Channel :=
  if ch.state = .unset ∨ ch.state = .delet then
    { ch with state := .set }.epollCtl .add
  else if ch.hasNoneInterest then
    { ch with state := .delet }.epollCtl .del
  else
    ch.epollCtl .mod

def removeChannel : Channel :=
  { (if ch.state = .set then ch.epollCtl .del else ch) with state := .unset }

/-! ## Changing the interests -/

def applyInterest : Channel := { ch with addedInLoop := true }.addOrUpdateChannel

def setReadInterest : Channel :=
  { ch with interests := { ch.interests with epollin := true, epollpri := true } }.applyInterest

def unsetReadInterest : Channel :=
  { ch with interests := { ch.interests with epollin := false, epollpri := false } }.applyInterest

def setWriteInterest : Channel :=
  { ch with interests := { ch.interests with epollout := true } }.applyInterest

def unsetWriteInterest : Channel :=
  { ch with interests := { ch.interests with epollout := false } }.applyInterest

def unsetAllInterest : Channel := { ch with interests := .none }.applyInterest

/-- `remove()`, with its assertion. -/
def remove : Channel :=
  if ch.hasNoneInterest then { ch with addedInLoop := false }.removeChannel
  else { ch with aborted := true }

/-! ## The poller moves no interest and no event -/

@[simp] theorem interests_epollCtl (op : EpollOp) : (ch.epollCtl op).interests = ch.interests := by
  unfold epollCtl
  split <;> rfl

@[simp] theorem interests_applyInterest : ch.applyInterest.interests = ch.interests := by
  unfold applyInterest addOrUpdateChannel
  split
  · rw [interests_epollCtl]
  · split <;> rw [interests_epollCtl]

@[simp] theorem interests_unsetAllInterest : ch.unsetAllInterest.interests = .none := by
  simp [unsetAllInterest]

@[simp] theorem hasReadInterest_setWriteInterest :
    ch.setWriteInterest.hasReadInterest = ch.hasReadInterest := by
  simp [setWriteInterest, hasReadInterest]

@[simp] theorem hasReadInterest_unsetWriteInterest :
    ch.unsetWriteInterest.hasReadInterest = ch.hasReadInterest := by
  simp [unsetWriteInterest, hasReadInterest]

@[simp] theorem hasReadInterest_unsetAllInterest : ch.unsetAllInterest.hasReadInterest = false := by
  simp [hasReadInterest, EpollMask.none]

@[simp] theorem hasWriteInterest_setReadInterest :
    ch.setReadInterest.hasWriteInterest = ch.hasWriteInterest := by
  simp [setReadInterest, hasWriteInterest]

@[simp] theorem hasWriteInterest_setWriteInterest : ch.setWriteInterest.hasWriteInterest = true := by
  simp [setWriteInterest, hasWriteInterest]

@[simp] theorem hasWriteInterest_unsetWriteInterest :
    ch.unsetWriteInterest.hasWriteInterest = false := by
  simp [unsetWriteInterest, hasWriteInterest]

@[simp] theorem hasWriteInterest_unsetAllInterest : ch.unsetAllInterest.hasWriteInterest = false := by
  simp [hasWriteInterest, EpollMask.none]

@[simp] theorem interests_remove : ch.remove.interests = ch.interests := by
  unfold remove removeChannel
  split
  · split
    · exact interests_epollCtl _ _
    · rfl
  · rfl

/-- **A channel taken out of the loop is in no epoll set.** -/
theorem registered_remove_unsetAllInterest : ch.unsetAllInterest.remove.registered = none := by
  obtain ⟨interests, events, added, state, registered, aborted⟩ := ch
  rcases state <;> rcases registered with - | mask <;> rfl

@[simp] theorem addedInLoop_epollCtl (op : EpollOp) : (ch.epollCtl op).addedInLoop = ch.addedInLoop := by
  unfold epollCtl
  split <;> rfl

/-- **A channel that asks for nothing can be removed**, and then is in no loop. -/
theorem remove_of_hasNoneInterest (h : ch.hasNoneInterest = true) :
    ch.remove.addedInLoop = false ∧ ch.remove.state = .unset := by
  rw [remove, if_pos h, removeChannel]
  refine ⟨?_, rfl⟩
  dsimp only
  split
  · exact addedInLoop_epollCtl _ _
  · rfl

/-! ## The poller and the kernel agree -/

/-- **Consistent**: the kernel holds the descriptor exactly while the state is `CHAN_SET`, and then
under the present interests. -/
def Consistent : Prop := ch.registered = if ch.state = .set then some ch.interests else none

/-- The kernel holds the descriptor exactly while the state is `CHAN_SET`, whatever the mask. -/
def Known : Prop := ch.registered.isSome = true ↔ ch.state = .set

variable {ch}

theorem Consistent.known (h : ch.Consistent) : ch.Known := by
  rw [Known, h]
  split <;> simp_all

/-- **Applying the interests makes a known channel consistent**, with no `epoll_ctl` refused. -/
theorem Known.applyInterest (h : ch.Known) :
    ch.applyInterest.Consistent ∧ ch.applyInterest.aborted = ch.aborted := by
  obtain ⟨interests, events, added, state, registered, aborted⟩ := ch
  rcases registered with - | mask
  · have hstate : state = .unset ∨ state = .delet := by
      rcases state <;> simp_all [Known]
    rw [Channel.applyInterest, addOrUpdateChannel, if_pos hstate]
    exact ⟨rfl, rfl⟩
  · obtain rfl : state = .set := h.mp rfl
    rw [Channel.applyInterest, addOrUpdateChannel, if_neg (by simp)]
    split
    · exact ⟨rfl, rfl⟩
    · exact ⟨rfl, rfl⟩

/-- A channel that asks for something stays in the epoll set. -/
theorem registered_applyInterest (hnone : ch.hasNoneInterest = false)
    (h : ch.registered.isSome = true) : ch.applyInterest.registered.isSome = true := by
  obtain ⟨interests, events, added, state, registered, aborted⟩ := ch
  obtain ⟨mask, rfl⟩ := Option.isSome_iff_exists.mp h
  have hsome : ¬ (interests == EpollMask.none) = true := Bool.eq_false_iff.mp hnone
  cases state with
  | unset => rfl
  | set => rw [applyInterest, addOrUpdateChannel, if_neg (by simp), hasNoneInterest, if_neg hsome]; rfl
  | delet => rfl

/-- **Removal keeps a channel consistent**; only its own assertion can fail. -/
theorem Consistent.remove (h : ch.Consistent) :
    ch.remove.Consistent ∧ ch.remove.aborted = (ch.aborted || !ch.hasNoneInterest) := by
  obtain ⟨interests, events, added, state, registered, aborted⟩ := ch
  rw [Channel.remove]
  split
  · rename_i hnone
    rw [hnone]
    cases state with
    | unset =>
      obtain rfl : registered = none := h
      simp [removeChannel, Consistent]
    | set =>
      obtain rfl : registered = some interests := h
      simp [removeChannel, Consistent, epollCtl]
    | delet =>
      obtain rfl : registered = none := h
      simp [removeChannel, Consistent]
  · rename_i hnone
    exact ⟨h, by simp [hnone]⟩

end Channel
