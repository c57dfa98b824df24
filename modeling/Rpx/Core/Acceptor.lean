import Rpx.Core.Connector
import Rpx.Machinery.Run

/-!
# Core/Acceptor — accepting until there is nothing left, or no descriptor

    accept ──▶ connfd ──▶ callback ──▶ accept …
       └── EMFILE ──▶ close(_idleFd) ──▶ accept ──▶ close ──▶ open("/dev/null")

When the process has no descriptor left, `handleRead` gives up the one it keeps in reserve, takes the
oldest pending connection in its place, drops it and opens the reserve again.  Every system call is one
step; the other threads open and close descriptors of their own between any two.

* `accounted_run` — a pending connection is handed on or dropped once, in the order of arrival, and no
  descriptor is leaked or closed for somebody else.
* `reserve_run` — as long as nobody opens a descriptor in the middle of it, and `/dev/null` can be opened
  while a descriptor is free, the reserve is always back, and running out of descriptors sheds one connection
  each time.
-/

open Machinery

/-- Whose an open descriptor is. -/
inductive Holder
  /-- The reserve. -/
  | idle
  /-- Accepted, and neither handed on nor closed yet. -/
  | accepted
  /-- Handed to `_newConnectionCallback`. -/
  | handed
  | other
  deriving DecidableEq, Repr

/-- A pending connection, by its place in the order of arrivals. -/
abbrev PeerId := ℕ

/-- Where `handleRead` is. -/
inductive AcceptorPhase
  /-- It is not running. -/
  | resting
  /-- At the `::accept` of the loop. -/
  | accepting
  | accepted (connfd : Fd) (peer : PeerId)
  /-- `::accept` has said `EMFILE`. -/
  | closingIdle
  /-- At the `::accept` in place of the reserve. -/
  | acceptingIdle
  /-- It has returned this connection, or none. -/
  | closingAccepted (peer : Option PeerId)
  | reopening
  deriving DecidableEq, Repr

/-- The reserve has been given up. -/
def AcceptorPhase.bare : AcceptorPhase → Bool
  | .acceptingIdle | .closingAccepted _ | .reopening => true
  | .resting | .accepting | .accepted _ _ | .closingIdle => false

/-- The connection that `handleRead` has in hand. -/
def AcceptorPhase.inHand : AcceptorPhase → List PeerId
  | .accepted _ peer | .closingAccepted (some peer) => [peer]
  | _ => []

/-- How `::accept` answers. -/
inductive AcceptAnswer
  /-- With the oldest pending connection, in a descriptor that is free. -/
  | takes (fd : Fd)
  | emfile
  /-- With another error, `EAGAIN` when nothing is pending. -/
  | fails
  deriving DecidableEq, Repr

/-- The acceptor, and the descriptors of its process. -/
structure Acceptor where
  /-- `_newConnectionCallback` is set. -/
  newConnectionCallback : Bool
  /-- `_idleFd`, of which -1 is `none`. -/
  idleFd : Option Fd
  phase : AcceptorPhase
  /-- Descriptors are less than this. -/
  limit : ℕ
  table : Fd → Option Holder
  backlog : List PeerId
  arrived : ℕ
  /-- The connections that gave up while they were pending. -/
  left : List PeerId
  /-- What became of each accepted connection: the descriptor that was handed on, or none. -/
  fates : List (PeerId × Option Fd)
  /-- How often the loop's `::accept` said `EMFILE`, and how often the other one did so or failed. -/
  exhausted : ℕ
  starved : ℕ
  failed : ℕ
  /-- A descriptor was closed that was not the acceptor's. -/
  astray : Bool

/-- A step of `handleRead`, of a peer or of another thread. -/
inductive AcceptorEvent
  /-- The poller reports the listening socket. -/
  | handleRead
  | accept (answer : AcceptAnswer)
  /-- The accepted connection goes to the callback, if there is one. -/
  | dispatch
  | closeIdle
  | closeAccepted
  /-- `::open("/dev/null")`, which may fail whether a descriptor is free or not. -/
  | reopen (fd : Option Fd)
  | arrive
  /-- The `k`-th pending connection gives up. -/
  | leave (k : ℕ)
  /-- Another thread opens a descriptor, or closes one of its own. -/
  | opened (fd : Fd)
  | closed (fd : Fd)

namespace Acceptor

/-- `Acceptor(loop, addr, reusePort)`, where the other threads hold `others`. -/
def new (callback : Bool) (limit : ℕ) (others : Fd → Bool) (idleFd : Option Fd) : Acceptor where
  newConnectionCallback := callback
  idleFd := idleFd
  phase := .resting
  limit := limit
  table := fun fd =>
    if idleFd = some fd then some .idle else if others fd then some .other else none
  backlog := []
  arrived := 0
  left := []
  fates := []
  exhausted := 0
  starved := 0
  failed := 0
  astray := false

section Step

variable (s : Acceptor)

def isFree (fd : Fd) : Bool := decide (fd < s.limit) && decide (s.table fd = none)

def isFull : Bool := (List.range s.limit).all fun fd => !s.isFree fd

/-- `::close(fd)`, of a descriptor that is to be the acceptor's. -/
def close (fd : Option Fd) (holder : Holder) : Acceptor :=
  match fd with
  | none => s
  | some fd =>
    { s with
      table := Function.update s.table fd none
      astray := s.astray || decide (s.table fd ≠ some holder) }

/-- `::accept` takes the oldest pending connection, or says nothing of the kind. -/
def takes (fd : Fd) : Option (PeerId × Acceptor) :=
  match s.backlog with
  | [] => none
  | peer :: rest =>
    if s.isFree fd then
      some (peer, { s with table := Function.update s.table fd (some .accepted), backlog := rest })
    else none

/-- The `::accept` of the loop. -/
def acceptNext : AcceptAnswer → Acceptor
  | .takes fd =>
    match s.takes fd with
    | none => s
    | some (peer, s) => { s with phase := .accepted fd peer }
  | .emfile =>
    if s.isFull then { s with phase := .closingIdle, exhausted := s.exhausted + 1 } else s
  | .fails => { s with phase := .resting }

/-- `_idleFd = ::accept(…)`. -/
def acceptIdle : AcceptAnswer → Acceptor
  | .takes fd =>
    match s.takes fd with
    | none => s
    | some (peer, s) => { s with idleFd := some fd, phase := .closingAccepted (some peer) }
  | .emfile =>
    if s.isFull then
      { s with idleFd := none, phase := .closingAccepted none, starved := s.starved + 1 }
    else s
  | .fails => { s with idleFd := none, phase := .closingAccepted none, failed := s.failed + 1 }

def dispatch (connfd : Fd) (peer : PeerId) : Acceptor :=
  if s.newConnectionCallback then
    { s with
      table := Function.update s.table connfd (some .handed)
      fates := s.fates ++ [(peer, some connfd)]
      phase := .accepting }
  else
    { s.close (some connfd) .accepted with
      fates := s.fates ++ [(peer, none)]
      phase := .accepting }

def closeAccepted (peer : Option PeerId) : Acceptor :=
  { s.close s.idleFd .accepted with
    fates := s.fates ++ peer.toList.map (·, none)
    phase := .reopening }

def reopen : Option Fd → Acceptor
  | some fd =>
    if s.isFree fd then
      { s with
        table := Function.update s.table fd (some .idle)
        idleFd := some fd
        phase := .resting }
    else s
  | none => { s with idleFd := none, phase := .resting }

def step : AcceptorEvent → Acceptor
  | .handleRead => if s.phase = .resting then { s with phase := .accepting } else s
  | .accept answer =>
    match s.phase with
    | .accepting => s.acceptNext answer
    | .acceptingIdle => s.acceptIdle answer
    | _ => s
  | .dispatch =>
    match s.phase with
    | .accepted connfd peer => s.dispatch connfd peer
    | _ => s
  | .closeIdle =>
    if s.phase = .closingIdle then { s.close s.idleFd .idle with phase := .acceptingIdle } else s
  | .closeAccepted =>
    match s.phase with
    | .closingAccepted peer => s.closeAccepted peer
    | _ => s
  | .reopen fd => if s.phase = .reopening then s.reopen fd else s
  | .arrive => { s with backlog := s.backlog ++ [s.arrived], arrived := s.arrived + 1 }
  | .leave k =>
    match s.backlog[k]? with
    | none => s
    | some peer => { s with backlog := s.backlog.eraseIdx k, left := s.left ++ [peer] }
  | .opened fd =>
    if s.isFree fd then { s with table := Function.update s.table fd (some .other) } else s
  | .closed fd =>
    if s.table fd = some .other ∨ s.table fd = some .handed then
      { s with table := Function.update s.table fd none }
    else s

end Step

/-! ## What becomes of connections and descriptors -/

/-- The connections that have arrived and not given up, oldest first: dealt with, in hand, pending. -/
def line (s : Acceptor) : List PeerId := s.fates.map Prod.fst ++ s.phase.inHand ++ s.backlog

/-- The connections that were closed at once. -/
def dropped (s : Acceptor) : List (PeerId × Option Fd) := s.fates.filter (·.2.isNone)

end Acceptor

/-- The connection that a round of the reserve is still to drop. -/
def AcceptorPhase.owed : AcceptorPhase → ℕ
  | .closingIdle | .acceptingIdle | .closingAccepted (some _) => 1
  | _ => 0

namespace Acceptor

/-- **Every connection and every descriptor is accounted for.** -/
structure Accounted (s : Acceptor) : Prop where
  /-- No descriptor was closed but the acceptor's own. -/
  own : s.astray = false
  /-- The acceptor holds the reserve, in `_idleFd`, unless it has given it up… -/
  idle : ∀ fd, s.table fd = some .idle ↔ s.phase.bare = false ∧ s.idleFd = some fd
  /-- …and else the connection in hand only. -/
  accepted : ∀ fd, s.table fd = some .accepted ↔ (∃ peer, s.phase = .accepted fd peer) ∨
    ∃ peer, s.phase = .closingAccepted (some peer) ∧ s.idleFd = some fd
  /-- What `_idleFd` holds in the meantime: that connection, or -1. -/
  spent : ∀ peer, s.phase = .closingAccepted peer → s.idleFd.isSome = peer.isSome
  /-- Connections are dealt with in the order of arrival, each once… -/
  ordered : s.line.Pairwise (· < ·)
  /-- …and none is lost. -/
  all : (s.line ++ s.left).Perm (List.range s.arrived)
  /-- Where there is a callback, each time the descriptors run out drops one connection, or finds none. -/
  shed : s.newConnectionCallback = true →
    s.dropped.length + s.starved + s.failed + s.phase.owed = s.exhausted

variable {s t : Acceptor} {fd : Fd} {peer : PeerId}

theorem accounted_new (callback : Bool) (limit : ℕ) (others : Fd → Bool) (idleFd : Option Fd) :
    (new callback limit others idleFd).Accounted := by
  refine ⟨rfl, fun fd => ?_, fun fd => ?_, fun _ hp => absurd hp (by simp [new]), List.Pairwise.nil, .refl _,
    fun _ => rfl⟩
  · simp only [new, AcceptorPhase.bare]
    split
    · simp_all
    · split <;> simp_all
  · simp only [new]
    split
    · simp
    · split <;> simp

/-- A step that moves connections along the line, and no further. -/
theorem Accounted.of_line (h : s.Accounted) (hown : t.astray = false)
    (hidle : ∀ fd, t.table fd = some .idle ↔ t.phase.bare = false ∧ t.idleFd = some fd)
    (haccepted : ∀ fd, t.table fd = some .accepted ↔ (∃ peer, t.phase = .accepted fd peer) ∨
      ∃ peer, t.phase = .closingAccepted (some peer) ∧ t.idleFd = some fd)
    (hspent : ∀ peer, t.phase = .closingAccepted peer → t.idleFd.isSome = peer.isSome)
    (hline : t.line = s.line) (hleft : t.left = s.left) (harrived : t.arrived = s.arrived)
    (hshed : t.newConnectionCallback = true →
      t.dropped.length + t.starved + t.failed + t.phase.owed = t.exhausted) : t.Accounted := by
  refine ⟨hown, hidle, haccepted, hspent, ?_, ?_, hshed⟩
  · rw [hline]
    exact h.ordered
  · rw [hline, hleft, harrived]
    exact h.all

/-- What `::accept` takes is the oldest pending connection, in a descriptor nobody holds. -/
theorem takes_eq_some (h : s.takes fd = some (peer, t)) : s.table fd = none ∧
    s.backlog = peer :: t.backlog ∧
      t = { s with table := Function.update s.table fd (some .accepted), backlog := t.backlog } := by
  rw [takes] at h
  split at h
  · cases h
  · rename_i p rest hbacklog
    split at h
    · rename_i hfree
      obtain ⟨rfl, rfl⟩ := Prod.ext_iff.mp (Option.some.inj h)
      exact ⟨(by simpa [isFree] using hfree : fd < s.limit ∧ s.table fd = none).2, hbacklog, rfl⟩
    · cases h

theorem Accounted.acceptNext (h : s.Accounted) (hphase : s.phase = .accepting) (answer : AcceptAnswer) :
    (s.acceptNext answer).Accounted := by
  have hshed := h.shed
  have hidle := h.idle
  have haccepted := h.accepted
  rw [hphase] at hshed hidle haccepted
  cases answer with
  | takes fd =>
    rw [Acceptor.acceptNext]
    split
    · exact h
    · rename_i peer t htakes
      obtain ⟨hfree, hbacklog, ht⟩ := takes_eq_some htakes
      rw [ht]
      refine h.of_line h.own (fun fd' => ?_) (fun fd' => ?_) (fun _ hp => absurd hp (by simp)) ?_ rfl rfl
        hshed
      · dsimp only
        rcases eq_or_ne fd' fd with rfl | hne
        · refine ⟨fun hi => absurd hi (by simp), fun hi => ?_⟩
          rw [(hidle fd').mpr hi] at hfree
          cases hfree
        · rw [Function.update_of_ne hne]
          exact hidle fd'
      · dsimp only
        rcases eq_or_ne fd' fd with rfl | hne
        · simp
        · rw [Function.update_of_ne hne]
          exact (haccepted fd').trans (by simp [hne.symm])
      · simp [line, hphase, hbacklog, AcceptorPhase.inHand]
  | emfile =>
    rw [Acceptor.acceptNext]
    split
    · refine h.of_line h.own hidle ?_ (fun _ hp => absurd hp (by simp)) ?_ rfl rfl fun hcallback => ?_
      · simpa using haccepted
      · simp [line, hphase, AcceptorPhase.inHand]
      · have hcount := hshed hcallback
        simp only [AcceptorPhase.owed] at hcount ⊢
        exact congrArg (· + 1) hcount
    · exact h
  | fails =>
    rw [Acceptor.acceptNext]
    refine h.of_line h.own hidle ?_ (fun _ hp => absurd hp (by simp)) ?_ rfl rfl hshed
    · simpa using haccepted
    · simp [line, hphase, AcceptorPhase.inHand]

theorem Accounted.acceptIdle (h : s.Accounted) (hphase : s.phase = .acceptingIdle)
    (answer : AcceptAnswer) : (s.acceptIdle answer).Accounted := by
  have hshed := h.shed
  have hidle := h.idle
  have haccepted := h.accepted
  rw [hphase] at hshed hidle haccepted
  cases answer with
  | takes fd =>
    rw [Acceptor.acceptIdle]
    split
    · exact h
    · rename_i peer t htakes
      obtain ⟨hfree, hbacklog, ht⟩ := takes_eq_some htakes
      rw [ht]
      refine h.of_line h.own (fun fd' => ?_) (fun fd' => ?_) (fun _ hp => by cases hp; rfl) ?_ rfl
        rfl hshed
      · dsimp only
        rcases eq_or_ne fd' fd with rfl | hne
        · simp [AcceptorPhase.bare]
        · rw [Function.update_of_ne hne]
          exact (hidle fd').trans (by simp [AcceptorPhase.bare])
      · dsimp only
        rcases eq_or_ne fd' fd with rfl | hne
        · simp
        · rw [Function.update_of_ne hne]
          exact (haccepted fd').trans (by simp [hne.symm])
      · simp [line, hphase, hbacklog, AcceptorPhase.inHand]
  | emfile =>
    rw [Acceptor.acceptIdle]
    split
    · refine h.of_line h.own (fun fd => ?_) (fun fd => ?_) (fun _ hp => by cases hp; rfl) ?_ rfl rfl
        fun hcallback => ?_
      · exact (hidle fd).trans (by simp [AcceptorPhase.bare])
      · exact (haccepted fd).trans (by simp)
      · simp [line, hphase, AcceptorPhase.inHand]
      · have hcount := hshed hcallback
        simp only [AcceptorPhase.owed, dropped] at hcount ⊢
        omega
    · exact h
  | fails =>
    rw [Acceptor.acceptIdle]
    refine h.of_line h.own (fun fd => ?_) (fun fd => ?_) (fun _ hp => by cases hp; rfl) ?_ rfl rfl
      fun hcallback => ?_
    · exact (hidle fd).trans (by simp [AcceptorPhase.bare])
    · exact (haccepted fd).trans (by simp)
    · simp [line, hphase, AcceptorPhase.inHand]
    · have hcount := hshed hcallback
      simp only [AcceptorPhase.owed, dropped] at hcount ⊢
      omega

/-- **The connection in hand goes to the callback**, or is closed. -/
theorem Accounted.dispatch (h : s.Accounted) (hphase : s.phase = .accepted fd peer) :
    (s.dispatch fd peer).Accounted := by
  have hshed := h.shed
  have hidle := h.idle
  have haccepted := h.accepted
  rw [hphase] at hshed hidle haccepted
  have hmine : s.table fd = some .accepted := (haccepted fd).mpr (.inl ⟨peer, rfl⟩)
  have hothers : ∀ fd', fd' ≠ fd → s.table fd' ≠ some .accepted := by
    intro fd' hne htable
    have hwhich := (haccepted fd').mp htable
    simp [hne.symm] at hwhich
  have hidleFd : s.idleFd ≠ some fd := by
    intro heq
    have hheld := (hidle fd).mpr ⟨rfl, heq⟩
    rw [hmine] at hheld
    cases hheld
  have hidle' : ∀ h' : Option Holder, h' ≠ some .idle → ∀ fd',
      Function.update s.table fd h' fd' = some .idle ↔
        AcceptorPhase.bare .accepting = false ∧ s.idleFd = some fd' := by
    intro h' hh fd'
    rcases eq_or_ne fd' fd with rfl | hne
    · rw [Function.update_self]
      exact ⟨fun heq => absurd heq hh, fun heq => absurd heq.2 hidleFd⟩
    · rw [Function.update_of_ne hne]
      exact hidle fd'
  have haccepted' : ∀ h' : Option Holder, h' ≠ some .accepted → ∀ fd',
      Function.update s.table fd h' fd' = some .accepted ↔
        (∃ peer, AcceptorPhase.accepting = .accepted fd' peer) ∨
          ∃ peer, AcceptorPhase.accepting = .closingAccepted (some peer) ∧ s.idleFd = some fd' := by
    intro h' hh fd'
    rcases eq_or_ne fd' fd with rfl | hne
    · simp [hh]
    · rw [Function.update_of_ne hne]
      simp [hothers fd' hne]
  rw [Acceptor.dispatch]
  split
  · refine h.of_line h.own (hidle' _ (by simp)) (haccepted' _ (by simp))
      (fun _ hp => absurd hp (by simp)) ?_ rfl
      rfl fun hcallback => ?_
    · simp [line, hphase, AcceptorPhase.inHand]
    · have hcount := hshed hcallback
      simpa [AcceptorPhase.owed, dropped] using hcount
  · rename_i hcallback
    refine h.of_line ?_ (hidle' none (by simp)) (haccepted' none (by simp))
      (fun _ hp => absurd hp (by simp)) ?_ rfl
      rfl fun hset => absurd hset hcallback
    · simp [close, h.own, hmine]
    · simp [line, close, hphase, AcceptorPhase.inHand]

/-- **Closing a descriptor of one's own**, or none. -/
theorem close_eq {holder : Holder} {fd : Option Fd}
    (hmine : ∀ fd', fd = some fd' → s.table fd' = some holder) : s.close fd holder =
      { s with table := fun fd' => if fd = some fd' then none else s.table fd' } := by
  cases fd with
  | none => rfl
  | some fd =>
    have htable : Function.update s.table fd none
        = fun fd' => if some fd = some fd' then none else s.table fd' := by
      funext fd'
      simp only [Function.update_apply, Option.some.injEq]
      simp only [eq_comm]
    simp [close, hmine fd rfl, htable]

/-- **The reserve is given up.** -/
theorem Accounted.closeIdle (h : s.Accounted) : (s.step .closeIdle).Accounted := by
  rw [step]
  split
  · rename_i hphase
    have hshed := h.shed
    have hidle := h.idle
    have haccepted := h.accepted
    rw [hphase] at hshed hidle haccepted
    rw [close_eq fun fd hfd => (hidle fd).mpr ⟨rfl, hfd⟩]
    refine h.of_line h.own (fun fd => ?_) (fun fd => ?_) (fun _ hp => absurd hp (by simp)) ?_ rfl rfl hshed
    · dsimp only
      rw [AcceptorPhase.bare]
      split
      · simp
      · rename_i hne
        exact (hidle fd).trans (by simp [hne])
    · dsimp only
      split
      · simp
      · exact (haccepted fd).trans (by simp)
    · simp only [line, hphase, AcceptorPhase.inHand]
  · exact h

/-- **The connection taken in its place is dropped.** -/
theorem Accounted.closeAccepted (h : s.Accounted) {peer : Option PeerId}
    (hphase : s.phase = .closingAccepted peer) : (s.closeAccepted peer).Accounted := by
  have hshed := h.shed
  have hidle := h.idle
  have haccepted := h.accepted
  rw [hphase] at hshed hidle haccepted
  have hspent := h.spent peer hphase
  have hmine : ∀ fd, s.idleFd = some fd → s.table fd = some .accepted := fun fd hfd => by
    cases peer with
    | none => simp [hfd] at hspent
    | some peer => exact (haccepted fd).mpr (.inr ⟨peer, rfl, hfd⟩)
  rw [Acceptor.closeAccepted, close_eq hmine]
  refine h.of_line h.own (fun fd => ?_) (fun fd => ?_) (fun _ hp => absurd hp (by simp)) ?_ rfl rfl
    fun hset => ?_
  · dsimp only
    split
    · simp [AcceptorPhase.bare]
    · exact (hidle fd).trans (by simp [AcceptorPhase.bare])
  · dsimp only
    split
    · simp
    · rename_i hne
      exact (haccepted fd).trans (by simp [hne])
  · cases peer <;> simp [line, hphase, AcceptorPhase.inHand]
  · have hcount := hshed hset
    cases peer with
    | none => simpa [dropped, AcceptorPhase.owed] using hcount
    | some peer =>
      simp only [dropped, AcceptorPhase.owed, Option.toList_some, List.map_cons, List.map_nil,
        List.filter_append, List.length_append] at hcount ⊢
      simp only [Option.isNone_none, List.filter_cons_of_pos, List.filter_nil, List.length_singleton]
      omega

/-- **The reserve is opened again**, or has been lost. -/
theorem Accounted.reopen (h : s.Accounted) (hphase : s.phase = .reopening) (fd : Option Fd) :
    (s.reopen fd).Accounted := by
  have hshed := h.shed
  have hidle := h.idle
  have haccepted := h.accepted
  rw [hphase] at hshed hidle haccepted
  have hnone : ∀ fd', s.table fd' ≠ some .idle ∧ s.table fd' ≠ some .accepted := fun fd' =>
    ⟨fun hi => by simpa [AcceptorPhase.bare] using (hidle fd').mp hi,
      fun ha => by simpa using (haccepted fd').mp ha⟩
  cases fd with
  | some fd =>
    rw [Acceptor.reopen]
    split
    · refine h.of_line h.own (fun fd' => ?_) (fun fd' => ?_) (fun _ hp => absurd hp (by simp)) ?_ rfl rfl hshed
      · dsimp only
        rcases eq_or_ne fd' fd with rfl | hne
        · simp [AcceptorPhase.bare]
        · rw [Function.update_of_ne hne]
          simp [(hnone fd').1, hne.symm]
      · dsimp only
        rcases eq_or_ne fd' fd with rfl | hne
        · simp
        · rw [Function.update_of_ne hne]
          simp [(hnone fd').2]
      · simp [line, hphase, AcceptorPhase.inHand]
    · exact h
  | none =>
    refine h.of_line h.own (fun fd' => ?_) (fun fd' => ?_)
      (fun _ hp => absurd hp (by simp [Acceptor.reopen])) ?_
      rfl rfl hshed
    · simp [Acceptor.reopen, (hnone fd').1]
    · simp [Acceptor.reopen, (hnone fd').2]
    · simp [Acceptor.reopen, line, hphase, AcceptorPhase.inHand]

/-! ### The other parties -/

/-- **A descriptor of somebody else changes hands.** -/
theorem Accounted.others (h : s.Accounted) {h' : Option Holder} (hnew : h' ≠ some .idle ∧ h' ≠ some .accepted)
    (hold : s.table fd ≠ some .idle ∧ s.table fd ≠ some .accepted) :
    Accounted { s with table := Function.update s.table fd h' } := by
  refine h.of_line h.own (fun fd' => ?_) (fun fd' => ?_) h.spent rfl rfl rfl h.shed
  · dsimp only
    rcases eq_or_ne fd' fd with rfl | hne
    · rw [Function.update_self, ← h.idle fd']
      simp [hnew.1, hold.1]
    · rw [Function.update_of_ne hne]
      exact h.idle fd'
  · dsimp only
    rcases eq_or_ne fd' fd with rfl | hne
    · rw [Function.update_self, ← h.accepted fd']
      simp [hnew.2, hold.2]
    · rw [Function.update_of_ne hne]
      exact h.accepted fd'

theorem Accounted.arrive (h : s.Accounted) : (s.step .arrive).Accounted := by
  have hline : (s.step .arrive).line = s.line ++ [s.arrived] := by simp [step, line]
  refine ⟨h.own, h.idle, h.accepted, h.spent, ?_, ?_, h.shed⟩
  · rw [hline, List.pairwise_append]
    refine ⟨h.ordered, List.pairwise_singleton .., fun p hp q hq => ?_⟩
    rw [List.mem_singleton.mp hq]
    exact List.mem_range.mp (h.all.subset (List.mem_append_left s.left hp))
  · rw [hline, List.append_assoc]
    show (s.line ++ ([s.arrived] ++ s.left)).Perm (List.range (s.arrived + 1))
    rw [List.range_succ]
    refine List.Perm.trans ?_ (h.all.append_right [s.arrived])
    rw [List.append_assoc]
    exact List.perm_append_comm.append_left s.line

theorem Accounted.leave (h : s.Accounted) (k : ℕ) : (s.step (.leave k)).Accounted := by
  rw [step]
  split
  · exact h
  · rename_i peer hpeer
    obtain ⟨hlt, rfl⟩ := List.getElem?_eq_some_iff.mp hpeer
    refine ⟨h.own, h.idle, h.accepted, h.spent, ?_, ?_, h.shed⟩
    · exact h.ordered.sublist ((s.backlog.eraseIdx_sublist k).append_left _)
    · refine List.Perm.trans ?_ h.all
      simp only [line]
      rw [List.append_assoc, List.append_assoc _ s.backlog]
      refine List.Perm.append_left _ ?_
      rw [← List.append_assoc]
      refine (List.perm_append_singleton _ _).trans ?_
      exact (List.getElem_cons_eraseIdx_perm hlt).append_right s.left

/-! ## Every run -/

theorem Accounted.step (h : s.Accounted) (e : AcceptorEvent) : (s.step e).Accounted := by
  cases e with
  | handleRead =>
    rw [Acceptor.step]
    split
    · rename_i hphase
      have hshed := h.shed
      have hidle := h.idle
      have haccepted := h.accepted
      rw [hphase] at hshed hidle haccepted
      refine h.of_line h.own hidle (fun fd => (haccepted fd).trans (by simp))
        (fun _ hp => absurd hp (by simp)) ?_
        rfl rfl hshed
      simp [line, hphase, AcceptorPhase.inHand]
    · exact h
  | accept answer =>
    rw [Acceptor.step]
    split
    · rename_i hphase
      exact h.acceptNext hphase answer
    · rename_i hphase
      exact h.acceptIdle hphase answer
    · exact h
  | dispatch =>
    rw [Acceptor.step]
    split
    · rename_i hphase
      exact h.dispatch hphase
    · exact h
  | closeIdle => exact h.closeIdle
  | closeAccepted =>
    rw [Acceptor.step]
    split
    · rename_i hphase
      exact h.closeAccepted hphase
    · exact h
  | reopen fd =>
    rw [Acceptor.step]
    split
    · rename_i hphase
      exact h.reopen hphase fd
    · exact h
  | arrive => exact h.arrive
  | leave k => exact h.leave k
  | opened fd =>
    rw [Acceptor.step]
    split
    · rename_i hfree
      have hnone : s.table fd = none := by
        rw [isFree, Bool.and_eq_true, decide_eq_true_iff, decide_eq_true_iff] at hfree
        exact hfree.2
      exact h.others (by simp) (by simp [hnone])
    · exact h
  | closed fd =>
    rw [Acceptor.step]
    split
    · rename_i howner
      refine h.others (by simp) ?_
      rcases howner with howner | howner <;> simp [howner]
    · exact h

/-- **Accepting loses nothing.**  After any run of `handleRead`, whatever the kernel answers and whatever
the other threads open and close meanwhile: the connections that arrived have been handed on or dropped,
each once and in the order of arrival, or are in hand or pending, or have given up; the acceptor holds the
reserve, or the connection in hand, and no other descriptor; it has closed none but its own; and each
`EMFILE` has dropped one connection, unless there was none to be had. -/
theorem accounted_run (callback : Bool) (limit : ℕ) (others : Fd → Bool) (idleFd : Option Fd)
    (es : List AcceptorEvent) :
    (run Acceptor.step (new callback limit others idleFd) es).Accounted :=
  inv_run (fun _ e h _ => h.step e) (accounted_new callback limit others idleFd) (meets_true _ es)

/-! ## The reserve -/

/-- **Nobody takes what the acceptor gives up**: no other thread opens a descriptor while the reserve is
out, and `/dev/null` fails to open again only for want of one. -/
def Undisturbed (s : Acceptor) : AcceptorEvent → Prop
  | .opened _ => s.phase.bare = false
  | .reopen none => s.phase = .reopening → s.isFull = true
  | _ => True

/-- **The reserve does its work.** -/
structure Reserved (s : Acceptor) : Prop where
  /-- It is back whenever it is not in use… -/
  held : s.phase.bare = false → ∃ fd, s.idleFd = some fd ∧ s.table fd = some .idle
  /-- …and each `EMFILE` drops a pending connection, unless `::accept` fails for another reason. -/
  sheds : s.newConnectionCallback = true →
    s.dropped.length + s.failed + s.phase.owed = s.exhausted

/-- There is a descriptor for the reserve, or it is in use. -/
structure Spare (s : Acceptor) : Prop where
  held : s.phase.bare = false → ∃ fd, s.idleFd = some fd ∧ fd < s.limit
  room : s.phase.bare = true →
    s.isFull = false ∨ ∃ fd peer, s.phase = .closingAccepted (some peer) ∧ s.idleFd = some fd ∧ fd < s.limit
  starved : s.starved = 0

theorem isFull_eq_false (hlt : fd < s.limit) (hfree : s.table fd = none) : s.isFull = false := by
  rw [isFull, List.all_eq_false]
  exact ⟨fd, List.mem_range.mpr hlt, by simp [isFree, hlt, hfree]⟩

theorem exists_free_of_isFull (h : s.isFull = false) : ∃ fd, fd < s.limit ∧ s.table fd = none := by
  rw [isFull, List.all_eq_false] at h
  obtain ⟨fd, hfd, hfree⟩ := h
  exact ⟨fd, List.mem_range.mp hfd, (by simpa [isFree] using hfree : fd < s.limit ∧ s.table fd = none).2⟩

/-- Room stays room when no descriptor is opened. -/
theorem isFull_mono (h : s.isFull = false) (hlimit : t.limit = s.limit)
    (htable : ∀ fd, s.table fd = none → t.table fd = none) : t.isFull = false := by
  obtain ⟨fd, hlt, hfree⟩ := exists_free_of_isFull h
  exact isFull_eq_false (hlimit ▸ hlt) (htable fd hfree)

theorem Spare.reserved (h : s.Spare) (ha : s.Accounted) : s.Reserved := by
  refine ⟨fun hbare => ?_, fun hcallback => ?_⟩
  · obtain ⟨fd, hfd, -⟩ := h.held hbare
    exact ⟨fd, hfd, (ha.idle fd).mpr ⟨hbare, hfd⟩⟩
  · have hshed := ha.shed hcallback
    rw [h.starved] at hshed
    exact hshed

theorem spare_new (callback : Bool) {limit : ℕ} (others : Fd → Bool) (hfd : fd < limit) :
    (new callback limit others (some fd)).Spare :=
  ⟨fun _ => ⟨fd, rfl, hfd⟩, fun hb => absurd hb (by simp [new, AcceptorPhase.bare]), rfl⟩

/-- A step of another party, which opens nothing while the reserve is out. -/
theorem Spare.of_phase (h : s.Spare) (hphase : t.phase = s.phase)
    (hidleFd : t.idleFd = s.idleFd) (hlimit : t.limit = s.limit) (hstarved : t.starved = s.starved)
    (htable : s.phase.bare = true → ∀ fd, s.table fd = none → t.table fd = none) : t.Spare := by
  refine ⟨?_, fun hbare => ?_, hstarved.trans h.starved⟩
  · rw [hphase, hidleFd, hlimit]
    exact h.held
  · rw [hphase] at hbare ⊢
    rw [hidleFd, hlimit]
    exact (h.room hbare).imp_left fun hfull => isFull_mono hfull hlimit (htable hbare)

theorem Spare.accept (h : s.Spare) (answer : AcceptAnswer) : (s.step (.accept answer)).Spare := by
  rw [step]
  split
  · rename_i hphase
    have hheld := h.held (by rw [hphase]; rfl)
    cases answer with
    | takes fd =>
      rw [acceptNext]
      split
      · exact h
      · rename_i peer t htakes
        obtain ⟨-, -, ht⟩ := takes_eq_some htakes
        refine ⟨fun _ => ?_, fun hb => absurd hb (by simp [AcceptorPhase.bare]), ?_⟩
        · rw [ht]
          exact hheld
        · rw [ht]
          exact h.starved
    | emfile =>
      rw [acceptNext]
      split
      · exact ⟨fun _ => hheld, fun hb => absurd hb (by simp [AcceptorPhase.bare]), h.starved⟩
      · exact h
    | fails =>
      exact ⟨fun _ => hheld, fun hb => absurd hb (by simp [acceptNext, AcceptorPhase.bare]),
        h.starved⟩
  · rename_i hphase
    have hroom : s.isFull = false :=
      (h.room (by rw [hphase]; rfl)).resolve_right (by simp [hphase])
    cases answer with
    | takes fd =>
      rw [acceptIdle]
      split
      · exact h
      · rename_i peer t htakes
        have hlt : fd < s.limit := by
          rw [takes] at htakes
          split at htakes
          · cases htakes
          · split at htakes
            · rename_i hfree
              exact (by simpa [isFree] using hfree : fd < s.limit ∧ s.table fd = none).1
            · cases htakes
        obtain ⟨-, -, ht⟩ := takes_eq_some htakes
        refine ⟨fun hb => absurd hb (by simp [AcceptorPhase.bare]), fun _ =>
          .inr ⟨fd, peer, rfl, rfl, ?_⟩, ?_⟩
        · rw [ht]
          exact hlt
        · rw [ht]
          exact h.starved
    | emfile =>
      -- a descriptor is free, and the kernel does not say that none is
      rw [acceptIdle, if_neg (by simp [hroom])]
      exact h
    | fails =>
      exact ⟨fun hb => absurd hb (by simp [acceptIdle, AcceptorPhase.bare]),
        fun _ => .inl (isFull_mono hroom rfl fun _ hfree => hfree), h.starved⟩
  · exact h

theorem Spare.step (h : s.Spare) (ha : s.Accounted) (e : AcceptorEvent) (he : s.Undisturbed e) :
    (s.step e).Spare := by
  cases e with
  | handleRead =>
    rw [Acceptor.step]
    split
    · rename_i hphase
      have hheld := h.held (by rw [hphase]; rfl)
      exact ⟨fun _ => hheld, fun hb => absurd hb (by simp [AcceptorPhase.bare]), h.starved⟩
    · exact h
  | accept answer => exact h.accept answer
  | dispatch =>
    rw [Acceptor.step]
    split
    · rename_i connfd peer hphase
      have hheld := h.held (by rw [hphase]; rfl)
      rw [Acceptor.dispatch]
      split
      · exact ⟨fun _ => hheld, fun hb => absurd hb (by simp [AcceptorPhase.bare]), h.starved⟩
      · exact ⟨fun _ => hheld, fun hb => absurd hb (by simp [AcceptorPhase.bare]), h.starved⟩
    · exact h
  | closeIdle =>
    rw [Acceptor.step]
    split
    · rename_i hphase
      have hbare : s.phase.bare = false := by rw [hphase]; rfl
      obtain ⟨fd, hfd, hlt⟩ := h.held hbare
      have hmine : ∀ fd', s.idleFd = some fd' → s.table fd' = some .idle := fun fd' hfd' =>
        (ha.idle fd').mpr ⟨hbare, hfd'⟩
      rw [close_eq hmine]
      exact ⟨fun hb => absurd hb (by simp [AcceptorPhase.bare]),
        fun _ => .inl (isFull_eq_false hlt (by simp [hfd])), h.starved⟩
    · exact h
  | closeAccepted =>
    rw [Acceptor.step]
    split
    · rename_i peer hphase
      have hmine : ∀ fd, s.idleFd = some fd → s.table fd = some .accepted := fun fd hfd => by
        have hspent := ha.spent peer hphase
        cases peer with
        | none => simp [hfd] at hspent
        | some peer => exact (ha.accepted fd).mpr (.inr ⟨peer, hphase, hfd⟩)
      rw [Acceptor.closeAccepted, close_eq hmine]
      refine ⟨fun hb => absurd hb (by simp [AcceptorPhase.bare]), fun _ => .inl ?_, h.starved⟩
      rcases h.room (by rw [hphase]; rfl) with hroom | ⟨fd, p, -, hfd, hlt⟩
      · refine isFull_mono hroom rfl fun fd hfree => ?_
        simp [hfree]
      · exact isFull_eq_false hlt (by simp [hfd])
    · exact h
  | reopen fd =>
    rw [Acceptor.step]
    split
    · rename_i hphase
      have hroom : s.isFull = false :=
        (h.room (by rw [hphase]; rfl)).resolve_right (by simp [hphase])
      cases fd with
      | some fd =>
        rw [Acceptor.reopen]
        split
        · rename_i hfree
          have hlt : fd < s.limit := (by simpa [isFree] using hfree : fd < s.limit ∧ s.table fd = none).1
          exact ⟨fun _ => ⟨fd, rfl, hlt⟩, fun hb => absurd hb (by simp [AcceptorPhase.bare]),
            h.starved⟩
        · exact h
      | none =>
        -- …and there is no want of one
        rw [he hphase] at hroom
        cases hroom
    · exact h
  | arrive => exact h.of_phase rfl rfl rfl rfl fun _ _ hfree => hfree
  | leave k =>
    rw [Acceptor.step]
    split
    · exact h
    · exact h.of_phase rfl rfl rfl rfl fun _ _ hfree => hfree
  | opened fd =>
    rw [Acceptor.step]
    split
    · refine h.of_phase rfl rfl rfl rfl fun hbare => ?_
      exact absurd (he.symm.trans hbare) (by simp)
    · exact h
  | closed fd =>
    rw [Acceptor.step]
    split
    · refine h.of_phase rfl rfl rfl rfl fun _ fd' hfree => ?_
      dsimp only
      rcases eq_or_ne fd' fd with rfl | hne
      · rw [Function.update_self]
      · rw [Function.update_of_ne hne]
        exact hfree
    · exact h

/-- **The reserve comes back.**  As long as no other thread opens a descriptor while the reserve is out, and
`/dev/null` opens again unless the process is out of descriptors, the acceptor has it whenever it is not using
it, and each time the process is out of descriptors `handleRead` drops one pending connection instead of being
called for it again. -/
theorem reserve_run (callback : Bool) {limit : ℕ} (others : Fd → Bool) (hfd : fd < limit)
    {es : List AcceptorEvent}
    (hes : Meets Acceptor.step Undisturbed (new callback limit others (some fd)) es) :
    (run Acceptor.step (new callback limit others (some fd)) es).Reserved := by
  obtain ⟨ha, h⟩ := @inv_run _ _ Acceptor.step Undisturbed (fun s => s.Accounted ∧ s.Spare)
    (fun _ e h he => ⟨h.1.step e, h.2.step h.1 e he⟩) _
    ⟨accounted_new callback limit others (some fd), spare_new callback others hfd⟩ _ hes
  exact h.reserved ha

/-- A process with two descriptors, of which the other one is taken: the connection that arrives is shed. -/
theorem reserve_run_exhausted :
    (run Acceptor.step (new true 2 (· = 1) (some 0))
      [.arrive, .handleRead, .accept .emfile, .closeIdle, .accept (.takes 0), .closeAccepted,
        .reopen (some 0)]).Reserved :=
  reserve_run true (· = 1) (by decide) ⟨trivial, trivial, trivial, trivial, trivial, trivial, trivial, trivial⟩

/-- A thread that takes the descriptor in between leaves the acceptor without a reserve. -/
example :
    (run Acceptor.step (new true 2 (· = 1) (some 0))
      [.arrive, .handleRead, .accept .emfile, .closeIdle, .accept (.takes 0), .closeAccepted, .opened 0,
        .reopen none]).idleFd = none := by decide

/-- …and so does a system that is out of files, when the process has a descriptor to spare. -/
example :
    (run Acceptor.step (new true 2 (· = 1) (some 0))
      [.arrive, .handleRead, .accept .emfile, .closeIdle, .accept (.takes 0), .closeAccepted,
        .reopen none]).idleFd = none := by decide

end Acceptor
