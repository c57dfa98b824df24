import Rpx.Core.ByteStream

/-!
# Core/Shutdown — `shutdown()` and the output buffer

`shutdown()` shuts the write side of the socket in the loop thread at once, and from another thread
as soon as its task runs.  Neither looks at the output buffer: what is pending at that moment can no
longer be sent.  `nothingLost_iff_drained` says that this is the only way a shutdown loses a byte.
-/

open Machinery

/-- The output side of a connection that is being shut down. -/
structure Closing where
  io : Traffic
  /-- The `shutdownWrite` tasks queued, each with what had been accepted when it was asked for. -/
  asked : List Bytes
  /-- The shutdowns done, each with what had been accepted when it was asked for and what the kernel
  had when it was done. -/
  shut : List (Bytes × Bytes)

/-- What happens on the output side, `shutdown()` calls included. -/
inductive CloseEvent
  | io (e : IoEvent)
  | shutdown (inLoop : Bool)
  /-- The oldest queued `shutdownWrite` task runs. -/
  | shutdownTask

namespace Closing

def start (c : TcpConnection) : Closing := ⟨.start c, [], []⟩

def step (w : Closing) : CloseEvent → Closing
  | .io e => { w with io := w.io.step e }
  | .shutdown inLoop =>
    let out := w.io.conn.shutdown inLoop
    { io := { w.io with conn := out.conn }
      asked := w.asked ++ out.queued.map fun _ => w.io.accepted
      shut := if inLoop then w.shut ++ [(w.io.accepted, w.io.kernel)] else w.shut }
  | .shutdownTask =>
    match w.asked with
    | [] => w
    | accepted :: rest =>
      { io := { w.io with conn := (w.io.conn.runTask .shutdownWrite).conn }
        asked := rest
        shut := w.shut ++ [(accepted, w.io.kernel)] }

/-- **No shutdown came too early**: each found the kernel in possession of every byte accepted
before it was asked for. -/
def NothingLost (w : Closing) : Prop := ∀ s ∈ w.shut, s.1 <+: s.2

/-- The writes of the run are well read. -/
def WellRead (w : Closing) : CloseEvent → Prop
  | .io e => w.io.WellRead e
  | _ => True

/-- **The shutdown that loses nothing**: no byte accepted before it was asked for is still in the
output buffer. -/
def Drained (w : Closing) : CloseEvent → Prop
  | .io _ => True
  | .shutdown inLoop => inLoop = true → w.io.conn.writeBuffer = []
  | .shutdownTask => ∀ accepted ∈ w.asked.head?,
      accepted.length + w.io.conn.writeBuffer.length ≤ w.io.accepted.length

/-- What holds of every well-read run: the stream is intact, and what had been accepted when a
shutdown was asked for is a prefix of what is accepted now. -/
structure Standing (w : Closing) : Prop where
  intact : w.io.Intact
  asked_prefix : ∀ accepted ∈ w.asked, accepted <+: w.io.accepted

theorem standing_start (c : TcpConnection) : (start c).Standing :=
  ⟨Traffic.intact_start c, fun _ h => absurd h List.not_mem_nil⟩

theorem standing_step (w : Closing) (e : CloseEvent) (h : w.Standing) (he : w.WellRead e) :
    (w.step e).Standing := by
  obtain ⟨hintact, hasked⟩ := h
  cases e with
  | io e =>
    refine ⟨(w.io.intact_step_iff e hintact).mpr he, fun a ha => ?_⟩
    refine (hasked a ha).trans ?_
    simp only [step, Traffic.accepted_step]
    exact List.prefix_append _ _
  | shutdown inLoop =>
    refine ⟨?_, ?_⟩
    · cases inLoop <;> exact hintact
    · cases inLoop with
      | true => simpa [step, TcpConnection.shutdown, TcpConnection.quiet] using hasked
      | false =>
        intro a ha
        rcases List.mem_append.mp ha with h | h
        · exact hasked a h
        · obtain rfl : a = w.io.accepted := by simpa [TcpConnection.shutdown] using h
          exact List.prefix_rfl
  | shutdownTask =>
    simp only [step]
    split
    · exact ⟨hintact, hasked⟩
    · rename_i accepted rest hw
      exact ⟨hintact, fun a ha => hasked a (hw ▸ List.mem_cons_of_mem _ ha)⟩

/-- An early prefix of the accepted bytes has reached the kernel when the buffer holds none of it. -/
theorem prefix_kernel_iff {w : Traffic} (h : w.Intact) {accepted : Bytes}
    (hpre : accepted <+: w.accepted) :
    accepted <+: w.kernel ↔ accepted.length + w.conn.writeBuffer.length ≤ w.accepted.length := by
  rw [h.length_accepted, Nat.add_le_add_iff_right]
  exact ⟨fun hk => hk.length_le, List.prefix_of_prefix_length_le hpre h.kernel_prefix⟩

/-- **One event comes too early exactly when it is a shutdown of an undrained buffer.** -/
theorem nothingLost_step_iff (w : Closing) (e : CloseEvent) (h : w.NothingLost)
    (hw : w.Standing ∧ w.WellRead e) : (w.step e).NothingLost ↔ w.Drained e := by
  obtain ⟨⟨hintact, hasked⟩, -⟩ := hw
  cases e with
  | io e => exact iff_of_true h trivial
  | shutdown inLoop =>
    cases inLoop with
    | false => exact iff_of_true h (fun hloop => absurd hloop (by decide))
    | true =>
      have hkernel := prefix_kernel_iff hintact (List.prefix_refl w.io.accepted)
      have hempty : w.io.accepted.length + w.io.conn.writeBuffer.length ≤ w.io.accepted.length
          ↔ w.io.conn.writeBuffer = [] := by
        rw [← List.length_eq_zero_iff]
        omega
      simp only [step, NothingLost, if_true, List.forall_mem_append, List.mem_singleton,
        forall_eq, Drained, true_imp_iff, hkernel, hempty]
      exact and_iff_right h
  | shutdownTask =>
    cases hw : w.asked with
    | nil =>
      simp only [step, hw, Drained, List.head?_nil]
      exact iff_of_true h (fun a ha => absurd ha (by simp))
    | cons accepted rest =>
      have hkernel := prefix_kernel_iff hintact (hasked accepted (by simp [hw]))
      simp only [step, hw, NothingLost, List.forall_mem_append, List.mem_singleton, forall_eq,
        Drained, List.head?_cons, Option.mem_def, Option.some.injEq, forall_eq', hkernel]
      exact and_iff_right h

theorem not_nothingLost_step (w : Closing) (e : CloseEvent) (h : ¬ w.NothingLost) :
    ¬ (w.step e).NothingLost := by
  refine mt (fun hn s hs => hn s ?_) h
  cases e with
  | io e => exact hs
  | shutdown inLoop => cases inLoop <;> simp [step, hs]
  | shutdownTask =>
    simp only [step]
    split
    · exact hs
    · exact List.mem_append_left _ hs

/-- **Graceful shutdown, exactly.**  In a run whose writes are well read, every shutdown waits for
the bytes accepted before it if and only if each of them finds those bytes drained. -/
theorem nothingLost_iff_drained (c : TcpConnection) (es : List CloseEvent)
    (h : Meets step WellRead (start c) es) :
    (run step (start c) es).NothingLost ↔ Meets step Drained (start c) es :=
  inv_run_iff nothingLost_step_iff (fun w e _ => not_nothingLost_step w e)
    (fun _ hs => absurd hs List.not_mem_nil) (h.and_inv standing_step (standing_start c))

/-- A response the kernel takes in two parts, shut down from another thread in between. -/
theorem nothingLost_iff_drained_queued :
    let es : List CloseEvent :=
      [.io (.write (.ofBytes [1, 2, 3] fun _ => 0) 3 0 (.takes 1)), .shutdown false,
        .io (.handleWrite .out (.takes 2)), .shutdownTask]
    (run step (start .opened) es).NothingLost ↔ Meets step Drained (start .opened) es :=
  nothingLost_iff_drained .opened _
    ⟨.inr ⟨by decide, fun h => absurd h (by decide)⟩, trivial, trivial, trivial, trivial⟩

/-- **A response the kernel takes in part is cut short.**  Of three bytes written the kernel takes
one; the `shutdown()` that follows, as in `sendError`, does not wait for the other two. -/
theorem shutdown_truncates :
    ¬ (run step (start .opened)
      [.io (.write (.ofBytes [1, 2, 3] fun _ => 0) 3 0 (.takes 1)), .shutdown true]).NothingLost := by
  intro h
  have hcut : ([1, 2, 3], [1]) ∈ (run step (start .opened)
      [.io (.write (.ofBytes [1, 2, 3] fun _ => 0) 3 0 (.takes 1)), .shutdown true]).shut := by decide
  exact absurd (h _ hcut) (by decide)

end Closing
