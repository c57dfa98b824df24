import Rpx.Core.ServerRefs

/-!
# Core/ServerLoops — the io loops of a server, and the bare pointers they follow

    epoll_wait ──▶ _activeChannels ──▶ handleEvent … ──▶ swap ──▶ tasks ──▶ epoll_wait …

An io loop reaches its connections through pointers that keep nothing alive: the channels that
`epoll_wait` reported, the `this` of the callbacks of a dispatch, and the `this` that a write-complete
task captures.  Meanwhile the base loop erases connections, and user code on any thread takes and drops
references.

`dispatch_safe` — every such pointer is followed while its connection is alive, and a connection without
references is `DISCONNECTED`, out of the poller and in no dispatch, as the destructors assert.
-/

open Machinery

/-- Where an io loop is in its iteration. -/
inductive LoopStage
  /-- In `Poller::poll`, which has put these channels into `_activeChannels`. -/
  | polling (active : List ConnId)
  /-- In `handleEvent` of a channel, if there is a current one, with the callbacks it has yet to call;
  the other channels are to come. -/
  | dispatching (current : Option (ConnId × List Handler)) (active : List ConnId)
  /-- Calling the tasks that were swapped out; so many are left. -/
  | running (left : ℕ)

/-- The channels that the loop still holds pointers to. -/
def LoopStage.channels : LoopStage → List ConnId
  | .polling active => active
  | .dispatching none active => active
  | .dispatching (some (c, _)) active => c :: active
  | .running _ => []

/-- A server, and where each of its io loops is. -/
structure ServerLoops where
  server : TcpServer
  stage : ℕ → LoopStage

/-- A step of the base loop, of an io loop, or of user code. -/
inductive LoopsEvent
  /-- The base loop accepts a connection. -/
  | accept (fd : Fd)
  /-- The base loop carries out its oldest erasure. -/
  | erase
  /-- `Poller::poll` puts one more of the reported channels into `_activeChannels`. -/
  | report (c : ConnId) (events : EpollMask)
  /-- `Poller::poll` returns. -/
  | polled (loop : ℕ)
  /-- `handleEvent` of the next active channel is called. -/
  | next (loop : ℕ)
  /-- It calls its next callback. -/
  | handler (loop : ℕ) (read : ReadAnswer) (write : WriteAnswer)
  /-- It returns. -/
  | handled (loop : ℕ)
  | swap (loop : ℕ)
  | runTask (loop : ℕ)
  /-- The last task has returned. -/
  | again (loop : ℕ)
  /-- An io loop gets to the second `queueInLoop` of `TcpServer::handleClose`. -/
  | finishClose (loop : ℕ)
  /-- User code calls a connection that it holds a reference to. -/
  | call (c : ConnId) (call : ConnCall)
  | acquire (c : ConnId)
  | release (c : ConnId)

namespace ServerLoops

/-- A server whose loops are about to poll for the first time. -/
def new (message writeComplete error : Bool) (loops : ℕ) : ServerLoops :=
  ⟨.new message writeComplete error loops, fun _ => .polling []⟩

section Step

variable (s : ServerLoops)

def goTo (loop : ℕ) (st : LoopStage) : ServerLoops :=
  { s with stage := Function.update s.stage loop st }

/-- `handleEvent()`: `_tie.lock()` finds the connection, and the callbacks follow from `_events`. -/
def handleEvent (c : ConnId) : Option (ConnId × List Handler) :=
  match s.server.conns[c]? with
  | none => none
  | some x => if s.server.alive c then some (c, x.conn.channel.events.handlers) else none

/-- One event.  A loop that is inside `TcpServer::handleClose` does nothing else; user code has no
connection before the connect callback, and calls none that it holds no reference to. -/
def step : LoopsEvent → ServerLoops
  | .accept fd =>
    if s.server.isOpen fd then s else { s with server := s.server.handleNewConnection fd }
  | .erase => { s with server := s.server.runErase }
  | .report c events =>
    match s.server.conns[c]? with
    | none => s
    | some x =>
      match s.stage x.loop with
      | .polling active =>
        if x.conn.channel.registered.isSome then
          { s with
            server := s.server.put c x { x.conn with channel := x.conn.channel.setEvents events }
            }.goTo x.loop (.polling (active ++ [c]))
        else s
      | _ => s
  | .polled loop =>
    match s.stage loop with
    | .polling active => s.goTo loop (.dispatching none active)
    | _ => s
  | .next loop =>
    match s.stage loop with
    | .dispatching none (c :: active) => s.goTo loop (.dispatching (s.handleEvent c) active)
    | _ => s
  | .handler loop read write =>
    match s.stage loop with
    | .dispatching (some (c, h :: rest)) active =>
      match s.server.conns[c]? with
      | none => s
      | some x =>
        if s.server.closing loop = none then
          { s with server := s.server.after c x (x.conn.handle read write h) }.goTo loop
            (.dispatching (some (c, rest)) active)
        else s
    | _ => s
  | .handled loop =>
    match s.stage loop with
    | .dispatching (some (_, [])) active =>
      if s.server.closing loop = none then s.goTo loop (.dispatching none active) else s
    | _ => s
  | .swap loop =>
    match s.stage loop with
    | .dispatching none [] => s.goTo loop (.running (s.server.tasks loop).length)
    | _ => s
  | .runTask loop =>
    match s.stage loop, s.server.tasks loop with
    | .running (left + 1), t :: rest =>
      if s.server.closing loop = none then
        { s with server := (s.server.dequeue loop rest).runTask t }.goTo loop (.running left)
      else s
    | _, _ => s
  | .again loop =>
    match s.stage loop with
    | .running 0 => if s.server.closing loop = none then s.goTo loop (.polling []) else s
    | _ => s
  | .finishClose loop => { s with server := s.server.finishClose loop }
  | .call c call =>
    match s.server.conns[c]? with
    | none => s
    | some x =>
      if s.server.refs c ≠ 0 then { s with server := s.server.after c x (x.conn.call call) } else s
  | .acquire c =>
    match s.server.conns[c]? with
    | none => s
    | some x =>
      if s.server.alive c ∧ x.conn.state ≠ .connecting then
        { s with server := s.server.step (.acquire c) }
      else s
  | .release c => { s with server := s.server.step (.release c) }

/-- **The connection that a step reaches through a bare pointer**: the active channel whose `handleEvent`
is called, runs its callbacks or returns, or the `this` of a write-complete task. -/
def reaches : LoopsEvent → Option ConnId
  | .next loop =>
    match s.stage loop with
    | .dispatching none (c :: _) => some c
    | _ => none
  | .handler loop _ _ | .handled loop =>
    match s.stage loop with
    | .dispatching (some (c, _)) _ => some c
    | _ => none
  | .runTask loop =>
    match s.stage loop, s.server.tasks loop with
    | .running _, .conn c .writeComplete :: _ => some c
    | _, _ => none
  | _ => none

end Step

/-- **No pointer dangles.** -/
structure Safe (s : ServerLoops) : Prop where
  /-- What a step reaches through a bare pointer is alive. -/
  reached : ∀ e c, s.reaches e = some c → s.server.alive c = true
  /-- What `~TcpConnection` and `~Channel` assert of a connection without references, which no loop is
  about to reach. -/
  destroyed : ∀ (c : ConnId) (x : ServerConn), s.server.conns[c]? = some x → s.server.alive c = false →
    x.conn.state = .disconnected ∧ x.conn.channel.addedInLoop = false
      ∧ x.conn.channel.registered = none ∧ c ∉ (s.stage x.loop).channels
  /-- No assertion has failed, and no `epoll_ctl` has been refused. -/
  asserted : ∀ (c : ConnId) (x : ServerConn), s.server.conns[c]? = some x → x.conn.channel.aborted = false

/-! ## Every step -/

/-- **What holds of the loops**: whatever an io loop still points to is kept without user code. -/
structure Kept (s : ServerLoops) : Prop where
  server : s.server.Kept
  staged : ∀ loop, ∀ c ∈ (s.stage loop).channels, s.server.Reached loop c

variable {s : ServerLoops} {c : ConnId} {x : ServerConn} {loop : ℕ}

theorem kept_new (message writeComplete error : Bool) (loops : ℕ) :
    (new message writeComplete error loops).Kept := by
  refine ⟨⟨TcpServer.sound_new message writeComplete error loops, fun c x hx => ?_, fun _ => trivial,
    fun _ _ ht => absurd ht List.not_mem_nil, fun _ _ hc => absurd hc ?_⟩, fun _ _ hc => ?_⟩
  · exact absurd hx (by simp [new, TcpServer.new])
  · simp [new, TcpServer.new]
  · exact absurd hc List.not_mem_nil

/-- The server changes, and nothing comes loose. -/
theorem Kept.of_server (h : s.Kept) {t : TcpServer} (ht : t.Kept)
    (hreached : ∀ loop c, s.server.Reached loop c → t.Reached loop c) : Kept { s with server := t } :=
  ⟨ht, fun loop c hc => hreached loop c (h.staged loop c hc)⟩

/-- A loop goes on, and points to nothing new but what is reached. -/
theorem Kept.goTo (h : s.Kept) {st : LoopStage}
    (hst : ∀ c ∈ st.channels, s.server.Reached loop c) : (s.goTo loop st).Kept := by
  refine ⟨h.server, fun l c hc => ?_⟩
  rw [ServerLoops.goTo] at hc
  dsimp only at hc
  rcases eq_or_ne l loop with rfl | hne
  · rw [Function.update_self] at hc
    exact hst c hc
  · rw [Function.update_of_ne hne] at hc
    exact h.staged l c hc

/-- **A member function of a connection**, called by its loop or by user code. -/
theorem Kept.after (h : s.Kept) (hx : s.server.conns[c]? = some x) {out : Outcome}
    (honward : x.conn.Onward out) (hout : x.conn.Keeps out ∨ x.conn.Closes out)
    (htracked : out.conn.Tracked) (hfree : .close ∈ out.called → s.server.closing x.loop = none)
    (hretired : ¬ s.server.Anchored c x → out.conn.Retired)
    (hfirst : .connectEstablished c ∈ s.server.tasks x.loop → out.conn.state = .connecting) :
    Kept { s with server := s.server.after c x out } :=
  h.of_server (h.server.after hx honward hout htracked hfree hretired hfirst)
    fun _ _ hd => hd.after hx hout hfree

theorem Kept.accept (h : s.Kept) (fd : Fd) : (s.step (.accept fd)).Kept := by
  rw [step]
  split
  · exact h
  · rename_i hfd
    exact h.of_server (h.server.handleNewConnection (Bool.not_eq_true _ ▸ hfd)) fun _ _ hd =>
      hd.handleNewConnection fd

/-- What the base loop and user code change of a server. -/
theorem Kept.of_congr (h : s.Kept) {t : TcpServer} (hsound : t.Sound) (hconns : t.conns = s.server.conns)
    (htasks : t.tasks = s.server.tasks) (hclosing : t.closing = s.server.closing) :
    Kept { s with server := t } :=
  h.of_server (h.server.congr hsound hconns htasks hclosing) fun _ _ hd => hd.congr hconns htasks hclosing

theorem Kept.erase (h : s.Kept) : (s.step .erase).Kept := by
  have hsound := h.server.sound.runErase
  rw [step]
  refine h.of_congr hsound ?_ ?_ ?_
  all_goals
    rw [TcpServer.runErase]
    split <;> rfl

/-- **A channel that is reported is kept**: one that is out of the poller is not reported. -/
theorem Kept.report (h : s.Kept) (c : ConnId) (events : EpollMask) : (s.step (.report c events)).Kept := by
  rw [step]
  split
  · exact h
  · rename_i x hx
    split
    · rename_i active hstage
      split
      · rename_i hregistered
        have hc := h.server.conn c x hx
        have hanchored : s.server.Anchored c x := by
          by_contra hgone
          rw [(hc.gone hgone).registered] at hregistered
          cases hregistered
        have hkeeps : x.conn.Keeps
            (TcpConnection.quiet { x.conn with channel := x.conn.channel.setEvents events }) :=
          .of_quiet rfl le_rfl
        rw [TcpServer.put_eq_after]
        have hafter := h.after hx (.of_uncalled le_rfl rfl rfl) (.inl hkeeps) (hc.tracked.setEvents events)
          (fun hclose => absurd hclose hkeeps.uncalled) (absurd hanchored) hc.first
        refine hafter.goTo fun d hd => ?_
        rcases List.mem_append.mp hd with hd | hd
        · have hold : d ∈ (s.stage x.loop).channels := by
            rw [hstage]
            exact hd
          exact hafter.staged x.loop d hold
        · rw [List.mem_singleton.mp hd]
          exact TcpServer.Reached.after ⟨x, hx, rfl, hanchored⟩ hx (.inl hkeeps)
            (fun hclose => absurd hclose hkeeps.uncalled)
      · exact h
    · exact h

theorem Kept.polled (h : s.Kept) (loop : ℕ) : (s.step (.polled loop)).Kept := by
  rw [step]
  split
  · rename_i active hstage
    refine h.goTo fun c hc => h.staged loop c ?_
    rw [hstage]
    exact hc
  · exact h

theorem Kept.next (h : s.Kept) (loop : ℕ) : (s.step (.next loop)).Kept := by
  rw [step]
  split
  · rename_i c active hstage
    refine h.goTo fun d hd => h.staged loop d ?_
    rw [hstage]
    cases hcurrent : s.handleEvent c with
    | none =>
      rw [hcurrent] at hd
      exact List.mem_cons_of_mem c hd
    | some current =>
      have hc : current.1 = c := by
        rw [handleEvent] at hcurrent
        split at hcurrent
        · cases hcurrent
        · split at hcurrent
          · rw [← Option.some.inj hcurrent]
          · cases hcurrent
      rw [hcurrent] at hd
      exact hc ▸ hd
  · exact h

/-- **A callback of a dispatch.** -/
theorem Kept.handler (h : s.Kept) (loop : ℕ) (read : ReadAnswer) (write : WriteAnswer) :
    (s.step (.handler loop read write)).Kept := by
  rw [step]
  split
  · rename_i c hd rest active hstage
    split
    · exact h
    · rename_i x hx
      split
      · rename_i hfree
        have hc := h.server.conn c x hx
        have hmem : c ∈ (s.stage loop).channels := by
          rw [hstage]
          exact List.mem_cons_self
        obtain ⟨x', hx', rfl, hanchored⟩ := h.staged loop c hmem
        obtain rfl : x = x' := Option.some.inj (hx.symm.trans hx')
        have hafter := h.after hx (x.conn.handle_onward read write hd) (hc.closable.handle read write hd)
          (hc.tracked.handle read write hd) (fun _ => hfree) (absurd hanchored)
          fun hce => TcpConnection.connecting_handle (hc.first hce) read write hd
        refine hafter.goTo fun d hd => hafter.staged x.loop d ?_
        rw [hstage]
        exact hd
      · exact h
  · exact h

theorem Kept.handled (h : s.Kept) (loop : ℕ) : (s.step (.handled loop)).Kept := by
  rw [step]
  split
  · rename_i c active hstage
    split
    · refine h.goTo fun d hd => h.staged loop d ?_
      rw [hstage]
      exact List.mem_cons_of_mem c hd
    · exact h
  · exact h

/-! ### A task

The loop points to no channel while it runs its tasks. -/

section RunTask

variable {u : IoTask} {rest : List IoTask}

/-- A task other than `connectDestroyed` is taken from the queue of a loop. -/
theorem Kept.pop (h : s.Kept) (htasks : s.server.tasks loop = u :: rest)
    (hu : ∀ c, .connectDestroyed c ≠ u) (hstage : (s.stage loop).channels = []) :
    Kept { s with server := s.server.dequeue loop rest } := by
  refine ⟨h.server.pop htasks hu, fun l d hd => (h.staged l d hd).pop rest ?_⟩
  rintro rfl
  rw [hstage] at hd
  exact absurd hd List.not_mem_nil

theorem Kept.runConnectEstablished (h : s.Kept)
    (htasks : s.server.tasks loop = .connectEstablished c :: rest)
    (hstage : (s.stage loop).channels = []) :
    Kept { s with server := (s.server.dequeue loop rest).runTask (.connectEstablished c) } := by
  obtain ⟨x, hx, rfl⟩ := h.server.placed loop _ (htasks ▸ List.mem_cons_self)
  have hc := h.server.conn c x hx
  have hconnecting : x.conn.state = .connecting := hc.first (htasks ▸ List.mem_cons_self)
  have hloud : ¬ x.conn.Silent := fun hs => by
    rw [hc.closable.disconnected hs] at hconnecting
    cases hconnecting
  have hkeeps : x.conn.Keeps x.conn.connectEstablished.quiet := by
    refine .of_quiet rfl ?_
    rw [hconnecting]
    exact Nat.zero_le _
  have hpop := h.pop htasks (by simp) hstage
  have hx' : (s.server.dequeue x.loop rest).conns[c]? = some x := hx
  rw [TcpServer.runTask_connectEstablished hx', TcpServer.put_eq_after]
  refine hpop.after hx (.of_uncalled hkeeps.forward rfl rfl) (.inl hkeeps)
    (hc.tracked.connectEstablished hconnecting) (fun hclose => absurd hclose hkeeps.uncalled)
    (fun hgone => absurd (.inl hloud) hgone) fun hagain => ?_
  -- it comes once
  have honce := hc.once
  rw [htasks, List.count_cons_self] at honce
  have hleft : (s.server.dequeue x.loop rest).tasks x.loop = rest := Function.update_self ..
  have hpos : 0 < rest.count (.connectEstablished c) := List.count_pos_iff.mpr (hleft ▸ hagain)
  exact absurd honce (by omega)

theorem Kept.runConnTask (h : s.Kept) {t : ConnTask} (htasks : s.server.tasks loop = .conn c t :: rest)
    (hstage : (s.stage loop).channels = []) (hfree : s.server.closing loop = none) :
    Kept { s with server := (s.server.dequeue loop rest).runTask (.conn c t) } := by
  obtain ⟨x, hx, rfl⟩ := h.server.placed loop _ (htasks ▸ List.mem_cons_self)
  have hpop := h.pop htasks (by simp) hstage
  have hc := hpop.server.conn c x hx
  have hx' : (s.server.dequeue x.loop rest).conns[c]? = some x := hx
  rw [TcpServer.runTask_conn hx']
  exact hpop.after hx (x.conn.runTask_onward t) (hc.closable.runTask t) (hc.tracked.runTask t)
    (fun _ => hfree) (fun hgone => (hc.gone hgone).runTask t) fun hce =>
      TcpConnection.connecting_runTask (hc.first hce) t

/-- **The connection that is destroyed is in no dispatch of its loop**, and other loops do not know it. -/
theorem Kept.runConnectDestroyed (h : s.Kept)
    (htasks : s.server.tasks loop = .connectDestroyed c :: rest)
    (hstage : (s.stage loop).channels = []) :
    Kept { s with server := (s.server.dequeue loop rest).runTask (.connectDestroyed c) } := by
  obtain ⟨x, hx, rfl⟩ := h.server.placed loop _ (htasks ▸ List.mem_cons_self)
  have hx' : (s.server.dequeue x.loop rest).conns[c]? = some x := hx
  rw [TcpServer.runTask_connectDestroyed hx']
  refine ⟨h.server.destroy htasks hx rfl, fun l d hd => ?_⟩
  have hne : l ≠ x.loop := by
    rintro rfl
    rw [hstage] at hd
    exact absurd hd List.not_mem_nil
  obtain ⟨y, hy, rfl, ha⟩ := (h.staged l d hd).pop rest hne
  have hcd : c ≠ d := by
    rintro rfl
    obtain rfl := Option.some.inj (hx.symm.trans hy)
    exact hne rfl
  have hconns := getElem?_set_conns hx { x with conn := x.conn.connectDestroyed } d
  exact ⟨y, hconns.trans ((if_neg hcd).trans hy), rfl, ha⟩

theorem Kept.runTask (h : s.Kept) (loop : ℕ) : (s.step (.runTask loop)).Kept := by
  rw [step]
  split
  · rename_i left u rest hstage htasks
    have hchannels : (s.stage loop).channels = [] := by
      rw [hstage]
      rfl
    split
    · rename_i hfree
      refine Kept.goTo ?_ fun c hc => absurd hc List.not_mem_nil
      cases u with
      | connectEstablished c => exact h.runConnectEstablished htasks hchannels
      | conn c t => exact h.runConnTask htasks hchannels hfree
      | connectDestroyed c => exact h.runConnectDestroyed htasks hchannels
    · exact h
  · exact h

end RunTask

theorem Kept.call (h : s.Kept) (c : ConnId) (call : ConnCall) : (s.step (.call c call)).Kept := by
  rw [step]
  split
  · exact h
  · rename_i x hx
    split
    · have hc := h.server.conn c x hx
      have hkeeps := x.conn.keeps_call call
      exact h.after hx (x.conn.call_onward call) (.inl hkeeps) (hc.tracked.call call)
        (fun hclose => absurd hclose hkeeps.uncalled) (fun hgone => (hc.gone hgone).call call)
        fun hce => TcpConnection.connecting_call (hc.first hce) call
    · exact h

theorem Kept.step (h : s.Kept) (e : LoopsEvent) : (s.step e).Kept := by
  cases e with
  | accept fd => exact h.accept fd
  | erase => exact h.erase
  | report c events => exact h.report c events
  | polled loop => exact h.polled loop
  | next loop => exact h.next loop
  | handler loop read write => exact h.handler loop read write
  | handled loop => exact h.handled loop
  | swap loop =>
    rw [ServerLoops.step]
    split
    · exact h.goTo fun c hc => absurd hc List.not_mem_nil
    · exact h
  | runTask loop => exact h.runTask loop
  | again loop =>
    rw [ServerLoops.step]
    split
    · split
      · exact h.goTo fun c hc => absurd hc List.not_mem_nil
      · exact h
    · exact h
  | finishClose loop =>
    refine h.of_server (h.server.finishClose loop) fun l c ⟨x, hx, hloop, ha⟩ => ⟨x, ?_, hloop, ?_⟩
    · rw [TcpServer.finishClose]
      split <;> exact hx
    · exact ha.imp_right (s.server.closing_finishClose_iff loop c x).mpr
  | call c call => exact h.call c call
  | acquire c =>
    rw [ServerLoops.step]
    split
    · exact h
    · split
      · refine h.of_congr (h.server.sound.step (.acquire c)) ?_ ?_ ?_
        all_goals
          rw [TcpServer.step]
          split <;> rfl
      · exact h
  | release c => exact h.of_congr (h.server.sound.step (.release c)) rfl rfl rfl

/-! ## No pointer dangles -/

theorem Kept.alive_of_staged (h : s.Kept) (loop : ℕ) (hc : c ∈ (s.stage loop).channels) :
    s.server.alive c = true :=
  (h.staged loop c hc).alive h.server.sound

theorem Kept.safe (h : s.Kept) : s.Safe := by
  refine ⟨fun e c hc => ?_, fun c x hx hdead => ?_, fun c x hx => (h.server.conn c x hx).tracked.running⟩
  · cases e with
    | next loop =>
      rw [reaches] at hc
      split at hc
      · rename_i d active hstage
        obtain rfl := Option.some.inj hc
        refine h.alive_of_staged loop ?_
        rw [hstage]
        exact List.mem_cons_self
      · cases hc
    | runTask loop =>
      rw [reaches] at hc
      split at hc
      · rename_i k d rest _ htasks
        obtain rfl := Option.some.inj hc
        have hqueue := h.server.queue loop
        rw [htasks] at hqueue
        rcases hqueue.head rfl with hanchor | ⟨u, hu, hkeeps⟩
        · exact hanchor.reached.alive h.server.sound
        · -- a `connectDestroyed` task further back
          cases u with
          | connectDestroyed d' =>
            obtain rfl := Option.some.inj hkeeps
            have hmem : .connectDestroyed d' ∈ s.server.tasks loop := by
              rw [htasks]
              exact List.mem_cons_of_mem _ hu
            obtain ⟨x, hx, rfl⟩ := h.server.placed loop _ hmem
            exact h.server.sound.alive_of_anchored hx (.inr (.inr hmem))
          | connectEstablished d' => cases hkeeps
          | conn d' t => cases hkeeps
      · cases hc
    | handler loop read write =>
      rw [reaches] at hc
      split at hc
      · rename_i d rest active hstage
        obtain rfl := Option.some.inj hc
        refine h.alive_of_staged loop ?_
        rw [hstage]
        exact List.mem_cons_self
      · cases hc
    | handled loop =>
      rw [reaches] at hc
      split at hc
      · rename_i d rest active hstage
        obtain rfl := Option.some.inj hc
        refine h.alive_of_staged loop ?_
        rw [hstage]
        exact List.mem_cons_self
      · cases hc
    | _ => cases hc
  · have hdead' : ¬ s.server.alive c = true := Bool.not_eq_true _ ▸ hdead
    have hgone : ¬ s.server.Anchored c x := fun ha =>
      hdead' (h.server.sound.alive_of_anchored hx ha)
    obtain ⟨hstate, hadded, hregistered⟩ := (h.server.conn c x hx).gone hgone
    exact ⟨hstate, hadded, hregistered, fun hmem => hdead' (h.alive_of_staged _ hmem)⟩

/-- **No pointer dangles.**  After any run of a server that stands, whatever its io loops and its base
loop do in whatever order and whatever references user code takes and drops: the channel that `handleEvent`
is called on, runs callbacks of or returns to, and the `this` of a write-complete task, belong to a
connection that is alive; a connection that is not is `DISCONNECTED`, out of the poller and in no
`_activeChannels`, as its destructor and that of its channel assert; and no assertion has failed. -/
theorem dispatch_safe (message writeComplete error : Bool) (loops : ℕ) (es : List LoopsEvent) :
    (run step (new message writeComplete error loops) es).Safe := by
  have h : (run step (new message writeComplete error loops) es).Kept :=
    inv_run (fun _ e hs _ => hs.step e) (kept_new message writeComplete error loops) (meets_true _ es)
  exact h.safe

/-- The `this` of a `shutdown()` from another thread is the caller's affair: here the caller drops its
reference, and the task is left with a connection that is gone. -/
example :
    let s := run step (new true true true 1)
      [.accept 5, .polled 0, .swap 0, .runTask 0, .again 0, .acquire 0, .report 0 .input, .polled 0,
        .next 0, .handler 0 (.reads []) (.takes 0), .finishClose 0, .handled 0, .call 0 (.shutdown false),
        .release 0, .swap 0, .runTask 0, .erase]
    s.server.tasks 0 = [.conn 0 .shutdownWrite] ∧ s.server.alive 0 = false := by decide

end ServerLoops
