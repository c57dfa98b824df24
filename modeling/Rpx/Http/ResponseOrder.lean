import Rpx.Http.Relay

/-!
# Http/ResponseOrder — the responses of one connection, in request order

    given ++ rest  ⊑  response r₁ ++ response r₂ ++ ⋯

The slots of the context belong to the connection, not to a request, and each request is dispatched
as soon as it is parsed.  If every request finds the responses before it written in full, one source at
a time has something left to say, and `rest` is what it has; a request that comes earlier is answered
in the middle of another's response.
-/

open Machinery

namespace Exchange

/-! ## One source at a time -/

/-- An upstream has nothing left to say, or nobody listens to it. -/
def Spent (u : Upstream) : Prop := u.remaining = [] ∨ Mute u.client

/-- The file in the slot, if any, has been read to its end. -/
def SlotSpent (x : Exchange) : Prop := ∀ r ∈ x.ctx.writeCompleteCallback, r.rest = []

/-- What the connection is to be given, in the end. -/
def due (x : Exchange) : Bytes := x.expected.flatten

/-- **At most one response is under way**, and what is left of it is what is left to be given. -/
inductive InTurn (x : Exchange) : Prop
  /-- None is, or the last one was broken off. -/
  | over (hups : ∀ i, Spent (x.ups i)) (hslot : x.SlotSpent) (hgiven : x.given <+: x.due)
  /-- The one of an upstream. -/
  | relaying (j : ℕ) (hups : ∀ i ≠ j, Spent (x.ups i)) (hslot : x.SlotSpent)
    (hgiven : x.given ++ (x.ups j).remaining = x.due)
  /-- The one of a file. -/
  | reading (r : Reader) (hups : ∀ i, Spent (x.ups i)) (hr : x.ctx.writeCompleteCallback = some r)
    (hgiven : x.given ++ r.rest = x.due)

variable {x y : Exchange}

theorem InTurn.given_prefix (h : InTurn x) : x.given <+: x.due := by
  rcases h with ⟨-, -, hgiven⟩ | ⟨j, -, -, hgiven⟩ | ⟨r, -, -, hgiven⟩
  · exact hgiven
  · exact ⟨_, hgiven⟩
  · exact ⟨_, hgiven⟩

/-- Once everything due has been given, every source is spent. -/
theorem InTurn.spent (h : InTurn x) (hall : x.given = x.due) :
    (∀ i, Spent (x.ups i)) ∧ x.SlotSpent := by
  have hnothing : ∀ {bs : Bytes}, x.given ++ bs = x.due → bs = [] := fun hbs =>
    List.append_right_eq_self.mp (hbs.trans hall.symm)
  rcases h with ⟨hups, hslot, -⟩ | ⟨j, hups, hslot, hgiven⟩ | ⟨r, hups, hr, hgiven⟩
  · exact ⟨hups, hslot⟩
  · refine ⟨fun i => ?_, hslot⟩
    rcases eq_or_ne i j with rfl | hne
    · exact .inl (hnothing hgiven)
    · exact hups i hne
  · refine ⟨hups, fun r' hr' => ?_⟩
    obtain rfl : r = r' := Option.some.inj (hr.symm.trans hr')
    exact hnothing hgiven

/-! ## Steps aside -/

theorem Aside.spent (h : Aside x y) {i : ℕ} (hs : Spent (x.ups i)) : Spent (y.ups i) :=
  hs.imp (h.remaining i).trans (h.quieter i).mute

theorem Aside.slotSpent (h : Aside x y) (hs : x.SlotSpent) : y.SlotSpent := by
  intro r hr
  rcases h.slot with hsame | hnone
  · exact hs r (hsame ▸ hr)
  · rw [hnone] at hr
    cases hr

/-- **A step that passes nothing to `write()` keeps the turn.** -/
theorem Aside.inTurn (h : Aside x y) (hx : InTurn x) : InTurn y := by
  have hdue : y.due = x.due := congrArg List.flatten h.expected
  rcases hx with ⟨hups, hslot, hgiven⟩ | ⟨j, hups, hslot, hgiven⟩ | ⟨r, hups, hr, hgiven⟩
  · refine .over (fun i => h.spent (hups i)) (h.slotSpent hslot) ?_
    rw [h.given, hdue]
    exact hgiven
  · refine .relaying j (fun i hi => h.spent (hups i hi)) (h.slotSpent hslot) ?_
    rw [h.given, hdue, h.remaining]
    exact hgiven
  · rcases h.slot with hsame | hnone
    · refine .reading r (fun i => h.spent (hups i)) (hsame.trans hr) ?_
      rw [h.given, hdue]
      exact hgiven
    · refine .over (fun i => h.spent (hups i)) (fun r' hr' => ?_) ?_
      · rw [hnone] at hr'
        cases hr'
      · rw [h.given, hdue]
        exact ⟨_, hgiven⟩

/-! ## What is kept -/

/-- **What a run keeps**: one response at a time, each passed on as it comes. -/
structure Ordered (x : Exchange) : Prop where
  inTurn : InTurn x
  tuned : ∀ i, Tuned (x.ups i).client

theorem Aside.ordered (h : Aside x y) (hx : Ordered x) : Ordered y :=
  ⟨h.inTurn hx.inTurn, fun i => (h.quieter i).tuned (hx.tuned i)⟩

theorem ordered_opened : Ordered opened :=
  ⟨.over (fun _ => .inl rfl) (fun r hr => by cases hr) (List.prefix_refl _), fun _ => .of_none rfl⟩

/-- A task other than the one of the write-complete callback. -/
theorem aside_runTask (x : Exchange) (env : TaskEnv) {t : LoopTask}
    (ht : t ≠ .down .writeComplete) : Aside x (x.runTask env t) := by
  rcases t with t | - | ⟨i, t | t | -⟩
  · rcases t with - | - | -
    · exact absurd rfl ht
    · exact x.aside_downClosed (x.down.runTask .handleClose)
    · exact x.aside_downClosed (x.down.runTask .shutdownWrite)
  · have hdown : Aside x { x with down := x.down.connectDestroyed } :=
      ⟨rfl, rfl, .inl rfl, fun _ => rfl, fun _ => .refl _⟩
    exact hdown.trans (elsewhere_deleteConnection _).toAside
  · exact (x.elsewhere_withConnector i _ env.feed).toAside
  · exact (elsewhere_connTask env t).toAside
  · obtain ⟨y, hy, hsame | hclose⟩ := closedTask_cases (x := x) (i := i) env
    · rw [hsame]
      exact hy.toAside
    · rw [hclose]
      exact hy.toAside.trans (y.aside_withDown _)

/-! ## Files -/

/-- **`sendMore` passes on the next part of its file**, and keeps the rest or drops it. -/
theorem sendMore_spec (x : Exchange) (r : Reader) (f : Feed) :
    ∃ block rest, r.rest = block ++ rest ∧ (x.sendMore r f).given = x.given ++ block
      ∧ (x.sendMore r f).expected = x.expected ∧ (x.sendMore r f).ups = x.ups
      ∧ ((x.sendMore r f).ctx.writeCompleteCallback = none
        ∨ ∃ r', (x.sendMore r f).ctx.writeCompleteCallback = some r' ∧ r'.rest = rest) := by
  have hread : r.rest = (r.read 4096).1 ++ (r.read 4096).2.rest := by
    simp [Reader.read, Reader.rest, List.take_append_drop, ← List.drop_drop]
  rw [sendMore]
  split
  · dsimp only
    split
    · split
      · exact ⟨_, _, hread, rfl, rfl, rfl, .inl rfl⟩
      · exact ⟨_, _, hread, rfl, rfl, rfl, .inr ⟨_, rfl, rfl⟩⟩
    · rename_i hempty
      have hnil : (r.read 4096).1 = [] := by simpa using hempty
      exact ⟨_, _, hread, by simp [hnil], rfl, rfl, .inr ⟨_, rfl, rfl⟩⟩
  · exact ⟨[], r.rest, rfl, (List.append_nil _).symm, rfl, rfl, .inl rfl⟩

/-- `sendMore` keeps the turn of its file. -/
theorem Ordered.sendMore (h : Ordered x) {r : Reader} (hr : x.ctx.writeCompleteCallback = some r)
    (f : Feed) : Ordered (x.sendMore r f) := by
  obtain ⟨block, rest, hrest, hgiven, hexpected, hups, hslot⟩ := x.sendMore_spec r f
  have hdue : (x.sendMore r f).due = x.due := congrArg List.flatten hexpected
  refine ⟨?_, fun i => hups ▸ h.tuned i⟩
  -- a file read to its end gives nothing more, whoever's turn it is
  have hspent : r.rest = [] → (x.sendMore r f).given = x.given ∧ (x.sendMore r f).SlotSpent :=
    fun hnil => by
      obtain ⟨hblock, hrest'⟩ := List.append_eq_nil_iff.mp (hrest.symm.trans hnil)
      refine ⟨by rw [hgiven, hblock, List.append_nil], fun r' hr' => ?_⟩
      rcases hslot with hnone | ⟨r'', hr'', hsame⟩
      · rw [hnone] at hr'
        cases hr'
      · obtain rfl : r'' = r' := Option.some.inj (hr''.symm.trans hr')
        exact hsame.trans hrest'
  rcases h.inTurn with ⟨hall, hslot', hpre⟩ | ⟨j, hall, hslot', hpre⟩ | ⟨r', hall, hr', hpre⟩
  · obtain ⟨hsame, hslot'⟩ := hspent (hslot' r hr)
    refine .over (fun i => hups ▸ hall i) hslot' ?_
    rw [hsame, hdue]
    exact hpre
  · obtain ⟨hsame, hslot'⟩ := hspent (hslot' r hr)
    refine .relaying j (fun i hi => hups ▸ hall i hi) hslot' ?_
    rw [hsame, hdue, hups]
    exact hpre
  · obtain rfl : r = r' := Option.some.inj (hr.symm.trans hr')
    have hpre' : (x.sendMore r f).given ++ rest = (x.sendMore r f).due := by
      rw [hgiven, hdue, List.append_assoc, ← hrest]
      exact hpre
    rcases hslot with hnone | ⟨r', hr', hsame⟩
    · refine .over (fun i => hups ▸ hall i) (fun r' hr' => ?_) ⟨_, hpre'⟩
      rw [hnone] at hr'
      cases hr'
    · refine .reading r' (fun i => hups ▸ hall i) hr' ?_
      rw [hsame]
      exact hpre'

/-- The oldest task runs. -/
theorem Ordered.step_runTask (h : Ordered x) (env : TaskEnv) : Ordered (x.step (.runTask env)) := by
  rw [step]
  rcases htasks : x.tasks with - | ⟨t, rest⟩
  · exact h
  have hpop := (x.elsewhere_pop htasks).toAside.ordered h
  by_cases ht : t = .down .writeComplete
  · subst ht
    dsimp only
    rw [runTask]
    split
    · rename_i r _ hr
      exact hpop.sendMore hr env.feed
    · exact hpop
  · exact (aside_runTask _ env ht).ordered hpop

/-! ## Upstreams -/

/-- Bytes of the upstream whose turn it is. -/
theorem Ordered.relay (h : Ordered x) {i n : ℕ} (hspent : ¬ Spent (x.ups i)) (f : Feed) :
    Ordered ((x.send ((x.ups i).remaining.take n) f).2.setUp i
      { x.ups i with remaining := (x.ups i).remaining.drop n }) := by
  obtain ⟨hself, hother⟩ := ups_setUp (x.send ((x.ups i).remaining.take n) f).2 i
    { x.ups i with remaining := (x.ups i).remaining.drop n }
  refine ⟨?_, fun j => ?_⟩
  · rcases h.inTurn with ⟨hall, -, -⟩ | ⟨j, hall, hslot, hgiven⟩ | ⟨r, hall, -, -⟩
    · exact absurd (hall i) hspent
    · obtain rfl : i = j := by_contra fun hne => hspent (hall i hne)
      refine .relaying i (fun k hk => hother k hk ▸ hall k hk) hslot ?_
      rw [hself]
      show x.given ++ (x.ups i).remaining.take n ++ (x.ups i).remaining.drop n = x.due
      rw [List.append_assoc, List.take_append_drop]
      exact hgiven
    · exact absurd (hall i) hspent
  · rcases eq_or_ne j i with rfl | hne
    · rw [hself]
      exact h.tuned j
    · rw [hother j hne]
      exact h.tuned j

/-- An upstream that nobody listens to. -/
theorem Ordered.lose (h : Ordered x) {i n : ℕ} (hmute : Mute (x.ups i).client)
    {c : TcpClient ProxyClose} (hquiet : Quieter (x.ups i).client c) :
    Ordered (x.setUp i { x.ups i with client := c, remaining := (x.ups i).remaining.drop n }) := by
  obtain ⟨hself, hother⟩ := ups_setUp x i
    { x.ups i with client := c, remaining := (x.ups i).remaining.drop n }
  have hspent : ∀ j, (j = i ∨ Spent (x.ups j)) → Spent ((x.setUp i
      { x.ups i with client := c, remaining := (x.ups i).remaining.drop n }).ups j) := fun j hj => by
    rcases eq_or_ne j i with rfl | hne
    · rw [hself]
      exact .inr (hquiet.mute hmute)
    · rw [hother j hne]
      exact hj.resolve_left hne
  refine ⟨?_, fun j => ?_⟩
  · rcases h.inTurn with ⟨hall, hslot, hgiven⟩ | ⟨j, hall, hslot, hgiven⟩ | ⟨r, hall, hr, hgiven⟩
    · exact .over (fun j => hspent j (.inr (hall j))) hslot hgiven
    · rcases eq_or_ne j i with rfl | hne
      · exact .over (fun k => hspent k (or_iff_not_imp_left.mpr (hall k))) hslot ⟨_, hgiven⟩
      · refine .relaying j (fun k hk => hspent k (.inr (hall k hk))) hslot ?_
        rw [hother j hne]
        exact hgiven
    · exact .reading r (fun j => hspent j (.inr (hall j))) hr hgiven
  · rcases eq_or_ne j i with rfl | hne
    · rw [hself]
      exact hquiet.tuned (h.tuned j)
    · rw [hother j hne]
      exact h.tuned j

/-- **Bytes from an upstream** are the next ones due, or are passed to nobody. -/
theorem Ordered.step_upRead (h : Ordered x) (i n : ℕ) (f : Feed) :
    Ordered (x.step (.upRead i n f)) := by
  rcases upRead_cases (h.tuned i) n f with hsame | ⟨hheard, hne, hy⟩ | ⟨hmute, c, hquiet, hy⟩
  · rw [hsame]
    exact h
  · rw [hy]
    refine h.relay (fun hspent => hspent.elim (fun hnil => hne ?_) hheard) f
    rw [hnil, List.take_nil]
  · rw [hy]
    exact h.lose hmute hquiet

/-! ## Requests -/

/-- Pieces passed to `write()` one after the other. -/
theorem sendAll_spec (x : Exchange) (pieces : List Bytes) (f : ℕ → Feed) :
    (x.sendAll pieces f).given = x.given ++ pieces.flatten
      ∧ (x.sendAll pieces f).expected = x.expected ∧ (x.sendAll pieces f).ups = x.ups
      ∧ (x.sendAll pieces f).ctx = x.ctx := by
  induction pieces generalizing x f with
  | nil => exact ⟨(List.append_nil _).symm, rfl, rfl, rfl⟩
  | cons bs pieces ih =>
    obtain ⟨hgiven, hexpected, hups, hctx⟩ := ih (x.send bs (f 0)).2 fun n => f (n + 1)
    refine ⟨?_, hexpected, hups, hctx⟩
    rw [sendAll, hgiven, List.flatten_cons, ← List.append_assoc]
    rfl

/-- **Every request is dispatched when the responses before it have been passed to `write()` in full.** -/
def Sequential (x : Exchange) : ExchangeEvent → Prop
  | .request _ _ => x.down.messageCallback = true → x.given = x.due
  | _ => True

instance (x : Exchange) : DecidablePred x.Sequential
  | .request _ _ => inferInstanceAs (Decidable (_ = _ → _ = _))
  | .downWrite _ _ | .downClose | .connectWrite _ _ _ | .connectError _ | .retryTimer _ _ _
  | .upRead _ _ _ | .upClose _ _ _ | .upWrite _ _ _ | .runTask _ => .isTrue trivial

/-- A request that is answered at once. -/
theorem Ordered.answer (h : Ordered x) (hall : x.given = x.due) (pieces : List Bytes)
    (f : ℕ → Feed) :
    Ordered ({ x with expected := x.expected ++ [pieces.flatten] }.sendAll pieces f) := by
  obtain ⟨hspent, hslot⟩ := h.inTurn.spent hall
  obtain ⟨hgiven, hexpected, hups, hctx⟩ :=
    sendAll_spec { x with expected := x.expected ++ [pieces.flatten] } pieces f
  refine ⟨.over (fun i => ?_) (fun r hr => hslot r (hctx ▸ hr)) ?_, fun i => ?_⟩
  · rw [hups]
    exact hspent i
  · rw [hgiven, due, hexpected, List.flatten_append, hall]
    simp [due]
  · rw [hups]
    exact h.tuned i

theorem Ordered.answer_send (h : Ordered x) (hall : x.given = x.due) (bs : Bytes) (f : Feed) :
    Ordered ({ x with expected := x.expected ++ [bs] }.send bs f).2 := by
  have hsent := h.answer hall [bs] fun _ => f
  rw [List.flatten_singleton] at hsent
  exact hsent

/-- A file whose head has been written. -/
theorem Ordered.read (h : Ordered x) (hall : x.given = x.due) (head : List Bytes) (content : Bytes)
    (f : ℕ → Feed) :
    let y := { x with expected := x.expected ++ [head.flatten ++ content] }.sendAll head f
    Ordered { y with ctx := { y.ctx with writeCompleteCallback := some ⟨content, 0, true⟩ } } := by
  obtain ⟨hgiven, hexpected, hups, -⟩ :=
    sendAll_spec { x with expected := x.expected ++ [head.flatten ++ content] } head f
  refine ⟨.reading _ (fun i => ?_) rfl ?_, fun i => ?_⟩ <;> dsimp only [due]
  · rw [hups]
    exact (h.inTurn.spent hall).1 i
  · rw [hgiven, hexpected, List.flatten_append, hall]
    simp [due, Reader.rest]
  · rw [hups]
    exact h.tuned i

/-- An upstream whose client has just been made. -/
theorem Ordered.proxy (h : Ordered x) (hall : x.given = x.due) {i : ℕ} {forwarded response : Bytes}
    (hgiven : y.given = x.given) (hexpected : y.expected = x.expected ++ [response])
    (hups : y.ups = Function.update x.ups i ⟨proxyClient, forwarded, response⟩)
    (hslot : y.ctx.writeCompleteCallback = x.ctx.writeCompleteCallback) : Ordered y := by
  obtain ⟨hspent, hspentSlot⟩ := h.inTurn.spent hall
  refine ⟨.relaying i (fun j hj => ?_) (fun r hr => hspentSlot r (hslot ▸ hr)) ?_, fun j => ?_⟩
  · rw [hups, Function.update_of_ne hj]
    exact hspent j
  · rw [hgiven, hups, Function.update_self, due, hexpected, List.flatten_append, hall]
    simp [due]
  · rw [hups]
    rcases eq_or_ne j i with rfl | hne
    · rw [Function.update_self]
      exact .of_none rfl
    · rw [Function.update_of_ne hne]
      exact h.tuned j

/-- The client that is replaced is let go. -/
theorem Ordered.setUserData (h : Ordered x) (hall : x.given = x.due) (forwarded response : Bytes) :
    Ordered ({ x with expected := x.expected ++ [response] }.setUserData forwarded response) := by
  have hmade : Ordered { x.setUp x.next ⟨proxyClient, forwarded, response⟩ with
      expected := x.expected ++ [response]
      ctx := { x.ctx with userData := some x.next }
      next := x.next + 1 } := h.proxy hall rfl rfl rfl rfl
  rw [Exchange.setUserData]
  dsimp only
  split
  · exact hmade
  · exact (elsewhere_release _ _).toAside.ordered hmade

/-- An error page is an answer at once. -/
theorem Ordered.sendError (h : Ordered x) (hall : x.given = x.due) (code : ℕ) (f : ℕ → Feed) :
    Ordered (Exchange.sendError { x with
      expected := x.expected ++ [(HttpContext.sendError code (message code)).flatten] } code f) := by
  rw [Exchange.sendError, shutdown]
  exact (aside_withDown _ _).ordered (h.answer hall _ f)

/-- **A request in its turn is answered in its turn.** -/
theorem Ordered.handleRequest (h : Ordered x) (hall : x.given = x.due) (r : Request)
    (f : ℕ → Feed) : Ordered (x.handleRequest r f) := by
  rcases r with - | ⟨- | - | content⟩ | ⟨- | -, forwarded, response⟩
  · exact h.sendError hall 404 f
  · exact h.sendError hall 403 f
  · exact h.sendError hall 404 f
  · show Ordered (Exchange.staticHandler { x with
      expected := x.expected ++ [(fileHead content).flatten ++ content] } (.file content) f)
    rw [staticHandler]
    exact h.read hall (fileHead content) content f
  · show Ordered (Exchange.proxyHandler { x with expected := x.expected ++ [badGateway] } false
      forwarded response (f 0))
    rw [proxyHandler, if_neg Bool.false_ne_true]
    exact h.answer_send hall badGateway (f 0)
  · have hset := h.setUserData hall forwarded response
    refine (elsewhere_withClient (.start _)).toAside.ordered (Aside.ordered ?_ hset)
    exact ⟨rfl, rfl, .inl rfl, fun _ => rfl, fun _ => .refl _⟩

/-- **Every step keeps the order**, if its request comes in its turn. -/
theorem Ordered.step (h : Ordered x) (e : ExchangeEvent) (he : x.Sequential e) :
    Ordered (x.step e) := by
  cases e with
  | request r f =>
    rw [Exchange.step]
    split
    · rename_i hm
      exact h.handleRequest (he hm) r f
    · exact h
  | downWrite events answer => exact (x.aside_withDown _).ordered h
  | downClose =>
    rw [Exchange.step]
    split
    · exact (x.aside_downClosed _).ordered h
    · exact h
  | connectWrite i err f => exact (x.elsewhere_connectWrite err f).toAside.ordered h
  | connectError i => exact x.elsewhere_connectError.toAside.ordered h
  | retryTimer i sockfd answer => exact (x.elsewhere_retryTimer sockfd answer).toAside.ordered h
  | upRead i n f => exact h.step_upRead i n f
  | upClose i sockfd answer => exact (x.elsewhere_upClose sockfd answer).toAside.ordered h
  | upWrite i events answer => exact (x.elsewhere_upWrite events answer).toAside.ordered h
  | runTask env => exact h.step_runTask env

/-- **Responses keep request order** in every run whose requests come in their turn. -/
theorem given_prefix_due (es : List ExchangeEvent) (h : Meets Exchange.step Sequential opened es) :
    (run Exchange.step opened es).given <+: (run Exchange.step opened es).due :=
  (inv_run (fun _ e hx he => hx.step e he) ordered_opened h).inTurn.given_prefix

/-- A file, sent to its end before the next request is dispatched. -/
theorem given_prefix_due_file :
    let es : List ExchangeEvent :=
      [.request (.static (.file [1, 2])) fun _ => ⟨fun _ => 0, 0, .takes 100⟩,
        .runTask ⟨⟨fun _ => 0, 0, .takes 100⟩, 7, .progress⟩,
        .request (.proxied true [3] [4]) fun _ => ⟨fun _ => 0, 0, .takes 100⟩]
    (run Exchange.step opened es).given <+: (run Exchange.step opened es).due :=
  given_prefix_due _ (by decide +kernel)

/-- **Two files asked for in one read**: the head of the second response comes where the first file's
content is due. -/
theorem pipelined_out_of_order :
    let es : List ExchangeEvent :=
      [.request (.static (.file [1, 2])) fun _ => ⟨fun _ => 0, 0, .takes 100⟩,
        .request (.static (.file [3])) fun _ => ⟨fun _ => 0, 0, .takes 100⟩]
    ¬ (run Exchange.step opened es).given <+: (run Exchange.step opened es).due := by
  decide +kernel

end Exchange
