import Rpx.Http.ResponseOrder
import Rpx.Machinery.Weaving

/-!
# Http/Interleaving — whose response each byte is of

    given  =  c₀ ++ c₁ ++ c₂ ++ ⋯      each cₙ the next piece of one response

A request that comes while the response before it is under way is answered in the middle of it.  But
however the responses of a connection are mixed up, each of them is passed to `write()` from its start,
in order and without a gap, for as far as it gets: what the connection is given is a weave of prefixes
of the responses.  `Ascribed` notes for each step on whose behalf it is: a request that is dispatched,
the one an upstream was asked for, or the one whose file is in the slot of the context.
-/

open Machinery

/-- An exchange, and for which of its requests each byte was passed to `write()`. -/
structure Ascribed where
  exchange : Exchange
  /-- The request that the `i`-th client was made for. -/
  proxied : ℕ → ℕ
  /-- The request whose file is in the slot, or was there last. -/
  served : ℕ
  /-- The pieces passed to `write()`, each with its request. -/
  log : List (ℕ × Bytes)

namespace Ascribed

def opened : Ascribed := ⟨.opened, fun _ => 0, 0, []⟩

variable (w : Ascribed)

/-- The request on whose behalf the event runs code that writes. -/
def onBehalf : ExchangeEvent → ℕ
  | .request _ _ => w.exchange.expected.length
  | .upRead i _ _ => w.proxied i
  | _ => w.served

/-- A request that is dispatched may be left to a client or to the slot. -/
def dispatch : Request → Ascribed
  | .proxied true _ _ =>
    { w with proxied := Function.update w.proxied w.exchange.next w.exchange.expected.length }
  | .static (.file _) => { w with served := w.exchange.expected.length }
  | _ => w

def note : ExchangeEvent → Ascribed
  | .request r _ => if w.exchange.down.messageCallback then w.dispatch r else w
  | _ => w

/-- What the event adds to `given` is ascribed. -/
def step (e : ExchangeEvent) : Ascribed :=
  { w.note e with
    exchange := w.exchange.step e
    log := w.log ++
      [(w.onBehalf e, (w.exchange.step e).given.drop w.exchange.given.length)] }

/-- **What a source has left**: the file in the slot, or an upstream that is heard. -/
def left : Option ℕ → ℕ → Bytes → Prop
  | none, k, rest => k = w.served ∧ ∃ r ∈ w.exchange.ctx.writeCompleteCallback, r.rest = rest
  | some i, k, rest =>
    k = w.proxied i ∧ ¬ Exchange.Spent (w.exchange.ups i) ∧ (w.exchange.ups i).remaining = rest

structure Kept : Prop where
  woven : Woven w.exchange.expected w.log w.left
  given : stream w.log = w.exchange.given
  tuned : ∀ i, Exchange.Tuned (w.exchange.ups i).client

variable {w}

theorem kept_opened : opened.Kept := by
  refine ⟨woven_nil fun s k rest => ?_, rfl, fun i => .of_none rfl⟩
  rcases s with - | i
  · rintro ⟨-, r, hr, -⟩
    cases hr
  · rintro ⟨-, hspent, -⟩
    exact hspent (.inl rfl)

/-! ## Steps that pass nothing to `write()` -/

/-- **A step aside** lets sources stop, and no more. -/
theorem Kept.aside (h : w.Kept) {y : Exchange} (hy : Exchange.Aside w.exchange y) :
    Kept { w with exchange := y } := by
  refine ⟨?_, h.given.trans hy.given.symm, fun i => (hy.quieter i).tuned (h.tuned i)⟩
  show Woven y.expected w.log _
  rw [hy.expected]
  refine h.woven.mono fun s k rest hs => ?_
  rcases s with - | i
  · obtain ⟨hk, r, hr, hrest⟩ := hs
    change r ∈ y.ctx.writeCompleteCallback at hr
    rcases hy.slot with hsame | hnone
    · exact ⟨hk, r, hsame ▸ hr, hrest⟩
    · rw [hnone] at hr
      cases hr
  · obtain ⟨hk, hspent, hrest⟩ := hs
    exact ⟨hk, fun hs => hspent (hy.spent hs), (hy.remaining i).symm.trans hrest⟩

/-- A piece with nothing in it. -/
theorem Kept.silent (h : w.Kept) (j : ℕ) : Kept { w with log := w.log ++ [(j, [])] } :=
  ⟨h.woven.silent j, by rw [stream_concat, List.append_nil]; exact h.given, h.tuned⟩

/-- What a step has added to `given`. -/
theorem drop_given {x y : Exchange} {c : Bytes} (h : y.given = x.given ++ c) :
    y.given.drop x.given.length = c := by
  rw [h, List.drop_left]

theorem Kept.step_aside (h : w.Kept) {e : ExchangeEvent} (hnote : w.note e = w)
    (hy : Exchange.Aside w.exchange (w.exchange.step e)) : (w.step e).Kept := by
  have hnone : (w.exchange.step e).given.drop w.exchange.given.length = [] :=
    drop_given (hy.given.trans (List.append_nil _).symm)
  rw [step, hnote, hnone]
  exact (h.aside hy).silent _

/-! ## Upstreams -/

/-- **Bytes from an upstream that is heard** are the next of the response that it was asked for. -/
theorem Kept.relay (h : w.Kept) {i n : ℕ} (hspent : ¬ Exchange.Spent (w.exchange.ups i)) (f : Feed) :
    Kept { w with
      exchange := (w.exchange.send ((w.exchange.ups i).remaining.take n) f).2.setUp i
        { w.exchange.ups i with remaining := (w.exchange.ups i).remaining.drop n }
      log := w.log ++ [(w.proxied i, (w.exchange.ups i).remaining.take n)] } := by
  obtain ⟨hself, hother⟩ := Exchange.ups_setUp
    (w.exchange.send ((w.exchange.ups i).remaining.take n) f).2 i
    { w.exchange.ups i with remaining := (w.exchange.ups i).remaining.drop n }
  have hleft : w.left (some i) (w.proxied i)
      ((w.exchange.ups i).remaining.take n ++ (w.exchange.ups i).remaining.drop n) :=
    ⟨rfl, hspent, (List.take_append_drop _ _).symm⟩
  refine ⟨h.woven.write hleft fun s k rest hs => ?_, ?_, fun j => ?_⟩
  · rcases s with - | j
    · exact .inr ⟨(Option.some_ne_none i).symm, hs⟩
    · obtain ⟨hk, hspent', hrest⟩ := hs
      rcases eq_or_ne j i with rfl | hne
      · rw [hself] at hrest
        exact .inl ⟨rfl, hk, hrest.symm⟩
      · rw [hother j hne] at hspent' hrest
        exact .inr ⟨fun heq => hne (Option.some.inj heq), hk, hspent', hrest⟩
  · rw [stream_concat, h.given]
    rfl
  · rcases eq_or_ne j i with rfl | hne
    · rw [hself]
      exact h.tuned j
    · rw [hother j hne]
      exact h.tuned j

/-- An upstream that nobody listens to has nothing left to say. -/
theorem Kept.lose (h : w.Kept) {i n : ℕ} (hmute : Exchange.Mute (w.exchange.ups i).client)
    {c : TcpClient ProxyClose} (hquiet : Exchange.Quieter (w.exchange.ups i).client c) :
    Kept { w with exchange := (w.exchange.setUp i
      { w.exchange.ups i with client := c, remaining := (w.exchange.ups i).remaining.drop n }) } := by
  obtain ⟨hself, hother⟩ := Exchange.ups_setUp w.exchange i
    { w.exchange.ups i with client := c, remaining := (w.exchange.ups i).remaining.drop n }
  refine ⟨h.woven.mono fun s k rest hs => ?_, h.given, fun j => ?_⟩
  · rcases s with - | j
    · exact hs
    · obtain ⟨hk, hspent, hrest⟩ := hs
      rcases eq_or_ne j i with rfl | hne
      · rw [hself] at hspent
        exact absurd (.inr (hquiet.mute hmute)) hspent
      · rw [hother j hne] at hspent hrest
        exact ⟨hk, hspent, hrest⟩
  · rcases eq_or_ne j i with rfl | hne
    · rw [hself]
      exact hquiet.tuned (h.tuned j)
    · rw [hother j hne]
      exact h.tuned j

theorem Kept.upRead (h : w.Kept) (i n : ℕ) (f : Feed) : (w.step (.upRead i n f)).Kept := by
  rcases Exchange.upRead_cases (h.tuned i) n f with hsame | ⟨hheard, hne, hy⟩ | ⟨hmute, c, hquiet, hy⟩
  · refine h.step_aside rfl ?_
    rw [hsame]
    exact .refl _
  · rw [step, hy, drop_given rfl]
    refine h.relay (fun hspent => hspent.elim (fun hnil => hne ?_) hheard) f
    rw [hnil, List.take_nil]
  · have hnone : (w.exchange.step (.upRead i n f)).given.drop w.exchange.given.length = [] := by
      rw [hy]
      exact List.drop_length
    rw [step, hnone, hy]
    exact (h.lose hmute hquiet).silent _

/-! ## Files -/

/-- **`sendMore` passes on the next part of the file in the slot.** -/
theorem Kept.sendMore (h : w.Kept) {r : Reader} (hr : w.exchange.ctx.writeCompleteCallback = some r)
    (f : Feed) :
    ∃ block, (w.exchange.sendMore r f).given = w.exchange.given ++ block
      ∧ Kept { w with exchange := w.exchange.sendMore r f, log := w.log ++ [(w.served, block)] } := by
  obtain ⟨block, rest, hrest, hgiven, hexpected, hups, hslot⟩ := w.exchange.sendMore_spec r f
  have hleft : w.left none w.served (block ++ rest) := ⟨rfl, r, hr, hrest⟩
  refine ⟨block, hgiven, ?_, ?_, fun i => ?_⟩
  · show Woven (w.exchange.sendMore r f).expected _ _
    rw [hexpected]
    refine h.woven.write hleft fun s k rest' hs => ?_
    rcases s with - | i
    · obtain ⟨hk, r', hr', hrest'⟩ := hs
      change (w.exchange.sendMore r f).ctx.writeCompleteCallback = some r' at hr'
      rcases hslot with hnone | ⟨r'', hr'', hsame⟩
      · rw [hnone] at hr'
        cases hr'
      · obtain rfl : r'' = r' := Option.some.inj (hr''.symm.trans hr')
        exact .inl ⟨rfl, hk, hrest'.symm.trans hsame⟩
    · obtain ⟨hk, hspent, hleft⟩ := hs
      change ¬ Exchange.Spent ((w.exchange.sendMore r f).ups i) at hspent
      change ((w.exchange.sendMore r f).ups i).remaining = _ at hleft
      rw [hups] at hspent hleft
      exact .inr ⟨Option.some_ne_none i, hk, hspent, hleft⟩
  · rw [stream_concat, h.given]
    exact hgiven.symm
  · show Exchange.Tuned ((w.exchange.sendMore r f).ups i).client
    rw [hups]
    exact h.tuned i

/-- The oldest task runs. -/
theorem Kept.runTask (h : w.Kept) (env : Exchange.TaskEnv) : (w.step (.runTask env)).Kept := by
  rcases htasks : w.exchange.tasks with - | ⟨t, rest⟩
  · refine h.step_aside rfl ?_
    rw [Exchange.step, htasks]
    exact .refl _
  have hpop := (w.exchange.elsewhere_pop htasks).toAside
  have hstep : w.exchange.step (.runTask env) = Exchange.runTask { w.exchange with tasks := rest } env t := by
    rw [Exchange.step, htasks]
  by_cases hmore : t = .down .writeComplete
    ∧ ∃ r, (w.exchange.down.runTask .writeComplete).called = [.writeComplete]
      ∧ w.exchange.ctx.writeCompleteCallback = some r
  · obtain ⟨rfl, r, hcalled, hr⟩ := hmore
    have hsend : w.exchange.step (.runTask env)
        = Exchange.sendMore { w.exchange with tasks := rest } r env.feed := by
      rw [hstep, Exchange.runTask]
      dsimp only
      rw [hcalled, hr]
    obtain ⟨block, hgiven, hkept⟩ := (h.aside hpop).sendMore hr env.feed
    rw [step, hsend, drop_given hgiven]
    exact hkept
  · refine h.step_aside rfl ?_
    rw [hstep]
    by_cases ht : t = .down .writeComplete
    · subst ht
      rw [Exchange.runTask]
      split
      · rename_i r hcalled hr
        exact absurd ⟨rfl, r, hcalled, hr⟩ hmore
      · exact hpop
    · exact hpop.trans (Exchange.aside_runTask _ env ht)

/-! ## Requests -/

/-- **A response is begun**: a piece of it is written, and a source takes up the rest or nobody does. -/
theorem Kept.start (h : w.Kept) {v : Ascribed} {s : Option ℕ} {c rest : Bytes}
    (hexpected : v.exchange.expected = w.exchange.expected ++ [c ++ rest])
    (hgiven : v.exchange.given = w.exchange.given ++ c)
    (hlog : v.log = w.log ++ [(w.exchange.expected.length, c)])
    (hleft : ∀ s' k rest', v.left s' k rest' →
      (s' = s ∧ k = w.exchange.expected.length ∧ rest' = rest) ∨ w.left s' k rest')
    (htuned : ∀ i, Exchange.Tuned (v.exchange.ups i).client) : v.Kept := by
  refine ⟨?_, ?_, htuned⟩
  · rw [hexpected, hlog]
    exact h.woven.start c rest hleft
  · rw [hlog, stream_concat, h.given, hgiven]

/-- A request that is answered at once. -/
theorem Kept.answer (h : w.Kept) (pieces : List Bytes) (f : ℕ → Feed) :
    Kept { w with
      exchange := { w.exchange with expected := w.exchange.expected ++ [pieces.flatten] }.sendAll pieces f
      log := w.log ++ [(w.exchange.expected.length, pieces.flatten)] } := by
  obtain ⟨hgiven, hexpected, hups, hctx⟩ := Exchange.sendAll_spec
    { w.exchange with expected := w.exchange.expected ++ [pieces.flatten] } pieces f
  have hwhole : w.exchange.expected ++ [pieces.flatten] = w.exchange.expected ++ [pieces.flatten ++ []] := by
    rw [List.append_nil]
  refine h.start (s := none) (hexpected.trans hwhole) hgiven rfl ?_ fun i => ?_
  · rintro (- | i) k rest' hs
    · obtain ⟨hk, r, hr, hrest⟩ := hs
      exact .inr ⟨hk, r, hctx ▸ hr, hrest⟩
    · obtain ⟨hk, hspent, hrest⟩ := hs
      change ¬ Exchange.Spent ((Exchange.sendAll _ pieces f).ups i) at hspent
      change ((Exchange.sendAll _ pieces f).ups i).remaining = _ at hrest
      rw [hups] at hspent hrest
      exact .inr ⟨hk, hspent, hrest⟩
  · show Exchange.Tuned ((Exchange.sendAll _ pieces f).ups i).client
    rw [hups]
    exact h.tuned i

/-- A file whose head has been written is left to the slot. -/
theorem Kept.file (h : w.Kept) (content : Bytes) (f : ℕ → Feed) :
    (w.exchange.handleRequest (.static (.file content)) f).given
        = w.exchange.given ++ (Exchange.fileHead content).flatten
      ∧ Kept { w with
        exchange := w.exchange.handleRequest (.static (.file content)) f
        served := w.exchange.expected.length
        log := w.log ++ [(w.exchange.expected.length, (Exchange.fileHead content).flatten)] } := by
  obtain ⟨y, hy, hgiven, hexpected, hups⟩ : ∃ y : Exchange,
      w.exchange.handleRequest (.static (.file content)) f
          = { y with ctx := { y.ctx with writeCompleteCallback := some ⟨content, 0, true⟩ } }
        ∧ y.given = w.exchange.given ++ (Exchange.fileHead content).flatten
        ∧ y.expected = w.exchange.expected ++ [(Exchange.fileHead content).flatten ++ content]
        ∧ y.ups = w.exchange.ups := by
    obtain ⟨hgiven, hexpected, hups, -⟩ := Exchange.sendAll_spec { w.exchange with
      expected := w.exchange.expected ++ [(Exchange.fileHead content).flatten ++ content] }
      (Exchange.fileHead content) f
    exact ⟨_, rfl, hgiven, hexpected, hups⟩
  rw [hy]
  refine ⟨hgiven, h.start (s := none) hexpected hgiven rfl ?_ fun i => ?_⟩
  · rintro (- | i) k rest' hs
    · obtain ⟨hk, r, hr, hrest⟩ := hs
      obtain rfl : (⟨content, 0, true⟩ : Reader) = r := Option.some.inj hr
      exact .inl ⟨rfl, hk, hrest.symm⟩
    · obtain ⟨hk, hspent, hrest⟩ := hs
      change ¬ Exchange.Spent (y.ups i) at hspent
      change (y.ups i).remaining = _ at hrest
      rw [hups] at hspent hrest
      exact .inr ⟨hk, hspent, hrest⟩
  · show Exchange.Tuned (y.ups i).client
    rw [hups]
    exact h.tuned i

/-- The exchange with the client that `ProxyHandler` has just made. -/
def made (x : Exchange) (forwarded response : Bytes) : Exchange :=
  { x.setUp x.next ⟨Exchange.proxyClient, forwarded, response⟩ with
    expected := x.expected ++ [response]
    ctx := { x.ctx with userData := some x.next }
    next := x.next + 1 }

/-- What `ProxyHandler` does beside that passes nothing to `write()`. -/
theorem aside_made (x : Exchange) (forwarded response : Bytes) (f : ℕ → Feed) :
    Exchange.Aside (made x forwarded response)
      (x.handleRequest (.proxied true forwarded response) f) := by
  have hset : Exchange.Aside (made x forwarded response)
      ({ x with expected := x.expected ++ [response] }.setUserData forwarded response) := by
    rw [Exchange.setUserData]
    dsimp only
    split
    · exact .refl _
    · exact (Exchange.elsewhere_release (made x forwarded response) _).toAside
  refine Exchange.Aside.trans (hset.trans ?_) (Exchange.elsewhere_withClient (.start _)).toAside
  exact ⟨rfl, rfl, .inl rfl, fun _ => rfl, fun _ => .refl _⟩

/-- **A request that is passed on** is left to the client that is made for it. -/
theorem Kept.proxy (h : w.Kept) (forwarded response : Bytes) (f : ℕ → Feed) :
    (w.exchange.handleRequest (.proxied true forwarded response) f).given = w.exchange.given
      ∧ Kept { w with
        exchange := w.exchange.handleRequest (.proxied true forwarded response) f
        proxied := Function.update w.proxied w.exchange.next w.exchange.expected.length
        log := w.log ++ [(w.exchange.expected.length, [])] } := by
  have haside := aside_made w.exchange forwarded response f
  have hmade : Kept { w with
      exchange := made w.exchange forwarded response
      proxied := Function.update w.proxied w.exchange.next w.exchange.expected.length
      log := w.log ++ [(w.exchange.expected.length, [])] } := by
    obtain ⟨hself, hother⟩ : (made w.exchange forwarded response).ups w.exchange.next
          = ⟨Exchange.proxyClient, forwarded, response⟩
        ∧ ∀ j ≠ w.exchange.next, (made w.exchange forwarded response).ups j = w.exchange.ups j :=
      Exchange.ups_setUp w.exchange w.exchange.next ⟨Exchange.proxyClient, forwarded, response⟩
    have hexpected : (made w.exchange forwarded response).expected
        = w.exchange.expected ++ [[] ++ response] := rfl
    refine h.start (s := some w.exchange.next) hexpected (List.append_nil _).symm rfl ?_ fun i => ?_
    · rintro (- | i) k rest' hs
      · exact .inr hs
      · obtain ⟨hk, hspent, hrest⟩ := hs
        dsimp only at hk hspent hrest
        rcases eq_or_ne i w.exchange.next with rfl | hne
        · rw [hself] at hrest
          exact .inl ⟨rfl, hk.trans (Function.update_self _ _ _), hrest.symm⟩
        · rw [hother i hne] at hspent hrest
          exact .inr ⟨hk.trans (Function.update_of_ne hne _ _), hspent, hrest⟩
    · dsimp only
      rcases eq_or_ne i w.exchange.next with rfl | hne
      · rw [hself]
        exact .of_none rfl
      · rw [hother i hne]
        exact h.tuned i
  exact ⟨haside.given, hmade.aside haside⟩

/-- **A request is answered at once**, or left to the slot or to a client. -/
theorem Kept.handleRequest (h : w.Kept) (r : Request) (f : ℕ → Feed) :
    ∃ c, (w.exchange.handleRequest r f).given = w.exchange.given ++ c
      ∧ Kept { w.dispatch r with
        exchange := w.exchange.handleRequest r f
        log := w.log ++ [(w.exchange.expected.length, c)] } := by
  -- an error page, and the end of the connection
  have herror : ∀ code, ∃ c, (Exchange.sendError { w.exchange with expected := w.exchange.expected ++
        [(HttpContext.sendError code (Exchange.message code)).flatten] } code f).given
          = w.exchange.given ++ c
      ∧ Kept { w with
        exchange := Exchange.sendError { w.exchange with expected := w.exchange.expected ++
          [(HttpContext.sendError code (Exchange.message code)).flatten] } code f
        log := w.log ++ [(w.exchange.expected.length, c)] } := fun code =>
    ⟨_, (Exchange.sendAll_spec _ _ f).1, (h.answer _ f).aside (Exchange.aside_withDown _ _)⟩
  rcases r with - | ⟨- | - | content⟩ | ⟨- | -, forwarded, response⟩
  · exact herror 404
  · exact herror 403
  · exact herror 404
  · exact ⟨_, h.file content f⟩
  · have hsent := h.answer [Exchange.badGateway] fun _ => f 0
    rw [List.flatten_singleton] at hsent
    exact ⟨Exchange.badGateway, rfl, hsent⟩
  · obtain ⟨hgiven, hkept⟩ := h.proxy forwarded response f
    exact ⟨[], hgiven.trans (List.append_nil _).symm, hkept⟩

/-! ## Runs -/

theorem Kept.step (h : w.Kept) (e : ExchangeEvent) : (w.step e).Kept := by
  cases e with
  | request r f =>
    by_cases hheard : w.exchange.down.messageCallback = true
    · obtain ⟨c, hgiven, hkept⟩ := h.handleRequest r f
      have hstep : w.exchange.step (.request r f) = w.exchange.handleRequest r f := if_pos hheard
      have hnote : w.note (.request r f) = w.dispatch r := if_pos hheard
      rw [Ascribed.step, hnote, hstep, drop_given hgiven]
      exact hkept
    · refine h.step_aside (if_neg hheard) ?_
      rw [show w.exchange.step (.request r f) = w.exchange from if_neg hheard]
      exact .refl _
  | downWrite events answer => exact h.step_aside rfl (Exchange.aside_withDown _ _)
  | downClose =>
    refine h.step_aside rfl ?_
    rw [Exchange.step]
    split
    · exact Exchange.aside_downClosed _ _
    · exact .refl _
  | connectWrite i err f => exact h.step_aside rfl (Exchange.elsewhere_connectWrite _ err f).toAside
  | connectError i => exact h.step_aside rfl (Exchange.elsewhere_connectError _).toAside
  | retryTimer i sockfd answer =>
    exact h.step_aside rfl (Exchange.elsewhere_retryTimer _ sockfd answer).toAside
  | upRead i n f => exact h.upRead i n f
  | upClose i sockfd answer => exact h.step_aside rfl (Exchange.elsewhere_upClose _ sockfd answer).toAside
  | upWrite i events answer => exact h.step_aside rfl (Exchange.elsewhere_upWrite _ events answer).toAside
  | runTask env => exact h.runTask env

/-- The ascription is kept beside the exchange and changes nothing. -/
theorem exchange_run (es : List ExchangeEvent) (w : Ascribed) :
    (run step w es).exchange = run Exchange.step w.exchange es := by
  induction es generalizing w with
  | nil => rfl
  | cons e es ih => exact ih (w.step e)

/-- **The connection is given a weave of prefixes of the responses**, in every run: the pieces that the
log ascribes to the `k`-th request are, one after the other, a prefix of the response to it; the pieces
of all of them, in their order, are what was passed to `write()`. -/
theorem weave_run (es : List ExchangeEvent) :
    let w := run step opened es
    w.exchange = run Exchange.step .opened es
      ∧ stream w.log = w.exchange.given
      ∧ ∀ k, part k w.log <+: w.exchange.expected.getD k [] := by
  intro w
  have h : w.Kept := inv_run (fun _ e h _ => h.step e) kept_opened (meets_true opened es)
  exact ⟨exchange_run es opened, h.given, h.woven.prefixes⟩

end Ascribed
