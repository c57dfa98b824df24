import Rpx.Core.Bytes

/-!
# Http/HttpRouter — which handler a path goes to

    _routes[0].match(path), _routes[1].match(path), …  ──▶  the first that is not 0, or 404

A simple route matches its text in front of a boundary, a regular expression whatever `pcre_exec` says.
`pcre_exec` gets an output vector with room for one pair of offsets: a match with a captured group does
not fit, `rc` is `0`, and the assertion that `rc` is `1` ends the process.

`routed_iff_sane` — a path is routed as intended exactly when no regular expression tried reports a
captured group or an error.
-/

/-- `strncmp(a, b, n) == 0`, of strings that end in a NUL. -/
def strncmpEq : ℕ → Bytes → Bytes → Bool
  | 0, _, _ => true
  | n + 1, a, b =>
    if a.headD 0 ≠ b.headD 0 then false
    else if a.headD 0 = 0 then true
    else strncmpEq n a.tail b.tail

/-- `ispunct`: the printing characters of ASCII that are neither letters, digits nor the space. -/
def ispunct (c : UInt8) : Bool :=
  (33 ≤ c && c ≤ 47) || (58 ≤ c && c ≤ 64) || (91 ≤ c && c ≤ 96) || (123 ≤ c && c ≤ 126)

/-- **A string compared as far as a pattern goes**: the pattern is a prefix. -/
theorem strncmpEq_iff {a : Bytes} (ha : 0 ∉ a) (b : Bytes) (hle : b.length ≤ a.length) :
    strncmpEq b.length a b = true ↔ b <+: a := by
  induction b generalizing a with
  | nil => exact iff_of_true rfl List.nil_prefix
  | cons y b ih =>
    cases a with
    | nil => exact absurd hle (by simp)
    | cons x a =>
      obtain ⟨hx, ha⟩ := List.ne_and_not_mem_of_not_mem_cons ha
      rw [List.cons_prefix_cons, List.length_cons, strncmpEq, ← ih ha (by simpa using hle)]
      simp only [List.headD_cons, List.tail_cons, Ne.symm hx, if_false]
      by_cases hxy : x = y
      · simp [hxy]
      · simp [hxy, Ne.symm hxy]

/-! ## Regular expressions -/

/-- How a regular expression fares on a subject, from its first byte on. -/
inductive PcreResult
  | noMatch
  /-- Matching was given up, `code` being another error than `PCRE_ERROR_NOMATCH`. -/
  | error (code : ℤ)
  /-- A match of `[0, stop)`, with `groups` the last group that captured something.  The start that is
  reported may lie further on, behind a `\K` of the pattern: it is not looked at. -/
  | found (stop groups : ℕ)
  deriving DecidableEq, Repr

/-- **A compiled regular expression.** -/
structure Pcre where
  search : Bytes → PcreResult
  /-- The other errors are below `PCRE_ERROR_NOMATCH`. -/
  error_lt : ∀ s code, search s = .error code → code < -1
  /-- A match lies within the subject. -/
  stop_le : ∀ s stop groups, search s = .found stop groups → stop ≤ s.length

/-- `pcre_exec` with an output vector of `ovecsize` numbers, a third of which are its own: what it
returns, and `ovector[1]`. -/
def Pcre.exec (re : Pcre) (subject : Bytes) (ovecsize : ℕ) : ℤ × ℕ :=
  match re.search subject with
  | .noMatch => (-1, 0)
  | .error code => (code, 0)
  | .found stop groups => (if groups + 1 ≤ ovecsize / 3 then groups + 1 else 0, stop)

namespace HttpRouter

/-! ## The two kinds of route -/

/-- `SimpleRoute::match(path)`, for the route of `url`. -/
def SimpleRoute.match (url path : Bytes) : ℕ :=
  if path.length < url.length then 0
  else if !strncmpEq url.length path url then 0
  else if decide (url.length < path.length) && !ispunct ((path[url.length]?).getD 0) then 0
  else url.length

/-- `RegexRoute::match(path)`; `none` is a process that has aborted. -/
def RegexRoute.match (re : Pcre) (path : Bytes) : Option ℕ :=
  let (rc, stop) := re.exec path 3
  if rc < 0 then
    if rc = -1 then some 0 else none
  else if rc = 1 then some stop
  else none

inductive Pattern
  | simple (url : Bytes)
  | regex (re : Pcre)

/-- A route, and its handler. -/
structure Route (η : Type*) where
  pattern : Pattern
  handler : η

variable {η : Type*}

def Route.match (r : Route η) (path : Bytes) : Option ℕ :=
  match r.pattern with
  | .simple url => some (SimpleRoute.match url path)
  | .regex re => RegexRoute.match re path

/-- What the router does with a request. -/
inductive Action (η : Type*)
  | handle (handler : η) (prefixLen : ℕ)
  | sendError (code : ℕ)
  deriving DecidableEq, Repr

/-- `handleRequest(ctx)`, `path` being the path of its message. -/
def handleRequest (path : Bytes) : List (Route η) → Option (List (Action η))
  | [] => some [.sendError 404]
  | r :: routes =>
    match r.match path with
    | none => none
    | some 0 => handleRequest path routes
    | some (n + 1) => some [.handle r.handler (n + 1)]

/-! ## What a route means -/

/-- **The route matches the first `n` bytes of the path.** -/
def Route.Matches (r : Route η) (path : Bytes) (n : ℕ) : Prop :=
  match r.pattern with
  | .simple url => n = url.length ∧ url <+: path ∧ ∀ c ∈ path[url.length]?, ispunct c = true
  | .regex re => ∃ groups, re.search path = .found n groups

/-- The route matches no byte of the path. -/
def Route.Passes (r : Route η) (path : Bytes) : Prop := ∀ n, 1 ≤ n → ¬ r.Matches path n

/-- **A path is routed**: to the handler of the first route that matches a non-empty prefix, with the
length of that prefix, or to a 404 when there is none. -/
def Routed (routes : List (Route η)) (path : Bytes) (actions : List (Action η)) : Prop :=
  (∃ before r after n, routes = before ++ r :: after ∧ (∀ b ∈ before, b.Passes path)
      ∧ r.Matches path n ∧ 1 ≤ n ∧ n ≤ path.length ∧ actions = [.handle r.handler n])
    ∨ (∀ r ∈ routes, r.Passes path) ∧ actions = [.sendError 404]

/-- The regular expression neither captures a group nor gives up. -/
def Route.Sane (r : Route η) (path : Bytes) : Prop :=
  match r.pattern with
  | .simple _ => True
  | .regex re => ∀ stop groups code, re.search path ≠ .found stop (groups + 1)
      ∧ re.search path ≠ .error code

variable {path : Bytes} {r : Route η}

/-! ## One route -/

theorem SimpleRoute.match_spec (hpath : 0 ∉ path) (url : Bytes) :
    (url <+: path ∧ (∀ c ∈ path[url.length]?, ispunct c = true) → SimpleRoute.match url path = url.length)
      ∧ (¬ (url <+: path ∧ ∀ c ∈ path[url.length]?, ispunct c = true) →
        SimpleRoute.match url path = 0) := by
  rw [SimpleRoute.match]
  split
  · rename_i hlt
    refine ⟨fun h => ?_, fun _ => rfl⟩
    have hle := h.1.length_le
    omega
  · rename_i hge
    have hcompared := strncmpEq_iff hpath url (by omega)
    split
    · rename_i hne
      refine ⟨fun h => ?_, fun _ => rfl⟩
      rw [hcompared.mpr h.1] at hne
      cases hne
    · rename_i heq
      have hurl : url <+: path := hcompared.mp (by simpa using heq)
      by_cases hlt : url.length < path.length
      · simp only [hlt, decide_true, Bool.true_and, List.getElem?_eq_getElem hlt, Option.getD_some,
          Option.mem_def, Option.some.injEq, forall_eq', hurl, true_and]
        cases ispunct path[url.length] with
        | true => simp
        | false => simp
      · simp [hlt, hurl]

section

variable {re : Pcre}

theorem RegexRoute.match_of_noMatch (h : re.search path = .noMatch) :
    RegexRoute.match re path = some 0 := by
  have hexec : re.exec path 3 = (-1, 0) := by rw [Pcre.exec, h]
  rw [RegexRoute.match, hexec]
  rfl

theorem RegexRoute.match_of_error {code : ℤ} (h : re.search path = .error code) :
    RegexRoute.match re path = none := by
  have hexec : re.exec path 3 = (code, 0) := by rw [Pcre.exec, h]
  have hlt := re.error_lt _ _ h
  rw [RegexRoute.match, hexec]
  dsimp only
  rw [if_pos (by omega), if_neg (by omega)]

theorem RegexRoute.match_of_found {stop : ℕ} (h : re.search path = .found stop 0) :
    RegexRoute.match re path = some stop := by
  have hexec : re.exec path 3 = (1, stop) := by rw [Pcre.exec, h]; rfl
  rw [RegexRoute.match, hexec]
  rfl

/-- There is no room for a captured group. -/
theorem RegexRoute.match_of_captured {stop groups : ℕ} (h : re.search path = .found stop (groups + 1)) :
    RegexRoute.match re path = none := by
  have hexec : re.exec path 3 = (0, stop) := by
    rw [Pcre.exec, h]
    dsimp only
    rw [if_neg (by omega)]
  rw [RegexRoute.match, hexec]
  rfl

end

/-- **A route whose regular expression behaves** finds what it matches. -/
theorem Route.match_spec (hpath : 0 ∉ path) (h : r.Sane path) :
    ∃ n, r.match path = some n ∧ n ≤ path.length ∧ ∀ m, 1 ≤ m → (r.Matches path m ↔ m = n) := by
  obtain ⟨pattern, handler⟩ := r
  cases pattern with
  | simple url =>
    obtain ⟨hmatch, hno⟩ := SimpleRoute.match_spec hpath url
    by_cases hurl : url <+: path ∧ ∀ c ∈ path[url.length]?, ispunct c = true
    · exact ⟨url.length, congrArg some (hmatch hurl), hurl.1.length_le,
        fun m _ => and_iff_left hurl⟩
    · refine ⟨0, congrArg some (hno hurl), Nat.zero_le _, fun m hm => ?_⟩
      exact iff_of_false (fun hm => hurl hm.2) (by omega)
  | regex re =>
    cases hs : re.search path with
    | noMatch =>
      refine ⟨0, RegexRoute.match_of_noMatch hs, Nat.zero_le _, fun m hm => iff_of_false ?_ (by omega)⟩
      rintro ⟨groups, hfound⟩
      rw [hs] at hfound
      cases hfound
    | error code => exact absurd hs (h 0 0 code).2
    | found stop groups =>
      cases groups with
      | zero =>
        refine ⟨stop, RegexRoute.match_of_found hs, re.stop_le _ _ _ hs, fun m _ => ⟨?_, ?_⟩⟩
        · rintro ⟨groups, hfound⟩
          rw [hs] at hfound
          cases hfound
          rfl
        · rintro rfl
          exact ⟨0, hs⟩
      | succ groups => exact absurd hs (h stop groups 0).1

/-- **Any other aborts.** -/
theorem Route.match_eq_none (h : ¬ r.Sane path) : r.match path = none := by
  obtain ⟨pattern, handler⟩ := r
  cases pattern with
  | simple url => exact absurd trivial h
  | regex re =>
    cases hs : re.search path with
    | noMatch =>
      refine absurd ?_ h
      intro stop groups code
      simp [hs]
    | error code => exact RegexRoute.match_of_error hs
    | found stop groups =>
      cases groups with
      | zero =>
        refine absurd ?_ h
        intro stop' groups' code
        simp [hs]
      | succ groups => exact RegexRoute.match_of_captured hs

/-! ## All routes -/

/-- A route that matches nothing makes no difference. -/
theorem routed_cons {routes : List (Route η)} {actions : List (Action η)} (hpass : r.Passes path) :
    Routed (r :: routes) path actions ↔ Routed routes path actions := by
  refine or_congr ⟨?_, ?_⟩ (and_congr_left fun _ => ?_)
  · rintro ⟨before, r', after, m, heq, hbefore, hmatch, hm, hle, hact⟩
    cases before with
    | nil =>
      cases heq
      exact absurd hmatch (hpass m hm)
    | cons b before =>
      cases heq
      exact ⟨before, r', after, m, rfl, fun b hb => hbefore b (List.mem_cons_of_mem _ hb), hmatch, hm, hle,
        hact⟩
  · rintro ⟨before, r', after, m, rfl, hbefore, hmatch, hm, hle, hact⟩
    exact ⟨r :: before, r', after, m, rfl, List.forall_mem_cons.mpr ⟨hpass, hbefore⟩, hmatch, hm, hle, hact⟩
  · rw [List.forall_mem_cons, and_iff_right hpass]

/-- **The routes tried** are the first, and the ones after it when that matches nothing. -/
theorem tried_cons {routes : List (Route η)} {P : Route η → Prop} :
    (∀ before r' after, r :: routes = before ++ r' :: after → (∀ b ∈ before, b.Passes path) → P r')
      ↔ P r ∧ (r.Passes path →
        ∀ before r' after, routes = before ++ r' :: after → (∀ b ∈ before, b.Passes path) → P r') := by
  constructor
  · intro h
    refine ⟨h [] r routes rfl fun b hb => absurd hb List.not_mem_nil, ?_⟩
    rintro hpass before r' after rfl hbefore
    exact h (r :: before) r' after rfl (List.forall_mem_cons.mpr ⟨hpass, hbefore⟩)
  · rintro ⟨hfirst, hrest⟩ before r' after heq hbefore
    cases before with
    | nil =>
      cases heq
      exact hfirst
    | cons b before =>
      cases heq
      exact hrest (hbefore r List.mem_cons_self) before r' after rfl
        fun b hb => hbefore b (List.mem_cons_of_mem _ hb)

/-- **Routing is total and first-match, exactly.**  For every list of routes and every path, one handler
is called, that of the first route matching a non-empty prefix and with the length of that prefix, or one
404 is sent when there is none, if and only if every route tried behaves: of the regular expressions
before the first route that matches, and of that route, none captures a group or gives up. -/
theorem routed_iff_sane (routes : List (Route η)) (path : Bytes) (hpath : 0 ∉ path) :
    (∃ actions, handleRequest path routes = some actions ∧ Routed routes path actions)
      ↔ ∀ before r after, routes = before ++ r :: after → (∀ b ∈ before, b.Passes path) →
          r.Sane path := by
  induction routes with
  | nil =>
    refine iff_of_true ⟨_, rfl, .inr ⟨fun r hr => absurd hr List.not_mem_nil, rfl⟩⟩ ?_
    intro before r after heq
    simp at heq
  | cons r routes ih =>
    by_cases hsane : r.Sane path
    · obtain ⟨n, hn, hle, hmatches⟩ := Route.match_spec hpath hsane
      rw [handleRequest, hn]
      cases n with
      | zero =>
        have hpass : r.Passes path := fun m hm hmatch => by
          have hzero := (hmatches m hm).mp hmatch
          omega
        simp only [routed_cons hpass]
        rw [ih, tried_cons, and_iff_right hsane]
        exact ⟨fun h _ => h, fun h => h hpass⟩
      | succ n =>
        have hmatch : r.Matches path (n + 1) := (hmatches _ (by omega)).mpr rfl
        have hrouted : Routed (r :: routes) path [.handle r.handler (n + 1)] :=
          .inl ⟨[], r, routes, n + 1, rfl, fun b hb => absurd hb List.not_mem_nil, hmatch, by omega, hle, rfl⟩
        refine iff_of_true ⟨_, rfl, hrouted⟩ (tried_cons.mpr ⟨hsane, fun hpass => ?_⟩)
        exact absurd hmatch (hpass _ (by omega))
    · refine iff_of_false ?_ fun h => hsane (tried_cons.mp h).1
      rintro ⟨actions, hact, -⟩
      rw [handleRequest, Route.match_eq_none hsane] at hact
      cases hact

/-- `/(a)`, on paths of that length. -/
def capturing : Pcre where
  search s := if s = ascii "/a" then .found 2 1 else .noMatch
  error_lt s code h := by
    split at h
    · cases h
    · cases h
  stop_le s stop groups h := by
    split at h
    · rename_i hs
      cases h
      rw [hs]
      decide
    · cases h

/-- A path that a simple route takes before the regular expression is tried. -/
theorem routed_iff_sane_simple :
    let routes : List (Route ℕ) := [⟨.simple (ascii "/a"), 0⟩, ⟨.regex capturing, 1⟩]
    (∃ actions, handleRequest (ascii "/a?b") routes = some actions ∧ Routed routes (ascii "/a?b") actions)
      ↔ ∀ before r after, routes = before ++ r :: after → (∀ b ∈ before, b.Passes (ascii "/a?b")) →
          r.Sane (ascii "/a?b") :=
  routed_iff_sane _ _ (by decide)

/-- **A captured group aborts the process**: `/(a)` matches the path `/a`, and there is no room for what
it captures. -/
theorem not_routed_capturing :
    ¬ ∃ actions, handleRequest (ascii "/a") [(⟨.regex capturing, ()⟩ : Route Unit)] = some actions
      ∧ Routed [⟨.regex capturing, ()⟩] (ascii "/a") actions := by
  rintro ⟨actions, hact, -⟩
  have hnone : handleRequest (ascii "/a") [(⟨.regex capturing, ()⟩ : Route Unit)] = none := by decide
  rw [hnone] at hact
  cases hact

end HttpRouter
