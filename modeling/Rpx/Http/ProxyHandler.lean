import Rpx.Http.HttpRouter
import Rpx.Http.Reserialize

/-!
# Http/ProxyHandler — the request that goes upstream

    path ──router──▶ prefixLen ──▶ path.substr(prefixLen), Host, X-Forwarded-For ──serialize──▶ wire

The handler cuts off the prefix that its route matched, and sends a remainder that is empty as `/`.  A
route ends its prefix at any punctuation character: `target_iff` says which paths leave a target.

The two header lines are stored under their exact names, next to whatever other spellings the request
had, and the serialiser writes them all.  `unique_iff_othersQuiet` reads the head of the request back, line by
line, and says when there is one `Host` and one `X-Forwarded-For` among them.
-/

open Wire

namespace ProxyHandler

/-! ## The target -/

/-- **The target is a path**, and what is left of a path is left as it is. -/
def OriginForm (rest target : Bytes) : Prop :=
  target.head? = some 47 ∧ (rest.head? = some 47 → target = rest)

end ProxyHandler

namespace HttpRouter

/-- A simple route that matches does so with its length. -/
theorem SimpleRoute.match_eq_length {url path : Bytes} (h : SimpleRoute.match url path ≠ 0) :
    SimpleRoute.match url path = url.length ∧ url.length ≤ path.length := by
  rw [SimpleRoute.match] at h ⊢
  split_ifs at h ⊢ with hlt
  · exact absurd rfl h
  · exact absurd rfl h
  · exact absurd rfl h
  · exact ⟨rfl, Nat.le_of_not_lt hlt⟩

/-- …and takes the request, if it comes first. -/
theorem handleRequest_simple {η : Type*} {url path : Bytes} (h : SimpleRoute.match url path ≠ 0)
    (handler : η) (after : List (Route η)) :
    handleRequest path (⟨.simple url, handler⟩ :: after) = some [.handle handler url.length] := by
  have hlength := (SimpleRoute.match_eq_length h).1
  have hmatch : (⟨.simple url, handler⟩ : Route η).match path = some url.length := congrArg some hlength
  rw [handleRequest, hmatch]
  rw [hlength] at h
  cases hn : url.length with
  | zero => exact absurd hn h
  | succ n => rfl

end HttpRouter

namespace ProxyHandler

open HttpRouter in
/-- **The forwarded target, exactly.**  A request that a simple route accepts is forwarded with a path for
its target, the remainder behind the prefix when that is one, if and only if the path is as long as the
pattern or goes on with a `/`. -/
theorem target_iff (proxy : ProxyHandler) (url : Bytes) (m : HttpRequest)
    (after : List (Route ProxyHandler)) (hmatch : SimpleRoute.match url m.text ≠ 0) :
    (∃ n r, handleRequest m.text (⟨.simple url, proxy⟩ :: after) = some [.handle proxy n]
        ∧ proxy.forward n m = some r ∧ OriginForm (m.text.drop n) r.text)
      ↔ m.text.length = url.length ∨ m.text[url.length]? = some 47 := by
  obtain ⟨-, hle⟩ := SimpleRoute.match_eq_length hmatch
  obtain ⟨r, hr⟩ := proxy.exists_forward hle
  have hrest : (m.text.drop url.length).head? = m.text[url.length]? := List.head?_drop
  have htarget : OriginForm (m.text.drop url.length) r.text
      ↔ m.text.length = url.length ∨ m.text[url.length]? = some 47 := by
    rw [text_forward hr, ← hrest]
    split
    · rename_i hnil
      have hlen : m.text.length = url.length := by
        have hdrop := List.drop_eq_nil_iff.mp hnil
        omega
      refine iff_of_true ⟨rfl, fun hhead => ?_⟩ (.inl hlen)
      rw [hnil] at hhead
      cases hhead
    · rename_i hne
      have hlen : m.text.length ≠ url.length := fun heq => hne (List.drop_eq_nil_of_le heq.le)
      rw [or_iff_right hlen]
      exact ⟨And.left, fun hhead => ⟨hhead, fun _ => rfl⟩⟩
  rw [← htarget]
  constructor
  · rintro ⟨n, r', hn, hr', hform⟩
    rw [handleRequest_simple hmatch] at hn
    cases hn
    cases hr'.symm.trans hr
    exact hform
  · exact fun hform => ⟨url.length, r, handleRequest_simple hmatch proxy after, hr, hform⟩

/-- `_hostPort`. -/
def hostPortOf (host : Bytes) (port : UInt16) : Bytes :=
  if port = 80 ∨ port = 443 then host else host ++ ascii ":" ++ decimal port.toNat

/-- A decimal number is written in digits. -/
theorem isDigit_of_mem_decimal {n : ℕ} {b : UInt8} (hb : b ∈ decimal n) : isDigit b = true := by
  obtain ⟨c, hc, rfl⟩ := List.mem_map.mp hb
  have hdigit := Nat.isDigit_of_mem_toDigits (by decide) (by decide) hc
  rw [Char.isDigit, Bool.and_eq_true, decide_eq_true_iff, decide_eq_true_iff] at hdigit
  have hlo : 48 ≤ c.toNat := hdigit.1
  have hhi : c.toNat ≤ 57 := hdigit.2
  have hall : ∀ k < 10, isDigit (Nat.toUInt8 (48 + k)) = true := by decide
  have hk := hall (c.toNat - 48) (by omega)
  rwa [Nat.add_sub_cancel' hlo] at hk

theorem isValue_hostPortOf {host : Bytes} (hhost : IsValue host) (port : UInt16) :
    IsValue (hostPortOf host port) := by
  have hvalue : ∀ b : UInt8, isDigit b = true → isBlank b = false ∧ isValueByte b = true := by
    intro b hb
    simp only [isDigit, isBlank, isValueByte, Bool.and_eq_true, decide_eq_true_iff, Bool.or_eq_false_iff,
      decide_eq_false_iff_not, UInt8.le_iff_toNat_le, ← UInt8.toNat_inj, ne_eq, UInt8.reduceToNat] at hb ⊢
    omega
  have hdecimal : IsValue (decimal port.toNat) := by
    refine ⟨?_, List.all_eq_true.mpr fun b hb => (hvalue b (isDigit_of_mem_decimal hb)).2⟩
    cases hd : decimal port.toNat with
    | nil => rfl
    | cons b bs =>
      have hb : b ∈ decimal port.toNat := by
        rw [hd]
        exact List.mem_cons_self
      rw [List.dropWhile_cons_of_neg (by simp [(hvalue b (isDigit_of_mem_decimal hb)).1])]
  rw [hostPortOf]
  split
  · exact hhost
  · exact (hhost.append (by decide)).append hdecimal

/-- `ProxyHandler(host, port)`, for a client whose `toIpPort()` is `peer`. -/
def ofUpstream (host : Bytes) (port : UInt16) (peer : Bytes) (hhost : IsValue host) (hpeer : IsValue peer) :
    ProxyHandler :=
  ⟨hostPortOf host port, peer, isValue_hostPortOf hhost port, hpeer⟩

/-- The `/other` of the program, for a client on the same machine. -/
def other : ProxyHandler :=
  ofUpstream (ascii "127.0.0.1") 8081 (ascii "127.0.0.1:4711") (by decide) (by decide)

/-- A request of that path and with those headers. -/
def request (path : Bytes) (headers : Headers) : HttpRequest := ⟨.get, path, 1, 1, headers, []⟩

open HttpRouter in
theorem target_iff_slash :
    (∃ n r, handleRequest (ascii "/other/x") [⟨.simple (ascii "/other"), other⟩] = some [.handle other n]
        ∧ other.forward n (request (ascii "/other/x") ∅) = some r
        ∧ OriginForm ((ascii "/other/x").drop n) r.text)
      ↔ (ascii "/other/x").length = (ascii "/other").length
        ∨ (ascii "/other/x")[(ascii "/other").length]? = some 47 :=
  target_iff other (ascii "/other") (request (ascii "/other/x") ∅) [] (by decide)

open HttpRouter in
/-- **A query string is no path**: `/other?x` is accepted for `/other` and forwarded as `?x`. -/
theorem not_originForm_query :
    SimpleRoute.match (ascii "/other") (ascii "/other?x") = 6
      ∧ ∃ r, other.forward 6 (request (ascii "/other?x") ∅) = some r
        ∧ ¬ OriginForm ((ascii "/other?x").drop 6) r.text := by
  refine ⟨by decide, _, forward_eq_some_iff.mpr ⟨by decide, rfl⟩, ?_⟩
  rintro ⟨hslash, -⟩
  revert hslash
  decide

end ProxyHandler

/-! ## The lines of a head

What is written as one header line may be read as several. -/

namespace Wire

/-- The lines of a text, `cur` being what has been read of the present one. -/
def splitLines (cur : Bytes) : Bytes → List Bytes
  | [] => [cur]
  | 13 :: 10 :: bs => cur :: splitLines [] bs
  | b :: bs => splitLines (cur ++ [b]) bs

/-- A text without a CR is one line. -/
theorem splitLines_of_not_mem {l : Bytes} (hl : 13 ∉ l) (cur : Bytes) : splitLines cur l = [cur ++ l] := by
  induction l generalizing cur with
  | nil => rw [splitLines, List.append_nil]
  | cons b l ih =>
    obtain ⟨hb, hl⟩ := List.ne_and_not_mem_of_not_mem_cons hl
    rw [splitLines, ih hl, List.append_assoc, List.singleton_append]
    exact fun _ h13 _ => hb h13.symm

/-- A byte that does not begin a line break. -/
theorem readHead_cons {cur : Bytes} {b : UInt8} {bs : Bytes} (h : ∀ t, b = 13 → bs ≠ 10 :: t) :
    readHead cur (b :: bs) = readHead (cur ++ [b]) bs := by
  rw [readHead]
  exact fun t h13 heq => h t h13 heq

/-- At a line break, the present line is the last or one of those that come. -/
theorem readHead_break (cur bs : Bytes) :
    readHead cur (13 :: 10 :: bs)
      = if cur = [] then some ([], bs) else (readHead [] bs).map fun (ls, r) => (cur :: ls, r) := rfl

/-- In front of a line break, a byte begins one only if it began one before. -/
theorem not_break {b : UInt8} {e bs : Bytes} (h : ∀ t, b = 13 → e = 10 :: t → False) :
    ∀ t, b = 13 → e ++ crlf ++ bs ≠ 10 :: t := by
  intro t hb heq
  cases e with
  | nil => exact absurd (List.cons.inj heq).1 (by decide)
  | cons c e =>
    obtain ⟨rfl, -⟩ := List.cons.inj heq
    exact h e hb rfl

/-- **A text is read line by line**, if none of its lines is empty. -/
theorem readHead_splitLines (e : Bytes) (cur bs : Bytes) (hne : ∀ l ∈ splitLines cur e, l ≠ []) :
    readHead cur (e ++ crlf ++ bs)
      = (readHead [] bs).map fun (ls, r) => (splitLines cur e ++ ls, r) := by
  fun_induction splitLines cur e with
  | case1 cur => exact if_neg (hne cur List.mem_cons_self)
  | case2 cur e ih =>
    obtain ⟨hcur, hrest⟩ := List.forall_mem_cons.mp hne
    show (if cur = [] then _ else (readHead [] (e ++ crlf ++ bs)).map _) = _
    rw [if_neg hcur, ih hrest]
    cases readHead [] bs with
    | none => rfl
    | some x => rfl
  | case3 cur b e hb ih =>
    rw [List.cons_append, List.cons_append, readHead_cons (not_break hb)]
    exact ih hne

/-- …and otherwise as far as the first empty one: what comes before is the beginning of what is read. -/
theorem prefix_of_readHead {e cur bs r : Bytes} {ls front : List Bytes}
    (h : readHead cur (e ++ crlf ++ bs) = some (ls, r)) (hfront : front <+: splitLines cur e)
    (hne : ∀ l ∈ front, l ≠ []) : front <+: ls := by
  fun_induction splitLines cur e generalizing ls front with
  | case1 cur =>
    rcases List.prefix_cons_iff.mp hfront with rfl | ⟨t, rfl, ht⟩
    · exact List.nil_prefix
    · change readHead cur (13 :: 10 :: bs) = _ at h
      rw [readHead_break, if_neg (hne cur List.mem_cons_self)] at h
      obtain ⟨⟨ls', r'⟩, -, heq⟩ := Option.map_eq_some_iff.mp h
      cases heq
      rw [List.prefix_nil.mp ht]
      exact (List.prefix_cons_inj cur).mpr List.nil_prefix
  | case2 cur e ih =>
    rcases List.prefix_cons_iff.mp hfront with rfl | ⟨t, rfl, ht⟩
    · exact List.nil_prefix
    · obtain ⟨hcur, hrest⟩ := List.forall_mem_cons.mp hne
      change readHead cur (13 :: 10 :: (e ++ crlf ++ bs)) = _ at h
      rw [readHead_break, if_neg hcur] at h
      obtain ⟨⟨ls', r'⟩, hls, heq⟩ := Option.map_eq_some_iff.mp h
      cases heq
      exact (List.prefix_cons_inj cur).mpr (ih hls ht hrest)
  | case3 cur b e hb ih =>
    rw [List.cons_append, List.cons_append, readHead_cons (not_break hb)] at h
    exact ih h hfront hne

/-- **An empty line ends the head.** -/
theorem eq_of_readHead {e cur bs r : Bytes} {ls front back : List Bytes}
    (h : readHead cur (e ++ crlf ++ bs) = some (ls, r)) (hsplit : splitLines cur e = front ++ [] :: back)
    (hne : ∀ l ∈ front, l ≠ []) : ls = front := by
  fun_induction splitLines cur e generalizing ls front with
  | case1 cur =>
    change readHead cur (13 :: 10 :: bs) = _ at h
    cases front with
    | nil =>
      rw [readHead_break, if_pos (List.cons.inj hsplit).1] at h
      cases h
      rfl
    | cons l front => simp at hsplit
  | case2 cur e ih =>
    change readHead cur (13 :: 10 :: (e ++ crlf ++ bs)) = _ at h
    cases front with
    | nil =>
      rw [readHead_break, if_pos (List.cons.inj hsplit).1] at h
      cases h
      rfl
    | cons l front =>
      obtain ⟨rfl, hback⟩ := List.cons.inj hsplit
      obtain ⟨hl, hrest⟩ := List.forall_mem_cons.mp hne
      rw [readHead_break, if_neg hl] at h
      obtain ⟨⟨ls', r'⟩, hls, heq⟩ := Option.map_eq_some_iff.mp h
      cases heq
      exact congrArg _ (ih hls hback hrest)
  | case3 cur b e hb ih =>
    rw [List.cons_append, List.cons_append, readHead_cons (not_break hb)] at h
    exact ih h hsplit hne

end Wire

/-! ## Who comes first

The headers come in whatever order the map has them; any of them may be the first. -/

namespace HeaderOrder

variable (order : HeaderOrder) {h : Headers} {k v : Bytes}

/-- A header is written once. -/
theorem exists_split (hk : h.lookup k = some v) :
    ∃ a b, order.list h = a ++ (k, v) :: b ∧ ∀ l ∈ a ++ b, l.1 ≠ k := by
  obtain ⟨a, b, heq⟩ := List.append_of_mem ((order.mem_iff h (k, v)).mpr hk)
  refine ⟨a, b, heq, fun l hl hlk => ?_⟩
  have hnodup := order.nodup_names h
  rw [heq, List.map_append, List.map_cons] at hnodup
  have hnot := (List.nodup_middle.mp hnodup).notMem
  rw [← List.map_append] at hnot
  refine hnot (List.mem_map.mpr ⟨l, hl, hlk⟩)

/-- The same order, the name `k` in front. -/
def front (k : Bytes) : HeaderOrder where
  list h := (order.list h).filter (·.1 = k) ++ (order.list h).filter fun l => !decide (l.1 = k)
  nodup_names h :=
    ((List.filter_append_perm _ (order.list h)).map Prod.fst).nodup_iff.mpr (order.nodup_names h)
  mem_iff h l := (List.filter_append_perm _ (order.list h)).mem_iff.trans (order.mem_iff h l)

theorem list_front (hk : h.lookup k = some v) :
    (order.front k).list h = (k, v) :: (order.list h).filter fun l => !decide (l.1 = k) := by
  obtain ⟨a, b, heq, hother⟩ := order.exists_split hk
  have hnone : ∀ c : List (Bytes × Bytes), (∀ l ∈ c, l ∈ a ++ b) → c.filter (·.1 = k) = [] := by
    intro c hc
    refine List.filter_eq_nil_iff.mpr fun l hl => ?_
    rw [decide_eq_true_iff]
    exact hother l (hc l hl)
  have hfilter : (order.list h).filter (·.1 = k) = [(k, v)] := by
    rw [heq, List.filter_append, List.filter_cons_of_pos (by simp),
      hnone a fun l hl => List.mem_append_left b hl, hnone b fun l hl => List.mem_append_right a hl]
    rfl
  show (order.list h).filter _ ++ _ = _
  rw [hfilter, List.singleton_append]

/-- **Any two headers may be the first two.** -/
theorem exists_list_eq {k' v' : Bytes} (hk : h.lookup k = some v) (hk' : h.lookup k' = some v')
    (hne : k' ≠ k) : ∃ rest, ((ascending.front k').front k).list h = (k, v) :: (k', v') :: rest := by
  rw [list_front _ hk, list_front _ hk', List.filter_cons_of_pos (by simp [hne])]
  exact ⟨_, rfl⟩

end HeaderOrder

/-! ## The forwarded head -/

namespace ProxyHandler

/-- The name of a header line: what stands before the first colon. -/
def lineName (l : Bytes) : Bytes := l.takeWhile (· ≠ 58)

/-- **There is one line of that name**, in any letter case, and it is `line`. -/
def Single (field : String) (line : Bytes) (ls : List Bytes) : Prop :=
  ls.filter (fun l => isNamed field (lineName l)) = [line]

/-- The header line that says where the request goes, and the one that says where it comes from. -/
def hostLine (proxy : ProxyHandler) : Bytes := fieldLine (ascii "Host", proxy.hostPort)

def forwardedForLine (proxy : ProxyHandler) : Bytes :=
  fieldLine (ascii "X-Forwarded-For", proxy.peerIpPort)

/-- **`Host` and `X-Forwarded-For` are unique** among the header lines of a request that is sent. -/
def Unique (proxy : ProxyHandler) (wire : Bytes) : Prop :=
  ∃ start ls rest, readHead [] wire = some (start :: ls, rest)
    ∧ Single "host" proxy.hostLine ls ∧ Single "x-forwarded-for" proxy.forwardedForLine ls

/-- A line that is not empty and has neither name. -/
def Quiet (l : Bytes) : Prop :=
  l ≠ [] ∧ isNamed "host" (lineName l) = false ∧ isNamed "x-forwarded-for" (lineName l) = false

instance (l : Bytes) : Decidable (Quiet l) := inferInstanceAs (Decidable (_ ∧ _ ∧ _))

/-- **The other headers keep quiet**: no line that one of them is written as is empty, or has one of the
two names. -/
def OthersQuiet (h : Headers) : Prop :=
  ∀ n v, h.lookup n = some v → n ≠ ascii "Host" → n ≠ ascii "X-Forwarded-For" →
    ∀ l ∈ splitLines [] (fieldLine (n, v)), Quiet l

variable (proxy : ProxyHandler)

theorem lineName_fieldLine {n : Bytes} (hn : 58 ∉ n) (v : Bytes) : lineName (fieldLine (n, v)) = n := by
  have hcolon : fieldLine (n, v) = n ++ 58 :: 32 :: v := by
    rw [fieldLine, List.append_assoc]
    rfl
  have hall : ∀ b ∈ n, decide (b ≠ 58) = true := fun b hb =>
    decide_eq_true fun heq => hn (heq ▸ hb)
  rw [lineName, hcolon, List.takeWhile_append_of_pos hall, List.takeWhile_cons_of_neg (by decide),
    List.append_nil]

/-- A value is on the line of its name. -/
theorem splitLines_fieldLine {n v : Bytes} (hn : 13 ∉ n) (hv : IsValue v) :
    splitLines [] (fieldLine (n, v)) = [fieldLine (n, v)] := by
  rw [splitLines_of_not_mem, List.nil_append]
  simp only [fieldLine, List.mem_append, not_or]
  exact ⟨⟨hn, by decide⟩, not_mem_of_all hv.2 (by decide)⟩

/-- The two lines, and what they are called. -/
theorem splitLines_hostLine :
    splitLines [] proxy.hostLine = [proxy.hostLine] ∧ lineName proxy.hostLine = ascii "Host" :=
  ⟨splitLines_fieldLine (by decide) proxy.hostPort_isValue, lineName_fieldLine (by decide) _⟩

theorem splitLines_forwardedForLine :
    splitLines [] proxy.forwardedForLine = [proxy.forwardedForLine]
      ∧ lineName proxy.forwardedForLine = ascii "X-Forwarded-For" :=
  ⟨splitLines_fieldLine (by decide) proxy.peerIpPort_isValue, lineName_fieldLine (by decide) _⟩

/-- The start line is read first. -/
theorem readHead_serialize (order : HeaderOrder) {r : HttpRequest} (hr : 13 ∉ r.text) :
    ∃ start, readHead [] (HttpRequest.serialize order r)
      = (readHead [] (r.serializeRest order)).map fun (ls, bs) => (start :: ls, bs) := by
  have hversion : 13 ∉ r.version := by
    have hdecimal : ∀ n, (13 : UInt8) ∉ decimal n := fun n hmem => by
      have hdigit := isDigit_of_mem_decimal hmem
      revert hdigit
      decide
    simp only [HttpMessage.version, List.mem_append, not_or]
    exact ⟨⟨⟨by decide, hdecimal _⟩, by decide⟩, hdecimal _⟩
  refine ⟨llhttpMethodName r.code ++ ascii " " ++ r.text ++ ascii " " ++ r.version, ?_⟩
  have h13 : 13 ∉ llhttpMethodName r.code ++ ascii " " ++ r.text ++ ascii " " ++ r.version := by
    simp only [List.mem_append, not_or]
    exact ⟨⟨⟨⟨(not_mem_methodName r.code).1, by decide⟩, hr⟩, by decide⟩, hversion⟩
  have hne : llhttpMethodName r.code ++ ascii " " ++ r.text ++ ascii " " ++ r.version ≠ [] := by
    simp [ascii]
  rw [HttpRequest.serialize]
  exact readHead_line h13 hne _

/-- **Headers without empty lines are read to the end.** -/
theorem readHead_fields {fields : List (Bytes × Bytes)}
    (h : ∀ f ∈ fields, ∀ l ∈ splitLines [] (fieldLine f), l ≠ []) (body : Bytes) :
    readHead [] (fields.flatMap (fun f => fieldLine f ++ crlf) ++ crlf ++ body)
      = some (fields.flatMap fun f => splitLines [] (fieldLine f), body) := by
  induction fields with
  | nil => exact readHead_crlf body
  | cons f fields ih =>
    obtain ⟨hf, hfields⟩ := List.forall_mem_cons.mp h
    rw [List.flatMap_cons, List.append_assoc, List.append_assoc, readHead_splitLines _ _ _ hf,
      ← List.append_assoc, ih hfields, List.flatMap_cons]
    rfl

/-- What is read behind the first header. -/
theorem serializeRest_cons {order : HeaderOrder} {r : HttpRequest} {f : Bytes × Bytes}
    {fields : List (Bytes × Bytes)} (h : order.list r.headers = f :: fields) :
    r.serializeRest order
      = fieldLine f ++ crlf ++ (fields.flatMap (fun f => fieldLine f ++ crlf) ++ crlf ++ r.body) := by
  rw [HttpMessage.serializeRest, h, List.flatMap_cons, List.append_assoc, List.append_assoc]
  rw [← List.append_assoc (List.flatMap _ _)]
  rfl

variable {proxy} {m r : HttpRequest} {prefixLen : ℕ}

/-- What the forwarded request has of headers. -/
theorem lookup_forward_of_ne (hr : proxy.forward prefixLen m = some r) {n : Bytes}
    (hhost : n ≠ ascii "Host") (hfor : n ≠ ascii "X-Forwarded-For") :
    r.headers.lookup n = m.headers.lookup n := by
  obtain ⟨-, rfl⟩ := forward_eq_some_iff.mp hr
  rw [Finmap.lookup_insert_of_ne _ hfor, Finmap.lookup_insert_of_ne _ hhost]

theorem lookup_forward_host (hr : proxy.forward prefixLen m = some r) :
    r.headers.lookup (ascii "Host") = some proxy.hostPort := by
  obtain ⟨-, rfl⟩ := forward_eq_some_iff.mp hr
  rw [Finmap.lookup_insert_of_ne _ (by decide), Finmap.lookup_insert]

theorem lookup_forward_for (hr : proxy.forward prefixLen m = some r) :
    r.headers.lookup (ascii "X-Forwarded-For") = some proxy.peerIpPort := by
  obtain ⟨-, rfl⟩ := forward_eq_some_iff.mp hr
  rw [Finmap.lookup_insert]

/-- The target of a forwarded request is one line, if its path was. -/
theorem not_mem_forward_text (hr : proxy.forward prefixLen m = some r) (hm : 13 ∉ m.text) :
    13 ∉ r.text := by
  rw [text_forward hr]
  split
  · decide
  · exact fun hmem => hm (List.mem_of_mem_drop hmem)

/-- Of the lines that are read, those of a name are those of the headers. -/
theorem single_flatMap {order : HeaderOrder} {h : Headers} {k v line : Bytes} {field : String}
    (hk : h.lookup k = some v) (hline : splitLines [] (fieldLine (k, v)) = [line])
    (hnamed : isNamed field (lineName line) = true)
    (hother : ∀ n w, h.lookup n = some w → n ≠ k →
      ∀ l ∈ splitLines [] (fieldLine (n, w)), isNamed field (lineName l) = false) :
    Single field line ((order.list h).flatMap fun f => splitLines [] (fieldLine f)) := by
  obtain ⟨a, b, heq, hne⟩ := order.exists_split hk
  have hnone : ∀ c : List (Bytes × Bytes), (∀ f ∈ c, f ∈ a ++ b) →
      (c.flatMap fun f => splitLines [] (fieldLine f)).filter (fun l => isNamed field (lineName l)) = [] := by
    intro c hc
    refine List.filter_eq_nil_iff.mpr fun l hl => ?_
    obtain ⟨f, hf, hl⟩ := List.mem_flatMap.mp hl
    have hfab := List.mem_append.mp (hc f hf)
    have hlookup : h.lookup f.1 = some f.2 := by
      refine (order.mem_iff h f).mp ?_
      rw [heq]
      rcases hfab with hfa | hfb
      · exact List.mem_append_left _ hfa
      · exact List.mem_append_right _ (List.mem_cons_of_mem _ hfb)
    rw [hother f.1 f.2 hlookup (hne f (hc f hf)) l hl]
    decide
  rw [Single, heq, List.flatMap_append, List.flatMap_cons, hline, List.filter_append, List.filter_append,
    hnone a fun f hf => List.mem_append_left b hf, hnone b fun f hf => List.mem_append_right a hf,
    List.nil_append, List.append_nil]
  exact List.filter_cons_of_pos hnamed

/-- **Quiet headers leave the two lines alone.** -/
theorem unique_of_othersQuiet (hr : proxy.forward prefixLen m = some r) (hm : 13 ∉ m.text)
    (hquiet : OthersQuiet m.headers) (order : HeaderOrder) :
    proxy.Unique (HttpRequest.serialize order r) := by
  obtain ⟨hhostSplit, hhostName⟩ := proxy.splitLines_hostLine
  obtain ⟨hforSplit, hforName⟩ := proxy.splitLines_forwardedForLine
  have hothers : ∀ n v, r.headers.lookup n = some v → n ≠ ascii "Host" → n ≠ ascii "X-Forwarded-For" →
      ∀ l ∈ splitLines [] (fieldLine (n, v)), Quiet l := fun n v hn hhost hfor =>
    hquiet n v ((lookup_forward_of_ne hr hhost hfor).symm.trans hn) hhost hfor
  have hhostOnly : ∀ v, r.headers.lookup (ascii "Host") = some v →
      splitLines [] (fieldLine (ascii "Host", v)) = [proxy.hostLine] := fun v hv => by
    cases hv.symm.trans (lookup_forward_host hr)
    exact hhostSplit
  have hforOnly : ∀ v, r.headers.lookup (ascii "X-Forwarded-For") = some v →
      splitLines [] (fieldLine (ascii "X-Forwarded-For", v)) = [proxy.forwardedForLine] := fun v hv => by
    cases hv.symm.trans (lookup_forward_for hr)
    exact hforSplit
  obtain ⟨start, hstart⟩ := readHead_serialize order (not_mem_forward_text hr hm)
  rw [HttpMessage.serializeRest] at hstart
  have hfields : ∀ f ∈ order.list r.headers, ∀ l ∈ splitLines [] (fieldLine f), l ≠ [] := by
    rintro ⟨n, v⟩ hf l hl
    have hlookup := (order.mem_iff r.headers (n, v)).mp hf
    by_cases hhost : n = ascii "Host"
    · subst hhost
      rw [hhostOnly v hlookup, List.mem_singleton] at hl
      rw [hl, hostLine]
      simp [fieldLine, ascii]
    · by_cases hfor : n = ascii "X-Forwarded-For"
      · subst hfor
        rw [hforOnly v hlookup, List.mem_singleton] at hl
        rw [hl, forwardedForLine]
        simp [fieldLine, ascii]
      · exact (hothers n v hlookup hhost hfor l hl).1
  have hread := readHead_fields hfields r.body
  refine ⟨start, _, r.body, hstart.trans (congrArg (Option.map _) hread), ?_, ?_⟩
  · refine single_flatMap (lookup_forward_host hr) hhostSplit (by rw [hhostName]; decide)
      fun n v hn hne l hl => ?_
    by_cases hfor : n = ascii "X-Forwarded-For"
    · subst hfor
      rw [hforOnly v hn, List.mem_singleton] at hl
      rw [hl, hforName]
      decide
    · exact (hothers n v hn hne hfor l hl).2.1
  · refine single_flatMap (lookup_forward_for hr) hforSplit (by rw [hforName]; decide)
      fun n v hn hne l hl => ?_
    by_cases hhost : n = ascii "Host"
    · subst hhost
      rw [hhostOnly v hn, List.mem_singleton] at hl
      rw [hl, hhostName]
      decide
    · exact (hothers n v hn hhost hne l hl).2.2

/-- The first of several lines that is not quiet. -/
theorem exists_first_loud {ls : List Bytes} (h : ¬ ∀ l ∈ ls, Quiet l) :
    ∃ front l back, ls = front ++ l :: back ∧ (∀ x ∈ front, Quiet x) ∧ ¬ Quiet l := by
  induction ls with
  | nil => exact absurd (fun l hl => absurd hl List.not_mem_nil) h
  | cons x ls ih =>
    by_cases hx : Quiet x
    · have hrest : ¬ ∀ l ∈ ls, Quiet l := fun hall => h (List.forall_mem_cons.mpr ⟨hx, hall⟩)
      obtain ⟨front, l, back, rfl, hfront, hl⟩ := ih hrest
      exact ⟨x :: front, l, back, rfl, List.forall_mem_cons.mpr ⟨hx, hfront⟩, hl⟩
    · exact ⟨[], x, ls, rfl, fun y hy => absurd hy List.not_mem_nil, hx⟩

/-- **A second line of the name**, written behind the first. -/
theorem not_single_of_second {r : HttpRequest} {k v n w line l rest : Bytes} {field : String}
    {ls front back : List Bytes} {order : HeaderOrder} {fields : List (Bytes × Bytes)}
    (hlist : order.list r.headers = (k, v) :: (n, w) :: fields)
    (hline : splitLines [] (fieldLine (k, v)) = [line]) (hne : line ≠ [])
    (hnamed : isNamed field (lineName line) = true)
    (hsplit : splitLines [] (fieldLine (n, w)) = front ++ l :: back) (hfront : ∀ x ∈ front, x ≠ [])
    (hl : l ≠ []) (hloud : isNamed field (lineName l) = true)
    (hread : readHead [] (r.serializeRest order) = some (ls, rest)) : ¬ Single field line ls := by
  intro hsingle
  rw [serializeRest_cons hlist, readHead_splitLines _ _ _ (by
    rw [hline]
    exact fun x hx => List.mem_singleton.mp hx ▸ hne), hline] at hread
  obtain ⟨⟨ls', rest'⟩, hread', heq⟩ := Option.map_eq_some_iff.mp hread
  cases heq
  rw [List.flatMap_cons, List.append_assoc (fieldLine (n, w) ++ crlf),
    List.append_assoc (fieldLine (n, w) ++ crlf)] at hread'
  have hpart : front ++ [l] <+: ls' := by
    refine prefix_of_readHead hread' ⟨back, by rw [hsplit, List.append_assoc]; rfl⟩ fun x hx => ?_
    rcases List.mem_append.mp hx with hx | hx
    · exact hfront x hx
    · exact List.mem_singleton.mp hx ▸ hl
  have hmem : l ∈ ls'.filter fun l => isNamed field (lineName l) :=
    List.mem_filter.mpr ⟨hpart.subset (List.mem_append_right _ (List.mem_singleton_self l)), hloud⟩
  have hfilter : (line :: ls').filter (fun l => isNamed field (lineName l))
      = line :: ls'.filter fun l => isNamed field (lineName l) := List.filter_cons_of_pos hnamed
  rw [Single, List.singleton_append, hfilter] at hsingle
  rw [(List.cons.inj hsingle).2] at hmem
  exact List.not_mem_nil hmem

/-- **One `Host` and one `X-Forwarded-For`, exactly.**  A request is forwarded whatever the route cuts off
its path; and the head of what is forwarded, read line by line, has one line named `Host` in any letter
case, with the upstream's address, and one so named `X-Forwarded-For`, with the client's, in whatever order
the headers are written, if and only if no other header of the request is written as a line that is empty or
has one of the two names. -/
theorem unique_iff_othersQuiet (proxy : ProxyHandler) (prefixLen : ℕ) (m : HttpRequest)
    (hcut : prefixLen ≤ m.text.length) (hm : 13 ∉ m.text) :
    ∃ r, proxy.forward prefixLen m = some r
      ∧ ((∀ order, proxy.Unique (HttpRequest.serialize order r)) ↔ OthersQuiet m.headers) := by
  obtain ⟨r, hr⟩ := proxy.exists_forward hcut
  refine ⟨r, hr, fun h n v hn hhost hfor => ?_, fun hquiet order =>
    unique_of_othersQuiet hr hm hquiet order⟩
  by_contra hloud
  obtain ⟨front, l, back, hsplit, hfront, hl⟩ := exists_first_loud hloud
  have hlookup : r.headers.lookup n = some v := (lookup_forward_of_ne hr hhost hfor).trans hn
  have hread : ∀ order, ∃ ls rest, readHead [] (r.serializeRest order) = some (ls, rest)
      ∧ Single "host" proxy.hostLine ls ∧ Single "x-forwarded-for" proxy.forwardedForLine ls := by
    intro order
    obtain ⟨start, ls, rest, hall, hsingle⟩ := h order
    obtain ⟨start', hstart⟩ := readHead_serialize order (not_mem_forward_text hr hm)
    rw [hstart] at hall
    obtain ⟨⟨ls', rest'⟩, hrest, heq⟩ := Option.map_eq_some_iff.mp hall
    cases heq
    exact ⟨ls, rest, hrest, hsingle⟩
  obtain ⟨hhostSplit, hhostName⟩ := proxy.splitLines_hostLine
  obtain ⟨hforSplit, hforName⟩ := proxy.splitLines_forwardedForLine
  by_cases hnil : l = []
  · -- written first, the header ends the head before either line
    subst hnil
    obtain ⟨ls, rest, hls, hsingle, -⟩ := hread (HeaderOrder.ascending.front n)
    rw [serializeRest_cons (HeaderOrder.list_front _ hlookup)] at hls
    rw [eq_of_readHead hls hsplit fun x hx => (hfront x hx).1] at hsingle
    have hnone : front.filter (fun l => isNamed "host" (lineName l)) = [] :=
      List.filter_eq_nil_iff.mpr fun x hx => by
        rw [(hfront x hx).2.1]
        decide
    rw [Single, hnone] at hsingle
    cases hsingle
  · by_cases hnamed : isNamed "host" (lineName l) = true
    · obtain ⟨fields, hlist⟩ := HeaderOrder.exists_list_eq (lookup_forward_host hr) hlookup hhost
      obtain ⟨ls, rest, hls, hsingle, -⟩ := hread _
      exact not_single_of_second hlist hhostSplit (by simp [hostLine, fieldLine, ascii])
        (by rw [hhostName]; decide) hsplit (fun x hx => (hfront x hx).1) hnil hnamed hls hsingle
    · have hnamed' : isNamed "x-forwarded-for" (lineName l) = true := by
        by_contra hfor'
        exact hl ⟨hnil, Bool.not_eq_true _ ▸ hnamed, Bool.not_eq_true _ ▸ hfor'⟩
      obtain ⟨fields, hlist⟩ := HeaderOrder.exists_list_eq (lookup_forward_for hr) hlookup hfor
      obtain ⟨ls, rest, hls, -, hsingle⟩ := hread _
      exact not_single_of_second hlist hforSplit (by simp [forwardedForLine, fieldLine, ascii])
        (by rw [hforName]; decide) hsplit (fun x hx => (hfront x hx).1) hnil hnamed' hls hsingle

/-- **Among proper header lines, only spelling counts**: the others keep quiet when none of the names is
`Host` or `X-Forwarded-For` in other letters. -/
theorem othersQuiet_iff (h : m.WellFormed) :
    OthersQuiet m.headers ↔ ∀ n v, m.headers.lookup n = some v →
      (isNamed "host" n = true → n = ascii "Host")
        ∧ (isNamed "x-forwarded-for" n = true → n = ascii "X-Forwarded-For") := by
  refine forall₃_congr fun n v hn => ?_
  obtain ⟨hname, hvalue⟩ := h.headers n v hn
  have hline : lineName (fieldLine (n, v)) = n := lineName_fieldLine (not_mem_of_all hname.2 (by decide)) v
  have hne : fieldLine (n, v) ≠ [] := by simp [fieldLine, ascii]
  rw [splitLines_fieldLine (not_mem_of_all hname.2 (by decide)) hvalue, List.forall_mem_singleton, Quiet,
    hline, and_iff_right hne]
  by_cases hhost : n = ascii "Host"
  · subst hhost
    exact iff_of_true (fun hn => absurd rfl hn) (by decide)
  · by_cases hfor : n = ascii "X-Forwarded-For"
    · subst hfor
      exact iff_of_true (fun _ hn => absurd rfl hn) (by decide)
    · simp [hhost, hfor]

theorem unique_iff_othersQuiet_accept :
    ∃ r, other.forward 6
        (request (ascii "/other/x") ((∅ : Headers).insert (ascii "Accept") (ascii "*"))) = some r
      ∧ ((∀ order, other.Unique (HttpRequest.serialize order r))
        ↔ OthersQuiet ((∅ : Headers).insert (ascii "Accept") (ascii "*"))) :=
  unique_iff_othersQuiet other 6
    (request (ascii "/other/x") ((∅ : Headers).insert (ascii "Accept") (ascii "*"))) (by decide) (by decide)

/-- A request that names its host in lower case. -/
def lowerCaseRequest : Message LlhttpMethod :=
  ⟨.get, [ascii "/other/x"], [.ofBytes (ascii "host") (ascii "a.example")], 1, 1, .plain []⟩

/-- **Two hosts are forwarded**: next to the `Host` of the upstream stands the `host` of the client. -/
theorem not_unique_lowerCase :
    ∃ m ∈ ((HttpParser.new LlhttpMethod).parse [lowerCaseRequest]).delivered,
      ∃ r, other.forward 6 m = some r ∧ ¬ ∀ order, other.Unique (HttpRequest.serialize order r) := by
  set headers := (∅ : Headers).insert (ascii "host") (ascii "a.example") with hheaders
  have hcut : 6 ≤ (request (ascii "/other/x") headers).text.length := by decide
  obtain ⟨r, hr⟩ := other.exists_forward hcut
  refine ⟨request (ascii "/other/x") headers, by decide, r, hr, fun h => ?_⟩
  have hlookup : r.headers.lookup (ascii "host") = some (ascii "a.example") := by
    rw [lookup_forward_of_ne hr (by decide) (by decide)]
    exact Finmap.lookup_insert _
  obtain ⟨fields, hlist⟩ := HeaderOrder.exists_list_eq (lookup_forward_host hr) hlookup (by decide)
  obtain ⟨start, ls, rest, hall, hsingle, -⟩ :=
    h ((HeaderOrder.ascending.front (ascii "host")).front (ascii "Host"))
  obtain ⟨start', hstart⟩ := readHead_serialize
    ((HeaderOrder.ascending.front (ascii "host")).front (ascii "Host"))
    (not_mem_forward_text hr (by decide))
  rw [hstart] at hall
  obtain ⟨⟨ls', rest'⟩, hread, heq⟩ := Option.map_eq_some_iff.mp hall
  cases heq
  have hsplit : splitLines [] (fieldLine (ascii "host", ascii "a.example"))
      = [] ++ fieldLine (ascii "host", ascii "a.example") :: [] := by decide
  exact not_single_of_second hlist (splitLines_hostLine other).1 (by decide) (by decide) hsplit
    (fun x hx => absurd hx List.not_mem_nil) (by decide) (by decide) hread hsingle

end ProxyHandler
