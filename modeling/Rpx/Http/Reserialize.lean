import Rpx.Http.HeaderLines
import Rpx.Http.Wire

/-!
# Http/Reserialize — a request parsed, serialised and read again

    wire ──HttpParser──▶ HttpRequest ──serialize──▶ wire ──readRequest──▶ ?

The parser takes the framing of the body away and the serialiser replays the header lines as they
are.  A `Content-Length` still announces the body then; `Transfer-Encoding: chunked` announces chunks
that are not there.
-/

open Machinery Wire

/-! ## What can be serialised -/

/-- A field name. -/
def IsName (n : Bytes) : Prop := n ≠ [] ∧ n.all isToken = true

/-- A field value: no blank in front, no line break inside. -/
def IsValue (v : Bytes) : Prop := v.dropWhile isBlank = v ∧ v.all isValueByte = true

instance (n : Bytes) : Decidable (IsName n) := inferInstanceAs (Decidable (_ ∧ _))

instance (v : Bytes) : Decidable (IsValue v) := inferInstanceAs (Decidable (_ ∧ _))

theorem isValue_nil : IsValue [] := ⟨rfl, rfl⟩

/-- Values append to a value. -/
theorem IsValue.append {u v : Bytes} (hu : IsValue u) (hv : IsValue v) : IsValue (u ++ v) := by
  refine ⟨?_, by rw [List.all_append, hu.2, hv.2]; rfl⟩
  cases u with
  | nil => exact hv.1
  | cons b u =>
    have hb : isBlank b = false := by
      by_contra hblank
      have hlen := congrArg List.length hu.1
      rw [List.dropWhile_cons_of_pos (by simpa using hblank)] at hlen
      have hle := (List.dropWhile_suffix isBlank (l := u)).length_le
      rw [hlen, List.length_cons] at hle
      omega
    rw [List.cons_append, List.dropWhile_cons_of_neg (by simp [hb])]

/-- A request that its serialisation spells out: the bytes of each part are what the grammar allows
there. -/
structure HttpMessage.WellFormed (r : HttpRequest) : Prop where
  target_ne_nil : r.text ≠ []
  target : r.text.all isTargetByte = true
  major_lt : r.major < 10
  minor_lt : r.minor < 10
  headers : ∀ n v, r.headers.lookup n = some v → IsName n ∧ IsValue v

/-! ## Reading the head back -/

theorem not_mem_of_all {p : UInt8 → Bool} {bs : Bytes} (h : bs.all p = true) {b : UInt8}
    (hb : p b = false) : b ∉ bs := by
  intro hmem
  rw [List.all_eq_true.mp h b hmem] at hb
  cases hb

/-- One serialised header line. -/
def fieldLine (l : Bytes × Bytes) : Bytes := l.1 ++ ascii ": " ++ l.2

theorem readField_fieldLine {l : Bytes × Bytes} (hn : IsName l.1) (hv : IsValue l.2) :
    readField (fieldLine l) = some l := by
  have hcut : cut 58 (fieldLine l) = some (l.1, 32 :: l.2) := by
    rw [fieldLine, List.append_assoc]
    exact cut_append (not_mem_of_all hn.2 (by decide)) (32 :: l.2)
  rw [readField, hcut]
  have hdrop : (32 :: l.2).dropWhile isBlank = l.2 := hv.1
  show (if l.1 ≠ [] ∧ l.1.all isToken ∧ ((32 :: l.2).dropWhile isBlank).all isValueByte then
    some (l.1, (32 :: l.2).dropWhile isBlank) else none) = some l
  rw [hdrop, if_pos ⟨hn.1, hn.2, hv.2⟩]

theorem not_mem_fieldLine {l : Bytes × Bytes} (hn : IsName l.1) (hv : IsValue l.2) :
    13 ∉ fieldLine l := by
  simp only [fieldLine, List.mem_append, not_or]
  exact ⟨⟨not_mem_of_all hn.2 (by decide), by decide⟩, not_mem_of_all hv.2 (by decide)⟩

/-- The header lines are read back one by one. -/
theorem readHead_fieldLines {ls : List (Bytes × Bytes)} (h : ∀ l ∈ ls, IsName l.1 ∧ IsValue l.2)
    (bs : Bytes) :
    readHead [] (ls.flatMap (fun l => fieldLine l ++ crlf) ++ crlf ++ bs)
      = some (ls.map fieldLine, bs) := by
  induction ls with
  | nil => exact readHead_crlf bs
  | cons l ls ih =>
    obtain ⟨⟨hn, hv⟩, hls⟩ := List.forall_mem_cons.mp h
    have hne : fieldLine l ≠ [] := by
      intro hnil
      exact hn.1 (List.append_eq_nil_iff.mp (List.append_eq_nil_iff.mp hnil).1).1
    rw [List.flatMap_cons, List.append_assoc, List.append_assoc,
      readHead_line (not_mem_fieldLine hn hv) hne, ← List.append_assoc, ih hls]
    rfl

theorem mapM_readField {ls : List (Bytes × Bytes)} (h : ∀ l ∈ ls, IsName l.1 ∧ IsValue l.2) :
    (ls.map fieldLine).mapM readField = some ls := by
  induction ls with
  | nil => rfl
  | cons l ls ih =>
    obtain ⟨⟨hn, hv⟩, hls⟩ := List.forall_mem_cons.mp h
    rw [List.map_cons, List.mapM_cons, readField_fieldLine hn hv, ih hls]
    rfl

theorem readMethod_name (m : LlhttpMethod) : readMethod (llhttpMethodName m) = some m := by
  cases m <;> rfl

theorem not_mem_methodName (m : LlhttpMethod) :
    13 ∉ llhttpMethodName m ∧ 32 ∉ llhttpMethodName m := by
  cases m <;> decide

/-- A one-digit number is its digit. -/
theorem decimal_of_lt {d : UInt8} (h : d < 10) :
    ∃ c, decimal d.toNat = [c] ∧ isDigit c = true ∧ c - 48 = d ∧ c ≠ 13 ∧ c ≠ 32 := by
  have hall : ∀ n < 10, decimal n = [UInt8.ofNat n + 48] ∧ isDigit (UInt8.ofNat n + 48) = true
      ∧ UInt8.ofNat n + 48 - 48 = UInt8.ofNat n ∧ UInt8.ofNat n + 48 ≠ 13
      ∧ UInt8.ofNat n + 48 ≠ 32 := by decide
  obtain ⟨hdec, hdigit, hsub, h13, h32⟩ := hall d.toNat (UInt8.lt_iff_toNat_lt.mp h)
  rw [UInt8.ofNat_toNat] at hdec hdigit hsub h13 h32
  exact ⟨d + 48, hdec, hdigit, hsub, h13, h32⟩

namespace HttpMessage

variable {r : HttpRequest} (order : HeaderOrder)

/-- The version is read back. -/
theorem WellFormed.version (h : r.WellFormed) :
    readVersion r.version = some (r.major, r.minor) ∧ 13 ∉ r.version ∧ 32 ∉ r.version := by
  obtain ⟨c, hc, hcdigit, hcsub, hc13, hc32⟩ := decimal_of_lt h.major_lt
  obtain ⟨d, hd, hddigit, hdsub, hd13, hd32⟩ := decimal_of_lt h.minor_lt
  have hversion : r.version = [72, 84, 84, 80, 47, c, 46, d] := by
    rw [HttpMessage.version, hc, hd]
    rfl
  rw [hversion]
  refine ⟨?_, ?_, ?_⟩
  · rw [readVersion, if_pos ⟨rfl, hcdigit, hddigit⟩, hcsub, hdsub]
  · simp [Ne.symm hc13, Ne.symm hd13]
  · simp [Ne.symm hc32, Ne.symm hd32]

/-- Read in any order, the headers are the same map. -/
theorem lastWins_list (h : Headers) : SwapMap.lastWins (order.list h) = h := by
  refine Finmap.ext_lookup fun n => ?_
  rcases SwapMap.exists_latest n (order.list h) with hnone | ⟨earlier, v, later, heq, hlater⟩
  · rw [SwapMap.lookup_lastWins_of_not_mem hnone]
    refine (Option.eq_none_iff_forall_not_mem.mpr fun v hv => hnone ?_).symm
    exact List.mem_map_of_mem ((order.mem_iff h (n, v)).mpr hv)
  · have hmem : (n, v) ∈ order.list h := by simp [heq]
    rw [(order.mem_iff h (n, v)).mp hmem, heq, SwapMap.lookup_lastWins earlier n v hlater]

/-- **The head of a serialised request is read back**; what follows is up to the framing that its
header lines announce. -/
theorem WellFormed.readRequest_serialize (h : r.WellFormed) :
    readRequest (HttpRequest.serialize order r)
      = (bodyFraming (order.list r.headers)).bind fun framing =>
          (readBody framing r.body).map fun (body, bs) => ({ r with body := body }, bs) := by
  have hfields : ∀ l ∈ order.list r.headers, IsName l.1 ∧ IsValue l.2 := fun l hl =>
    h.headers l.1 l.2 ((order.mem_iff r.headers l).mp hl)
  obtain ⟨hversion, hversion13, hversion32⟩ := h.version
  have htarget32 : 32 ∉ r.text := not_mem_of_all h.target (by decide)
  have htarget13 : 13 ∉ r.text := not_mem_of_all h.target (by decide)
  obtain ⟨hname13, hname32⟩ := not_mem_methodName r.code
  set start := llhttpMethodName r.code ++ ascii " " ++ r.text ++ ascii " " ++ r.version with hstart
  have hhead : readHead [] (HttpRequest.serialize order r)
      = some (start :: (order.list r.headers).map fieldLine, r.body) := by
    have h13 : 13 ∉ start := by
      simp only [hstart, List.mem_append, not_or]
      exact ⟨⟨⟨⟨hname13, by decide⟩, htarget13⟩, by decide⟩, hversion13⟩
    have hne : start ≠ [] := by
      simp [hstart, h.target_ne_nil]
    rw [HttpRequest.serialize, serializeRest]
    show readHead [] (start ++ crlf ++ _) = _
    rw [readHead_line h13 hne]
    show Option.map _ (readHead [] ((order.list r.headers).flatMap (fun l => fieldLine l ++ crlf)
      ++ crlf ++ r.body)) = _
    rw [readHead_fieldLines hfields]
    rfl
  have hcut : cut 32 start = some (llhttpMethodName r.code, r.text ++ 32 :: r.version) := by
    rw [hstart, List.append_assoc, List.append_assoc, List.append_assoc]
    exact cut_append hname32 _
  have hcut' : cut 32 (r.text ++ 32 :: r.version) = some (r.text, r.version) :=
    cut_append htarget32 _
  rw [readRequest, hhead]
  simp only [Option.bind_eq_bind, Option.bind_some, List.head?_cons, hcut, hcut',
    readMethod_name, hversion, List.tail_cons, mapM_readField hfields, h.target_ne_nil, h.target,
    ne_eq, not_false_eq_true, and_self, if_true, lastWins_list, Option.map_eq_bind]
  rfl

/-- **The round trip**: the serialised request is read back as it was, and no byte is left. -/
def RoundTrips (order : HeaderOrder) (r : HttpRequest) : Prop :=
  readRequest (HttpRequest.serialize order r) = some (r, [])

/-- A framing that announces a plain body of `n` bytes. -/
def Announces : Option BodyFraming → ℕ → Prop
  | some .empty, n => n = 0
  | some (.length m), n => m = n
  | some .chunked, _ => False
  | none, _ => False

/-- A body is read back whole exactly when it is announced. -/
theorem readBody_eq_iff (framing : BodyFraming) (body : Bytes) :
    readBody framing body = some (body, []) ↔ Announces (some framing) body.length := by
  cases framing with
  | empty =>
    rw [readBody, Announces, Option.some.injEq, Prod.mk.injEq, List.length_eq_zero_iff]
    exact ⟨fun h => h.2, fun h => ⟨h.symm, h⟩⟩
  | length m =>
    rw [readBody, Announces]
    split
    · rename_i hle
      rw [Option.some.injEq, Prod.mk.injEq, List.take_eq_self_iff, List.drop_eq_nil_iff, and_self]
      exact ⟨fun h => le_antisymm hle h, fun h => h.ge⟩
    · rename_i hle
      exact iff_of_false (by simp) fun h => hle h.le
  | chunked =>
    refine iff_of_false (fun h => ?_) not_false
    exact absurd (length_of_readChunks h) (by simp)

/-- **A well-formed request round-trips exactly when its headers announce its body.** -/
theorem WellFormed.roundTrips_iff (h : r.WellFormed) :
    RoundTrips order r ↔ Announces (bodyFraming (order.list r.headers)) r.body.length := by
  rw [RoundTrips, h.readRequest_serialize order]
  cases bodyFraming (order.list r.headers) with
  | none => exact iff_of_false (by simp) not_false
  | some framing =>
    rw [Option.bind_some, ← readBody_eq_iff, Option.map_eq_some_iff]
    constructor
    · rintro ⟨⟨body, bs⟩, hread, heq⟩
      have hbody : body = r.body := congrArg (fun q : HttpRequest × Bytes => q.1.body) heq
      have hbs : bs = [] := congrArg Prod.snd heq
      rw [hread, hbody, hbs]
    · exact fun hread => ⟨(r.body, []), hread, rfl⟩

end HttpMessage

/-! ## What the headers announce -/

/-- The names that say how long the body is. -/
def framingFields : List String := ["transfer-encoding", "content-length"]

section Framing

variable (order : HeaderOrder) {h : Headers} {field : String}

theorem mem_fields_list {l : Bytes × Bytes} :
    l ∈ fields field (order.list h) ↔ h.lookup l.1 = some l.2 ∧ isNamed field l.1 = true := by
  rw [fields, List.mem_filter, order.mem_iff]

/-- Nothing of a name is listed when the map has nothing of it. -/
theorem fields_list_eq_nil_iff :
    fields field (order.list h) = [] ↔ ∀ n, isNamed field n = true → h.lookup n = none := by
  rw [List.eq_nil_iff_forall_not_mem]
  constructor
  · intro hnil n hn
    refine Option.eq_none_iff_forall_not_mem.mpr fun v hv => ?_
    exact hnil (n, v) ((mem_fields_list order).mpr ⟨hv, hn⟩)
  · intro hnone l hl
    obtain ⟨hlookup, hnamed⟩ := (mem_fields_list order).mp hl
    rw [hnone l.1 hnamed] at hlookup
    cases hlookup

/-- The one entry of a name is all that is listed of it. -/
theorem fields_list_eq_singleton {n v : Bytes} (hn : isNamed field n = true)
    (hv : h.lookup n = some v) (hother : ∀ n', isNamed field n' = true → n' ≠ n → h.lookup n' = none) :
    fields field (order.list h) = [(n, v)] := by
  have hall : ∀ l ∈ fields field (order.list h), l = (n, v) := by
    intro l hl
    obtain ⟨hlookup, hnamed⟩ := (mem_fields_list order).mp hl
    have hname : l.1 = n := by
      by_contra hne
      rw [hother l.1 hnamed hne] at hlookup
      cases hlookup
    rw [hname, hv] at hlookup
    exact Prod.ext hname (Option.some.inj hlookup).symm
  have hnodup : (fields field (order.list h)).Nodup := (order.nodup_names h).of_map.filter _
  have hmem : (n, v) ∈ fields field (order.list h) := (mem_fields_list order).mpr ⟨hv, hn⟩
  by_contra hne
  rcases (hnodup.ne_singleton_iff (n, v)).mp hne with hnil | ⟨l, hl, hne⟩
  · rw [hnil] at hmem
    cases hmem
  · exact hne (hall l hl)

end Framing

/-! ## A length with digits before it -/

/-- Every byte but the digit zero. -/
def notZero (b : UInt8) : Bool := b ≠ 48

theorem digitsValue_append (u ds : Bytes) :
    digitsValue (u ++ ds) = digitsValue u * 10 ^ ds.length + digitsValue ds := by
  induction ds using List.reverseRecOn with
  | nil => simp [digitsValue]
  | append_singleton ds d ih =>
    have hstep : ∀ xs : Bytes, digitsValue (xs ++ [d]) = 10 * digitsValue xs + (d.toNat - 48) :=
      fun xs => List.foldl_append
    rw [← List.append_assoc, hstep, hstep, ih, List.length_append, List.length_singleton, pow_succ]
    ring

theorem digitsValue_eq_zero_iff {u : Bytes} (hu : u.all isDigit = true) :
    digitsValue u = 0 ↔ u.any notZero = false := by
  induction u using List.reverseRecOn with
  | nil => exact iff_of_true rfl rfl
  | append_singleton u d ih =>
    rw [List.all_append, Bool.and_eq_true, List.all_cons, List.all_nil, Bool.and_true] at hu
    have hge : 48 ≤ d.toNat := by
      have hdigit : (48 ≤ d) ∧ d ≤ 57 := by simpa [isDigit] using hu.2
      exact UInt8.le_iff_toNat_le.mp hdigit.1
    have hd : digitsValue [d] = 0 ↔ notZero d = false := by
      have hval : digitsValue [d] = d.toNat - 48 := by simp [digitsValue]
      rw [hval, Nat.sub_eq_zero_iff_le, notZero, decide_eq_false_iff_not, not_not,
        ← UInt8.toNat_inj]
      exact ⟨fun hle => le_antisymm hle hge, fun heq => heq.le⟩
    rw [digitsValue_append, List.any_append, Bool.or_eq_false_iff, ← ih hu.1]
    simp [hd]

/-- **A length keeps its value behind zeros, and behind nothing else.** -/
theorem number_append {u v : Bytes} {n : ℕ} (hv : number v = some n) :
    number (u ++ v) = some n ↔ u.any notZero = false := by
  rw [number] at hv
  split at hv
  · rename_i hds
    obtain ⟨hne, hdigits⟩ := hds
    have hn : digitsValue (v.rdropWhile isBlank) = n := Option.some.inj hv
    have hdrop : (u ++ v).rdropWhile isBlank = u ++ v.rdropWhile isBlank := by
      have hrev : (v.reverse.dropWhile isBlank).isEmpty = false := by
        rw [List.isEmpty_eq_false_iff]
        exact fun hnil => hne (by rw [List.rdropWhile, hnil, List.reverse_nil])
      rw [List.rdropWhile, List.reverse_append, List.dropWhile_append, hrev, if_neg (by decide),
        List.reverse_append, List.reverse_reverse]
      rfl
    rw [number, hdrop]
    by_cases hu : u.all isDigit = true
    · rw [if_pos ⟨by simp [hne], by rw [List.all_append, hu, hdigits]; rfl⟩, Option.some.injEq,
        digitsValue_append, hn, ← digitsValue_eq_zero_iff hu, Nat.add_eq_right,
        Nat.mul_eq_zero, or_iff_left (by positivity)]
    · have hany : u.any notZero = true := by
        obtain ⟨b, hb, hbdigit⟩ := List.all_eq_false.mp (Bool.not_eq_true _ ▸ hu)
        refine List.any_eq_true.mpr ⟨b, hb, ?_⟩
        refine decide_eq_true fun h48 => hbdigit ?_
        rw [h48]
        rfl
      rw [if_neg fun h => hu (Bool.and_eq_true_iff.mp (List.all_append ▸ h.2)).1, hany]
      simp
  · cases hv

/-! ## The headers delivered, and the lines they come from -/

theorem announces_bodyFraming_iff {ls : List Line} {k : ℕ} :
    HttpMessage.Announces (bodyFraming ls) k ↔ fields "transfer-encoding" ls = []
      ∧ (fields "content-length" ls = [] ∧ k = 0
        ∨ ∃ l, fields "content-length" ls = [l] ∧ number l.2 = some k) := by
  rw [bodyFraming]
  rcases fields "transfer-encoding" ls with - | ⟨t, te⟩ <;>
    rcases fields "content-length" ls with - | ⟨l, - | ⟨l', cl⟩⟩
  · simp [HttpMessage.Announces]
  · cases hnum : number l.2 <;> simp [hnum, HttpMessage.Announces]
  · simp [HttpMessage.Announces]
  · by_cases hc : finalCoding (t :: te) = some (ascii "chunked") <;>
      simp [hc, HttpMessage.Announces]
  · simp [HttpMessage.Announces]
  · simp [HttpMessage.Announces]

theorem fields_ne_nil_of_chunked {ls : List Line} (h : bodyFraming ls = some .chunked) :
    fields "transfer-encoding" ls ≠ [] := by
  intro hnil
  rcases hcl : fields "content-length" ls with - | ⟨l, - | ⟨l', cl⟩⟩
  · simp [bodyFraming, hnil, hcl] at h
  · cases hnum : number l.2 <;> simp [bodyFraming, hnil, hcl, hnum] at h
  · simp [bodyFraming, hnil, hcl] at h

/-- **No length is read with residue before it**, zeros apart. -/
def LengthKept (r : Bool) (ls : List Line) : Prop :=
  ∀ earlier n v later, ls = earlier ++ (n, v) :: later → isNamed "content-length" n = true →
    finds notZero r earlier.reverse = false

section Lines

variable (order : HeaderOrder) {h : Headers} {r : Bytes} {ls : List Line} {field : String}

/-- The map lists something of a name when the lines do. -/
theorem fields_list_eq_nil_iff_lines
    (hh : ∀ n, isNamed field n = true → h.lookup n = (storeLines r ls).1.lookup n) :
    fields field (order.list h) = [] ↔ fields field ls = [] := by
  rw [fields_list_eq_nil_iff, fields, List.filter_eq_nil_iff]
  constructor
  · intro hnone l hl hnamed
    have hlookup := hnone l.1 hnamed
    rw [hh l.1 hnamed, ← Option.not_isSome_iff_eq_none, storeLines,
      SwapMap.isSome_lookup_store] at hlookup
    exact hlookup (List.mem_map_of_mem hl)
  · intro hnone n hnamed
    rw [hh n hnamed, ← Option.not_isSome_iff_eq_none, storeLines, SwapMap.isSome_lookup_store]
    rintro hmem
    obtain ⟨l, hl, rfl⟩ := List.mem_map.mp hmem
    exact hnone l hl hnamed

/-- The only line of a name, after the residue it found, is all that the map lists of it. -/
theorem fields_list_of_lines {earlier later : List Line} {n v : Bytes}
    (hh : ∀ n, isNamed field n = true → h.lookup n = (storeLines r ls).1.lookup n)
    (hls : ls = earlier ++ (n, v) :: later) (hn : isNamed field n = true)
    (honly : fields field ls = [(n, v)]) :
    fields field (order.list h)
      = [(n, SwapMap.residue (· ++ ·) [] r earlier.reverse ++ v)] := by
  have hsplit : fields field earlier ++ (n, v) :: fields field later = [(n, v)] := by
    rw [← honly, hls, fields, fields, fields, List.filter_append]
    have hcons : ((n, v) :: later).filter (fun l => isNamed field l.1)
        = (n, v) :: later.filter fun l => isNamed field l.1 := List.filter_cons_of_pos hn
    rw [hcons]
  have hlater : fields field later = [] := by
    have hlen := congrArg List.length hsplit
    rw [List.length_append, List.length_cons, List.length_singleton] at hlen
    exact List.length_eq_zero_iff.mp (by omega)
  refine fields_list_eq_singleton order hn ?_ fun n' hn' hne => ?_
  · have hnot : n ∉ later.map Prod.fst := by
      intro hmem
      obtain ⟨l, hl, rfl⟩ := List.mem_map.mp hmem
      exact List.filter_eq_nil_iff.mp hlater l hl hn
    rw [hh n hn, storeLines, hls, SwapMap.lookup_store _ _ r earlier n v hnot]
  · rw [hh n' hn', ← Option.not_isSome_iff_eq_none, storeLines, SwapMap.isSome_lookup_store]
    intro hmem
    obtain ⟨l, hl, rfl⟩ := List.mem_map.mp hmem
    have hl' : l ∈ fields field ls := List.mem_filter.mpr ⟨hl, hn'⟩
    rw [honly] at hl'
    exact hne (congrArg Prod.fst (List.mem_singleton.mp hl'))

/-- **The map announces the body that the lines announced exactly when the length is kept.** -/
theorem announces_list_iff {k : ℕ}
    (hh : ∀ field ∈ framingFields, ∀ n, isNamed field n = true →
      h.lookup n = (storeLines r ls).1.lookup n)
    (hls : HttpMessage.Announces (bodyFraming ls) k) :
    HttpMessage.Announces (bodyFraming (order.list h)) k ↔ LengthKept (r.any notZero) ls := by
  have hte := hh "transfer-encoding" (by decide)
  have hcl := hh "content-length" (by decide)
  obtain ⟨hte', hlen⟩ := announces_bodyFraming_iff.mp hls
  rw [announces_bodyFraming_iff, fields_list_eq_nil_iff_lines order hte,
    fields_list_eq_nil_iff_lines order hcl, and_iff_right hte']
  rcases hlen with ⟨hnone, hk⟩ | ⟨⟨n, v⟩, hone, hnum⟩
  · refine iff_of_true (.inl ⟨hnone, hk⟩) fun earlier n v later heq hn => ?_
    have hmem : (n, v) ∈ ls := by simp [heq]
    exact absurd hn (List.filter_eq_nil_iff.mp hnone _ hmem)
  · have hmem : (n, v) ∈ fields "content-length" ls := hone ▸ List.mem_singleton_self _
    obtain ⟨hmem, hn⟩ := List.mem_filter.mp hmem
    -- whichever way the lines are cut at the length, the residue before it decides
    have hcut : ∀ earlier later, ls = earlier ++ (n, v) :: later →
        ((∃ l, fields "content-length" (order.list h) = [l] ∧ number l.2 = some k)
          ↔ finds notZero (r.any notZero) earlier.reverse = false) := by
      intro earlier later heq
      rw [fields_list_of_lines order hcl heq hn hone, ← any_residue, ← number_append hnum]
      simp
    rw [hone, or_iff_right (by simp)]
    constructor
    · intro hl earlier n' v' later heq hn'
      have hmem' : (n', v') ∈ fields "content-length" ls :=
        List.mem_filter.mpr ⟨by simp [heq], hn'⟩
      rw [hone] at hmem'
      cases List.mem_singleton.mp hmem'
      exact (hcut earlier later heq).mp hl
    · intro hkept
      obtain ⟨earlier, later, heq⟩ := List.append_of_mem hmem
      exact (hcut earlier later heq).mpr (hkept earlier n v later heq hn)

end Lines

/-! ## Requests of a connection -/

/-- **A valid request**, as its lines say it: the parts are well formed, there are no trailers, and
the body is the one that the header lines announce. -/
structure Message.ValidRequest (m : Message LlhttpMethod) : Prop where
  target_ne_nil : m.text ≠ []
  target : m.text.all isTargetByte = true
  major_lt : m.major < 10
  minor_lt : m.minor < 10
  lines : ∀ l ∈ m.headerLines, IsName l.1 ∧ IsValue l.2
  no_trailers : m.trailers = []
  framed : match m.framing with
    | .plain _ => HttpMessage.Announces (bodyFraming m.headerLines) m.body.length
    | .chunked _ _ => bodyFraming m.headerLines = some .chunked

/-- **A request that can be serialised**: it is not chunked, and its length is read as it was sent. -/
def Message.Replayable (r : Bool) (m : Message LlhttpMethod) : Prop :=
  bodyFraming m.headerLines ≠ some .chunked ∧ LengthKept r m.headerLines

/-- …every one of a connection. -/
def ReplayableIn (r : Bool) : List (Message LlhttpMethod) → Prop
  | [] => True
  | m :: ms => m.Replayable r ∧ ReplayableIn (finds notZero r m.headerLines.reverse) ms

/-- What `ProxyHandler` makes of a request, for an upstream and a client. -/
structure ProxyHandler where
  hostPort : Bytes
  peerIpPort : Bytes
  hostPort_isValue : IsValue hostPort
  peerIpPort_isValue : IsValue peerIpPort

/-- The request that is forwarded.  The router gives the length of a prefix of the path; `substr` would
throw for one that goes beyond it. -/
def ProxyHandler.forward (proxy : ProxyHandler) (prefixLen : ℕ) (msg : HttpRequest) :
    Option HttpRequest :=
  if msg.text.length < prefixLen then none
  else
    let upPath := msg.text.drop prefixLen
    let upPath := if upPath = [] then ascii "/" else upPath
    some { msg with
      text := upPath
      headers := (msg.headers.insert (ascii "Host") proxy.hostPort).insert (ascii "X-Forwarded-For")
        proxy.peerIpPort }

namespace Message

variable {m : Message LlhttpMethod} {r : Bytes}

theorem ValidRequest.isValue (h : m.ValidRequest) (hr : IsValue r) :
    IsValue (storeLines r m.headerLines).2
      ∧ ∀ n v, (storeLines r m.headerLines).1.lookup n = some v → IsName n ∧ IsValue v := by
  obtain ⟨hres, hheld⟩ := SwapMap.forall_residue (· ++ ·) [] (fun _ _ => IsValue.append)
    isValue_nil hr m.headerLines.reverse fun l hl => (h.lines l (List.mem_reverse.mp hl)).2
  obtain ⟨hmap, hacc⟩ := SwapMap.foldl_store (· ++ ·) [] r m.headerLines
  refine ⟨?_, fun n v hv => ⟨?_, ?_⟩⟩
  · rw [storeLines, hacc]
    exact hres
  · have hsome : ((storeLines r m.headerLines).1.lookup n).isSome := by rw [hv]; rfl
    obtain ⟨l, hl, rfl⟩ := List.mem_map.mp ((SwapMap.isSome_lookup_store _ _ r n _).mp hsome)
    exact (h.lines l hl).1
  · rw [storeLines, hmap] at hv
    exact hheld n v hv

theorem ValidRequest.wellFormed (h : m.ValidRequest) (hr : IsValue r) : (m.received r).WellFormed :=
  ⟨h.target_ne_nil, h.target, h.major_lt, h.minor_lt, (h.isValue hr).2⟩

/-- **A valid request announces its body again exactly when it is replayable**, in any map that
agrees with the one delivered on the framing fields. -/
theorem ValidRequest.announces_iff (h : m.ValidRequest) (order : HeaderOrder) {h' : Headers}
    (hh : ∀ field ∈ framingFields, ∀ n, isNamed field n = true →
      h'.lookup n = (m.received r).headers.lookup n) :
    HttpMessage.Announces (bodyFraming (order.list h')) m.body.length
      ↔ m.Replayable (r.any notZero) := by
  have hframed := h.framed
  cases hf : m.framing with
  | plain spans =>
    rw [hf] at hframed
    rw [announces_list_iff order hh hframed, Replayable]
    refine (and_iff_right fun hchunked => ?_).symm
    rw [hchunked] at hframed
    exact hframed
  | chunked chunks trailers =>
    rw [hf] at hframed
    refine iff_of_false (fun hannounces => ?_) fun hreplayable => hreplayable.1 hframed
    have hte := (announces_bodyFraming_iff.mp hannounces).1
    rw [fields_list_eq_nil_iff_lines order (hh "transfer-encoding" (by decide))] at hte
    exact fields_ne_nil_of_chunked hframed hte

theorem ValidRequest.roundTrips_iff (h : m.ValidRequest) (hr : IsValue r) (order : HeaderOrder) :
    (m.received r).RoundTrips order ↔ m.Replayable (r.any notZero) :=
  ((h.wellFormed hr).roundTrips_iff order).trans
    (h.announces_iff order fun _ _ _ _ => rfl)

end Message

namespace ProxyHandler

variable {proxy : ProxyHandler} {prefixLen : ℕ} {q r : HttpRequest}

theorem forward_eq_some_iff : proxy.forward prefixLen q = some r ↔ prefixLen ≤ q.text.length
    ∧ r = { q with
        text := if q.text.drop prefixLen = [] then ascii "/" else q.text.drop prefixLen
        headers := (q.headers.insert (ascii "Host") proxy.hostPort).insert (ascii "X-Forwarded-For")
          proxy.peerIpPort } := by
  rw [forward]
  split
  · rename_i hlt
    exact iff_of_false nofun fun h => absurd h.1 (Nat.not_le_of_lt hlt)
  · rename_i hle
    rw [and_iff_right (Nat.le_of_not_lt hle), Option.some.injEq, eq_comm]

/-- What the router cuts off leaves a request. -/
theorem exists_forward (proxy : ProxyHandler) (h : prefixLen ≤ q.text.length) :
    ∃ r, proxy.forward prefixLen q = some r :=
  ⟨_, forward_eq_some_iff.mpr ⟨h, rfl⟩⟩

theorem text_forward (hr : proxy.forward prefixLen q = some r) :
    r.text = if q.text.drop prefixLen = [] then ascii "/" else q.text.drop prefixLen := by
  obtain ⟨-, rfl⟩ := forward_eq_some_iff.mp hr
  rfl

theorem body_forward (hr : proxy.forward prefixLen q = some r) : r.body = q.body := by
  obtain ⟨-, rfl⟩ := forward_eq_some_iff.mp hr
  rfl

theorem wellFormed_forward (h : q.WellFormed) (hr : proxy.forward prefixLen q = some r) :
    r.WellFormed := by
  have htext := text_forward hr
  obtain ⟨-, rfl⟩ := forward_eq_some_iff.mp hr
  refine ⟨?_, ?_, h.major_lt, h.minor_lt, fun n v hv => ?_⟩
  · rw [htext]
    split
    · decide
    · assumption
  · rw [htext]
    split
    · decide
    · exact List.all_eq_true.mpr fun b hb =>
        List.all_eq_true.mp h.target b (List.mem_of_mem_drop hb)
  · rcases eq_or_ne n (ascii "X-Forwarded-For") with rfl | hfor
    · rw [Finmap.lookup_insert, Option.some.injEq] at hv
      exact ⟨by decide, hv ▸ proxy.peerIpPort_isValue⟩
    · rw [Finmap.lookup_insert_of_ne _ hfor] at hv
      rcases eq_or_ne n (ascii "Host") with rfl | hhost
      · rw [Finmap.lookup_insert, Option.some.injEq] at hv
        exact ⟨by decide, hv ▸ proxy.hostPort_isValue⟩
      · rw [Finmap.lookup_insert_of_ne _ hhost] at hv
        exact h.headers n v hv

/-- The fields that say how long the body is are forwarded as they are. -/
theorem lookup_forward (hr : proxy.forward prefixLen q = some r) {field : String}
    (hfield : field ∈ framingFields) {n : Bytes} (hn : isNamed field n = true) :
    r.headers.lookup n = q.headers.lookup n := by
  have hfor : n ≠ ascii "X-Forwarded-For" := by
    rintro rfl
    exact absurd hn (by revert field; decide)
  have hhost : n ≠ ascii "Host" := by
    rintro rfl
    exact absurd hn (by revert field; decide)
  obtain ⟨-, rfl⟩ := forward_eq_some_iff.mp hr
  rw [Finmap.lookup_insert_of_ne _ hfor, Finmap.lookup_insert_of_ne _ hhost]

end ProxyHandler

namespace HttpParser

/-- What is delivered of valid requests is `received` of one of them, behind a residue that is a
value. -/
theorem exists_of_mem_deliveries {r : Bytes} (hr : IsValue r) {ms : List (Message LlhttpMethod)}
    (hvalid : ∀ m ∈ ms, m.ValidRequest) {q : HttpRequest} (hq : q ∈ deliveries r ms) :
    ∃ (m : Message LlhttpMethod) (r' : Bytes),
      m.ValidRequest ∧ IsValue r' ∧ q = m.received r' := by
  induction ms generalizing r with
  | nil => cases hq
  | cons m ms ih =>
    obtain ⟨hm, hms⟩ := List.forall_mem_cons.mp hvalid
    rcases List.mem_cons.mp hq with rfl | hq
    · exact ⟨m, r, hm, hr, rfl⟩
    · exact ih (hm.isValue hr).1 hms hq

theorem roundTrips_deliveries_iff (order : HeaderOrder) {r : Bytes} (hr : IsValue r)
    {ms : List (Message LlhttpMethod)} (hvalid : ∀ m ∈ ms, m.ValidRequest) :
    (∀ q ∈ deliveries r ms, q.RoundTrips order) ↔ ReplayableIn (r.any notZero) ms := by
  induction ms generalizing r with
  | nil => exact iff_of_true (fun q hq => absurd hq List.not_mem_nil) trivial
  | cons m ms ih =>
    obtain ⟨hm, hms⟩ := List.forall_mem_cons.mp hvalid
    rw [deliveries, List.forall_mem_cons, hm.roundTrips_iff hr order, ih (hm.isValue hr).1 hms,
      any_storeLines]
    rfl

/-- **Re-serialisation, exactly.**  Of the valid requests of a connection, every one delivered is
read back from its serialisation, with no byte left over or missing, if and only if none is chunked
and no length is read with residue before it; and what the proxy forwards, some of the path cut off, is
read back exactly when the request delivered is. -/
theorem roundTrips_iff_replayable (order : HeaderOrder) (ms : List (Message LlhttpMethod))
    (hvalid : ∀ m ∈ ms, m.ValidRequest) :
    ((∀ q ∈ ((new LlhttpMethod).parse ms).delivered, q.RoundTrips order) ↔ ReplayableIn false ms)
      ∧ ∀ q ∈ ((new LlhttpMethod).parse ms).delivered,
          ∀ (proxy : ProxyHandler), ∀ prefixLen ≤ q.text.length,
            ∃ r, proxy.forward prefixLen q = some r ∧ (r.RoundTrips order ↔ q.RoundTrips order) := by
  have hdel : ((new LlhttpMethod).parse ms).delivered = deliveries [] ms :=
    delivered_parse (new LlhttpMethod) rfl ms fun m hm => (hvalid m hm).no_trailers
  rw [hdel]
  refine ⟨roundTrips_deliveries_iff order isValue_nil hvalid, fun q hq proxy prefixLen hle => ?_⟩
  obtain ⟨m, residue, hm, hresidue, rfl⟩ := exists_of_mem_deliveries isValue_nil hvalid hq
  obtain ⟨r, hr⟩ := proxy.exists_forward hle
  have hforward := (ProxyHandler.wellFormed_forward (hm.wellFormed hresidue) hr).roundTrips_iff order
  refine ⟨r, hr, ?_⟩
  rw [hforward, hm.roundTrips_iff hresidue order, ProxyHandler.body_forward hr]
  exact hm.announces_iff order fun field hfield n hn => ProxyHandler.lookup_forward hr hfield hn

/-- A chunked request whose body is `ab`. -/
def chunkedRequest : Message LlhttpMethod :=
  ⟨.post, [ascii "/"], [.ofBytes (ascii "Transfer-Encoding") (ascii "chunked")], 1, 1,
    .chunked [[ascii "ab"]] []⟩

theorem validRequest_chunkedRequest : chunkedRequest.ValidRequest :=
  ⟨by decide, by decide, by decide, by decide, by decide, rfl,
    show bodyFraming chunkedRequest.headerLines = some .chunked by decide⟩

theorem roundTrips_iff_replayable_chunkedRequest :
    ((∀ q ∈ ((new LlhttpMethod).parse [chunkedRequest]).delivered, q.RoundTrips .ascending)
        ↔ ReplayableIn false [chunkedRequest])
      ∧ ∀ q ∈ ((new LlhttpMethod).parse [chunkedRequest]).delivered,
          ∀ (proxy : ProxyHandler), ∀ prefixLen ≤ q.text.length,
            ∃ r, proxy.forward prefixLen q = some r
              ∧ (r.RoundTrips .ascending ↔ q.RoundTrips .ascending) :=
  roundTrips_iff_replayable .ascending [chunkedRequest]
    (List.forall_mem_singleton.mpr validRequest_chunkedRequest)

/-- **A chunked request is not read back**: its serialisation announces chunks, and the two bytes that
follow are no chunk. -/
theorem chunkedRequest_not_roundTrips :
    ¬ ∀ q ∈ ((new LlhttpMethod).parse [chunkedRequest]).delivered, q.RoundTrips .ascending := by
  intro h
  have hq := h (chunkedRequest.received []) (by decide)
  have hreplayable := (validRequest_chunkedRequest.roundTrips_iff isValue_nil .ascending).mp hq
  exact hreplayable.1 (by decide)

end HttpParser
