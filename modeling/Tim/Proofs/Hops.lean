import Tim.Proofs.Hex

/-!
# `Tim.Proofs.Hops`: a trace that is passed on

A caller that puts the `traceparent` of a reply on its next request stays in one trace. The headers
that the middleware writes are in the grammar that its parser accepts, and in lower case the parser
gives back what was written (`LowerHex.trace_eq`). So the trace of the first reply is a fixed point,
and `trace_stable` carries it over any number of hops.

* `LowerHex.toAsciiLowercase_eq`: what is in lower case stays as it is.
* `attach_of_header`: the middleware can attach what it has formed.
* `LowerTrace.parse_next`, `LowerTrace.on_hopReply`: one hop.
* `upper_case_not_kept`: a trace that arrives in upper case comes back in lower case.
-/

set_option autoImplicit false

namespace Tim.Web

open Tim.Boot

/-! ### Lower case -/

/-- A hexadecimal digit in lower case. -/
def isLowerHexChar (c : Char) : Bool :=
  (48 ≤ c.toNat && c.toNat ≤ 57) || (97 ≤ c.toNat && c.toNat ≤ 102)

/-- A text of `n` hexadecimal digits in lower case. -/
def LowerHex (n : Nat) (s : String) : Prop :=
  s.length = n ∧ ∀ c ∈ s.toList, isLowerHexChar c = true

/-- The lower-case hexadecimal digits by their code points. -/
theorem isLowerHexChar_iff {c : Char} :
    isLowerHexChar c = true
      ↔ 48 ≤ c.toNat ∧ c.toNat ≤ 57 ∨ 97 ≤ c.toNat ∧ c.toNat ≤ 102 := by
  simp only [isLowerHexChar, Bool.or_eq_true, Bool.and_eq_true, decide_eq_true_eq]

/-- They are hexadecimal digits. -/
theorem isHexChar_of_lower {c : Char} (h : isLowerHexChar c = true) : isHexChar c = true := by
  rw [isLowerHexChar_iff] at h
  rw [isHexChar_iff]
  omega

/-- A lower-case text is a hexadecimal one of the same length. -/
theorem LowerHex.hexText {n : Nat} {s : String} (h : LowerHex n s) : HexText n s :=
  ⟨h.1, fun c hc => isHexChar_of_lower (h.2 c hc)⟩

/-- Lower case is taken character by character. -/
theorem toList_toAsciiLowercase (s : String) :
    (toAsciiLowercase s).toList = s.toList.map Char.toLower := by
  unfold toAsciiLowercase
  rw [String.toList_ofList]

/-- A text in lower case is its own lower case. -/
theorem LowerHex.toAsciiLowercase_eq {n : Nat} {s : String} (h : LowerHex n s) :
    toAsciiLowercase s = s := by
  have hid : ∀ c ∈ s.toList, c.toLower = id c := by
    intro c hc
    have hlower := isLowerHexChar_iff.mp (h.2 c hc)
    rw [id, ← Char.toNat_inj, toNat_toLower, if_neg (by omega)]
  apply String.toList_injective
  rw [toList_toAsciiLowercase, List.map_congr_left hid, List.map_id]

/-- A hexadecimal text in lower case. -/
theorem HexText.lowerHex {n : Nat} {s : String} (h : HexText n s) :
    LowerHex n (toAsciiLowercase s) := by
  constructor
  · rw [← String.length_toList, toList_toAsciiLowercase, List.length_map, String.length_toList,
      h.1]
  · intro c hc
    rw [toList_toAsciiLowercase] at hc
    obtain ⟨d, hd, rfl⟩ := List.mem_map.mp hc
    have hhex := isHexChar_iff.mp (h.2 d hd)
    rw [isLowerHexChar_iff, toNat_toLower]
    split
    · omega
    · omega

/-- The encoder writes lower case, so its texts stay as they are. -/
theorem lowerHex_hexEncode (bytes : Bytes) : LowerHex (2 * bytes.length) (hexEncode bytes) := by
  rw [← toAsciiLowercase_hexEncode]
  exact (hexText_hexEncode bytes).lowerHex

/-- Random bytes that are not all zero have a digit that is not zero. -/
theorem nonZero_hexEncode {bytes : Vector UInt8 16} (h : bytes ≠ Vector.replicate 16 0) :
    NonZero (hexEncode bytes.toList) := by
  have hzeros : (hexEncode (List.replicate 16 0)).toList = List.replicate 32 '0' := by
    decide +kernel
  have hlen : (hexEncode bytes.toList).length = 32 := by
    rw [(hexText_hexEncode bytes.toList).1]
    simp
  apply (nonZero_iff hlen hzeros).mp
  intro heq
  apply h
  apply Vector.toList_inj.mp
  rw [hexEncode_injective heq]
  rfl

/-! ### One hop -/

/-- A trace as the middleware writes it: digits in lower case, and an id that is not all zero. -/
structure LowerTrace where
  traceId : String
  flags : String
  traceId_hex : LowerHex 32 traceId
  traceId_nonZero : NonZero traceId
  flags_hex : LowerHex 2 flags

namespace LowerTrace

variable (t : LowerTrace)

/-- The header of the trace, with the span of one request. -/
def text (spanId : String) : String := "00-" ++ t.traceId ++ "-" ++ spanId ++ "-" ++ t.flags

/-- The headers carry the trace, in both of the forms that the middleware writes. -/
def On (headers : Headers) : Prop :=
  headers.getAll "x-trace-id" = [asBytes t.traceId]
    ∧ ∃ spanId, LowerHex 16 spanId ∧ headers.getAll "traceparent" = [asBytes (t.text spanId)]

/-- What the middleware writes is in the grammar of the parser. -/
def parts {spanId : String} (h : LowerHex 16 spanId) : TraceParts where
  traceId := t.traceId
  spanId := spanId
  flags := t.flags
  traceId_hex := t.traceId_hex.hexText
  traceId_nonZero := t.traceId_nonZero
  spanId_hex := h.hexText
  flags_hex := t.flags_hex.hexText

/-- The header with a span is the text of the trace with that span. -/
theorem text_parts {spanId : String} (h : LowerHex 16 spanId) :
    (t.parts h).text = t.text spanId := rfl

/-- The parser gives back what was written. -/
theorem trace_parts {spanId : String} (h : LowerHex 16 spanId) :
    (t.parts h).trace = (t.traceId, t.flags) := by
  simp only [TraceParts.trace, parts, t.traceId_hex.toAsciiLowercase_eq,
    t.flags_hex.toAsciiLowercase_eq]

end LowerTrace

/-- The trace that a header is read as. -/
def TraceParts.lower (p : TraceParts) : LowerTrace where
  traceId := toAsciiLowercase p.traceId
  flags := toAsciiLowercase p.flags
  traceId_hex := p.traceId_hex.lowerHex
  traceId_nonZero := p.traceId_nonZero.toAsciiLowercase
  flags_hex := p.flags_hex.lowerHex

/-- The trace of random bytes. -/
def freshLower (bytes : Vector UInt8 16) (h : bytes ≠ Vector.replicate 16 0) : LowerTrace where
  traceId := hexEncode bytes.toList
  flags := "01"
  traceId_hex := by simpa using lowerHex_hexEncode bytes.toList
  traceId_nonZero := nonZero_hexEncode h
  flags_hex := ⟨rfl, List.all_eq_true.mp (by decide)⟩

/-- A span id that is made here is in lower case already. -/
theorem lowerHex_freshSpanId (bytes : Vector UInt8 8) : LowerHex 16 (freshSpanId bytes) := by
  simpa [freshSpanId] using lowerHex_hexEncode bytes.toList

/-! ### Headers -/

section Headers

variable {headers : Headers} {name other text : String}

/-- The inserted header is the only one by its name. -/
@[simp] theorem getAll_insert_self (value : Bytes) :
    (headers.insert name value).getAll name = [value] := by
  simp [Headers.insert, Headers.getAll]

/-- Headers by other names stay. -/
theorem getAll_insert_of_ne (value : Bytes) (h : other ≠ name) :
    (headers.insert name value).getAll other = headers.getAll other := by
  simp only [Headers.insert, Headers.getAll, List.filter_append, List.filter_filter,
    List.filter_cons, List.filter_nil, decide_eq_true_eq, h.symm, if_false, List.append_nil]
  congr 2
  funext field
  by_cases hfield : field.1 = other
  · simp [hfield, h]
  · simp [hfield]

/-- Every character of a readable header is a byte that one may hold. -/
theorem headerByte_of_header {c : Char} (h : isHeaderChar c = true) :
    (decide (UInt8.ofNat c.toNat = 9)
      || decide (32 ≤ UInt8.ofNat c.toNat) && decide (UInt8.ofNat c.toNat ≠ 127)) = true := by
  have hlt := isHeaderChar_lt h
  simp only [isHeaderChar, Bool.or_eq_true, Bool.and_eq_true, decide_eq_true_eq] at h
  have hbyte : (UInt8.ofNat c.toNat).toNat = c.toNat := by
    rw [UInt8.toNat_ofNat', Nat.mod_eq_of_lt (by omega)]
  simp only [Bool.or_eq_true, Bool.and_eq_true, decide_eq_true_eq, ne_eq, UInt8.le_iff_toNat_le,
    ← UInt8.toNat_inj, hbyte, UInt8.reduceToNat]
  omega

/-- Every text of visible ASCII can be put in a header. -/
theorem attach_of_header (h : ∀ c ∈ text.toList, isHeaderChar c = true) :
    headers.attach name text = headers.insert name (asBytes text) := by
  have hascii : ∀ c ∈ text.toList, c.toNat < 128 := fun c hc =>
    Nat.lt_succ_of_lt (isHeaderChar_lt (h c hc))
  have hall : (asBytes text).all (fun b => b = 9 || 32 ≤ b && b ≠ 127) = true := by
    rw [asBytes_of_ascii hascii, List.all_map, List.all_eq_true]
    intro c hc
    exact headerByte_of_header (h c hc)
  unfold Headers.attach headerValue
  rw [if_pos hall]

end Headers

/-- The middleware puts the trace of the request on the reply. -/
theorem LowerTrace.on_middleware {t : LowerTrace} {req : HttpRequest} {draws : Draws}
    (h : parseOrGenerateTraceId req draws.trace = (t.traceId, t.flags))
    (next : HttpRequest → Headers) : t.On (accessLogMiddleware next req draws) := by
  have hspan := lowerHex_freshSpanId draws.span
  have hparent := (t.parts hspan).isHeaderChar_text
  have hid : ∀ c ∈ t.traceId.toList, isHeaderChar c = true := fun c hc =>
    isHexChar_header (t.traceId_hex.hexText.2 c hc)
  have hreply : accessLogMiddleware next req draws
      = ((next req).insert "traceparent" (asBytes (t.text (freshSpanId draws.span)))).insert
        "x-trace-id" (asBytes t.traceId) := by
    unfold accessLogMiddleware
    rw [h]
    dsimp only
    rw [attach_of_header hid]
    exact congrArg (Headers.insert · _ _) (attach_of_header hparent)
  rw [hreply]
  refine ⟨getAll_insert_self _, _, hspan, ?_⟩
  rw [getAll_insert_of_ne _ (by decide), getAll_insert_self]

/-! ### Many hops -/

/-- One request on the way: what its caller sends apart from the trace, the rest of the server
behind the middleware, and the random bytes. -/
structure Hop where
  req : HttpRequest
  next : HttpRequest → Headers
  draws : Draws

/-- The request with these `traceparent` headers in place of its own. -/
def HttpRequest.withTraceparent (req : HttpRequest) (values : List Bytes) : HttpRequest :=
  { req with headers := req.headers.filter (fun h => h.1 ≠ "traceparent")
      ++ values.map fun value => ("traceparent", value) }

/-- The `n`-th request: from the second on with the `traceparent` of the reply before. -/
def hopRequest (hops : Nat → Hop) : Nat → HttpRequest
  | 0 => (hops 0).req
  | n + 1 => (hops (n + 1)).req.withTraceparent
      ((accessLogMiddleware (hops n).next (hopRequest hops n) (hops n).draws).getAll "traceparent")

/-- The headers of the `n`-th reply. -/
def hopReply (hops : Nat → Hop) (n : Nat) : Headers :=
  accessLogMiddleware (hops n).next (hopRequest hops n) (hops n).draws

/-- The next hop gets the header that was written. -/
theorem rawHeader_withTraceparent (req : HttpRequest) (value : Bytes) :
    (req.withTraceparent [value]).rawHeader "traceparent" = some value := by
  have hnone : (req.headers.filter fun h => h.1 ≠ "traceparent").find?
      (fun h => h.1 = "traceparent") = none := by
    rw [List.find?_eq_none]
    intro h hmem
    simpa using (List.mem_filter.mp hmem).2
  unfold HttpRequest.rawHeader HttpRequest.withTraceparent
  dsimp only
  rw [List.find?_append, hnone]
  rfl

/-- The request after a reply that carries the trace is read as part of it. -/
theorem LowerTrace.parse_next {t : LowerTrace} {headers : Headers} (h : t.On headers)
    (req : HttpRequest) (bytes : Vector UInt8 16) :
    parseOrGenerateTraceId (req.withTraceparent (headers.getAll "traceparent")) bytes
      = (t.traceId, t.flags) := by
  obtain ⟨-, spanId, hspan, hvalue⟩ := h
  rw [← t.text_parts hspan] at hvalue
  rw [hvalue, parse_of_parts (rawHeader_withTraceparent req _), t.trace_parts]

/-- A trace that is on the first reply is on all. -/
theorem LowerTrace.on_hopReply {t : LowerTrace} {hops : Nat → Hop} (h : t.On (hopReply hops 0)) :
    ∀ n, t.On (hopReply hops n) := by
  intro n
  induction n with
  | zero => exact h
  | succ n ih => exact LowerTrace.on_middleware (t.parse_next ih _ _) _

/-- A request is read as part of some trace: that of its header, or a fresh one. -/
theorem exists_lowerTrace (req : HttpRequest) {bytes : Vector UInt8 16}
    (h : bytes ≠ Vector.replicate 16 0) :
    ∃ t : LowerTrace, parseOrGenerateTraceId req bytes = (t.traceId, t.flags) := by
  by_cases hparts : ∃ p : TraceParts, req.rawHeader "traceparent" = some (asBytes p.text)
  · obtain ⟨p, hp⟩ := hparts
    exact ⟨p.lower, parse_of_parts hp bytes⟩
  · exact ⟨freshLower bytes h, parse_of_no_parts (fun p hp => hparts ⟨p, hp⟩) bytes⟩

/-- All replies carry one trace when each request repeats the `traceparent` of the reply before.
It is the trace of the first header, in lower case, if that is accepted (`inherited_iff`). Only the
first request can need the random bytes. -/
theorem trace_stable (hops : Nat → Hop) (hrandom : (hops 0).draws.trace ≠ Vector.replicate 16 0) :
    ∃ t : LowerTrace, (∀ n, t.On (hopReply hops n))
      ∧ ∀ p : TraceParts, (hops 0).req.rawHeader "traceparent" = some (asBytes p.text) →
        t.traceId = toAsciiLowercase p.traceId ∧ t.flags = toAsciiLowercase p.flags := by
  obtain ⟨t, ht⟩ := exists_lowerTrace (hops 0).req hrandom
  have hfirst : t.On (hopReply hops 0) := LowerTrace.on_middleware ht _
  refine ⟨t, t.on_hopReply hfirst, fun p hp => ?_⟩
  rw [parse_of_parts hp] at ht
  exact ⟨(congrArg Prod.fst ht).symm, (congrArg Prod.snd ht).symm⟩

/-- Parts in upper case. -/
def upperParts : TraceParts where
  traceId := "0AF7651916CD43DD8448EB211C80319C"
  spanId := "B7AD6B7169203331"
  flags := "0A"
  traceId_hex := isHexText_iff.mp (by decide +kernel)
  traceId_nonZero := ⟨'A', by decide +kernel, by decide⟩
  spanId_hex := isHexText_iff.mp (by decide +kernel)
  flags_hex := isHexText_iff.mp (by decide +kernel)

open Sample in
/-- A request for the health of the server with a header in upper case. -/
def upperHop : Hop where
  req := request .get ["health"] [("traceparent", upperParts.text)] ""
  next := fun _ => []
  draws := ⟨Vector.replicate 16 1, Vector.replicate 8 2⟩

/-- The header of the sample request has upper-case digits. -/
theorem rawHeader_upperHop :
    upperHop.req.rawHeader "traceparent" = some (asBytes upperParts.text) := rfl

/-- From the first reply on, the sample trace is in lower case and stays the same. -/
theorem trace_stable_upper :
    ∃ t : LowerTrace, (∀ n, t.On (hopReply (fun _ => upperHop) n))
      ∧ t.traceId = "0af7651916cd43dd8448eb211c80319c" ∧ t.flags = "0a" := by
  have hid : toAsciiLowercase upperParts.traceId = "0af7651916cd43dd8448eb211c80319c" := by
    decide +kernel
  have hflags : toAsciiLowercase upperParts.flags = "0a" := by decide +kernel
  obtain ⟨t, hon, hcaller⟩ := trace_stable (fun _ => upperHop) (by decide)
  obtain ⟨htrace, hf⟩ := hcaller upperParts rawHeader_upperHop
  exact ⟨t, hon, htrace.trans hid, hf.trans hflags⟩

/-- A trace id that the caller writes in upper case does not come back as it was. -/
theorem upper_case_not_kept :
    ¬ ∀ hops : Nat → Hop, (hops 0).draws.trace ≠ Vector.replicate 16 0 →
      ∀ p : TraceParts, (hops 0).req.rawHeader "traceparent" = some (asBytes p.text) →
        ∀ n, (hopReply hops n).getAll "x-trace-id" = [asBytes p.traceId] := by
  intro h
  have hupper := h (fun _ => upperHop) (by decide) upperParts rawHeader_upperHop 0
  have hon : upperParts.lower.On (hopReply (fun _ => upperHop) 0) :=
    LowerTrace.on_middleware (parse_of_parts rawHeader_upperHop _) _
  rw [hon.1, List.singleton_inj] at hupper
  exact absurd (asBytes_injective hupper) (by decide +kernel)

end Tim.Web
