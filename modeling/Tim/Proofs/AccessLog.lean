import Tim.Model.AccessLog
import Tim.Proofs.Gates
import Tim.Proofs.Text

/-!
# `Tim.Proofs.AccessLog`: which `traceparent` headers are inherited

The parser is compared with the grammar of the header, in both directions. `TraceParts` is what its
nine tests let through (`inherited_iff`), and a `Traceparent` is such a header with a span id that
is not all zero, as the comment on the parser asks. The parser has no test for the second, so it
keeps to the grammar on every header but those with an all-zero span id (`traceExact_iff`).

* `parse_of_parts`, `parse_of_no_parts`: what a request with such a header gets, and one without.
* `zero_span_inherited`: a request on which it does not.
-/

set_option autoImplicit false

namespace Tim.Web

/-! ### The grammar -/

/-- A hexadecimal digit, in either case. -/
def isHexChar (c : Char) : Bool :=
  (48 ≤ c.toNat && c.toNat ≤ 57) || (65 ≤ c.toNat && c.toNat ≤ 70)
    || (97 ≤ c.toNat && c.toNat ≤ 102)

/-- A text of `n` hexadecimal digits. -/
def HexText (n : Nat) (s : String) : Prop := s.length = n ∧ ∀ c ∈ s.toList, isHexChar c = true

/-- Some digit is not zero. -/
def NonZero (s : String) : Prop := ∃ c ∈ s.toList, c ≠ '0'

/-- The parts of a header of version 00 with a valid trace id. -/
structure TraceParts where
  traceId : String
  spanId : String
  flags : String
  traceId_hex : HexText 32 traceId
  traceId_nonZero : NonZero traceId
  spanId_hex : HexText 16 spanId
  flags_hex : HexText 2 flags

/-- The header with these parts. -/
def TraceParts.text (p : TraceParts) : String :=
  "00-" ++ p.traceId ++ "-" ++ p.spanId ++ "-" ++ p.flags

/-- The trace id and the flags that a request with this header is logged with. -/
def TraceParts.trace (p : TraceParts) : String × String :=
  (toAsciiLowercase p.traceId, toAsciiLowercase p.flags)

/-- A header of version 00: neither of its ids is all zero. -/
structure Traceparent extends TraceParts where
  spanId_nonZero : NonZero spanId

/-- The grammar decides what the parser returns: the parts of a header that is in it, and
otherwise an id that depends on nothing but the random bytes. -/
def TraceExact (req : HttpRequest) : Prop :=
  (∀ tp : Traceparent, req.rawHeader "traceparent" = some (asBytes tp.text) →
    ∀ bytes, parseOrGenerateTraceId req bytes = tp.trace)
  ∧ ((∀ tp : Traceparent, req.rawHeader "traceparent" ≠ some (asBytes tp.text)) →
    ∀ bytes, parseOrGenerateTraceId req bytes = freshTrace bytes)

/-- The header has an all-zero span id and is otherwise in the grammar. -/
def ZeroSpan (req : HttpRequest) : Prop :=
  ∃ p : TraceParts, p.spanId = "0000000000000000"
    ∧ req.rawHeader "traceparent" = some (asBytes p.text)

/-! ### Hexadecimal texts -/

/-- The hexadecimal digits of both cases by their code points. -/
theorem isHexChar_iff {c : Char} :
    isHexChar c = true ↔ 48 ≤ c.toNat ∧ c.toNat ≤ 57 ∨ 65 ≤ c.toNat ∧ c.toNat ≤ 70
      ∨ 97 ≤ c.toNat ∧ c.toNat ≤ 102 := by
  simp only [isHexChar, Bool.or_eq_true, Bool.and_eq_true, decide_eq_true_eq, or_assoc]

/-- A hexadecimal digit may stand in a header. -/
theorem isHexChar_header {c : Char} (h : isHexChar c = true) : isHeaderChar c = true := by
  simp only [isHexChar, isHeaderChar, Bool.or_eq_true, Bool.and_eq_true, decide_eq_true_eq] at h ⊢
  omega

/-- A hexadecimal text has no hyphen, so it is one part of a header that is split at them. -/
theorem HexText.not_mem {n : Nat} {s : String} (h : HexText n s) : '-' ∉ s.toList :=
  fun hmem => absurd (h.2 _ hmem) (by decide)

/-- The same code points again, as bytes. -/
theorem isAsciiHexdigit_ofNat {n : Nat} (h : n < 256) :
    isAsciiHexdigit (UInt8.ofNat n) = true
      ↔ 48 ≤ n ∧ n ≤ 57 ∨ 65 ≤ n ∧ n ≤ 70 ∨ 97 ≤ n ∧ n ≤ 102 := by
  simp [isAsciiHexdigit, UInt8.le_iff_toNat_le, or_assoc, Nat.mod_eq_of_lt h]

/-- The test on the bytes of a part is a test on its characters. -/
theorem isHexText_iff {n : Nat} {s : String} : isHexText n s = true ↔ HexText n s := by
  have hchars : ∀ l : List Char, (∀ c ∈ l, c.toNat < 128) →
      ((l.map fun c => UInt8.ofNat c.toNat).all isAsciiHexdigit = true
        ↔ ∀ c ∈ l, isHexChar c = true) := by
    intro l hl
    rw [List.all_map, List.all_eq_true]
    refine forall₂_congr fun c hc => ?_
    have := hl c hc
    rw [Function.comp_apply, isAsciiHexdigit_ofNat (by omega)]
    simp [isHexChar, or_assoc]
  simp only [isHexText, Bool.and_eq_true, beq_iff_eq, HexText]
  constructor
  · rintro ⟨hlen, hall⟩
    -- Bytes that are hex digits are ASCII, so the length in bytes is that in characters.
    have hascii : ∀ c ∈ s.toList, c.toNat < 128 := by
      apply ascii_of_asBytes
      intro b hb
      have hdigit := List.all_eq_true.mp hall b hb
      rw [← UInt8.ofNat_toNat (x := b), isAsciiHexdigit_ofNat b.toNat_lt] at hdigit
      omega
    rw [asBytes_of_ascii hascii] at hlen hall
    rw [List.length_map] at hlen
    exact ⟨hlen, (hchars _ hascii).mp hall⟩
  · rintro ⟨hlen, hall⟩
    have hascii : ∀ c ∈ s.toList, c.toNat < 128 := fun c hc => by
      have := isHeaderChar_lt (isHexChar_header (hall c hc))
      omega
    rw [asBytes_of_ascii hascii, List.length_map]
    exact ⟨hlen, (hchars _ hascii).mpr hall⟩

/-- The test against the constant of zeros. -/
theorem nonZero_iff {n : Nat} {s zeros : String} (hs : s.length = n)
    (hzeros : zeros.toList = List.replicate n '0') : s ≠ zeros ↔ NonZero s := by
  have heq : s = zeros ↔ ∀ c ∈ s.toList, c = '0' := by
    rw [← String.toList_inj, hzeros, List.eq_replicate_iff]
    exact and_iff_right hs
  rw [NonZero, ne_eq, heq]
  simp

/-- Only the zero itself is a zero in lower case. -/
theorem toLower_eq_zero {c : Char} (h : c.toLower = '0') : c = '0' := by
  unfold Char.toLower at h
  split at h
  · rename_i hupper
    -- A capital letter becomes a small one, never a digit.
    have hval := congrArg Char.toNat h
    simp only [Char.toNat] at hval
    have h1 : 65 ≤ c.val.toNat := UInt32.le_iff_toNat_le.mp hupper.1
    have h2 : c.val.toNat ≤ 90 := UInt32.le_iff_toNat_le.mp hupper.2
    rw [UInt32.toNat_add] at hval
    have h3 : ('0' : Char).val.toNat = 48 := rfl
    have h4 : ('a'.val - 'A'.val).toNat = 32 := rfl
    omega
  · exact h

/-- Writing an id in lower case does not make it zero. -/
theorem NonZero.toAsciiLowercase {s : String} (h : NonZero s) : NonZero (toAsciiLowercase s) := by
  obtain ⟨c, hc, hne⟩ := h
  refine ⟨c.toLower, ?_, fun heq => hne (toLower_eq_zero heq)⟩
  unfold Tim.toAsciiLowercase
  rw [String.toList_ofList]
  exact List.mem_map_of_mem hc

/-! ### The parser -/

namespace TraceParts

variable (p : TraceParts)

/-- The characters of the header: the version and the three parts, with hyphens between them. -/
theorem toList_text : p.text.toList = "00".toList ++ '-' :: (p.traceId.toList
    ++ '-' :: (p.spanId.toList ++ '-' :: p.flags.toList)) := by
  simp [text]

/-- The header can be cut into its parts. -/
theorem splitChar_text : splitChar p.text '-' = ["00", p.traceId, p.spanId, p.flags] := by
  -- From the last part to the first. No part has a hyphen, because each is hex.
  have hflags := splitChar_single p.flags_hex.not_mem
  have hspan := splitChar_append (s := String.ofList (p.spanId.toList ++ '-' :: p.flags.toList))
    (b := p.flags) p.spanId_hex.not_mem (String.toList_ofList)
  have htrace := splitChar_append (s := String.ofList (p.traceId.toList
      ++ '-' :: (p.spanId.toList ++ '-' :: p.flags.toList)))
    (b := String.ofList (p.spanId.toList ++ '-' :: p.flags.toList)) p.traceId_hex.not_mem
    (by simp)
  have hversion := splitChar_append (c := '-') (a := "00") (s := p.text)
    (b := String.ofList (p.traceId.toList ++ '-' :: (p.spanId.toList ++ '-' :: p.flags.toList)))
    (by decide) (by rw [toList_text, String.toList_ofList (l := p.traceId.toList ++ _)])
  rw [hversion, htrace, hspan, hflags]

/-- Every character of the header may stand in one, so the header is read as the text that was sent.
-/
theorem isHeaderChar_text : ∀ c ∈ p.text.toList, isHeaderChar c = true := by
  intro c hc
  rw [toList_text] at hc
  simp only [List.mem_append, List.mem_cons] at hc
  rcases hc with hc | rfl | hc | rfl | hc | rfl | hc
  · have hzero : c = '0' := by simpa using hc
    rw [hzero]
    decide
  · decide
  · exact isHexChar_header (p.traceId_hex.2 c hc)
  · decide
  · exact isHexChar_header (p.spanId_hex.2 c hc)
  · decide
  · exact isHexChar_header (p.flags_hex.2 c hc)

/-- The parts of a header are determined by it. -/
theorem spanId_of_text {p q : TraceParts} (h : p.text = q.text) : p.spanId = q.spanId := by
  have hparts := p.splitChar_text
  rw [h, q.splitChar_text] at hparts
  simp only [List.cons.injEq] at hparts
  exact hparts.2.2.1.symm

end TraceParts

/-- A trace is inherited from exactly the four parts that `TraceParts` describes. -/
theorem inheritedTrace_eq_some {parts : List String} {r : String × String} :
    inheritedTrace parts = some r ↔ ∃ p : TraceParts,
      parts = ["00", p.traceId, p.spanId, p.flags] ∧ r = p.trace := by
  have hzeros : ("00000000000000000000000000000000" : String).toList = List.replicate 32 '0' := by
    decide +kernel
  constructor
  · intro h
    unfold inheritedTrace at h
    split at h
    · rename_i version traceId spanId flags
      split at h
      · rename_i hok
        simp only [Bool.and_eq_true, decide_eq_true_eq, isHexText_iff] at hok
        -- The test has no condition on the span id but its form: an all-zero one passes.
        obtain ⟨⟨⟨⟨rfl, htrace⟩, hne⟩, hspan⟩, hflags⟩ := hok
        cases h
        exact ⟨⟨traceId, spanId, flags, htrace, (nonZero_iff htrace.1 hzeros).mp hne, hspan,
          hflags⟩, rfl, rfl⟩
      · cases h
    · cases h
  · rintro ⟨p, rfl, rfl⟩
    have hne := (nonZero_iff p.traceId_hex.1 hzeros).mpr p.traceId_nonZero
    simp only [inheritedTrace]
    rw [if_pos]
    · rfl
    · simp only [Bool.and_eq_true, decide_eq_true_eq, isHexText_iff]
      exact ⟨⟨⟨⟨trivial, p.traceId_hex⟩, hne⟩, p.spanId_hex⟩, p.flags_hex⟩

/-- What is inherited is the trace of a header that has these parts. -/
theorem inherited_iff {req : HttpRequest} {r : String × String} :
    ((req.header "traceparent").bind fun tp => inheritedTrace (splitChar tp '-')) = some r
      ↔ ∃ p : TraceParts, req.rawHeader "traceparent" = some (asBytes p.text)
        ∧ r = p.trace := by
  rw [Option.bind_eq_some_iff]
  constructor
  · rintro ⟨tp, htp, hr⟩
    obtain ⟨p, hparts, rfl⟩ := inheritedTrace_eq_some.mp hr
    -- A split can be undone, so the four parts determine the header.
    have htext : tp = p.text := by
      apply String.toList_injective
      rw [← intercalate_splitChar tp '-', hparts, p.toList_text]
      simp [List.intercalate]
    exact ⟨p, htext ▸ (HttpRequest.header_eq_some.mp htp).1, rfl⟩
  · rintro ⟨p, hraw, rfl⟩
    refine ⟨p.text, HttpRequest.header_eq_some.mpr ⟨hraw, p.isHeaderChar_text⟩, ?_⟩
    exact inheritedTrace_eq_some.mpr ⟨p, p.splitChar_text, rfl⟩

/-- A header of that form gives the trace and the span of its parts, whatever the random bytes are.
-/
theorem parse_of_parts {req : HttpRequest} {p : TraceParts}
    (h : req.rawHeader "traceparent" = some (asBytes p.text)) (bytes : Vector UInt8 16) :
    parseOrGenerateTraceId req bytes = p.trace := by
  unfold parseOrGenerateTraceId
  rw [inherited_iff.mpr ⟨p, h, rfl⟩]

/-- Any other header, or none, gives a fresh trace from the random bytes. -/
theorem parse_of_no_parts {req : HttpRequest}
    (h : ∀ p : TraceParts, req.rawHeader "traceparent" ≠ some (asBytes p.text))
    (bytes : Vector UInt8 16) : parseOrGenerateTraceId req bytes = freshTrace bytes := by
  unfold parseOrGenerateTraceId
  split
  · rename_i r hr
    obtain ⟨p, hp, -⟩ := inherited_iff.mp hr
    exact absurd hp (h p)
  · rfl

/-- An inherited trace is not the one of sixteen zero bytes. -/
theorem TraceParts.trace_ne_fresh (p : TraceParts) :
    p.trace ≠ freshTrace (Vector.replicate 16 0) := by
  intro h
  obtain ⟨c, hc, hne⟩ := p.traceId_nonZero.toAsciiLowercase
  have hid : toAsciiLowercase p.traceId = String.ofList (List.replicate 32 '0') :=
    congrArg Prod.fst h
  rw [hid, String.toList_ofList] at hc
  exact hne (List.eq_of_mem_replicate hc)

/-- The sixteen zeros of the span id that the function does not test for. -/
theorem toList_zeros : ("0000000000000000" : String).toList = List.replicate 16 '0' := by
  decide +kernel

/-- A header with an all-zero span id is inherited, though it is not in the grammar. -/
theorem ZeroSpan.not_exact {req : HttpRequest} (h : ZeroSpan req) : ¬ TraceExact req := by
  obtain ⟨p, hspan, hraw⟩ := h
  rintro ⟨-, hfresh⟩
  have hnone : ∀ tp : Traceparent, req.rawHeader "traceparent" ≠ some (asBytes tp.text) := by
    intro tp heq
    rw [hraw, Option.some.injEq] at heq
    have hsame := TraceParts.spanId_of_text (asBytes_injective heq)
    have hne := (nonZero_iff tp.spanId_hex.1 toList_zeros).mpr tp.spanId_nonZero
    exact hne (hsame.symm.trans hspan)
  have hparse := parse_of_parts hraw (Vector.replicate 16 0)
  rw [hfresh hnone] at hparse
  exact p.trace_ne_fresh hparse.symm

/-- The parser keeps to the grammar on all headers but those with an all-zero span id. -/
theorem traceExact_iff (req : HttpRequest) : TraceExact req ↔ ¬ ZeroSpan req := by
  constructor
  · exact fun hexact hspan => hspan.not_exact hexact
  · intro hspan
    refine ⟨fun tp htp bytes => parse_of_parts htp bytes, fun hnone bytes => ?_⟩
    -- A header that passes the tests has some digit of its span id that is not zero.
    refine parse_of_no_parts (fun p hp => ?_) bytes
    by_cases hne : p.spanId = "0000000000000000"
    · exact hspan ⟨p, hne, hp⟩
    · exact hnone ⟨p, (nonZero_iff p.spanId_hex.1 toList_zeros).mp hne⟩ hp

open Sample in
/-- A header with an all-zero span id, on a request for the health of the server. -/
theorem zero_span_inherited :
    ¬ TraceExact (request .get ["health"]
      [("traceparent", "00-0af7651916cd43dd8448eb211c80319c-0000000000000000-01")] "") := by
  have htrace : HexText 32 "0af7651916cd43dd8448eb211c80319c" :=
    isHexText_iff.mp (by decide +kernel)
  have hspan : HexText 16 "0000000000000000" := isHexText_iff.mp (by decide +kernel)
  have hflags : HexText 2 "01" := isHexText_iff.mp (by decide +kernel)
  have hne : NonZero "0af7651916cd43dd8448eb211c80319c" := ⟨'a', by decide +kernel, by decide⟩
  have hraw : (request .get ["health"]
      [("traceparent", "00-0af7651916cd43dd8448eb211c80319c-0000000000000000-01")] "").rawHeader
        "traceparent"
      = some (asBytes ("00-" ++ "0af7651916cd43dd8448eb211c80319c" ++ "-" ++ "0000000000000000"
        ++ "-" ++ "01")) := by
    decide +kernel
  apply ZeroSpan.not_exact
  exact ⟨⟨_, _, _, htrace, hne, hspan, hflags⟩, rfl, hraw⟩

end Tim.Web
