import Tim.Proofs.AccessLog
import Tim.Proofs.Doctor

/-!
# `Tim.Proofs.Hex`: the hexadecimal codec and the session key

The encoder of `src/oauth2/flow.rs` and the decoder of `src/oauth2/session/crypto.rs` are written
apart. The bridge between them is `hexEncode_of_hexDecode`: encoding what was decoded gives the text
back, in lower case and without the white space around it. The encoder is injective, so the round
trip and the equality of two keys follow.

* `exists_hexDecode`: the texts that are decoded.
* `hexDecode_lowerDigits`: the case of a digit matters neither to the bytes nor to the error.
* `exists_fromHexKey_iff`: the texts that are taken for a key.
* `hex_codec`: the round trip, the domain, the case of the digits, and the equality of keys.
-/

set_option autoImplicit false

namespace Tim.Boot

open Tim.Lib Tim.Web

/-! ### Digits -/

/-- The value of a letter, counted from the first one of its case. -/
theorem toNat_letter {b first : UInt8} (h : first ≤ b) (hlt : b.toNat < 246) :
    (b - first + 10).toNat = b.toNat - first.toNat + 10 := by
  have hmod : (b.toNat - first.toNat + 10) % 256 = b.toNat - first.toNat + 10 :=
    Nat.mod_eq_of_lt (by omega)
  rw [UInt8.toNat_add, UInt8.toNat_sub_of_le _ _ h]
  exact hmod

/-- What a digit reads as, by the range that it is in. -/
theorem fromHexDigit_cases {b x : UInt8} (h : fromHexDigit b = .ok x) :
    (48 ≤ b.toNat ∧ b.toNat ≤ 57 ∧ x.toNat = b.toNat - 48)
      ∨ (97 ≤ b.toNat ∧ b.toNat ≤ 102 ∧ x.toNat = b.toNat - 97 + 10)
      ∨ (65 ≤ b.toNat ∧ b.toNat ≤ 70 ∧ x.toNat = b.toNat - 65 + 10) := by
  unfold fromHexDigit at h
  split at h
  case isTrue hb =>
      cases h
      exact .inl ⟨UInt8.le_iff_toNat_le.mp hb.1, UInt8.le_iff_toNat_le.mp hb.2,
        UInt8.toNat_sub_of_le _ _ hb.1⟩
  split at h
  case isTrue hb =>
      cases h
      have hle : b.toNat ≤ 102 := UInt8.le_iff_toNat_le.mp hb.2
      exact .inr (.inl ⟨UInt8.le_iff_toNat_le.mp hb.1, hle, toNat_letter hb.1 (by omega)⟩)
  split at h
  case isTrue hb =>
      cases h
      have hle : b.toNat ≤ 70 := UInt8.le_iff_toNat_le.mp hb.2
      exact .inr (.inr ⟨UInt8.le_iff_toNat_le.mp hb.1, hle, toNat_letter hb.1 (by omega)⟩)
  case isFalse => cases h

/-- A digit reads as its value, and the value is written in lower case. -/
theorem fromHexDigit_spec {b x : UInt8} (h : fromHexDigit b = .ok x) :
    x.toNat < 16 ∧ Nat.digitChar x.toNat = (Char.ofNat b.toNat).toLower := by
  have hdecimal : ∀ n < 10, Nat.digitChar n = (Char.ofNat (48 + n)).toLower := by decide
  have hlower : ∀ n < 6, Nat.digitChar (n + 10) = (Char.ofNat (97 + n)).toLower := by decide
  have hupper : ∀ n < 6, Nat.digitChar (n + 10) = (Char.ofNat (65 + n)).toLower := by decide
  rcases fromHexDigit_cases h with ⟨hge, hle, hx⟩ | ⟨hge, hle, hx⟩ | ⟨hge, hle, hx⟩
  · rw [hx, hdecimal _ (by omega), Nat.add_sub_cancel' hge]
    exact ⟨by omega, rfl⟩
  · rw [hx, hlower _ (by omega), Nat.add_sub_cancel' hge]
    exact ⟨by omega, rfl⟩
  · rw [hx, hupper _ (by omega), Nat.add_sub_cancel' hge]
    exact ⟨by omega, rfl⟩

/-- The two halves of a byte. -/
theorem toNat_halves {x y : UInt8} (hx : x.toNat < 16) (hy : y.toNat < 16) :
    (x <<< 4 ||| y).toNat = 16 * x.toNat + y.toNat := by
  have hshift : x.toNat <<< 4 = 16 * x.toNat := by
    rw [Nat.shiftLeft_eq]
    omega
  have hlt : x.toNat <<< 4 < 2 ^ 8 := by omega
  rw [UInt8.toNat_or, UInt8.toNat_shiftLeft]
  show x.toNat <<< 4 % 2 ^ 8 ||| y.toNat = _
  rw [Nat.mod_eq_of_lt hlt, ← Nat.shiftLeft_add_eq_or_of_lt (by omega), hshift]

/-- The digits of numbers below sixteen are hexadecimal digits. -/
theorem isHexChar_digitChar {n : Nat} (h : n < 16) : isHexChar (Nat.digitChar n) = true := by
  have hall : ∀ i : Fin 16, isHexChar (Nat.digitChar i) = true := by decide
  exact hall ⟨n, h⟩

/-- The encoder writes lower case. -/
theorem toLower_digitChar {n : Nat} (h : n < 16) :
    (Nat.digitChar n).toLower = Nat.digitChar n := by
  have hall : ∀ i : Fin 16, (Nat.digitChar i).toLower = Nat.digitChar i := by decide
  exact hall ⟨n, h⟩

/-- A hexadecimal digit is one byte long. -/
theorem isHexChar_ascii {c : Char} (h : isHexChar c = true) : c.toNat < 128 :=
  Nat.lt_succ_of_lt (isHeaderChar_lt (isHexChar_header h))

/-- A digit in lower case is a digit. -/
theorem isHexChar_toLower {c : Char} (h : isHexChar c = true) : isHexChar c.toLower = true := by
  rw [isHexChar_iff] at h ⊢
  rw [toNat_toLower]
  split
  · omega
  · omega

/-- A hexadecimal text is firm at both ends, so trimming leaves it as it is. -/
theorem isWhitespace_of_hex {c : Char} (h : isHexChar c = true) : isWhitespace c = false := by
  simp only [isHexChar, Bool.or_eq_true, Bool.and_eq_true, decide_eq_true_eq] at h
  simp only [isWhitespace, List.contains_eq_mem, List.mem_cons, List.not_mem_nil, or_false,
    Bool.or_eq_false_iff, Bool.and_eq_false_imp, decide_eq_true_eq, decide_eq_false_iff_not]
  omega

/-! ### The encoder -/

/-- What the encoder writes are digits of four bits each. -/
theorem mem_hexEncode {bytes : Bytes} {c : Char} (h : c ∈ (hexEncode bytes).toList) :
    ∃ n < 16, c = Nat.digitChar n := by
  rw [hexEncode, String.toList_ofList] at h
  obtain ⟨b, -, hc⟩ := List.mem_flatMap.mp h
  have hb := b.toNat_lt
  simp only [List.mem_cons, List.not_mem_nil, or_false] at hc
  rcases hc with rfl | rfl
  · exact ⟨_, by omega, rfl⟩
  · exact ⟨_, by omega, rfl⟩

/-- An encoding has two digits for each byte. -/
theorem hexText_hexEncode (bytes : Bytes) : HexText (2 * bytes.length) (hexEncode bytes) := by
  constructor
  · rw [← String.length_toList, hexEncode, String.toList_ofList]
    simp [Nat.mul_comm]
  · intro c hc
    obtain ⟨n, hn, rfl⟩ := mem_hexEncode hc
    exact isHexChar_digitChar hn

/-- The encoder writes in lower case. -/
theorem toAsciiLowercase_hexEncode (bytes : Bytes) :
    toAsciiLowercase (hexEncode bytes) = hexEncode bytes := by
  apply String.toList_injective
  unfold toAsciiLowercase
  rw [String.toList_ofList]
  have hid : ∀ c ∈ (hexEncode bytes).toList, c.toLower = id c := by
    intro c hc
    obtain ⟨n, hn, rfl⟩ := mem_hexEncode hc
    exact toLower_digitChar hn
  rw [List.map_congr_left hid, List.map_id]

/-! ### The decoder -/

/-- The two tests of a digit in the source agree. -/
theorem isHexDigit_eq (b : UInt8) : isHexDigit b = isAsciiHexdigit b := by
  unfold isHexDigit isAsciiHexdigit
  rw [Bool.or_assoc, Bool.or_assoc, Bool.or_comm (97 ≤ b && b ≤ 102)]

/-- Bytes that are digits, as a text. -/
theorem hexText_of_bytes {s : String} {n : Nat} :
    HexText n s ↔ (asBytes s).length = n ∧ ∀ b ∈ asBytes s, isHexDigit b = true := by
  rw [← isHexText_iff, isHexText]
  simp [isHexDigit_eq]

/-- The loop undoes the encoder, up to the case of the digits. -/
theorem hexEncode_of_decodeHex {l bytes : Bytes} (h : decodeHex l = .ok bytes) :
    (hexEncode bytes).toList = l.map fun b => (Char.ofNat b.toNat).toLower := by
  induction l using decodeHex.induct generalizing bytes with
  | case1 =>
      cases h
      rfl
  | case2 b => cases h
  | case3 hi lo rest ih =>
      simp only [decodeHex, bind_eq_ok] at h
      obtain ⟨x, hx, y, hy, tail, htail, heq⟩ := h
      cases heq
      obtain ⟨hxlt, hxchar⟩ := fromHexDigit_spec hx
      obtain ⟨hylt, hychar⟩ := fromHexDigit_spec hy
      have htail := ih htail
      rw [hexEncode, String.toList_ofList] at htail ⊢
      rw [List.flatMap_cons, htail, toNat_halves hxlt hylt, List.map_cons, List.map_cons,
        ← hxchar, ← hychar]
      -- Sixteen times the one plus the other: the quotient and the rest are the two digits.
      have hdiv : (16 * x.toNat + y.toNat) / 16 = x.toNat := by omega
      have hmod : (16 * x.toNat + y.toNat) % 16 = y.toNat := by omega
      rw [hdiv, hmod]
      rfl

/-- What was decoded encodes to the text without its white space, in lower case. -/
theorem hexEncode_of_hexDecode {s : String} {bytes : Bytes} (h : hexDecode s = .ok bytes) :
    hexEncode bytes = toAsciiLowercase (trim s) := by
  unfold hexDecode at h
  dsimp only at h
  split at h
  · cases h
  have htext := hexText_of_bytes.mpr (decodeHex_inv h)
  have hascii : ∀ c ∈ (trim s).toList, c.toNat < 128 := fun c hc => isHexChar_ascii (htext.2 c hc)
  apply String.toList_injective
  rw [hexEncode_of_decodeHex h, asBytes_of_ascii hascii, List.map_map]
  unfold toAsciiLowercase
  rw [String.toList_ofList]
  apply List.map_congr_left
  intro c hc
  have hlt := hascii c hc
  rw [Function.comp_apply, UInt8.toNat_ofNat', Nat.mod_eq_of_lt (by omega), Char.ofNat_toNat]

/-- A text is decoded when it is an even number of digits, white space around it apart. -/
theorem exists_hexDecode {s : String} :
    (∃ bytes, hexDecode s = .ok bytes)
      ↔ (trim s).length % 2 = 0 ∧ ∀ c ∈ (trim s).toList, isHexChar c = true := by
  constructor
  · rintro ⟨bytes, h⟩
    unfold hexDecode at h
    dsimp only at h
    split at h
    · cases h
    · have htext := hexText_of_bytes.mpr (decodeHex_inv h)
      exact ⟨by rw [htext.1]; omega, htext.2⟩
  · rintro ⟨heven, hall⟩
    obtain ⟨hlen, hdigits⟩ := hexText_of_bytes.mp ⟨rfl, hall⟩
    unfold hexDecode
    dsimp only
    rw [if_neg (by omega)]
    exact exists_decodeHex (by omega) hdigits

/-- What the encoder writes is read back. -/
theorem hexDecode_hexEncode (bytes : Bytes) : hexDecode (hexEncode bytes) = .ok bytes := by
  have htext := hexText_hexEncode bytes
  have htrim : trim (hexEncode bytes) = hexEncode bytes :=
    trim_eq_self fun c hc => isWhitespace_of_hex (htext.2 c hc)
  obtain ⟨back, hback⟩ : ∃ back, hexDecode (hexEncode bytes) = .ok back := by
    apply exists_hexDecode.mpr
    rw [htrim]
    exact ⟨by rw [htext.1]; omega, htext.2⟩
  have hsame := hexEncode_of_hexDecode hback
  rw [htrim, toAsciiLowercase_hexEncode] at hsame
  rw [hback, hexEncode_injective hsame]

/-! ### The case of the digits -/

/-- A digit in lower case. -/
def lowerDigit (c : Char) : Char := if isHexChar c then c.toLower else c

/-- The text with its digits in lower case. All other characters stay as they are. -/
def lowerDigits (s : String) : String := String.ofList (s.toList.map lowerDigit)

/-- The byte of a digit, in lower case. -/
def lowerByte (b : UInt8) : UInt8 := if 65 ≤ b ∧ b ≤ 70 then b + 32 else b

/-- A byte in lower case, by its value. -/
theorem toNat_lowerByte (b : UInt8) :
    (lowerByte b).toNat = if 65 ≤ b.toNat ∧ b.toNat ≤ 70 then b.toNat + 32 else b.toNat := by
  simp only [lowerByte, UInt8.le_iff_toNat_le, UInt8.reduceToNat]
  split
  case isTrue h =>
      rw [UInt8.toNat_add]
      exact Nat.mod_eq_of_lt (by simp only [UInt8.reduceToNat]; omega)
  case isFalse h => rfl

/-- A character in lower case, by its code point. -/
theorem toNat_lowerDigit (c : Char) :
    (lowerDigit c).toNat = if 65 ≤ c.toNat ∧ c.toNat ≤ 70 then c.toNat + 32 else c.toNat := by
  unfold lowerDigit
  split
  case isTrue h =>
      have hc := isHexChar_iff.mp h
      rw [toNat_toLower]
      -- Between `F` and `Z` there are no digits.
      split
      · split
        · rfl
        · omega
      · rw [if_neg (by omega)]
  case isFalse h =>
      have hc := mt isHexChar_iff.mpr h
      rw [if_neg (by omega)]

/-- The value of a digit from `a` to `f`. -/
theorem fromHexDigit_lower {b : UInt8} (h : 97 ≤ b.toNat ∧ b.toNat ≤ 102) :
    fromHexDigit b = .ok (b - 97 + 10) := by
  simp only [fromHexDigit, UInt8.le_iff_toNat_le, UInt8.reduceToNat]
  rw [if_neg (by omega), if_pos h]

/-- The value of a digit from `A` to `F`. -/
theorem fromHexDigit_upper {b : UInt8} (h : 65 ≤ b.toNat ∧ b.toNat ≤ 70) :
    fromHexDigit b = .ok (b - 65 + 10) := by
  simp only [fromHexDigit, UInt8.le_iff_toNat_le, UInt8.reduceToNat]
  rw [if_neg (by omega), if_neg (by omega), if_pos h]

/-- A letter in upper case has the value of the one in lower case. All other bytes stay. -/
theorem fromHexDigit_lowerByte (b : UInt8) : fromHexDigit (lowerByte b) = fromHexDigit b := by
  by_cases h : 65 ≤ b.toNat ∧ b.toNat ≤ 70
  · have hbyte : (lowerByte b).toNat = b.toNat + 32 := by rw [toNat_lowerByte, if_pos h]
    have hlower : (97 : UInt8) ≤ lowerByte b := by
      rw [UInt8.le_iff_toNat_le, hbyte]
      show 97 ≤ _
      omega
    have hupper : (65 : UInt8) ≤ b := UInt8.le_iff_toNat_le.mpr h.1
    have hval : lowerByte b - 97 = b - 65 := by
      rw [← UInt8.toNat_inj, UInt8.toNat_sub_of_le _ _ hlower, UInt8.toNat_sub_of_le _ _ hupper,
        hbyte]
      show b.toNat + 32 - 97 = b.toNat - 65
      omega
    rw [fromHexDigit_lower (by omega), fromHexDigit_upper h, hval]
  · have hid : lowerByte b = b := by
      rw [← UInt8.toNat_inj, toNat_lowerByte, if_neg h]
    rw [hid]

/-- Decoding does not depend on the case of the digits. -/
theorem decodeHex_map_lowerByte (l : Bytes) : decodeHex (l.map lowerByte) = decodeHex l := by
  induction l using decodeHex.induct with
  | case1 => rfl
  | case2 b => rfl
  | case3 hi lo rest ih =>
      simp only [List.map_cons, decodeHex, fromHexDigit_lowerByte, ih]

/-- A letter of ASCII is lower-cased as its byte is. Other characters have no byte in that range. -/
theorem utf8EncodeChar_lowerDigit (c : Char) :
    String.utf8EncodeChar (lowerDigit c) = (String.utf8EncodeChar c).map lowerByte := by
  by_cases hascii : c.toNat < 128
  · have hlt : (lowerDigit c).toNat < 128 := by
      rw [toNat_lowerDigit]
      split
      · omega
      · omega
    have hbyte : UInt8.ofNat (lowerDigit c).toNat = lowerByte (UInt8.ofNat c.toNat) := by
      rw [← UInt8.toNat_inj, toNat_lowerByte, UInt8.toNat_ofNat', UInt8.toNat_ofNat',
        Nat.mod_eq_of_lt (by omega), Nat.mod_eq_of_lt (by omega), toNat_lowerDigit]
    rw [utf8EncodeChar_of_ascii hlt, utf8EncodeChar_of_ascii hascii, List.map_singleton, hbyte]
  · have hlow : lowerDigit c = c := by
      unfold lowerDigit
      rw [if_neg]
      exact fun hhex => hascii (isHexChar_ascii hhex)
    have hid : ∀ b ∈ String.utf8EncodeChar c, lowerByte b = id b := by
      intro b hb
      have hle := le_of_mem_utf8EncodeChar (Nat.not_lt.mp hascii) hb
      unfold lowerByte
      rw [if_neg]
      · rfl
      · intro hrange
        have hupper := UInt8.le_iff_toNat_le.mp hrange.2
        have : (70 : UInt8).toNat = 70 := rfl
        omega
    rw [hlow, List.map_congr_left hid, List.map_id]

/-- Lower case for the characters is lower case for the bytes: only one-byte characters change. -/
theorem asBytes_lowerDigits (s : String) : asBytes (lowerDigits s) = (asBytes s).map lowerByte := by
  rw [asBytes_eq, asBytes_eq, lowerDigits, String.toList_ofList, List.flatMap_map, List.map_flatMap]
  simp only [utf8EncodeChar_lowerDigit]

/-- Lower case changes no white space. -/
theorem isWhitespace_lowerDigit (c : Char) : isWhitespace (lowerDigit c) = isWhitespace c := by
  unfold lowerDigit
  split
  · rename_i hhex
    rw [isWhitespace_of_hex hhex, isWhitespace_of_hex (isHexChar_toLower hhex)]
  · rfl

/-- Trimming and lower case can be done in either order. -/
theorem trim_lowerDigits (s : String) : trim (lowerDigits s) = lowerDigits (trim s) := by
  apply String.toList_injective
  rw [toList_trim, lowerDigits, lowerDigits, String.toList_ofList, String.toList_ofList,
    toList_trim]
  exact strip_map isWhitespace_lowerDigit _

/-- The case of a digit matters neither to the bytes nor to the error. -/
theorem hexDecode_lowerDigits (s : String) : hexDecode (lowerDigits s) = hexDecode s := by
  unfold hexDecode
  rw [trim_lowerDigits, asBytes_lowerDigits]
  dsimp only
  rw [List.length_map, decodeHex_map_lowerByte]

/-! ### The session key -/

/-- The key is what the decoder makes of the text, when that is 32 bytes. -/
theorem fromHexKey_eq_ok {s : String} {key : Bytes} :
    fromHexKey s = .ok key ↔ hexDecode s = .ok key ∧ key.length = 32 := by
  have htwice : hexDecode (trim s) = hexDecode s := by
    unfold hexDecode
    rw [trim_trim]
  unfold fromHexKey
  rw [htwice]
  cases hexDecode s with
  | error e => simp
  | ok bytes =>
      by_cases hlen : bytes.length = 32
      · simp only [hlen, ne_eq, not_true_eq_false, if_false, Except.ok.injEq]
        constructor
        · rintro rfl
          exact ⟨rfl, hlen⟩
        · exact fun h => h.1
      · simp only [ne_eq, hlen, not_false_eq_true, if_true, reduceCtorEq, Except.ok.injEq,
          false_iff, not_and]
        rintro rfl
        exact hlen

/-- A text is taken for a key when it is 64 digits, white space around it apart. -/
theorem exists_fromHexKey_iff {s : String} :
    (∃ key, fromHexKey s = .ok key) ↔ HexText 64 (trim s) := by
  have hlen : ∀ bytes, hexDecode s = .ok bytes → (trim s).length = 2 * bytes.length := by
    intro bytes h
    unfold hexDecode at h
    dsimp only at h
    split at h
    · cases h
    · exact (hexText_of_bytes.mpr (decodeHex_inv h)).1
  constructor
  · rintro ⟨key, hkey⟩
    obtain ⟨hdec, h32⟩ := fromHexKey_eq_ok.mp hkey
    exact ⟨by rw [hlen key hdec, h32], (exists_hexDecode.mp ⟨key, hdec⟩).2⟩
  · rintro ⟨h64, hall⟩
    obtain ⟨key, hdec⟩ := exists_hexDecode.mpr ⟨by rw [h64], hall⟩
    have hkey := hlen key hdec
    exact ⟨key, fromHexKey_eq_ok.mpr ⟨hdec, by omega⟩⟩

/-- Two texts give the same key when they are the same up to case and white space. -/
theorem fromHexKey_eq_iff {s t : String} {key key' : Bytes} (hs : fromHexKey s = .ok key)
    (ht : fromHexKey t = .ok key') :
    key = key' ↔ toAsciiLowercase (trim s) = toAsciiLowercase (trim t) := by
  rw [← hexEncode_of_hexDecode (fromHexKey_eq_ok.mp hs).1,
    ← hexEncode_of_hexDecode (fromHexKey_eq_ok.mp ht).1]
  exact ⟨congrArg hexEncode, hexEncode_injective⟩

/-- The decoder inverts the encoder, takes exactly the even numbers of digits and does not look at
their case. So the session key is taken from 64 digits, and these determine it. -/
theorem hex_codec :
    (∀ bytes, hexDecode (hexEncode bytes) = .ok bytes)
    ∧ (∀ s, (∃ bytes, hexDecode s = .ok bytes)
      ↔ (trim s).length % 2 = 0 ∧ ∀ c ∈ (trim s).toList, isHexChar c = true)
    ∧ (∀ s t, lowerDigits s = lowerDigits t → hexDecode s = hexDecode t)
    ∧ (∀ s, (∃ key, fromHexKey s = .ok key) ↔ HexText 64 (trim s))
    ∧ (∀ s t key key', fromHexKey s = .ok key → fromHexKey t = .ok key' →
      (key = key' ↔ toAsciiLowercase (trim s) = toAsciiLowercase (trim t))) := by
  refine ⟨hexDecode_hexEncode, fun s => exists_hexDecode, fun s t h => ?_,
    fun s => exists_fromHexKey_iff, fun s t key key' hs ht => fromHexKey_eq_iff hs ht⟩
  rw [← hexDecode_lowerDigits s, ← hexDecode_lowerDigits t, h]

end Tim.Boot
