import Tim.Lib.Strip
import Tim.Model.Http

/-!
# `Tim.Proofs.Text`: what the string functions compute

One lemma per function of `Tim.Model.Text`, in both directions where the function can fail, as
equations on the characters. The readers of headers (`traceparent`, `Authorization`, `Cookie`) are
proved from these and never unfold a string function.

* `splitOnce_eq_some`, `stripHead_eq_some`, `splitChar_append`: the splits.
* `toList_trim`: trimming is the `strip` of the library.
* `headerText_eq_some`: the values that `to_str` reads are the ASCII texts of `isHeaderChar`.
-/

set_option autoImplicit false

namespace Tim

open Tim.Lib

variable {s t a b : String} {c : Char}

/-! ### Splits -/

/-- Splitting once is a cut of the characters. -/
theorem splitOnce_eq (s : String) (c : Char) :
    splitOnce s c = (cut c s.toList).map fun p => (String.ofList p.1, String.ofList p.2) := by
  unfold splitOnce cut
  cases s.toList.dropWhile (· != c) with
  | nil => rfl
  | cons d rest => rfl

/-- A text without the character is not split. -/
theorem splitOnce_eq_none : splitOnce s c = none ↔ c ∉ s.toList := by
  rw [splitOnce_eq, Option.map_eq_none_iff, cut_eq_none]

/-- The first part has no such character. -/
theorem splitOnce_eq_some :
    splitOnce s c = some (a, b) ↔ s.toList = a.toList ++ c :: b.toList ∧ c ∉ a.toList := by
  rw [splitOnce_eq, Option.map_eq_some_iff, ← cut_eq_some]
  constructor
  · rintro ⟨⟨l, r⟩, hcut, heq⟩
    cases heq
    simpa using hcut
  · intro hcut
    exact ⟨_, hcut, by simp⟩

/-- A text without the character is one part. -/
theorem splitChar_single (h : c ∉ s.toList) : splitChar s c = [s] := by
  unfold splitChar
  rw [List.splitOn_eq_singleton h]
  simp

/-- The first part is what stands before the first such character. -/
theorem splitChar_append (h : c ∉ a.toList) (hs : s.toList = a.toList ++ c :: b.toList) :
    splitChar s c = a :: splitChar b c := by
  unfold splitChar
  rw [hs, List.splitOn_append_cons_self_of_not_mem h, List.map_cons, String.ofList_toList]

/-- The parts of a split do not have the separator, and put together they are the text. -/
theorem mem_splitChar (h : t ∈ splitChar s c) : c ∉ t.toList := by
  unfold splitChar at h
  obtain ⟨l, hl, rfl⟩ := List.mem_map.mp h
  rw [String.toList_ofList]
  clear h
  -- On the characters: each one starts a new part or is put in front of the first.
  generalize s.toList = m at hl
  induction m generalizing l with
  | nil => simp_all
  | cons d m ih =>
      rw [List.splitOn_cons_eq_if_modifyHead] at hl
      split at hl
      · rcases List.mem_cons.mp hl with rfl | hl
        · simp
        · exact ih l hl
      · rename_i hd
        cases hm : m.splitOn c with
        | nil => simp [hm] at hl
        | cons first rest =>
            rw [hm, List.modifyHead_cons] at hl
            rcases List.mem_cons.mp hl with rfl | hl
            -- The part that the character goes into, and the parts behind it.
            · have hfirst := ih first (by simp [hm])
              intro hmem
              rcases List.mem_cons.mp hmem with rfl | hmem
              · simp at hd
              · exact hfirst hmem
            · exact ih l (by simp [hm, hl])

/-- The parts with the character between them are the text. -/
theorem intercalate_splitChar (s : String) (c : Char) :
    [c].intercalate ((splitChar s c).map String.toList) = s.toList := by
  unfold splitChar
  simp [Function.comp_def]

/-- The characters of a part are characters of the text. -/
theorem mem_of_mem_splitChar {d : Char} (h : t ∈ splitChar s c)
    (hd : d ∈ t.toList) : d ∈ s.toList := by
  rw [← intercalate_splitChar s c]
  -- The text is the parts with separators between them, so a part is inside it.
  generalize splitChar s c = parts at h
  induction parts with
  | nil => cases h
  | cons a parts ih =>
      cases parts with
      | nil =>
          rw [List.mem_singleton.mp h] at hd
          simpa using hd
      | cons b parts =>
          rw [List.map_cons, List.map_cons, List.intercalate_cons_cons, List.mem_append]
          rcases List.mem_cons.mp h with rfl | h
          · exact .inl (by simp [hd])
          · exact .inr (ih h)

/-- What is left after a prefix. -/
theorem stripHead_eq_some : stripHead s a = some t ↔ s = a ++ t := by
  unfold stripHead
  constructor
  · intro h
    split at h
    · rename_i hhead
      cases h
      obtain ⟨rest, hrest⟩ := List.isPrefixOf_iff_prefix.mp hhead
      apply String.toList_injective
      simp [← hrest]
    · cases h
  · rintro rfl
    simp

/-! ### Trimming -/

/-- Trimming strips white space from both ends of the characters. -/
theorem toList_trim (s : String) : (trim s).toList = strip isWhitespace s.toList := by
  unfold trim strip
  rw [String.toList_ofList]

/-- Trimming twice is trimming once. -/
theorem trim_trim (s : String) : trim (trim s) = trim s := by
  apply String.toList_injective
  rw [toList_trim, toList_trim, strip_strip]

/-- A text without white space at its ends stays as it is. -/
theorem trim_of_firm (h : Firm isWhitespace s.toList) : trim s = s := by
  apply String.toList_injective
  rw [toList_trim, strip_of_firm h]

/-- So does one without white space anywhere. -/
theorem trim_eq_self (h : ∀ c ∈ s.toList, isWhitespace c = false) : trim s = s :=
  trim_of_firm (Firm.of_forall h)

/-- A text that trimming leaves as it is has no white space at its ends. -/
theorem firm_of_trim (h : trim s = s) : Firm isWhitespace s.toList := by
  rw [← h, toList_trim]
  exact firm_strip _ _

/-- Trimming the start drops the white space in front. -/
theorem toList_trimStart (s : String) :
    (trimStart s).toList = s.toList.dropWhile isWhitespace := by
  unfold trimStart
  rw [String.toList_ofList]

/-- White space in front of a text that has none there is what `trim_start` takes off. -/
theorem trimStart_append {gap : List Char} (hgap : ∀ c ∈ gap, isWhitespace c = true)
    (ht : ∀ c ∈ t.toList, isWhitespace c = false) :
    trimStart (String.ofList (gap ++ t.toList)) = t := by
  apply String.toList_injective
  rw [toList_trimStart, String.toList_ofList, List.dropWhile_append_of_pos hgap,
    dropWhile_of_head fun c hc => ht c (List.mem_of_mem_head? hc)]

/-- What is dropped is white space. -/
theorem exists_trimStart (s : String) :
    ∃ gap, s.toList = gap ++ (trimStart s).toList ∧ ∀ c ∈ gap, isWhitespace c = true := by
  refine ⟨s.toList.takeWhile isWhitespace, ?_, fun c hc => List.mem_takeWhile_imp hc⟩
  rw [toList_trimStart, List.takeWhile_append_dropWhile]

/-- Texts that differ in the case of their letters have the same characters in lower case. -/
theorem toLower_mem (h : eqIgnoreAsciiCase a b = true) (hc : c ∈ a.toList) :
    ∃ d ∈ b.toList, d.toLower = c.toLower := by
  have heq := beq_iff_eq.mp h
  unfold toAsciiLowercase at heq
  have hmem : c.toLower ∈ b.toList.map Char.toLower := by
    rw [← String.ofList_inj.mp heq]
    exact List.mem_map_of_mem hc
  exact List.mem_map.mp hmem

/-! ### Bytes -/

/-- The bytes of a text are those of its characters. -/
theorem asBytes_eq (s : String) : asBytes s = s.toList.flatMap String.utf8EncodeChar := by
  have hbytes : s.toUTF8 = s.toList.utf8Encode := String.utf8Encode_toList.symm
  unfold asBytes
  rw [hbytes, List.utf8Encode, List.data_toByteArray]

/-- The bytes of two texts in a row. -/
theorem asBytes_append (s t : String) : asBytes (s ++ t) = asBytes s ++ asBytes t := by
  simp [asBytes_eq]

/-- Bytes are read as the text that they are the bytes of. -/
theorem fromUtf8_eq_some {bytes : Bytes} : fromUtf8 bytes = some s ↔ bytes = asBytes s := by
  unfold fromUtf8 String.fromUTF8?
  constructor
  · intro h
    split at h
    · cases h
      rfl
    · cases h
  · rintro rfl
    have hbytes : (⟨(asBytes s).toArray⟩ : ByteArray) = s.toByteArray := by
      apply ByteArray.ext
      simp [asBytes]
    rw [hbytes, dif_pos s.isValidUTF8]
    rfl

/-- A character of ASCII is one byte. -/
theorem utf8EncodeChar_of_ascii {c : Char} (h : c.toNat < 128) :
    String.utf8EncodeChar c = [UInt8.ofNat c.toNat] := by
  have hle : c.val.toNat ≤ 0x7f := Nat.le_of_lt_succ h
  unfold String.utf8EncodeChar
  dsimp only
  rw [if_pos hle]
  rfl

/-- All bytes of a character above ASCII have their high bit set. -/
theorem le_of_mem_utf8EncodeChar {c : Char} (h : 128 ≤ c.toNat) {b : UInt8}
    (hb : b ∈ String.utf8EncodeChar c) : 128 ≤ b.toNat := by
  have hval : ¬ c.val.toNat ≤ 0x7f := Nat.not_le.mpr h
  unfold String.utf8EncodeChar at hb
  dsimp only at hb
  rw [if_neg hval] at hb
  -- Two, three or four bytes, each of them a tag with some bits of the code point below it.
  split at hb
  · simp only [List.mem_cons, List.not_mem_nil, or_false] at hb
    rcases hb with rfl | rfl <;> rw [UInt8.toNat_ofNat'] <;> omega
  split at hb
  · simp only [List.mem_cons, List.not_mem_nil, or_false] at hb
    rcases hb with rfl | rfl | rfl <;> rw [UInt8.toNat_ofNat'] <;> omega
  · simp only [List.mem_cons, List.not_mem_nil, or_false] at hb
    rcases hb with rfl | rfl | rfl | rfl <;> rw [UInt8.toNat_ofNat'] <;> omega

/-- An ASCII text has one byte per character. -/
theorem asBytes_of_ascii (h : ∀ c ∈ s.toList, c.toNat < 128) :
    asBytes s = s.toList.map fun c => UInt8.ofNat c.toNat := by
  rw [asBytes_eq]
  generalize s.toList = l at h
  induction l with
  | nil => rfl
  | cons c l ih =>
      rw [List.flatMap_cons, List.map_cons, utf8EncodeChar_of_ascii (h c (by simp)),
        ih fun d hd => h d (by simp [hd]), List.singleton_append]

/-- A character with ASCII bytes only is one of ASCII. -/
theorem lt_of_utf8EncodeChar {c : Char} (h : ∀ b ∈ String.utf8EncodeChar c, b.toNat < 128) :
    c.toNat < 128 := by
  by_contra hc
  obtain ⟨b, hb⟩ := List.exists_mem_of_ne_nil _ (String.utf8EncodeChar_ne_nil (c := c))
  have hle := le_of_mem_utf8EncodeChar (Nat.not_lt.mp hc) hb
  have hlt := h b hb
  omega

/-- A text of one-byte characters, told by its bytes. -/
theorem ascii_of_asBytes (h : ∀ b ∈ asBytes s, b.toNat < 128) : ∀ c ∈ s.toList, c.toNat < 128 := by
  intro c hc
  apply lt_of_utf8EncodeChar
  intro b hb
  apply h
  rw [asBytes_eq]
  exact List.mem_flatMap.mpr ⟨c, hc, hb⟩

/-- The lower case of a character, by its number. -/
theorem toNat_toLower (c : Char) :
    c.toLower.toNat = if 65 ≤ c.toNat ∧ c.toNat ≤ 90 then c.toNat + 32 else c.toNat := by
  unfold Char.toLower
  split
  case isTrue h =>
      have hrange : 65 ≤ c.toNat ∧ c.toNat ≤ 90 := h
      have hle : c.val.toNat ≤ 90 := hrange.2
      rw [if_pos hrange]
      show (c.val + 32).toNat = c.val.toNat + 32
      rw [UInt32.toNat_add]
      exact Nat.mod_eq_of_lt (show c.val.toNat + 32 < 2 ^ 32 by omega)
  case isFalse h =>
      have hrange : ¬ (65 ≤ c.toNat ∧ c.toNat ≤ 90) := h
      rw [if_neg hrange]

end Tim

namespace Tim.Web

/-- The characters that `HeaderValue::to_str` lets through: visible ASCII, the space and the
tab. -/
def isHeaderChar (c : Char) : Bool := c.toNat = 9 || 32 ≤ c.toNat && c.toNat < 127

/-- The characters of a readable header are one-byte characters. -/
theorem isHeaderChar_lt {c : Char} (h : isHeaderChar c = true) : c.toNat < 127 := by
  simp only [isHeaderChar, Bool.or_eq_true, Bool.and_eq_true, decide_eq_true_eq] at h
  omega

/-- The values that `to_str` reads are the bytes of its texts. -/
theorem headerText_eq_some {value : Bytes} {text : String} :
    headerText value = some text
      ↔ value = asBytes text ∧ ∀ c ∈ text.toList, isHeaderChar c = true := by
  -- A byte is a code point below the surrogates.
  have hchar : ∀ b : UInt8, (Char.ofNat b.toNat).toNat = b.toNat := by
    intro b
    have hb : b.toNat < 256 := b.toNat_lt
    have hvalid : b.toNat.isValidChar := .inl (by omega)
    rw [Char.ofNat, dif_pos hvalid]
    rfl
  unfold headerText
  constructor
  · intro h
    split at h
    · rename_i hall
      cases h
      have hok : ∀ b ∈ value, isHeaderChar (Char.ofNat b.toNat) = true := by
        intro b hb
        have hbyte := List.all_eq_true.mp hall b hb
        simpa [isHeaderChar, hchar, UInt8.le_iff_toNat_le, UInt8.lt_iff_toNat_lt,
          ← UInt8.toNat_inj] using hbyte
      have htext : ∀ c ∈ (String.ofList (value.map fun b => Char.ofNat b.toNat)).toList,
          isHeaderChar c = true := by
        intro c hc
        rw [String.toList_ofList] at hc
        obtain ⟨b, hb, rfl⟩ := List.mem_map.mp hc
        exact hok b hb
      refine ⟨?_, htext⟩
      rw [asBytes_of_ascii fun c hc => by have := isHeaderChar_lt (htext c hc); omega,
        String.toList_ofList, List.map_map]
      symm
      -- Byte to character to byte.
      refine List.map_id'' (fun b => ?_) value
      simp [hchar]
    · cases h
  · rintro ⟨rfl, htext⟩
    have hascii : ∀ c ∈ text.toList, c.toNat < 128 := fun c hc => by
      have := isHeaderChar_lt (htext c hc)
      omega
    -- Character to byte to character, for ASCII only.
    have hback : ∀ c ∈ text.toList, (UInt8.ofNat c.toNat).toNat = c.toNat := fun c hc => by
      have := hascii c hc
      rw [UInt8.toNat_ofNat', Nat.mod_eq_of_lt (by omega)]
    rw [asBytes_of_ascii hascii]
    have hall : (text.toList.map fun c => UInt8.ofNat c.toNat).all
        (fun b => b = 9 || 32 ≤ b && b < 127) = true := by
      rw [List.all_map, List.all_eq_true]
      intro c hc
      have hok := htext c hc
      have := hback c hc
      simp only [Function.comp_apply, isHeaderChar, Bool.or_eq_true, Bool.and_eq_true,
        decide_eq_true_eq, UInt8.le_iff_toNat_le, UInt8.lt_iff_toNat_lt, ← UInt8.toNat_inj, this]
        at hok ⊢
      simpa using hok
    rw [if_pos hall, List.map_map]
    have hid : text.toList.map ((fun b : UInt8 => Char.ofNat b.toNat) ∘
        fun c => UInt8.ofNat c.toNat) = text.toList := by
      rw [List.map_congr_left (g := id) fun c hc => by simp [hback c hc], List.map_id]
    rw [hid, String.ofList_toList]

/-- The bytes of the first header of a name. -/
def HttpRequest.rawHeader (req : HttpRequest) (name : String) : Option Bytes :=
  (req.headers.find? fun h => h.1 = name).map (·.2)

/-- A header is read as a text when its bytes are those of visible characters. -/
theorem HttpRequest.header_eq_some {req : HttpRequest} {name text : String} :
    req.header name = some text ↔ req.rawHeader name = some (asBytes text)
      ∧ ∀ c ∈ text.toList, isHeaderChar c = true := by
  unfold header rawHeader
  cases req.headers.find? fun h => h.1 = name with
  | none => simp
  | some h => simp only [Option.bind_some, Option.map_some, Option.some.injEq, headerText_eq_some]

end Tim.Web
