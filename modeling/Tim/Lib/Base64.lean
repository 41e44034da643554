import Mathlib.Data.List.Basic
import Mathlib.Tactic.Common

/-!
# `Tim.Lib.Base64`: the standard base64 encoding

The encoding with the alphabet of 64 digits and padding, and the strict decoder that accepts
canonical texts only: the padding is there and the bits that no byte uses are zero.

* `decode_eq_some`: the decoder accepts exactly the texts of the encoder.
* `mem_encode`: a text consists of digits and padding.
-/

set_option autoImplicit false

namespace Tim.Lib.Base64

/-! ### Digits -/

/-- The digit of a number below 64: the upper-case letters, the lower-case letters, the decimal
digits, plus and slash. -/
def digit (n : Nat) : Char :=
  if n < 26 then Char.ofNat ('A'.toNat + n)
  else if n < 52 then Char.ofNat ('a'.toNat + (n - 26))
  else if n < 62 then Char.ofNat ('0'.toNat + (n - 52))
  else if n = 62 then '+'
  else '/'

/-- The number of a digit. -/
def value (c : Char) : Option Nat := (List.range 64).find? fun n => digit n = c

/-- Each of the 64 digits is read back as its number. -/
theorem value_digit {n : Nat} (h : n < 64) : value (digit n) = some n := by
  have hall : ∀ i : Fin 64, value (digit i) = some i.val := by decide +kernel
  exact hall ⟨n, h⟩

/-- A character with a value is the digit of that value, so the alphabet has no second spelling. -/
theorem digit_of_value {c : Char} {n : Nat} (h : value c = some n) : n < 64 ∧ digit n = c := by
  have hmem := List.mem_of_find?_eq_some h
  have heq := List.find?_some h
  exact ⟨List.mem_range.mp hmem, of_decide_eq_true heq⟩

/-- Numbers above the alphabet have its last digit. -/
theorem digit_mem (n : Nat) : ∃ i : Fin 64, digit n = digit i := by
  by_cases h : n < 64
  · exact ⟨⟨n, h⟩, rfl⟩
  · refine ⟨63, ?_⟩
    rw [digit, if_neg (by omega), if_neg (by omega), if_neg (by omega), if_neg (by omega)]
    rfl

/-- The padding character is none of the digits, so a reader can tell where the digits end. -/
theorem digit_ne_pad (n : Nat) : digit n ≠ '=' := by
  have hall : ∀ i : Fin 64, digit i ≠ '=' := by decide +kernel
  obtain ⟨i, hi⟩ := digit_mem n
  rw [hi]
  exact hall i

/-! ### Groups of three bytes -/

/-- The text of some bytes. -/
def encode : List UInt8 → List Char
  | [] => []
  | [a] => [digit (a.toNat / 4), digit (a.toNat % 4 * 16), '=', '=']
  | [a, b] => [digit (a.toNat / 4), digit (a.toNat % 4 * 16 + b.toNat / 16),
      digit (b.toNat % 16 * 4), '=']
  | a :: b :: c :: rest => digit (a.toNat / 4) :: digit (a.toNat % 4 * 16 + b.toNat / 16)
      :: digit (b.toNat % 16 * 4 + c.toNat / 64) :: digit (c.toNat % 64) :: encode rest

/-- The bytes of a text. The last group may be padded. -/
def decode : List Char → Option (List UInt8)
  | [] => some []
  | w :: x :: y :: z :: rest =>
      if y = '=' ∧ z = '=' ∧ rest = [] then do
        let w ← value w
        let x ← value x
        if x % 16 = 0 then some [.ofNat (w * 4 + x / 16)] else none
      else if z = '=' ∧ rest = [] then do
        let w ← value w
        let x ← value x
        let y ← value y
        if y % 4 = 0 then some [.ofNat (w * 4 + x / 16), .ofNat (x % 16 * 16 + y / 4)] else none
      else do
        let w ← value w
        let x ← value x
        let y ← value y
        let z ← value z
        let tail ← decode rest
        some (.ofNat (w * 4 + x / 16) :: .ofNat (x % 16 * 16 + y / 4)
          :: .ofNat (y % 4 * 64 + z) :: tail)
  | _ => none

/-- A byte is put together again from a number that is equal to it. -/
theorem byte_eq {a : UInt8} {n : Nat} (h : n = a.toNat) : UInt8.ofNat n = a := by
  rw [h, UInt8.ofNat_toNat]

/-- What the encoder writes is read back. -/
theorem decode_encode (bytes : List UInt8) : decode (encode bytes) = some bytes := by
  induction bytes using encode.induct with
  | case1 => rfl
  -- One byte left: its last two bits fill a digit up with zeros, which the decoder checks.
  | case2 a =>
      have ha : a.toNat < 256 := a.toNat_lt
      have h1 := value_digit (n := a.toNat / 4) (by omega)
      have h2 := value_digit (n := a.toNat % 4 * 16) (by omega)
      have hzero : a.toNat % 4 * 16 % 16 = 0 := by omega
      have hbyte : UInt8.ofNat (a.toNat / 4 * 4 + a.toNat % 4 * 16 / 16) = a :=
        byte_eq (by omega)
      simp only [encode, decode, h1, h2, and_self, if_true, Option.bind_eq_bind,
        Option.bind_some, hzero, hbyte]
  -- Two bytes left, with two zero bits behind them.
  | case3 a b =>
      have ha : a.toNat < 256 := a.toNat_lt
      have hb : b.toNat < 256 := b.toNat_lt
      have h1 := value_digit (n := a.toNat / 4) (by omega)
      have h2 := value_digit (n := a.toNat % 4 * 16 + b.toNat / 16) (by omega)
      have h3 := value_digit (n := b.toNat % 16 * 4) (by omega)
      have hzero : b.toNat % 16 * 4 % 4 = 0 := by omega
      have hfst : UInt8.ofNat (a.toNat / 4 * 4 + (a.toNat % 4 * 16 + b.toNat / 16) / 16) = a :=
        byte_eq (by omega)
      have hsnd : UInt8.ofNat
          ((a.toNat % 4 * 16 + b.toNat / 16) % 16 * 16 + b.toNat % 16 * 4 / 4) = b :=
        byte_eq (by omega)
      simp only [encode, decode, digit_ne_pad, false_and, if_false, and_self, if_true, h1, h2, h3,
        Option.bind_eq_bind, Option.bind_some, hzero, hfst, hsnd]
  -- Three bytes are four digits without a bit to spare.
  | case4 a b c rest ih =>
      have ha : a.toNat < 256 := a.toNat_lt
      have hb : b.toNat < 256 := b.toNat_lt
      have hc : c.toNat < 256 := c.toNat_lt
      have h1 := value_digit (n := a.toNat / 4) (by omega)
      have h2 := value_digit (n := a.toNat % 4 * 16 + b.toNat / 16) (by omega)
      have h3 := value_digit (n := b.toNat % 16 * 4 + c.toNat / 64) (by omega)
      have h4 := value_digit (n := c.toNat % 64) (by omega)
      have hfst : UInt8.ofNat (a.toNat / 4 * 4 + (a.toNat % 4 * 16 + b.toNat / 16) / 16) = a :=
        byte_eq (by omega)
      have hsnd : UInt8.ofNat ((a.toNat % 4 * 16 + b.toNat / 16) % 16 * 16
          + (b.toNat % 16 * 4 + c.toNat / 64) / 4) = b :=
        byte_eq (by omega)
      have hthd : UInt8.ofNat ((b.toNat % 16 * 4 + c.toNat / 64) % 4 * 64 + c.toNat % 64) = c :=
        byte_eq (by omega)
      simp only [encode, decode, digit_ne_pad, false_and, if_false, h1, h2, h3, h4, ih,
        Option.bind_eq_bind, Option.bind_some, hfst, hsnd, hthd]

/-- What the decoder accepts is what the encoder writes. -/
theorem encode_of_decode {text : List Char} {bytes : List UInt8}
    (h : decode text = some bytes) : text = encode bytes := by
  induction text using decode.induct generalizing bytes with
  | case1 =>
      cases h
      rfl
  -- Two pads. The test on the low bits of `m` makes the text canonical.
  | case2 w x y z rest hpad =>
      obtain ⟨rfl, rfl, rfl⟩ := hpad
      simp only [decode, and_self, if_true, Option.bind_eq_bind, Option.bind_eq_some_iff] at h
      obtain ⟨n, hn, m, hm, h⟩ := h
      obtain ⟨hn, rfl⟩ := digit_of_value hn
      obtain ⟨hm, rfl⟩ := digit_of_value hm
      split at h
      · cases h
        have hfst : (n * 4 + m / 16) % 2 ^ 8 / 4 = n := by omega
        have hsnd : (n * 4 + m / 16) % 2 ^ 8 % 4 * 16 = m := by omega
        simp only [encode, UInt8.toNat_ofNat', hfst, hsnd]
      · cases h
  -- One pad, and the test is on `k`.
  | case3 w x y z rest hpad hone =>
      obtain ⟨rfl, rfl⟩ := hone
      rw [decode, if_neg hpad, if_pos ⟨rfl, rfl⟩] at h
      simp only [Option.bind_eq_bind, Option.bind_eq_some_iff] at h
      obtain ⟨n, hn, m, hm, k, hk, h⟩ := h
      obtain ⟨hn, rfl⟩ := digit_of_value hn
      obtain ⟨hm, rfl⟩ := digit_of_value hm
      obtain ⟨hk, rfl⟩ := digit_of_value hk
      split at h
      · cases h
        have hfst : (n * 4 + m / 16) % 2 ^ 8 / 4 = n := by omega
        have hsnd : (n * 4 + m / 16) % 2 ^ 8 % 4 * 16 + (m % 16 * 16 + k / 4) % 2 ^ 8 / 16 = m := by
          omega
        have hthd : (m % 16 * 16 + k / 4) % 2 ^ 8 % 16 * 4 = k := by omega
        simp only [encode, UInt8.toNat_ofNat', hfst, hsnd, hthd]
      · cases h
  | case4 w x y z rest hpad hone ih =>
      rw [decode, if_neg hpad, if_neg hone] at h
      simp only [Option.bind_eq_bind, Option.bind_eq_some_iff] at h
      -- No pad: the induction goes on with the rest of the text.
      obtain ⟨n, hn, m, hm, k, hk, j, hj, tail, htail, h⟩ := h
      obtain ⟨hn, rfl⟩ := digit_of_value hn
      obtain ⟨hm, rfl⟩ := digit_of_value hm
      obtain ⟨hk, rfl⟩ := digit_of_value hk
      obtain ⟨hj, rfl⟩ := digit_of_value hj
      cases h
      have hfst : (n * 4 + m / 16) % 2 ^ 8 / 4 = n := by omega
      have hsnd : (n * 4 + m / 16) % 2 ^ 8 % 4 * 16 + (m % 16 * 16 + k / 4) % 2 ^ 8 / 16 = m := by
        omega
      have hthd : (m % 16 * 16 + k / 4) % 2 ^ 8 % 16 * 4 + (k % 4 * 64 + j) % 2 ^ 8 / 64 = k := by
        omega
      have hlast : (k % 4 * 64 + j) % 2 ^ 8 % 64 = j := by omega
      simp only [encode, UInt8.toNat_ofNat', hfst, hsnd, hthd, hlast, ih htail]
  | case5 text hnil hfour => simp [decode] at h

/-- The decoder accepts exactly the texts of the encoder. -/
theorem decode_eq_some {text : List Char} {bytes : List UInt8} :
    decode text = some bytes ↔ text = encode bytes := by
  constructor
  · exact encode_of_decode
  · rintro rfl
    exact decode_encode bytes

/-- A text consists of digits and padding. -/
theorem mem_encode {bytes : List UInt8} {c : Char} (h : c ∈ encode bytes) :
    c = '=' ∨ ∃ n, c = digit n := by
  induction bytes using encode.induct with
  | case1 => cases h
  | case2 a =>
      simp only [encode, List.mem_cons, List.not_mem_nil, or_false] at h
      rcases h with h | h | h | h
      · exact .inr ⟨_, h⟩
      · exact .inr ⟨_, h⟩
      · exact .inl h
      · exact .inl h
  | case3 a b =>
      simp only [encode, List.mem_cons, List.not_mem_nil, or_false] at h
      rcases h with h | h | h | h
      · exact .inr ⟨_, h⟩
      · exact .inr ⟨_, h⟩
      · exact .inr ⟨_, h⟩
      · exact .inl h
  | case4 a b d rest ih =>
      simp only [encode, List.mem_cons] at h
      rcases h with h | h | h | h | h
      · exact .inr ⟨_, h⟩
      · exact .inr ⟨_, h⟩
      · exact .inr ⟨_, h⟩
      · exact .inr ⟨_, h⟩
      · exact ih h

/-- A class of characters that has the digits and the padding has all of a text. -/
theorem forall_encode {p : Char → Prop} (hdigit : ∀ i : Fin 64, p (digit i)) (hpad : p '=')
    (bytes : List UInt8) : ∀ c ∈ encode bytes, p c := by
  intro c hc
  rcases mem_encode hc with rfl | ⟨n, rfl⟩
  · exact hpad
  · obtain ⟨i, hi⟩ := digit_mem n
    rw [hi]
    exact hdigit i

end Tim.Lib.Base64
