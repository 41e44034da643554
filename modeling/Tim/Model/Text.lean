import Mathlib.Algebra.Group.Nat.Defs
import Mathlib.Data.List.Infix
import Mathlib.Tactic.Common

/-!
# `Tim.Model.Text`: the string functions of the standard library that the code calls

The trimming, splitting and comparing functions of `str`, the bytes of a string and the parsing
of a `usize`, as Rust documents them, and the hexadecimal encoding of `src/oauth2/flow.rs`. White
space is the Unicode property of that name, which Lean's own `trim` does not use.

The functions are irreducible: no proof looks inside them, and unfolding them by accident is
slow.
-/

set_option autoImplicit false

namespace Tim

/-- `char::is_whitespace`. -/
def isWhitespace (c : Char) : Bool :=
  (0x09 ≤ c.toNat && c.toNat ≤ 0x0d) || (0x2000 ≤ c.toNat && c.toNat ≤ 0x200a)
    || [0x20, 0x85, 0xa0, 0x1680, 0x2028, 0x2029, 0x202f, 0x205f, 0x3000].contains c.toNat

/-- `str::trim`. -/
@[irreducible] def trim (s : String) : String :=
  String.ofList ((s.toList.dropWhile isWhitespace).reverse.dropWhile isWhitespace).reverse

/-- `str::trim_end_matches` of one character. -/
@[irreducible] def trimEndMatches (s : String) (c : Char) : String :=
  String.ofList (s.toList.reverse.dropWhile (· == c)).reverse

/-- `str::to_ascii_lowercase`. -/
@[irreducible] def toAsciiLowercase (s : String) : String :=
  String.ofList (s.toList.map Char.toLower)

/-- `str::starts_with`. -/
@[irreducible] def startsWith (s head : String) : Bool := head.toList.isPrefixOf s.toList

/-- `str::contains`. -/
@[irreducible] def containsText (s sub : String) : Bool := decide (sub.toList <:+: s.toList)

/-- `str::trim_start`. -/
@[irreducible] def trimStart (s : String) : String :=
  String.ofList (s.toList.dropWhile isWhitespace)

/-- `str::trim_matches` of one character. -/
@[irreducible] def trimMatches (s : String) (c : Char) : String :=
  String.ofList ((s.toList.dropWhile (· == c)).reverse.dropWhile (· == c)).reverse

/-- `str::strip_prefix`. -/
@[irreducible] def stripHead (s head : String) : Option String :=
  if head.toList.isPrefixOf s.toList then some (String.ofList (s.toList.drop head.toList.length))
  else none

/-- `str::split_once` at one character. -/
@[irreducible] def splitOnce (s : String) (c : Char) : Option (String × String) :=
  match s.toList.dropWhile (· != c) with
  | [] => none
  | _ :: rest => some (String.ofList (s.toList.takeWhile (· != c)), String.ofList rest)

/-- `str::split` at one character. -/
@[irreducible] def splitChar (s : String) (c : Char) : List String :=
  (s.toList.splitOn c).map String.ofList

/-- `str::eq_ignore_ascii_case`. -/
def eqIgnoreAsciiCase (a b : String) : Bool := toAsciiLowercase a == toAsciiLowercase b

/-- `str::parse::<usize>`: decimal digits, with a plus sign allowed in front. -/
@[irreducible] def parseUsize (s : String) : Option Nat :=
  let digits := match s.toList with
    | '+' :: rest => rest
    | cs => cs
  let value := digits.foldl (fun n c => n * 10 + (c.toNat - '0'.toNat)) 0
  if digits.isEmpty || !digits.all Char.isDigit || 2 ^ 64 ≤ value then none else some value

/-- `std::str::from_utf8`. -/
@[irreducible] def fromUtf8 (bytes : List UInt8) : Option String :=
  String.fromUTF8? ⟨bytes.toArray⟩

/-- `str::as_bytes`. -/
def asBytes (s : String) : List UInt8 := s.toUTF8.data.toList

/-- `hex_encode`: two lower-case digits a byte. -/
def hexEncode (bytes : List UInt8) : String :=
  String.ofList (bytes.flatMap fun b =>
    [Nat.digitChar (b.toNat / 16), Nat.digitChar (b.toNat % 16)])

/-- Different strings have different bytes. -/
theorem asBytes_injective {s t : String} (h : asBytes s = asBytes t) : s = t := by
  apply String.toByteArray_inj.mp
  exact ByteArray.ext (Array.toList_inj.mp h)

/-- Two numbers below sixteen with the same digit are the same. -/
theorem digitChar_injective {a b : Nat} (ha : a < 16) (hb : b < 16)
    (h : Nat.digitChar a = Nat.digitChar b) : a = b := by
  have hall : ∀ i j : Fin 16, Nat.digitChar i = Nat.digitChar j → i = j := by decide
  exact Fin.mk.inj_iff.mp (hall ⟨a, ha⟩ ⟨b, hb⟩ h)

/-- The bytes can be read back from their hexadecimal text. -/
theorem hexEncode_injective {a b : List UInt8} (h : hexEncode a = hexEncode b) : a = b := by
  have hlist := String.ofList_inj.mp h
  clear h
  induction a generalizing b with
  | nil =>
      cases b with
      | nil => rfl
      | cons y b => simp at hlist
  | cons x a ih =>
      cases b with
      | nil => simp at hlist
      | cons y b =>
          simp only [List.flatMap_cons, List.cons_append, List.nil_append, List.cons.injEq] at hlist
          obtain ⟨hhi, hlo, hrest⟩ := hlist
          have hx : x.toNat < 256 := x.toNat_lt
          have hy : y.toNat < 256 := y.toNat_lt
          have hdiv := digitChar_injective (by omega) (by omega) hhi
          have hmod := digitChar_injective (by omega) (by omega) hlo
          have hxy : x = y := UInt8.toNat_inj.mp (by omega)
          rw [hxy, ih hrest]

end Tim
