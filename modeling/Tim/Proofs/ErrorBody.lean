import Mathlib.Algebra.Group.Action.Defs
import Mathlib.Algebra.Order.BigOperators.Group.List
import Mathlib.Algebra.Order.Ring.Nat
import Tim.Model.Router

/-!
# `Tim.Proofs.ErrorBody`: how long the body of an error reply is

The length of the text that `serde_json` writes for the small objects of the router and for the
answer of a bulk revocation, and bounds on it. A text of `n` characters takes at most `6 * n`
and its two quotes.

* `quotedSize_le`: a text with its escapes and quotes.
* `fieldSize_le`, `objectSize_le`: a field, and an object of such fields.
-/

set_option autoImplicit false

namespace Tim.Web

/-! ### The length of a body -/

/-- The length of a character in a JSON string, with its escape. -/
def charSize (c : Char) : Nat :=
  if c ∈ ['"', '\\', '\n', '\r', '\t', Char.ofNat 8, Char.ofNat 12] then 2
  else if c.toNat < 32 then 6
  else 1

/-- The length of a JSON string with its quotes. -/
def quotedSize (s : String) : Nat := 2 + (s.toList.map charSize).sum

namespace Scalar

/-- The length of a value of a `json!` object. -/
def size : Scalar → Nat
  | .null => 4
  | .bool b => if b then 4 else 5
  | .nat n => (toString n).length
  | .str s => quotedSize s

/-- The text of a value. -/
def text : Scalar → Option String
  | .str s => some s
  | _ => none

end Scalar

/-- The length of an array or an object with members of the given lengths: the members, the
brackets and the commas. -/
def groupSize (members : List Nat) : Nat := 2 + members.sum + (members.length - 1)

/-- The length of a field, with its colon. -/
def fieldSize (f : String × Scalar) : Nat := quotedSize f.1 + 1 + f.2.size

/-- The length of a `json!` object. -/
def objectSize (fields : List (String × Scalar)) : Nat := groupSize (fields.map fieldSize)

/-- The fields of an item of a bulk revocation. -/
def itemFields (K : WebCrates) (i : BulkRevokeItem K.toCrates) : List (String × Scalar) :=
  ("token", .str (K.tokenText i.token)) :: ("status", .str i.status)
    :: match i.reason with
      | some r => [("reason", .str r)]
      | none => []

/-- The counts of a bulk revocation. -/
def countFields {K : WebCrates} (r : BulkRevokeResponse K.toCrates) : List (String × Scalar) :=
  [("newly_revoked", .nat r.newlyRevoked), ("already_revoked", .nat r.alreadyRevoked),
   ("failed", .nat r.failed)]

namespace Body

variable {K : WebCrates}

/-- The length of a body of an error reply. The other bodies are serialized records. -/
def size : Body K → Option Nat
  | .empty => some 0
  | .text s => some s.length
  | .object fields => some (objectSize fields)
  | .bulkRevoke r => some (groupSize ((countFields r).map fieldSize ++ [quotedSize "results" + 1
      + groupSize (r.results.map fun i => objectSize (itemFields K i))]))
  | _ => none

/-- The texts in a body of an error reply. -/
def texts : Body K → List String
  | .text s => [s]
  | .object fields => fields.filterMap fun f => f.2.text
  | .bulkRevoke r => r.results.flatMap fun i => (itemFields K i).filterMap fun f => f.2.text
  | _ => []

/-- The body is the verdict on a token. The claims in it are those that the server has signed. -/
def isVerdict : Body K → Bool
  | .validate _ => true
  | _ => false

/-- One of the texts of the body has the piece in it. -/
def Shows (b : Body K) (s : String) : Prop := ∃ t ∈ b.texts, s.toList <:+: t.toList

/-- The body is a verdict, or has at most `n` characters. -/
def Within (b : Body K) (n : Nat) : Prop := b.isVerdict = true ∨ ∃ m ≤ n, b.size = some m

end Body

/-! ### Sizes -/

/-- The longest escape of a character has six bytes. -/
theorem charSize_le (c : Char) : charSize c ≤ 6 := by
  unfold charSize
  split
  · omega
  · split <;> omega

/-- A string grows by its escapes at most sixfold. -/
theorem quotedSize_le {s : String} {n : Nat} (h : s.length ≤ n) : quotedSize s ≤ 2 + 6 * n := by
  have hsum : (s.toList.map charSize).sum ≤ (s.toList.map charSize).length • 6 := by
    refine List.sum_le_card_nsmul _ _ fun x hx => ?_
    obtain ⟨c, -, rfl⟩ := List.mem_map.mp hx
    exact charSize_le c
  rw [List.length_map, String.length_toList, smul_eq_mul] at hsum
  unfold quotedSize
  omega

/-- A literal is as long as its list of characters. Evaluating the string itself is slow. -/
theorem length_fixed {chars : List Char} {n : Nat} (h : chars.length ≤ n) :
    (String.ofList chars).length ≤ n := by
  rwa [String.length_ofList]

/-- A number has at most one digit more than its value. -/
theorem length_toString_le (n : Nat) : (toString n).length ≤ n + 1 := by
  have hlt : n < 10 ^ (n + 1) :=
    (Nat.lt_pow_self (by decide)).trans (Nat.pow_lt_pow_right (by decide) (Nat.lt_succ_self n))
  exact (Nat.length_repr_le_iff (Nat.succ_pos n)).mpr hlt

/-- A list of members of bounded sizes has a bounded size. -/
theorem groupSize_le {members : List Nat} {n : Nat} (h : ∀ m ∈ members, m ≤ n) :
    groupSize members ≤ 2 + members.length * (n + 1) := by
  have hsum : members.sum ≤ members.length • n := List.sum_le_card_nsmul _ _ h
  rw [smul_eq_mul] at hsum
  unfold groupSize
  rw [Nat.mul_add, Nat.mul_one]
  omega

namespace Scalar

/-- The value is written with no more characters than a text of length `n`. -/
def Fits (n : Nat) (v : Scalar) : Prop := v.size ≤ 2 + 6 * n

/-- A short string fits. -/
theorem fits_str {s : String} {n : Nat} (h : s.length ≤ n) : (Scalar.str s).Fits n :=
  quotedSize_le h

/-- A number with few digits fits. -/
theorem fits_nat {k n : Nat} (h : (toString k).length ≤ n) : (Scalar.nat k).Fits n := by
  show (toString k).length ≤ _
  omega

end Scalar

/-- The field's key and value fit. -/
def FieldFits (n : Nat) (f : String × Scalar) : Prop := f.1.length ≤ n ∧ f.2.Fits n

/-- A field is its name, its value, two quotes and a colon at most. -/
theorem fieldSize_le {f : String × Scalar} {n : Nat} (h : FieldFits n f) :
    fieldSize f ≤ 12 * n + 5 := by
  have hkey := quotedSize_le h.1
  have hvalue : f.2.size ≤ 2 + 6 * n := h.2
  unfold fieldSize
  omega

/-- An object is its fields with a comma each, in two braces. -/
theorem objectSize_le {fields : List (String × Scalar)} {n : Nat}
    (h : ∀ f ∈ fields, FieldFits n f) : objectSize fields ≤ 2 + fields.length * (12 * n + 6) := by
  have hmembers : ∀ m ∈ fields.map fieldSize, m ≤ 12 * n + 5 := by
    intro m hm
    obtain ⟨f, hf, rfl⟩ := List.mem_map.mp hm
    exact fieldSize_le (h f hf)
  have hsize := groupSize_le hmembers
  rwa [List.length_map] at hsize

end Tim.Web
