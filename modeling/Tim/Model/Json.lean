import Tim.Model.Base

/-!
# `Tim.Model.Json`: JSON values and the claim objects of a token

`Value` is `serde_json::Value` and `ClaimMap` is `BTreeMap<String, Value>`. The payload of a
token is a JSON object. It is kept as the list of its entries in the order they are written,
with duplicate keys possible, because a duplicate of a named field is what makes `serde`
refuse it.

`StandardClaims` (`src/jwt/service.rs`) has six named fields and a flattened `extra` map.
`serialize` writes the named fields and then every entry of `extra`. `deserialize` reads each
named field where it occurs once, and collects every other key into `extra`.
`deserialize_serialize` is the round trip. It needs that `extra` has none of the six names.

Between the two stands a JSON text. `serde_json` is built without its feature `float_roundtrip`,
so a float can be read back as one of its neighbours. Keys, strings and integers survive.
`SameStrings` and `RereadAs` say what this leaves of a map and of the claims.
-/

set_option autoImplicit false

namespace Tim

/-- `serde_json::Number`: an integer, or a float by its bits. -/
inductive Number where
  | int (i : Int)
  | float (bits : UInt64)
  deriving DecidableEq

/-- `serde_json::Value`. -/
inductive Value where
  | null
  | bool (b : Bool)
  | number (n : Number)
  | string (s : String)
  | array (xs : List Value)
  | object (es : List (String × Value))

/-- `BTreeMap<String, Value>`. -/
abbrev ClaimMap := Std.ExtTreeMap String Value

/-- The entries of a JSON object, in the order they are written. -/
abbrev Payload := List (String × Value)

namespace Value

/-- `Value::as_str`. -/
def asStr : Value → Option String
  | .string s => some s
  | _ => none

/-- An `i64` field: an integer in the range of the type. -/
def asI64 : Value → Option Int64
  | .number (.int i) => if -2 ^ 63 ≤ i ∧ i < 2 ^ 63 then some (Int64.ofInt i) else none
  | _ => none

/-- A `Vec<String>` field. -/
def asStrings : Value → Option (List String)
  | .array xs => xs.mapM asStr
  | _ => none

/-- An `Option<T>` field: `null` is `None`. -/
def asOption {α : Type} (f : Value → Option α) : Value → Option (Option α)
  | .null => some none
  | v => (f v).map some

end Value

/-- What `serde` finds for a named field: nothing, one value, or a duplicate. -/
inductive Field where
  | missing
  | present (v : Value)
  | duplicate

/-- The values written under one key. -/
def Payload.values (p : Payload) (k : String) : List Value :=
  p.filterMap fun e => if e.1 = k then some e.2 else none

/-- The named field `k` of an object. -/
def Payload.field (p : Payload) (k : String) : Field :=
  match p.values k with
  | [] => .missing
  | [v] => .present v
  | _ => .duplicate

/-- A field without a default. -/
def Field.required {α : Type} (f : Value → Option α) : Field → Option α
  | .present v => f v
  | _ => none

/-- An `Option` field: absent and `null` are both `None`. -/
def Field.optional {α : Type} (f : Value → Option α) : Field → Option (Option α)
  | .missing => some none
  | .present v => Value.asOption f v
  | .duplicate => none

/-! ### `StandardClaims` -/

/-- The standard-plus-custom claims signed into every JWT. -/
structure StandardClaims where
  iss : String
  sub : Option String
  aud : Option (List String)
  exp : Int64
  iat : Int64
  jti : String
  extra : ClaimMap

namespace StandardClaims

/-- The field names of `StandardClaims` other than the flattened one. -/
def named : List String := ["iss", "sub", "aud", "exp", "iat", "jti"]

/-- `None` is written as `null`. -/
def optionValue {α : Type} (f : α → Value) : Option α → Value
  | none => .null
  | some a => f a

/-- The entries of the named fields. -/
def namedEntries (c : StandardClaims) : Payload :=
  [("iss", .string c.iss),
   ("sub", optionValue .string c.sub),
   ("aud", optionValue (fun l => .array (l.map .string)) c.aud),
   ("exp", .number (.int c.exp.toInt)),
   ("iat", .number (.int c.iat.toInt)),
   ("jti", .string c.jti)]

/-- `Serialize for StandardClaims`: the named fields, then the flattened map. -/
def serialize (c : StandardClaims) : Payload := c.namedEntries ++ c.extra.toList

/-- The flattened field: every key that is not a named field, the last entry of a key
winning. -/
def flatten (p : Payload) : ClaimMap :=
  .ofList (p.filter fun e => !named.contains e.1)

/-- `Deserialize for StandardClaims`. -/
def deserialize (p : Payload) : Option StandardClaims := do
  let iss ← (p.field "iss").required Value.asStr
  let sub ← (p.field "sub").optional Value.asStr
  let aud ← (p.field "aud").optional Value.asStrings
  let exp ← (p.field "exp").required Value.asI64
  let iat ← (p.field "iat").required Value.asI64
  let jti ← (p.field "jti").required Value.asStr
  return { iss, sub, aud, exp, iat, jti, extra := flatten p }

end StandardClaims

/-! ### What a JSON text keeps -/

/-- The two maps have the same keys, and the same strings under them. -/
structure SameStrings (m m' : ClaimMap) : Prop where
  none_iff : ∀ k : String, m'[k]? = none ↔ m[k]? = none
  string_iff : ∀ k s : String, m'[k]? = some (.string s) ↔ m[k]? = some (.string s)

/-- `c'` can be read from the text of `c`. No named field has a float, so these are the same. -/
def StandardClaims.RereadAs (c c' : StandardClaims) : Prop :=
  ∃ extra, SameStrings c.extra extra ∧ c' = { c with extra }

end Tim
