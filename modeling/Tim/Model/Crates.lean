import Tim.Model.Json

/-!
# `Tim.Model.Crates`: the third-party functions that the token code calls

`jsonwebtoken`, `rsa`, `uuid` and the size of a `serde_json` encoding are not part of the
repository. `Crates` collects the functions of theirs that the code calls, as parameters of
the model. Tokens and keys are types of their own there: the code passes them on and never
looks inside.

What the code relies on is stated next to it, as named hypotheses that a theorem takes when
it needs them:

* `DecodeLaws`: when `decode` accepts, when it reports `InvalidSignature`, and that the key
  enters only through the algorithm and signature checks;
* `EncodeLaws`: an encoded token carries its header and its claims, up to the floats that
  `serde_json` does not read as it writes them, and verifies under the public half of its key;
* `Crates.JsonExact`: the payload of a token is the one that was encoded, floats included. Only
  the result about whole claim maps assumes it;
* `UuidLaws`: a formatted UUID parses back.

`verifies`, `allowed` and `payload` are the notions the laws are written in. No function of
the model calls them.
-/

set_option autoImplicit false

namespace Tim

/-- `jsonwebtoken::Algorithm`. -/
inductive Algorithm where
  | hs256 | hs384 | hs512
  | es256 | es384
  | rs256 | rs384 | rs512
  | ps256 | ps384 | ps512
  | edDSA
  deriving DecidableEq

/-- `jsonwebtoken::Header`, as far as the code reads or sets it. -/
structure Header where
  alg : Algorithm
  kid : Option String
  deriving DecidableEq

/-- `jsonwebtoken::errors::ErrorKind`. The kinds that `classify_jwt_error` does not name are
`other`. -/
inductive JwtErrorKind where
  | expiredSignature
  | invalidSignature
  | invalidAudience
  | invalidIssuer
  | immatureSignature
  | invalidToken
  | missingRequiredClaim (claim : String)
  | invalidEcdsaKey
  | invalidRsaKey (msg : String)
  | invalidAlgorithmName
  | invalidKeyFormat
  | invalidAlgorithm
  | other (msg : String)
  deriving DecidableEq

/-- `jsonwebtoken::Validation`, as far as the code sets it. -/
structure Validation where
  algorithms : List Algorithm
  leeway : Nat
  validateExp : Bool
  validateNbf : Bool
  validateAud : Bool
  requiredSpecClaims : List String
  iss : Option (List String)
  deriving DecidableEq

namespace Validation

/-- `Validation::new`, with the defaults of the crate. -/
def new (alg : Algorithm) : Validation where
  algorithms := [alg]
  leeway := 60
  validateExp := true
  validateNbf := false
  validateAud := true
  requiredSpecClaims := ["exp"]
  iss := none

/-- The integer under a claim name, if the claim is an integer. -/
def intClaim (p : Payload) (k : String) : Option Int :=
  match p.field k with
  | .present (.number (.int i)) => some i
  | _ => none

/-- A claim name that `required_spec_claims` can ask for is in the payload. Other names are
ignored by the crate. -/
def hasRequired (p : Payload) (k : String) : Bool :=
  if k ∈ ["exp", "sub", "iss", "aud", "nbf"] then
    match p.field k with
    | .missing => false
    | _ => true
  else true

/-- The claim checks of `decode` with `validate_aud` off: the required claims are there,
`exp` is not before `now - leeway`, `nbf` is not after `now + leeway`, and the issuer is one
of the expected. The crate has `exp` and both sums as `u64`. That is the same from one leeway
after 1970 on: a negative `exp` is then missing there and too early here. -/
def passes (v : Validation) (p : Payload) (now : Int64) : Bool :=
  v.requiredSpecClaims.all (hasRequired p)
    && (!v.validateExp || match intClaim p "exp" with
        | some e => !decide (e < now.toInt - v.leeway)
        | none => true)
    && (!v.validateNbf || match intClaim p "nbf" with
        | some n => !decide (now.toInt + v.leeway < n)
        | none => true)
    && match v.iss with
        | none => true
        | some allowed => match p.field "iss" with
            | .present (.string s) => allowed.contains s
            | _ => true

end Validation

/-- The third-party types and functions that the token code uses. -/
structure Crates where
  /-- A compact JWT. -/
  Token : Type
  EncodingKey : Type
  DecodingKey : Type
  RsaPrivateKey : Type
  RsaPublicKey : Type
  /-- `jsonwebtoken::encode`. -/
  encode : Header → Payload → EncodingKey → Except JwtErrorKind Token
  /-- `jsonwebtoken::decode_header`. -/
  decodeHeader : Token → Except JwtErrorKind Header
  /-- `jsonwebtoken::decode::<C>` at the second `now`, with the deserializer of `C`. -/
  decode : {C : Type} → (Payload → Option C) → Token → DecodingKey → Validation → Int64 →
    Except JwtErrorKind C
  /-- The `Display` text of a `jsonwebtoken` error. -/
  errorText : JwtErrorKind → String
  /-- `RsaPrivateKey::from_pkcs8_pem`. -/
  privateFromPkcs8Pem : String → Except String RsaPrivateKey
  /-- `RsaPublicKey::from`. -/
  publicOf : RsaPrivateKey → RsaPublicKey
  /-- `EncodingKey::from_rsa_pem`. -/
  encodingFromRsaPem : String → Except JwtErrorKind EncodingKey
  /-- `RsaPublicKey::to_pkcs1_pem`. -/
  toPkcs1Pem : RsaPublicKey → Except String String
  /-- `DecodingKey::from_rsa_pem`. -/
  decodingFromRsaPem : String → Except JwtErrorKind DecodingKey
  /-- The base64url text of the modulus. -/
  modulusText : RsaPublicKey → String
  /-- The base64url text of the public exponent. -/
  exponentText : RsaPublicKey → String
  /-- `Uuid::parse_str`. -/
  parseUuid : String → Option Uuid
  /-- `Uuid::to_string`. -/
  uuidText : Uuid → String
  /-- The length of `serde_json::to_vec` of a map. -/
  jsonLen : ClaimMap → Nat
  /-- The signature of the token verifies under the key, with the algorithm of its header. -/
  verifies : Token → DecodingKey → Bool
  /-- The algorithm of the token is among the allowed ones and fits the key. -/
  allowed : Token → DecodingKey → Validation → Bool
  /-- The claims object of the token. -/
  payload : Token → Option Payload

/-- What the code relies on from `jsonwebtoken::decode`. -/
structure DecodeLaws (K : Crates) : Prop where
  /-- `InvalidSignature` is reported exactly when the algorithm is allowed and the signature
  does not verify, before the claims are looked at. -/
  invalidSignature_iff : ∀ {C : Type} (de : Payload → Option C) t k v now,
    K.decode de t k v now = .error .invalidSignature
      ↔ K.allowed t k v = true ∧ K.verifies t k = false
  /-- Only a token with an allowed algorithm and a good signature is accepted. -/
  verifies_of_ok : ∀ {C : Type} (de : Payload → Option C) t k v now c,
    K.decode de t k v now = .ok c → K.allowed t k v = true ∧ K.verifies t k = true
  /-- The key is used for the algorithm and signature checks and for nothing else. -/
  key_irrelevant : ∀ {C : Type} (de : Payload → Option C) t k k' v now,
    K.allowed t k v = K.allowed t k' v →
    (K.allowed t k v = true → K.verifies t k = K.verifies t k') →
    K.decode de t k v now = K.decode de t k' v now
  /-- With `validate_aud` off, a token is accepted exactly when its algorithm is allowed, its
  signature verifies, its payload deserializes and the claim checks pass. -/
  ok_iff : ∀ {C : Type} (de : Payload → Option C) t k v now c, v.validateAud = false →
    (K.decode de t k v now = .ok c
      ↔ K.allowed t k v = true ∧ K.verifies t k = true
        ∧ ∃ p, K.payload t = some p ∧ de p = some c ∧ v.passes p now = true)
  /-- Whether an algorithm fits a key is the same for all RSA keys. -/
  allowed_rsa : ∀ t v pem k pem' k', K.decodingFromRsaPem pem = .ok k →
    K.decodingFromRsaPem pem' = .ok k' → K.allowed t k v = K.allowed t k' v
  /-- The algorithm check reads nothing of the validation but its algorithms. -/
  allowed_algorithms : ∀ t k v v', v.algorithms = v'.algorithms →
    K.allowed t k v = K.allowed t k v'
  /-- RS256 is allowed by a validation for RS256, under an RSA key. -/
  allowed_rs256 : ∀ t h v pem k, K.decodingFromRsaPem pem = .ok k →
    K.decodeHeader t = .ok h → h.alg = .rs256 → v.algorithms = [.rs256] →
    K.allowed t k v = true

/-- What the code relies on from `jsonwebtoken::encode`. -/
structure EncodeLaws (K : Crates) : Prop where
  header_of_encode : ∀ h p ek t, K.encode h p ek = .ok t → K.decodeHeader t = .ok h
  /-- The payload of a token of some claims is that of claims read back from their text. -/
  payload_of_encode : ∀ h (c : StandardClaims) ek t, K.encode h c.serialize ek = .ok t →
    ∃ c', c.RereadAs c' ∧ K.payload t = some c'.serialize
  /-- A token signed with a private key verifies under the public half of that key. -/
  verifies_of_encode : ∀ pem priv ek pubPem dk h p t, K.privateFromPkcs8Pem pem = .ok priv →
    K.encodingFromRsaPem pem = .ok ek → K.toPkcs1Pem (K.publicOf priv) = .ok pubPem →
    K.decodingFromRsaPem pubPem = .ok dk → h.alg = .rs256 → K.encode h p ek = .ok t →
    K.verifies t dk = true

/-- The payload of a token is the one that was encoded. For a payload with floats this is more
than `serde_json` promises. -/
def Crates.JsonExact (K : Crates) : Prop :=
  ∀ h p ek t, K.encode h p ek = .ok t → K.payload t = some p

/-- What the code relies on from `uuid`. -/
structure UuidLaws (K : Crates) : Prop where
  parse_text : ∀ u, K.parseUuid (K.uuidText u) = some u

end Tim
