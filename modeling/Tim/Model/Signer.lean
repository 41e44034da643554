import Tim.Model.Crates

/-!
# `Tim.Model.Signer`: the signing keys (`src/crypto/mod.rs`)

`JwtSigner` holds the current key pair and, during a rotation, a predecessor with the instant
at which it retires. `verifyRaw` is the two-key verification: it goes by the `kid` of the
header to an active predecessor, and else tries the current key first and an active
predecessor after `InvalidSignature`.

Two facts that hold by construction are fields of the types. The halves of a `KeyPair` come
from one PEM file, and the predecessor of a `JwtSigner` has another `kid` than the current
key. `withPrevious` is where the second one is checked.

Each function that reads the clock takes the instant as an argument, one per call.
-/

set_option autoImplicit false

namespace Tim

/-- A loaded RSA key pair. The signing half, the verifying half and the public key that JWKS
advertises come from the same PEM file. -/
structure KeyPair (K : Crates) where
  kid : String
  encoding : K.EncodingKey
  decoding : K.DecodingKey
  pub : K.RsaPublicKey
  fromPem : ∃ pem priv pubPem, K.privateFromPkcs8Pem pem = .ok priv ∧ pub = K.publicOf priv
    ∧ K.encodingFromRsaPem pem = .ok encoding ∧ K.toPkcs1Pem pub = .ok pubPem
    ∧ K.decodingFromRsaPem pubPem = .ok decoding

/-- A JSON Web Key of an RSA public key. -/
structure Jwk where
  kty : String
  alg : String
  use_ : String
  kid : String
  n : String
  e : String
  deriving DecidableEq

namespace KeyPair

variable {K : Crates}

/-- `KeyPair::from_pkcs8_pem`. -/
def fromPkcs8Pem (K : Crates) (pem : String) (kid : String) : Except TimError (KeyPair K) :=
  match hpriv : K.privateFromPkcs8Pem pem with
  | .error e => .error (.crypto ("parse PKCS#8 PEM: " ++ e))
  | .ok priv =>
      match henc : K.encodingFromRsaPem pem with
      | .error e => .error (.crypto ("jsonwebtoken encoding key: " ++ K.errorText e))
      | .ok encoding =>
          match hpub : K.toPkcs1Pem (K.publicOf priv) with
          | .error e => .error (.crypto ("encode public PKCS#1: " ++ e))
          | .ok pubPem =>
              match hdec : K.decodingFromRsaPem pubPem with
              | .error e => .error (.crypto ("jsonwebtoken decoding key: " ++ K.errorText e))
              | .ok decoding => .ok {
                  kid, encoding, decoding
                  pub := K.publicOf priv
                  fromPem := ⟨pem, priv, pubPem, hpriv, rfl, henc, hpub, hdec⟩ }

/-- `KeyPair::jwk_json`. -/
def jwkJson (k : KeyPair K) : Jwk where
  kty := "RSA"
  alg := "RS256"
  use_ := "sig"
  kid := k.kid
  n := K.modulusText k.pub
  e := K.exponentText k.pub

/-- A key pair has the key id that it was given. -/
theorem fromPkcs8Pem_kid {pem kid : String} {k : KeyPair K}
    (h : fromPkcs8Pem K pem kid = .ok k) : k.kid = kid := by
  unfold fromPkcs8Pem at h
  split at h
  · cases h
  · split at h
    · cases h
    · split at h
      · cases h
      · split at h
        · cases h
        · cases h
          rfl

end KeyPair

/-- The key or keys that sign and verify. -/
structure JwtSigner (K : Crates) where
  current : KeyPair K
  previous : Option (KeyPair K)
  previousRetiresAt : Option DateTime
  kids_differ : ∀ prev, previous = some prev → prev.kid ≠ current.kid

namespace JwtSigner

variable {K : Crates}

/-- `JwtSigner::from_pkcs8_pem`. -/
def fromPkcs8Pem (K : Crates) (pem : String) (kid : String) : Except TimError (JwtSigner K) :=
  match KeyPair.fromPkcs8Pem K pem kid with
  | .error e => .error e
  | .ok current => .ok {
      current
      previous := none
      previousRetiresAt := none
      kids_differ := by simp }

/-- `JwtSigner::with_previous`. -/
def withPrevious (s : JwtSigner K) (pem : String) (kid : String) (retiresAt : DateTime) :
    Except TimError (JwtSigner K) :=
  if hkid : kid = s.current.kid then
    .error (.config ("jwt.previous_key.key_id must differ from jwt.key_id (`" ++ kid ++ "`)"))
  else
    match hprev : KeyPair.fromPkcs8Pem K pem kid with
    | .error e => .error e
    | .ok prev => .ok {
        current := s.current
        previous := some prev
        previousRetiresAt := some retiresAt
        kids_differ := by
          intro p hp
          cases hp
          rw [KeyPair.fromPkcs8Pem_kid hprev]
          exact hkid }

/-- `JwtSigner::sign`: RS256 with the current key and its `kid`. -/
def sign (s : JwtSigner K) (claims : Payload) : Except TimError K.Token :=
  match K.encode { alg := .rs256, kid := some s.current.kid } claims s.current.encoding with
  | .ok t => .ok t
  | .error e => .error (.crypto ("sign JWT: " ++ K.errorText e))

/-- `JwtSigner::active_previous`: the predecessor, while `retires_at > now`. -/
def activePrevious (s : JwtSigner K) (now : DateTime) : Option (KeyPair K) :=
  match s.previousRetiresAt with
  | none => none
  | some retires => if retires ≤ now then none else s.previous

/-- `JwtSigner::active_previous_matching`. -/
def activePreviousMatching (s : JwtSigner K) (now : DateTime) (kid : String) :
    Option (KeyPair K) :=
  match s.activePrevious now with
  | none => none
  | some prev => if prev.kid = kid then some prev else none

/-- `JwtSigner::previous_kid_active`. -/
def previousKidActive (s : JwtSigner K) (now : DateTime) : Option (String × DateTime) :=
  match s.previousRetiresAt with
  | none => none
  | some retires =>
      if retires ≤ now then none
      else s.previous.map fun prev => (prev.kid, retires)

/-- The predecessor that the `kid` in the token's header names, if it names one. -/
def routed (s : JwtSigner K) (now : DateTime) (token : K.Token) : Option (KeyPair K) :=
  match K.decodeHeader token with
  | .error _ => none
  | .ok header =>
      match header.kid with
      | none => none
      | some kid => s.activePreviousMatching now kid

/-- `JwtSigner::verify_raw`. -/
def verifyRaw {C : Type} (s : JwtSigner K) (now : DateTime) (de : Payload → Option C)
    (token : K.Token) (v : Validation) : Except JwtErrorKind C :=
  match s.routed now token with
  | some prev => K.decode de token prev.decoding v now.timestamp
  | none =>
      match K.decode de token s.current.decoding v now.timestamp with
      | .ok d => .ok d
      | .error e =>
          match e with
          | .invalidSignature =>
              match s.activePrevious now with
              | some prev => K.decode de token prev.decoding v now.timestamp
              | none => .error e
          | _ => .error e

/-- `JwtSigner::verify`. -/
def verify {C : Type} (s : JwtSigner K) (now : DateTime) (de : Payload → Option C)
    (token : K.Token) (v : Validation) : Except TimError C :=
  match s.verifyRaw now de token v with
  | .ok d => .ok d
  | .error e => .error (.crypto ("verify JWT: " ++ K.errorText e))

/-- `JwtSigner::jwks`: the current key, and the predecessor while it is active. -/
def jwks (s : JwtSigner K) (now : DateTime) : List Jwk :=
  match s.activePrevious now with
  | some prev => [s.current.jwkJson] ++ [prev.jwkJson]
  | none => [s.current.jwkJson]

/-- `from_pkcs8_pem` followed by a sequence of `with_previous` calls. -/
def build (K : Crates) (pem : String) (kid : String)
    (previous : List (String × String × DateTime)) : Except TimError (JwtSigner K) :=
  previous.foldlM (fun s p => s.withPrevious p.1 p.2.1 p.2.2)
    =<< fromPkcs8Pem K pem kid

end JwtSigner

end Tim
