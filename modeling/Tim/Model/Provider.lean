import Tim.Model.Crates
import Tim.Model.Session
import Tim.Model.Text

/-!
# `Tim.Model.Provider`: providers, discovery documents and ID tokens

The data of the OAuth2 flow and the pure functions on it: the provider part of the
configuration and `Provider` (`src/config/mod.rs`, `src/oauth2/registry.rs`), the discovery
document with its checks (`src/oauth2/discovery.rs`), the key set of a provider
(`src/oauth2/jwks.rs`), and the claims of an ID token with the choice of the key that verifies
it (`src/oauth2/idtoken.rs`).

`OAuthCrates` adds to `Crates` the third-party functions that this part calls: JSON bodies,
JWK decoding keys, URLs, base64 and SHA-256. The law that the code relies on is stated next
to it.
-/

set_option autoImplicit false

namespace Tim.OAuth

/-! ### Configuration -/

structure TokenValidationConfig where
  clockSkewSeconds : UInt64
  cacheTtlSeconds : UInt64
  deriving DecidableEq

structure ProviderConfig where
  name : String
  discoveryUrl : String
  clientIdEnv : String
  clientSecretEnv : String
  scopes : List String
  claimMappings : Std.ExtTreeMap String String
  tokenValidation : TokenValidationConfig
  allowedRedirectUris : List String
  allowHttpDiscovery : Bool
  jwksUri : Option String

/-- A resolved provider: its configuration and its credentials. -/
structure Provider where
  id : String
  config : ProviderConfig
  clientId : String
  clientSecret : String

/-- The time-to-live that `ProviderRegistry::from_config` computes for the JWKS cache: the
largest of the providers', at least 60 s. -/
def jwksTtl (providers : List ProviderConfig) : UInt64 :=
  providers.foldl (fun ttl pc => max ttl pc.tokenValidation.cacheTtlSeconds) 60

/-! ### `discovery.rs` -/

structure Discovery where
  issuer : String
  authorizationEndpoint : String
  tokenEndpoint : String
  userinfoEndpoint : Option String
  jwksUri : String
  grantTypesSupported : List String
  responseTypesSupported : List String
  deriving DecidableEq

/-- A `Vec` field with `#[serde(default)]`. -/
def vecField {α : Type} (f : Value → Option (List α)) : Field → Option (List α)
  | .missing => some []
  | .present v => f v
  | .duplicate => none

/-- A `String` field with `#[serde(default)]`. -/
def stringField : Field → Option String
  | .missing => some ""
  | .present v => v.asStr
  | .duplicate => none

namespace Discovery

/-- `Deserialize for Discovery`. -/
def deserialize (p : Payload) : Option Discovery := do
  let issuer ← (p.field "issuer").required Value.asStr
  let authorizationEndpoint ← (p.field "authorization_endpoint").required Value.asStr
  let tokenEndpoint ← (p.field "token_endpoint").required Value.asStr
  let userinfoEndpoint ← (p.field "userinfo_endpoint").optional Value.asStr
  let jwksUri ← (p.field "jwks_uri").required Value.asStr
  let grantTypesSupported ← vecField Value.asStrings (p.field "grant_types_supported")
  let responseTypesSupported ← vecField Value.asStrings (p.field "response_types_supported")
  return { issuer, authorizationEndpoint, tokenEndpoint, userinfoEndpoint, jwksUri,
           grantTypesSupported, responseTypesSupported }

/-- The endpoints that have to be `https://`, with their names. -/
def endpoints (d : Discovery) : List (String × String) :=
  [("authorization_endpoint", d.authorizationEndpoint), ("token_endpoint", d.tokenEndpoint),
   ("jwks_uri", d.jwksUri)]

/-- `Discovery::validate_with`. -/
def validateWith (d : Discovery) (allowHttp : Bool) : Except TimError Unit :=
  -- The issuer has to be there, but only the endpoints have to be https.
  match (("issuer", d.issuer) :: d.endpoints).find? fun f => (trim f.2).isEmpty with
  | some f => .error (.badGateway ("discovery: required field `" ++ f.1 ++ "` is empty"))
  | none =>
      match d.endpoints.find? fun f => !startsWith f.2 "https://" && !allowHttp with
      | some f => .error (.badGateway ("discovery: `" ++ f.1 ++ "` is not https://. Set "
          ++ "`allow_http_discovery: true` on this provider to opt in for dev."))
      | none =>
          -- A list that the document leaves out is not checked.
          if !d.grantTypesSupported.isEmpty
              && !d.grantTypesSupported.contains "authorization_code" then
            .error (.badGateway
              "discovery: provider does not advertise `authorization_code` grant")
          else if !d.responseTypesSupported.isEmpty
              && !d.responseTypesSupported.contains "code" then
            .error (.badGateway "discovery: provider does not advertise `code` response type")
          else .ok ()

end Discovery

/-- `retryable`. -/
def retryable : TimError → Bool
  | .upstreamTimeout _ => true
  -- The status is read back from the text of the error.
  | .badGateway msg => !containsText msg "returned 4"
  | _ => false

/-- `enforce_jwks_pin`. -/
def enforceJwksPin (provider : Provider) (discovery : Discovery) : Except TimError Unit :=
  match provider.config.jwksUri with
  | none => .ok ()
  | some pinned =>
      if pinned ≠ discovery.jwksUri then
        .error (.unprocessable ("provider " ++ provider.id ++ ": discovery jwks_uri `"
          ++ discovery.jwksUri ++ "` does not match pinned value `" ++ pinned ++ "`"))
      else .ok ()

/-! ### Key sets -/

/-- `jsonwebtoken::jwk::AlgorithmParameters`. The kinds that the code does not support appear
by their `Debug` text. -/
inductive AlgorithmParameters where
  | rsa (n e : String)
  | ellipticCurve (x y : String)
  | other (debug : String)
  deriving DecidableEq

/-- `jsonwebtoken::jwk::Jwk`, as far as the code reads it. `keyAlgorithm` is the `Debug` text
of the key's `alg`. -/
structure Jwk where
  keyId : Option String
  keyAlgorithm : Option String
  algorithm : AlgorithmParameters
  deriving DecidableEq

/-- `jsonwebtoken::jwk::JwkSet`. -/
abbrev JwkSet := List Jwk

/-- `Deserialize for JwksBody`: the field `keys`. -/
def jwksBody (p : Payload) : Option (List Value) :=
  vecField (fun
    | .array xs => some xs
    | _ => none) (p.field "keys")

/-- The `Debug` text of an `Algorithm`. -/
def algorithmDebug : Algorithm → String
  | .hs256 => "HS256"
  | .hs384 => "HS384"
  | .hs512 => "HS512"
  | .es256 => "ES256"
  | .es384 => "ES384"
  | .rs256 => "RS256"
  | .rs384 => "RS384"
  | .rs512 => "RS512"
  | .ps256 => "PS256"
  | .ps384 => "PS384"
  | .ps512 => "PS512"
  | .edDSA => "EdDSA"

/-- `jwk_matches_alg`. -/
def jwkMatchesAlg (jwk : Jwk) (alg : Algorithm) : Bool :=
  match jwk.keyAlgorithm with
  | some k => k == algorithmDebug alg
  | none =>
      -- A key without an algorithm is taken for every one of its family.
      match jwk.algorithm with
      | .rsa _ _ => [.rs256, .rs384, .rs512, .ps256, .ps384, .ps512].contains alg
      | .ellipticCurve _ _ => [.es256, .es384].contains alg
      | .other _ => false

/-! ### The third-party functions -/

/-- The third-party types and functions that the OAuth2 code uses. -/
structure OAuthCrates extends Crates where
  /-- A compact JWT by its text. -/
  compact : String → Token
  /-- `DecodingKey::from_rsa_components`. -/
  fromRsaComponents : String → String → Except JwtErrorKind DecodingKey
  /-- `DecodingKey::from_ec_components`. -/
  fromEcComponents : String → String → Except JwtErrorKind DecodingKey
  /-- `serde_json::from_value` of a `JwkSet` with the given keys. -/
  jwkSetFromValue : List Value → Option JwkSet
  /-- `Response::json`, with the deserializer of `C`. -/
  fromJson : {C : Type} → (Payload → Option C) → String → Except String C
  /-- The `Display` text of an HTTP status. -/
  statusText : Nat → String
  /-- `Url::parse`, then `append_pair` for each pair. -/
  appendPairs : String → List (String × String) → Except String String
  /-- `URL_SAFE_NO_PAD.encode`. -/
  base64Url : Bytes → String
  /-- `Sha256::digest`. -/
  sha256 : Bytes → Bytes

/-- What the code relies on from `base64`: the text of some bytes is not empty. -/
structure Base64Laws (K : OAuthCrates) : Prop where
  base64Url_ne_empty : ∀ b, b ≠ [] → K.base64Url b ≠ ""

/-- The S256 challenge of a PKCE verifier. -/
def challengeOf (K : OAuthCrates) (verifier : String) : String :=
  K.base64Url (K.sha256 (asBytes verifier))

/-- `JwksBody::into_jwk_set`. -/
def intoJwkSet (K : OAuthCrates) (keys : List Value) : JwkSet :=
  (K.jwkSetFromValue keys).getD []

/-- `decoding_key_for`. -/
def decodingKeyFor (K : OAuthCrates) (jwk : Jwk) : Except TimError K.DecodingKey :=
  match jwk.algorithm with
  | .rsa n e =>
      match K.fromRsaComponents n e with
      | .ok k => .ok k
      | .error err => .error (.unprocessable
          ("JWK → RSA decoding key: " ++ clipUntrusted (K.errorText err) 256))
  | .ellipticCurve x y =>
      match K.fromEcComponents x y with
      | .ok k => .ok k
      | .error err => .error (.unprocessable
          ("JWK → EC decoding key: " ++ clipUntrusted (K.errorText err) 256))
  | .other debug => .error (.unprocessable
      ("unsupported JWK type: " ++ clipUntrusted debug 256))

/-- The key of the set that `verify` takes: by the `kid` of the header, and without one the
first that fits the algorithm. -/
def selectKey (set : JwkSet) (header : Header) : Except TimError Jwk :=
  match header.kid with
  | some kid =>
      -- By its `kid` alone: the algorithm of the key is not compared here.
      match set.find? fun k => k.keyId == some kid with
      | some k => .ok k
      | none => .error (.unprocessable
          ("id_token kid \"" ++ clipUntrusted kid 256 ++ "\" not in JWKS"))
  | none =>
      match set.find? fun k => jwkMatchesAlg k header.alg with
      | some k => .ok k
      | none => .error (.unprocessable
          "id_token header omits kid and no JWKS key matches alg")

/-! ### `idtoken.rs` -/

/-- `AudClaim`: a string or an array of strings. -/
inductive AudClaim where
  | single (s : String)
  | multi (v : List String)
  deriving DecidableEq

/-- `AudClaim::contains`. -/
def AudClaim.contains (a : AudClaim) (want : String) : Bool :=
  match a with
  | .single s => s == want
  | .multi v => v.any (· == want)

structure IdTokenClaims where
  iss : String
  sub : String
  aud : AudClaim
  exp : Int64
  nbf : Option Int64
  iat : Int64
  nonce : Option String
  extra : ClaimMap

namespace IdTokenClaims

/-- The field names of `IdTokenClaims` other than the flattened one. -/
def named : List String := ["iss", "sub", "aud", "exp", "nbf", "iat", "nonce"]

/-- The untagged `AudClaim`, with `#[serde(default)]`. -/
def audField : Field → Option AudClaim
  | .missing => some (.multi [])
  | .present (.string s) => some (.single s)
  | .present v => v.asStrings.map .multi
  | .duplicate => none

/-- `Deserialize for IdTokenClaims`. -/
def deserialize (p : Payload) : Option IdTokenClaims := do
  let iss ← stringField (p.field "iss")
  let sub ← stringField (p.field "sub")
  let aud ← audField (p.field "aud")
  let exp ← (p.field "exp").required Value.asI64
  let nbf ← (p.field "nbf").optional Value.asI64
  let iat ← (p.field "iat").required Value.asI64
  let nonce ← (p.field "nonce").optional Value.asStr
  return { iss, sub, aud, exp, nbf, iat, nonce,
           extra := .ofList (p.filter fun e => !named.contains e.1) }

end IdTokenClaims

/-- `constant_time_eq`. -/
def constantTimeEq (a b : Bytes) : Bool := a.length == b.length && a == b

/-- The `Validation` that `verify` builds. -/
def idTokenValidation (provider : Provider) (discovery : Discovery) (alg : Algorithm) :
    Validation :=
  { Validation.new alg with
    validateExp := true
    validateNbf := true
    validateAud := false
    leeway := provider.config.tokenValidation.clockSkewSeconds.toNat
    -- `iat` is none of the names that the crate knows, so requiring it has no effect.
    requiredSpecClaims := ["exp", "iat", "iss", "sub"]
    iss := some [discovery.issuer] }

/-- `resolve_claim_path`: the segments lead into nested objects. -/
def resolveClaimPath (extra : ClaimMap) (path : String) : Option Value :=
  -- The first segment names a claim of `extra`, so a claim with a dot in its name is not found.
  match path.splitOn "." with
  | [] => none
  | first :: segments =>
      segments.foldl (fun current segment => current.bind fun
        | .object es => (es.reverse.find? fun e => e.1 = segment).map (·.2)
        | _ => none) extra[first]?

/-- The claim that a mapping of `profile_from_claims` names. -/
def mappedClaim (claims : IdTokenClaims) (providerKey : String) : Option Value :=
  -- The named fields are not in `extra`. Three of them are looked up here, the others are not.
  if providerKey = "sub" then some (.string claims.sub)
  else if providerKey = "iss" then some (.string claims.iss)
  else if providerKey = "aud" then
    some (match claims.aud with
      | .single s => .array [.string s]
      | .multi v => .array (v.map .string))
  else resolveClaimPath claims.extra providerKey

/-- `profile_from_claims`: the user id and the profile. -/
def profileFromClaims (provider : Provider) (claims : IdTokenClaims) : String × ClaimMap :=
  (claims.sub, provider.config.claimMappings.toList.foldl (fun profile m =>
    match mappedClaim claims m.2 with
    | some v => profile.insert m.1 v
    | none => profile) ∅)

/-! ### `http.rs` -/

/-- The test of `is_offline` on the value of `TIM_OFFLINE` at the first read. -/
def isOffline (env : Option String) : Bool :=
  match env with
  | some v => ["1", "true", "yes"].contains (toAsciiLowercase (trim v))
  | none => false

end Tim.OAuth
