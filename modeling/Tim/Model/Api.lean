import Tim.Model.Signer

/-!
# `Tim.Model.Api`: requests, responses and configuration of the token service

The types of `src/jwt/api.rs`, the request and response of `src/introspect/mod.rs`, and the
parts of `JwtConfig` (`src/config/mod.rs`) that the service reads. `set_cookie`,
`ValidateRequest::reason` and `token_type_hint` are left out: no function here reads them.
-/

set_option autoImplicit false

namespace Tim

/-! ### `src/jwt/api.rs` -/

/-- `"aud"` or `["aud1", "aud2"]` in a request. -/
inductive Audience where
  | single (s : String)
  | multi (v : List String)
  deriving DecidableEq

/-- `Audience::into_vec`. -/
def Audience.intoVec : Audience → List String
  | .single s => [s]
  | .multi v => v

structure GenerateRequest where
  jwtName : String
  content : ClaimMap
  expirationInMinutes : Int64
  audience : Option Audience

structure TokenResponse (K : Crates) where
  status : String
  jwtName : String
  token : K.Token
  expiresAt : DateTime

structure ValidateRequest (K : Crates) where
  token : K.Token
  audience : Option String
  issuer : Option String

structure ValidateResponse where
  valid : Bool
  active : Bool
  reason : Option String
  subject : Option String
  issuer : Option String
  audience : Option (List String)
  expiresAt : Option DateTime
  issuedAt : Option DateTime
  jwtId : Option String
  claims : Option ClaimMap

structure ExtendRequest (K : Crates) where
  token : K.Token
  expirationInMinutes : Option Int64

structure BulkRevokeRequest (K : Crates) where
  tokens : List K.Token
  reason : Option String

structure BulkRevokeItem (K : Crates) where
  token : K.Token
  status : String
  reason : Option String

structure BulkRevokeResponse (K : Crates) where
  newlyRevoked : Nat
  alreadyRevoked : Nat
  failed : Nat
  results : List (BulkRevokeItem K)

/-- `offset` is a page number, or a row offset when `byRow` is set. -/
structure ListRequest where
  offset : Option Int64
  limit : Option Int64
  byRow : Bool
  issuedAfter : Option DateTime
  issuedBefore : Option DateTime
  expiresAfter : Option DateTime
  expiresBefore : Option DateTime
  jwtName : Option String

structure Pagination where
  total : Int64
  offset : Int64
  limit : Int64
  page : Int64
  size : Int64
  totalPages : Int64
  deriving DecidableEq

structure TokenSummary where
  jti : String
  subject : Option String
  jwtName : Option String
  issuedAt : DateTime
  expiresAt : DateTime
  issuer : Option String
  audience : Option String
  status : String
  revokedAt : Option DateTime
  revocationReason : Option String
  deriving DecidableEq

structure ListResponse where
  tokens : List TokenSummary
  pagination : Pagination
  deriving DecidableEq

/-! ### `src/introspect/mod.rs` -/

structure IntrospectRequest (K : Crates) where
  token : K.Token

structure IntrospectionResponse where
  active : Bool := false
  scope : Option String := none
  clientId : Option String := none
  username : Option String := none
  tokenType : Option String := none
  exp : Option Int64 := none
  iat : Option Int64 := none
  nbf : Option Int64 := none
  sub : Option String := none
  aud : Option (List String) := none
  iss : Option String := none
  jti : Option String := none
  extraClaims : ClaimMap := ∅

/-- `IntrospectionResponse::inactive`. -/
def IntrospectionResponse.inactive : IntrospectionResponse := { active := false }

/-! ### `src/config/mod.rs` -/

structure AudienceConfig where
  validationEnabled : Bool
  allowed : List String
  default : String
  deriving DecidableEq

structure JwtConfig where
  issuer : String
  audience : AudienceConfig
  maxClaimsBytes : Nat
  bulkRevokeMax : Nat
  deriving DecidableEq

/-- The test that guards both audience checks of the service. -/
def AudienceConfig.enforced (a : AudienceConfig) : Bool :=
  a.validationEnabled && !a.allowed.isEmpty

end Tim
