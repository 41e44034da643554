import Tim.Model.Api
import Tim.Model.Store

/-!
# `Tim.Model.Service`: the token service

`JwtService` (`src/jwt/service.rs`) and `Introspector` (`src/introspect/mod.rs`), one program
per public function. A program makes the calls of `Op` in the order the source makes them,
and takes its error exits at the same places.

Each verification reads the clock once. An open transaction that the source drops on an
error exit is a `rollback` call here.
-/

set_option autoImplicit false

namespace Tim

open Tim.Lib

/-- Code of the token service that returns an `α`. -/
abbrev Action (K : Crates) (α : Type) := Prog (jwtSig K) Fault α

namespace Action

variable {K : Crates} {α : Type}

/-- One call to the outside. -/
def call (o : Op) : Action K (Resp K o) := Prog.call (S := jwtSig K) o

/-- Stop with an error. -/
def fail (e : TimError) : Action K α := .raise (.err e)

/-- The `?` on the answer to a statement. -/
def sql : Sql α → Action K α
  | .ok a => .ret a
  | .error e => fail (.database e)

/-- The result of `p` as a value. A panic is not a value: it goes through. -/
def attempt (p : Action K α) : Action K (Except TimError α) :=
  p.handle (fun a => .ret (.ok a)) fun
    | .err e => .ret (.error e)
    | .panic => .raise .panic

/-- Run `p` with an open transaction, which is dropped when `p` stops. -/
def orRollback (p : Action K α) : Action K α :=
  p.handle .ret fun f => do
    let () ← call .rollback
    .raise f

end Action

open Tim.Action

/-- `RESERVED_CLAIM_NAMES`. -/
def reservedClaimNames : List String := ["iss", "sub", "aud", "exp", "iat", "jti", "nbf"]

/-- `strip_reserved`. -/
def stripReserved (map : ClaimMap) : ClaimMap :=
  reservedClaimNames.foldl (fun m k => m.erase k) map

/-- `permissive_validation`. -/
def permissiveValidation : Validation :=
  { Validation.new .rs256 with
    validateExp := false
    validateAud := false
    requiredSpecClaims := [] }

/-- The `Validation` that `authenticate_bearer` builds. -/
def bearerValidation : Validation :=
  { Validation.new .rs256 with
    validateExp := true
    validateAud := false
    requiredSpecClaims := [] }

/-- `classify_jwt_error`. -/
def classifyJwtError : JwtErrorKind → String
  | .expiredSignature => "expired"
  | .invalidSignature => "signature_mismatch"
  | .invalidAudience => "invalid_audience"
  | .invalidIssuer => "invalid_issuer"
  | .immatureSignature => "not_yet_valid"
  | .invalidToken | .missingRequiredClaim _ | .invalidEcdsaKey | .invalidRsaKey _ =>
      "malformed_token"
  | .invalidAlgorithmName | .invalidKeyFormat | .invalidAlgorithm => "key_mismatch"
  | .other _ => "validation_failed"

/-- `response_from`. -/
def responseFrom (claims : StandardClaims) (valid active : Bool) (reason : String) :
    ValidateResponse where
  valid := valid
  active := active
  reason := some reason
  subject := claims.sub
  issuer := some claims.iss
  audience := claims.aud
  expiresAt := DateTime.fromTimestamp claims.exp
  issuedAt := DateTime.fromTimestamp claims.iat
  jwtId := some claims.jti
  claims := some claims.extra

/-- `response_from_valid`. -/
def responseFromValid (claims : StandardClaims) : ValidateResponse where
  valid := true
  active := true
  reason := none
  subject := claims.sub
  issuer := some claims.iss
  audience := claims.aud
  expiresAt := DateTime.fromTimestamp claims.exp
  issuedAt := DateTime.fromTimestamp claims.iat
  jwtId := some claims.jti
  claims := some claims.extra

/-- The response of `validate` to a token that does not decode. -/
def responseUndecodable (reason : String) : ValidateResponse where
  valid := false
  active := false
  reason := some reason
  subject := none
  issuer := none
  audience := none
  expiresAt := none
  issuedAt := none
  jwtId := none
  claims := none

/-- The `claim_keys` column: the keys of the signed map, joined. -/
def claimKeys (extra : ClaimMap) : String := ",".intercalate extra.keys

/-- `now + Duration::minutes(minutes)`. Both parts panic when they leave their range. -/
def addMinutes {K : Crates} (now : DateTime) (minutes : Int64) : Action K DateTime :=
  match Duration.tryMinutes minutes with
  | none => .raise .panic
  | some d =>
      match now.checkedAdd d with
      | none => .raise .panic
      | some t => .ret t

structure JwtService (K : Crates) where
  signer : JwtSigner K
  cfg : JwtConfig

namespace JwtService

variable {K : Crates} (svc : JwtService K)

/-- `JwtService::resolve_audience`: the requested audience or the default one. While the
policy is on, every entry has to be allowed. -/
def resolveAudience (requested : Option Audience) : Except TimError (List String) :=
  let aud := match requested with
    | some a => a.intoVec
    | none => [svc.cfg.audience.default]
  -- The default audience has to be allowed as well, and the first entry that is not is named.
  if svc.cfg.audience.enforced then
    match aud.find? fun a => !svc.cfg.audience.allowed.contains a with
    | some a => .error (.unprocessable ("audience '" ++ a ++ "' not in allowed set"))
    | none => .ok aud
  else .ok aud

/-- The claims that `generate` signs. -/
def generateClaims (req : GenerateRequest) (aud : List String) (jti : Uuid)
    (now exp : DateTime) : StandardClaims where
  iss := svc.cfg.issuer
  sub := req.content["sub"]?.bind Value.asStr
  aud := some aud
  exp := exp.timestamp
  iat := now.timestamp
  jti := K.uuidText jti
  extra := (stripReserved req.content).insert "token_type" (.string "custom_jwt")

/-- The metadata row that `generate` inserts. -/
def generateRow (req : GenerateRequest) (claims : StandardClaims) (aud : List String)
    (id jti : Uuid) (now exp : DateTime) : NewMetadata where
  id := id
  jwtUuid := jti
  claimKeys := claimKeys claims.extra
  issuedAt := now
  expiresAt := exp
  subject := claims.sub
  jwtName := some req.jwtName
  audience := some (",".intercalate aud)
  issuer := some svc.cfg.issuer
  supersedes := none
  originalJwtUuid := jti

/-- `JwtService::generate`. -/
def generate (req : GenerateRequest) : Action K (TokenResponse K) :=
  if req.expirationInMinutes ≤ 0 then
    fail (.badRequest "expirationInMinutes must be > 0")
  -- The limit is on the content as it came, before the reserved names are removed.
  else if svc.cfg.maxClaimsBytes < K.jsonLen req.content then
    fail (.payloadTooLarge svc.cfg.maxClaimsBytes)
  else
    match svc.resolveAudience req.audience with
    | .error e => fail e
    | .ok aud => do
        let jti ← call .newUuid
        let now ← call .now
        let exp ← addMinutes now req.expirationInMinutes
        let claims := svc.generateClaims req aud jti now exp
        -- The token is signed before its row is stored, so a failed insertion loses a signed token.
        match ← call (.sign claims) with
        | .error e => fail e
        | .ok token => do
            let id ← call .newUuid
            let () ← sql (← call (.insertMetadata .pool
              (svc.generateRow req claims aud id jti now exp)))
            return { status := "created", jwtName := req.jwtName, token, expiresAt := exp }

/-- `JwtService::denylist_lookup`. -/
def denylistLookup (jti : Uuid) : Action K Bool := do sql (← call (.selectDenylist jti))

/-- `JwtService::validate`. -/
def validate (req : ValidateRequest K) : Action K ValidateResponse := do
  let at_ ← call .now
  match svc.signer.verifyRaw at_ StandardClaims.deserialize req.token permissiveValidation with
  | .error e => return responseUndecodable (classifyJwtError e)
  | .ok claims =>
      let now : DateTime ← call .now
      -- The claim is compared with what the caller asks for, not with the configured issuer.
      if req.issuer.any (fun want => want ≠ claims.iss) then
        return responseFrom claims false false "issuer_mismatch"
      else if req.audience.any (fun want => !claims.aud.any (·.contains want)) then
        return responseFrom claims true false "audience_mismatch"
      -- While the policy is on, one allowed audience is enough.
      else if svc.cfg.audience.enforced
          && !claims.aud.any (·.any svc.cfg.audience.allowed.contains) then
        return responseFrom claims true false "audience_mismatch"
      -- In whole seconds and strict: a token is still active in the second of its `exp`.
      else if claims.exp < now.timestamp then
        return responseFrom claims true false "expired"
      else
        match K.parseUuid claims.jti with
        | none => fail (.badRequest "token jti is not a UUID")
        | some jti =>
            if ← denylistLookup jti then
              return responseFrom claims true false "revoked"
            else
              return responseFromValid claims

/-- `JwtService::authenticate_bearer`. -/
def authenticateBearer (token : K.Token) : Action K String := do
  let at_ ← call .now
  match svc.signer.verify at_ StandardClaims.deserialize token bearerValidation with
  | .error _ => fail .unauthorized
  | .ok claims =>
      match K.parseUuid claims.jti with
      | none => fail .unauthorized
      | some jti =>
          -- Expiry was checked by `decode`, with its leeway of 60 seconds.
          if ← denylistLookup jti then
            fail .unauthorized
          else
            match claims.sub with
            | some sub => return sub
            | none => fail .unauthorized

/-- `JwtService::revoke_by_jti`. -/
def revokeByJti (jti : Uuid) (reason : Option String) : Action K (Option Bool) := do
  -- The denylist row keeps the expiry of the token, which only its metadata has.
  match ← sql (← call (.selectExpiresAt jti)) with
  | none => return none
  | some exp =>
      let rowsAffected ← sql (← call (.insertDenylist .pool jti exp reason))
      return some (rowsAffected = 1)

/-- `JwtService::revoke`: `true` if newly revoked, `false` if already denylisted. -/
def revoke (token : K.Token) (reason : Option String) : Action K Bool := do
  let at_ ← call .now
  match svc.signer.verify at_ StandardClaims.deserialize token permissiveValidation with
  | .error _ => fail (.badRequest "token signature invalid; nothing to revoke")
  | .ok claims =>
      match K.parseUuid claims.jti with
      | none => fail (.badRequest "token jti is not a UUID")
      | some jti =>
          match DateTime.fromTimestamp claims.exp with
          | none => fail (.badRequest "token exp out of range")
          | some exp => do
              -- `ON CONFLICT (jwt_uuid) DO NOTHING`: no row when the jti was there.
              let rowsAffected ← sql (← call (.insertDenylist .pool jti exp reason))
              return rowsAffected = 1

/-- The loop of `bulk_revoke`, one `revoke` per token. -/
def bulkRevokeLoop (reason : Option String) :
    List K.Token → BulkRevokeResponse K → Action K (BulkRevokeResponse K)
  | [], acc => return acc
  | tok :: toks, acc => do
      match ← attempt (svc.revoke tok reason) with
      | .ok true => bulkRevokeLoop reason toks { acc with
          newlyRevoked := acc.newlyRevoked + 1
          results := acc.results ++ [{ token := tok, status := "revoked", reason := none }] }
      | .ok false => bulkRevokeLoop reason toks { acc with
          alreadyRevoked := acc.alreadyRevoked + 1
          results := acc.results ++ [{ token := tok, status := "already", reason := none }] }
      -- An error is kept as text and the batch goes on. A panic is not caught.
      | .error e => bulkRevokeLoop reason toks { acc with
          failed := acc.failed + 1
          results := acc.results
            ++ [{ token := tok, status := "failed", reason := some e.display }] }

/-- `JwtService::bulk_revoke`. -/
def bulkRevoke (req : BulkRevokeRequest K) : Action K (BulkRevokeResponse K) :=
  if req.tokens.isEmpty then
    fail (.badRequest "tokens must not be empty")
  else if svc.cfg.bulkRevokeMax < req.tokens.length then
    fail (.badRequest
      ("tokens exceeds bulk_revoke_max (" ++ toString svc.cfg.bulkRevokeMax ++ ")"))
  else
    svc.bulkRevokeLoop req.reason req.tokens
      { newlyRevoked := 0, alreadyRevoked := 0, failed := 0, results := [] }

/-- The claims that `extend` signs. -/
def extendClaims (old : StandardClaims) (newJti : Uuid) (now newExp : DateTime) :
    StandardClaims where
  iss := svc.cfg.issuer
  sub := old.sub
  aud := old.aud
  exp := newExp.timestamp
  iat := now.timestamp
  jti := K.uuidText newJti
  -- `entry(..).or_insert`: a `token_type` that the old token carries stays.
  extra := old.extra.insertIfNew "token_type" (.string "custom_jwt")

/-- What `extend` takes over from the latest metadata row of the old jti: the root of the
chain, the id of the row and its name. -/
structure Ancestor where
  originalJwtUuid : Uuid
  prevRowId : Option Uuid
  jwtName : Option String

/-- The ancestor of an extension, from the answer to the chain query. -/
def ancestor (oldJti : Uuid) : Option (Uuid × Uuid × Option String) → Ancestor
  | some (orig, id, name) => ⟨orig, some id, name⟩
  | none => ⟨oldJti, none, none⟩

/-- The metadata row that `extend` inserts. -/
def extendRow (old claims : StandardClaims) (anc : Ancestor) (id newJti : Uuid)
    (now newExp : DateTime) : NewMetadata where
  id := id
  jwtUuid := newJti
  claimKeys := claimKeys claims.extra
  issuedAt := now
  expiresAt := newExp
  subject := old.sub
  jwtName := anc.jwtName
  audience := some ((old.aud.map ",".intercalate).getD "")
  issuer := some svc.cfg.issuer
  supersedes := anc.prevRowId
  originalJwtUuid := anc.originalJwtUuid

/-- The reason of the denylist row that `extend` inserts. -/
def supersededReason : String := "superseded_by_extend"

/-- The statements of `extend` inside its transaction. The row id is drawn after `begin`. -/
def extendTx (old claims : StandardClaims) (anc : Ancestor) (oldJti newJti : Uuid)
    (now newExp : DateTime) : Action K Unit := do
  let id ← call .newUuid
  let () ← sql (← call (.insertMetadata .tx
    (svc.extendRow old claims anc id newJti now newExp)))
  -- The new row is already in the transaction here, so this error has to roll it back.
  match DateTime.fromTimestamp old.exp with
  | none => fail (.badRequest "old exp out of range")
  | some oldExp => do
      let _rowsAffected ← sql (← call
        (.insertDenylist .tx oldJti oldExp (some supersededReason)))
      return ()

/-- `JwtService::extend`. -/
def extend (req : ExtendRequest K) : Action K (TokenResponse K) := do
  let at_ ← call .now
  match svc.signer.verify at_ StandardClaims.deserialize req.token permissiveValidation with
  | .error _ => fail (.badRequest "token signature invalid; cannot extend")
  | .ok old =>
      let now : DateTime ← call .now
      if old.exp < now.timestamp then
        fail (.unprocessable "token already expired")
      else
        match K.parseUuid old.jti with
        | none => fail (.badRequest "token jti is not a UUID")
        | some oldJti =>
            -- A statement of its own: the jti can be denylisted between this read and the commit.
            if ← denylistLookup oldJti then
              fail (.unprocessable "token already revoked")
            else
              let row ← sql (← call (.selectChain oldJti))
              let anc := ancestor oldJti row
              -- The lifetime is checked after the two reads.
              let expMinutes := req.expirationInMinutes.getD 60
              if expMinutes ≤ 0 then
                fail (.badRequest "expirationInMinutes must be > 0")
              else
                let newExp ← addMinutes now expMinutes
                let newJti ← call .newUuid
                let claims := svc.extendClaims old newJti now newExp
                match ← call (.sign claims) with
                | .error e => fail e
                | .ok token =>
                    -- The token is signed at this point, whatever becomes of the transaction.
                    let () ← sql (← call .begin)
                    let () ← orRollback
                      (svc.extendTx old claims anc oldJti newJti now newExp)
                    let () ← sql (← call .commit)
                    return {
                      status := "extended"
                      jwtName := anc.jwtName.getD "EXTENDED_TOKEN"
                      token
                      expiresAt := newExp }

/-- `JwtService::denylist_entry`. -/
def denylistEntry (jti : Uuid) : Action K (Option DateTime × Option String) := do
  match ← sql (← call (.selectDenylistEntry jti)) with
  | some (t, r) => return (some t, r)
  | none => return (none, none)

/-- The loop of `list_for_subject` over the rows of the page. -/
def listLoop (now : DateTime) : List MetadataRow → List TokenSummary →
    Action K (List TokenSummary)
  | [], acc => return acc
  | row :: rows, acc => do
      let (revokedAt, revocationReason) ← denylistEntry row.jwtUuid
      -- A denylist row decides before the expiry.
      let status :=
        if revokedAt.isSome then "revoked"
        else if row.expiresAt < now then "expired"
        else "active"
      listLoop now rows (acc ++ [{
        jti := K.uuidText row.jwtUuid
        subject := row.subject
        jwtName := row.jwtName
        issuedAt := row.issuedAt
        expiresAt := row.expiresAt
        issuer := row.issuer
        audience := row.audience
        status, revokedAt, revocationReason }])

/-- `Ord::clamp`. -/
def clamp (x lo hi : Int64) : Int64 := if x < lo then lo else if hi < x then hi else x

/-- The page number and the row offset of a list request. -/
def pageOf (req : ListRequest) (size : Int64) : Int64 × Int64 :=
  let off := max (req.offset.getD 0) 0
  -- Without `byRow` the offset counts pages. The product wraps in release builds.
  if req.byRow then (off / size, off) else (off, off * size)

/-- `JwtService::list_for_subject`. -/
def listForSubject (subject : String) (req : ListRequest) : Action K ListResponse := do
  let size := clamp (req.limit.getD 20) 1 200
  let (page, rowOffset) := pageOf req size
  let filter : ListFilter := {
    issuedAfter := req.issuedAfter
    issuedBefore := req.issuedBefore
    expiresAfter := req.expiresAfter
    expiresBefore := req.expiresBefore
    jwtName := req.jwtName }
  let rows ← sql (← call (.selectTokens subject filter size rowOffset))
  -- Two statements outside a transaction: the count can be of a later table than the rows.
  let count ← sql (← call (.countTokens subject filter))
  let total := Int64.ofNat count
  let now ← call .now
  let tokens ← listLoop now rows []
  let totalPages := if size = 0 then 0 else (total + size - 1) / size
  return {
    tokens
    pagination := { total, offset := rowOffset, limit := size, page, size, totalPages } }

/-- `Introspector::introspect`. -/
def introspect (req : IntrospectRequest K) : Action K IntrospectionResponse := do
  let at_ ← call .now
  match svc.signer.verify at_ StandardClaims.deserialize req.token permissiveValidation with
  | .error _ => return .inactive
  | .ok claims =>
      -- Unlike `validate`, introspection always compares the issuer with the configured one.
      if claims.iss ≠ svc.cfg.issuer then return .inactive
      else
        let now : DateTime ← call .now
        if claims.exp < now.timestamp then return .inactive
        else
          match K.parseUuid claims.jti with
          | none => return .inactive
          | some jti =>
              if ← denylistLookup jti then return .inactive
              else
                return {
                  active := true
                  iss := some claims.iss
                  sub := claims.sub
                  aud := claims.aud
                  exp := some claims.exp
                  iat := some claims.iat
                  jti := some claims.jti
                  tokenType := some "custom_jwt"
                  extraClaims := claims.extra }

end JwtService

/-! ### The nine operations -/

/-- A request to the token service. -/
inductive Request (K : Crates) where
  | generate (req : GenerateRequest)
  | validate (req : ValidateRequest K)
  | authenticateBearer (token : K.Token)
  | revokeByJti (jti : Uuid) (reason : Option String)
  | revoke (token : K.Token) (reason : Option String)
  | bulkRevoke (req : BulkRevokeRequest K)
  | extend (req : ExtendRequest K)
  | listForSubject (subject : String) (req : ListRequest)
  | introspect (req : IntrospectRequest K)

/-- The value of a finished request. -/
inductive Response (K : Crates) where
  | token (r : TokenResponse K)
  | validate (r : ValidateResponse)
  | subject (sub : String)
  | revokedByJti (r : Option Bool)
  | revoked (newly : Bool)
  | bulkRevoke (r : BulkRevokeResponse K)
  | list (r : ListResponse)
  | introspect (r : IntrospectionResponse)

/-- The program that serves a request. -/
def JwtService.program {K : Crates} (svc : JwtService K) : Request K → Action K (Response K)
  | .generate req => do return .token (← svc.generate req)
  | .validate req => do return .validate (← svc.validate req)
  | .authenticateBearer token => do return .subject (← svc.authenticateBearer token)
  | .revokeByJti jti reason => do return .revokedByJti (← revokeByJti jti reason)
  | .revoke token reason => do return .revoked (← svc.revoke token reason)
  | .bulkRevoke req => do return .bulkRevoke (← svc.bulkRevoke req)
  | .extend req => do return .token (← svc.extend req)
  | .listForSubject subject req => do return .list (← listForSubject subject req)
  | .introspect req => do return .introspect (← svc.introspect req)

end Tim
