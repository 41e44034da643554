import Tim.Lib.Twin
import Tim.Model.Http

/-!
# `Tim.Model.Router`: the routes and their handlers (`src/router/mod.rs`)

One program per handler, over the calls of the token service, of the OAuth2 flow and of the
session store. The arguments of a handler are extracted in the order in which it lists them.
`AppState.serve` is a request through `build_router`: the length check of
`body_size_error_mapper`, the route, the handler, and the rewriting of a 413.

The layers that only add headers, log, or cut a request off after a time are left out. A
request that is cut off is a task that the pool drops.
-/

set_option autoImplicit false

namespace Tim.Web

open Tim.Lib
open Tim.OAuth (OAuthService Flow)

/-! ### The calls -/

/-- The calls of the server. -/
inductive WebOp where
  | jwt (o : Tim.Op)
  | oauth (o : OAuth.Op)
  | sessionGet (id : String)
  | sessionTouch (id : String)
  | sessionRevoke (id : String)

/-- The answers. -/
def WebResp (K : WebCrates) : WebOp → Type
  | .jwt o => Tim.Resp K.toCrates o
  | .oauth o => OAuth.Resp o
  | .sessionGet _ => Except TimError (Option Session)
  | .sessionTouch _ => Except TimError Unit
  | .sessionRevoke _ => Except TimError Bool

/-- The signature of the server. -/
def webSig (K : WebCrates) : Sig where
  Op := WebOp
  Resp := WebResp K

/-- The calls of the token service among those of the server. -/
def jwtCalls (K : WebCrates) : Embedding (jwtSig K.toCrates) (webSig K) where
  op := .jwt
  resp _ r := r

/-- The calls of the OAuth2 flow among those of the server. -/
def oauthCalls (K : WebCrates) : Embedding OAuth.oauthSig (webSig K) where
  op := .oauth
  resp _ r := r

/-- How a handler can stop without a reply of its own. -/
inductive Halt where
  | err (e : TimError)
  | reject (r : Rejection)
  | panic
  deriving DecidableEq

/-- A fault of a service, in the handler that has called it. -/
def Halt.ofFault : Fault → Halt
  | .err e => .err e
  | .panic => .panic

/-- Code of a handler. -/
abbrev Handler (K : WebCrates) (α : Type) := Prog (webSig K) Halt α

namespace Handler

variable {K : WebCrates} {α : Type}

/-- One call to the outside. -/
def call (o : WebOp) : Handler K (WebResp K o) := Prog.call (S := webSig K) o

/-- Stop with an error. -/
def fail (e : TimError) : Handler K α := .raise (.err e)

/-- The `?` on a result. -/
def try_ : Except TimError α → Handler K α
  | .ok a => .ret a
  | .error e => fail e

/-- An argument that an extractor provides. -/
def extract : Except Rejection α → Handler K α
  | .ok a => .ret a
  | .error r => .raise (.reject r)

/-- A function of the token service. -/
def ofJwt (p : Action K.toCrates α) : Handler K α := p.embed (jwtCalls K) Halt.ofFault

/-- A function of the OAuth2 flow. -/
def ofOauth (p : Flow α) : Handler K α := p.embed (oauthCalls K) Halt.ofFault

/-- The result of `p` as a value. -/
def attempt (p : Handler K α) : Handler K (Except TimError α) :=
  p.handle (fun a => .ret (.ok a)) fun
    | .err e => .ret (.error e)
    | h => .raise h

end Handler

open Handler

/-! ### Extractors -/

/-- The extractor `Bytes`, with the limit of `DefaultBodyLimit`. -/
def bodyBytes (max : Nat) (req : HttpRequest) : Except Rejection Bytes :=
  if max < req.body.length then .error .lengthLimit else .ok req.body

/-- The extractor `Json`. -/
def jsonBody {C : Type} (K : WebCrates) (de : Payload → Option C) (max : Nat)
    (req : HttpRequest) : Except Rejection C :=
  -- The content type comes before the size and the syntax.
  if !(req.header "content-type").any K.isJsonMime then .error .missingJsonContentType
  else
    match bodyBytes max req with
    | .error r => .error r
    | .ok bytes =>
        match K.jsonFromSlice de bytes with
        | .ok c => .ok c
        | .error e => .error (if e.isData then .jsonData e.text else .jsonSyntax e.text)

/-- The extractor `String`. -/
def stringBody (K : WebCrates) (max : Nat) (req : HttpRequest) : Except Rejection String :=
  match bodyBytes max req with
  | .error r => .error r
  | .ok bytes =>
      match fromUtf8 bytes with
      | some s => .ok s
      | none => .error (.invalidUtf8 (K.utf8ErrorText bytes))

/-- The extractor `Query`. -/
def queryOf {C : Type} (K : WebCrates) (de : List (String × String) → Option C)
    (req : HttpRequest) : Except Rejection C :=
  match K.urlencoded de req.query with
  | .ok c => .ok c
  | .error e => .error (.queryString e)

/-- The extractor `Path`, of the parameter `id`. -/
def pathId (K : WebCrates) (segment : String) : Except Rejection String :=
  match K.percentDecode segment with
  | some id => .ok id
  | none => .error .pathUtf8

/-! ### The handlers -/

/-- `AppState`, with the parts of the configuration that the handlers read. -/
structure AppState (K : WebCrates) where
  signer : JwtSigner K.toCrates
  jwt : JwtService K.toCrates
  oauth : OAuthService K.toOAuthCrates
  admin : AdminGate
  introspectGate : IntrospectionGate
  cookieName : String
  maxRequestBytes : Nat

namespace AppState

variable {K : WebCrates} (app : AppState K)

/-- The extractor `AdminAuth`. -/
def adminAuth (req : HttpRequest) : Handler K Unit := try_ (app.admin.adminAuth req)

/-- `UNTRUSTED_ECHO_CAP`. -/
def untrustedEchoCap : Nat := 256

/-- `health`. -/
def health : Handler K (Reply K) := pure ⟨200, .object [("status", .str "ok")], none⟩

/-- `jwt_generate`. -/
def jwtGenerate (req : HttpRequest) : Handler K (Reply K) := do
  let () ← app.adminAuth req
  let body ← extract (jsonBody K GenerateBody.deserialize app.maxRequestBytes req)
  let resp ← ofJwt (app.jwt.generate body.toGenerateRequest)
  let cookie := if body.setCookie.getD false then
    some (buildCookie body.jwtName (K.tokenText resp.token)) else none
  return ⟨200, .token resp, cookie⟩

/-- `check_validation_gate`. -/
def checkValidationGate (req : HttpRequest) : Handler K Unit :=
  try_ (app.introspectGate.check K app.introspectGate.requiredValidation req)

/-- The status of a verdict. -/
def verdictStatus (r : ValidateResponse) : Nat := if r.valid && r.active then 200 else 401

/-- `jwt_validate`. -/
def jwtValidate (req : HttpRequest) : Handler K (Reply K) := do
  let body ← extract (jsonBody K (ValidateBody.deserialize K) app.maxRequestBytes req)
  -- The gate comes after the body: a body that does not parse is refused without credentials.
  let () ← app.checkValidationGate req
  let resp ← ofJwt (app.jwt.validate body.toValidateRequest)
  return ⟨verdictStatus resp, .validate resp, none⟩

/-- `jwt_validate_boolean`. -/
def jwtValidateBoolean (req : HttpRequest) : Handler K (Reply K) := do
  let body ← extract (jsonBody K (ValidateBody.deserialize K) app.maxRequestBytes req)
  let () ← app.checkValidationGate req
  let resp ← ofJwt (app.jwt.validate body.toValidateRequest)
  let ok := resp.valid && resp.active
  return ⟨verdictStatus resp, .text (if ok then "true" else "false"), none⟩

/-- `jwt_revoke`. -/
def jwtRevoke (req : HttpRequest) : Handler K (Reply K) := do
  let () ← app.adminAuth req
  let body ← extract (jsonBody K (ValidateBody.deserialize K) app.maxRequestBytes req)
  let newly ← ofJwt (app.jwt.revoke body.token body.reason)
  return if newly then
    statusBody 200 "revoked" (some "Token has been successfully revoked")
  else statusBody 409 "already_revoked" (some "Token was already revoked")

/-- The status of a bulk revocation. -/
def bulkStatus (r : BulkRevokeResponse K.toCrates) : Nat :=
  -- All failed, then a mixture, then all known, then all new.
  if 0 < r.failed ∧ r.newlyRevoked = 0 ∧ r.alreadyRevoked = 0 then 400
  else if 0 < r.failed ∨ 0 < r.newlyRevoked ∧ 0 < r.alreadyRevoked then 207
  else if r.newlyRevoked = 0 ∧ 0 < r.alreadyRevoked then 409
  else 200

/-- `jwt_revoke_bulk`. -/
def jwtRevokeBulk (req : HttpRequest) : Handler K (Reply K) := do
  let () ← app.adminAuth req
  let body ← extract (jsonBody K (bulkRevokeBody K) app.maxRequestBytes req)
  let resp ← ofJwt (app.jwt.bulkRevoke body)
  return ⟨bulkStatus resp, .bulkRevoke resp, none⟩

/-- `jwt_extend`. -/
def jwtExtend (req : HttpRequest) : Handler K (Reply K) := do
  let () ← app.adminAuth req
  let body ← extract (jsonBody K (ExtendBody.deserialize K) app.maxRequestBytes req)
  let resp ← ofJwt (app.jwt.extend body.toExtendRequest)
  let cookie := if body.setCookie.getD false then
    some (buildCookie "EXTENDED_TOKEN" (K.tokenText resp.token)) else none
  return ⟨200, .token resp, cookie⟩

/-- `jwt_list_me`. A body that does not parse counts as none. -/
def jwtListMe (req : HttpRequest) : Handler K (Reply K) := do
  -- `Option<Json<..>>`: the default listing stands in for a body that is refused.
  let body := (jsonBody K (listBody K) app.maxRequestBytes req).toOption
  let token ← try_ (bearerToken req)
  let sub ← ofJwt (app.jwt.authenticateBearer (K.compact token))
  let resp ← ofJwt (JwtService.listForSubject sub (body.getD listDefault))
  return ⟨200, .list resp, none⟩

/-- `jwks`. -/
def jwks : Handler K (Reply K) := do
  let now ← ofJwt (Action.call .now)
  return ⟨200, .keys (app.signer.jwks now), none⟩

/-- The parse of the body in `introspect_dispatch`. -/
def introspectRequest (req : HttpRequest) (bytes : Bytes) :
    Except TimError (IntrospectRequest K.toCrates) :=
  let ct := (req.header "content-type").getD ""
  let json := K.jsonFromSlice (introspectBody K) bytes
  let form := K.urlencoded (introspectForm K) bytes
  if startsWith ct "application/json" then
    match json with
    | .ok r => .ok r
    | .error e => .error (.badRequest ("json parse: " ++ clipUntrusted e.text untrustedEchoCap))
  else if startsWith ct "application/x-www-form-urlencoded" then
    match form with
    | .ok r => .ok r
    | .error e => .error (.badRequest ("form parse: " ++ clipUntrusted e untrustedEchoCap))
  else
    -- Without a known content type JSON is tried first, then the form.
    match json, form with
    | .ok r, _ => .ok r
    | .error _, .ok r => .ok r
    | .error _, .error _ =>
        .error (.badRequest "body must be JSON or application/x-www-form-urlencoded")

/-- `introspect_dispatch`. -/
def introspectDispatch (req : HttpRequest) : Handler K (Reply K) := do
  let bytes ← extract (bodyBytes app.maxRequestBytes req)
  let () ← try_ (app.introspectGate.check K app.introspectGate.requiredIntrospect req)
  let r ← try_ (introspectRequest req bytes)
  let resp ← ofJwt (app.jwt.introspect r)
  return ⟨200, .introspect resp, none⟩

/-- `introspect_types`. -/
def introspectTypes : Handler K (Reply K) :=
  pure ⟨200, .object [("custom_jwt", .str "TIM-issued RS256 JWT tokens")], none⟩

/-- The public part of a provider. -/
def publicInfo (p : OAuth.Provider) : ProviderPublicInfo :=
  ⟨p.id, p.config.name, p.config.scopes, p.config.claimMappings⟩

/-- `auth_providers`. -/
def authProviders : Handler K (Reply K) :=
  pure ⟨200, .providers (app.oauth.providers.toList.map fun e => publicInfo e.2), none⟩

/-- `auth_provider_one`. -/
def authProviderOne (segment : String) : Handler K (Reply K) := do
  let id ← extract (pathId K segment)
  match app.oauth.providers[id]? with
  | none => fail (.notFound ("provider " ++ clipUntrusted id untrustedEchoCap))
  | some p => return ⟨200, .provider (publicInfo p), none⟩

/-- `auth_login`. -/
def authLogin (segment : String) (req : HttpRequest) : Handler K (Reply K) := do
  let id ← extract (pathId K segment)
  let redirectUri ← extract (queryOf K loginQuery req)
  let url ← ofOauth (app.oauth.authLogin id redirectUri)
  return ⟨200, .authUrl url, none⟩

/-- `auth_callback`. -/
def authCallback (segment : String) (req : HttpRequest) : Handler K (Reply K) := do
  let id ← extract (pathId K segment)
  let q ← extract (queryOf K callbackQuery req)
  match ← ofOauth (app.oauth.authCallback id q) with
  | .opened r => return ⟨200, .callback r, none⟩
  | .providerError provider error description => return ⟨400, .object
      [("status", .str "error"), ("provider", .str provider), ("error", .str error),
       ("error_description", match description with
        | some d => .str d
        | none => .null)], none⟩

/-- The session of a request, touched when it is there. -/
def liveSession (req : HttpRequest) : Handler K Session := do
  let id ← try_ (sessionAuth K req)
  match ← try_ (← call (.sessionGet id)) with
  | none => fail (.notFound "session")
  | some session =>
      -- `let _ =`: whether the touch worked does not show in the reply.
      let _touched ← call (.sessionTouch id)
      return session

/-- `auth_session_validate`. -/
def authSessionValidate (req : HttpRequest) : Handler K (Reply K) := do
  let session ← liveSession req
  return ⟨200, .session session, none⟩

/-- The JSON object that `auth_profile` makes. The entries of the profile are inserted last. -/
def profileObject (userId provider : String) (profile : ClaimMap) : ClaimMap :=
  profile.toList.foldl (fun obj e => obj.insert e.1 e.2)
    (((∅ : ClaimMap).insert "user_id" (.string userId)).insert "provider" (.string provider))

/-- `auth_profile`. -/
def authProfile (req : HttpRequest) : Handler K (Reply K) := do
  let session ← liveSession req
  return ⟨200, .profile session.userId session.providerId session.profile, none⟩

/-- `auth_logout`. A body that does not parse counts as none. -/
def authLogout (req : HttpRequest) : Handler K (Reply K) := do
  let id ← try_ (sessionAuth K req)
  let body := (jsonBody K logoutBody app.maxRequestBytes req).toOption
  let existed ← try_ (← call (.sessionRevoke id))
  return ⟨200, .object [("status", .str (if existed then "logged_out" else "not_found_ok")),
    ("reason", match body.join with
      | some reason => .str reason
      | none => .null)], none⟩

/-- `auth_health`. -/
def authHealth : Handler K (Reply K) := do
  let now ← ofOauth (Flow.call .now)
  return ⟨200, .authHealth now (app.oauth.providers.toList.map (·.1)), none⟩

/-! ### The legacy routes -/

/-- `check_jvm_compat_gate`. -/
def checkJvmCompatGate (req : HttpRequest) : Handler K Unit :=
  try_ (app.introspectGate.check K app.introspectGate.requiredJvmCompat req)

/-- A `ValidateRequest` with nothing but the token. -/
def tokenOnly (token : String) : ValidateRequest K.toCrates := ⟨K.compact token, none, none⟩

/-- `jwt_userinfo_compat`. -/
def jwtUserinfoCompat (req : HttpRequest) : Handler K (Reply K) := do
  let () ← app.checkJvmCompatGate req
  match req.cookieValue app.cookieName with
  | none => fail (.badRequest ("cookie `" ++ app.cookieName ++ "` not present"))
  | some token =>
      -- The reply is 200 also when the second check says that the token is not active.
      let sub ← ofJwt (app.jwt.authenticateBearer (K.compact token))
      let resp ← ofJwt (app.jwt.validate (tokenOnly token))
      return ⟨200, .userinfo sub resp none, none⟩

/-- The cookie name that the body of a legacy request is. -/
def cookieNameOf (body : String) : String := trimMatches (trim body) '"'

/-- The message about a cookie that the request does not have. -/
def cookieNotPresent (name : String) : String := "cookie `" ++ name ++ "` not present on request"

/-- `jwt_custom_blacklist_compat`. -/
def jwtCustomBlacklistCompat (req : HttpRequest) : Handler K (Reply K) := do
  let () ← app.adminAuth req
  let body ← extract (stringBody K app.maxRequestBytes req)
  let cookieName := cookieNameOf body
  if cookieName.isEmpty then
    fail (.badRequest "request body must be the cookie name to blacklist")
  else
    match req.cookieValue cookieName with
    | none => return statusBody 404 "not_found" (some (cookieNotPresent cookieName))
    | some token =>
        match ← attempt (ofJwt
            (app.jwt.revoke (K.compact token) (some "custom-jwt-blacklist"))) with
        | .ok true => return statusBody 200 "blacklisted" none
        | .ok false => return statusBody 409 "already_blacklisted" none
        -- A refusal of the token service becomes a status body of its own.
        | .error (.badRequest msg) => return statusBody 400 "failed" (some msg)
        | .error other => fail other

/-- `jwt_blacklist_compat`: the cookie, `?jwt=`, or `?sessionId=`. -/
def jwtBlacklistCompat (req : HttpRequest) : Handler K (Reply K) := do
  let () ← app.adminAuth req
  let q ← extract (queryOf K legacyBlacklistQuery req)
  -- The cookie comes first. The query is not looked at when the request has one.
  match req.cookieValue app.cookieName with
  | some token =>
      match ← attempt (ofJwt (app.jwt.revoke (K.compact token) q.reason)) with
      | .ok true => return statusBody 200 "blacklisted" none
      | .ok false => return statusBody 409 "already_blacklisted" none
      | .error (.badRequest msg) => return statusBody 400 "failed" (some msg)
      | .error other => fail other
  | none =>
      match q.jwt with
      | some jwtId =>
          let clipped := clipUntrusted jwtId untrustedEchoCap
          match K.parseUuid jwtId with
          | none => fail (.badRequest ("?jwt=`" ++ clipped ++ "` is not a valid UUID"))
          | some jti =>
              match ← ofJwt (JwtService.revokeByJti jti q.reason) with
              | some true => return statusBody 200 "blacklisted" none
              | some false => return statusBody 409 "already_blacklisted" none
              | none =>
                  let msg := "no TIM-issued JWT with jti " ++ clipped
                  return statusBody 404 "not_found" (some msg)
      | none =>
          match q.sessionId with
          | some sid =>
              let existed ← try_ (← call (.sessionRevoke sid))
              return statusBody (if existed then 200 else 404)
                (if existed then "logged_out" else "not_found") none
          | none => fail (.badRequest "supply one of: cookie, ?jwt=<uuid>, ?sessionId=<id>")

/-- `JwtSigner::public_pem`. -/
def publicPem (signer : JwtSigner K.toCrates) : Except TimError String :=
  match K.toPkcs1Pem signer.current.pub with
  | .ok pem => .ok pem
  | .error e => .error (.crypto ("encode public PKCS#1 PEM: " ++ e))

/-- `jwt_verification_key_compat`. -/
def jwtVerificationKeyCompat : Handler K (Reply K) := do
  let pem ← try_ (publicPem app.signer)
  return ⟨200, .text pem, none⟩

/-- `jwt_custom_verify_compat`. -/
def jwtCustomVerifyCompat (req : HttpRequest) : Handler K (Reply K) := do
  let body ← extract (stringBody K app.maxRequestBytes req)
  let () ← app.checkJvmCompatGate req
  let cookieName := cookieNameOf body
  if cookieName.isEmpty then
    fail (.badRequest "request body must be the cookie name to verify")
  else
    match req.cookieValue cookieName with
    | none => return ⟨401, .object [("valid", .bool false),
        ("reason", .str "cookie_not_present")], none⟩
    | some token =>
        let resp ← ofJwt (app.jwt.validate (tokenOnly token))
        return ⟨verdictStatus resp, .validate resp, none⟩

/-- `jwt_custom_userinfo_compat`. -/
def jwtCustomUserinfoCompat (req : HttpRequest) : Handler K (Reply K) := do
  let body ← extract (stringBody K app.maxRequestBytes req)
  let () ← app.checkJvmCompatGate req
  let cookieName := cookieNameOf body
  if cookieName.isEmpty then
    fail (.badRequest "request body must be the cookie name to read")
  else
    match req.cookieValue cookieName with
    | none => fail (.badRequest (cookieNotPresent cookieName))
    | some token =>
        let sub ← ofJwt (app.jwt.authenticateBearer (K.compact token))
        let resp ← ofJwt (app.jwt.validate (tokenOnly token))
        return ⟨200, .userinfo sub resp (some cookieName), none⟩

/-- The end of the two legacy `extend` routes. -/
def extendCookie (cookieName : String) (req : HttpRequest) : Handler K (Reply K) :=
  match req.cookieValue cookieName with
  | none => fail (.badRequest (cookieNotPresent cookieName))
  | some token => do
      let resp ← ofJwt (app.jwt.extend ⟨K.compact token, none⟩)
      return ⟨200, .token resp, some (buildCookie cookieName (K.tokenText resp.token))⟩

/-- `jwt_custom_extend_compat`. -/
def jwtCustomExtendCompat (req : HttpRequest) : Handler K (Reply K) := do
  let () ← app.adminAuth req
  let body ← extract (stringBody K app.maxRequestBytes req)
  let cookieName := cookieNameOf body
  if cookieName.isEmpty then
    fail (.badRequest "request body must be the cookie name to extend")
  else app.extendCookie cookieName req

/-- `jwt_extend_session_compat`. -/
def jwtExtendSessionCompat (req : HttpRequest) : Handler K (Reply K) := do
  let () ← app.adminAuth req
  app.extendCookie app.cookieName req

end AppState

/-! ### `build_router` -/

/-- The routes. Both `/health` and `/healthz` lead to `health`. -/
inductive Endpoint where
  | health
  | jwtGenerate
  | jwtValidate
  | jwtValidateBoolean
  | jwtRevoke
  | jwtRevokeBulk
  | jwtExtend
  | jwtListMe
  | jwks
  | jwtVerificationKey
  | jwtUserinfo
  | jwtCustomVerify
  | jwtCustomUserinfo
  | jwtCustomExtend
  | jwtExtendSession
  | jwtCustomBlacklist
  | jwtBlacklist
  | introspect
  | introspectTypes
  | authProviders
  | authProviderOne (segment : String)
  | authLogin (segment : String)
  | authCallback (segment : String)
  | authSessionValidate
  | authProfile
  | authLogout
  | authHealth
  deriving DecidableEq

namespace Endpoint

/-- The route of a path. A path parameter is one segment that is not empty. -/
def ofPath : List String → Option Endpoint
  | ["health"] => some .health
  | ["healthz"] => some .health
  | ["jwt", "custom", "generate"] => some .jwtGenerate
  | ["jwt", "custom", "validate"] => some .jwtValidate
  | ["jwt", "custom", "validate", "boolean"] => some .jwtValidateBoolean
  | ["jwt", "custom", "revoke"] => some .jwtRevoke
  | ["jwt", "custom", "revoke", "bulk"] => some .jwtRevokeBulk
  | ["jwt", "custom", "extend"] => some .jwtExtend
  | ["jwt", "custom", "list", "me"] => some .jwtListMe
  | ["jwt", "keys", "public"] => some .jwks
  | ["jwt", "verification-key"] => some .jwtVerificationKey
  | ["jwt", "userinfo"] => some .jwtUserinfo
  | ["jwt", "custom-jwt-verify"] => some .jwtCustomVerify
  | ["jwt", "custom-jwt-userinfo"] => some .jwtCustomUserinfo
  | ["jwt", "custom-jwt-extend"] => some .jwtCustomExtend
  | ["jwt", "extend-jwt-session"] => some .jwtExtendSession
  | ["jwt", "custom-jwt-blacklist"] => some .jwtCustomBlacklist
  | ["jwt", "blacklist"] => some .jwtBlacklist
  | ["introspect"] => some .introspect
  | ["introspect", "types"] => some .introspectTypes
  | ["auth", "providers"] => some .authProviders
  | ["auth", "providers", id] => if id.isEmpty then none else some (.authProviderOne id)
  | ["auth", "login", id] => if id.isEmpty then none else some (.authLogin id)
  | ["auth", "callback", id] => if id.isEmpty then none else some (.authCallback id)
  | ["auth", "session", "validate"] => some .authSessionValidate
  | ["auth", "profile"] => some .authProfile
  | ["auth", "logout"] => some .authLogout
  | ["auth", "health"] => some .authHealth
  | _ => none

/-- The routes that are registered with `post`. The others are registered with `get`. -/
def isPost : Endpoint → Bool
  | .jwtGenerate | .jwtValidate | .jwtValidateBoolean | .jwtRevoke | .jwtRevokeBulk
  | .jwtExtend | .jwtListMe | .jwtCustomVerify | .jwtCustomUserinfo | .jwtCustomExtend
  | .jwtCustomBlacklist | .jwtBlacklist | .introspect | .authLogout => true
  | _ => false

/-- A route takes its own method, and one of `get` takes `HEAD` as well. -/
def allows (e : Endpoint) (m : Method) : Bool :=
  if e.isPost then m = .post else m = .get || m = .head

end Endpoint

namespace AppState

variable {K : WebCrates} (app : AppState K)

/-- The handler of a route. -/
def handler (req : HttpRequest) : Endpoint → Handler K (Reply K)
  | .health => health
  | .jwtGenerate => app.jwtGenerate req
  | .jwtValidate => app.jwtValidate req
  | .jwtValidateBoolean => app.jwtValidateBoolean req
  | .jwtRevoke => app.jwtRevoke req
  | .jwtRevokeBulk => app.jwtRevokeBulk req
  | .jwtExtend => app.jwtExtend req
  | .jwtListMe => app.jwtListMe req
  | .jwks => app.jwks
  | .jwtVerificationKey => app.jwtVerificationKeyCompat
  | .jwtUserinfo => app.jwtUserinfoCompat req
  | .jwtCustomVerify => app.jwtCustomVerifyCompat req
  | .jwtCustomUserinfo => app.jwtCustomUserinfoCompat req
  | .jwtCustomExtend => app.jwtCustomExtendCompat req
  | .jwtExtendSession => app.jwtExtendSessionCompat req
  | .jwtCustomBlacklist => app.jwtCustomBlacklistCompat req
  | .jwtBlacklist => app.jwtBlacklistCompat req
  | .introspect => app.introspectDispatch req
  | .introspectTypes => introspectTypes
  | .authProviders => app.authProviders
  | .authProviderOne segment => app.authProviderOne segment
  | .authLogin segment => app.authLogin segment req
  | .authCallback segment => app.authCallback segment req
  | .authSessionValidate => authSessionValidate req
  | .authProfile => authProfile req
  | .authLogout => app.authLogout req
  | .authHealth => app.authHealth

/-- The length that the request declares, when it is more than the limit. -/
def declaresTooMuch (req : HttpRequest) : Bool :=
  ((req.header "content-length").bind parseUsize).any fun n => app.maxRequestBytes < n

/-- What `body_size_error_mapper` makes of a reply. -/
def sizeMapped (r : Reply K) : Reply K :=
  if r.status = 413 then payloadTooLarge app.maxRequestBytes else r

/-- The reply to a `HEAD` request has no body. The router of axum drops it, behind all layers. -/
def headless (req : HttpRequest) (r : Reply K) : Reply K :=
  if req.method = .head then { r with body := .empty } else r

/-- The reply that a handler's stop becomes. A panic gives none. -/
def haltReply : Halt → Option (Reply K)
  | .err e => some (intoResponse e)
  | .reject r => some r.intoResponse
  | .panic => none

/-- A request through the router. An error is a panic, which leaves the client without a
reply. -/
def serve (req : HttpRequest) : Prog (webSig K) Unit (Reply K) :=
  -- The declared length is checked before the route is known.
  if app.declaresTooMuch req then .ret (headless req (payloadTooLarge app.maxRequestBytes))
  else
    match Endpoint.ofPath req.path with
    | none => .ret ⟨404, .empty, none⟩
    | some e =>
        if !e.allows req.method then .ret ⟨405, .empty, none⟩
        -- Every 413 gets the body of the request limit, whichever limit it was about.
        else (app.handler req e).handle
          (fun r => .ret (headless req (app.sizeMapped r)))
          fun h => match haltReply h with
            | some r => .ret (headless req (app.sizeMapped r))
            | none => .raise ()

end AppState

/-! ### The state -/

/-- The tables of the token service, and the state of the OAuth2 flow with the sessions. -/
structure World (store : SessionStore) where
  jwt : Store
  oauth : OAuth.State store

/-- What the surroundings decide about one call. -/
inductive WebChoice where
  | jwt (ch : Tim.Choice)
  | oauth (ch : OAuth.Choice)
  | session (nonce : Nonce)
  | fail (e : String)

/-- A call of the session store that goes on, or fails and changes nothing. -/
def World.session {store : SessionStore} {α : Type} (s : World store)
    (f : Moment → store.State → Except TimError α × store.State) :
    WebChoice → Option (Except TimError α × World store)
  | .session nonce =>
      let r := f ⟨s.oauth.clock, nonce⟩ s.oauth.sessions
      some (r.1, { s with oauth := { s.oauth with sessions := r.2 } })
  | .fail e => some (.error (.database e), s)
  | _ => none

/-- The answer to a call, and the state after it. -/
def World.exec {K : WebCrates} {store : SessionStore} (app : AppState K) (discoveryTtl : Nat)
    (tid : Nat) (s : World store) : (o : WebOp) → WebChoice → Option (WebResp K o × World store)
  | .jwt o => fun
      | .jwt ch => (s.jwt.exec app.jwt.signer tid o ch).map fun r => (r.1, { s with jwt := r.2 })
      | _ => none
  | .oauth o => fun
      | .oauth ch => (s.oauth.exec discoveryTtl app.oauth.cacheTtl tid o ch).map fun r =>
          (r.1, { s with oauth := r.2 })
      | _ => none
  -- The session store reads the same clock as the flow.
  | .sessionGet id => s.session fun m => store.get m id
  | .sessionTouch id => s.session fun m => store.touch m id
  | .sessionRevoke id => s.session fun m => store.revoke m id

/-- What happens outside the requests: time passes, or a cache drops an entry. -/
inductive WebEnv where
  | tick (t : DateTime)
  | evictDiscovery (url : String)
  | evictJwks (uri : String)

/-- The state after an event outside the requests. -/
def World.env {store : SessionStore} (s : World store) : WebEnv → Option (World store)
  | .tick t => do
      let jwt ← s.jwt.tick t
      let oauth ← s.oauth.env (.tick t)
      return { jwt, oauth }
  | .evictDiscovery url => (s.oauth.env (.evictDiscovery url)).map fun o => { s with oauth := o }
  | .evictJwks uri => (s.oauth.env (.evictJwks uri)).map fun o => { s with oauth := o }

/-- The machine of the server. -/
def webMachine {K : WebCrates} (app : AppState K) (store : SessionStore) (discoveryTtl : Nat) :
    Machine (webSig K) where
  State := World store
  Choice := WebChoice
  Env := WebEnv
  exec tid s o ch := s.exec app discoveryTtl tid o ch
  env := World.env
  -- A request that ends drops its open transaction.
  release tid s := { s with jwt := s.jwt.setTx tid none }

end Tim.Web
