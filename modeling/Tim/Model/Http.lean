import Tim.Model.OAuth
import Tim.Model.Service

/-!
# `Tim.Model.Http`: requests, replies and the gates in front of the handlers

What stands between a socket and the handlers of `src/router/mod.rs`: the parts of an HTTP
request that they read, the reply with the conversion of a `TimError` (`src/error.rs`), the
admin gate (`src/security/admin.rs`), the client gate (`src/security/introspect_auth.rs`), the
session id of a request (`src/security/session_auth.rs`), and the bodies and queries with their
`serde` attributes.

`WebCrates` adds to `OAuthCrates` what `axum`, `serde_urlencoded` and `base64` do with the bytes
of a request. The `Rejection`s are those of `axum`, with their texts.
-/

set_option autoImplicit false

namespace Tim.Web

open Tim.OAuth (OAuthCrates)

/-! ### The third-party functions -/

/-- Why `serde_json` refuses a body: the syntax, or the data. -/
structure JsonError where
  isData : Bool
  text : String
  deriving DecidableEq

/-- The third-party functions that the router and the extractors use. -/
structure WebCrates extends OAuthCrates where
  /-- The text of a compact JWT. -/
  tokenText : Token → String
  /-- The media type is `application/json` or has the suffix `+json`. -/
  isJsonMime : String → Bool
  /-- `serde_json` on a body, with the deserializer of `C`. -/
  jsonFromSlice : {C : Type} → (Payload → Option C) → Bytes → Except JsonError C
  /-- `serde_urlencoded` on a query or a body, with the deserializer of `C`. -/
  urlencoded : {C : Type} → (List (String × String) → Option C) → Bytes → Except String C
  /-- The percent-decoding of a path parameter. -/
  percentDecode : String → Option String
  /-- `base64` with the standard alphabet. -/
  base64Decode : String → Option Bytes
  /-- `Deserialize for DateTime<Utc>`. -/
  parseDateTime : String → Option DateTime
  /-- The text of an error of `std::str::from_utf8`. -/
  utf8ErrorText : Bytes → String

/-! ### Requests -/

/-- The request methods that the routes distinguish. -/
inductive Method where
  | get
  | head
  | post
  | other (name : String)
  deriving DecidableEq

/-- An HTTP request. The path is given by its segments, a header by its lower-case name. -/
structure HttpRequest where
  method : Method
  path : List String
  query : Bytes
  headers : List (String × Bytes)
  body : Bytes

/-- `HeaderValue::to_str`: only visible ASCII, spaces and tabs. -/
def headerText (value : Bytes) : Option String :=
  if value.all fun b => b = 9 || 32 ≤ b && b < 127 then
    some (String.ofList (value.map fun b => Char.ofNat b.toNat))
  else none

/-- `headers.get(name).and_then(|v| v.to_str().ok())`. -/
def HttpRequest.header (req : HttpRequest) (name : String) : Option String :=
  (req.headers.find? fun h => h.1 = name).bind fun h => headerText h.2

/-- `cookie_value`. -/
def HttpRequest.cookieValue (req : HttpRequest) (name : String) : Option String :=
  match req.header "cookie" with
  | none => none
  | some raw => (splitChar raw ';').findSome? fun part =>
      match splitOnce (trim part) '=' with
      | some (k, v) => if trim k = name ∧ !v.isEmpty then some (trim v) else none
      | none => none

/-! ### Replies -/

/-- A value in one of the small `json!` objects of the router. -/
inductive Scalar where
  | null
  | bool (b : Bool)
  | nat (n : Nat)
  | str (s : String)
  deriving DecidableEq

/-- `ProviderPublicInfo`. -/
structure ProviderPublicInfo where
  id : String
  name : String
  scopes : List String
  claimMappings : Std.ExtTreeMap String String

/-- The body of a reply: plain text, a `json!` object, or a serialized value. -/
inductive Body (K : WebCrates) where
  | empty
  | text (s : String)
  | object (fields : List (String × Scalar))
  | token (r : TokenResponse K.toCrates)
  | validate (r : ValidateResponse)
  | userinfo (subject : String) (r : ValidateResponse) (cookieName : Option String)
  | bulkRevoke (r : BulkRevokeResponse K.toCrates)
  | list (r : ListResponse)
  | introspect (r : IntrospectionResponse)
  | keys (keys : List Jwk)
  | providers (list : List ProviderPublicInfo)
  | provider (p : ProviderPublicInfo)
  | authUrl (r : OAuth.AuthUrl)
  | callback (r : OAuth.CallbackResult)
  | session (s : Session)
  | profile (userId provider : String) (profile : ClaimMap)
  | authHealth (timestamp : DateTime) (ids : List String)

/-- A reply. `setCookie` is the value of its `Set-Cookie` header. -/
structure Reply (K : WebCrates) where
  status : Nat
  body : Body K
  setCookie : Option String := none

/-- The status is one of the 4xx. -/
def Reply.isClientError {K : WebCrates} (r : Reply K) : Bool := 400 ≤ r.status && r.status < 500

/-- `TimError::status`. -/
def status : TimError → Nat
  | .badRequest _ => 400
  | .unauthorized => 401
  | .forbidden => 403
  | .notFound _ => 404
  | .payloadTooLarge _ => 413
  | .unsupportedMediaType => 415
  | .unprocessable _ => 422
  | .badGateway _ => 502
  | .upstreamTimeout _ => 504
  | .database _ | .crypto _ | .config _ | .io _ => 500

/-- `TimError::code`. -/
def code : TimError → String
  | .badRequest _ => "bad_request"
  | .unauthorized => "unauthorized"
  | .forbidden => "forbidden"
  | .notFound _ => "not_found"
  | .payloadTooLarge _ => "payload_too_large"
  | .unsupportedMediaType => "unsupported_media_type"
  | .unprocessable _ => "unprocessable_entity"
  | .badGateway _ => "bad_gateway"
  | .upstreamTimeout _ => "upstream_timeout"
  | .database _ | .crypto _ | .config _ | .io _ => "internal_error"

/-- `IntoResponse for TimError`. A server error shows its code only. -/
def intoResponse {K : WebCrates} (e : TimError) : Reply K :=
  if 500 ≤ status e then ⟨status e, .object [("error", .str (code e))], none⟩
  else
    match e with
    -- The one client error with a field instead of a text.
    | .payloadTooLarge max =>
        ⟨status e, .object [("error", .str (code e)), ("max", .nat max)], none⟩
    | _ => ⟨status e, .object [("error", .str (code e)), ("detail", .str e.display)], none⟩

/-- `payload_too_large`. -/
def payloadTooLarge {K : WebCrates} (max : Nat) : Reply K :=
  ⟨413, .object [("error", .str "payload_too_large"), ("max", .nat max)], none⟩

/-- `status_body`. -/
def statusBody {K : WebCrates} (code : Nat) (status : String) (message : Option String) :
    Reply K :=
  ⟨code, .object (("status", .str status) :: match message with
    | some msg => [("message", .str msg)]
    | none => []), none⟩

/-- `build_cookie`. A value that no header can carry becomes the empty one. -/
def buildCookie (name token : String) : String :=
  let value := name ++ "=" ++ token ++ "; Path=/; HttpOnly; Secure; SameSite=Lax"
  -- `HeaderValue::from_str`: visible ASCII, spaces, tabs and all bytes from 128 on.
  if (asBytes value).all fun b => b = 9 || 32 ≤ b && b ≠ 127 then value else ""

/-- The ways in which an extractor of `axum` refuses a request. -/
inductive Rejection where
  | missingJsonContentType
  | jsonData (err : String)
  | jsonSyntax (err : String)
  | invalidUtf8 (err : String)
  | lengthLimit
  | queryString (err : String)
  | pathUtf8
  deriving DecidableEq

/-- The reply to a refused request. -/
def Rejection.intoResponse {K : WebCrates} : Rejection → Reply K
  | .missingJsonContentType =>
      ⟨415, .text "Expected request with `Content-Type: application/json`", none⟩
  | .jsonData err => ⟨422, .text
      ("Failed to deserialize the JSON body into the target type: " ++ err), none⟩
  | .jsonSyntax err =>
      ⟨400, .text ("Failed to parse the request body as JSON: " ++ err), none⟩
  | .invalidUtf8 err =>
      ⟨400, .text ("Request body didn't contain valid UTF-8: " ++ err), none⟩
  | .lengthLimit =>
      ⟨413, .text "Failed to buffer the request body: length limit exceeded", none⟩
  | .queryString err => ⟨400, .text ("Failed to deserialize query string: " ++ err), none⟩
  | .pathUtf8 => ⟨400, .text "Invalid URL: Invalid UTF-8 in `id`", none⟩

/-! ### `security/admin.rs` -/

/-- The resolved admin token, if any. -/
structure AdminGate where
  token : Option Bytes
  deriving DecidableEq

namespace AdminGate

/-- `AdminGate::enforced`. -/
def enforced (gate : AdminGate) : Bool := gate.token.isSome

/-- `AdminGate::verify`. -/
def verify (gate : AdminGate) (presented : Bytes) : Bool :=
  match gate.token with
  -- Without a token the gate is open.
  | none => true
  | some t => OAuth.constantTimeEq t presented

end AdminGate

/-- The trimmed bytes of `X-TIM-Admin-Token`. -/
def HttpRequest.adminHeader (req : HttpRequest) : Option Bytes :=
  (req.header "x-tim-admin-token").map fun v => asBytes (trim v)

/-- The trimmed bytes of the bearer credentials in `Authorization`. -/
def HttpRequest.bearerHeader (req : HttpRequest) : Option Bytes :=
  ((req.header "authorization").bind fun v => stripHead v "Bearer ").map fun v => asBytes (trim v)

/-- The extractor `AdminAuth`. -/
def AdminGate.adminAuth (gate : AdminGate) (req : HttpRequest) : Except TimError Unit :=
  if !gate.enforced then .ok ()
  else
    -- A header that is there decides, also when it is wrong: the bearer is not tried after it.
    match req.adminHeader.or req.bearerHeader with
    | none => .error .unauthorized
    | some p => if gate.verify p then .ok () else .error .unauthorized

/-! ### `security/introspect_auth.rs` -/

/-- A client with its resolved secret. -/
structure ResolvedClient where
  clientId : String
  secret : Bytes
  deriving DecidableEq

/-- One gate with three axes over one list of clients. -/
structure IntrospectionGate where
  requiredIntrospect : Bool
  requiredValidation : Bool
  requiredJvmCompat : Bool
  clients : List ResolvedClient
  deriving DecidableEq

/-- `IntrospectionGate::verify_basic`. -/
def IntrospectionGate.verifyBasic (K : WebCrates) (gate : IntrospectionGate)
    (headerValue : String) : Except TimError Unit :=
  match splitOnce headerValue ' ' with
  | none => .error .unauthorized
  | some (scheme, rest) =>
      if !eqIgnoreAsciiCase scheme "basic" then .error .unauthorized
      else
        -- White space before the base64 is skipped, white space behind it is not.
        match (K.base64Decode (trimStart rest)).bind fromUtf8 with
        | none => .error .unauthorized
        | some pair =>
            -- At the first colon, so the secret may have colons and the id may not.
            match splitOnce pair ':' with
            | none => .error .unauthorized
            | some (id, secret) =>
                if gate.clients.any fun c => asBytes c.clientId == asBytes id
                    && OAuth.constantTimeEq c.secret (asBytes secret) then .ok ()
                else .error .unauthorized

/-- The check of an axis that is on: the `Authorization` header has to pass `verify_basic`. -/
def IntrospectionGate.check (K : WebCrates) (gate : IntrospectionGate) (required : Bool)
    (req : HttpRequest) : Except TimError Unit :=
  if !required then .ok ()
  else
    match req.header "authorization" with
    | none => .error .unauthorized
    | some raw => gate.verifyBasic K raw

/-! ### Bodies and queries -/

/-- The field that a key of `names` carries: its `serde` name or one of its aliases. -/
def fieldOf (p : Payload) (names : List String) : Field :=
  match p.filterMap fun e => if names.contains e.1 then some e.2 else none with
  | [] => .missing
  | [v] => .present v
  | _ => .duplicate

/-- `#[serde(deny_unknown_fields)]`. -/
def denyUnknown (p : Payload) (names : List String) : Option Unit :=
  if p.all fun e => names.contains e.1 then some () else none

/-- A `bool` field. -/
def asBool : Value → Option Bool
  | .bool b => some b
  | _ => none

/-- A `BTreeMap<String, Value>` field. -/
def asMap : Value → Option ClaimMap
  | .object es => some (.ofList es)
  | _ => none

/-- The untagged `Audience`. -/
def asAudience : Value → Option Audience
  | .string s => some (.single s)
  | v => v.asStrings.map .multi

/-- The body of `POST /jwt/custom/generate`. -/
structure GenerateBody extends GenerateRequest where
  setCookie : Option Bool

/-- `Deserialize for GenerateRequest`. -/
def GenerateBody.deserialize (p : Payload) : Option GenerateBody := do
  denyUnknown p ["JWTName", "jwt_name", "content", "expirationInMinutes",
    "expiration_in_minutes", "audience", "setCookie", "set_cookie"]
  let jwtName ← (fieldOf p ["JWTName", "jwt_name"]).required Value.asStr
  let content ← (p.field "content").required asMap
  let expirationInMinutes ← (fieldOf p ["expirationInMinutes",
    "expiration_in_minutes"]).required Value.asI64
  let audience ← (p.field "audience").optional asAudience
  let setCookie ← (fieldOf p ["setCookie", "set_cookie"]).optional asBool
  return { jwtName, content, expirationInMinutes, audience, setCookie }

variable (K : WebCrates)

/-- The body of the validation routes and of `POST /jwt/custom/revoke`. -/
structure ValidateBody extends ValidateRequest K.toCrates where
  reason : Option String

/-- `Deserialize for ValidateRequest`. -/
def ValidateBody.deserialize (p : Payload) : Option (ValidateBody K) := do
  denyUnknown p ["token", "audience", "issuer", "reason"]
  let token ← (p.field "token").required Value.asStr
  let audience ← (p.field "audience").optional Value.asStr
  let issuer ← (p.field "issuer").optional Value.asStr
  let reason ← (p.field "reason").optional Value.asStr
  return { token := K.compact token, audience, issuer, reason }

/-- The body of `POST /jwt/custom/extend`. -/
structure ExtendBody extends ExtendRequest K.toCrates where
  setCookie : Option Bool

/-- `Deserialize for ExtendRequest`. -/
def ExtendBody.deserialize (p : Payload) : Option (ExtendBody K) := do
  denyUnknown p ["token", "expirationInMinutes", "expiration_in_minutes", "setCookie",
    "set_cookie"]
  let token ← (p.field "token").required Value.asStr
  let expirationInMinutes ← (fieldOf p ["expirationInMinutes",
    "expiration_in_minutes"]).optional Value.asI64
  let setCookie ← (fieldOf p ["setCookie", "set_cookie"]).optional asBool
  return { token := K.compact token, expirationInMinutes, setCookie }

/-- `Deserialize for BulkRevokeRequest`. -/
def bulkRevokeBody (p : Payload) : Option (BulkRevokeRequest K.toCrates) := do
  denyUnknown p ["tokens", "reason"]
  let tokens ← (p.field "tokens").required Value.asStrings
  let reason ← (p.field "reason").optional Value.asStr
  return { tokens := tokens.map K.compact, reason }

/-- A `bool` field with `#[serde(default)]`. -/
def boolField : Field → Option Bool
  | .missing => some false
  | .present v => asBool v
  | .duplicate => none

/-- `Deserialize for ListRequest`. -/
def listBody (p : Payload) : Option ListRequest := do
  denyUnknown p ["offset", "limit", "byRow", "by_row", "issuedAfter", "issued_after",
    "issuedBefore", "issued_before", "expiresAfter", "expires_after", "expiresBefore",
    "expires_before", "jwtName", "jwt_name"]
  let time (names : List String) : Option (Option DateTime) :=
    (fieldOf p names).optional fun v => v.asStr.bind K.parseDateTime
  let offset ← (p.field "offset").optional Value.asI64
  let limit ← (p.field "limit").optional Value.asI64
  let byRow ← boolField (fieldOf p ["byRow", "by_row"])
  let issuedAfter ← time ["issuedAfter", "issued_after"]
  let issuedBefore ← time ["issuedBefore", "issued_before"]
  let expiresAfter ← time ["expiresAfter", "expires_after"]
  let expiresBefore ← time ["expiresBefore", "expires_before"]
  let jwtName ← (fieldOf p ["jwtName", "jwt_name"]).optional Value.asStr
  return { offset, limit, byRow, issuedAfter, issuedBefore, expiresAfter, expiresBefore,
           jwtName }

/-- `ListRequest::default`. -/
def listDefault : ListRequest := ⟨none, none, false, none, none, none, none, none⟩

/-- `Deserialize for IntrospectRequest`. -/
def introspectBody (p : Payload) : Option (IntrospectRequest K.toCrates) := do
  denyUnknown p ["token", "token_type_hint"]
  let token ← (p.field "token").required Value.asStr
  let _hint ← (p.field "token_type_hint").optional Value.asStr
  return { token := K.compact token }

/-- The reason of a `LogoutBody`. -/
def logoutBody (p : Payload) : Option (Option String) := do
  denyUnknown p ["reason"]
  (p.field "reason").optional Value.asStr

/-- An `Option<String>` of a form or a query, under one of `names`. A repeated field is
refused. -/
def formField (pairs : List (String × String)) (names : List String) : Option (Option String) :=
  match pairs.filterMap fun e => if names.contains e.1 then some e.2 else none with
  | [] => some none
  | [v] => some (some v)
  | _ => none

/-- `Deserialize for IntrospectForm`, as an `IntrospectRequest`. -/
def introspectForm (pairs : List (String × String)) : Option (IntrospectRequest K.toCrates) := do
  if pairs.any fun e => !(["token", "token_type_hint"].contains e.1) then none
  let token ← ← formField pairs ["token"]
  let _hint ← formField pairs ["token_type_hint"]
  return { token := K.compact token }

/-- The `redirect_uri` of a `LoginQuery`. -/
def loginQuery (pairs : List (String × String)) : Option (Option String) := do
  if pairs.any fun e => e.1 ≠ "redirect_uri" then none
  formField pairs ["redirect_uri"]

/-- `Deserialize for CallbackQuery`. -/
def callbackQuery (pairs : List (String × String)) : Option OAuth.CallbackQuery := do
  let code ← formField pairs ["code"]
  let state ← formField pairs ["state"]
  let error ← formField pairs ["error"]
  let errorDescription ← formField pairs ["error_description"]
  return { code, state, error, errorDescription }

structure LegacyBlacklistQuery where
  jwt : Option String
  sessionId : Option String
  reason : Option String

/-- `Deserialize for LegacyBlacklistQuery`. -/
def legacyBlacklistQuery (pairs : List (String × String)) : Option LegacyBlacklistQuery := do
  let jwt ← formField pairs ["jwt"]
  let sessionId ← formField pairs ["sessionId", "session_id"]
  let reason ← formField pairs ["reason"]
  return { jwt, sessionId, reason }

/-! ### `security/session_auth.rs` -/

/-- A trimmed id that is not empty. -/
def nonEmpty (s : String) : Option String := if s.isEmpty then none else some s

/-- The extractor `SessionAuth`: the header `X-TIM-Session`, the bearer credentials, or the
query. -/
def sessionAuth (req : HttpRequest) : Except TimError String :=
  let header := (req.header "x-tim-session").bind fun v => nonEmpty (trim v)
  let bearer := (req.header "authorization").bind fun v => (stripHead v "Bearer ").bind fun rest =>
    -- Only a bearer value with this prefix is a session id.
    (stripHead (trim rest) "sess_").bind nonEmpty
  -- A query that does not parse counts as one without the field.
  let query := match K.urlencoded (formField · ["session_id"]) req.query with
    | .ok id => id.bind fun id => nonEmpty (trim id)
    | .error _ => none
  match header.or (bearer.or query) with
  | some id => .ok id
  | none => .error .unauthorized

/-- `bearer_token`. -/
def bearerToken (req : HttpRequest) : Except TimError String :=
  match req.header "authorization" with
  | none => .error .unauthorized
  | some raw =>
      match stripHead raw "Bearer " with
      | none => .error .unauthorized
      | some s => .ok (trim s)

end Tim.Web
