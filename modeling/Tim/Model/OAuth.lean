import Tim.Lib.Pool
import Tim.Model.Provider

/-!
# `Tim.Model.OAuth`: the OAuth2 login flow

`src/oauth2/flow.rs` with what it calls: `DiscoveryCache::fetch_with`, `JwksCache::fetch`,
`idtoken::verify` and `sweep_oauth_state`, and the two handlers of `src/router/mod.rs` in front
of it. One program per function, over the calls of `Op`: the clock, the random source, the two
caches, the outbound HTTP requests, the statements on `auth.oauth_state`, and the session
store.

`State.exec` is what each call does. An entry of a cache is answered until its time-to-live has
elapsed, and the surroundings can drop it at any time before. A statement on the pool is one
atomic step. `JwksCache::fetch` shares a load between concurrent misses. Here each miss loads
for itself, and one that waits for another load is one that looks the key set up after it.

`removed` and `keyUses` record which rows were deleted and which key sets were handed out, with
the time of it. No function of the model reads them.
-/

set_option autoImplicit false

namespace Tim.OAuth

open Tim.Lib

/-! ### The calls -/

/-- The columns of `auth.oauth_state` that the `INSERT` of `build_login_url` binds. -/
structure NewState where
  state : String
  providerId : String
  nonce : String
  redirectUri : Option String
  pkceVerifier : Option String
  deriving DecidableEq

/-- A row of `auth.oauth_state`. -/
structure StateRow extends NewState where
  createdAt : DateTime
  deriving DecidableEq

/-- What `DELETE .. RETURNING` gives of a row. -/
structure Returned where
  nonce : String
  providerId : String
  redirectUri : Option String
  pkceVerifier : Option String
  deriving DecidableEq

/-- A failed HTTP request. -/
structure SendError where
  isTimeout : Bool
  text : String
  deriving DecidableEq

/-- An HTTP response. The body is read later, and that can fail too. -/
structure HttpResponse where
  status : Nat
  body : Except String String

/-- `StatusCode::is_success`. -/
def HttpResponse.isSuccess (r : HttpResponse) : Bool := 200 ≤ r.status && r.status < 300

/-- The calls of the OAuth2 flow. -/
inductive Op where
  | now
  /-- `RngCore::fill_bytes`. -/
  | fillBytes (n : Nat)
  | sleep (ms : Nat)
  /-- `reqwest::Client::builder().build()`. -/
  | buildClient
  | discoveryGet (url : String)
  | discoveryInsert (url : String) (doc : Discovery)
  | jwksGet (uri : String)
  | jwksInsert (uri : String) (set : JwkSet)
  /-- One `send` of a `GET`. The clients of the program have the default redirect policy of
  `reqwest`, so the client itself may follow up to ten redirects before it answers. The answer is
  that of the last request. -/
  | httpGet (url : String)
  /-- One `send` of a form, with the credentials of the client. Redirects are followed likewise. -/
  | httpPost (url clientId clientSecret : String) (form : List (String × String))
  | insertState (row : NewState)
  /-- `DELETE FROM auth.oauth_state .. RETURNING`, with the maximum age in seconds. -/
  | deleteState (state providerId : String) (maxAge : Int32)
  /-- `DELETE FROM auth.oauth_state`, every row past the maximum age. -/
  | sweepState (maxAge : Int32)
  | createSession (session : Session)

/-- The calls that leave the process, each a request that the program issues. -/
def Op.isOutbound : Op → Bool
  | .httpGet _ | .httpPost .. => true
  | _ => false

/-- The answer to a statement: a `sqlx` error by its text, or a value. -/
abbrev Sql (α : Type) := Except String α

/-- The answers. -/
def Resp : Op → Type
  | .now => DateTime
  | .fillBytes _ => Bytes
  | .sleep _ => Unit
  | .buildClient => Except String Unit
  | .discoveryGet _ => Option Discovery
  | .discoveryInsert .. => Unit
  | .jwksGet _ => Option JwkSet
  | .jwksInsert .. => Unit
  | .httpGet _ => Except SendError HttpResponse
  | .httpPost .. => Except SendError HttpResponse
  | .insertState _ => Sql Unit
  | .deleteState .. => Sql (Option Returned)
  | .sweepState _ => Sql Nat
  | .createSession _ => Except TimError Unit

/-- The signature of the OAuth2 flow. -/
def oauthSig : Sig where
  Op := Op
  Resp := Resp

/-! ### The state -/

/-- A cache entry with the time it was inserted. -/
structure Cached (α : Type) where
  value : α
  insertedAt : DateTime

/-- The time-to-live of an entry, in seconds, has not elapsed. -/
def Cached.live {α : Type} (e : Cached α) (ttl : Nat) (now : DateTime) : Bool :=
  decide (now.ns < e.insertedAt.ns + ttl * nanosPerSecond)

/-- A row that was deleted, with the task that did it and the time. -/
structure Removal where
  tid : Nat
  row : StateRow
  at_ : DateTime
  deriving DecidableEq

/-- A key set that was handed to a task, with the time it was loaded and the time now. -/
structure KeyUse where
  tid : Nat
  uri : String
  set : JwkSet
  loadedAt : DateTime
  at_ : DateTime
  deriving DecidableEq

/-- The database, the caches, the session store and the clock. -/
structure State (store : SessionStore) where
  clock : DateTime
  states : Std.ExtTreeMap String StateRow
  discovery : Std.ExtTreeMap String (Cached Discovery)
  jwks : Std.ExtTreeMap String (Cached JwkSet)
  sessions : store.State
  used : List Bytes
  removed : List Removal
  keyUses : List KeyUse

/-- What the surroundings decide about one call: that it goes on, the bytes it draws, the
response it gets, the nonce that a session is sealed with, or the error of the database. -/
inductive Choice where
  | go
  | bytes (b : Bytes)
  | response (r : Except SendError HttpResponse)
  | nonce (n : Nonce)
  | fail (e : String)

/-- `created_at > now() - make_interval(secs => max_age)`. -/
def StateRow.youngerThan (r : StateRow) (maxAge : Int32) (now : DateTime) : Bool :=
  decide (now.toTimestamptz.ns - maxAge.toInt * nanosPerSecond < r.createdAt.ns)

/-- `created_at < now() - make_interval(secs => max_age)`. -/
def StateRow.olderThan (r : StateRow) (maxAge : Int32) (now : DateTime) : Bool :=
  decide (r.createdAt.ns < now.toTimestamptz.ns - maxAge.toInt * nanosPerSecond)

namespace State

variable {store : SessionStore}

/-- A statement that goes on as `f` says, or fails and changes nothing. -/
def statement {α : Type} (s : State store) (f : Sql α × State store) :
    Choice → Option (Sql α × State store)
  | .go => some f
  | .fail e => some (.error e, s)
  | _ => none

/-- The error of a statement with a `text` parameter that is none. -/
def notText : String := "invalid byte sequence for encoding \"UTF8\": 0x00"

/-- `INSERT INTO auth.oauth_state`. -/
def insertState (s : State store) (row : NewState) : Sql Unit × State store :=
  if !(isText row.state && isText row.providerId && isText row.nonce
      && row.redirectUri.all isText && row.pkceVerifier.all isText) then
    (.error notText, s)
  else if (s.states[row.state]?).isSome then
    (.error "duplicate key value violates unique constraint", s)
  else
    (.ok (), { s with
      states := s.states.insert row.state ⟨row, s.clock.toTimestamptz⟩ })

/-- `DELETE FROM auth.oauth_state WHERE state = .. AND provider_id = .. AND created_at > ..
RETURNING`. -/
def deleteState (s : State store) (tid : Nat) (state providerId : String) (maxAge : Int32) :
    Sql (Option Returned) × State store :=
  if !(isText state && isText providerId) then (.error notText, s)
  else
    match (s.states[state]?).filter fun r =>
        r.providerId == providerId && r.youngerThan maxAge s.clock with
    | none => (.ok none, s)
    | some r => (.ok (some ⟨r.nonce, r.providerId, r.redirectUri, r.pkceVerifier⟩), { s with
        states := s.states.erase state
        removed := s.removed ++ [⟨tid, r, s.clock⟩] })

/-- `DELETE FROM auth.oauth_state WHERE created_at < ..`. -/
def sweepState (s : State store) (tid : Nat) (maxAge : Int32) : Sql Nat × State store :=
  let old := (s.states.toList.map (·.2)).filter fun r => r.olderThan maxAge s.clock
  (.ok old.length, { s with
    states := s.states.filter fun _ r => !r.olderThan maxAge s.clock
    removed := s.removed ++ old.map fun r => ⟨tid, r, s.clock⟩ })

/-- A key set from the cache, while it is live. -/
def jwksGet (s : State store) (ttl : Nat) (tid : Nat) (uri : String) :
    Option JwkSet × State store :=
  match (s.jwks[uri]?).filter fun e => e.live ttl s.clock with
  | none => (none, s)
  | some e => (some e.value, { s with
      keyUses := s.keyUses ++ [⟨tid, uri, e.value, e.insertedAt, s.clock⟩] })

/-- A key set that was just loaded goes into the cache. -/
def jwksInsert (s : State store) (tid : Nat) (uri : String) (set : JwkSet) : State store :=
  { s with
    jwks := s.jwks.insert uri ⟨set, s.clock⟩
    keyUses := s.keyUses ++ [⟨tid, uri, set, s.clock, s.clock⟩] }

/-- The answer to a call, and the state after it. The two times-to-live are those of the
discovery and of the JWKS cache, in seconds. -/
def exec (discoveryTtl jwksTtl : Nat) (tid : Nat) (s : State store) :
    (o : Op) → Choice → Option (Resp o × State store)
  | .now => fun
      | .go => some (s.clock, s)
      | _ => none
  | .fillBytes n => fun
      | .bytes b =>
          if b.length = n ∧ b ∉ s.used then some (b, { s with used := b :: s.used }) else none
      | _ => none
  | .sleep _ => fun
      | .go => some ((), s)
      | _ => none
  | .buildClient => fun
      | .go => some (.ok (), s)
      | .fail e => some (.error e, s)
      | _ => none
  | .discoveryGet url => fun
      | .go => some (((s.discovery[url]?).filter fun e => e.live discoveryTtl s.clock).map
          (·.value), s)
      | _ => none
  | .discoveryInsert url doc => fun
      | .go => some ((), { s with discovery := s.discovery.insert url ⟨doc, s.clock⟩ })
      | _ => none
  | .jwksGet uri => fun
      | .go => some (s.jwksGet jwksTtl tid uri)
      | _ => none
  | .jwksInsert uri set => fun
      | .go => some ((), s.jwksInsert tid uri set)
      | _ => none
  | .httpGet _ => fun
      | .response r => some (r, s)
      | _ => none
  | .httpPost .. => fun
      | .response r => some (r, s)
      | _ => none
  | .insertState row => s.statement (s.insertState row)
  | .deleteState state providerId maxAge => s.statement (s.deleteState tid state providerId maxAge)
  | .sweepState maxAge => s.statement (s.sweepState tid maxAge)
  | .createSession session => fun
      | .nonce n =>
          let r := store.create ⟨s.clock, n⟩ session s.sessions
          some (r.1, { s with sessions := r.2 })
      | .fail e => some (.error (.database e), s)
      | _ => none

end State

/-- What happens outside the requests: time passes, or a cache drops an entry. -/
inductive Env where
  | tick (t : DateTime)
  | evictDiscovery (url : String)
  | evictJwks (uri : String)

/-- The state after an event outside the requests. The clock does not go back. -/
def State.env {store : SessionStore} (s : State store) : Env → Option (State store)
  | .tick t => if s.clock ≤ t then some { s with clock := t } else none
  | .evictDiscovery url => some { s with discovery := s.discovery.erase url }
  | .evictJwks uri => some { s with jwks := s.jwks.erase uri }

/-- The machine of the OAuth2 flow. -/
def oauthMachine (store : SessionStore) (discoveryTtl jwksTtl : Nat) : Machine oauthSig where
  State := State store
  Choice := Choice
  Env := Env
  exec tid s o ch := s.exec discoveryTtl jwksTtl tid o ch
  env := State.env
  release _ s := s

/-! ### The programs -/

/-- Code of the OAuth2 flow that returns an `α`. -/
abbrev Flow (α : Type) := Prog oauthSig Fault α

namespace Flow

variable {α : Type}

/-- One call to the outside. -/
def call (o : Op) : Flow (Resp o) := Prog.call (S := oauthSig) o

/-- Stop with an error. -/
def fail (e : TimError) : Flow α := .raise (.err e)

/-- The `?` on a result. -/
def try_ : Except TimError α → Flow α
  | .ok a => .ret a
  | .error e => fail e

/-- The `?` on the answer to a statement. -/
def sql : Sql α → Flow α
  | .ok a => .ret a
  | .error e => fail (.database e)

/-- The result of `p` as a value. -/
def attempt (p : Flow α) : Flow (Except TimError α) :=
  p.handle (fun a => .ret (.ok a)) fun
    | .err e => .ret (.error e)
    | .panic => .raise .panic

end Flow

open Tim.OAuth.Flow

/-- The configuration that the flow reads. `offline` is the value that `is_offline` has
cached. -/
structure OAuthService (K : OAuthCrates) where
  providers : Std.ExtTreeMap String Provider
  stateMaxAgeSeconds : UInt64
  sessionTtlSeconds : UInt64
  publicBaseUrl : String
  offline : Bool

/-- The time-to-live of the JWKS cache that `ProviderRegistry::from_config` makes, in
seconds. -/
def OAuthService.cacheTtl {K : OAuthCrates} (svc : OAuthService K) : Nat :=
  (max (jwksTtl (svc.providers.toList.map (·.2.config))) 1).toNat

/-- The response of `GET /auth/login`. -/
structure AuthUrl where
  authorizationUrl : String
  provider : String
  state : String

/-- The response of `GET /auth/callback`. -/
structure CallbackResult where
  status : String
  provider : String
  sessionId : String
  expiresAt : DateTime
  userProfile : ClaimMap

/-- The token endpoint's answer, as far as the flow reads it. -/
structure TokenResponse where
  accessToken : String
  idToken : Option String
  expiresIn : Option Int64

/-- `Deserialize for TokenResponse`. The fields that nothing reads have to parse too. -/
def TokenResponse.deserialize (p : Payload) : Option TokenResponse := do
  let accessToken ← (p.field "access_token").required Value.asStr
  let idToken ← (p.field "id_token").optional Value.asStr
  let _tokenType ← (p.field "token_type").optional Value.asStr
  let expiresIn ← (p.field "expires_in").optional Value.asI64
  let _refreshToken ← (p.field "refresh_token").optional Value.asStr
  return { accessToken, idToken, expiresIn }

/-- The query of `GET /auth/callback`. -/
structure CallbackQuery where
  code : Option String
  state : Option String
  error : Option String
  errorDescription : Option String

/-- `random_hex`. -/
def randomHex (bytes : Nat) : Flow String := do
  let buf ← call (.fillBytes bytes)
  return hexEncode buf

/-- `now + Duration::seconds(secs)`. Both parts panic when they leave their range. -/
def addSeconds (now : DateTime) (secs : Int64) : Flow DateTime :=
  match (Duration.trySeconds secs.toInt).bind now.checkedAdd with
  | none => .raise .panic
  | some t => .ret t

namespace OAuthService

variable {K : OAuthCrates} (svc : OAuthService K)

/-- `block_if_offline`. -/
def blockIfOffline (url : String) : Option TimError :=
  if svc.offline then
    some (.upstreamTimeout ("TIM_OFFLINE=1 refuses outbound to `" ++ url ++ "`"))
  else none

/-- `Response::json` of a body that has to be read first. -/
def json {C : Type} (K : OAuthCrates) (de : Payload → Option C) (r : HttpResponse) :
    Except String C :=
  match r.body with
  | .error e => .error e
  | .ok text => K.fromJson de text

/-- `DiscoveryCache::fetch_once`. -/
def fetchOnce (url : String) : Flow Discovery :=
  match svc.blockIfOffline url with
  | some e => fail e
  | none => do
      match ← call (.httpGet url) with
      | .error e => fail (.badGateway ("discovery fetch: " ++ e.text))
      | .ok resp =>
          if !resp.isSuccess then
            fail (.badGateway ("discovery returned " ++ K.statusText resp.status))
          else
            match json K Discovery.deserialize resp with
            | .error e => fail (.badGateway ("discovery parse: " ++ e))
            | .ok doc => return doc

/-- What `fetch_with` does with a fetched document: check it, then cache it. -/
def acceptDocument (url : String) (allowHttp : Bool) (doc : Discovery) : Flow Discovery := do
  -- The check is not inside the retries: a document that fails it is not fetched again.
  let () ← try_ (doc.validateWith allowHttp)
  let () ← call (.discoveryInsert url doc)
  return doc

/-- The retry loop of `fetch_with`, with the retries that are left and the next delay. The
last attempt returns its own error. -/
def fetchAttempts (url : String) (allowHttp : Bool) : Nat → Nat → Flow Discovery
  | 0, _ => do
      match ← attempt (svc.fetchOnce url) with
      | .ok doc => acceptDocument url allowHttp doc
      | .error e => fail e
  | retries + 1, delayMs => do
      match ← attempt (svc.fetchOnce url) with
      | .ok doc => acceptDocument url allowHttp doc
      | .error e =>
          -- The delay doubles up to four seconds. A 4xx answer of the provider is not tried again.
          if retryable e then
            let () ← call (.sleep delayMs)
            fetchAttempts url allowHttp retries (min (delayMs * 2) 4000)
          else fail e

/-- `DiscoveryCache::fetch_with`, with `max_retries = 3`. -/
def fetchWith (url : String) (allowHttp : Bool) : Flow Discovery := do
  match ← call (.discoveryGet url) with
  -- Cached documents are returned as they are, also when the two callers' flags differ.
  | some cached => return cached
  | none => svc.fetchAttempts url allowHttp 3 500

/-- `load` of `jwks.rs`. -/
def loadJwks (uri : String) : Flow JwkSet :=
  match svc.blockIfOffline uri with
  | some e => fail e
  | none => do
      match ← call (.httpGet uri) with
      | .error e => fail (.badGateway ("JWKS fetch: " ++ e.text))
      | .ok resp =>
          if !resp.isSuccess then
            fail (.badGateway ("JWKS endpoint returned " ++ K.statusText resp.status))
          else
            match json K jwksBody resp with
            | .error e => fail (.badGateway ("JWKS parse: " ++ e))
            | .ok keys => return intoJwkSet K keys

/-- `JwksCache::fetch`. -/
def fetchJwks (uri : String) : Flow JwkSet := do
  match ← call (.jwksGet uri) with
  | some set => return set
  | none =>
      let set ← svc.loadJwks uri
      -- An empty set is cached like any other.
      let () ← call (.jwksInsert uri set)
      return set

/-- `idtoken::verify`. -/
def verify (discovery : Discovery) (provider : Provider) (idToken expectedNonce : String) :
    Flow IdTokenClaims :=
  match K.decodeHeader (K.compact idToken) with
  | .error e => fail (.unprocessable
      ("id_token header: " ++ clipUntrusted (K.errorText e) 256))
  | .ok header =>
      -- Refused before any key is looked at.
      if header.alg = .hs256 ∨ header.alg = .hs384 ∨ header.alg = .hs512 then
        fail (.unprocessable "id_token signed with a symmetric algorithm; refused")
      else do
        let set ← svc.fetchJwks discovery.jwksUri
        let key ← try_ (selectKey set header)
        let decoding ← try_ (decodingKeyFor K key)
        let at_ : DateTime ← call .now
        match K.decode IdTokenClaims.deserialize (K.compact idToken) decoding
            (idTokenValidation provider discovery header.alg) at_.timestamp with
        | .error e => fail (.unprocessable
            ("id_token verify: " ++ clipUntrusted (K.errorText e) 256))
        | .ok claims =>
            -- `decode` was told not to look at `aud`.
            if !claims.aud.contains provider.clientId then
              fail (.unprocessable "id_token aud does not contain client_id")
            else
              let now : DateTime ← call .now
              let skew : Int64 := provider.config.tokenValidation.clockSkewSeconds.toInt64
              -- The cast of the skew and the sum are both in `i64`.
              if now.timestamp + skew < claims.iat then
                fail (.unprocessable
                  "id_token iat is in the future beyond configured clock skew")
              else
                match claims.nonce with
                | none => fail (.unprocessable "id_token nonce missing")
                | some nonce =>
                    if !constantTimeEq (asBytes nonce) (asBytes expectedNonce) then
                      fail (.unprocessable "id_token nonce mismatch")
                    else return claims

/-- `generate_pkce`: the verifier and its challenge. -/
def generatePkce (K : OAuthCrates) : Flow (String × String) := do
  let raw ← call (.fillBytes 32)
  let verifier := K.base64Url raw
  return (verifier, challengeOf K verifier)

/-- The query of the authorization URL. -/
def authorizationPairs (provider : Provider) (redirectUri state nonce challenge : String) :
    List (String × String) :=
  [("response_type", "code"), ("client_id", provider.clientId), ("redirect_uri", redirectUri),
   ("scope", " ".intercalate provider.config.scopes), ("state", state), ("nonce", nonce),
   ("code_challenge", challenge), ("code_challenge_method", "S256")]

/-- `build_login_url`. -/
def buildLoginUrl (providerId redirectUri : String) : Flow AuthUrl :=
  match svc.providers[providerId]? with
  | none => fail (.notFound ("unknown provider " ++ providerId))
  | some provider => do
      let discovery ← svc.fetchWith provider.config.discoveryUrl
        provider.config.allowHttpDiscovery
      let () ← try_ (enforceJwksPin provider discovery)
      let state ← randomHex 32
      let nonce ← randomHex 32
      let (pkceVerifier, pkceChallenge) ← generatePkce K
      -- The row is stored before the URL is built, so a URL that does not parse leaves it behind.
      let () ← sql (← call (.insertState {
        state, providerId, nonce
        redirectUri := some redirectUri
        pkceVerifier := some pkceVerifier }))
      match K.appendPairs discovery.authorizationEndpoint
          (authorizationPairs provider redirectUri state nonce pkceChallenge) with
      | .error e => fail (.badGateway ("bad authorization_endpoint: " ++ e))
      | .ok url => return { authorizationUrl := url, provider := providerId, state }

/-- The form of the token request. -/
def tokenForm (code : String) (redirectUri pkceVerifier : Option String) :
    List (String × String) :=
  [("grant_type", "authorization_code"), ("code", code)]
    ++ (match redirectUri with
      | some r => [("redirect_uri", r)]
      | none => [])
    ++ match pkceVerifier with
      -- Rows from before the migration may lack the value, or have it empty.
      | some v => if v.isEmpty then [] else [("code_verifier", v)]
      | none => []

/-- The token exchange of `complete_callback`. -/
def exchange (provider : Provider) (endpoint : String) (form : List (String × String)) :
    Flow TokenResponse :=
  match svc.blockIfOffline endpoint with
  | some e => fail e
  | none => do
      match ← call (.httpPost endpoint provider.clientId provider.clientSecret form) with
      | .error e =>
          if e.isTimeout then fail (.upstreamTimeout ("token endpoint: " ++ e.text))
          else fail (.badGateway ("token exchange: " ++ e.text))
      | .ok resp =>
          if !resp.isSuccess then
            -- At most 512 characters of the body, and nothing of a body that cannot be read.
            let body := match resp.body with
              | .ok text => String.ofList (text.toList.take 512)
              | .error _ => ""
            fail (.badGateway ("token exchange returned " ++ K.statusText resp.status ++ ": "
              ++ body))
          else
            match json K TokenResponse.deserialize resp with
            | .error e => fail (.badGateway ("token response parse: " ++ e))
            | .ok tokens => return tokens

/-- The seconds that a new session lasts: what the provider says, at most the cap and at least
one. -/
def effectiveSeconds (expiresIn : Option Int64) : Int64 :=
  -- `as i64`: a cap of 2^63 seconds or more becomes negative here.
  let ttlCap := svc.sessionTtlSeconds.toInt64
  max (min (expiresIn.getD ttlCap) ttlCap) 1

/-- The end of `complete_callback`: the session of verified claims. -/
def openSession (providerId : String) (provider : Provider) (tokens : TokenResponse)
    (claims : IdTokenClaims) : Flow CallbackResult := do
  -- The user is the verified `sub`, whatever the mappings say.
  let (userId, profile) := profileFromClaims provider claims
  let now : DateTime ← call .now
  let expiresAt ← addSeconds now (svc.effectiveSeconds tokens.expiresIn)
  let sessionId ← randomHex 24
  let () ← try_ (← call (.createSession {
    id := sessionId
    providerId, userId
    createdAt := now
    lastActivity := now
    expiresAt, profile }))
  return {
    status := "ok"
    provider := providerId
    sessionId, expiresAt
    -- Inserted last, so a mapping named `user_id` does not show in this reply.
    userProfile := profile.insert "user_id" (.string userId) }

/-- `state_max_age_seconds as i32`. -/
def maxAge : Int32 := svc.stateMaxAgeSeconds.toUInt32.toInt32

/-- `complete_callback` after the state row was consumed. -/
def redeem (providerId : String) (provider : Provider) (code : String) (row : Returned) :
    Flow CallbackResult := do
  let discovery ← svc.fetchWith provider.config.discoveryUrl provider.config.allowHttpDiscovery
  let () ← try_ (enforceJwksPin provider discovery)
  match ← call .buildClient with
  | .error e => fail (.badGateway ("build http client: " ++ e))
  | .ok () =>
      let tokens ← svc.exchange provider discovery.tokenEndpoint
        (tokenForm code row.redirectUri row.pkceVerifier)
      match tokens.idToken with
      | none => fail (.unprocessable "token response has no id_token")
      | some idToken =>
          let claims ← svc.verify discovery provider idToken row.nonce
          svc.openSession providerId provider tokens claims

/-- `complete_callback`. -/
def completeCallback (providerId code state : String) : Flow CallbackResult :=
  match svc.providers[providerId]? with
  | none => fail (.notFound ("unknown provider " ++ providerId))
  | some provider => do
      -- `DELETE .. RETURNING`: the row is gone, whatever the rest of the callback does.
      match ← sql (← call (.deleteState state providerId svc.maxAge)) with
      | none => fail (.unprocessable "state not found, expired, or already consumed")
      | some row => svc.redeem providerId provider code row

/-- `sweep_oauth_state`. -/
def sweepOauthState : Flow Nat := do sql (← call (.sweepState svc.maxAge))

/-- `resolve_redirect_uri`. -/
def resolveRedirectUri (providerId : String) (allowed : List String)
    (callerSupplied : Option String) : Except TimError String :=
  match callerSupplied with
  | some uri =>
      -- An exact match. With an empty list no supplied URI passes.
      if !allowed.contains uri then
        .error (.badRequest ("redirect_uri `" ++ uri ++ "` is not on the provider's allow-list"))
      else .ok uri
  | none =>
      match allowed.head? with
      | some first => .ok first
      | none =>
          if svc.publicBaseUrl.isEmpty then
            .error (.badRequest ("no redirect_uri supplied and neither "
              ++ "provider.allowed_redirect_uris nor server.public_base_url is configured"))
          else .ok (trimEndMatches svc.publicBaseUrl '/' ++ "/auth/callback/" ++ providerId)

/-- `UNTRUSTED_ECHO_CAP`. -/
def untrustedEchoCap : Nat := 256

/-- `auth_login`. -/
def authLogin (id : String) (redirectUri : Option String) : Flow AuthUrl :=
  match svc.providers[id]? with
  | none => fail (.notFound ("unknown provider " ++ clipUntrusted id untrustedEchoCap))
  | some provider =>
      match svc.resolveRedirectUri id provider.config.allowedRedirectUris redirectUri with
      | .error e => fail e
      | .ok uri => svc.buildLoginUrl id uri

/-- The answer of `auth_callback`: a session, or the error that the provider reported. -/
inductive CallbackAnswer where
  | opened (r : CallbackResult)
  | providerError (provider error : String) (description : Option String)

/-- `auth_callback`. -/
def authCallback (id : String) (q : CallbackQuery) : Flow CallbackAnswer :=
  -- An error of the provider is answered first, and the state row stays.
  match q.error with
  | some err => pure (.providerError (clipUntrusted id untrustedEchoCap)
      (clipUntrusted err untrustedEchoCap)
      (q.errorDescription.map (clipUntrusted · untrustedEchoCap)))
  | none =>
      match q.code with
      | none => fail (.badRequest "callback missing `code`")
      | some code =>
          match q.state with
          | none => fail (.badRequest "callback missing `state`")
          | some state => do return .opened (← svc.completeCallback id code state)

end OAuthService

/-! ### Requests -/

/-- The calls that the flow serves. -/
inductive Request where
  | buildLoginUrl (providerId redirectUri : String)
  | authLogin (id : String) (redirectUri : Option String)
  | completeCallback (providerId code state : String)
  | authCallback (id : String) (q : CallbackQuery)
  | sweepOauthState
  | fetchWith (url : String) (allowHttp : Bool)
  | verify (discovery : Discovery) (provider : Provider) (idToken expectedNonce : String)

/-- The results. -/
inductive Response where
  | authUrl (r : AuthUrl)
  | callback (r : CallbackResult)
  | callbackAnswer (r : OAuthService.CallbackAnswer)
  | swept (n : Nat)
  | discovery (d : Discovery)
  | claims (c : IdTokenClaims)

/-- The program that serves a request. -/
def OAuthService.program {K : OAuthCrates} (svc : OAuthService K) : Request → Flow Response
  | .buildLoginUrl providerId redirectUri => do
      return .authUrl (← svc.buildLoginUrl providerId redirectUri)
  | .authLogin id redirectUri => do return .authUrl (← svc.authLogin id redirectUri)
  | .completeCallback providerId code state => do
      return .callback (← svc.completeCallback providerId code state)
  | .authCallback id q => do return .callbackAnswer (← svc.authCallback id q)
  | .sweepOauthState => do return .swept (← svc.sweepOauthState)
  | .fetchWith url allowHttp => do return .discovery (← svc.fetchWith url allowHttp)
  | .verify discovery provider idToken expectedNonce => do
      return .claims (← svc.verify discovery provider idToken expectedNonce)

end Tim.OAuth
