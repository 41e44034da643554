import Tim.Model.Config
import Tim.Model.Net

/-!
# `Tim.Model.Boot`: the start of the server (`src/main.rs`)

`serve` loads the configuration and the keys, connects to the database, builds what the handlers
share and binds the port. Connecting, migrating and binding are answered from outside
(`Externals`). Everything else depends on the configuration, the environment and the key files,
and can fail with an error of its own or with a panic of a library constructor.
-/

set_option autoImplicit false

namespace Tim.Boot

open Tim.OAuth Tim.Web Tim.Net

/-- Why `serve` has ended before it serves. -/
inductive BootError where
  /-- A step of its own has failed. -/
  | step (context : Option String) (cause : String)
  /-- A library constructor has panicked. -/
  | panic
  /-- Connecting, migrating or binding has failed. -/
  | external (cause : String)
  deriving DecidableEq

/-- The answers of the database and of the operating system. -/
structure Externals where
  connect : String → DatabaseConfig → Except String Unit
  runMigrations : Except String Unit
  listen : SocketAddr → Except String Unit

abbrev Boot := Except BootError

/-- The `?` of `serve`, with the context it adds. -/
def orStop {α : Type} (context : Option String) : Except TimError α → Boot α
  | .ok a => .ok a
  | .error e => .error (.step context e.display)

/-- An answer from outside. -/
def answered : Except String Unit → Boot Unit
  | .ok () => .ok ()
  | .error e => .error (.external e)

/-- A library constructor that panics on some arguments. -/
def orPanic (returns : Bool) : Boot Unit := if returns then .ok () else .error .panic

/-! ### Keys -/

/-- `JwtSigner::load_from_pem`. -/
def loadFromPem (K : BootCrates) (files : Files) (path kid : String) :
    Except TimError (JwtSigner K.toCrates) :=
  match files.readToString path with
  | .error e => .error (.crypto ("read " ++ path ++ ": " ++ e))
  | .ok pem => JwtSigner.fromPkcs8Pem K.toCrates pem kid

/-- `JwtSigner::load_previous_from_pem`. -/
def loadPreviousFromPem {K : BootCrates} (files : Files) (signer : JwtSigner K.toCrates)
    (prev : PreviousKeyConfig) : Except TimError (JwtSigner K.toCrates) :=
  match files.readToString prev.privateKeyPath with
  | .error e => .error (.crypto ("read " ++ prev.privateKeyPath ++ ": " ++ e))
  | .ok pem => signer.withPrevious pem prev.keyId prev.retiresAt

/-! ### The gates -/

/-- `AdminGate::from_config`. -/
def adminGate (env : Environment) (cfg : SecurityConfig) : Except TimError AdminGate :=
  if cfg.adminTokenEnv.isEmpty then
    if cfg.requireAdminToken then
      .error (.config ("security.admin_token_env is empty but require_admin_token = true; "
        ++ "set the env var name (see security-hardening.md)"))
    else .ok ⟨none⟩
  else
    -- An empty value counts as unset. The value is not trimmed.
    match (env.var cfg.adminTokenEnv).filter (· ≠ "") with
    | some val => .ok ⟨some (asBytes val)⟩
    | none =>
        if cfg.requireAdminToken then
          .error (.config ("security.admin_token_env `" ++ cfg.adminTokenEnv
            ++ "` is not set or empty"))
        else .ok ⟨none⟩

/-- The loop of `IntrospectionGate::from_config`. Without a required axis a client whose secret
is not set is left out. -/
def resolveClients (env : Environment) (anyRequired : Bool) :
    List IntrospectionClient → Except TimError (List ResolvedClient)
  | [] => .ok []
  | c :: rest =>
      -- The value is kept as it is, and so is the client id: a colon in it is not refused.
      match (env.var c.clientSecretEnv).filter (· ≠ "") with
      | some v =>
          match resolveClients env anyRequired rest with
          | .ok resolved => .ok (⟨c.clientId, asBytes v⟩ :: resolved)
          | .error e => .error e
      | none =>
          if anyRequired then
            .error (.config ("introspection.clients[" ++ c.clientId ++ "].client_secret_env `"
              ++ c.clientSecretEnv ++ "` is unset or empty"))
          else resolveClients env anyRequired rest

/-- `IntrospectionGate::from_config`. -/
def introspectionGate (env : Environment) (cfg : IntrospectionConfig) :
    Except TimError IntrospectionGate :=
  let anyRequired :=
    cfg.requiredClientAuth || cfg.gateValidationEndpoints || cfg.gateJvmCompatEndpoints
  match resolveClients env anyRequired cfg.clients with
  | .error e => .error e
  | .ok clients => .ok ⟨cfg.requiredClientAuth, cfg.gateValidationEndpoints,
      cfg.gateJvmCompatEndpoints, clients⟩

/-! ### Providers and sessions -/

/-- One round of the loop of `ProviderRegistry::from_config`. -/
def resolveProvider (env : Environment) (id : String) (pc : ProviderConfig) :
    Except TimError Provider :=
  if !startsWith pc.discoveryUrl "https://" && !pc.allowHttpDiscovery then
    .error (.config ("provider " ++ id ++ ": discovery_url `" ++ pc.discoveryUrl
      ++ "` is not https://. Set `allow_http_discovery: true` on this provider to opt in for "
      ++ "dev."))
  else
    -- Unlike the secrets of the gates, these two may be empty.
    match env.var pc.clientIdEnv with
    | none => .error (.config ("provider " ++ id ++ ": env var " ++ pc.clientIdEnv ++ " not set"))
    | some clientId =>
        match env.var pc.clientSecretEnv with
        | none => .error
            (.config ("provider " ++ id ++ ": env var " ++ pc.clientSecretEnv ++ " not set"))
        | some clientSecret => .ok { id, config := pc, clientId, clientSecret }

/-- `ProviderRegistry::from_config`: the providers, and the two caches with their clients. -/
def providerRegistry (K : BootCrates) (env : Environment) (cfg : OAuth2Config) :
    Boot (Std.ExtTreeMap String Provider) := do
  let providers ← orStop none <| cfg.providers.toList.mapM fun (id, pc) =>
    (resolveProvider env id pc).map fun p => (id, p)
  -- The caches are built after the providers, and a builder that refuses its input panics.
  orPanic (K.cacheBuilds cfg.discoveryCacheTtlSeconds.toNat && K.clientBuilds)
  let ttl := max (jwksTtl (cfg.providers.toList.map (·.2))) 1
  orPanic (K.cacheBuilds ttl.toNat && K.clientBuilds)
  pure (.ofList providers)

/-- `from_hex_digit`. -/
def fromHexDigit (b : UInt8) : Except String UInt8 :=
  if 48 ≤ b ∧ b ≤ 57 then .ok (b - 48)
  else if 97 ≤ b ∧ b ≤ 102 then .ok (b - 97 + 10)
  else if 65 ≤ b ∧ b ≤ 70 then .ok (b - 65 + 10)
  else .error ("non-hex character: " ++ toString b)

/-- The loop of `hex::decode`. -/
def decodeHex : Bytes → Except String Bytes
  | [] => .ok []
  | [_] => .error "odd length"
  | hi :: lo :: rest => do
      let hi ← fromHexDigit hi
      let lo ← fromHexDigit lo
      let bytes ← decodeHex rest
      pure ((hi <<< 4 ||| lo) :: bytes)

/-- `hex::decode`. -/
def hexDecode (s : String) : Except String Bytes :=
  let bytes := asBytes (trim s)
  -- `chunks(2)`: after this test every chunk has two digits.
  if bytes.length % 2 ≠ 0 then .error "odd length" else decodeHex bytes

/-- `SessionCipher::from_hex_key`, as the bytes of the key. -/
def fromHexKey (hexKey : String) : Except TimError Bytes :=
  match hexDecode (trim hexKey) with
  | .error e => .error (.config ("session key hex decode: " ++ e))
  | .ok bytes =>
      if bytes.length ≠ 32 then
        .error (.config ("session key must be 32 bytes (64 hex chars); got "
          ++ toString bytes.length))
      else .ok bytes

/-- The session store that the configuration selects. -/
inductive Sessions where
  | memory (ttl : UInt64)
  | postgres (ttl : UInt64) (key : Bytes)
  deriving DecidableEq

/-- `session::build`. -/
def buildSessions (env : Environment) (cfg : OAuth2Config) : Except TimError Sessions :=
  if cfg.sessionStore = "memory" then .ok (.memory cfg.sessionTtlSeconds)
  else if cfg.sessionStore = "postgres" then
    match env.var cfg.sessionEncryptionKeyEnv with
    | none => .error (.config ("oauth2.session_encryption_key_env `"
        ++ cfg.sessionEncryptionKeyEnv ++ "` is not set"))
    | some keyHex =>
        match fromHexKey keyHex with
        | .error e => .error e
        | .ok key => .ok (.postgres cfg.sessionTtlSeconds key)
  else .error (.config ("unknown session_store `" ++ cfg.sessionStore ++ "`"))

/-! ### `serve` -/

/-- The CORS layer of `headers::build`. -/
def corsRules (cfg : SecurityConfig) : Option CorsRules :=
  if cfg.corsAllowedOrigins.isEmpty then none
  else if cfg.corsAllowedOrigins.contains "*" then some ⟨true, true, true, false⟩
  else some ⟨false, true, true, true⟩

/-- `build_router`, as far as it can fail. -/
def buildRouter (K : BootCrates) (cfg : SecurityConfig) : Boot Unit :=
  match corsRules cfg with
  | none => .ok ()
  | some rules => orPanic (K.corsUsable rules)

/-- What the server runs with. -/
structure Started (K : BootCrates) where
  app : AppState K.toWebCrates
  sessions : Sessions
  discoveryTtl : UInt64
  addr : SocketAddr

/-- What `serve` has before it connects. -/
structure Prepared (K : BootCrates) where
  config : AppConfig
  signer : JwtSigner K.toCrates
  dbUrl : String

section Serve

variable (K : BootCrates) (env : Environment) (files : Files)

/-- The steps of `serve` up to the database: the configuration, the keys and the URL. -/
def prepare (configPath : Option String) : Boot (Prepared K) := do
  let config ← orStop (some "failed to load config") (AppConfig.load K files configPath)
  orStop (some "config validation") config.validate
  let keyPath := config.jwt.privateKeyPath
  let signer ← orStop (some ("failed to load JWT key from " ++ keyPath))
    (loadFromPem K files keyPath config.jwt.keyId)
  let signer ← match config.jwt.previousKey with
    | none => pure signer
    | some prev =>
        orStop (some ("failed to load previous JWT key from " ++ prev.privateKeyPath))
          (loadPreviousFromPem files signer prev)
  -- Read after the keys are loaded.
  match env.var config.database.urlEnv with
  | some dbUrl => pure { config, signer, dbUrl }
  | none => .error (.step (some ("database URL env var `" ++ config.database.urlEnv
      ++ "` is not set (see tim.yaml database.url_env)")) "environment variable not found")

/-- The steps of `serve` between the database and the port: the registry, the session store, the
gates, the address and the router. -/
def assemble (p : Prepared K) : Boot (Started K) := do
  let config := p.config
  let providers ← providerRegistry K env config.oauth2
  let sessions ← orStop none (buildSessions env config.oauth2)
  let admin ← orStop none (adminGate env config.security)
  let introspectGate ← orStop none (introspectionGate env config.introspection)
  -- Joined to one text: an IPv6 address has to be configured with its brackets.
  let addr ← match parseSocketAddr (config.server.bind ++ ":" ++ toString config.server.port) with
    | some addr => pure addr
    | none => .error (.step none "invalid socket address syntax")
  buildRouter K config.security
  pure {
    app := {
      signer := p.signer
      jwt := { signer := p.signer, cfg := config.jwt.toJwtConfig }
      oauth := {
        providers
        stateMaxAgeSeconds := config.oauth2.stateMaxAgeSeconds
        sessionTtlSeconds := config.oauth2.sessionTtlSeconds
        publicBaseUrl := config.server.publicBaseUrl
        offline := isOffline (env.var "TIM_OFFLINE") }
      admin
      introspectGate
      cookieName := config.jwt.cookieName
      maxRequestBytes := config.server.maxRequestBytes }
    sessions
    discoveryTtl := config.oauth2.discoveryCacheTtlSeconds
    addr }

/-- `serve`, up to the accept loop. -/
def serve (ext : Externals) (configPath : Option String) : Boot (Started K) := do
  let p ← prepare K env files configPath
  answered (ext.connect p.dbUrl p.config.database)
  -- The database is connected before the providers and the gates are checked.
  if p.config.database.autoMigrate then answered ext.runMigrations else pure ()
  let started ← assemble K env p
  answered (ext.listen started.addr)
  pure started

end Serve

end Tim.Boot
