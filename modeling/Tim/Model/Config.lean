import Tim.Model.Router

/-!
# `Tim.Model.Config`: the configuration (`src/config/mod.rs`)

`AppConfig` with its defaults, `load` and `validate`. `load` reads a YAML file, or falls back on
the built-in configuration when there is none. What it reads from are the files and the
environment of the process: both are values here, so that two programs can be run on the same
ones.

`BootCrates` adds to `WebCrates` what the programs of the binary call of other crates: the YAML
parser, and the constructors of `moka`, `reqwest` and `tower-http` that panic on some arguments.
-/

set_option autoImplicit false

namespace Tim.Boot

open Tim.OAuth Tim.Web

structure ServerConfig where
  bind : String := "0.0.0.0"
  port : UInt16 := 8085
  maxRequestBytes : Nat := 1048576
  requestTimeoutSeconds : UInt64 := 30
  publicBaseUrl : String := ""

structure DatabaseConfig where
  urlEnv : String := "TIM_DATABASE_URL"
  minConnections : UInt32 := 2
  maxConnections : UInt32 := 10
  autoMigrate : Bool := true
  acquireTimeoutSeconds : UInt64 := 30
  idleTimeoutSeconds : UInt64 := 600
  maxLifetimeSeconds : UInt64 := 1800

structure PreviousKeyConfig where
  privateKeyPath : String
  keyId : String
  retiresAt : DateTime

/-- The `jwt` section. `toJwtConfig` is the part that the token service reads. `Default for
AudienceConfig` is derived, so its default audience is empty. -/
structure JwtSection extends JwtConfig where
  privateKeyPath : String := "/opt/tim/keys/jwt-private.pem"
  keyId : String := "tim-rs-1"
  issuer := "TIM"
  audience := ⟨false, [], ""⟩
  maxClaimsBytes := 32768
  bulkRevokeMax := 100
  cookieName : String := "jwt"
  previousKey : Option PreviousKeyConfig := none
  rotationWarnDays : UInt32 := 7

structure OAuth2Config where
  sessionStore : String := "memory"
  discoveryCacheTtlSeconds : UInt64 := 3600
  sessionTtlSeconds : UInt64 := 86400
  sessionSweepIntervalSeconds : UInt64 := 60
  stateMaxAgeSeconds : UInt64 := 300
  sessionEncryptionKeyEnv : String := "TIM_SESSION_ENCRYPTION_KEY"
  providers : Std.ExtTreeMap String ProviderConfig := ∅

structure IntrospectionClient where
  clientId : String
  clientSecretEnv : String

structure IntrospectionConfig where
  requiredClientAuth : Bool := true
  gateValidationEndpoints : Bool := false
  gateJvmCompatEndpoints : Bool := false
  clients : List IntrospectionClient := []

structure SecurityConfig where
  adminTokenEnv : String := ""
  requireAdminToken : Bool := true
  corsAllowedOrigins : List String := []
  contentSecurityPolicy : String := "default-src 'none'; frame-ancestors 'none'"
  strictTransportSecurity : String := "max-age=63072000; includeSubDomains"
  referrerPolicy : String := "no-referrer"
  xFrameOptions : String := "DENY"
  xContentTypeOptions : String := "nosniff"

structure AppConfig where
  server : ServerConfig := {}
  database : DatabaseConfig := {}
  jwt : JwtSection := {}
  oauth2 : OAuth2Config := {}
  security : SecurityConfig := {}
  introspection : IntrospectionConfig := {}

/-! ### What a process reads -/

/-- The environment of a process. No variable has an empty name. -/
structure Environment where
  /-- `std::env::var`, with `none` for its errors. -/
  var : String → Option String
  var_empty : var "" = none

/-- The files that a process sees. -/
structure Files where
  /-- `Path::exists`. -/
  exists_ : String → Bool
  /-- `std::fs::read_to_string`, with the text of its error. -/
  readToString : String → Except String String

/-- What `headers::build` puts into a `CorsLayer`. -/
structure CorsRules where
  anyOrigin : Bool
  anyMethods : Bool
  anyHeaders : Bool
  allowCredentials : Bool

/-- The third-party functions that the programs of the binary call. -/
structure BootCrates extends WebCrates where
  /-- `serde_yaml_ng::from_str::<AppConfig>`. -/
  parseYaml : String → Except String AppConfig
  /-- The `Display` text of an instant. -/
  showDateTime : DateTime → String
  /-- `moka::future::CacheBuilder::build` with this time-to-live in seconds returns. It panics
  above 1000 years. -/
  cacheBuilds : Nat → Bool
  /-- `reqwest::ClientBuilder::build` with a timeout succeeds. -/
  clientBuilds : Bool
  /-- The layer with these rules can be added to a router. `tower-http` panics when a wildcard
  stands with credentials. -/
  corsUsable : CorsRules → Bool

/-! ### `AppConfig` -/

namespace AppConfig

variable (cfg : AppConfig)

/-- The clients of the introspection gate that `validate` refuses. -/
def validateClients : List IntrospectionClient → Except TimError Unit
  | [] => .ok ()
  | c :: rest =>
      if (trim c.clientId).isEmpty then
        .error (.config "introspection.clients[*].client_id must be non-empty")
      else if (trim c.clientSecretEnv).isEmpty then
        .error (.config ("introspection.clients[" ++ c.clientId
          ++ "].client_secret_env must be non-empty"))
      else validateClients rest

/-- The pins of the providers that `validate` refuses. -/
def validatePins : List (String × ProviderConfig) → Except TimError Unit
  | [] => .ok ()
  | (id, provider) :: rest =>
      match provider.jwksUri with
      | none => validatePins rest
      | some pin =>
          if (trim pin).isEmpty then
            .error (.config ("oauth2.providers[" ++ id ++ "].jwks_uri must be non-empty when set "
              ++ "(omit the field entirely to disable pinning)"))
          else validatePins rest

/-- The predecessor key that `validate` refuses. -/
def validatePrevious (keyId : String) : Option PreviousKeyConfig → Except TimError Unit
  | none => .ok ()
  | some prev =>
      if (trim prev.keyId).isEmpty then
        .error (.config "jwt.previous_key.key_id must be non-empty")
      else if prev.keyId = keyId then
        .error (.config ("jwt.previous_key.key_id (`" ++ prev.keyId
          ++ "`) must differ from jwt.key_id so downstream JWKS verifiers can distinguish the "
          ++ "two keys"))
      else .ok ()

/-- `AppConfig::validate`. -/
def validate : Except TimError Unit :=
  if cfg.oauth2.sessionStore ≠ "memory" ∧ cfg.oauth2.sessionStore ≠ "postgres" then
    .error (.config ("oauth2.session_store must be \"memory\" or \"postgres\", got \""
      ++ cfg.oauth2.sessionStore ++ "\""))
  else if cfg.oauth2.sessionStore = "postgres" ∧ cfg.oauth2.sessionEncryptionKeyEnv.isEmpty then
    .error (.config
      "oauth2.session_store=postgres requires oauth2.session_encryption_key_env")
  else if cfg.introspection.requiredClientAuth ∧ cfg.introspection.clients.isEmpty then
    .error (.config ("introspection.required_client_auth=true requires at least one entry in "
      ++ "introspection.clients"))
  else do
    validateClients cfg.introspection.clients
    validatePins cfg.oauth2.providers.toList
    validatePrevious cfg.jwt.keyId cfg.jwt.previousKey

/-- `AppConfig::from_path`. -/
def fromPath (K : BootCrates) (files : Files) (path : String) : Except TimError AppConfig :=
  match files.readToString path with
  | .error e => .error (.config ("read " ++ path ++ ": " ++ e))
  | .ok raw =>
      match K.parseYaml raw with
      | .error e => .error (.config ("parse " ++ path ++ ": " ++ e))
      | .ok cfg =>
          match cfg.validate with
          | .error e => .error e
          | .ok () => .ok cfg

/-- `AppConfig::load`: the explicit path, `tim.yaml` or `tim.yml` in the working directory, or
the built-in defaults. -/
def load (K : BootCrates) (files : Files) (explicit : Option String) :
    Except TimError AppConfig :=
  match explicit with
  | some path => fromPath K files path
  | none =>
      match ["tim.yaml", "tim.yml"].find? files.exists_ with
      | some path => fromPath K files path
      | none => .ok {}

end AppConfig

end Tim.Boot
