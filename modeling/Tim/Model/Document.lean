import Tim.Lib.Document
import Tim.Model.Config

/-!
# `Tim.Model.Document`: how the configuration is read (`src/config/mod.rs`)

The `Deserialize` implementations that `serde` derives for the sections of `AppConfig`, over the
tree that `serde_yaml_ng` makes of a document. All of them deny unknown fields. A field that is
missing has its own default, a section that is missing has the value of its `Default`
implementation: these are two sources, and the second one is derived for `AudienceConfig` and
`AppConfig` and written by hand elsewhere. The defaults of the structures of `Tim.Model.Config` are
those of `Default`.

`YamlCrates` holds what a scalar is read as. The texts of the errors of `serde_yaml_ng` are left
out: a document that is refused gives `none`.
-/

set_option autoImplicit false

namespace Tim.Boot

open Tim.OAuth Tim.Lib

/-! ### The defaults of fields -/

def defaultBind : String := "0.0.0.0"
def defaultPort : UInt16 := 8085
def defaultMaxRequestBytes : Nat := 1048576
def defaultRequestTimeout : UInt64 := 30
def defaultDbUrlEnv : String := "TIM_DATABASE_URL"
def defaultMinConn : UInt32 := 2
def defaultMaxConn : UInt32 := 10
def defaultAutoMigrate : Bool := true
def defaultAcquireTimeout : UInt64 := 30
def defaultIdleTimeout : UInt64 := 600
def defaultMaxLifetime : UInt64 := 1800
def defaultPrivateKeyPath : String := "/opt/tim/keys/jwt-private.pem"
def defaultKid : String := "tim-rs-1"
def defaultIssuer : String := "TIM"
def defaultAudienceDefault : String := "tim-service"
def defaultMaxClaimsBytes : Nat := 32768
def defaultBulkRevokeMax : Nat := 100
def defaultCookieName : String := "jwt"
def defaultRotationWarnDays : UInt32 := 7
def defaultSessionStore : String := "memory"
def defaultDiscoveryTtl : UInt64 := 3600
def defaultSessionTtl : UInt64 := 86400
def defaultSessionSweepInterval : UInt64 := 60
def defaultStateMaxAge : UInt64 := 300
def defaultSessionKeyEnv : String := "TIM_SESSION_ENCRYPTION_KEY"
def defaultScopes : List String := ["openid", "profile", "email"]
def defaultClockSkew : UInt64 := 60
def defaultValidationCacheTtl : UInt64 := 3600
def defaultRequiredClientAuth : Bool := true
def defaultRequireAdminToken : Bool := true
def defaultCsp : String := "default-src 'none'; frame-ancestors 'none'"
def defaultHsts : String := "max-age=63072000; includeSubDomains"
def defaultReferrerPolicy : String := "no-referrer"
def defaultFrameOptions : String := "DENY"
def defaultContentTypeOptions : String := "nosniff"

/-! ### The values of fields -/

/-- What `serde_yaml_ng` and `chrono` make of a scalar. -/
structure YamlCrates extends Scalars where
  parseBool : Scalar → Option Bool
  parseUnsigned : Scalar → Option UInt64
  /-- The scalar is `None`, where an `Option` is expected. -/
  isNull : Scalar → Bool
  /-- The scalar is read as a sequence without elements, where a sequence is expected. -/
  isEmptySeq : Scalar → Bool
  /-- The text of an instant, for `DateTime<Utc>`. -/
  parseInstant : String → Option DateTime

namespace YamlCrates

variable (Y : YamlCrates) {α : Type}

/-- A node of a document. -/
abbrev Tree := Node Y.Scalar

/-- The fields that a struct is read from. -/
abbrev Fields := String → Option Y.Tree

def string (n : Y.Tree) : Option String := n.keyText Y.toScalars

def bool : Y.Tree → Option Bool
  | .scalar s => Y.parseBool s
  | _ => none

def u64 : Y.Tree → Option UInt64
  | .scalar s => Y.parseUnsigned s
  | _ => none

/-- The target has 64 bits. -/
def usize (n : Y.Tree) : Option Nat := (Y.u64 n).map (·.toNat)

def u32 (n : Y.Tree) : Option UInt32 := do
  let v ← Y.u64 n
  if v.toNat < UInt32.size then some v.toUInt32 else none

def u16 (n : Y.Tree) : Option UInt16 := do
  let v ← Y.u64 n
  if v.toNat < UInt16.size then some v.toUInt16 else none

def dateTime (n : Y.Tree) : Option DateTime := do Y.parseInstant (← Y.string n)

/-- `Vec<T>`. -/
def vec (read : Y.Tree → Option α) : Y.Tree → Option (List α)
  | .seq xs => xs.mapM read
  | .scalar s => if Y.isEmptySeq s then some [] else none
  | .map _ => none

/-- `Option<T>`. -/
def option (read : Y.Tree → Option α) : Y.Tree → Option (Option α)
  | .scalar s => if Y.isNull s then some none else (read (.scalar s)).map some
  | n => (read n).map some

/-- `HashMap<String, T>`: the last of two entries with one key counts. -/
def hashMap (read : Y.Tree → Option α) (n : Y.Tree) : Option (Std.ExtTreeMap String α) :=
  (n.dict Y.toScalars read).map fun entries => .ofList entries

/-- A struct that denies unknown fields. -/
def struct (names : List String) (visitMap : Y.Fields → Option α) (n : Y.Tree) : Option α :=
  n.record Y.toScalars names visitMap

variable {Y}

/-- A field without a default. -/
def required (fields : Y.Fields) (name : String) (read : Y.Tree → Option α) : Option α :=
  (fields name).bind read

/-- A field with a default. -/
def field (fields : Y.Fields) (name : String) (read : Y.Tree → Option α) (default : α) :
    Option α :=
  match fields name with
  | none => some default
  | some n => read n

end YamlCrates

open YamlCrates

variable (Y : YamlCrates)

/-! ### The sections -/

def ServerConfig.visitMap (fields : Y.Fields) : Option ServerConfig := do
  let bind ← field fields "bind" Y.string defaultBind
  let port ← field fields "port" Y.u16 defaultPort
  let maxRequestBytes ← field fields "max_request_bytes" Y.usize defaultMaxRequestBytes
  let requestTimeoutSeconds ← field fields "request_timeout_seconds" Y.u64 defaultRequestTimeout
  let publicBaseUrl ← field fields "public_base_url" Y.string ""
  return { bind, port, maxRequestBytes, requestTimeoutSeconds, publicBaseUrl }

def ServerConfig.deserialize : Y.Tree → Option ServerConfig :=
  Y.struct ["bind", "port", "max_request_bytes", "request_timeout_seconds", "public_base_url"]
    (ServerConfig.visitMap Y)

def DatabaseConfig.visitMap (fields : Y.Fields) : Option DatabaseConfig := do
  let urlEnv ← field fields "url_env" Y.string defaultDbUrlEnv
  let minConnections ← field fields "min_connections" Y.u32 defaultMinConn
  let maxConnections ← field fields "max_connections" Y.u32 defaultMaxConn
  let autoMigrate ← field fields "auto_migrate" Y.bool defaultAutoMigrate
  let acquireTimeoutSeconds ← field fields "acquire_timeout_seconds" Y.u64 defaultAcquireTimeout
  let idleTimeoutSeconds ← field fields "idle_timeout_seconds" Y.u64 defaultIdleTimeout
  let maxLifetimeSeconds ← field fields "max_lifetime_seconds" Y.u64 defaultMaxLifetime
  return { urlEnv, minConnections, maxConnections, autoMigrate, acquireTimeoutSeconds,
           idleTimeoutSeconds, maxLifetimeSeconds }

def DatabaseConfig.deserialize : Y.Tree → Option DatabaseConfig :=
  Y.struct ["url_env", "min_connections", "max_connections", "auto_migrate",
      "acquire_timeout_seconds", "idle_timeout_seconds", "max_lifetime_seconds"]
    (DatabaseConfig.visitMap Y)

def PreviousKeyConfig.deserialize : Y.Tree → Option PreviousKeyConfig :=
  Y.struct ["private_key_path", "key_id", "retires_at"] fun fields => do
    let privateKeyPath ← required fields "private_key_path" Y.string
    let keyId ← required fields "key_id" Y.string
    let retiresAt ← required fields "retires_at" Y.dateTime
    return { privateKeyPath, keyId, retiresAt }

/-- `AudienceConfig::default`, which is derived. -/
def AudienceConfig.derivedDefault : AudienceConfig := ⟨false, [], ""⟩

def AudienceConfig.deserialize : Y.Tree → Option AudienceConfig :=
  Y.struct ["validation_enabled", "allowed", "default"] fun fields => do
    let validationEnabled ← field fields "validation_enabled" Y.bool false
    let allowed ← field fields "allowed" (Y.vec Y.string) []
    let default ← field fields "default" Y.string defaultAudienceDefault
    return { validationEnabled, allowed, default }

/-- The `jwt` section, `JwtConfig` in the source. -/
def JwtSection.visitMap (fields : Y.Fields) : Option JwtSection := do
  let privateKeyPath ← field fields "private_key_path" Y.string defaultPrivateKeyPath
  let keyId ← field fields "key_id" Y.string defaultKid
  let issuer ← field fields "issuer" Y.string defaultIssuer
  let audience ←
    field fields "audience" (AudienceConfig.deserialize Y) AudienceConfig.derivedDefault
  let maxClaimsBytes ← field fields "max_claims_bytes" Y.usize defaultMaxClaimsBytes
  let bulkRevokeMax ← field fields "bulk_revoke_max" Y.usize defaultBulkRevokeMax
  let cookieName ← field fields "cookie_name" Y.string defaultCookieName
  let previousKey ←
    field fields "previous_key" (Y.option (PreviousKeyConfig.deserialize Y)) none
  let rotationWarnDays ← field fields "rotation_warn_days" Y.u32 defaultRotationWarnDays
  return { privateKeyPath, keyId, issuer, audience, maxClaimsBytes, bulkRevokeMax, cookieName,
           previousKey, rotationWarnDays }

def JwtSection.deserialize : Y.Tree → Option JwtSection :=
  Y.struct ["private_key_path", "key_id", "issuer", "audience", "max_claims_bytes",
      "bulk_revoke_max", "cookie_name", "previous_key", "rotation_warn_days"]
    (JwtSection.visitMap Y)

/-- `TokenValidationConfig::default`. -/
def TokenValidationConfig.defaults : TokenValidationConfig :=
  ⟨defaultClockSkew, defaultValidationCacheTtl⟩

def TokenValidationConfig.deserialize : Y.Tree → Option TokenValidationConfig :=
  Y.struct ["clock_skew_seconds", "cache_ttl_seconds"] fun fields => do
    let clockSkewSeconds ← field fields "clock_skew_seconds" Y.u64 defaultClockSkew
    let cacheTtlSeconds ← field fields "cache_ttl_seconds" Y.u64 defaultValidationCacheTtl
    return { clockSkewSeconds, cacheTtlSeconds }

def ProviderConfig.visitMap (fields : Y.Fields) : Option ProviderConfig := do
  let name ← required fields "name" Y.string
  let discoveryUrl ← required fields "discovery_url" Y.string
  let clientIdEnv ← required fields "client_id_env" Y.string
  let clientSecretEnv ← required fields "client_secret_env" Y.string
  let scopes ← field fields "scopes" (Y.vec Y.string) defaultScopes
  let claimMappings ← field fields "claim_mappings" (Y.hashMap Y.string) ∅
  let tokenValidation ← field fields "token_validation" (TokenValidationConfig.deserialize Y)
    TokenValidationConfig.defaults
  let allowedRedirectUris ← field fields "allowed_redirect_uris" (Y.vec Y.string) []
  let allowHttpDiscovery ← field fields "allow_http_discovery" Y.bool false
  let jwksUri ← field fields "jwks_uri" (Y.option Y.string) none
  return { name, discoveryUrl, clientIdEnv, clientSecretEnv, scopes, claimMappings,
           tokenValidation, allowedRedirectUris, allowHttpDiscovery, jwksUri }

def ProviderConfig.deserialize : Y.Tree → Option ProviderConfig :=
  Y.struct ["name", "discovery_url", "client_id_env", "client_secret_env", "scopes",
      "claim_mappings", "token_validation", "allowed_redirect_uris", "allow_http_discovery",
      "jwks_uri"]
    (ProviderConfig.visitMap Y)

def OAuth2Config.visitMap (fields : Y.Fields) : Option OAuth2Config := do
  let sessionStore ← field fields "session_store" Y.string defaultSessionStore
  let discoveryCacheTtlSeconds ←
    field fields "discovery_cache_ttl_seconds" Y.u64 defaultDiscoveryTtl
  let sessionTtlSeconds ← field fields "session_ttl_seconds" Y.u64 defaultSessionTtl
  let sessionSweepIntervalSeconds ←
    field fields "session_sweep_interval_seconds" Y.u64 defaultSessionSweepInterval
  let stateMaxAgeSeconds ← field fields "state_max_age_seconds" Y.u64 defaultStateMaxAge
  let sessionEncryptionKeyEnv ←
    field fields "session_encryption_key_env" Y.string defaultSessionKeyEnv
  let providers ← field fields "providers" (Y.hashMap (ProviderConfig.deserialize Y)) ∅
  return { sessionStore, discoveryCacheTtlSeconds, sessionTtlSeconds,
           sessionSweepIntervalSeconds, stateMaxAgeSeconds, sessionEncryptionKeyEnv, providers }

def OAuth2Config.deserialize : Y.Tree → Option OAuth2Config :=
  Y.struct ["session_store", "discovery_cache_ttl_seconds", "session_ttl_seconds",
      "session_sweep_interval_seconds", "state_max_age_seconds", "session_encryption_key_env",
      "providers"]
    (OAuth2Config.visitMap Y)

def IntrospectionClient.deserialize : Y.Tree → Option IntrospectionClient :=
  Y.struct ["client_id", "client_secret_env"] fun fields => do
    let clientId ← required fields "client_id" Y.string
    let clientSecretEnv ← required fields "client_secret_env" Y.string
    return { clientId, clientSecretEnv }

def IntrospectionConfig.deserialize : Y.Tree → Option IntrospectionConfig :=
  Y.struct ["required_client_auth", "gate_validation_endpoints", "gate_jvm_compat_endpoints",
      "clients"] fun fields => do
    let requiredClientAuth ←
      field fields "required_client_auth" Y.bool defaultRequiredClientAuth
    let gateValidationEndpoints ← field fields "gate_validation_endpoints" Y.bool false
    let gateJvmCompatEndpoints ← field fields "gate_jvm_compat_endpoints" Y.bool false
    let clients ← field fields "clients" (Y.vec (IntrospectionClient.deserialize Y)) []
    return { requiredClientAuth, gateValidationEndpoints, gateJvmCompatEndpoints, clients }

def SecurityConfig.deserialize : Y.Tree → Option SecurityConfig :=
  Y.struct ["admin_token_env", "require_admin_token", "cors_allowed_origins",
      "content_security_policy", "strict_transport_security", "referrer_policy",
      "x_frame_options", "x_content_type_options"] fun fields => do
    let adminTokenEnv ← field fields "admin_token_env" Y.string ""
    let requireAdminToken ← field fields "require_admin_token" Y.bool defaultRequireAdminToken
    let corsAllowedOrigins ← field fields "cors_allowed_origins" (Y.vec Y.string) []
    let contentSecurityPolicy ← field fields "content_security_policy" Y.string defaultCsp
    let strictTransportSecurity ← field fields "strict_transport_security" Y.string defaultHsts
    let referrerPolicy ← field fields "referrer_policy" Y.string defaultReferrerPolicy
    let xFrameOptions ← field fields "x_frame_options" Y.string defaultFrameOptions
    let xContentTypeOptions ←
      field fields "x_content_type_options" Y.string defaultContentTypeOptions
    return { adminTokenEnv, requireAdminToken, corsAllowedOrigins, contentSecurityPolicy,
             strictTransportSecurity, referrerPolicy, xFrameOptions, xContentTypeOptions }

def AppConfig.visitMap (fields : Y.Fields) : Option AppConfig := do
  let server ← field fields "server" (ServerConfig.deserialize Y) {}
  let database ← field fields "database" (DatabaseConfig.deserialize Y) {}
  let jwt ← field fields "jwt" (JwtSection.deserialize Y) {}
  let oauth2 ← field fields "oauth2" (OAuth2Config.deserialize Y) {}
  let security ← field fields "security" (SecurityConfig.deserialize Y) {}
  let introspection ← field fields "introspection" (IntrospectionConfig.deserialize Y) {}
  return { server, database, jwt, oauth2, security, introspection }

def AppConfig.deserialize : Y.Tree → Option AppConfig :=
  Y.struct ["server", "database", "jwt", "oauth2", "security", "introspection"]
    (AppConfig.visitMap Y)

end Tim.Boot
