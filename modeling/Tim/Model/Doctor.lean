import Tim.Model.Boot

/-!
# `Tim.Model.Doctor`: the check before the start (`src/doctor.rs`)

`tim doctor` goes over the configuration, the environment and the key files that `serve` would
start with, by tests of its own, and prints a table of passes, warnings and failures. `run` is that
table. Each section of it is one function here, in the order of the source. `rotationLog` at the end
is the one part of it that `serve` repeats in its boot log.
-/

set_option autoImplicit false

namespace Tim.Boot

open Tim.OAuth Tim.Web

namespace Doctor

/-- `Severity`. -/
inductive Severity where
  | pass
  | warn
  | fail
  deriving DecidableEq

/-- `Check`. -/
structure Check where
  severity : Severity
  category : String
  message : String
  deriving DecidableEq

/-- `Check::pass`. -/
def Check.pass (category message : String) : Check := ⟨.pass, category, message⟩

/-- `Check::warn`. -/
def Check.warn (category message : String) : Check := ⟨.warn, category, message⟩

/-- `Check::fail`. -/
def Check.fail (category message : String) : Check := ⟨.fail, category, message⟩

/-- `Report`. -/
abbrev Report := List Check

namespace Report

/-- `Report::counts`. -/
def counts (r : Report) : Nat × Nat × Nat :=
  (r.countP (·.severity = .pass), r.countP (·.severity = .warn), r.countP (·.severity = .fail))

/-- `Report::exit_code`. -/
def exitCode (r : Report) (strict : Bool) : Nat :=
  let (_, warn, fail) := r.counts
  if 0 < fail || (strict && 0 < warn) then 1 else 0

/-- No check has failed. -/
def NoFail (r : Report) : Prop := ∀ c ∈ r, c.severity ≠ .fail

instance (r : Report) : Decidable r.NoFail :=
  inferInstanceAs (Decidable (∀ c ∈ r, c.severity ≠ .fail))

end Report

section Checks

variable (K : BootCrates) (env : Environment) (files : Files)

/-- `Ok(v) if !v.is_empty()` on a variable. -/
def resolved (name : String) : Option String := (env.var name).filter (· ≠ "")

/-- A check that passes when a variable is there and not empty. -/
def checkSet (category name pass fail : String) : Check :=
  match resolved env name with
  | some _ => .pass category pass
  | none => .fail category fail

/-- The load of the configuration. -/
def checkLoaded (configPath : Option String) : Check :=
  .pass "config" (match configPath with
    | some p => "loaded from " ++ p
    | none => "loaded from default resolution (--config / TIM_CONFIG / ./tim.yaml / built-in)")

variable (config : AppConfig)

/-- `config.validate()`. -/
def checkValidate : Check :=
  match config.validate with
  | .error e => .fail "config" ("validate: " ++ e.display)
  | .ok () => .pass "config" "validate: all cross-field checks pass"

/-- The signing key. -/
def checkKey : Check :=
  let keyPath := config.jwt.privateKeyPath
  if !files.exists_ keyPath then
    .fail "jwt.private_key" ("file not present at `" ++ keyPath
      ++ "` — provision an RSA PKCS#8 PEM before boot")
  else
    match loadFromPem K files keyPath config.jwt.keyId with
    | .ok signer => .pass "jwt.private_key"
        ("parsed OK from " ++ keyPath ++ " (kid=" ++ signer.current.kid ++ ")")
    | .error e => .fail "jwt.private_key" ("parse from " ++ keyPath ++ ": " ++ e.display)

/-- `TimeDelta::num_days` of the time from one instant to another, rounded towards zero. -/
def numDays (start stop : DateTime) : Int :=
  ((stop.ns - start.ns).tdiv nanosPerSecond).tdiv 86400

/-- How long a loaded previous key stays in use. -/
def checkRetirement (now : DateTime) (prev : PreviousKeyConfig) (rotationWarnDays : UInt32) :
    Check :=
  let daysLeft := numDays now prev.retiresAt
  if daysLeft < 0 then
    .warn "jwt.previous_key" ("kid=" ++ prev.keyId ++ " retired " ++ toString (-daysLeft)
      ++ " day(s) ago; excluded from JWKS + refused on verification. Remove the block from "
      ++ "tim.yaml to clear this WARN.")
  else if UInt32.ofInt daysLeft ≤ rotationWarnDays then
    .warn "jwt.previous_key" ("kid=" ++ prev.keyId ++ " retires in " ++ toString daysLeft
      ++ " day(s) (retires_at=" ++ K.showDateTime prev.retiresAt
      ++ ") — plan the next rotation.")
  else
    .pass "jwt.previous_key" ("kid=" ++ prev.keyId ++ " loaded; active until "
      ++ K.showDateTime prev.retiresAt ++ " (" ++ toString daysLeft ++ " day(s) left)")

/-- The previous signing key. -/
def checkPreviousKey (now : DateTime) : List Check :=
  match config.jwt.previousKey with
  | none => []
  | some prev =>
      if prev.keyId = config.jwt.keyId then
        [.fail "jwt.previous_key" ("key_id `" ++ prev.keyId ++ "` collides with jwt.key_id — must "
          ++ "differ so JWKS downstream can distinguish the two keys")]
      else if !files.exists_ prev.privateKeyPath then
        [.fail "jwt.previous_key" ("file not present at `" ++ prev.privateKeyPath
          ++ "` — remove `jwt.previous_key` block if the previous key is no longer needed")]
      else
        match loadFromPem K files prev.privateKeyPath prev.keyId with
        | .ok _ => [checkRetirement K now prev config.jwt.rotationWarnDays]
        | .error e => [.fail "jwt.previous_key"
            ("parse from " ++ prev.privateKeyPath ++ ": " ++ e.display)]

/-- The URL of the database. -/
def checkDatabase : Check :=
  let name := config.database.urlEnv
  checkSet env "database.url_env" name ("`" ++ name ++ "` resolved to a non-empty value")
    ("env var `" ++ name ++ "` is unset or empty; startup will refuse")

/-- The admin token. -/
def checkAdmin : Check :=
  let name := config.security.adminTokenEnv
  if config.security.requireAdminToken then
    checkSet env "security.admin_token_env" name
      ("`" ++ name ++ "` resolved (require_admin_token = true)")
      ("`" ++ name ++ "` is unset or empty while require_admin_token = true; startup will refuse")
  else
    .warn "security.admin_token_env" ("require_admin_token = false — privileged endpoints are "
      ++ "UNGATED. Do not deploy to production.")

/-- The session key. The test is its length. -/
def checkSessionKey : List Check :=
  let name := config.oauth2.sessionEncryptionKeyEnv
  if config.oauth2.sessionStore = "postgres" then
    [match env.var name with
      | none => .fail "oauth2.session_encryption_key_env" ("`" ++ name
          ++ "` is unset while session_store = postgres; startup will refuse")
      | some v =>
          if (asBytes v).length = 64 then
            .pass "oauth2.session_encryption_key_env"
              ("`" ++ name ++ "` resolved (64 hex chars, session_store = postgres)")
          else
            .fail "oauth2.session_encryption_key_env" ("`" ++ name ++ "` resolved to "
              ++ toString (asBytes v).length ++ " chars; must be 64 hex chars (32 bytes)")]
  else []

/-- The credentials of one provider. -/
def checkProvider (id : String) (p : ProviderConfig) : List Check :=
  [("client_id_env", p.clientIdEnv), ("client_secret_env", p.clientSecretEnv)].map
    fun (name, var) =>
      let what := "provider[" ++ id ++ "]." ++ name ++ " `" ++ var ++ "` "
      checkSet env "oauth2.providers" var (what ++ "resolved") (what ++ "unset or empty")

/-- The secret of one introspection client. -/
def checkClient (c : IntrospectionClient) : Check :=
  let what := "client[" ++ c.clientId ++ "].client_secret_env `" ++ c.clientSecretEnv ++ "` "
  checkSet env "introspection.clients" c.clientSecretEnv (what ++ "resolved")
    (what ++ "unset or empty")

/-- The introspection clients. Only `required_client_auth` makes them count. -/
def checkIntrospection : List Check :=
  let cfg := config.introspection
  if cfg.requiredClientAuth then
    (if cfg.clients.isEmpty then
      [.fail "introspection.clients"
        "required_client_auth = true but clients is empty — startup will refuse"]
    else []) ++ cfg.clients.map (checkClient env)
  else
    [.warn "introspection" ("required_client_auth = false — POST /introspect is unauthenticated. "
      ++ "RFC 7662 §2.1 recommends client auth on public deployments.")]

/-- The warnings about the security posture. No non-ASCII character lowercases to a letter of
`preload`. -/
def checkPosture : List Check :=
  let bind := config.server.bind
  let loopback := bind = "127.0.0.1" || bind = "::1"
  let preload := containsText (toAsciiLowercase config.security.strictTransportSecurity) "preload"
  (if config.oauth2.sessionStore = "memory" then
    [.warn "oauth2.session_store" ("\"memory\" — sessions do not survive restart or span replicas. "
      ++ "Use \"postgres\" for production multi-replica.")]
  else [])
  ++ (if !config.jwt.audience.validationEnabled then
    [.warn "jwt.audience" "validation_enabled = false — every caller can request any audience."]
  else [])
  ++ (if config.security.corsAllowedOrigins.contains "*" then
    [.warn "security.cors_allowed_origins"
      "contains \"*\" — every unauthenticated read is cross-origin readable."]
  else [])
  ++ (if !loopback && !preload then
    [.warn "security.strict_transport_security" ("bind = " ++ bind ++ " is not loopback AND HSTS "
      ++ "lacks `preload` — first-request MITM leaks bearer tokens. Add preload + submit domain to "
      ++ "https://hstspreload.org.")]
  else [])

end Checks

/-- `doctor::run`. A configuration that does not load ends it. One that does not validate does
not. -/
def run (K : BootCrates) (env : Environment) (files : Files) (now : DateTime)
    (configPath : Option String) : Report :=
  match AppConfig.load K files configPath with
  | .error e => [.fail "config" ("load: " ++ e.display)]
  | .ok config =>
      [checkLoaded configPath, checkValidate config, checkKey K files config]
      ++ checkPreviousKey K files config now
      ++ [checkDatabase env config, checkAdmin env config]
      ++ checkSessionKey env config
      ++ config.oauth2.providers.toList.flatMap (fun (id, p) => checkProvider env id p)
      ++ checkIntrospection env config
      ++ checkPosture config

end Doctor

/-! ### The boot log of `serve` -/

/-- The level of a log line. -/
inductive Level where
  | warn
  | info
  deriving DecidableEq

/-- A log line about the previous key, with its fields. -/
structure LogLine where
  level : Level
  previousKid : String
  retiresAt : DateTime
  daysLeft : Option Int
  message : String
  deriving DecidableEq

/-- What `serve` logs when it has loaded the previous key. The doctor makes the same tests. -/
def rotationLog (now : DateTime) (prev : PreviousKeyConfig) (rotationWarnDays : UInt32) : LogLine :=
  let daysLeft := Doctor.numDays now prev.retiresAt
  if daysLeft < 0 then
    ⟨.warn, prev.keyId, prev.retiresAt, none, "previous JWT signing key retired "
      ++ toString (-daysLeft) ++ " day(s) ago; still loaded but excluded from JWKS + refused on "
      ++ "verification. Remove `jwt.previous_key` from tim.yaml to clear this WARN."⟩
  else if UInt32.ofInt daysLeft ≤ rotationWarnDays then
    ⟨.warn, prev.keyId, prev.retiresAt, some daysLeft, "previous JWT signing key retires in "
      ++ toString daysLeft ++ " day(s). Plan the next rotation or drop `jwt.previous_key` before "
      ++ "it cliffs."⟩
  else
    ⟨.info, prev.keyId, prev.retiresAt, some daysLeft,
      "previous JWT signing key active during rotation grace period"⟩

end Tim.Boot
