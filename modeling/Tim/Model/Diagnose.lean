import Tim.Model.Doctor

/-!
# `Tim.Model.Diagnose`: the boot-time diagnostics of the configuration (`src/config/mod.rs`)

`AppConfig::diagnose`, as the lines that it logs, and `bind_is_loopback`, with the parser of
`std::net` behind `str::parse::<IpAddr>`. A warning has its text and its fields. Of an informational
line only the text is kept: its fields are those of the section it is about, and nothing reads
them.
-/

set_option autoImplicit false

namespace Tim.Net

open Tim.Lib

/-- `std::net::IpAddr`, by its octets or groups. -/
inductive IpAddr where
  | v4 (octets : List Nat)
  | v6 (groups : List Nat)
  deriving DecidableEq

/-- `read_ip_addr`. -/
def readIpAddr : Reader Char IpAddr :=
  IpAddr.v4 <$> readIpv4Addr <|> IpAddr.v6 <$> readIpv6Addr

/-- `str::parse::<IpAddr>`. -/
def parseIpAddr (s : String) : Option IpAddr := readIpAddr.parse s.toList

/-- The octets of an IPv4 address that two groups stand for. -/
def embeddedOctets (ab cd : Nat) : List Nat := [ab / 256, ab % 256, cd / 256, cd % 256]

/-- `Ipv6Addr::to_ipv4_mapped`. -/
def toIpv4Mapped : List Nat → Option (List Nat)
  | [0, 0, 0, 0, 0, 0xffff, ab, cd] => some (embeddedOctets ab cd)
  | _ => none

/-- `Ipv6Addr::to_ipv4`: a mapped or a compatible address. -/
def toIpv4 : List Nat → Option (List Nat)
  | [0, 0, 0, 0, 0, 0, ab, cd] => some (embeddedOctets ab cd)
  | [0, 0, 0, 0, 0, 0xffff, ab, cd] => some (embeddedOctets ab cd)
  | _ => none

/-- `octets()[0] == 127`. -/
def inLoopbackNet (octets : List Nat) : Bool := octets.head? == some 127

/-- The `match` of `bind_is_loopback`. -/
def IpAddr.isLoopback : IpAddr → Bool
  | .v4 octets => inLoopbackNet octets
  | .v6 groups =>
      groups == [0, 0, 0, 0, 0, 0, 0, 1]
        || (toIpv4Mapped groups).any inLoopbackNet
        || (toIpv4 groups).any fun octets => octets ≠ [0, 0, 0, 0] && inLoopbackNet octets

/-- `str::strip_suffix` of one character. -/
def stripLast (s : String) (c : Char) : Option String :=
  if s.toList.getLast? = some c then some (String.ofList s.toList.dropLast) else none

/-- `bind_is_loopback`. -/
def bindIsLoopback (bind : String) : Bool :=
  let raw := trim bind
  eqIgnoreAsciiCase raw "localhost"
    || (parseIpAddr (((stripHead raw "[").bind fun s => stripLast s ']').getD raw)).any
      IpAddr.isLoopback

end Tim.Net

namespace Tim.Boot

open Tim.OAuth Tim.Net

/-- A line that `diagnose` logs, with the fields of a warning. -/
structure Notice where
  level : Level
  message : String
  fields : List (String × String) := []
  deriving DecidableEq

namespace Notice

/-- `info!`. -/
def info (message : String) : Notice := { level := .info, message }

/-- `warn!`. -/
def warn (message : String) (fields : List (String × String) := []) : Notice :=
  { level := .warn, message, fields }

/-- A line that is logged on a condition. -/
def when (line : Notice) (cond : Bool) : List Notice := if cond then [line] else []

end Notice

namespace AppConfig

open Notice

/-- The warning about a provider that no login gets past. -/
def unreachable (id : String) : Notice :=
  warn ("provider has neither allowed_redirect_uris NOR server.public_base_url. "
    ++ "Every login attempt will 400.") [("provider", id)]

/-- The lines about one provider. -/
def diagnoseProvider (publicBaseUrl : String) (id : String) (p : ProviderConfig) :
    List Notice :=
  info "provider"
    :: (unreachable id).when (p.allowedRedirectUris.isEmpty && publicBaseUrl.isEmpty)

/-- The lines about CORS. A wildcard is warned about wherever it stands in the list. -/
def diagnoseCors (origins : List String) : List Notice :=
  if origins.isEmpty then
    [info ("security.cors_allowed_origins empty — no CORS layer emitted. Cross-origin browsers "
      ++ "cannot call TIM directly.")]
  else
    (warn ("security.cors_allowed_origins contains \"*\" — wildcard CORS exposes every "
      ++ "unauthenticated read cross-origin. Set an explicit list for production. RFC 6265 blocks "
      ++ "cookie use with wildcard so admin auth is unaffected, but public endpoints are readable "
      ++ "from any browser.")).when (origins.contains "*")

/-- `to_lowercase().contains("preload")`. No non-ASCII character lowercases to a letter of
`preload`. -/
def hstsHasPreload (cfg : SecurityConfig) : Bool :=
  containsText (toAsciiLowercase cfg.strictTransportSecurity) "preload"

variable (cfg : AppConfig)

/-- The lines about the sections `server`, `database` and `jwt`. -/
def diagnoseTokens : List Notice :=
  info "server"
  :: (warn ("server.public_base_url is empty on a non-loopback bind — OAuth2 callbacks that "
      ++ "omit ?redirect_uri= will fail. See docs/book/src/security-hardening.md.")).when
        (cfg.server.publicBaseUrl.isEmpty && !bindIsLoopback cfg.server.bind)
  ++ [info "database", info "jwt"]
  ++ (warn ("jwt.audience.validation_enabled = false. Any caller can generate a token for any "
      ++ "audience. Set true + populate jwt.audience.allowed for prod.")).when
        (!cfg.jwt.audience.validationEnabled)
  ++ (warn ("jwt.issuer = \"localhost\" — downstream introspection will refuse unless it "
      ++ "expects this issuer.")).when (cfg.jwt.issuer == "localhost")
  ++ (info "jwt.previous_key (rotation grace period)").when cfg.jwt.previousKey.isSome

/-- The warning about the first request of a browser. -/
def firstRequestExposed : Notice :=
  warn ("HSTS header lacks `preload` and bind is not loopback — first-request MITM against "
    ++ "TIM leaks bearer tokens in the clear. Add `preload` to "
    ++ "security.strict_transport_security AND submit the deployment domain to "
    ++ "https://hstspreload.org.")
    [("bind", cfg.server.bind), ("hsts", cfg.security.strictTransportSecurity)]

/-- The lines about the section `security`. -/
def diagnoseSecurity : List Notice :=
  info "security"
  :: (warn ("security.admin_token_env is unset OR require_admin_token = false — "
      ++ "/jwt/custom/\x7bgenerate,revoke,revoke/bulk,extend\x7d and legacy blacklist endpoints "
      ++ "are UNGATED. Do not deploy to production.")).when
        (!cfg.security.requireAdminToken || cfg.security.adminTokenEnv.isEmpty)
  ++ diagnoseCors cfg.security.corsAllowedOrigins
  ++ (warn "security.content_security_policy = \"\" — CSP header not emitted.").when
        cfg.security.contentSecurityPolicy.isEmpty
  ++ (firstRequestExposed cfg).when
        (!bindIsLoopback cfg.server.bind && !hstsHasPreload cfg.security)

/-- The lines about the sections `introspection` and `oauth2`, and about the providers. -/
def diagnoseOAuth : List Notice :=
  info "introspection"
  :: (warn ("introspection.required_client_auth = false — POST /introspect is unauthenticated. "
      ++ "RFC 7662 §2.1 recommends client auth on public deployments; enable it and populate "
      ++ "introspection.clients.")).when (!cfg.introspection.requiredClientAuth)
  ++ [info "oauth2"]
  ++ (warn ("oauth2.session_store = \"memory\" — sessions do not survive restart or span "
      ++ "replicas. Set \"postgres\" for production multi-replica.")).when
        (cfg.oauth2.sessionStore == "memory")
  ++ (warn ("oauth2.session_sweep_interval_seconds = 0 — sweeper disabled. Expired sessions + "
      ++ "stale oauth_state rows will not be reaped.")).when
        (cfg.oauth2.sessionSweepIntervalSeconds == 0)
  ++ cfg.oauth2.providers.toList.flatMap fun e =>
        diagnoseProvider cfg.server.publicBaseUrl e.1 e.2

/-- `AppConfig::diagnose`, as the lines it logs. -/
def diagnose : List Notice := diagnoseTokens cfg ++ diagnoseSecurity cfg ++ diagnoseOAuth cfg

/-- The diagnosis has no warning. -/
def Quiet : Prop := ∀ line ∈ diagnose cfg, line.level ≠ .warn

end AppConfig

end Tim.Boot
