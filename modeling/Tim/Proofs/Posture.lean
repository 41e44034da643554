import Tim.Proofs.AdminGate
import Tim.Proofs.Diagnose
import Tim.Proofs.Hex
import Tim.Proofs.Verdict

/-!
# `Tim.Proofs.Posture`: what the boot diagnostics promise about the server that starts

`diagnose` reads the configuration, and the server is what `serve` makes of it. `Assembled` says
how the two hang together. `first_request_warned` and `login_warned` compare two of the warnings
with the server itself: the address that it is bound to, and the requests that it answers.
`quiet_hardened` is about a boot log without any warning.
-/

set_option autoImplicit false

namespace Tim.Boot

open Tim.Lib Tim.OAuth Tim.Web Tim.Net

variable {K : BootCrates} {env : Environment} {files : Files} {ext : Externals}
  {configPath : Option String} {cfg : AppConfig} {started : Started K}

/-! ### The server and its configuration -/

/-- What a server has been built from. -/
structure Assembled (K : BootCrates) (env : Environment) (cfg : AppConfig) (started : Started K) :
    Prop where
  providers : providerRegistry K env cfg.oauth2 = .ok started.app.oauth.providers
  sessions : buildSessions env cfg.oauth2 = .ok started.sessions
  admin : adminGate env cfg.security = .ok started.app.admin
  introspect : introspectionGate env cfg.introspection = .ok started.app.introspectGate
  addr : parseSocketAddr (cfg.server.bind ++ ":" ++ toString cfg.server.port) = some started.addr
  jwt : started.app.jwt.cfg = cfg.jwt.toJwtConfig
  publicBaseUrl : started.app.oauth.publicBaseUrl = cfg.server.publicBaseUrl

/-- What `assemble` returns is made of the configuration and of the environment. -/
theorem assembled_of_ok {p : Prepared K} (h : assemble K env p = .ok started) :
    Assembled K env p.config started := by
  simp only [assemble, bind_eq_ok, orStop_eq_ok] at h
  obtain ⟨providers, hproviders, sessions, hsessions, admin, hadmin, gate, hgate, hrest⟩ := h
  split at hrest
  · rename_i addr haddr
    simp only [bind_eq_ok] at hrest
    obtain ⟨a, ha, -, -, hstarted⟩ := hrest
    cases ha
    cases hstarted
    exact ⟨hproviders, hsessions, hadmin, hgate, haddr, rfl, rfl⟩
  · obtain ⟨_, h, -⟩ := bind_eq_ok.mp hrest
    cases h

/-- The prepared configuration is the loaded one. -/
theorem prepare_config {p : Prepared K} (h : prepare K env files configPath = .ok p)
    (hload : AppConfig.load K files configPath = .ok cfg) : p.config = cfg := by
  simp only [prepare, bind_eq_ok, orStop_eq_ok] at h
  obtain ⟨config, hconfig, _, -, signer, -, hrest⟩ := h
  rw [hload] at hconfig
  cases hconfig
  -- The keys and the URL come after the configuration, which stays as it is.
  split at hrest
  · obtain ⟨_, -, hrest⟩ := bind_eq_ok.mp hrest
    split at hrest
    · cases hrest
      rfl
    · cases hrest
  · obtain ⟨_, -, hrest⟩ := bind_eq_ok.mp hrest
    split at hrest
    · cases hrest
      rfl
    · cases hrest

/-- The server that starts has been built from the configuration that was loaded. -/
theorem assembled_of_serve (hload : AppConfig.load K files configPath = .ok cfg)
    (h : serve K env files ext configPath = .ok started) : Assembled K env cfg started := by
  simp only [serve, bind_eq_ok] at h
  obtain ⟨p, hp, _, -, hrest⟩ := h
  have hassemble : assemble K env p = .ok started := by
    cases hmigrate : p.config.database.autoMigrate with
    | true =>
        simp only [hmigrate, if_true, bind_eq_ok] at hrest
        obtain ⟨_, -, s, hs, _, -, hstarted⟩ := hrest
        cases hstarted
        exact hs
    | false =>
        simp only [hmigrate, Bool.false_eq_true, if_false, bind_eq_ok] at hrest
        obtain ⟨s, hs, _, -, hstarted⟩ := hrest
        cases hstarted
        exact hs
  rw [← prepare_config hp hload]
  exact assembled_of_ok hassemble

/-! ### Lines of the log -/

open AppConfig

/-- A line that is logged under a condition. -/
theorem mem_when {x line : Notice} {cond : Bool} :
    x ∈ line.when cond ↔ cond = true ∧ x = line := by
  cases cond with
  | true => simp [Notice.when]
  | false => simp [Notice.when]

/-- What holds of a line that is logged under a condition. -/
theorem forall_when {P : Notice → Prop} {line : Notice} {cond : Bool} :
    (∀ x ∈ line.when cond, P x) ↔ (cond = true → P line) := by
  constructor
  · intro h hcond
    exact h line (mem_when.mpr ⟨hcond, rfl⟩)
  · intro h x hx
    obtain ⟨hcond, rfl⟩ := mem_when.mp hx
    exact h hcond

/-- A warning with fields is one of two. -/
theorem mem_diagnose {x : Notice} (hfields : x.fields ≠ []) :
    x ∈ diagnose cfg ↔ x ∈ (firstRequestExposed cfg).when
        (!bindIsLoopback cfg.server.bind && !hstsHasPreload cfg.security)
      ∨ ∃ e ∈ cfg.oauth2.providers.toList, x ∈ (unreachable e.1).when
        (e.2.allowedRedirectUris.isEmpty && cfg.server.publicBaseUrl.isEmpty) := by
  have hbare : ∀ line : Notice, line.fields = [] → x ≠ line := by
    rintro line hline rfl
    exact hfields hline
  have hinfo : ∀ text, x ≠ Notice.info text := fun text => hbare _ rfl
  have hwarn : ∀ text, x ≠ Notice.warn text := fun text => hbare _ rfl
  have hcors : x ∉ diagnoseCors cfg.security.corsAllowedOrigins := by
    unfold diagnoseCors
    split <;> simp [mem_when, hinfo, hwarn]
  simp [diagnose, diagnoseTokens, diagnoseSecurity, diagnoseOAuth, diagnoseProvider, mem_when,
    hinfo, hwarn, hcors, -String.reduceAppend]

/-- The two warnings with fields have different ones. -/
theorem exposed_ne_unreachable {id : String} : firstRequestExposed cfg ≠ unreachable id := by
  intro heq
  have hlength := congrArg (fun line : Notice => line.fields.length) heq
  simp [firstRequestExposed, unreachable, Notice.warn] at hlength

/-- The warning about the first request is logged exactly when the server listens on an address
that is not loopback, or on one with a scope id, and its HSTS header lacks `preload`. -/
theorem first_request_warned (hload : AppConfig.load K files configPath = .ok cfg)
    (hserve : serve K env files ext configPath = .ok started) :
    firstRequestExposed cfg ∈ diagnose cfg
      ↔ (started.addr.ip.isLoopback = false ∨ '%' ∈ cfg.server.bind.toList)
        ∧ hstsHasPreload cfg.security = false := by
  have hloopback := bindIsLoopback_eq (assembled_of_serve hload hserve).addr
  rw [mem_diagnose (by simp [firstRequestExposed, Notice.warn])]
  simp only [mem_when, exposed_ne_unreachable, and_false, exists_false, or_false, and_true,
    hloopback]
  cases started.addr.ip.isLoopback <;> simp

/-! ### The providers -/

/-- A traversal that ends well has one result for each entry. -/
theorem forall₂_mapM {ε α β : Type} {f : α → Except ε β} {l : List α} {ys : List β}
    (h : l.mapM f = .ok ys) : List.Forall₂ (fun x y => f x = .ok y) l ys := by
  induction l generalizing ys with
  | nil =>
      cases h
      exact .nil
  | cons x l ih =>
      simp only [List.mapM_cons, bind_eq_ok] at h
      obtain ⟨y, hy, rest, hrest, heq⟩ := h
      cases heq
      exact .cons hy (ih hrest)

/-- A resolved provider has the configuration that it was made of. -/
theorem resolveProvider_config {id : String} {pc : ProviderConfig} {p : Provider}
    (h : resolveProvider env id pc = .ok p) : p.config = pc := by
  unfold resolveProvider at h
  split at h
  · cases h
  · split at h
    · cases h
    · split at h
      · cases h
      · cases h
        rfl

section Rounds

variable {l : List (String × ProviderConfig)} {ys : List (String × Provider)}

/-- One round of the registry for each provider. -/
def Rounds (l : List (String × ProviderConfig)) (ys : List (String × Provider)) : Prop :=
  List.Forall₂ (fun x y => y.1 = x.1 ∧ y.2.config = x.2) l ys

/-- The loop over the providers keeps their names and their order. -/
theorem Rounds.keys (h : Rounds l ys) : ys.map Prod.fst = l.map Prod.fst := by
  induction h with
  | nil => rfl
  | cons hround _ ih => simp [hround.1, ih]

/-- Every configured provider is among the resolved ones. -/
theorem Rounds.mem (h : Rounds l ys) {id : String} {pc : ProviderConfig} (hmem : (id, pc) ∈ l) :
    ∃ p, (id, p) ∈ ys ∧ p.config = pc := by
  induction h with
  | nil => cases hmem
  | @cons x y _ _ hround _ ih =>
      rcases List.mem_cons.mp hmem with heq | hmem
      · subst heq
        have hkey : y.1 = id := hround.1
        refine ⟨y.2, ?_, hround.2⟩
        rw [← hkey]
        exact List.mem_cons_self
      · obtain ⟨p, hp, hconfig⟩ := ih hmem
        exact ⟨p, List.mem_cons_of_mem _ hp, hconfig⟩

end Rounds

/-- The registry has the providers of the configuration, under their ids. -/
theorem Assembled.provider (hserver : Assembled K env cfg started) {id : String}
    {pc : ProviderConfig} (hid : cfg.oauth2.providers[id]? = some pc) :
    ∃ p, started.app.oauth.providers[id]? = some p ∧ p.config = pc := by
  have h := hserver.providers
  simp only [providerRegistry, bind_eq_ok, orStop_eq_ok] at h
  obtain ⟨ys, hys, -, -, -, -, hregistry⟩ := h
  have hrounds : Rounds cfg.oauth2.providers.toList ys := by
    refine (forall₂_mapM hys).imp fun x y hround => ?_
    cases hresolve : resolveProvider env x.1 x.2 with
    | error e => simp [hresolve, Except.map] at hround
    | ok p =>
        simp only [hresolve, Except.map, Except.ok.injEq] at hround
        subst hround
        exact ⟨rfl, resolveProvider_config hresolve⟩
  have hdistinct : ys.Pairwise fun a b => ¬ compare a.1 b.1 = .eq := by
    have hconfig := Std.ExtTreeMap.distinct_keys_toList (t := cfg.oauth2.providers)
    have hsame := hrounds.keys
    rw [← List.pairwise_map (f := Prod.fst) (R := fun a b => ¬ compare a b = .eq)] at hconfig ⊢
    rwa [hsame]
  obtain ⟨p, hp, hconfig⟩ := hrounds.mem (Std.ExtTreeMap.mem_toList_iff_getElem?_eq_some.mpr hid)
  rw [← Except.ok.inj hregistry]
  exact ⟨p, Std.ExtTreeMap.getElem?_ofList_of_mem (by simp) hdistinct hp, hconfig⟩

/-! ### The warning about a provider -/

/-- The warning is logged for the providers that have nowhere to send a user back to. -/
theorem unreachable_logged {id : String} {pc : ProviderConfig}
    (hid : cfg.oauth2.providers[id]? = some pc) :
    unreachable id ∈ diagnose cfg
      ↔ pc.allowedRedirectUris.isEmpty = true ∧ cfg.server.publicBaseUrl.isEmpty = true := by
  have hmem := Std.ExtTreeMap.mem_toList_iff_getElem?_eq_some.mpr hid
  have hsame : ∀ id', unreachable id = unreachable id' → id = id' := by
    intro id' heq
    simpa [unreachable, Notice.warn] using congrArg Notice.fields heq
  rw [mem_diagnose (by simp [unreachable, Notice.warn])]
  simp only [mem_when, exposed_ne_unreachable.symm, and_false, false_or, Bool.and_eq_true]
  constructor
  · rintro ⟨⟨id', pc'⟩, he, hempty, heq⟩
    have hid' := Std.ExtTreeMap.mem_toList_iff_getElem?_eq_some.mp he
    rw [← hsame id' heq, hid] at hid'
    cases hid'
    exact hempty
  · intro hempty
    exact ⟨(id, pc), hmem, hempty, rfl⟩

/-- A handler that stops with a 400 has that status on the reply. -/
theorem serve_badRequest {app : AppState K.toWebCrates} {req : HttpRequest} {e : Endpoint}
    {halt : Halt} {r : Reply K.toWebCrates} (hpath : Endpoint.ofPath req.path = some e)
    (hallows : e.allows req.method = true) (hsize : app.declaresTooMuch req = false)
    (hhandler : app.handler req e = .raise halt) (hreply : AppState.haltReply halt = some r)
    (hstatus : r.status = 400) : ∃ r', app.serve req = .ret r' ∧ r'.status = 400 := by
  refine ⟨AppState.headless req (app.sizeMapped r), ?_, ?_⟩
  · unfold AppState.serve
    simp only [hsize, hpath, hallows, hhandler, Prog.handle, hreply, Bool.false_eq_true, if_false,
      Bool.not_true]
  · rw [AppState.headless_status, AppState.sizeMapped, if_neg (by omega), hstatus]

section Login

variable {id seg : String} {pc : ProviderConfig} {req : HttpRequest}

/-- Where a login without a `redirect_uri` sends the user back to: the first URI of the allow list,
and only when this list is empty, the callback under the base URL. -/
def LandsOn (cfg : AppConfig) (id : String) (pc : ProviderConfig) (uri : String) : Prop :=
  pc.allowedRedirectUris.head? = some uri
    ∨ pc.allowedRedirectUris = []
      ∧ uri = trimEndMatches cfg.server.publicBaseUrl '/' ++ "/auth/callback/" ++ id

/-- A login without a redirect URI goes to the first URI of the list, or for an empty list to the
URL of the server. -/
theorem exists_redirectUri (hserver : Assembled K env cfg started)
    (hid : cfg.oauth2.providers[id]? = some pc)
    (hset : ¬ (pc.allowedRedirectUris.isEmpty = true
      ∧ cfg.server.publicBaseUrl.isEmpty = true)) :
    ∃ uri, LandsOn cfg id pc uri
      ∧ started.app.oauth.authLogin id none = started.app.oauth.buildLoginUrl id uri := by
  obtain ⟨p, hp, hconfig⟩ := hserver.provider hid
  unfold OAuthService.authLogin OAuthService.resolveRedirectUri
  simp only [hp, hconfig, hserver.publicBaseUrl]
  cases hallowed : pc.allowedRedirectUris with
  | cons first rest =>
      refine ⟨first, .inl ?_, rfl⟩
      rw [hallowed]
      rfl
  | nil =>
      have hbase : cfg.server.publicBaseUrl.isEmpty = false := by
        simpa [hallowed] using hset
      refine ⟨_, .inr ⟨hallowed, rfl⟩, ?_⟩
      simp [hbase]

/-- A provider with nowhere to send a user back to refuses every login. -/
theorem authLogin_refused (hserver : Assembled K env cfg started)
    (hid : cfg.oauth2.providers[id]? = some pc) (hallowed : pc.allowedRedirectUris.isEmpty = true)
    (hbase : cfg.server.publicBaseUrl.isEmpty = true) (redirectUri : Option String) :
    ∃ text, started.app.oauth.authLogin id redirectUri = Flow.fail (.badRequest text) := by
  obtain ⟨p, hp, hconfig⟩ := hserver.provider hid
  have hnil := List.isEmpty_iff.mp hallowed
  unfold OAuthService.authLogin OAuthService.resolveRedirectUri
  simp only [hp, hconfig, hserver.publicBaseUrl, hnil, hbase]
  cases redirectUri with
  | none => exact ⟨_, rfl⟩
  | some uri => exact ⟨_, rfl⟩

/-- The reply of such a login. -/
theorem serve_login_refused (hserver : Assembled K env cfg started)
    (hid : cfg.oauth2.providers[id]? = some pc) (hallowed : pc.allowedRedirectUris.isEmpty = true)
    (hbase : cfg.server.publicBaseUrl.isEmpty = true)
    (hpath : Endpoint.ofPath req.path = some (.authLogin seg))
    (hallows : (Endpoint.authLogin seg).allows req.method = true)
    (hsize : started.app.declaresTooMuch req = false) (hseg : K.percentDecode seg = some id) :
    ∃ r, started.app.serve req = .ret r ∧ r.status = 400 := by
  have hsegment : pathId K.toWebCrates seg = .ok id := by
    simp [pathId, hseg]
  have hhandler : started.app.handler req (.authLogin seg)
      = (Handler.extract (queryOf K.toWebCrates loginQuery req) >>= fun redirectUri =>
          Handler.ofOauth (started.app.oauth.authLogin id redirectUri) >>= fun url =>
            pure ⟨200, .authUrl url, none⟩) := by
    show started.app.authLogin seg req = _
    unfold AppState.authLogin
    rw [hsegment]
    rfl
  cases hquery : queryOf K.toWebCrates loginQuery req with
  | error rejection =>
      obtain ⟨text, htext⟩ : ∃ text, rejection = .queryString text := by
        unfold queryOf at hquery
        split at hquery
        · cases hquery
        · cases hquery
          exact ⟨_, rfl⟩
      rw [hquery] at hhandler
      subst htext
      exact serve_badRequest hpath hallows hsize hhandler rfl rfl
  | ok redirectUri =>
      obtain ⟨text, htext⟩ := authLogin_refused hserver hid hallowed hbase redirectUri
      have hstop : started.app.handler req (.authLogin seg)
          = .raise (.err (.badRequest text)) := by
        rw [hhandler, hquery]
        show (Handler.ofOauth (started.app.oauth.authLogin id redirectUri) >>= _) = _
        rw [htext]
        rfl
      exact serve_badRequest hpath hallows hsize hstop rfl rfl

/-- The warning about a provider is exact: with it every login at the provider is answered with a
400 and makes no call, and without it a login that names no `redirect_uri` goes on to build the
URL of the provider, with the first URI of the allow list or, for want of one, the base URL. -/
theorem login_warned (hload : AppConfig.load K files configPath = .ok cfg)
    (hserve : serve K env files ext configPath = .ok started)
    (hid : cfg.oauth2.providers[id]? = some pc) :
    (unreachable id ∈ diagnose cfg → ∀ (req : HttpRequest) (seg : String),
        Endpoint.ofPath req.path = some (.authLogin seg) →
        (Endpoint.authLogin seg).allows req.method = true →
        started.app.declaresTooMuch req = false → K.percentDecode seg = some id →
        ∃ r, started.app.serve req = .ret r ∧ r.status = 400)
      ∧ (unreachable id ∉ diagnose cfg → ∃ uri, LandsOn cfg id pc uri
        ∧ started.app.oauth.authLogin id none = started.app.oauth.buildLoginUrl id uri) := by
  have hserver := assembled_of_serve hload hserve
  rw [unreachable_logged hid]
  constructor
  · rintro ⟨hallowed, hbase⟩ req seg hpath hallows hsize hseg
    exact serve_login_refused hserver hid hallowed hbase hpath hallows hsize hseg
  · exact exists_redirectUri hserver hid

end Login

/-! ### A boot log without warnings -/

/-- The level of an `info!` line. -/
@[simp] theorem Notice.info_level (text : String) : (Notice.info text).level = .info := rfl

/-- The level of a `warn!` line. -/
@[simp] theorem Notice.warn_level (text : String) (fields : List (String × String)) :
    (Notice.warn text fields).level = .warn := rfl

/-- A configuration that `diagnose` does not warn about. -/
structure Unwarned (cfg : AppConfig) : Prop where
  audience : cfg.jwt.audience.validationEnabled = true
  admin : cfg.security.requireAdminToken = true ∧ cfg.security.adminTokenEnv.isEmpty = false
  origins : cfg.security.corsAllowedOrigins.contains "*" = false
  transport : bindIsLoopback cfg.server.bind = true ∨ hstsHasPreload cfg.security = true
  introspect : cfg.introspection.requiredClientAuth = true
  sessions : cfg.oauth2.sessionStore ≠ "memory"
  providers : ∀ (id : String) (pc : ProviderConfig), cfg.oauth2.providers[id]? = some pc →
    ¬ (pc.allowedRedirectUris.isEmpty = true ∧ cfg.server.publicBaseUrl.isEmpty = true)

/-- A configuration that is quiet gives no reason for any of the warnings. -/
theorem unwarned_of_quiet (h : AppConfig.Quiet cfg) : Unwarned cfg := by
  unfold AppConfig.Quiet at h
  have hproviders : ∀ (id : String) (pc : ProviderConfig), cfg.oauth2.providers[id]? = some pc →
      ¬ (pc.allowedRedirectUris.isEmpty = true ∧ cfg.server.publicBaseUrl.isEmpty = true) := by
    intro id pc hid hempty
    exact h _ ((unreachable_logged hid).mpr hempty) rfl
  simp only [diagnose, diagnoseTokens, diagnoseSecurity, diagnoseOAuth, List.forall_mem_append,
    List.forall_mem_cons, forall_when, firstRequestExposed, Notice.info_level, Notice.warn_level,
    ne_eq, reduceCtorEq, not_true_eq_false, not_false_eq_true, imp_false, true_and,
    Bool.and_eq_true, Bool.or_eq_true, Bool.not_eq_true', beq_iff_eq, not_or,
    -String.reduceAppend] at h
  obtain ⟨⟨⟨⟨⟨⟨-, -⟩, haudience⟩, -⟩, -⟩, ⟨⟨⟨hrequired, henv⟩, hcors⟩, -⟩, htransport⟩,
    ⟨⟨⟨⟨hintrospect, -⟩, hsessions⟩, -⟩, -⟩⟩ := h
  constructor
  case audience => simpa using haudience
  case admin => exact ⟨by simpa using hrequired, by simpa using henv⟩
  case origins =>
    cases hwild : cfg.security.corsAllowedOrigins.contains "*" with
    | false => rfl
    | true =>
        -- A list with a wildcard is not empty, so the warning is there.
        have hnonempty : cfg.security.corsAllowedOrigins.isEmpty = false := by
          cases horigins : cfg.security.corsAllowedOrigins with
          | nil => simp [horigins] at hwild
          | cons _ _ => rfl
        unfold diagnoseCors at hcors
        simp only [hnonempty, hwild, Bool.false_eq_true, if_false, forall_when,
          Notice.warn_level] at hcors
        exact absurd trivial (hcors trivial)
  case transport =>
    cases hloopback : bindIsLoopback cfg.server.bind with
    | true => exact .inl rfl
    | false => exact .inr (by simpa [hloopback] using htransport)
  case introspect => simpa using hintrospect
  case sessions => exact hsessions
  case providers => exact hproviders

/-! ### The steps of the start -/

/-- A required gate has the secret of the environment variable. -/
theorem adminGate_required {gate : AdminGate} (h : adminGate env cfg.security = .ok gate)
    (hrequired : cfg.security.requireAdminToken = true) :
    ∃ v, env.var cfg.security.adminTokenEnv = some v ∧ v ≠ ""
      ∧ gate.token = some (asBytes v) := by
  unfold adminGate at h
  simp only [hrequired, if_true] at h
  split at h
  · cases h
  · split at h
    · rename_i v hv
      obtain ⟨hvar, hne⟩ := Option.filter_eq_some_iff.mp hv
      cases h
      exact ⟨v, hvar, by simpa using hne, rfl⟩
    · cases h

/-- Any store but the one in memory is the table, with a key of 32 bytes. -/
theorem buildSessions_shared {sessions : Sessions} (h : buildSessions env cfg.oauth2 = .ok sessions)
    (hstore : cfg.oauth2.sessionStore ≠ "memory") :
    ∃ key, sessions = .postgres cfg.oauth2.sessionTtlSeconds key ∧ key.length = 32 := by
  unfold buildSessions at h
  rw [if_neg hstore] at h
  split at h
  · split at h
    · cases h
    · split at h
      · cases h
      · rename_i key hkey
        cases h
        exact ⟨key, rfl, (fromHexKey_eq_ok.mp hkey).2⟩
  · cases h

/-- The gate requires credentials where the configuration does. -/
theorem introspectionGate_required {gate : IntrospectionGate}
    (h : introspectionGate env cfg.introspection = .ok gate) :
    gate.requiredIntrospect = cfg.introspection.requiredClientAuth := by
  unfold introspectionGate at h
  dsimp only at h
  split at h
  · cases h
  · cases h
    rfl

/-- Any origin is admitted exactly when the list has the star. -/
theorem corsRules_origin {rules : CorsRules} (h : corsRules cfg.security = some rules) :
    rules.anyOrigin = cfg.security.corsAllowedOrigins.contains "*" := by
  unfold corsRules at h
  split at h
  · cases h
  · split at h
    · rename_i hwild
      cases h
      exact hwild.symm
    · rename_i hlist
      cases h
      simpa using hlist

/-- In every run of the token service, a token that a `generate` has returned was signed for listed
audiences only. Nothing is said of `extend`, which signs the audience of the old token again
without a look at the list. -/
def GeneratesListed {K : Crates} (svc : JwtService K) (allowed : List String) : Prop :=
  ∀ (P : JwtPool svc → Label (jwtMachine svc.signer) (Tim.Request K) → Prop) (s₀ : Store)
    (c : JwtPool svc), JwtReach svc P s₀ c →
  ∀ (tid : Nat) (t : Task (jwtSig K) Fault (Tim.Response K) (Tim.Request K))
    (req : GenerateRequest) (r : Tim.TokenResponse K), c.tasks[tid]? = some t →
    t.req = .generate req → t.result = some (.ok (.token r)) →
  ∃ cl aud, (⟨Tim.Op.sign cl, Except.ok r.token⟩ : Event (jwtSig K)) ∈ eventsOf c.history tid
    ∧ cl.aud = some aud ∧ ∀ a ∈ aud, a ∈ allowed

/-- The audience of a generated token is resolved from the request, and nothing is added to it. -/
theorem generatesListed_of_resolve {K : Crates} {svc : JwtService K} {allowed : List String}
    (h : ∀ (requested : Option Audience) (aud : List String),
      svc.resolveAudience requested = .ok aud → ∀ a ∈ aud, a ∈ allowed) :
    GeneratesListed svc allowed := by
  intro P s₀ c hrun tid t req r ht hreq hx
  have hdone := hrun.result_spec svc.program_spec ht hx
  rw [hreq] at hdone
  obtain ⟨_, heq, g, hvalid, hevents, htoken⟩ := hdone
  cases heq
  refine ⟨g.claims svc req, g.aud, ?_, rfl, h req.audience g.aud hvalid.aud⟩
  rw [hevents, htoken]
  exact List.mem_of_getElem? (i := 2) rfl

/-- What holds of a server whose boot log has no warning. -/
structure Hardened (env : Environment) (cfg : AppConfig) (started : Started K) : Prop where
  /-- The admin secret is that of the environment variable that the configuration names. A request
  without it only reads the token tables. -/
  admin : ∃ secret, env.var cfg.security.adminTokenEnv = some secret ∧ secret ≠ ""
    ∧ ∀ req : HttpRequest, ¬ req.Carries (asBytes secret) →
      (started.app.serve req).Meets (S := webSig K.toWebCrates) Reads (fun _ => True)
  /-- An introspection without accepted credentials is refused and looks nothing up. -/
  introspect : ∀ req : HttpRequest, Endpoint.ofPath req.path = some .introspect →
    ¬ started.app.introspectGate.Accepts K.toWebCrates req →
    ∃ r, started.app.serve req = .ret r ∧ (started.app.WellFormed req .introspect →
      r = AppState.refusal K.toWebCrates req.method .introspect)
  /-- Where audiences are listed, no token is generated for another one. -/
  audience : cfg.jwt.audience.allowed ≠ [] →
    GeneratesListed started.app.jwt cfg.jwt.audience.allowed
  /-- Sessions are in the database, sealed with a full key. -/
  sessions : ∃ ttl key, started.sessions = .postgres ttl key ∧ key.length = 32
  /-- No CORS rule admits every origin. -/
  origins : ∀ rules, corsRules cfg.security = some rules → rules.anyOrigin = false
  /-- Only this machine can reach the address, or browsers are told to preload HSTS. -/
  transport : started.addr.ip.isLoopback = true ∨ hstsHasPreload cfg.security = true
  /-- A login needs no `redirect_uri`: the server has one of its own. -/
  login : ∀ (id : String) (pc : ProviderConfig), cfg.oauth2.providers[id]? = some pc →
    ∃ uri, LandsOn cfg id pc uri
      ∧ started.app.oauth.authLogin id none = started.app.oauth.buildLoginUrl id uri

/-- A server that starts without a warning is hardened. -/
theorem quiet_hardened (hload : AppConfig.load K files configPath = .ok cfg)
    (hserve : serve K env files ext configPath = .ok started) (hquiet : AppConfig.Quiet cfg) :
    Hardened env cfg started := by
  have hserver := assembled_of_serve hload hserve
  have hunwarned := unwarned_of_quiet hquiet
  constructor
  case admin =>
    obtain ⟨v, hv, hne, htoken⟩ := adminGate_required hserver.admin hunwarned.admin.1
    refine ⟨v, hv, hne, fun req hreq => ?_⟩
    exact AppState.serve_reads (adminAuth_refuses htoken hreq)
  case introspect =>
    intro req hpath hreq
    have hon : Axis.introspect.required started.app.introspectGate = true :=
      (introspectionGate_required hserver.introspect).trans hunwarned.introspect
    exact AppState.serve_gated hpath List.mem_cons_self hon hreq
  case audience =>
    intro hallowed
    refine generatesListed_of_resolve fun requested aud haud a ha => ?_
    have henforced : started.app.jwt.cfg.audience.enforced = true := by
      rw [hserver.jwt]
      simp [AudienceConfig.enforced, hunwarned.audience, hallowed]
    have hall := (JwtService.resolveAudience_allowed haud).2 henforced a ha
    rwa [hserver.jwt] at hall
  case sessions =>
    obtain ⟨key, hkey, hlength⟩ := buildSessions_shared hserver.sessions hunwarned.sessions
    exact ⟨_, key, hkey, hlength⟩
  case origins =>
    intro rules hrules
    rw [corsRules_origin hrules, hunwarned.origins]
  case transport =>
    have hloopback := bindIsLoopback_eq hserver.addr
    rcases hunwarned.transport with hlocal | hpreload
    · rw [hloopback, Bool.and_eq_true] at hlocal
      exact .inl hlocal.1
    · exact .inr hpreload
  case login =>
    intro id pc hid
    exact exists_redirectUri hserver hid (hunwarned.providers id pc hid)

/-! ### A sample deployment -/

namespace Sample

/-- A provider that leaves the way back to the base URL. -/
def unlisted : ProviderConfig :=
  { (OAuth.Sample.provider 100).config with
    discoveryUrl := "https://idp/.well-known", allowedRedirectUris := [] }

/-- A public deployment with an HSTS header and a base URL. -/
def publicConfig (hsts baseUrl : String) : AppConfig where
  server := { publicBaseUrl := baseUrl }
  jwt := { issuer := "tim", audience := ⟨true, ["api"], "api"⟩ }
  oauth2 := { sessionStore := "postgres", providers := .ofList [("idp", unlisted)] }
  security := { adminTokenEnv := "ADMIN", strictTransportSecurity := hsts }
  introspection := { clients := [⟨"app", "APP_SECRET"⟩] }

/-- Crates whose YAML parser reads every file as this configuration. -/
def publicCrates (hsts baseUrl : String) : BootCrates :=
  { crates with parseYaml := fun _ => .ok (publicConfig hsts baseUrl) }

/-- Every secret of the deployment is set. -/
def publicEnv : Environment where
  var name :=
    if name = "" then none
    else if name = "TIM_SESSION_ENCRYPTION_KEY" then
      some "00112233445566778899aabbccddeeff00112233445566778899aabbccddeeff"
    else if name = "TIM_OFFLINE" then none
    else some "secret"
  var_empty := rfl

/-- The header that browsers need for their preload list. -/
def preload : String := "max-age=63072000; includeSubDomains; preload"

variable (hsts baseUrl : String)

/-- The files of the deployment. -/
def publicFiles : Files := Sample.files "0.0.0.0"

/-- The sample configuration is loaded, when it passes its own checks. -/
theorem public_load
    (h : (AppConfig.validate (publicConfig hsts baseUrl)).toOption.isSome = true) :
    AppConfig.load (publicCrates hsts baseUrl) publicFiles none
      = .ok (publicConfig hsts baseUrl) := by
  cases hvalid : AppConfig.validate (publicConfig hsts baseUrl) with
  | error e =>
      rw [hvalid] at h
      cases h
  | ok u =>
      have hfind : ["tim.yaml", "tim.yml"].find? publicFiles.exists_ = some "tim.yaml" := rfl
      have hread : publicFiles.readToString "tim.yaml" = .ok (yaml "0.0.0.0") := rfl
      unfold AppConfig.load AppConfig.fromPath
      simp only [hfind, hread, publicCrates, hvalid]

/-- The sample server starts. -/
theorem exists_started
    (h : (serve (publicCrates hsts baseUrl) publicEnv publicFiles willing none).toOption.isSome
      = true) :
    ∃ started, serve (publicCrates hsts baseUrl) publicEnv publicFiles willing none
      = .ok started := by
  cases hserve : serve (publicCrates hsts baseUrl) publicEnv publicFiles willing none with
  | ok started => exact ⟨started, rfl⟩
  | error e =>
      rw [hserve] at h
      cases h

end Sample

open Sample in
/-- A public deployment without `preload` is warned about. -/
theorem first_request_warned_public :
    firstRequestExposed (publicConfig "max-age=63072000" "https://tim")
      ∈ diagnose (publicConfig "max-age=63072000" "https://tim") := by
  have hload := public_load "max-age=63072000" "https://tim" (by decide +kernel)
  obtain ⟨started, hserve⟩ := exists_started "max-age=63072000" "https://tim" (by decide +kernel)
  have hparsed : parseSocketAddr ("0.0.0.0" ++ ":" ++ toString (8085 : UInt16))
      = some (.v4 [0, 0, 0, 0] 8085) := by decide +kernel
  have haddr : started.addr = .v4 [0, 0, 0, 0] 8085 :=
    Option.some.inj ((assembled_of_serve hload hserve).addr.symm.trans hparsed)
  refine (first_request_warned hload hserve).mpr ⟨.inl ?_, by decide +kernel⟩
  rw [haddr]
  rfl

open Sample in
/-- Without a base URL the login at the provider gets a 400. -/
theorem login_warned_idp :
    ∃ started, serve (publicCrates preload "") publicEnv publicFiles willing none = .ok started
      ∧ ∃ r, started.app.serve (Web.Sample.request .get ["auth", "login", "idp"] [] "") = .ret r
        ∧ r.status = 400 := by
  have hload := public_load preload "" (by decide +kernel)
  obtain ⟨started, hserve⟩ := exists_started preload "" (by decide +kernel)
  have hid : (publicConfig preload "").oauth2.providers["idp"]? = some unlisted := by
    simp [publicConfig]
  have hwarned : unreachable "idp" ∈ diagnose (publicConfig preload "") :=
    (unreachable_logged hid).mpr ⟨rfl, rfl⟩
  exact ⟨started, hserve, (login_warned hload hserve hid).1 hwarned _ "idp" rfl rfl rfl rfl⟩

open Sample in
/-- A deployment that is not warned about. -/
theorem quiet_hardened_public :
    ∃ started, serve (publicCrates preload "https://tim") publicEnv publicFiles willing none
        = .ok started
      ∧ Hardened publicEnv (publicConfig preload "https://tim") started := by
  have hload := public_load preload "https://tim" (by decide +kernel)
  obtain ⟨started, hserve⟩ := exists_started preload "https://tim" (by decide +kernel)
  have hquiet : AppConfig.Quiet (publicConfig preload "https://tim") := by
    have hall : (diagnose (publicConfig preload "https://tim")).all
        (fun line => line.level != .warn) = true := by decide +kernel
    intro line hline
    rw [List.all_eq_true] at hall
    exact bne_iff_ne.mp (hall line hline)
  exact ⟨started, hserve, quiet_hardened hload hserve hquiet⟩

end Tim.Boot
