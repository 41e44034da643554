import Tim.Model.Router
import Tim.Proofs.FlowRuns
import Tim.Proofs.Revocation

/-!
# `Tim.Proofs.Gates`: what the two gates keep out

Each handler is followed through its extractors and gates to the calls that it makes.

`token_tables_kept` is about the admin gate. While it is enforced and no request carries the
token, no request reaches a call that writes a token table: the eight handlers that write stop
at `AdminAuth`, and the others only read. `handler_reads` says this of every route, and the run
follows from it.

`gated_reply` is about the client gate. A request that it refuses makes no call at all, and its
reply is the one reply to an unauthorized request.

* `serve_reads`: the routes that write no token table.
* `adminAuth_refuses`: without the secret the eight others stop at the gate.
* `handler_gated`, `serve_gated`: a refused client gets the one reply, before any call.
-/

set_option autoImplicit false

namespace Tim.Web

open Tim.Lib Tim.Lib.Prog Handler

variable {K : WebCrates}

/-! ### The one error of a gate -/

namespace AppState

variable {app : AppState K} {req : HttpRequest}

/-- The gate of the administrator refuses with a 401 only. -/
theorem adminAuth_error {e : TimError} (h : app.admin.adminAuth req = .error e) :
    e = .unauthorized := by
  unfold AdminGate.adminAuth at h
  repeat' split at h
  all_goals cases h
  all_goals rfl

/-- The gate of the clients refuses with a 401 only. -/
theorem check_error {gate : IntrospectionGate} {required : Bool} {e : TimError}
    (h : gate.check K required req = .error e) : e = .unauthorized := by
  unfold IntrospectionGate.check IntrospectionGate.verifyBasic at h
  repeat' split at h
  all_goals cases h
  all_goals rfl

/-- A missing bearer token is a 401. -/
theorem bearerToken_error {e : TimError} (h : bearerToken req = .error e) :
    e = .unauthorized := by
  unfold bearerToken at h
  repeat' split at h
  all_goals cases h
  all_goals rfl

/-- A missing session id is a 401. -/
theorem sessionAuth_error {e : TimError} (h : sessionAuth K req = .error e) :
    e = .unauthorized := by
  unfold sessionAuth at h
  dsimp only at h
  repeat' split at h
  all_goals cases h
  all_goals rfl

end AppState

/-! ### Rules for the combinators of a handler -/

section Rules

variable {α β : Type} {φ : WebOp → Prop} {ψ : Except Halt β → Prop}

/-- The rule of `?`. -/
theorem meets_try_bind {x : Except TimError α} {f : α → Handler K β}
    (hok : ∀ a, x = .ok a → (f a).Meets (S := webSig K) φ ψ)
    (herr : ∀ e, x = .error e → ψ (.error (.err e))) :
    (try_ x >>= f).Meets (S := webSig K) φ ψ := by
  cases x with
  | ok a => exact hok a rfl
  | error e => exact herr e rfl

/-- The rule of an extractor. -/
theorem meets_extract_bind {x : Except Rejection α} {f : α → Handler K β}
    (hok : ∀ a, x = .ok a → (f a).Meets (S := webSig K) φ ψ)
    (hrej : ∀ r, x = .error r → ψ (.error (.reject r))) :
    (extract x >>= f).Meets (S := webSig K) φ ψ := by
  cases x with
  | ok a => exact hok a rfl
  | error r => exact hrej r rfl

/-- The rule of one call. -/
theorem meets_call_bind {o : WebOp} {f : WebResp K o → Handler K β} (ho : φ o)
    (hrest : ∀ r, (f r).Meets (S := webSig K) φ ψ) :
    (Handler.call o >>= f).Meets (S := webSig K) φ ψ := ⟨ho, hrest⟩

/-- The rule of a function of the token service. -/
theorem meets_jwt_bind {φ' : Op → Prop} {ψ' : Except Fault α → Prop} {p : Action K.toCrates α}
    {f : α → Handler K β} (hp : p.Meets (S := jwtSig K.toCrates) φ' ψ')
    (hφ : ∀ o, φ' o → φ (.jwt o))
    (hok : ∀ a, ψ' (.ok a) → (f a).Meets (S := webSig K) φ ψ)
    (herr : ∀ e, ψ' (.error e) → ψ (.error (Halt.ofFault e))) :
    (ofJwt p >>= f).Meets (S := webSig K) φ ψ := by
  refine Meets.bind (ψ := fun x => match x with
    | .ok a => ψ' (.ok a)
    | .error e => ψ (.error e)) (hp.embed hφ ?_) hok (fun _ he => he)
  intro x hx
  cases x with
  | ok a => exact hx
  | error e => exact herr e hx

/-- The rule of a function of the OAuth2 flow. -/
theorem meets_oauth_bind {ψ' : Except Fault α → Prop} {p : OAuth.Flow α} {f : α → Handler K β}
    (hp : p.Meets (S := OAuth.oauthSig) (fun _ => True) ψ') (hφ : ∀ o, φ (.oauth o))
    (hok : ∀ a, ψ' (.ok a) → (f a).Meets (S := webSig K) φ ψ)
    (herr : ∀ e, ψ' (.error e) → ψ (.error (Halt.ofFault e))) :
    (ofOauth p >>= f).Meets (S := webSig K) φ ψ := by
  refine Meets.bind (ψ := fun x => match x with
    | .ok a => ψ' (.ok a)
    | .error e => ψ (.error e)) (hp.embed (fun o _ => hφ o) ?_) hok (fun _ he => he)
  intro x hx
  cases x with
  | ok a => exact hx
  | error e => exact herr e hx

end Rules

/-! ### The calls of each route -/

/-- A call that writes no token table: of the token service only the clock and the queries. -/
def Reads : WebOp → Prop
  | .jwt o => JwtService.Check o ∨ JwtService.Listing o
  | _ => True

/-- The program only makes calls that write no token table. -/
def ReadsOnly {α : Type} (p : Handler K α) : Prop :=
  p.Meets (S := webSig K) Reads (fun _ => True)

section Reads

variable {α β : Type}

/-- An operation of the token service that only reads, and then a handler that only reads. -/
theorem reads_jwt_bind {p : Action K.toCrates α} {f : α → Handler K β}
    {φ : Op → Prop} (hp : p.Meets (S := jwtSig K.toCrates) φ (fun _ => True))
    (hφ : ∀ o, φ o → Reads (.jwt o)) (hf : ∀ a, ReadsOnly (f a)) : ReadsOnly (ofJwt p >>= f) :=
  meets_jwt_bind hp hφ (fun a _ => hf a) (fun _ _ => trivial)

/-- The login flow does not touch the two token tables. -/
theorem reads_oauth_bind {p : OAuth.Flow α} {f : α → Handler K β} (hf : ∀ a, ReadsOnly (f a)) :
    ReadsOnly (ofOauth p >>= f) :=
  meets_oauth_bind (meets_any p) (fun _ => trivial) (fun a _ => hf a) (fun _ _ => trivial)

/-- A check without a call, and then a handler that only reads. -/
theorem reads_try_bind {x : Except TimError α} {f : α → Handler K β}
    (hf : ∀ a, ReadsOnly (f a)) : ReadsOnly (try_ x >>= f) :=
  meets_try_bind (fun a _ => hf a) (fun _ _ => trivial)

/-- An extractor makes no call, and then a handler that only reads. -/
theorem reads_extract_bind {x : Except Rejection α} {f : α → Handler K β}
    (hf : ∀ a, ReadsOnly (f a)) : ReadsOnly (extract x >>= f) :=
  meets_extract_bind (fun a _ => hf a) (fun _ _ => trivial)

variable (svc : JwtService K.toCrates)

/-- A validation only reads the denylist. -/
theorem validate_reads (req : ValidateRequest K.toCrates) :
    (svc.validate req).Meets (S := jwtSig K.toCrates) JwtService.Check (fun _ => True) :=
  (svc.validate_spec req).meets (fun _ _ h => h.1) (fun _ _ _ => trivial)

/-- The check of a bearer token only reads the denylist. -/
theorem authenticateBearer_reads (token : K.Token) :
    (svc.authenticateBearer token).Meets (S := jwtSig K.toCrates) JwtService.Check
      (fun _ => True) :=
  (svc.authenticateBearer_spec token).meets (fun _ _ h => h.1) (fun _ _ _ => trivial)

/-- An introspection only reads the denylist. -/
theorem introspect_reads (req : IntrospectRequest K.toCrates) :
    (svc.introspect req).Meets (S := jwtSig K.toCrates) JwtService.Check (fun _ => True) :=
  (svc.introspect_spec req).meets (fun _ _ h => h.1) (fun _ _ _ => trivial)

end Reads

namespace AppState

variable {app : AppState K} {req : HttpRequest}

/-- A handler behind a closed admin gate stops there. -/
theorem adminAuth_bind {α : Type} (h : app.admin.adminAuth req = .error .unauthorized)
    (f : Unit → Handler K α) : (app.adminAuth req >>= f) = .raise (.err .unauthorized) := by
  unfold adminAuth
  rw [h]
  rfl

/-- The check of a session does not touch the two token tables. -/
theorem liveSession_reads (req : HttpRequest) :
    ReadsOnly (liveSession req : Handler K Session) := by
  refine reads_try_bind fun id => meets_call_bind trivial fun found => reads_try_bind fun s => ?_
  cases s with
  | none => exact trivial
  | some session => exact meets_call_bind trivial fun _ => trivial

/-- Without the admin token every route only reads the token tables. -/
theorem handler_reads (h : app.admin.adminAuth req = .error .unauthorized) (e : Endpoint) :
    ReadsOnly (app.handler req e) := by
  have hadmin : ∀ f : Unit → Handler K (Reply K), ReadsOnly (app.adminAuth req >>= f) := by
    intro f
    rw [adminAuth_bind h]
    exact trivial
  cases e with
  -- The eight routes that write have the gate as their first step.
  | jwtGenerate | jwtRevoke | jwtRevokeBulk | jwtExtend | jwtCustomExtend | jwtExtendSession
  | jwtCustomBlacklist | jwtBlacklist => exact hadmin _
  | health | introspectTypes | authProviders => exact trivial
  | jwtValidate | jwtValidateBoolean =>
      refine reads_extract_bind fun body => reads_try_bind fun _ => ?_
      exact reads_jwt_bind (validate_reads _ _) (fun _ => .inl) fun _ => trivial
  | jwtListMe =>
      refine reads_try_bind fun token => ?_
      refine reads_jwt_bind (authenticateBearer_reads _ _) (fun _ => .inl) fun sub => ?_
      have hlist := (JwtService.listForSubject_spec (K := K.toCrates) sub
        ((jsonBody K (listBody K) app.maxRequestBytes req).toOption.getD listDefault)).meets
        (fun _ _ h => h) (fun _ _ _ => trivial)
      exact reads_jwt_bind hlist (fun _ => .inr) fun _ => trivial
  | jwks => exact ⟨.inl trivial, fun _ => trivial⟩
  | jwtVerificationKey => exact reads_try_bind fun _ => trivial
  | jwtUserinfo =>
      refine reads_try_bind fun _ => ?_
      split
      · exact trivial
      · refine reads_jwt_bind (authenticateBearer_reads _ _) (fun _ => .inl) fun sub => ?_
        exact reads_jwt_bind (validate_reads _ _) (fun _ => .inl) fun _ => trivial
  | jwtCustomVerify =>
      refine reads_extract_bind fun body => reads_try_bind fun _ => ?_
      dsimp only
      split
      · exact trivial
      · split
        · exact trivial
        · exact reads_jwt_bind (validate_reads _ _) (fun _ => .inl) fun _ => trivial
  | jwtCustomUserinfo =>
      refine reads_extract_bind fun body => reads_try_bind fun _ => ?_
      dsimp only
      split
      · exact trivial
      · split
        · exact trivial
        · refine reads_jwt_bind (authenticateBearer_reads _ _) (fun _ => .inl) fun sub => ?_
          exact reads_jwt_bind (validate_reads _ _) (fun _ => .inl) fun _ => trivial
  | introspect =>
      refine reads_extract_bind fun bytes => reads_try_bind fun _ => reads_try_bind fun r => ?_
      exact reads_jwt_bind (introspect_reads _ _) (fun _ => .inl) fun _ => trivial
  | authProviderOne segment =>
      refine reads_extract_bind fun id => ?_
      split <;> exact trivial
  | authLogin segment =>
      refine reads_extract_bind fun id => reads_extract_bind fun uri => ?_
      exact reads_oauth_bind fun _ => trivial
  | authCallback segment =>
      refine reads_extract_bind fun id => reads_extract_bind fun q => reads_oauth_bind fun a => ?_
      cases a <;> exact trivial
  | authSessionValidate | authProfile =>
      exact Meets.bind (liveSession_reads req) (fun _ _ => trivial) (fun _ _ => trivial)
  | authLogout =>
      refine reads_try_bind fun id => meets_call_bind trivial fun found => ?_
      exact reads_try_bind fun _ => trivial
  | authHealth => exact reads_oauth_bind fun _ => trivial

/-- Without the admin token a request only reads the token tables. -/
theorem serve_reads (h : app.admin.adminAuth req = .error .unauthorized) :
    (app.serve req).Meets (S := webSig K) Reads (fun _ => True) := by
  unfold serve
  split
  · exact trivial
  · split
    · exact trivial
    · rename_i e _
      split
      · exact trivial
      · refine Meets.handle (handler_reads h e) fun x _ => ?_
        cases x with
        | ok r => exact trivial
        | error halt => cases halt <;> exact trivial

/-- The status of a reply does not depend on whether the body is sent. -/
theorem headless_status (req : HttpRequest) (r : Reply K) :
    (headless req r).status = r.status := by
  unfold headless
  split
  · rfl
  · rfl

end AppState

/-! ### The token tables -/

/-- The request carries the admin token, in its own header or as bearer credentials. -/
def HttpRequest.Carries (req : HttpRequest) (token : Bytes) : Prop :=
  req.adminHeader = some token ∨ req.bearerHeader = some token

/-- An enforced gate refuses a request that does not carry its token. -/
theorem adminAuth_refuses {gate : AdminGate} {token : Bytes} (hgate : gate.token = some token)
    {req : HttpRequest} (hreq : ¬ req.Carries token) :
    gate.adminAuth req = .error .unauthorized := by
  have hverify : ∀ p, gate.verify p = true → p = token := by
    intro p hp
    unfold AdminGate.verify at hp
    rw [hgate] at hp
    simp only [OAuth.constantTimeEq, Bool.and_eq_true, beq_iff_eq] at hp
    exact hp.2.symm
  unfold AdminGate.adminAuth AdminGate.enforced
  rw [hgate]
  simp only [Option.isSome_some, Bool.not_true, Bool.false_eq_true, ↓reduceIte]
  cases hpresented : req.adminHeader.or req.bearerHeader with
  | none => rfl
  | some p =>
      simp only [ite_eq_right_iff]
      intro hp
      rw [hverify p hp] at hpresented
      rcases Option.or_eq_some_iff.mp hpresented with hheader | ⟨-, hbearer⟩
      · exact absurd (.inl hheader) hreq
      · exact absurd (.inr hbearer) hreq

/-- The contents of `custom_jwt.jwt_metadata` and of `custom_jwt.denylist`. -/
def World.tokenTables {store : SessionStore} (s : World store) :
    List MetadataRow × List DenylistRow := (s.jwt.metadata, s.jwt.denylist)

/-- A call that writes no token table leaves both as they are. -/
theorem exec_tables {app : AppState K} {store : SessionStore} {discoveryTtl tid : Nat}
    {s s' : World store} {o : WebOp} {ch : WebChoice} {r : WebResp K o}
    (h : s.exec app discoveryTtl tid o ch = some (r, s')) (ho : Reads o) :
    s'.tokenTables = s.tokenTables := by
  cases o with
  | jwt o =>
      cases ch with
      | jwt ch =>
          obtain ⟨⟨r', t⟩, hexec, heq⟩ := Option.map_eq_some_iff.mp h
          cases heq
          have heffect := Store.exec_effect hexec
          cases heffect with
          | now | selectDenylist | query | failed | selectChain | newUuid | sign | rollback
          | begin | conflict | commitFailed => rfl
          | insertMetadata | insertDenylist | commit => exact ho.elim False.elim False.elim
      | _ => cases h
  | oauth o =>
      cases ch with
      | oauth ch =>
          obtain ⟨⟨r', t⟩, -, heq⟩ := Option.map_eq_some_iff.mp h
          cases heq
          rfl
      | _ => cases h
  | sessionGet id | sessionTouch id | sessionRevoke id => cases ch <;> cases h <;> rfl

/-- What happens outside the requests leaves the token tables as they are. -/
theorem env_tables {store : SessionStore} {s s' : World store} {e : WebEnv}
    (h : s.env e = some s') : s'.tokenTables = s.tokenTables := by
  cases e with
  | tick t =>
      obtain ⟨jwt, hjwt, hrest⟩ := Option.bind_eq_some_iff.mp h
      obtain ⟨oauth, -, heq⟩ := Option.bind_eq_some_iff.mp hrest
      cases heq
      unfold Store.tick at hjwt
      split at hjwt
      · cases hjwt
        rfl
      · cases hjwt
  | evictDiscovery url | evictJwks uri =>
      cases h
      rfl

/-- A pool of HTTP requests. -/
abbrev WebPool (app : AppState K) (store : SessionStore) (discoveryTtl : Nat) :=
  Pool (webMachine app store discoveryTtl) HttpRequest Unit (Reply K)

/-! ### A sample server -/

namespace Sample

open Symbolic

/-- The pairs of a query without escapes. -/
def pairsOf (text : String) : List (String × String) :=
  if text.isEmpty then [] else (splitChar text '&').map fun p => (splitOnce p '=').getD (p, "")

/-- The JSON bodies of the sample requests. -/
def bodies : List (String × Payload) :=
  [("validate", [("token", .string "token")]),
   ("bulk", [("tokens", .array [.string "token"])])]

/-- The token texts: one is the sample token, the others do not decode. -/
def compact (text : String) : Token :=
  if text = "token" then Symbolic.token else ⟨⟨.hs256, none⟩, [("text", .string text)], ""⟩

/-- The third-party functions, on paths and queries without escapes. -/
def crates : WebCrates where
  toOAuthCrates := { oauth [] bodies with compact := compact }
  tokenText t := match Payload.field t.payload "text" with
    | .present (.string s) => s
    | _ => "token"
  isJsonMime m := startsWith m "application/json"
  jsonFromSlice de bytes := match (fromUtf8 bytes).bind (List.lookup · bodies) with
    | none => .error ⟨false, "expected value at line 1 column 1"⟩
    | some p => match de p with
        | none => .error ⟨true, "invalid type or missing field"⟩
        | some c => .ok c
  urlencoded de bytes := match de (((fromUtf8 bytes).map pairsOf).getD []) with
    | none => .error "unknown or duplicate field"
    | some c => .ok c
  percentDecode s := some s
  base64Decode _ := none
  parseDateTime _ := none
  utf8ErrorText _ := "invalid utf-8 sequence"

/-- A server with an admin token and every axis of the client gate on. -/
def app : AppState crates where
  signer := Symbolic.service.signer
  jwt := Symbolic.service
  oauth := {
    providers := .ofList [("idp", OAuth.Sample.provider 100)]
    stateMaxAgeSeconds := 300
    sessionTtlSeconds := 3600
    publicBaseUrl := ""
    offline := false }
  admin := ⟨some (asBytes "admin")⟩
  introspectGate := ⟨true, true, true, [⟨"client", asBytes "secret"⟩]⟩
  cookieName := "jwt"
  maxRequestBytes := 65536

/-- Empty tables. -/
def world : World memoryStore := ⟨Symbolic.store, OAuth.Sample.flowStart⟩

/-- A request with headers and a body given by their texts. -/
def request (method : Method) (path : List String) (headers : List (String × String))
    (body : String) : HttpRequest where
  method := method
  path := path
  query := []
  headers := headers.map fun h => (h.1, asBytes h.2)
  body := asBytes body

abbrev SamplePool := WebPool app memoryStore 3600

/-- The request that arrives, if any, does not carry the admin token. -/
def unarmed (_ : SamplePool) : Label (webMachine app memoryStore 3600) HttpRequest → Bool
  | .spawn req => req.adminHeader != some (asBytes "admin")
      && req.bearerHeader != some (asBytes "admin")
  | _ => true

end Sample

/-- No request that arrives carries the token. -/
def Unarmed {app : AppState K} {store : SessionStore} {discoveryTtl : Nat} (token : Bytes)
    (_ : WebPool app store discoveryTtl)
    (l : Label (webMachine app store discoveryTtl) HttpRequest) : Prop :=
  ∀ req, l = .spawn req → ¬ req.Carries token

section Runs

variable {app : AppState K} {store : SessionStore} {discoveryTtl : Nat} {token : Bytes}
  {s₀ : World store} {c : WebPool app store discoveryTtl}

/-- Every request of a run was one that arrived. -/
theorem unarmed_tasks (h : Pool.Reach app.serve (Unarmed token) (Pool.init s₀) c) :
    ∀ (tid : Nat) (t : Task (webSig K) Unit (Reply K) HttpRequest), c.tasks[tid]? = some t →
      ¬ t.req.Carries token := by
  refine h.invariant (I := fun c => ∀ (tid : Nat) (t : Task (webSig K) Unit (Reply K) HttpRequest),
    c.tasks[tid]? = some t → ¬ t.req.Carries token) (by simp [Pool.init]) ?_
  intro c l c' _ hP hn ih tid t ht
  rcases hn.task_back ht with ⟨t', ht', hreq⟩ | hl
  · rw [← hreq]
    exact ih tid t' ht'
  · exact hP t.req hl

/-- While the admin gate is enforced, requests that do not carry its token leave the token
tables as they were, however they interleave. -/
theorem token_tables_kept (hgate : app.admin.token = some token)
    (h : Pool.Reach app.serve (Unarmed token) (Pool.init s₀) c) :
    c.shared.tokenTables = s₀.tokenTables := by
  -- A call of a refused request writes no token table.
  have hcode : ∀ req : HttpRequest, (app.serve req).Spec (S := webSig K)
      (fun _ o => ¬ req.Carries token → Reads o) (fun _ _ => True) [] := by
    intro req
    by_cases hreq : req.Carries token
    · exact ((meets_any (app.serve req)).spec []).mono (fun _ _ _ hno => absurd hreq hno)
        (fun _ _ _ => trivial)
    · exact ((AppState.serve_reads (adminAuth_refuses hgate hreq)).spec []).mono
        (fun _ _ ho _ => ho) (fun _ _ _ => trivial)
  refine h.invariant
    (I := fun c : WebPool app store discoveryTtl => c.shared.tokenTables = s₀.tokenTables) rfl ?_
  intro c l c' hr _ hn hI
  cases hn with
  | spawn req => exact hI
  | step tid ch req o k r s htask hexec =>
      have hreads : Reads o := hr.call_spec hcode htask (unarmed_tasks hr tid _ htask)
      exact (exec_tables hexec hreads).trans hI
  | cancel tid req o k htask => exact hI
  | env e s henv => exact (env_tables henv).trans hI

end Runs

open Sample in
/-- Two requests without the token: one to revoke and one that lists. The second has looked the
bearer token up. -/
theorem token_tables_kept_sample :
    ∃ c : SamplePool, Pool.Reach app.serve (Unarmed (asBytes "admin")) (Pool.init world) c
      ∧ c.history.length = 2 ∧ c.shared.tokenTables = world.tokenTables := by
  let revoke := request .post ["jwt", "custom", "revoke"]
    [("content-type", "application/json"), ("x-tim-admin-token", "guess")] "validate"
  let list := request .post ["jwt", "custom", "list", "me"] [("authorization", "Bearer token")] ""
  obtain ⟨c, h, hq⟩ := Pool.exists_reach app.serve unarmed
    (fun c : SamplePool => c.history.length == 2) (Pool.init world)
    [.spawn revoke, .spawn list, .step 1 (.jwt .go), .step 1 (.jwt .go)] (by decide +kernel)
  have hunarmed : Pool.Reach app.serve (Unarmed (asBytes "admin")) (Pool.init world) c := by
    refine h.mono fun c l hl req hspawn hcarries => ?_
    subst hspawn
    simp only [unarmed, Bool.and_eq_true, bne_iff_ne, ne_eq] at hl
    exact hcarries.elim hl.1 hl.2
  exact ⟨c, hunarmed, eq_of_beq hq, token_tables_kept rfl hunarmed⟩

/-! ### The client gate -/

/-- The axes of the client gate. -/
inductive Axis where
  | introspect
  | validation
  | jvmCompat
  deriving DecidableEq

/-- The axis is on. -/
def Axis.required (gate : IntrospectionGate) : Axis → Bool
  | .introspect => gate.requiredIntrospect
  | .validation => gate.requiredValidation
  | .jvmCompat => gate.requiredJvmCompat

/-- The routes of an axis. -/
def Axis.routes : Axis → List Endpoint
  | .introspect => [.introspect]
  | .validation => [.jwtValidate, .jwtValidateBoolean]
  | .jvmCompat => [.jwtUserinfo, .jwtCustomVerify, .jwtCustomUserinfo]

/-- `verify_basic` accepts the `Authorization` header of the request. -/
def IntrospectionGate.Accepts (K : WebCrates) (gate : IntrospectionGate) (req : HttpRequest) :
    Prop :=
  ∃ raw, req.header "authorization" = some raw ∧ gate.verifyBasic K raw = .ok ()

/-- A header that `verify_basic` does not accept gets the one answer. -/
theorem verifyBasic_cases (gate : IntrospectionGate) (raw : String) :
    gate.verifyBasic K raw = .ok () ∨ gate.verifyBasic K raw = .error .unauthorized := by
  unfold IntrospectionGate.verifyBasic
  split
  · exact .inr rfl
  · split
    · exact .inr rfl
    · split
      · exact .inr rfl
      · split
        · exact .inr rfl
        · split
          · exact .inl rfl
          · exact .inr rfl

/-- A request that is not accepted is refused where credentials are required. -/
theorem check_refuses {gate : IntrospectionGate} {req : HttpRequest}
    (h : ¬ gate.Accepts K req) : gate.check K true req = .error .unauthorized := by
  unfold IntrospectionGate.check
  simp only [Bool.not_true, Bool.false_eq_true, ↓reduceIte]
  cases hraw : req.header "authorization" with
  | none => rfl
  | some raw =>
      rcases verifyBasic_cases (K := K) gate raw with hok | herr
      · exact absurd ⟨raw, hraw, hok⟩ h
      · exact herr

namespace AppState

variable (app : AppState K) (req : HttpRequest)

/-- The declared and the real length are within the limit, and the extractors of the route
accept the body. -/
def WellFormed (e : Endpoint) : Prop :=
  app.declaresTooMuch req = false ∧ match e with
    | .introspect => ∃ bytes, bodyBytes app.maxRequestBytes req = .ok bytes
    | .jwtValidate | .jwtValidateBoolean =>
        ∃ body, jsonBody K (ValidateBody.deserialize K) app.maxRequestBytes req = .ok body
    | .jwtCustomVerify | .jwtCustomUserinfo =>
        ∃ body, stringBody K app.maxRequestBytes req = .ok body
    | _ => True

variable {app req}

/-- A handler whose first extractor is followed by a closed gate. -/
theorem handler_extract {e : Endpoint} {α : Type} {x : Except Rejection α}
    {f : α → Handler K (Reply K)} (hhandler : app.handler req e = (extract x >>= f))
    (hf : ∀ a, f a = .raise (.err .unauthorized))
    (hwell : app.WellFormed req e → ∃ a, x = .ok a) :
    (∃ r, app.handler req e = .raise (.reject r) ∧ ¬ app.WellFormed req e)
      ∨ app.handler req e = .raise (.err .unauthorized) := by
  cases x with
  | ok a => exact .inr (hhandler.trans (hf a))
  | error r =>
      refine .inl ⟨r, hhandler, fun hw => ?_⟩
      obtain ⟨a, ha⟩ := hwell hw
      cases ha

/-- A gated route stops at its extractors or at the gate. -/
theorem handler_gated {axis : Axis} {e : Endpoint} (hroute : e ∈ axis.routes)
    (hon : axis.required app.introspectGate = true) (hreq : ¬ app.introspectGate.Accepts K req) :
    (∃ r, app.handler req e = .raise (.reject r) ∧ ¬ app.WellFormed req e)
      ∨ app.handler req e = .raise (.err .unauthorized) := by
  -- The check of the axis is the first thing after the extractors.
  have hstop : ∀ f : Unit → Handler K (Reply K),
      (try_ (app.introspectGate.check K (axis.required app.introspectGate) req) >>= f)
        = .raise (.err .unauthorized) := by
    intro f
    rw [hon, check_refuses hreq]
    rfl
  cases axis with
  | introspect =>
      simp only [Axis.routes, List.mem_singleton] at hroute
      subst hroute
      exact handler_extract rfl (fun bytes => hstop _) And.right
  | validation =>
      simp only [Axis.routes, List.mem_cons, List.not_mem_nil, or_false] at hroute
      rcases hroute with rfl | rfl
      · exact handler_extract rfl (fun body => hstop _) And.right
      · exact handler_extract rfl (fun body => hstop _) And.right
  | jvmCompat =>
      simp only [Axis.routes, List.mem_cons, List.not_mem_nil, or_false] at hroute
      rcases hroute with rfl | rfl | rfl
      · exact .inr (hstop _)
      · exact handler_extract rfl (fun body => hstop _) And.right
      · exact handler_extract rfl (fun body => hstop _) And.right

/-- The reply to a request that the client gate refuses. -/
def refusal (K : WebCrates) (method : Method) (e : Endpoint) : Reply K :=
  if !e.allows method then ⟨405, .empty, none⟩
  else if method = .head then ⟨401, .empty, none⟩
  else intoResponse .unauthorized

/-- A 401 passes the mapper as it is, and loses its body for a `HEAD` only. -/
theorem sizeMapped_unauthorized :
    headless req (app.sizeMapped (intoResponse .unauthorized))
      = if req.method = .head then ⟨401, .empty, none⟩ else intoResponse .unauthorized := by
  unfold sizeMapped headless
  by_cases hhead : req.method = .head
  · simp only [hhead, ↓reduceIte]
    rfl
  · simp only [hhead, ↓reduceIte]
    rfl

/-- A refused request makes no call, and a well-formed one gets the refusal. -/
theorem serve_gated {axis : Axis} {e : Endpoint} (hpath : Endpoint.ofPath req.path = some e)
    (hroute : e ∈ axis.routes) (hon : axis.required app.introspectGate = true)
    (hreq : ¬ app.introspectGate.Accepts K req) :
    ∃ r, app.serve req = .ret r ∧ (app.WellFormed req e → r = refusal K req.method e) := by
  unfold serve
  split
  · rename_i hlarge
    refine ⟨_, rfl, fun hw => ?_⟩
    rw [hw.1] at hlarge
    cases hlarge
  · rw [hpath]
    unfold refusal
    dsimp only
    cases hallows : e.allows req.method with
    | false => exact ⟨_, rfl, fun _ => rfl⟩
    | true =>
        rcases handler_gated hroute hon hreq with ⟨r, hr, hno⟩ | hr
        · rw [hr]
          exact ⟨_, rfl, fun hw => absurd hw hno⟩
        · rw [hr]
          exact ⟨_, rfl, fun _ => sizeMapped_unauthorized⟩

/-- A request to a gated route whose `Authorization` header is not accepted makes no call,
neither to the database nor for the clock of a verification. Two such requests to one route
that are well formed get the same reply, whatever tokens and cookies they bring, whatever the
keys and services of the server are, and whatever the database would answer. -/
theorem gated_reply {app : AppState K} {req : HttpRequest} {axis : Axis} {e : Endpoint}
    (hpath : Endpoint.ofPath req.path = some e) (hroute : e ∈ axis.routes)
    (hon : axis.required app.introspectGate = true) (hreq : ¬ app.introspectGate.Accepts K req) :
    (app.serve req).Meets (S := webSig K) (fun _ => False) (fun _ => True)
      ∧ ∀ (app' : AppState K) (req' : HttpRequest), req'.path = req.path →
          req'.method = req.method → axis.required app'.introspectGate = true →
          ¬ app'.introspectGate.Accepts K req' → app.WellFormed req e → app'.WellFormed req' e →
          ∀ env env', (app.serve req).run env = (app'.serve req').run env' := by
  obtain ⟨r, hr, hrefusal⟩ := serve_gated hpath hroute hon hreq
  constructor
  · rw [hr]
    exact trivial
  · intro app' req' hpath' hmethod hon' hreq' hw hw' env env'
    obtain ⟨r', hr', hrefusal'⟩ := serve_gated (hpath'.symm ▸ hpath) hroute hon' hreq'
    rw [hr, hr', hrefusal hw, hrefusal' hw', hmethod]
    rfl

end AppState

open Sample in
/-- Two requests for the verdict on a cookie, without client credentials and with different
cookies, at a server with the gate on. -/
theorem gated_reply_sample :
    ∃ req req' : HttpRequest, req.cookieValue "a" = some "token"
      ∧ req'.cookieValue "a" = some "other"
      ∧ (app.serve req).Meets (S := webSig crates) (fun _ => False) (fun _ => True)
      ∧ ∀ env env', (app.serve req).run env = (app.serve req').run env' := by
  let path := ["jwt", "custom-jwt-verify"]
  let req := request .post path [("cookie", "a=token")] "a"
  let req' := request .post path [("cookie", "a=other"), ("authorization", "Bearer x")] "a"
  have hrefused : ¬ app.introspectGate.Accepts crates req := by
    rintro ⟨raw, hraw, -⟩
    have hnone : req.header "authorization" = none := by decide +kernel
    rw [hnone] at hraw
    cases hraw
  have hrefused' : ¬ app.introspectGate.Accepts crates req' := by
    rintro ⟨raw, hraw, hok⟩
    have hbearer : req'.header "authorization" = some "Bearer x" := by decide +kernel
    rw [hbearer] at hraw
    cases hraw
    have hverify : app.introspectGate.verifyBasic crates "Bearer x" = .error .unauthorized := by
      decide +kernel
    rw [hverify] at hok
    cases hok
  have hpath : Endpoint.ofPath req.path = some .jwtCustomVerify := rfl
  have hroute : Endpoint.jwtCustomVerify ∈ Axis.jvmCompat.routes := by decide
  obtain ⟨hcalls, hsame⟩ := AppState.gated_reply hpath hroute rfl hrefused
  refine ⟨req, req', by decide +kernel, by decide +kernel, hcalls, ?_⟩
  exact hsame app req' rfl rfl rfl hrefused' ⟨by decide +kernel, "a", by decide +kernel⟩
    ⟨by decide +kernel, "a", by decide +kernel⟩

end Tim.Web
