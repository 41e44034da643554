import Tim.Lib.Fails
import Tim.Proofs.Gates

/-!
# `Tim.Proofs.Modest`: the services do not complain about sizes

Only one function of the services can end in `PayloadTooLarge`: `generate`, about its claims. For
every other one `*_modest` says that its errors are of other kinds, by the rules of `Fails`. The
signer and the session store are asked for the same. `TokenEnd` is what `generate` and `extend`
answer besides: a token that the signer has made.

* `generate_token`: `generate` is modest too, unless the claims are too large.
* `extend_token`: so is `extend`, without that exception.
* `authLogin_modest`, `authCallback_modest`: the login flow.
-/

set_option autoImplicit false

namespace Tim.Web

open Tim.Lib Tim.Lib.Prog

/-! ### Errors that are not about a size -/

/-- The error is not the one of a payload that is too large. -/
def Modest : TimError → Prop
  | .payloadTooLarge _ => False
  | _ => True

/-- A fault with such an error. -/
def ModestFault : Fault → Prop
  | .err e => Modest e
  | .panic => True

/-- The signer answers with a token of the class `Q`, or an error that is not about a size. -/
def JwtModest {K : Crates} (Q : K.Token → Prop) : (o : Op) → Resp K o → Prop
  | .sign _, r => (∀ t, r = .ok t → Q t) ∧ ∀ e, r = .error e → Modest e
  | _, _ => True

/-! ### The token service -/

section Jwt

variable {K : Crates} {α β : Type} {Q : K.Token → Prop}

/-- No error of the program is about a size. -/
abbrev ModestJwt (Q : K.Token → Prop) (p : Action K α) : Prop :=
  p.Fails (S := jwtSig K) (JwtModest Q) ModestFault

/-- A modest error ends an operation modestly. -/
theorem modest_fail {e : TimError} (he : Modest e) : ModestJwt Q (Action.fail e : Action K α) := he

/-- An error of the database is modest. -/
theorem modest_sql (r : Sql α) : ModestJwt Q (Action.sql r : Action K α) := by
  cases r with
  | ok a => exact .ret a
  | error e => exact modest_fail trivial

/-- A panic says nothing about a limit. -/
theorem modest_addMinutes (now : DateTime) (m : Int64) :
    ModestJwt Q (addMinutes now m : Action K DateTime) := by
  unfold addMinutes
  split
  · exact .raise trivial
  · split
    · exact .raise trivial
    · exact .ret _

/-- A rollback passes the error on. -/
theorem modest_orRollback {p : Action K α} (hp : ModestJwt Q p) :
    ModestJwt Q (Action.orRollback p) := by
  refine Under.handle hp fun x hx => ?_
  cases x with
  | ok a => exact trivial
  | error f => exact fun _ _ => hx

/-- A lookup fails with an error of the database only. -/
theorem modest_lookup (jti : Uuid) : ModestJwt Q (JwtService.denylistLookup jti : Action K Bool) :=
  .call fun r _ => modest_sql r

variable (svc : JwtService K)

/-- No check of `validate` is about a size. -/
theorem validate_modest (req : ValidateRequest K) : ModestJwt Q (svc.validate req) := by
  unfold JwtService.validate
  refine .call fun at_ _ => ?_
  split
  · exact .ret _
  · refine .call fun now _ => ?_
    repeat' split
    any_goals exact .ret _
    · exact modest_fail trivial
    · refine .bind (modest_lookup _) fun denied => ?_
      split <;> exact .ret _

/-- No check of a bearer token is about a size. -/
theorem authenticateBearer_modest (token : K.Token) :
    ModestJwt Q (svc.authenticateBearer token) := by
  unfold JwtService.authenticateBearer
  refine .call fun at_ _ => ?_
  split
  · exact modest_fail trivial
  · split
    · exact modest_fail trivial
    · refine .bind (modest_lookup _) fun denied => ?_
      split
      · exact modest_fail trivial
      · split
        · exact .ret _
        · exact modest_fail trivial

/-- No check of `revoke` is about a size. -/
theorem revoke_modest (token : K.Token) (reason : Option String) :
    ModestJwt Q (svc.revoke token reason) := by
  unfold JwtService.revoke
  refine .call fun at_ _ => ?_
  repeat' split
  any_goals exact modest_fail trivial
  exact .call fun r _ => .bind (modest_sql r) fun _ => .ret _

/-- No check of a revocation by jti is about a size. -/
theorem revokeByJti_modest (jti : Uuid) (reason : Option String) :
    ModestJwt Q (JwtService.revokeByJti jti reason : Action K _) := by
  unfold JwtService.revokeByJti
  refine .call fun r _ => .bind (modest_sql r) fun row => ?_
  split
  · exact .ret _
  · exact .call fun r _ => .bind (modest_sql r) fun _ => .ret _

/-- No check of `introspect` is about a size. -/
theorem introspect_modest (req : IntrospectRequest K) : ModestJwt Q (svc.introspect req) := by
  unfold JwtService.introspect
  refine .call fun at_ _ => ?_
  split
  · exact .ret _
  · split
    · exact .ret _
    · refine .call fun now _ => ?_
      split
      · exact .ret _
      · split
        · exact .ret _
        · refine .bind (modest_lookup _) fun denied => ?_
          split <;> exact .ret _

/-- No check of the loop of a listing is about a size. The induction is on the rows. -/
theorem listLoop_modest (now : DateTime) (rows : List MetadataRow) (acc : List TokenSummary) :
    ModestJwt Q (JwtService.listLoop now rows acc : Action K _) := by
  induction rows generalizing acc with
  | nil => exact .ret _
  | cons row rows ih =>
      unfold JwtService.listLoop JwtService.denylistEntry
      refine .bind (.call fun r _ => .bind (modest_sql r) fun entry => ?_) fun entry => ih _
      split <;> exact .ret _

/-- No check of a listing is about a size. -/
theorem listForSubject_modest (subject : String) (req : ListRequest) :
    ModestJwt Q (JwtService.listForSubject subject req : Action K _) := by
  unfold JwtService.listForSubject
  refine .call fun r _ => .bind (modest_sql r) fun rows => ?_
  refine .call fun r _ => .bind (modest_sql r) fun count => ?_
  refine .call fun now _ => .bind (listLoop_modest now rows []) fun _ => .ret _

/-- The loop of a batch puts the errors into its reply. The induction is on the tokens. -/
theorem bulkRevokeLoop_modest (reason : Option String) (toks : List K.Token)
    (acc : BulkRevokeResponse K) : ModestJwt Q (svc.bulkRevokeLoop reason toks acc) := by
  have hattempt : ∀ tok, ModestJwt Q (Action.attempt (svc.revoke tok reason)) := by
    intro tok
    -- `attempt` turns an error into a value, so nothing is left that could stop the loop.
    refine Under.handle (revoke_modest svc tok reason) fun x hx => ?_
    match x with
    | .ok _ => exact trivial
    | .error (.err _) => exact trivial
    | .error .panic => exact trivial
  induction toks generalizing acc with
  | nil => exact .ret _
  | cons tok toks ih =>
      unfold JwtService.bulkRevokeLoop
      refine .bind (hattempt tok) fun r => ?_
      repeat' split
      all_goals exact ih _

/-- A batch of too many tokens is a bad request, not one that is too large. -/
theorem bulkRevoke_modest (req : BulkRevokeRequest K) : ModestJwt Q (svc.bulkRevoke req) := by
  unfold JwtService.bulkRevoke
  repeat' split
  any_goals exact modest_fail trivial
  exact bulkRevokeLoop_modest svc _ _ _

/-- No statement of the transaction fails because of a size. -/
theorem extendTx_modest (old claims : StandardClaims) (anc : JwtService.Ancestor)
    (oldJti newJti : Uuid) (now newExp : DateTime) :
    ModestJwt Q (svc.extendTx old claims anc oldJti newJti now newExp) := by
  unfold JwtService.extendTx
  refine .call fun id _ => .call fun r _ => .bind (modest_sql r) fun _ => ?_
  split
  · exact modest_fail trivial
  · exact .call fun r _ => .bind (modest_sql r) fun _ => .ret _

/-- The token of a response is one that the signer has made, and no error is about a size. -/
def TokenEnd (Q : K.Token → Prop) : Except Fault (TokenResponse K) → Prop
  | .ok r => Q r.token
  | .error f => ModestFault f

/-- A step whose errors are modest, in front of the rest of a function that answers a token. -/
theorem tokenEnd_bind {p : Action K α} {f : α → Action K (TokenResponse K)}
    (hp : ModestJwt Q p) (hf : ∀ a, (f a).Under (S := jwtSig K) (JwtModest Q) (TokenEnd Q)) :
    (p >>= f).Under (S := jwtSig K) (JwtModest Q) (TokenEnd Q) :=
  hp.bind_under hf fun _ he => he

/-- An extension ends with a token of the signer, or modestly. -/
theorem extend_token (req : ExtendRequest K) :
    (svc.extend req).Under (S := jwtSig K) (JwtModest Q) (TokenEnd Q) := by
  unfold JwtService.extend
  refine Under.call fun at_ _ => ?_
  split
  · exact trivial
  · refine Under.call fun now _ => ?_
    split
    · exact trivial
    · split
      · exact trivial
      · refine tokenEnd_bind (modest_lookup _) fun denied => ?_
        split
        · exact trivial
        · refine Under.call fun r _ => tokenEnd_bind (modest_sql r) fun row => ?_
          dsimp only
          split
          · exact trivial
          · refine tokenEnd_bind (modest_addMinutes _ _) fun newExp => Under.call fun newJti _ => ?_
            refine Under.call fun signed hsigned => ?_
            cases signed with
            -- The signer's own errors are modest by assumption.
            | error e => exact hsigned.2 e rfl
            | ok token =>
                refine Under.call fun r _ => tokenEnd_bind (modest_sql r) fun _ => ?_
                refine tokenEnd_bind (modest_orRollback (extendTx_modest svc _ _ _ _ _ _ _))
                  fun _ => ?_
                refine Under.call fun r _ => tokenEnd_bind (modest_sql r) fun _ => ?_
                exact hsigned.1 token rfl

/-- A refused audience is a bad request. -/
theorem resolveAudience_modest {audience : Option Audience} {e : TimError}
    (h : svc.resolveAudience audience = .error e) : Modest e := by
  unfold JwtService.resolveAudience at h
  dsimp only at h
  split at h
  · split at h
    · cases h
      exact trivial
    · cases h
  · cases h

/-- `generate` does the same, unless it refuses the claims for their size. -/
theorem generate_token {req : GenerateRequest}
    (hsize : 0 < req.expirationInMinutes → K.jsonLen req.content ≤ svc.cfg.maxClaimsBytes) :
    (svc.generate req).Under (S := jwtSig K) (JwtModest Q) (TokenEnd Q) := by
  unfold JwtService.generate
  split
  · exact trivial
  · rename_i hexp
    split
    -- The only place of the service that answers `payloadTooLarge`.
    · rename_i hlarge
      exact absurd (hsize (Int64.not_le.mp hexp)) (Nat.not_le.mpr hlarge)
    · split
      · rename_i e he
        exact resolveAudience_modest svc he
      · refine Under.call fun jti _ => Under.call fun now _ => ?_
        refine tokenEnd_bind (modest_addMinutes _ _) fun exp => Under.call fun signed hsigned => ?_
        cases signed with
        | error e => exact hsigned.2 e rfl
        | ok token =>
            refine Under.call fun id _ => Under.call fun r _ => ?_
            exact tokenEnd_bind (modest_sql r) fun _ => hsigned.1 token rfl

end Jwt

/-! ### The OAuth2 flow -/

section Flow

open Tim.OAuth (Flow OAuthService OAuthCrates Provider Discovery JwkSet IdTokenClaims oauthSig)

variable {α β : Type} {K : OAuthCrates}

/-- An error of the session store is not about a size. -/
def FlowModest : (o : OAuth.Op) → OAuth.Resp o → Prop
  | .createSession _, r => ∀ e, r = .error e → Modest e
  | _, _ => True

/-- No error of the program is about a size. -/
abbrev ModestFlow (p : Flow α) : Prop := p.Fails (S := oauthSig) FlowModest ModestFault

/-- A modest error ends the flow modestly. -/
theorem modestFlow_fail {e : TimError} (he : Modest e) : ModestFlow (Flow.fail e : Flow α) := he

/-- An error of the database is modest. -/
theorem modestFlow_sql (r : OAuth.Sql α) : ModestFlow (Flow.sql r) := by
  cases r with
  | ok a => exact .ret a
  | error e => exact modestFlow_fail trivial

/-- A check with modest errors. -/
theorem modestFlow_try {x : Except TimError α} (hx : ∀ e, x = .error e → Modest e) :
    ModestFlow (Flow.try_ x) := by
  cases x with
  | ok a => exact .ret a
  | error e => exact modestFlow_fail (hx e rfl)

variable (svc : OAuthService K)

/-- A blocked request is a timeout of the upstream. -/
theorem blockIfOffline_modest {url : String} {e : TimError}
    (h : svc.blockIfOffline url = some e) : Modest e := by
  unfold OAuthService.blockIfOffline at h
  split at h
  · cases h
    exact trivial
  · cases h

/-- One attempt of a discovery fails with a bad gateway. -/
theorem fetchOnce_modest (url : String) : ModestFlow (svc.fetchOnce url) := by
  unfold OAuthService.fetchOnce
  split
  · rename_i e hblock
    exact modestFlow_fail (blockIfOffline_modest svc hblock)
  · refine .call fun r _ => ?_
    repeat' split
    all_goals first | exact modestFlow_fail trivial | exact .ret _

/-- A refused document is a bad gateway. -/
theorem validateWith_modest {doc : Discovery} {allowHttp : Bool} {e : TimError}
    (h : doc.validateWith allowHttp = .error e) : Modest e := by
  unfold Discovery.validateWith at h
  repeat' split at h
  all_goals cases h
  all_goals trivial

/-- So is a document that is not accepted. -/
theorem acceptDocument_modest (url : String) (allowHttp : Bool) (doc : Discovery) :
    ModestFlow (OAuthService.acceptDocument url allowHttp doc) :=
  .bind (modestFlow_try fun _ he => validateWith_modest he) fun _ => .call fun _ _ => .ret _

/-- An attempt ends in a value, which may be a modest error. -/
def AttemptModest : Except Fault (Except TimError α) → Prop
  | .ok (.error e) => Modest e
  | .error (.err _) => False
  | _ => True

/-- The loop of attempts fails with the error of the last one. The induction is on their number. -/
theorem fetchAttempts_modest (url : String) (allowHttp : Bool) (retries delayMs : Nat) :
    ModestFlow (svc.fetchAttempts url allowHttp retries delayMs) := by
  have hattempt : (Flow.attempt (svc.fetchOnce url)).Under (S := oauthSig) FlowModest
      AttemptModest := by
    refine Under.handle (fetchOnce_modest svc url) fun x hx => ?_
    match x, hx with
    | .ok doc, _ => exact trivial
    | .error (.err e), he => exact he
    | .error .panic, _ => exact trivial
  -- On the retries that are left. The delay changes from round to round.
  induction retries generalizing delayMs with
  | zero =>
      refine Under.handle hattempt fun x hx => ?_
      match x, hx with
      | .ok (.ok doc), _ => exact acceptDocument_modest url allowHttp doc
      | .ok (.error e), he => exact he
      | .error .panic, _ => exact trivial
  | succ retries ih =>
      refine Under.handle hattempt fun x hx => ?_
      match x, hx with
      | .ok (.ok doc), _ => exact acceptDocument_modest url allowHttp doc
      | .ok (.error e), he =>
          show Under (S := oauthSig) _ _ (if _ then _ else _)
          split
          · exact fun _ _ => ih _
          · exact he
      | .error .panic, _ => exact trivial

/-- A discovery fails modestly, since its attempts do. -/
theorem fetchWith_modest (url : String) (allowHttp : Bool) :
    ModestFlow (svc.fetchWith url allowHttp) := by
  refine .call fun r _ => ?_
  cases r with
  | some doc => exact .ret doc
  | none => exact fetchAttempts_modest svc url allowHttp 3 500

/-- A pin that is not met is unprocessable. -/
theorem enforceJwksPin_modest {provider : Provider} {doc : Discovery} {e : TimError}
    (h : OAuth.enforceJwksPin provider doc = .error e) : Modest e := by
  unfold OAuth.enforceJwksPin at h
  repeat' split at h
  all_goals cases h
  all_goals trivial

/-- A missing key is no matter of size. -/
theorem selectKey_modest {set : JwkSet} {header : Header} {e : TimError}
    (h : OAuth.selectKey set header = .error e) : Modest e := by
  unfold OAuth.selectKey at h
  repeat' split at h
  all_goals cases h
  all_goals trivial

/-- A key that cannot be used is no matter of size. -/
theorem decodingKeyFor_modest {jwk : OAuth.Jwk} {e : TimError}
    (h : OAuth.decodingKeyFor K jwk = .error e) : Modest e := by
  unfold OAuth.decodingKeyFor at h
  repeat' split at h
  all_goals cases h
  all_goals trivial

/-- A key fetch fails with an upstream error. -/
theorem fetchJwks_modest (uri : String) : ModestFlow (svc.fetchJwks uri) := by
  have hload : ModestFlow (svc.loadJwks uri) := by
    unfold OAuthService.loadJwks
    split
    · rename_i e hblock
      exact modestFlow_fail (blockIfOffline_modest svc hblock)
    · refine .call fun r _ => ?_
      repeat' split
      all_goals first | exact modestFlow_fail trivial | exact .ret _
  refine .call fun r _ => ?_
  cases r with
  | some set => exact .ret set
  | none => exact .bind hload fun set => .call fun _ _ => .ret set

/-- An ID token is refused for its keys, its claims or its nonce, never for its size. -/
theorem verify_modest (doc : Discovery) (provider : Provider) (idToken expectedNonce : String) :
    ModestFlow (svc.verify doc provider idToken expectedNonce) := by
  unfold OAuthService.verify
  split
  · exact modestFlow_fail trivial
  · split
    · exact modestFlow_fail trivial
    · refine .bind (fetchJwks_modest svc _) fun set => ?_
      refine .bind (modestFlow_try fun _ he => selectKey_modest he) fun key => ?_
      refine .bind (modestFlow_try fun _ he => decodingKeyFor_modest he) fun decoding => ?_
      refine .call fun at_ _ => ?_
      split
      · exact modestFlow_fail trivial
      · split
        · exact modestFlow_fail trivial
        · refine .call fun now _ => ?_
          dsimp only
          split
          · exact modestFlow_fail trivial
          · split
            · exact modestFlow_fail trivial
            · split
              · exact modestFlow_fail trivial
              · exact .ret _

/-- A token request fails with an upstream error. -/
theorem exchange_modest (provider : Provider) (endpoint : String)
    (form : List (String × String)) : ModestFlow (svc.exchange provider endpoint form) := by
  unfold OAuthService.exchange
  split
  · rename_i e hblock
    exact modestFlow_fail (blockIfOffline_modest svc hblock)
  · refine .call fun r _ => ?_
    repeat' split
    all_goals first | exact modestFlow_fail trivial | exact .ret _

/-- A session that cannot be stored is an error of the store. -/
theorem openSession_modest (providerId : String) (provider : Provider)
    (tokens : OAuth.TokenResponse) (claims : IdTokenClaims) :
    ModestFlow (svc.openSession providerId provider tokens claims) := by
  unfold OAuthService.openSession OAuth.addSeconds
  refine .call fun now _ => ?_
  split
  · exact .raise trivial
  -- The error of `create` is the store's, which `FlowModest` speaks about.
  · refine .call fun raw _ => .call fun r hr => .bind ?_ fun _ => .ret _
    exact modestFlow_try fun e he => hr e he

/-- The provider's document, and then its pin. -/
theorem modestFlow_discovery {provider : Provider} {f : Discovery → Flow β}
    (hf : ∀ doc, ModestFlow (f doc)) :
    ModestFlow (svc.fetchWith provider.config.discoveryUrl provider.config.allowHttpDiscovery
      >>= fun doc => Flow.try_ (OAuth.enforceJwksPin provider doc) >>= fun _ => f doc) :=
  .bind (fetchWith_modest svc _ _) fun doc =>
    .bind (modestFlow_try fun _ he => enforceJwksPin_modest he) fun _ => hf doc

/-- A callback fails modestly, whichever of its parts does. -/
theorem completeCallback_modest (providerId code state : String) :
    ModestFlow (svc.completeCallback providerId code state) := by
  unfold OAuthService.completeCallback
  split
  · exact modestFlow_fail trivial
  · refine .call fun r _ => .bind (modestFlow_sql r) fun row => ?_
    split
    · exact modestFlow_fail trivial
    · unfold OAuthService.redeem
      refine modestFlow_discovery svc fun doc => .call fun r _ => ?_
      split
      · exact modestFlow_fail trivial
      · refine .bind (exchange_modest svc _ _ _) fun tokens => ?_
        split
        · exact modestFlow_fail trivial
        · exact .bind (verify_modest svc _ _ _ _) fun claims => openSession_modest svc _ _ _ _

/-- So does a login. -/
theorem buildLoginUrl_modest (providerId redirectUri : String) :
    ModestFlow (svc.buildLoginUrl providerId redirectUri) := by
  unfold OAuthService.buildLoginUrl
  split
  · exact modestFlow_fail trivial
  · refine modestFlow_discovery svc fun doc => ?_
    refine .call fun raw _ => .call fun raw' _ => .call fun raw'' _ => ?_
    refine .call fun r _ => .bind (modestFlow_sql r) fun _ => ?_
    split
    · exact modestFlow_fail trivial
    · exact .ret _

/-- A refused redirect URI is a bad request. -/
theorem resolveRedirectUri_modest {id : String} {allowed : List String} {uri : Option String}
    {e : TimError} (h : svc.resolveRedirectUri id allowed uri = .error e) : Modest e := by
  unfold OAuthService.resolveRedirectUri at h
  repeat' split at h
  all_goals cases h
  all_goals trivial

/-- The same for the handler of the login. -/
theorem authLogin_modest (id : String) (redirectUri : Option String) :
    ModestFlow (svc.authLogin id redirectUri) := by
  unfold OAuthService.authLogin
  split
  · exact modestFlow_fail trivial
  · split
    · rename_i e he
      exact modestFlow_fail (resolveRedirectUri_modest svc he)
    · exact buildLoginUrl_modest svc _ _

/-- The same for the handler of the callback. -/
theorem authCallback_modest (id : String) (q : OAuth.CallbackQuery) :
    ModestFlow (svc.authCallback id q) := by
  unfold OAuthService.authCallback
  split
  · exact .ret _
  · split
    · exact modestFlow_fail trivial
    · split
      · exact modestFlow_fail trivial
      · exact .bind (completeCallback_modest svc _ _ _) fun _ => .ret _

end Flow

end Tim.Web
