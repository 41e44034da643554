import Tim.Proofs.Modest

/-!
# `Tim.Proofs.Replies`: which replies say 413, and which set a cookie

The handlers, one by one. Four of them set a cookie (`CookieEnd`), and one of these, the one of
`generate`, can be refused for the size of its claims. The others are `Sober`: their replies have
another status than 413 and no cookie, and they stop with an error about a size only when the body
is longer than the limit of the server.

* `handler_sober`: the routes without a cookie.
* `jwtGenerate_end`, `jwtExtend_end`, `jwtCustomExtend_end`, `jwtExtendSession_end`: the four with
  one.
* `handler_end`: all routes together.
-/

set_option autoImplicit false

namespace Tim.Web

open Tim.Lib Tim.Lib.Prog
open Handler (try_ extract ofJwt ofOauth)

variable {K : WebCrates} {Q : K.Token → Prop}

/-- The signer answers with a token of the class `Q`, and no error from outside is about a
size. -/
def WebModest (Q : K.Token → Prop) : (o : WebOp) → WebResp K o → Prop
  | .jwt o, r => JwtModest Q o r
  | .oauth o, r => FlowModest o r
  | .sessionGet _, r => ∀ e, r = .error e → Modest e
  | .sessionTouch _, r => ∀ e, r = .error e → Modest e
  | .sessionRevoke _, r => ∀ e, r = .error e → Modest e

namespace AppState

variable (app : AppState K) (req : HttpRequest)

/-- A handler stops with an error about a size only when the body is too long. -/
def HaltModest : Halt → Prop
  | .err e => Modest e
  | .reject .lengthLimit => app.maxRequestBytes < req.body.length
  | _ => True

/-- The reply has another status than 413 and no cookie. -/
def Sober : Except Halt (Reply K) → Prop
  | .ok r => r.status ≠ 413 ∧ r.setCookie = none
  | .error h => app.HaltModest req h

/-- A part of a handler whose errors are modest. -/
abbrev ModestHandler {α : Type} (Q : K.Token → Prop) (p : Handler K α) : Prop :=
  p.Fails (S := webSig K) (WebModest Q) (app.HaltModest req)

variable {app req} {α β : Type}

/-! ### Parts of handlers -/

/-- A check with modest errors. -/
theorem modest_try {x : Except TimError α} (hx : ∀ e, x = .error e → Modest e) :
    app.ModestHandler req Q (try_ x) := by
  cases x with
  | ok a => exact .ret a
  | error e => exact .raise (hx e rfl)

/-- An extractor refuses a body for its length only when the body is longer than the limit. -/
theorem modest_extract {x : Except Rejection α}
    (hx : x = .error .lengthLimit → app.maxRequestBytes < req.body.length) :
    app.ModestHandler req Q (extract x) := by
  cases x with
  | ok a => exact .ret a
  | error r =>
      cases r with
      | lengthLimit => exact .raise (hx rfl)
      | _ => exact .raise trivial

/-- A modest operation of the token service in a handler. -/
theorem modest_jwt {p : Action K.toCrates α} (hp : ModestJwt Q p) :
    app.ModestHandler req Q (ofJwt p) := by
  refine hp.embed (fun _ _ h => h) fun f hf => ?_
  cases f with
  | err e => exact hf
  | panic => exact trivial

/-- A modest part of the login flow in a handler. -/
theorem modest_oauth {p : OAuth.Flow α} (hp : ModestFlow p) :
    app.ModestHandler req Q (ofOauth p) := by
  refine hp.embed (fun _ _ h => h) fun f hf => ?_
  cases f with
  | err e => exact hf
  | panic => exact trivial

/-- A modest part of a handler, and then a sober handler. -/
theorem sober_bind {p : Handler K α} {f : α → Handler K (Reply K)}
    (hp : app.ModestHandler req Q p)
    (hf : ∀ a, (f a).Under (S := webSig K) (WebModest Q) (app.Sober req)) :
    (p >>= f).Under (S := webSig K) (WebModest Q) (app.Sober req) :=
  hp.bind_under hf fun _ he => he

/-- A body is refused where it is read only for its length. -/
theorem bodyBytes_limit {max : Nat} {r : Rejection} (h : bodyBytes max req = .error r) :
    max < req.body.length := by
  unfold bodyBytes at h
  split at h
  · assumption
  · cases h

/-- A JSON body refused for its length is longer than the limit. -/
theorem jsonBody_limit {C : Type} {de : Payload → Option C} {max : Nat}
    (h : jsonBody K de max req = .error .lengthLimit) : max < req.body.length := by
  unfold jsonBody at h
  split at h
  · cases h
  · split at h
    · rename_i r hr
      exact bodyBytes_limit hr
    · split at h
      · cases h
      · rename_i e _
        cases hdata : e.isData <;> simp [hdata] at h

/-- A text body refused for its length is longer than the limit. -/
theorem stringBody_limit {max : Nat} (h : stringBody K max req = .error .lengthLimit) :
    max < req.body.length := by
  unfold stringBody at h
  split at h
  · rename_i r hr
    exact bodyBytes_limit hr
  · split at h
    · cases h
    · cases h

/-- A query is never refused for its length. -/
theorem queryOf_ne {C : Type} {de : List (String × String) → Option C} :
    queryOf K de req ≠ .error .lengthLimit := by
  unfold queryOf
  split
  · nofun
  · nofun

/-- A part of the path is never refused for its length. -/
theorem pathId_ne {segment : String} : pathId K segment ≠ .error .lengthLimit := by
  unfold pathId
  split
  · nofun
  · nofun

/-- A check that only fails with `unauthorized` says nothing about a size. -/
theorem modest_auth {x : Except TimError α} (hx : ∀ e, x = .error e → e = .unauthorized) :
    app.ModestHandler req Q (try_ x) := by
  refine modest_try fun e he => ?_
  rw [hx e he]
  exact trivial

/-- The gate of the administrator refuses with a 401. -/
theorem adminAuth_modest (app : AppState K) (req : HttpRequest) :
    app.ModestHandler req Q (app.adminAuth req) :=
  modest_auth fun _ => adminAuth_error

/-- The gate of the clients refuses with a 401. -/
theorem check_modest {gate : IntrospectionGate} {required : Bool} :
    app.ModestHandler req Q (try_ (gate.check K required req)) :=
  modest_auth fun _ => check_error

/-- A missing bearer token is a 401. -/
theorem bearerToken_modest (req : HttpRequest) :
    app.ModestHandler req Q (try_ (bearerToken req)) :=
  modest_auth fun _ => bearerToken_error

/-- A missing session id is a 401. -/
theorem sessionAuth_modest (req : HttpRequest) :
    app.ModestHandler req Q (try_ (sessionAuth K req)) :=
  modest_auth fun _ => sessionAuth_error

/-- A key that cannot be written is an internal error. -/
theorem publicPem_modest (s : JwtSigner K.toCrates) :
    app.ModestHandler req Q (try_ (publicPem s)) := by
  refine modest_try fun e he => ?_
  unfold publicPem at he
  split at he
  · cases he
  · cases he
    exact trivial

/-- A body that is no form of a token is a bad request. -/
theorem introspectRequest_modest (bytes : Bytes) :
    app.ModestHandler req Q (try_ (introspectRequest (K := K) req bytes)) := by
  refine modest_try fun e he => ?_
  unfold introspectRequest at he
  dsimp only at he
  repeat' split at he
  all_goals cases he
  all_goals trivial

/-- The extractor of a JSON body. -/
theorem json_modest {C : Type} {de : Payload → Option C} :
    app.ModestHandler req Q (extract (jsonBody K de app.maxRequestBytes req)) :=
  modest_extract jsonBody_limit

/-- The extractor of a text body. -/
theorem string_modest : app.ModestHandler req Q (extract (stringBody K app.maxRequestBytes req)) :=
  modest_extract stringBody_limit

/-- The extractor of a query. -/
theorem query_modest {C : Type} {de : List (String × String) → Option C} :
    app.ModestHandler req Q (extract (queryOf K de req)) :=
  modest_extract fun h => absurd h queryOf_ne

/-- The extractor of a part of the path. -/
theorem path_modest {segment : String} : app.ModestHandler req Q (extract (pathId K segment)) :=
  modest_extract fun h => absurd h pathId_ne

/-! ### Handlers without a cookie -/

/-- A reply that is neither a 413 nor sets a cookie. -/
abbrev SoberHandler (app : AppState K) (req : HttpRequest) (Q : K.Token → Prop)
    (p : Handler K (Reply K)) : Prop :=
  p.Under (S := webSig K) (WebModest Q) (app.Sober req)

/-- A 200 without a cookie. -/
theorem sober_ok (body : Body K) : app.SoberHandler req Q (.ret ⟨200, body, none⟩) :=
  ⟨Nat.ne_of_beq_eq_false rfl, rfl⟩

/-- A reply of the legacy routes, whose statuses are constants other than 413. -/
theorem sober_status (code : Nat) (status : String) (message : Option String)
    (h : code ≠ 413 := by decide) :
    app.SoberHandler req Q (.ret (statusBody code status message)) :=
  ⟨h, rfl⟩

/-- A verdict is a 200 or a 401. -/
theorem sober_verdict (r : ValidateResponse) (body : Body K) :
    app.SoberHandler req Q (.ret ⟨verdictStatus r, body, none⟩) := by
  refine ⟨?_, rfl⟩
  show verdictStatus r ≠ 413
  unfold verdictStatus
  split
  · decide
  · decide

/-- A session that is not there is a 401. -/
theorem liveSession_modest (req : HttpRequest) :
    app.ModestHandler req Q (liveSession (K := K) req) := by
  refine .bind (sessionAuth_modest req) fun id => .call fun r hr => ?_
  refine .bind (modest_try hr) fun found => ?_
  split
  · exact .raise trivial
  · exact .call fun _ _ => .ret _

/-- An attempt ends in a value, which may be a modest error. -/
def TriedModest (app : AppState K) (req : HttpRequest) :
    Except Halt (Except TimError α) → Prop
  | .ok (.error e) => Modest e
  | .ok (.ok _) => True
  | .error h => app.HaltModest req h

/-- An attempt hands a modest error to the handler. -/
theorem attempt_modest {p : Handler K α} (hp : app.ModestHandler req Q p) :
    (Handler.attempt p).Under (S := webSig K) (WebModest Q) (app.TriedModest req) := by
  refine Under.handle hp fun x hx => ?_
  match x, hx with
  | .ok _, _ => exact trivial
  | .error (.err e), he => exact he
  | .error (.reject r), he => exact he
  | .error .panic, _ => exact trivial

/-- The legacy revocations, whose bad requests are replies. -/
theorem revoked_sober {p : Action K.toCrates Bool} (hp : ModestJwt Q p) :
    app.SoberHandler req Q (Handler.attempt (ofJwt p) >>= fun
      | .ok true => pure (statusBody 200 "blacklisted" none)
      | .ok false => pure (statusBody 409 "already_blacklisted" none)
      | .error (.badRequest msg) => pure (statusBody 400 "failed" (some msg))
      | .error other => Handler.fail other) := by
  have hattempt : (Handler.attempt (ofJwt p)).Under (S := webSig K) (WebModest Q)
      (app.TriedModest req) := attempt_modest (modest_jwt hp)
  refine Under.handle hattempt fun x hx => ?_
  match x, hx with
  | .ok (.ok true), _ => exact sober_status 200 _ _
  | .ok (.ok false), _ => exact sober_status 409 _ _
  | .ok (.error e), he =>
      cases e with
      | badRequest m => exact sober_status 400 _ _
      -- `other` would be answered as it is.
      | payloadTooLarge m => exact he.elim
      | _ => exact trivial
  | .error h, he => exact he

/-- The status of a batch is 200, 207, 400 or 409. -/
theorem bulkStatus_ne (r : BulkRevokeResponse K.toCrates) : bulkStatus r ≠ 413 := by
  unfold bulkStatus
  repeat' split
  all_goals decide

/-- The routes without a cookie, one case each: a chain of modest parts and a last reply that is
neither a 413 nor one with a cookie. The four others have lemmas of their own below. -/
theorem handler_sober (e : Endpoint) (h₁ : e ≠ .jwtGenerate) (h₂ : e ≠ .jwtExtend)
    (h₃ : e ≠ .jwtCustomExtend) (h₄ : e ≠ .jwtExtendSession) :
    app.SoberHandler req Q (app.handler req e) := by
  -- One case for each route. The four routes with a cookie are excluded here.
  cases e with
  | health => exact sober_ok _
  | jwtGenerate => exact absurd rfl h₁
  | jwtExtend => exact absurd rfl h₂
  | jwtCustomExtend => exact absurd rfl h₃
  | jwtExtendSession => exact absurd rfl h₄
  | jwtValidate =>
      refine sober_bind json_modest fun body => sober_bind check_modest fun _ => ?_
      exact sober_bind (modest_jwt (validate_modest _ _)) fun resp => sober_verdict _ _
  | jwtValidateBoolean =>
      refine sober_bind json_modest fun body => sober_bind check_modest fun _ => ?_
      exact sober_bind (modest_jwt (validate_modest _ _)) fun resp => sober_verdict _ _
  | jwtRevoke =>
      refine sober_bind (adminAuth_modest app req) fun _ => sober_bind json_modest fun body => ?_
      refine sober_bind (modest_jwt (revoke_modest _ _ _)) fun newly => ?_
      cases newly with
      | true => exact sober_status _ _ _
      | false => exact sober_status _ _ _
  | jwtRevokeBulk =>
      refine sober_bind (adminAuth_modest app req) fun _ => sober_bind json_modest fun body => ?_
      refine sober_bind (modest_jwt (bulkRevoke_modest _ _)) fun resp => ?_
      exact ⟨bulkStatus_ne resp, rfl⟩
  | jwtListMe =>
      refine sober_bind (bearerToken_modest req) fun token => ?_
      refine sober_bind (modest_jwt (authenticateBearer_modest _ _)) fun sub => ?_
      exact sober_bind (modest_jwt (listForSubject_modest _ _)) fun resp => sober_ok _
  | jwks => exact sober_bind (modest_jwt (.call fun _ _ => .ret _)) fun now => sober_ok _
  | jwtVerificationKey => exact sober_bind (publicPem_modest _) fun pem => sober_ok _
  | jwtUserinfo =>
      refine sober_bind check_modest fun _ => ?_
      split
      · exact trivial
      · refine sober_bind (modest_jwt (authenticateBearer_modest _ _)) fun sub => ?_
        exact sober_bind (modest_jwt (validate_modest _ _)) fun resp => sober_ok _
  | jwtCustomVerify =>
      refine sober_bind string_modest fun body => sober_bind check_modest fun _ => ?_
      dsimp only
      split
      · exact trivial
      · split
        · exact ⟨by simp, rfl⟩
        · exact sober_bind (modest_jwt (validate_modest _ _)) fun resp => sober_verdict _ _
  | jwtCustomUserinfo =>
      refine sober_bind string_modest fun body => sober_bind check_modest fun _ => ?_
      dsimp only
      split
      · exact trivial
      · split
        · exact trivial
        · refine sober_bind (modest_jwt (authenticateBearer_modest _ _)) fun sub => ?_
          exact sober_bind (modest_jwt (validate_modest _ _)) fun resp => sober_ok _
  | jwtCustomBlacklist =>
      refine sober_bind (adminAuth_modest app req) fun _ => sober_bind string_modest fun body => ?_
      dsimp only
      split
      · exact trivial
      · split
        · exact sober_status _ _ _
        · exact revoked_sober (revoke_modest _ _ _)
  | jwtBlacklist =>
      refine sober_bind (adminAuth_modest app req) fun _ => sober_bind query_modest fun q => ?_
      split
      · exact revoked_sober (revoke_modest _ _ _)
      · split
        · dsimp only
          split
          · exact trivial
          · refine sober_bind (modest_jwt (revokeByJti_modest _ _)) fun found => ?_
            split
            · exact sober_status _ _ _
            · exact sober_status _ _ _
            · exact sober_status _ _ _
        · split
          -- Neither a cookie nor `?jwt=`: the session store decides.
          · refine Under.call fun r hr => sober_bind (modest_try hr) fun existed => ?_
            cases existed with
            | true => exact sober_status _ _ _
            | false => exact sober_status _ _ _
          · exact trivial
  | introspect =>
      refine sober_bind (modest_extract fun h => bodyBytes_limit h) fun bytes => ?_
      refine sober_bind check_modest fun _ => ?_
      refine sober_bind (introspectRequest_modest bytes) fun r => ?_
      exact sober_bind (modest_jwt (introspect_modest _ _)) fun resp => sober_ok _
  | introspectTypes => exact sober_ok _
  | authProviders => exact sober_ok _
  | authProviderOne segment =>
      refine sober_bind path_modest fun id => ?_
      split
      · exact trivial
      · exact sober_ok _
  | authLogin segment =>
      refine sober_bind path_modest fun id => sober_bind query_modest fun uri => ?_
      exact sober_bind (modest_oauth (authLogin_modest _ _ _)) fun url => sober_ok _
  | authCallback segment =>
      refine sober_bind path_modest fun id => sober_bind query_modest fun q => ?_
      refine sober_bind (modest_oauth (authCallback_modest _ _ _)) fun answer => ?_
      cases answer with
      | opened r => exact sober_ok _
      | providerError provider error description => exact ⟨by simp, rfl⟩
  | authSessionValidate => exact sober_bind (liveSession_modest req) fun session => sober_ok _
  | authProfile => exact sober_bind (liveSession_modest req) fun session => sober_ok _
  | authLogout =>
      refine sober_bind (sessionAuth_modest req) fun id => Under.call fun r hr => ?_
      exact sober_bind (modest_try hr) fun existed => sober_ok _
  | authHealth => exact sober_bind (modest_oauth (.call fun _ _ => .ret _)) fun now => sober_ok _

/-! ### Handlers with a cookie -/

/-- The name of the cookie that a route sets. -/
def cookieNameFor (app : AppState K) (req : HttpRequest) : Endpoint → Option String
  | .jwtGenerate =>
      (jsonBody K GenerateBody.deserialize app.maxRequestBytes req).toOption.map (·.jwtName)
  | .jwtExtend => some "EXTENDED_TOKEN"
  | .jwtCustomExtend => (stringBody K app.maxRequestBytes req).toOption.map cookieNameOf
  | .jwtExtendSession => some app.cookieName
  | _ => none

/-- The request asks its route for a cookie. `generate` and `extend` set one only when the body
says so. The two legacy `extend` routes always do, and no other route does. -/
def asksCookie (app : AppState K) (req : HttpRequest) : Endpoint → Bool
  | .jwtGenerate =>
      (jsonBody K GenerateBody.deserialize app.maxRequestBytes req).toOption.any
        fun body => body.setCookie.getD false
  | .jwtExtend =>
      (jsonBody K (ExtendBody.deserialize K) app.maxRequestBytes req).toOption.any
        fun body => body.setCookie.getD false
  | .jwtCustomExtend => true
  | .jwtExtendSession => true
  | _ => false

/-- Only four routes can be asked for a cookie. -/
theorem asksCookie_eq_false {e : Endpoint} (h₁ : e ≠ .jwtGenerate) (h₂ : e ≠ .jwtExtend)
    (h₃ : e ≠ .jwtCustomExtend) (h₄ : e ≠ .jwtExtendSession) :
    app.asksCookie req e = false := by
  cases e with
  | jwtGenerate => exact absurd rfl h₁
  | jwtExtend => exact absurd rfl h₂
  | jwtCustomExtend => exact absurd rfl h₃
  | jwtExtendSession => exact absurd rfl h₄
  | _ => rfl

/-- The reply is a token that the signer has made. It has a cookie exactly when the request asks for
one, and the cookie has the name of the route and that token. -/
def CookieEnd (app : AppState K) (req : HttpRequest) (e : Endpoint) (Q : K.Token → Prop) :
    Except Halt (Reply K) → Prop
  | .ok r => r.status = 200 ∧ r.setCookie.isSome = app.asksCookie req e
      ∧ ∃ resp, r.body = .token resp ∧ Q resp.token ∧ ∀ h, r.setCookie = some h →
        ∃ name, app.cookieNameFor req e = some name
          ∧ h = buildCookie name (K.tokenText resp.token)
  | .error h => app.HaltModest req h

/-- The request is for `generate`, it is admitted, and its claims are refused for their size. -/
def RefusesClaims (app : AppState K) (req : HttpRequest) (body : GenerateBody) : Prop :=
  app.admin.adminAuth req = .ok ()
  ∧ jsonBody K GenerateBody.deserialize app.maxRequestBytes req = .ok body
  ∧ 0 < body.expirationInMinutes ∧ app.jwt.cfg.maxClaimsBytes < K.jsonLen body.content

/-- A modest part of a handler, and then one with a cookie. -/
theorem cookieEnd_bind {e : Endpoint} {p : Handler K α} {f : α → Handler K (Reply K)}
    (hp : app.ModestHandler req Q p)
    (hf : ∀ a, (f a).Under (S := webSig K) (WebModest Q) (app.CookieEnd req e Q)) :
    (p >>= f).Under (S := webSig K) (WebModest Q) (app.CookieEnd req e Q) :=
  hp.bind_under hf fun _ he => he

/-- A token that the signer has made, as the service hands it to a handler. -/
def TokenHalt (app : AppState K) (req : HttpRequest) (Q : K.Token → Prop) :
    Except Halt (TokenResponse K.toCrates) → Prop
  | .ok resp => Q resp.token
  | .error h => app.HaltModest req h

/-- An operation that ends with a token of the signer, in a handler. -/
theorem ofJwt_token {p : Action K.toCrates (TokenResponse K.toCrates)}
    (hp : p.Under (S := jwtSig K.toCrates) (JwtModest Q) (TokenEnd Q)) :
    (ofJwt p).Under (S := webSig K) (WebModest Q) (app.TokenHalt req Q) := by
  refine hp.embed (fun _ _ h => h) fun x hx => ?_
  match x, hx with
  | .ok resp, hresp => exact hresp
  | .error (.err e), he => exact he
  | .error .panic, _ => exact trivial

/-- The end of the four handlers: a token of the service becomes the reply. -/
theorem cookieEnd_token {e : Endpoint} {p : Action K.toCrates (TokenResponse K.toCrates)}
    {cookie : TokenResponse K.toCrates → Option String}
    (hp : p.Under (S := jwtSig K.toCrates) (JwtModest Q) (TokenEnd Q))
    (hasks : ∀ resp, (cookie resp).isSome = app.asksCookie req e)
    (hcookie : ∀ resp h, cookie resp = some h → ∃ name, app.cookieNameFor req e = some name
      ∧ h = buildCookie name (K.tokenText resp.token)) :
    (ofJwt p >>= fun resp => (.ret ⟨200, .token resp, cookie resp⟩ : Handler K (Reply K))).Under
      (S := webSig K) (WebModest Q) (app.CookieEnd req e Q) := by
  have htoken : (ofJwt p).Under (S := webSig K) (WebModest Q) (app.TokenHalt req Q) :=
    ofJwt_token hp
  refine Under.bind htoken (fun resp hresp => ?_) fun _ he => he
  exact ⟨rfl, hasks resp, resp, rfl, hresp, fun h hh => hcookie resp h hh⟩

/-- The legacy routes end with a cookie of the name that they have read one under. -/
theorem extendCookie_end {e : Endpoint} {name : String} (hasks : app.asksCookie req e = true)
    (hname : app.cookieNameFor req e = some name) :
    (app.extendCookie name req).Under (S := webSig K) (WebModest Q)
      (app.CookieEnd req e Q) := by
  unfold extendCookie
  split
  · exact trivial
  · refine cookieEnd_token (extend_token _ _) (fun _ => hasks.symm) fun resp h hh => ?_
    cases hh
    exact ⟨name, hname, rfl⟩

/-- `extend` sets a cookie with a fixed name, if the body asks for one. -/
theorem jwtExtend_end :
    (app.jwtExtend req).Under (S := webSig K) (WebModest Q)
      (app.CookieEnd req .jwtExtend Q) := by
  refine cookieEnd_bind (adminAuth_modest app req) fun _ => ?_
  cases hbody : jsonBody K (ExtendBody.deserialize K) app.maxRequestBytes req with
  | error r =>
      have hstop : app.ModestHandler req Q
          (extract (.error r : Except Rejection (ExtendBody K))) := by
        rw [← hbody]
        exact json_modest
      exact hstop
  | ok body =>
      have hasks : app.asksCookie req .jwtExtend = body.setCookie.getD false := by
        rw [asksCookie, hbody]
        rfl
      refine cookieEnd_token (extend_token _ _) (fun resp => ?_) fun resp h hh => ?_
      · rw [hasks]
        cases body.setCookie.getD false <;> rfl
      · split at hh
        · cases hh
          exact ⟨_, rfl, rfl⟩
        · cases hh

/-- The legacy route for a named cookie. A body that is empty ends it before the cookie is looked
up. -/
theorem jwtCustomExtend_end :
    (app.jwtCustomExtendCompat req).Under (S := webSig K) (WebModest Q)
      (app.CookieEnd req .jwtCustomExtend Q) := by
  refine cookieEnd_bind (adminAuth_modest app req) fun _ => ?_
  cases hbody : stringBody K app.maxRequestBytes req with
  | error r =>
      have hstop : app.ModestHandler req Q (extract (.error r : Except Rejection String)) := by
        rw [← hbody]
        exact string_modest
      exact hstop
  | ok body =>
      show Under (S := webSig K) _ _ (if (cookieNameOf body).isEmpty then _ else _)
      split
      · exact trivial
      · exact extendCookie_end rfl (by rw [cookieNameFor, hbody]; rfl)

/-- The legacy route for the cookie of the configuration. -/
theorem jwtExtendSession_end :
    (app.jwtExtendSessionCompat req).Under (S := webSig K) (WebModest Q)
      (app.CookieEnd req .jwtExtendSession Q) :=
  cookieEnd_bind (adminAuth_modest app req) fun _ => extendCookie_end rfl rfl

/-- `generate` sets a cookie with the name of the token, if the body asks for one. Refused claims
are left out here: they are the one 413 of a handler. -/
theorem jwtGenerate_end (hno : ¬ ∃ body, app.RefusesClaims req body) :
    (app.jwtGenerate req).Under (S := webSig K) (WebModest Q)
      (app.CookieEnd req .jwtGenerate Q) := by
  cases hadmin : app.admin.adminAuth req with
  | error e =>
      have hstop : app.ModestHandler req Q (try_ (.error e : Except TimError Unit)) := by
        rw [← hadmin]
        exact adminAuth_modest app req
      unfold jwtGenerate adminAuth
      rw [hadmin]
      exact hstop
  | ok _ =>
      unfold jwtGenerate adminAuth
      rw [hadmin]
      cases hbody : jsonBody K GenerateBody.deserialize app.maxRequestBytes req with
      | error r =>
          have hstop : app.ModestHandler req Q
              (extract (.error r : Except Rejection GenerateBody)) := by
            rw [← hbody]
            exact json_modest
          exact hstop
      | ok body =>
          have hsmall : 0 < body.expirationInMinutes →
              K.jsonLen body.content ≤ app.jwt.cfg.maxClaimsBytes := by
            intro hexp
            -- Everything else that `RefusesClaims` asks for is known at this point.
            by_contra hlarge
            exact hno ⟨body, hadmin, hbody, hexp, Nat.lt_of_not_le hlarge⟩
          have hasks : app.asksCookie req .jwtGenerate = body.setCookie.getD false := by
            rw [asksCookie, hbody]
            rfl
          refine cookieEnd_token (generate_token _ hsmall) (fun resp => ?_) fun resp h hh => ?_
          · rw [hasks]
            cases body.setCookie.getD false <;> rfl
          · split at hh
            · cases hh
              exact ⟨body.jwtName, by rw [cookieNameFor, hbody]; rfl, rfl⟩
            · cases hh

/-- Claims that are too large stop the handler. -/
theorem jwtGenerate_refused {body : GenerateBody} (h : app.RefusesClaims req body) :
    app.jwtGenerate req = .raise (.err (.payloadTooLarge app.jwt.cfg.maxClaimsBytes)) := by
  obtain ⟨hadmin, hbody, hexp, hlarge⟩ := h
  unfold jwtGenerate adminAuth
  rw [hadmin, hbody]
  have hgenerate : app.jwt.generate body.toGenerateRequest
      = Action.fail (.payloadTooLarge app.jwt.cfg.maxClaimsBytes) := by
    unfold JwtService.generate
    rw [if_neg (Int64.not_le.mpr hexp), if_pos hlarge]
  show ofJwt (app.jwt.generate body.toGenerateRequest) >>= _ = _
  rw [hgenerate]
  rfl

/-! ### All handlers -/

/-- What a handler answers: never a 413, a cookie exactly when the request asks for one, and then
with the name of the route and the token of the reply. -/
def ReplyEnd (app : AppState K) (req : HttpRequest) (e : Endpoint) (Q : K.Token → Prop) :
    Except Halt (Reply K) → Prop
  | .ok r => r.status ≠ 413 ∧ r.setCookie.isSome = app.asksCookie req e
      ∧ ∀ h, r.setCookie = some h → ∃ resp name, r.body = .token resp ∧ Q resp.token
      ∧ app.cookieNameFor req e = some name
      ∧ h = buildCookie name (K.tokenText resp.token)
  | .error h => app.HaltModest req h

/-- The routes without a cookie. -/
theorem Sober.replyEnd {e : Endpoint} {x : Except Halt (Reply K)} (h : app.Sober req x)
    (hasks : app.asksCookie req e = false) : app.ReplyEnd req e Q x := by
  cases x with
  | error _ => exact h
  | ok r =>
      refine ⟨h.1, by rw [h.2, hasks]; rfl, fun c hc => ?_⟩
      rw [h.2] at hc
      cases hc

/-- The routes with a cookie. -/
theorem CookieEnd.replyEnd {e : Endpoint} {x : Except Halt (Reply K)}
    (h : app.CookieEnd req e Q x) : app.ReplyEnd req e Q x := by
  cases x with
  | error _ => exact h
  | ok r =>
      obtain ⟨hstatus, hasks, resp, hbody, hQ, hcookie⟩ := h
      refine ⟨by rw [hstatus]; decide, hasks, fun c hc => ?_⟩
      obtain ⟨name, hname, heq⟩ := hcookie c hc
      exact ⟨resp, name, hbody, hQ, hname, heq⟩

/-- All routes together: the four with a cookie, and then the others. -/
theorem handler_end (e : Endpoint)
    (hno : e = .jwtGenerate → ¬ ∃ body, app.RefusesClaims req body) :
    (app.handler req e).Under (S := webSig K) (WebModest Q) (app.ReplyEnd req e Q) := by
  by_cases h₁ : e = .jwtGenerate
  · subst h₁
    exact Under.mono (jwtGenerate_end (hno rfl)) fun _ h => h.replyEnd
  by_cases h₂ : e = .jwtExtend
  · subst h₂
    exact Under.mono jwtExtend_end fun _ h => h.replyEnd
  by_cases h₃ : e = .jwtCustomExtend
  · subst h₃
    exact Under.mono jwtCustomExtend_end fun _ h => h.replyEnd
  by_cases h₄ : e = .jwtExtendSession
  · subst h₄
    exact Under.mono jwtExtendSession_end fun _ h => h.replyEnd
  · exact Under.mono (handler_sober e h₁ h₂ h₃ h₄) fun _ h =>
      h.replyEnd (asksCookie_eq_false h₁ h₂ h₃ h₄)

end AppState

/-! ### A sample server -/

namespace Sample

open Symbolic

/-- The third-party functions, with a parser that knows one JSON body. -/
def cratesFor (text : String) (payload : Payload) : WebCrates :=
  { crates with jsonFromSlice := fun de bytes =>
      if bytes = asBytes text then
        match de payload with
        | none => .error ⟨true, "invalid type or missing field"⟩
        | some c => .ok c
      else .error ⟨false, "expected value at line 1 column 1"⟩ }

/-- A server that takes so many bytes of claims. -/
def appFor (text : String) (payload : Payload) (maxClaimsBytes : Nat) :
    AppState (cratesFor text payload) where
  signer := Symbolic.service.signer
  jwt := { Symbolic.service with cfg := { Symbolic.service.cfg with maxClaimsBytes } }
  oauth := app.oauth
  admin := app.admin
  introspectGate := app.introspectGate
  cookieName := app.cookieName
  maxRequestBytes := 65536

end Sample

end Tim.Web
