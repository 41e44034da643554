import Tim.Proofs.Gates
import Tim.Proofs.Terse

/-!
# `Tim.Proofs.Pieces`: what an error reply repeats of its request

A 4xx reply can repeat a piece of the request: a path id, a query value, a cookie name, an
audience, the text of a parse error. `clip_untrusted` is there so that no such piece is longer
than 256 characters and an ellipsis, and so that no request can make an error body grow.

`echoes` lists the pieces that the exits of a request's handler write into a 4xx body, and
`rawEchoes` those that they write without `clip_untrusted`. `EchoesBounded` is what is wanted of
the replies, with the bound in terms of the configuration. The rules at the end carry the bound
through a handler, gate by gate and extractor by extractor.

* `display_le`, `intoResponse_within`: the reply to an error with a short message.
* `bulk_within`: the reply to a batch.
* `brief_bind`, `brief_jwt`, `brief_oauth`: the rules for handlers.
-/

set_option autoImplicit false

namespace Tim.Web

open Tim.Lib Tim.Lib.Prog

/-! ### The pieces of a request in an error reply -/

/-- The piece is what `clip_untrusted` makes of some text: it has at most 256 characters, or it
has 256 and the ellipsis. -/
def Clipped (s : String) : Prop := ∃ t, s = clipUntrusted t AppState.untrustedEchoCap

/-- The parse error that the reply to a rejection shows. -/
def Rejection.parseError : Rejection → List String
  | .jsonData err | .jsonSyntax err | .invalidUtf8 err | .queryString err => [err]
  | .missingJsonContentType | .lengthLimit | .pathUtf8 => []

/-- The pieces behind a gate. -/
def behind (gate : Except TimError Unit) (pieces : List String) : List String :=
  match gate with
  | .ok () => pieces
  | .error _ => []

/-- The pieces behind an extractor, or the parse error it reports. -/
def parsed {α : Type} (x : Except Rejection α) (pieces : α → List String) : List String :=
  match x with
  | .ok a => pieces a
  | .error r => r.parseError

namespace AppState

variable {K : WebCrates} (app : AppState K) (req : HttpRequest)

/-- The audience that `resolve_audience` refuses by its name. -/
def audienceEcho (body : GenerateBody) : List String :=
  if body.expirationInMinutes ≤ 0 ∨ app.jwt.cfg.maxClaimsBytes < K.jsonLen body.content then []
  else if app.jwt.cfg.audience.enforced then
    match (match body.audience with
      | some a => a.intoVec
      | none => [app.jwt.cfg.audience.default]).find?
        fun a => !app.jwt.cfg.audience.allowed.contains a with
    | some a => [a]
    | none => []
  else []

/-- The name of a cookie that the request does not have. -/
def cookieEcho (body : String) : List String :=
  if (cookieNameOf body).isEmpty ∨ (req.cookieValue (cookieNameOf body)).isSome then []
  else [cookieNameOf body]

/-- The `redirect_uri` that is not on the provider's allow-list. -/
def redirectEcho (id : String) (redirectUri : Option String) : List String :=
  match app.oauth.providers[id]?, redirectUri with
  | some p, some uri => if p.config.allowedRedirectUris.contains uri then [] else [uri]
  | _, _ => []

/-- The provider id that `complete_callback` does not know. -/
def callbackEcho (id : String) (q : OAuth.CallbackQuery) : List String :=
  if q.error.isNone ∧ q.code.isSome ∧ q.state.isSome ∧ app.oauth.providers[id]?.isNone then [id]
  else []

/-- The tokens of a bulk revocation that is carried out. -/
def bulkEcho (body : BulkRevokeRequest K.toCrates) : List String :=
  if body.tokens.isEmpty ∨ app.jwt.cfg.bulkRevokeMax < body.tokens.length then []
  else body.tokens.map K.tokenText

/-- The pieces of the request that the handler writes into a 4xx body as they are. -/
def rawOf : Endpoint → List String
  | .jwtGenerate => behind (app.admin.adminAuth req)
      (parsed (jsonBody K GenerateBody.deserialize app.maxRequestBytes req) app.audienceEcho)
  | .jwtValidate | .jwtValidateBoolean =>
      parsed (jsonBody K (ValidateBody.deserialize K) app.maxRequestBytes req) fun _ => []
  | .jwtRevoke => behind (app.admin.adminAuth req)
      (parsed (jsonBody K (ValidateBody.deserialize K) app.maxRequestBytes req) fun _ => [])
  | .jwtRevokeBulk => behind (app.admin.adminAuth req)
      (parsed (jsonBody K (bulkRevokeBody K) app.maxRequestBytes req) app.bulkEcho)
  | .jwtExtend => behind (app.admin.adminAuth req)
      (parsed (jsonBody K (ExtendBody.deserialize K) app.maxRequestBytes req) fun _ => [])
  | .jwtCustomVerify => parsed (stringBody K app.maxRequestBytes req) fun _ => []
  | .jwtCustomUserinfo => parsed (stringBody K app.maxRequestBytes req) fun body =>
      behind (app.introspectGate.check K app.introspectGate.requiredJvmCompat req)
        (cookieEcho req body)
  | .jwtCustomExtend | .jwtCustomBlacklist => behind (app.admin.adminAuth req)
      (parsed (stringBody K app.maxRequestBytes req) (cookieEcho req))
  | .jwtBlacklist => behind (app.admin.adminAuth req)
      (parsed (queryOf K legacyBlacklistQuery req) fun _ => [])
  | .authLogin segment => parsed (pathId K segment) fun id =>
      parsed (queryOf K loginQuery req) (app.redirectEcho id)
  | .authCallback segment => parsed (pathId K segment) fun id =>
      parsed (queryOf K callbackQuery req) (app.callbackEcho id)
  | _ => []

/-- The pieces of the request that the handler writes into a 4xx body through
`clip_untrusted`. -/
def clippedOf (e : Endpoint) : List String :=
  List.map (clipUntrusted · untrustedEchoCap) <| match e with
    | .authProviderOne segment | .authLogin segment => (pathId K segment).toOption.toList
    | .authCallback segment => (pathId K segment).toOption.toList
        ++ (queryOf K callbackQuery req).toOption.toList.flatMap fun q =>
          q.error.toList ++ q.errorDescription.toList
    | .jwtBlacklist => (queryOf K legacyBlacklistQuery req).toOption.toList.flatMap fun q =>
        q.jwt.toList
    | .introspect =>
        (match K.jsonFromSlice (introspectBody K) req.body with
          | .ok _ => []
          | .error e => [e.text])
        ++ match K.urlencoded (introspectForm K) req.body with
          | .ok _ => []
          | .error e => [e]
    | _ => []

/-- The pieces of the request that reach a handler and come back in a 4xx body. The reply to
`HEAD` has no body. -/
def reached (pieces : Endpoint → List String) : List String :=
  if app.declaresTooMuch req then []
  else
    match Endpoint.ofPath req.path with
    | none => []
    | some e => if e.allows req.method && req.method ≠ .head then pieces e else []

/-- The pieces that come back as they are. -/
def rawEchoes : List String := app.reached req (app.rawOf req)

/-- The pieces that come back. -/
def echoes : List String := app.rawEchoes req ++ app.reached req (clippedOf (K := K) req)

end AppState

/-- The texts in an answer have at most `n` characters: the messages of the errors, and the
`jwks_uri` of a discovery document. -/
def TerseAnswer (K : WebCrates) (n : Nat) : (o : WebOp) → WebResp K o → Prop
  | .jwt o, r => JwtTerse n o r
  | .oauth o, r => FlowTerse K.toOAuthCrates n o r
  | .sessionGet _, r => ∀ e, r = .error e → Terse n e
  | .sessionTouch _, r => ∀ e, r = .error e → Terse n e
  | .sessionRevoke _, r => ∀ e, r = .error e → Terse n e

namespace AppState

variable {K : WebCrates} (app : AppState K) (req : HttpRequest)

/-- The lengths of the ids and the pinned `jwks_uri`s of the providers. -/
def pinSize : Nat :=
  (app.oauth.providers.toList.map fun e => e.2.id.length + (e.2.config.jwksUri.getD "").length).sum

/-- A bound on the messages of an error that depends on the configuration, and on a bound `n` on
the texts from outside. -/
def messageBound (n : Nat) : Nat :=
  1000 + n + app.cookieName.length + (toString app.maxRequestBytes).length
    + app.jwt.cfg.bulkRevokeMax + app.pinSize

/-- A bound on the texts of an error body, with the words in front of the message. -/
def textBound (n : Nat) : Nat := app.messageBound n + 100

/-- A bound on the length of an error body. -/
def errorBound (n : Nat) : Nat :=
  (app.jwt.cfg.bulkRevokeMax + 2) * (48 * app.textBound n + 30)

/-- In every 4xx reply to the request, the pieces of the request are clipped, and the body is
no longer than the bound, which does not depend on the request. -/
def EchoesBounded : Prop :=
  ∀ (n : Nat) (env : Nat → (o : WebOp) → WebResp K o), (∀ i o, TerseAnswer K n o (env i o)) →
    ∀ reply, (app.serve req).run (S := webSig K) env = .ok reply → reply.isClientError = true →
      (∀ s ∈ app.echoes req, reply.body.Shows s → Clipped s)
        ∧ reply.body.Within (app.errorBound n)

end AppState

/-- A clipped text has 256 characters and an ellipsis at most. -/
theorem Clipped.length_le {s : String} (h : Clipped s) : s.length ≤ 257 := by
  obtain ⟨t, rfl⟩ := h
  exact length_clipUntrusted_le t 256

/-! ### Replies -/

namespace AppState

open Handler

variable {K : WebCrates} (app : AppState K) (n : Nat)

/-- A fixed text is within the bound of texts. -/
theorem fixed_le_textBound : 1000 ≤ app.textBound n := by
  unfold textBound messageBound
  omega

/-- A text from outside is within the bound of messages, with the words around it. -/
theorem outside_le_messageBound : n + 1000 ≤ app.messageBound n := by
  unfold messageBound
  omega

/-- So is the message about too many tokens, whose length depends on the setting. -/
theorem max_le_messageBound : app.jwt.cfg.bulkRevokeMax + 1000 ≤ app.messageBound n := by
  unfold messageBound
  omega

/-- The texts about the pin of a provider of the configuration. -/
theorem pin_le_messageBound {id : String} {provider : OAuth.Provider}
    (h : app.oauth.providers[id]? = some provider) :
    provider.id.length + (provider.config.jwksUri.getD "").length + n + 1000
      ≤ app.messageBound n := by
  have hmem : (id, provider) ∈ app.oauth.providers.toList :=
    Std.ExtTreeMap.mem_toList_iff_getElem?_eq_some.mpr h
  have hle : provider.id.length + (provider.config.jwksUri.getD "").length ≤ app.pinSize :=
    List.single_le_sum (fun _ _ => Nat.zero_le _) _ (List.mem_map_of_mem hmem)
  unfold messageBound
  omega

/-- The bound has room for an object of four fields. -/
theorem object_le_errorBound : 2 + 4 * (12 * app.textBound n + 6) ≤ app.errorBound n := by
  have hmul : 2 * (48 * app.textBound n + 30)
      ≤ (app.jwt.cfg.bulkRevokeMax + 2) * (48 * app.textBound n + 30) :=
    Nat.mul_le_mul_right _ (by omega)
  unfold errorBound
  omega

variable {app n}

/-- A short text is within the bound of replies. -/
theorem within_text {s : String} (h : s.length ≤ app.textBound n) :
    (Body.text s : Body K).Within (app.errorBound n) := by
  have hbound := object_le_errorBound app n
  exact .inr ⟨s.length, by omega, rfl⟩

/-- So is no text at all. -/
theorem within_empty : (Body.empty : Body K).Within (app.errorBound n) :=
  .inr ⟨0, Nat.zero_le _, rfl⟩

/-- An object of four fields at most is within the bound when its fields fit. -/
theorem within_object {fields : List (String × Scalar)} (hlen : fields.length ≤ 4)
    (h : ∀ f ∈ fields, FieldFits (app.textBound n) f) :
    (Body.object fields : Body K).Within (app.errorBound n) := by
  refine .inr ⟨objectSize fields, ?_, rfl⟩
  have hsize := objectSize_le h
  have hfew : fields.length * (12 * app.textBound n + 6) ≤ 4 * (12 * app.textBound n + 6) :=
    Nat.mul_le_mul_right _ hlen
  have hbound := object_le_errorBound app n
  omega

/-- A literal fits. -/
theorem fixed_le {chars : List Char} (h : chars.length ≤ 1000) :
    (String.ofList chars).length ≤ app.textBound n :=
  Nat.le_trans (length_fixed h) (fixed_le_textBound app n)

/-- A field with a literal for its key and a short value. -/
theorem fieldFits_str {key : List Char} {s : String} (hkey : key.length ≤ 1000)
    (hs : s.length ≤ app.textBound n) :
    FieldFits (app.textBound n) (String.ofList key, .str s) :=
  ⟨fixed_le hkey, Scalar.fits_str hs⟩

/-- The reply to a body that is too large. -/
theorem payloadTooLarge_within :
    (payloadTooLarge app.maxRequestBytes : Reply K).body.Within (app.errorBound n) := by
  refine within_object (by simp) fun f hf => ?_
  rcases List.mem_cons.mp hf with rfl | hf
  · exact fieldFits_str (by decide) (fixed_le (by decide))
  · cases List.mem_singleton.mp hf
    refine ⟨fixed_le (by decide), Scalar.fits_nat ?_⟩
    unfold textBound messageBound
    omega

/-- The object with the kind of an error and its text. -/
theorem detail_within {code : List Char} {detail : String} (hcode : code.length ≤ 1000)
    (hdetail : detail.length ≤ app.textBound n) :
    (Body.object [("error", .str (String.ofList code)), ("detail", .str detail)] : Body K).Within
      (app.errorBound n) := by
  refine within_object (by simp) fun f hf => ?_
  rcases List.mem_cons.mp hf with rfl | hf
  · exact fieldFits_str (by decide) (fixed_le hcode)
  · cases List.mem_singleton.mp hf
    exact fieldFits_str (by decide) hdetail

/-- A message behind the words that `Display` puts in front of it. -/
theorem display_le {head : List Char} {m : String} (hhead : head.length ≤ 100)
    (hm : m.length ≤ app.messageBound n) :
    (String.ofList head ++ m).length ≤ app.textBound n := by
  rw [String.length_append, String.length_ofList]
  unfold textBound
  omega

/-- The reply to a terse error. -/
theorem intoResponse_within {e : TimError} (h : Terse (app.messageBound n) e)
    (h413 : status e ≠ 413) (h4xx : (intoResponse e : Reply K).isClientError = true) :
    (intoResponse e : Reply K).body.Within (app.errorBound n) := by
  cases e with
  | badRequest m | notFound m | unprocessable m =>
      exact detail_within (by decide) (display_le (by decide) h)
  | unauthorized | forbidden | unsupportedMediaType =>
      exact detail_within (by decide) (fixed_le (by decide))
  | payloadTooLarge max => exact absurd rfl h413
  | badGateway m | upstreamTimeout m | database m | crypto m | config m | io m => cases h4xx

/-- The replies of the legacy routes, with a status and a message. -/
theorem statusBody_within (code : Nat) {st : List Char} {msg : Option String}
    (hst : st.length ≤ 1000) (hmsg : ∀ m ∈ msg, m.length ≤ app.textBound n) :
    (statusBody code (String.ofList st) msg : Reply K).body.Within (app.errorBound n) := by
  have hhead : FieldFits (app.textBound n) ("status", .str (String.ofList st)) :=
    fieldFits_str (by decide) (fixed_le hst)
  cases msg with
  | none =>
      refine within_object (by simp) fun f hf => ?_
      cases List.mem_singleton.mp hf
      exact hhead
  | some m =>
      refine within_object (by simp) fun f hf => ?_
      rcases List.mem_cons.mp hf with rfl | hf
      · exact hhead
      · cases List.mem_singleton.mp hf
        exact fieldFits_str (by decide) (hmsg m rfl)

/-- The reply to a bulk revocation of tokens whose texts are clipped. -/
theorem bulk_within {tokens : List K.Token} {r : BulkRevokeResponse K.toCrates}
    (h : Tally tokens (app.messageBound n) r)
    (hlen : r.results.length ≤ app.jwt.cfg.bulkRevokeMax)
    (hclip : ∀ t ∈ tokens, (K.tokenText t).length ≤ 257) :
    (Body.bulkRevoke r : Body K).Within (app.errorBound n) := by
  have hfixed := fixed_le_textBound app n
  have hmax := max_le_messageBound app n
  have hmessage : app.messageBound n ≤ app.textBound n := Nat.le_add_right _ _
  -- Each item is an object of at most three fields.
  have hitem : ∀ i ∈ r.results, objectSize (itemFields K i) ≤ 36 * app.textBound n + 20 := by
    intro i hi
    obtain ⟨htok, hstatus, hreason⟩ := h.item i hi
    have hfields : ∀ f ∈ itemFields K i, FieldFits (app.textBound n) f := by
      intro f hf
      unfold itemFields at hf
      rcases List.mem_cons.mp hf with rfl | hf
      · exact fieldFits_str (by decide) (Nat.le_trans (hclip _ htok) (by omega))
      · rcases List.mem_cons.mp hf with rfl | hf
        · exact fieldFits_str (by decide) (Nat.le_trans hstatus hmessage)
        · cases hr : i.reason with
          | none =>
              rw [hr] at hf
              cases hf
          | some s =>
              rw [hr] at hf
              cases List.mem_singleton.mp hf
              exact fieldFits_str (by decide) (Nat.le_trans (hreason s hr) hmessage)
    have hthree : (itemFields K i).length ≤ 3 := by
      unfold itemFields
      cases i.reason <;> simp
    have hsize := objectSize_le hfields
    have hmul : (itemFields K i).length * (12 * app.textBound n + 6)
        ≤ 3 * (12 * app.textBound n + 6) := Nat.mul_le_mul_right _ hthree
    omega
  have hgroup : groupSize (r.results.map fun i => objectSize (itemFields K i))
      ≤ 2 + app.jwt.cfg.bulkRevokeMax * (36 * app.textBound n + 21) := by
    have hmembers : ∀ m ∈ r.results.map fun i => objectSize (itemFields K i),
        m ≤ 36 * app.textBound n + 20 := by
      intro m hm
      obtain ⟨i, hi, rfl⟩ := List.mem_map.mp hm
      exact hitem i hi
    have hsize : _ ≤ 2 + _ * (36 * app.textBound n + 21) := groupSize_le hmembers
    rw [List.length_map] at hsize
    have hmul : r.results.length * (36 * app.textBound n + 21)
        ≤ app.jwt.cfg.bulkRevokeMax * (36 * app.textBound n + 21) := Nat.mul_le_mul_right _ hlen
    omega
  have hcount : ∀ k : Nat, k ≤ r.results.length →
      ∀ key : String, key.length ≤ 1000 → fieldSize (key, .nat k) ≤ 12 * app.textBound n + 5 := by
    intro k hk key hkey
    have hdigits := length_toString_le k
    exact fieldSize_le ⟨Nat.le_trans hkey hfixed, Scalar.fits_nat (by omega)⟩
  have htally := h.count
  refine .inr ⟨_, ?_, rfl⟩
  unfold groupSize countFields errorBound
  have h1 := hcount r.newlyRevoked (by omega) "newly_revoked" (length_fixed (by decide))
  have h2 := hcount r.alreadyRevoked (by omega) "already_revoked" (length_fixed (by decide))
  have h3 := hcount r.failed (by omega) "failed" (length_fixed (by decide))
  have hkey : quotedSize "results" = 9 := by decide
  simp only [List.map_cons, List.map_nil, List.cons_append, List.nil_append, List.sum_cons,
    List.sum_nil, List.length_cons, List.length_nil]
  have hmul : app.jwt.cfg.bulkRevokeMax * (36 * app.textBound n + 21)
      ≤ app.jwt.cfg.bulkRevokeMax * (48 * app.textBound n + 30) :=
    Nat.mul_le_mul_left _ (by omega)
  rw [Nat.add_mul]
  unfold groupSize at hgroup
  omega

end AppState

/-! ### The handlers -/

/-- How a handler ends: with a value that meets `ψ`, or with a terse error, or with a rejection
whose parse error is as short as a clipped text. -/
def BriefEnd {α : Type} (l : Nat) (ψ : α → Prop) : Except Halt α → Prop
  | .ok a => ψ a
  | .error (.err e) => Terse l e
  | .error (.reject r) => ∀ s ∈ r.parseError, s.length ≤ 257
  | .error .panic => True

namespace AppState

open Handler

variable {K : WebCrates} {app : AppState K} {n : Nat} {req : HttpRequest}

/-- While the texts from outside are terse, the handler ends briefly. -/
def BriefHandler {α : Type} (app : AppState K) (n : Nat) (ψ : α → Prop) (p : Handler K α) : Prop :=
  p.Under (S := webSig K) (TerseAnswer K n) (BriefEnd (app.messageBound n) ψ)

/-- If the reply is an error reply, its body is within the bound. -/
def Brief (app : AppState K) (n : Nat) (r : Reply K) : Prop :=
  r.isClientError = true → r.body.Within (app.errorBound n)

section Rules

variable {α β : Type} {ψ : β → Prop}

/-- A short error ends a handler. -/
theorem brief_fail {e : TimError} (he : Terse (app.messageBound n) e) :
    app.BriefHandler n ψ (Handler.fail e) := he

/-- An error with a fixed message is short. -/
theorem brief_fixed {e : TimError} (he : Terse 1000 e) : app.BriefHandler n ψ (Handler.fail e) :=
  he.mono (by have := outside_le_messageBound app n; omega)

/-- Two parts of a handler in a row. -/
theorem brief_bind {φ : α → Prop} {p : Handler K α} {f : α → Handler K β}
    (hp : app.BriefHandler n φ p) (hf : ∀ a, φ a → app.BriefHandler n ψ (f a)) :
    app.BriefHandler n ψ (p >>= f) := by
  refine Under.bind hp hf fun h hh => ?_
  cases h with
  | err e => exact hh
  | reject r => exact hh
  | panic => trivial

/-- The `?` on a result whose errors are terse. -/
theorem brief_try {x : Except TimError α} {f : α → Handler K β}
    (hx : ∀ e, x = .error e → Terse (app.messageBound n) e)
    (hf : ∀ a, app.BriefHandler n ψ (f a)) : app.BriefHandler n ψ (try_ x >>= f) := by
  cases x with
  | ok a => exact hf a
  | error e => exact brief_fail (hx e rfl)

/-- The `?` on a check that only fails with `unauthorized`. -/
theorem brief_auth {x : Except TimError α} {f : α → Handler K β}
    (hx : ∀ e, x = .error e → e = .unauthorized) (hf : ∀ a, app.BriefHandler n ψ (f a)) :
    app.BriefHandler n ψ (try_ x >>= f) := by
  refine brief_try (fun e he => ?_) hf
  rw [hx e he]
  trivial

/-- A gate, with the pieces behind it. -/
theorem brief_gate {gate : Except TimError Unit} {pieces : List String} {f : Unit → Handler K β}
    (hgate : ∀ e, gate = .error e → e = .unauthorized)
    (hraw : ∀ s ∈ behind gate pieces, Clipped s)
    (hf : (∀ s ∈ pieces, Clipped s) → app.BriefHandler n ψ (f ())) :
    app.BriefHandler n ψ (try_ gate >>= f) := by
  cases gate with
  | ok _ => exact hf hraw
  | error e =>
      cases hgate e rfl
      exact brief_fail trivial

/-- An extractor, with the pieces behind it. -/
theorem brief_parsed {x : Except Rejection α} {pieces : α → List String} {f : α → Handler K β}
    (hraw : ∀ s ∈ parsed x pieces, Clipped s)
    (hf : ∀ a, x = .ok a → (∀ s ∈ pieces a, Clipped s) → app.BriefHandler n ψ (f a)) :
    app.BriefHandler n ψ (extract x >>= f) := by
  cases x with
  | ok a => exact hf a rfl hraw
  | error r => exact fun s hs => (hraw s hs).length_le

/-- An extractor that reports no parse error. -/
theorem brief_extract {x : Except Rejection α} {f : α → Handler K β}
    (hx : ∀ r, x = .error r → r.parseError = []) (hf : ∀ a, app.BriefHandler n ψ (f a)) :
    app.BriefHandler n ψ (extract x >>= f) := by
  cases x with
  | ok a => exact hf a
  | error r =>
      refine fun s hs => ?_
      rw [hx r rfl] at hs
      cases hs

/-- An operation of the token service with short messages, and then a handler. -/
theorem brief_jwt {p : Action K.toCrates α} {f : α → Handler K β}
    (hp : TerseJwt n (app.messageBound n) p) (hf : ∀ a, app.BriefHandler n ψ (f a)) :
    app.BriefHandler n ψ (ofJwt p >>= f) := by
  have hembed : app.BriefHandler n (fun _ => True) (ofJwt p) := by
    refine Under.embed hp (fun _ _ hr => hr) fun x hx => ?_
    match x, hx with
    | .ok _, _ => trivial
    | .error (.err _), he => exact he
    | .error .panic, _ => trivial
  exact brief_bind hembed fun a _ => hf a

/-- A part of the login flow with short messages, and then a handler. -/
theorem brief_oauth {p : OAuth.Flow α} {f : α → Handler K β}
    (hp : TerseFlow K.toOAuthCrates n (app.messageBound n) p)
    (hf : ∀ a, app.BriefHandler n ψ (f a)) : app.BriefHandler n ψ (ofOauth p >>= f) := by
  have hembed : app.BriefHandler n (fun _ => True) (ofOauth p) := by
    refine Under.embed hp (fun _ _ hr => hr) fun x hx => ?_
    match x, hx with
    | .ok _, _ => trivial
    | .error (.err _), he => exact he
    | .error .panic, _ => trivial
  exact brief_bind hembed fun a _ => hf a

end Rules

/-- A reply that is no error. -/
theorem brief_ok (b : Body K) (cookie : Option String) :
    app.BriefHandler n (app.Brief n) (.ret ⟨200, b, cookie⟩) := fun h => by cases h

end AppState

end Tim.Web
