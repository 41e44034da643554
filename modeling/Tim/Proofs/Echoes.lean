import Tim.Proofs.InternalErrors
import Tim.Proofs.Pieces

/-!
# `Tim.Proofs.Echoes`: when the error replies to a request are bounded

Each exit of each handler keeps to the bound of `Tim.Proofs.Pieces`, as long as the pieces that
it writes down as they are happen to be short. The other way round, every such piece is shown in
some 4xx reply. `error_echoes_bounded` puts the two together.

* `handler_brief`, `serve_brief`: the bound for every route, if the raw pieces are short.
* `raw_echoed`, `serve_echoed`: every raw piece is shown in a reply.
* `provider_id_unclipped`: a provider id that is repeated as it is.
-/

set_option autoImplicit false

namespace Tim.Web

open Tim.Lib Tim.Lib.Prog

namespace AppState

open Handler

variable {K : WebCrates} {app : AppState K} {n : Nat} {req : HttpRequest}

/-! ### The handlers -/

/-- The messages of `generate` are short when the audience that it repeats is clipped. -/
theorem generate_brief {body : GenerateBody} (hecho : ∀ s ∈ app.audienceEcho body, Clipped s) :
    TerseJwt n (app.messageBound n) (app.jwt.generate body.toGenerateRequest) := by
  have hl := outside_le_messageBound app n
  refine generate_terse app.jwt hl fun hexp hsize e he => ?_
  unfold JwtService.resolveAudience at he
  dsimp only at he
  split at he
  · rename_i henforced
    split at he
    · rename_i a hfind
      cases he
      have hclip : Clipped a := by
        refine hecho a ?_
        unfold audienceEcho
        rw [if_neg (by tauto), if_pos henforced]
        erw [hfind]
        exact List.mem_singleton_self a
      have hlen := hclip.length_le
      show String.length _ ≤ _
      simp only [String.length_append]
      have h1 : "audience '".length = 10 := String.length_ofList
      have h2 : "' not in allowed set".length = 20 := String.length_ofList
      omega
    · cases he
  · cases he

/-- The only text of the request in this message is the redirect URI. -/
theorem resolveRedirectUri_terse {id : String} {uri : Option String} {p : OAuth.Provider}
    {e : TimError} (hknown : app.oauth.providers[id]? = some p)
    (hecho : ∀ s ∈ app.redirectEcho id uri, Clipped s)
    (h : app.oauth.resolveRedirectUri id p.config.allowedRedirectUris uri = .error e) :
    Terse 1000 e := by
  unfold OAuth.OAuthService.resolveRedirectUri at h
  cases uri with
  | some uri =>
      dsimp only at h
      split at h
      · rename_i hnot
        cases h
        have hclip : Clipped uri := by
          refine hecho uri ?_
          unfold redirectEcho
          rw [hknown]
          simpa using hnot
        have hlen := hclip.length_le
        show String.length _ ≤ _
        simp only [String.length_append]
        have h1 : "redirect_uri `".length = 14 := String.length_ofList
        have h2 : "` is not on the provider's allow-list".length = 37 := String.length_ofList
        omega
      · cases h
  | none =>
      dsimp only at h
      split at h
      · cases h
      · split at h
        · cases h
          show String.length _ ≤ _
          rw [String.length_append]
          exact Nat.add_le_add (b := 500) (d := 500) (length_fixed (by decide))
            (length_fixed (by decide))
        · cases h

/-- The messages of a login are short when the redirect URI that it repeats is clipped. -/
theorem authLogin_brief {id : String} {uri : Option String}
    (hecho : ∀ s ∈ app.redirectEcho id uri, Clipped s) :
    TerseFlow K.toOAuthCrates n (app.messageBound n) (app.oauth.authLogin id uri) := by
  have hl := outside_le_messageBound app n
  unfold OAuth.OAuthService.authLogin
  split
  · refine terseFlow_fixed (by omega) ?_
    exact Nat.le_trans (length_echo_le id (length_fixed (by decide))) (by decide)
  · rename_i p hknown
    split
    · rename_i e he
      exact terseFlow_fixed (by omega) (resolveRedirectUri_terse hknown hecho he)
    · exact buildLoginUrl_terse _ _ hknown (pin_le_messageBound app n hknown)

/-- The end of the callback. The error of a provider is answered with clipped texts. -/
def CallbackEnd (l : Nat) : Except Fault OAuth.OAuthService.CallbackAnswer → Prop
  | .ok (.opened _) => True
  | .ok (.providerError provider error description) =>
      provider.length ≤ 257 ∧ error.length ≤ 257 ∧ ∀ d ∈ description, d.length ≤ 257
  | .error (.err e) => Terse l e
  | .error .panic => True

/-- The messages of a callback are short when the error of the IdP that it repeats is clipped. -/
theorem authCallback_brief {id : String} {q : OAuth.CallbackQuery}
    (hecho : ∀ s ∈ app.callbackEcho id q, Clipped s) :
    (app.oauth.authCallback id q).Under (S := OAuth.oauthSig) (FlowTerse K.toOAuthCrates n)
      (CallbackEnd (app.messageBound n)) := by
  have hl := outside_le_messageBound app n
  have hfixed : ∀ m : String, m.length ≤ 1000 → Terse (app.messageBound n) (.badRequest m) :=
    fun m hm => Terse.mono (n := 1000) hm (by omega)
  unfold OAuth.OAuthService.authCallback
  split
  · refine ⟨length_clipUntrusted_le _ _, length_clipUntrusted_le _ _, fun d hd => ?_⟩
    obtain ⟨t, -, rfl⟩ := Option.mem_map.mp hd
    exact length_clipUntrusted_le _ _
  · rename_i herror
    split
    · exact hfixed _ (length_fixed (by decide))
    · rename_i code hcode
      split
      · exact hfixed _ (length_fixed (by decide))
      · rename_i state hstate
        have hcomplete : TerseFlow K.toOAuthCrates n (app.messageBound n)
            (app.oauth.completeCallback id code state) := by
          cases hprovider : app.oauth.providers[id]? with
          | some p =>
              exact completeCallback_terse _ _ _ hprovider (pin_le_messageBound app n hprovider)
          | none =>
              have hclip : Clipped id := by
                refine hecho id ?_
                unfold callbackEcho
                rw [herror, hcode, hstate, hprovider]
                exact List.mem_singleton_self id
              have hlen := hclip.length_le
              unfold OAuth.OAuthService.completeCallback
              rw [hprovider]
              have hhead : "unknown provider ".length = 17 := String.length_ofList
              show String.length _ ≤ _
              rw [String.length_append, hhead]
              omega
        refine Under.bind hcomplete (fun r _ => trivial) fun e he => ?_
        cases e with
        | err e => exact he
        | panic => trivial

/-- A body that is no form of a token is reported with a clipped text of the parser. -/
theorem introspectRequest_terse {bytes : Bytes} {e : TimError}
    (h : (introspectRequest req bytes : Except TimError (IntrospectRequest K.toCrates))
      = .error e) :
    Terse 1000 e := by
  unfold introspectRequest at h
  dsimp only at h
  split at h
  · split at h
    · cases h
    · cases h
      exact Nat.le_trans (length_echo_le _ (length_fixed (by decide))) (by decide)
  · split at h
    · split at h
      · cases h
      · cases h
        exact Nat.le_trans (length_echo_le _ (length_fixed (by decide))) (by decide)
    · split at h
      · cases h
      · cases h
      · cases h
        exact length_fixed (by decide)

/-- A missing or lapsed session gets a fixed message. -/
theorem liveSession_brief {ψ : Reply K → Prop} {f : Session → Handler K (Reply K)}
    (hf : ∀ s, app.BriefHandler n ψ (f s)) : app.BriefHandler n ψ (liveSession req >>= f) := by
  have hl := outside_le_messageBound app n
  refine brief_bind (φ := fun _ => True) ?_ fun s _ => hf s
  unfold liveSession
  refine brief_auth (fun e => sessionAuth_error) fun id => fun r hr => ?_
  cases r with
  | error e => exact (hr e rfl).mono (by omega)
  | ok s =>
      cases s with
      | none => exact brief_fixed (length_fixed (by decide))
      | some s => exact fun _ _ => trivial

/-- A missing cookie is named in the message, so the name has to be short. -/
theorem extendCookie_brief {name : String}
    (hname : req.cookieValue name = none → (cookieNotPresent name).length ≤ app.messageBound n) :
    app.BriefHandler n (app.Brief n) (app.extendCookie name req) := by
  unfold extendCookie
  split
  · rename_i habsent
    exact brief_fail (hname habsent)
  · refine brief_jwt (extend_terse _ (outside_le_messageBound app n) _) fun _ => ?_
    exact brief_ok _ _

/-- The cookie that the request does not have is a piece of it. -/
theorem cookieNotPresent_le {body : String} (hsome : (cookieNameOf body).isEmpty = false)
    (habsent : req.cookieValue (cookieNameOf body) = none)
    (hecho : ∀ s ∈ cookieEcho req body, Clipped s) :
    (cookieNotPresent (cookieNameOf body)).length ≤ 1000 := by
  have hclip : Clipped (cookieNameOf body) := by
    refine hecho _ ?_
    unfold cookieEcho
    rw [if_neg (by simp [hsome, habsent])]
    exact List.mem_singleton_self _
  have hlen := hclip.length_le
  unfold cookieNotPresent
  simp only [String.length_append]
  have h1 : "cookie `".length = 8 := String.length_ofList
  have h2 : "` not present on request".length = 24 := String.length_ofList
  omega

/-- A handler that looks at the outcome of `revoke` itself and shows the message of a bad
request. -/
theorem brief_revoked {token : K.Token} {reason : Option String}
    {f : Except TimError Bool → Handler K (Reply K)}
    (hok : ∀ b, app.BriefHandler n (app.Brief n) (f (.ok b)))
    (hbad : ∀ msg, msg.length ≤ app.messageBound n →
      app.BriefHandler n (app.Brief n) (f (.error (.badRequest msg))))
    (hother : ∀ e, (∀ msg, e ≠ .badRequest msg) → f (.error e) = Handler.fail e) :
    app.BriefHandler n (app.Brief n) (attempt (ofJwt (app.jwt.revoke token reason)) >>= f) := by
  have hrevoke : app.BriefHandler n (fun _ => True) (ofJwt (app.jwt.revoke token reason)) := by
    refine Under.embed (revoke_terse app.jwt (outside_le_messageBound app n) token reason)
      (fun _ _ hr => hr) fun x hx => ?_
    match x, hx with
    | .ok _, _ => trivial
    | .error (.err _), he => exact he
    | .error .panic, _ => trivial
  have hattempt : app.BriefHandler n (fun x => ∀ e, x = .error e → Terse (app.messageBound n) e)
      (attempt (ofJwt (app.jwt.revoke token reason))) := by
    refine Under.handle hrevoke fun x hx => ?_
    match x, hx with
    | .ok b, _ => exact fun e he => by cases he
    | .error (.err e), hterse => exact fun e' he' => by cases he'; exact hterse
    | .error (.reject r), hr => exact hr
    | .error .panic, _ => trivial
  refine brief_bind hattempt fun x hx => ?_
  cases x with
  | ok b => exact hok b
  | error e =>
      by_cases hmsg : ∃ msg, e = .badRequest msg
      · obtain ⟨msg, rfl⟩ := hmsg
        exact hbad msg (hx _ rfl)
      · rw [hother e fun msg h => hmsg ⟨msg, h⟩]
        exact brief_fail (hx e rfl)

/-- A reply of `status_body`. -/
theorem brief_status (code : Nat) {st : List Char} {msg : Option String}
    (hst : st.length ≤ 1000) (hmsg : ∀ m ∈ msg, m.length ≤ app.messageBound n) :
    app.BriefHandler n (app.Brief n) (.ret (statusBody code (String.ofList st) msg)) := by
  refine fun _ => statusBody_within code hst fun m hm => ?_
  exact Nat.le_trans (hmsg m hm) (Nat.le_add_right _ _)

/-- The reply is short when what the route repeats is clipped. -/
theorem jwtCustomBlacklistCompat_brief
    (hraw : ∀ s ∈ app.rawOf req .jwtCustomBlacklist, Clipped s) :
    app.BriefHandler n (app.Brief n) (app.jwtCustomBlacklistCompat req) := by
  have hl := outside_le_messageBound app n
  refine brief_gate (fun e => adminAuth_error) hraw fun hraw => ?_
  refine brief_parsed hraw fun body _ hecho => ?_
  dsimp only
  split
  · exact brief_fixed (length_fixed (by decide))
  · rename_i hsome
    split
    · rename_i habsent
      refine brief_status 404 (by decide) ?_
      rintro m ⟨⟩
      have hlen := cookieNotPresent_le (by simpa using hsome) habsent hecho
      omega
    · refine brief_revoked ?_ ?_ ?_
      · intro b
        cases b <;> exact brief_status _ (by decide) (by simp)
      · intro msg hmsg
        refine brief_status 400 (by decide) ?_
        rintro m ⟨⟩
        exact hmsg
      · intro e he
        cases e with
        | badRequest msg => exact absurd rfl (he msg)
        | _ => rfl

/-- The reply is short when what the route repeats is clipped. -/
theorem jwtBlacklistCompat_brief (hraw : ∀ s ∈ app.rawOf req .jwtBlacklist, Clipped s) :
    app.BriefHandler n (app.Brief n) (app.jwtBlacklistCompat req) := by
  have hl := outside_le_messageBound app n
  refine brief_gate (fun e => adminAuth_error) hraw fun hraw => ?_
  refine brief_parsed hraw fun q _ _ => ?_
  split
  · refine brief_revoked ?_ ?_ ?_
    · intro b
      cases b <;> exact brief_status _ (by decide) (by simp)
    · intro msg hmsg
      refine brief_status 400 (by decide) ?_
      rintro m ⟨⟩
      exact hmsg
    · intro e he
      cases e with
      | badRequest msg => exact absurd rfl (he msg)
      | _ => rfl
  · split
    · rename_i jwtId _
      dsimp only
      split
      · refine brief_fixed ?_
        exact length_quote_le jwtId (length_fixed (by decide)) (length_fixed (by decide))
      · refine brief_jwt (revokeByJti_terse _ _) fun found => ?_
        match found with
        | some true => exact brief_status _ (by decide) (by simp)
        | some false => exact brief_status _ (by decide) (by simp)
        | none =>
            refine brief_status 404 (by decide) ?_
            rintro m ⟨⟩
            exact Nat.le_trans (length_echo_le jwtId (length_fixed (by decide))) (by omega)
    · split
      · refine fun r hr => ?_
        cases r with
        | error e => exact (hr e rfl).mono (by omega)
        | ok existed =>
            cases existed <;> exact brief_status _ (by decide) (by simp)
      · exact brief_fixed (length_fixed (by decide))

/-- The reply is short when what the route repeats is clipped. -/
theorem jwtRevokeBulk_brief (hraw : ∀ s ∈ app.rawOf req .jwtRevokeBulk, Clipped s) :
    app.BriefHandler n (app.Brief n) (app.jwtRevokeBulk req) := by
  refine brief_gate (fun e => adminAuth_error) hraw fun hraw => ?_
  refine brief_parsed hraw fun body _ hecho => ?_
  have hbulk := bulkRevoke_terse app.jwt (outside_le_messageBound app n)
    (max_le_messageBound app n) body
  -- A batch that is carried out has clipped texts only, and not too many of them.
  have hembed : app.BriefHandler n (fun r => (Body.bulkRevoke r : Body K).Within (app.errorBound n))
      (ofJwt (app.jwt.bulkRevoke body)) := by
    refine Under.embed hbulk (fun _ _ hr => hr) fun x hx => ?_
    match x, hx with
    | .ok r, hr =>
        obtain ⟨⟨htally, hlen⟩, hcarried⟩ := hr
        obtain ⟨hsome, hfew⟩ := hcarried rfl
        refine bulk_within htally (by omega) fun t ht => Clipped.length_le (hecho _ ?_)
        unfold bulkEcho
        rw [if_neg (by simp only [hsome, Bool.false_eq_true, false_or]; omega)]
        exact List.mem_map_of_mem ht
    | .error (.err _), he => exact he.1
    | .error .panic, _ => trivial
  exact brief_bind hembed fun r hr _ => hr

/-- The reply is short when what the route repeats is clipped, also where it is no error of the
program but a reply about one of the IdP. -/
theorem authCallback_reply_brief {segment : String}
    (hraw : ∀ s ∈ app.rawOf req (.authCallback segment), Clipped s) :
    app.BriefHandler n (app.Brief n) (app.authCallback segment req) := by
  refine brief_parsed hraw fun id _ hraw => brief_parsed hraw fun q _ hecho => ?_
  have hembed : app.BriefHandler n (fun a => CallbackEnd (app.messageBound n) (.ok a))
      (ofOauth (app.oauth.authCallback id q)) := by
    refine Under.embed (authCallback_brief hecho) (fun _ _ hr => hr) fun x hx => ?_
    match x, hx with
    | .ok _, ha => exact ha
    | .error (.err _), he => exact he
    | .error .panic, _ => trivial
  refine brief_bind hembed fun answer hanswer => ?_
  cases answer with
  | opened r => exact brief_ok _ _
  | providerError provider error description =>
      obtain ⟨hprovider, herror, hdescription⟩ := hanswer
      have hfixed := fixed_le_textBound app n
      refine fun _ => within_object (by simp) fun f hf => ?_
      simp only [List.mem_cons, List.not_mem_nil, or_false] at hf
      rcases hf with rfl | rfl | rfl | rfl
      · exact fieldFits_str (by decide) (fixed_le (by decide))
      · exact fieldFits_str (by decide) (by omega)
      · exact fieldFits_str (by decide) (by omega)
      · cases description with
        | none =>
            refine ⟨fixed_le (by decide), ?_⟩
            show 4 ≤ _
            omega
        | some d =>
            have hd := hdescription d rfl
            exact fieldFits_str (by decide) (by omega)

/-- The verdict on a token. -/
theorem brief_verdict (st : Nat) (r : ValidateResponse) :
    app.BriefHandler n (app.Brief n) (.ret ⟨st, .validate r, none⟩) := fun _ => .inl rfl

/-- The reply is short when what the route repeats is clipped. -/
theorem jwtRevoke_brief (hraw : ∀ s ∈ app.rawOf req .jwtRevoke, Clipped s) :
    app.BriefHandler n (app.Brief n) (app.jwtRevoke req) := by
  have hl := outside_le_messageBound app n
  refine brief_gate (fun e => adminAuth_error) hraw fun hraw => ?_
  refine brief_parsed hraw fun body _ _ => ?_
  refine brief_jwt (revoke_terse _ hl _ _) fun newly => ?_
  have hmsg : ∀ text : String, text.length ≤ 1000 →
      ∀ m ∈ some text, m.length ≤ app.messageBound n := by
    rintro text htext m ⟨⟩
    omega
  cases newly with
  | true => exact brief_status 200 (by decide) (hmsg _ (length_fixed (by decide)))
  | false => exact brief_status 409 (by decide) (hmsg _ (length_fixed (by decide)))

/-- The reply is short when what the route repeats is clipped. -/
theorem jwtValidateBoolean_brief
    (hraw : ∀ s ∈ app.rawOf req .jwtValidateBoolean, Clipped s) :
    app.BriefHandler n (app.Brief n) (app.jwtValidateBoolean req) := by
  have hl := outside_le_messageBound app n
  refine brief_parsed hraw fun body _ _ => brief_auth (fun e => check_error) fun _ => ?_
  refine brief_jwt (validate_terse _ hl _) fun r => fun _ => within_text ?_
  show String.length (if _ then _ else _) ≤ _
  split
  · exact fixed_le (by decide)
  · exact fixed_le (by decide)

/-- The missing cookie is the configured one, so its name is not a piece of the request. -/
theorem jwtUserinfoCompat_brief : app.BriefHandler n (app.Brief n) (app.jwtUserinfoCompat req) := by
  have hl := outside_le_messageBound app n
  refine brief_auth (fun e => check_error) fun _ => ?_
  split
  · refine brief_fail ?_
    show String.length _ ≤ _
    unfold messageBound
    simp only [String.length_append]
    have h1 : "cookie `".length = 8 := String.length_ofList
    have h2 : "` not present".length = 13 := String.length_ofList
    omega
  · refine brief_jwt (authenticateBearer_terse _ hl _) fun sub => ?_
    exact brief_jwt (validate_terse _ hl _) fun _ => brief_ok _ _

/-- The reply is short when what the route repeats is clipped. -/
theorem jwtCustomVerifyCompat_brief (hraw : ∀ s ∈ app.rawOf req .jwtCustomVerify, Clipped s) :
    app.BriefHandler n (app.Brief n) (app.jwtCustomVerifyCompat req) := by
  have hl := outside_le_messageBound app n
  have hfixed := fixed_le_textBound app n
  refine brief_parsed hraw fun body _ _ => brief_auth (fun e => check_error) fun _ => ?_
  dsimp only
  split
  · exact brief_fixed (length_fixed (by decide))
  · split
    -- This answer names a reason and not the cookie.
    · refine fun _ => within_object (by decide) fun f hf => ?_
      rcases List.mem_cons.mp hf with rfl | hf
      · refine ⟨fixed_le (by decide), ?_⟩
        show 5 ≤ _
        omega
      · cases List.mem_singleton.mp hf
        exact fieldFits_str (by decide) (fixed_le (by decide))
    · exact brief_jwt (validate_terse _ hl _) fun _ => brief_verdict _ _

/-- The reply is short when what the route repeats is clipped. -/
theorem jwtCustomUserinfoCompat_brief (hraw : ∀ s ∈ app.rawOf req .jwtCustomUserinfo, Clipped s) :
    app.BriefHandler n (app.Brief n) (app.jwtCustomUserinfoCompat req) := by
  have hl := outside_le_messageBound app n
  refine brief_parsed hraw fun body _ hraw => ?_
  refine brief_gate (fun e => check_error) hraw fun hecho => ?_
  dsimp only
  split
  · exact brief_fixed (length_fixed (by decide))
  · rename_i hsome
    split
    · rename_i habsent
      exact brief_fixed (cookieNotPresent_le (by simpa using hsome) habsent hecho)
    · refine brief_jwt (authenticateBearer_terse _ hl _) fun sub => ?_
      exact brief_jwt (validate_terse _ hl _) fun _ => brief_ok _ _

/-- The reply is short when what the route repeats is clipped: the name of the cookie, which is the
body. -/
theorem jwtCustomExtendCompat_brief (hraw : ∀ s ∈ app.rawOf req .jwtCustomExtend, Clipped s) :
    app.BriefHandler n (app.Brief n) (app.jwtCustomExtendCompat req) := by
  have hl := outside_le_messageBound app n
  refine brief_gate (fun e => adminAuth_error) hraw fun hraw => ?_
  refine brief_parsed hraw fun body _ hecho => ?_
  dsimp only
  split
  · exact brief_fixed (length_fixed (by decide))
  · rename_i hsome
    refine extendCookie_brief fun habsent => ?_
    exact Nat.le_trans (cookieNotPresent_le (by simpa using hsome) habsent hecho) (by omega)

/-- The name of the cookie is one of the configuration, so nothing has to be clipped. -/
theorem jwtExtendSessionCompat_brief :
    app.BriefHandler n (app.Brief n) (app.jwtExtendSessionCompat req) := by
  refine brief_auth (fun e => adminAuth_error) fun _ => extendCookie_brief fun _ => ?_
  unfold cookieNotPresent messageBound
  simp only [String.length_append]
  have h1 : "cookie `".length = 8 := String.length_ofList
  have h2 : "` not present on request".length = 24 := String.length_ofList
  omega

/-- The introspection repeats nothing of the request in an error. -/
theorem introspectDispatch_brief :
    app.BriefHandler n (app.Brief n) (app.introspectDispatch req) := by
  have hl := outside_le_messageBound app n
  refine brief_extract (fun r hr => ?_) fun bytes => ?_
  · unfold bodyBytes at hr
    split at hr <;> cases hr
    rfl
  · refine brief_auth (fun e => check_error) fun _ => ?_
    refine brief_try (fun e he => (introspectRequest_terse he).mono (by omega)) fun r => ?_
    exact brief_jwt (introspect_terse _ _) fun _ => brief_ok _ _

/-- Every route, by the lemma about its handler. -/
theorem handler_brief (e : Endpoint) (hraw : ∀ s ∈ app.rawOf req e, Clipped s) :
    app.BriefHandler n (app.Brief n) (app.handler req e) := by
  have hl := outside_le_messageBound app n
  cases e with
  | health | introspectTypes | authProviders => exact brief_ok _ _
  | jwtGenerate =>
      refine brief_gate (fun e => adminAuth_error) hraw fun hraw => ?_
      refine brief_parsed hraw fun body _ hecho => ?_
      exact brief_jwt (generate_brief hecho) fun _ => brief_ok _ _
  | jwtValidate =>
      refine brief_parsed hraw fun body _ _ => brief_auth (fun e => check_error) fun _ => ?_
      exact brief_jwt (validate_terse _ hl _) fun _ => brief_verdict _ _
  | jwtValidateBoolean => exact jwtValidateBoolean_brief hraw
  | jwtRevoke => exact jwtRevoke_brief hraw
  | jwtRevokeBulk => exact jwtRevokeBulk_brief hraw
  | jwtExtend =>
      refine brief_gate (fun e => adminAuth_error) hraw fun hraw => ?_
      refine brief_parsed hraw fun body _ _ => ?_
      exact brief_jwt (extend_terse _ hl _) fun _ => brief_ok _ _
  | jwtListMe =>
      -- A body that does not parse counts as none, so it is never shown.
      refine brief_auth (fun e => bearerToken_error) fun token => ?_
      refine brief_jwt (authenticateBearer_terse _ hl _) fun sub => ?_
      exact brief_jwt (listForSubject_terse _ _) fun _ => brief_ok _ _
  | jwks =>
      exact brief_jwt (terseJwt_call fun t _ => terseJwt_ret t) fun _ => brief_ok _ _
  | jwtVerificationKey =>
      refine brief_try (fun e he => ?_) fun _ => brief_ok _ _
      unfold publicPem at he
      split at he
      · cases he
      · cases he
        trivial
  | jwtUserinfo => exact jwtUserinfoCompat_brief
  | jwtCustomVerify => exact jwtCustomVerifyCompat_brief hraw
  | jwtCustomUserinfo => exact jwtCustomUserinfoCompat_brief hraw
  | jwtCustomExtend => exact jwtCustomExtendCompat_brief hraw
  | jwtExtendSession => exact jwtExtendSessionCompat_brief
  | jwtCustomBlacklist => exact jwtCustomBlacklistCompat_brief hraw
  | jwtBlacklist => exact jwtBlacklistCompat_brief hraw
  | introspect => exact introspectDispatch_brief
  | authProviderOne segment =>
      refine brief_extract (fun r hr => ?_) fun id => ?_
      · unfold pathId at hr
        split at hr <;> cases hr
        rfl
      · split
        · refine brief_fixed ?_
          exact Nat.le_trans (length_echo_le id (length_fixed (by decide))) (by decide)
        · exact brief_ok _ _
  | authLogin segment =>
      refine brief_parsed hraw fun id _ hraw => brief_parsed hraw fun uri _ hecho => ?_
      exact brief_oauth (authLogin_brief hecho) fun _ => brief_ok _ _
  | authCallback segment => exact authCallback_reply_brief hraw
  | authSessionValidate | authProfile => exact liveSession_brief fun _ => brief_ok _ _
  | authLogout =>
      refine brief_auth (fun e => sessionAuth_error) fun id => fun r hr => ?_
      cases r with
      | error e => exact (hr e rfl).mono (by omega)
      | ok existed => exact brief_ok _ _
  | authHealth =>
      exact brief_oauth (terseFlow_call fun t _ => terseFlow_ret t) fun _ => brief_ok _ _

/-! ### The router -/

/-- What `body_size_error_mapper` does keeps a reply within the bound. -/
theorem sizeMapped_brief {r : Reply K} (h : r.status ≠ 413 → app.Brief n r) :
    app.Brief n (app.sizeMapped r) := by
  unfold sizeMapped
  split
  · exact fun _ => payloadTooLarge_within
  · rename_i hstatus
    exact h hstatus

/-- A reply without its body is short. The method decides whether it has one. -/
theorem headless_brief {r : Reply K} (h : req.method ≠ .head → app.Brief n r) :
    app.Brief n (headless req r) := by
  unfold headless
  split
  · exact fun _ => within_empty
  · rename_i hmethod
    exact h hmethod

/-- The reply that a brief end of a handler becomes. -/
theorem haltReply_brief {h : Halt} {r : Reply K}
    (hend : BriefEnd (app.messageBound n) (app.Brief n) (.error h)) (hr : haltReply h = some r)
    (h413 : r.status ≠ 413) : app.Brief n r := by
  have hfixed := fixed_le_textBound app n
  cases h with
  | err e =>
      cases hr
      refine fun h4xx => intoResponse_within hend (fun hstatus => ?_) h4xx
      cases e with
      | payloadTooLarge max => exact h413 rfl
      | _ => cases hstatus
  | reject rej =>
      cases hr
      have hparse : ∀ s ∈ rej.parseError, s.length ≤ 257 := hend
      have htext : ∀ head s : String, head.length ≤ 700 → s.length ≤ 257 →
          (head ++ s).length ≤ app.textBound n := by
        intro head s hhead hs
        rw [String.length_append]
        omega
      cases rej with
      | missingJsonContentType =>
          exact fun _ => within_text (fixed_le (by decide))
      | lengthLimit => exact absurd rfl h413
      | pathUtf8 => exact fun _ => within_text (fixed_le (by decide))
      | jsonData err | jsonSyntax err | invalidUtf8 err | queryString err =>
          have herr := hparse err (List.mem_singleton_self err)
          exact fun _ => within_text (htext _ _ (length_fixed (by decide)) herr)
  | panic => cases hr

/-- The pieces behind the router, once the request has reached a handler that shows a body. -/
theorem reached_eq {e : Endpoint} {pieces : Endpoint → List String}
    (hsmall : app.declaresTooMuch req = false) (hpath : Endpoint.ofPath req.path = some e)
    (hallows : e.allows req.method = true) (hhead : req.method ≠ .head) :
    app.reached req pieces = pieces e := by
  unfold reached
  rw [hsmall, hpath]
  simp [hallows, hhead]

/-- The whole server: what is read before the routes are looked up gets fixed messages. -/
theorem serve_brief (hraw : ∀ s ∈ app.rawEchoes req, Clipped s) :
    (app.serve req).Under (S := webSig K) (TerseAnswer K n)
      (fun x => ∀ r, x = .ok r → app.Brief n r) := by
  unfold serve
  split
  · rintro r ⟨⟩
    exact headless_brief fun _ _ => payloadTooLarge_within
  · rename_i hsmall
    split
    · rintro r ⟨⟩
      exact fun _ => within_empty
    · rename_i e hpath
      split
      · rintro r ⟨⟩
        exact fun _ => within_empty
      · rename_i hallows
        -- Nothing is known of the handler's reply to `HEAD`, and its body is dropped.
        have hend : (app.handler req e).Under (S := webSig K) (TerseAnswer K n) (fun x =>
            req.method ≠ .head → BriefEnd (app.messageBound n) (app.Brief n) x) := by
          by_cases hhead : req.method = .head
          · exact (under_any _ _).mono fun _ _ hne => absurd hhead hne
          · refine (handler_brief e ?_).mono fun _ hx _ => hx
            rw [rawEchoes, reached_eq (by simpa using hsmall) hpath (by simpa using hallows) hhead]
              at hraw
            exact hraw
        refine Under.handle hend fun x hx => ?_
        cases x with
        | ok r =>
            rintro r' ⟨⟩
            exact headless_brief fun hmethod => sizeMapped_brief fun _ => hx hmethod
        | error h =>
            dsimp only [resume]
            split
            · rename_i r hr
              rintro r' ⟨⟩
              refine headless_brief fun hmethod => sizeMapped_brief fun hstatus => ?_
              exact haltReply_brief (hx hmethod) hr hstatus
            · rintro r ⟨⟩

/-! ### Every unclipped piece comes back -/

/-- The handler answers at once, with an error reply that shows the piece. -/
def Echoed (p : Handler K (Reply K)) (s : String) : Prop :=
  ∃ r : Reply K, r.isClientError = true ∧ r.status ≠ 413 ∧ r.body.Shows s
    ∧ (p = .ret r ∨ ∃ h, p = .raise h ∧ haltReply h = some r)

/-- A reply that shows the text echoes it, if it is an error of the client and not the one that the
mapper replaces. -/
theorem echoed_ret {r : Reply K} {s : String} (h4xx : r.isClientError = true)
    (h413 : r.status ≠ 413) (hshows : r.body.Shows s) : Echoed (.ret r) s :=
  ⟨r, h4xx, h413, hshows, .inl rfl⟩

/-- A text stands inside a longer one. -/
theorem sub_middle (a s b : String) : s.toList <:+: (a ++ s ++ b).toList :=
  ⟨a.toList, b.toList, by rw [String.toList_append, String.toList_append]⟩

/-- A text stands at the end of a longer one. -/
theorem sub_end (a s : String) : s.toList <:+: (a ++ s).toList :=
  ⟨a.toList, [], by rw [String.toList_append, List.append_nil]⟩

/-- A piece in the message of an error. -/
theorem echoed_fail {e : TimError} (st : Nat) {code head m s : String}
    (hreply : (intoResponse e : Reply K)
      = ⟨st, .object [("error", .str code), ("detail", .str (head ++ m))], none⟩)
    (h4xx : (400 ≤ st && st < 500) = true) (h413 : st ≠ 413) (hm : s.toList <:+: m.toList) :
    Echoed (Handler.fail e : Handler K _) s := by
  refine ⟨intoResponse e, ?_, ?_, ?_, .inr ⟨.err e, rfl, rfl⟩⟩
  · rw [hreply]
    exact h4xx
  · rw [hreply]
    exact h413
  · rw [hreply]
    refine ⟨head ++ m, by simp [Body.texts, Scalar.text], hm.trans ?_⟩
    exact sub_end head m

/-- What is repeated behind a gate needs a request that passes it. -/
theorem echoed_gate {gate : Except TimError Unit} {pieces : List String} {s : String}
    {f : Unit → Handler K (Reply K)} (hs : s ∈ behind gate pieces)
    (hf : gate = .ok () → s ∈ pieces → Echoed (f ()) s) : Echoed (try_ gate >>= f) s := by
  cases gate with
  | ok _ => exact hf rfl hs
  | error e => cases hs

/-- The parse error of an extractor is shown, as it is. -/
theorem echoed_parsed {α : Type} {x : Except Rejection α} {pieces : α → List String} {s : String}
    {f : α → Handler K (Reply K)} (hs : s ∈ parsed x pieces)
    (hf : ∀ a, x = .ok a → s ∈ pieces a → Echoed (f a) s) : Echoed (extract x >>= f) s := by
  cases x with
  | ok a => exact hf a rfl hs
  | error r =>
      have hshows : ∀ head t : String, s ∈ [t] →
          (Body.text (head ++ t) : Body K).Shows s := by
        intro head t ht
        cases List.mem_singleton.mp ht
        exact ⟨_, List.mem_singleton_self _, sub_end _ _⟩
      cases r with
      | jsonData err | jsonSyntax err | invalidUtf8 err | queryString err =>
          exact ⟨_, rfl, Nat.ne_of_beq_eq_false rfl, hshows _ err hs, .inr ⟨_, rfl, rfl⟩⟩
      | missingJsonContentType | lengthLimit | pathUtf8 => cases hs

/-- The refused audience is in the message of `generate`. -/
theorem audience_echoed {body : GenerateBody} {s : String}
    {f : TokenResponse K.toCrates → Handler K (Reply K)} (hs : s ∈ app.audienceEcho body) :
    Echoed (ofJwt (app.jwt.generate body.toGenerateRequest) >>= f) s := by
  unfold audienceEcho at hs
  split at hs
  · cases hs
  · rename_i hpass
    split at hs
    · rename_i henforced
      split at hs
      · rename_i a hfind
        cases List.mem_singleton.mp hs
        have hresolve : app.jwt.resolveAudience body.audience
            = .error (.unprocessable ("audience '" ++ s ++ "' not in allowed set")) := by
          unfold JwtService.resolveAudience
          dsimp only
          rw [if_pos henforced]
          erw [hfind]
        have hgenerate : app.jwt.generate body.toGenerateRequest
            = Action.fail (.unprocessable ("audience '" ++ s ++ "' not in allowed set")) := by
          unfold JwtService.generate
          rw [if_neg (by tauto), if_neg (by tauto), hresolve]
        rw [hgenerate]
        exact echoed_fail 422 rfl rfl (by decide) (sub_middle _ _ _)
      · cases hs
    · cases hs

/-- The refused redirect URI is in the message of the login. -/
theorem redirect_echoed {id : String} {uri : Option String} {s : String}
    {f : OAuth.AuthUrl → Handler K (Reply K)} (hs : s ∈ app.redirectEcho id uri) :
    Echoed (ofOauth (app.oauth.authLogin id uri) >>= f) s := by
  unfold redirectEcho at hs
  split at hs
  · rename_i p uri hknown
    split at hs
    · cases hs
    · rename_i hnot
      cases List.mem_singleton.mp hs
      have hlogin : app.oauth.authLogin id (some s) = OAuth.Flow.fail (.badRequest
          ("redirect_uri `" ++ s ++ "` is not on the provider's allow-list")) := by
        unfold OAuth.OAuthService.authLogin OAuth.OAuthService.resolveRedirectUri
        rw [hknown]
        simp only [hnot, Bool.not_false, ↓reduceIte]
      rw [hlogin]
      exact echoed_fail 400 rfl rfl (by decide) (sub_middle _ _ _)
  · cases hs

/-- The error of the IdP is in the reply to the callback. -/
theorem callback_echoed {id : String} {q : OAuth.CallbackQuery} {s : String}
    {f : OAuth.OAuthService.CallbackAnswer → Handler K (Reply K)}
    (hs : s ∈ app.callbackEcho id q) :
    Echoed (ofOauth (app.oauth.authCallback id q) >>= f) s := by
  unfold callbackEcho at hs
  split at hs
  · rename_i hpass
    obtain ⟨herror, hcode, hstate, hunknown⟩ := hpass
    cases List.mem_singleton.mp hs
    obtain ⟨code, hcode⟩ := Option.isSome_iff_exists.mp hcode
    obtain ⟨state, hstate⟩ := Option.isSome_iff_exists.mp hstate
    have hcallback : app.oauth.authCallback id q
        = OAuth.Flow.fail (.notFound ("unknown provider " ++ id)) := by
      unfold OAuth.OAuthService.authCallback OAuth.OAuthService.completeCallback
      rw [Option.isNone_iff_eq_none.mp herror, hcode, hstate,
        Option.isNone_iff_eq_none.mp hunknown]
      rfl
    rw [hcallback]
    exact echoed_fail 404 rfl rfl (by decide) (sub_end _ _)
  · cases hs

/-- The name of the missing cookie is in the message. -/
theorem cookieEcho_eq {body s : String} (hs : s ∈ cookieEcho req body) :
    (cookieNameOf body).isEmpty = false ∧ req.cookieValue (cookieNameOf body) = none
      ∧ s.toList <:+: (cookieNotPresent (cookieNameOf body)).toList := by
  unfold cookieEcho at hs
  split at hs
  · cases hs
  · rename_i hpass
    cases List.mem_singleton.mp hs
    simp only [not_or, Bool.not_eq_true, Option.isSome_eq_false_iff, Option.isNone_iff_eq_none]
      at hpass
    exact ⟨hpass.1, hpass.2, sub_middle _ _ _⟩

/-- The request is a bulk revocation that is carried out, and the piece is one of its tokens. -/
def BulkCarried (app : AppState K) (req : HttpRequest) (e : Endpoint) (s : String) : Prop :=
  e = .jwtRevokeBulk ∧ app.admin.adminAuth req = .ok () ∧ ∃ body,
    jsonBody K (bulkRevokeBody K) app.maxRequestBytes req = .ok body ∧ body.tokens ≠ []
      ∧ body.tokens.length ≤ app.jwt.cfg.bulkRevokeMax ∧ s ∈ body.tokens.map K.tokenText

/-- An unclipped piece is shown at once, unless it is a token of a bulk revocation. -/
theorem raw_echoed {e : Endpoint} {s : String} (hs : s ∈ app.rawOf req e) :
    Echoed (app.handler req e) s ∨ app.BulkCarried req e s := by
  cases e with
  | jwtGenerate =>
      refine .inl (echoed_gate hs fun _ hs => echoed_parsed hs fun body _ hs => ?_)
      exact audience_echoed hs
  | jwtValidate | jwtValidateBoolean | jwtCustomVerify =>
      exact .inl (echoed_parsed hs fun _ _ hs => by cases hs)
  | jwtRevoke | jwtExtend | jwtBlacklist =>
      exact .inl (echoed_gate hs fun _ hs => echoed_parsed hs fun _ _ hs => by cases hs)
  | jwtRevokeBulk =>
      by_cases hcarried : app.BulkCarried req .jwtRevokeBulk s
      · exact .inr hcarried
      · refine .inl (echoed_gate hs fun hadmin hs => ?_)
        refine echoed_parsed hs fun body hbody hs => absurd ?_ hcarried
        unfold bulkEcho at hs
        split at hs
        · cases hs
        · rename_i hpass
          simp only [not_or, List.isEmpty_iff, Nat.not_lt] at hpass
          exact ⟨rfl, hadmin, body, hbody, hpass.1, hpass.2, hs⟩
  | jwtCustomUserinfo =>
      refine .inl (echoed_parsed hs fun body _ hs => echoed_gate hs fun _ hs => ?_)
      obtain ⟨hsome, habsent, hsub⟩ := cookieEcho_eq hs
      dsimp only
      rw [hsome, habsent]
      exact echoed_fail 400 rfl rfl (by decide) hsub
  | jwtCustomExtend =>
      refine .inl (echoed_gate hs fun _ hs => echoed_parsed hs fun body _ hs => ?_)
      obtain ⟨hsome, habsent, hsub⟩ := cookieEcho_eq hs
      dsimp only
      unfold extendCookie
      rw [hsome, habsent]
      exact echoed_fail 400 rfl rfl (by decide) hsub
  | jwtCustomBlacklist =>
      refine .inl (echoed_gate hs fun _ hs => echoed_parsed hs fun body _ hs => ?_)
      obtain ⟨hsome, habsent, hsub⟩ := cookieEcho_eq hs
      dsimp only
      rw [hsome, habsent]
      refine echoed_ret rfl (Nat.ne_of_beq_eq_false rfl) ⟨_, ?_, hsub⟩
      simp [statusBody, Body.texts, Scalar.text]
  | authLogin segment =>
      refine .inl (echoed_parsed hs fun id _ hs => echoed_parsed hs fun uri _ hs => ?_)
      exact redirect_echoed hs
  | authCallback segment =>
      refine .inl (echoed_parsed hs fun id _ hs => echoed_parsed hs fun q _ hs => ?_)
      exact callback_echoed hs
  | _ => cases hs

/-- A handler that answers at once gives the reply of the router. -/
theorem serve_echoed {e : Endpoint} {s : String} (hsmall : app.declaresTooMuch req = false)
    (hpath : Endpoint.ofPath req.path = some e) (hallows : e.allows req.method = true)
    (hhead : req.method ≠ .head) (hecho : Echoed (app.handler req e) s)
    (env : Nat → (o : WebOp) → WebResp K o) :
    ∃ reply, (app.serve req).run (S := webSig K) env = .ok reply ∧ reply.isClientError = true
      ∧ reply.body.Shows s := by
  obtain ⟨r, h4xx, h413, hshows, hhandler⟩ := hecho
  have hsame : headless req (app.sizeMapped r) = r := by
    unfold headless sizeMapped
    rw [if_neg hhead, if_neg h413]
  refine ⟨r, ?_, h4xx, hshows⟩
  unfold serve
  rw [hsmall, hpath]
  simp only [Bool.false_eq_true, ↓reduceIte, hallows, Bool.not_true]
  rcases hhandler with hhandler | ⟨h, hhandler, hreply⟩
  · rw [hhandler]
    exact congrArg Except.ok hsame
  · rw [hhandler, handle_raise, hreply]
    exact congrArg Except.ok hsame

/-- The answers of an outage have empty texts, so that everything long in a reply is from the
request. -/
theorem outage_terse (at_ : DateTime) (o : WebOp) : TerseAnswer K 0 o (outage K at_ "" o) := by
  cases o with
  | jwt o =>
      cases o with
      | sign =>
          rintro e ⟨⟩
          trivial
      | insertDenylist =>
          rintro e ⟨⟩
          exact length_fixed (by decide)
      | _ => trivial
  | oauth o =>
      cases o with
      | discoveryGet => rintro doc ⟨⟩
      | httpGet => rintro resp doc ⟨⟩
      | createSession =>
          rintro e ⟨⟩
          trivial
      | _ => trivial
  | sessionGet | sessionTouch | sessionRevoke =>
      rintro e ⟨⟩
      trivial

/-- Every unclipped piece is shown in some 4xx reply. -/
theorem exists_shown {s : String} (at_ : DateTime) (hs : s ∈ app.rawEchoes req) :
    ∃ reply, (app.serve req).run (S := webSig K) (fun _ => outage K at_ "") = .ok reply
      ∧ reply.isClientError = true ∧ reply.body.Shows s := by
  unfold rawEchoes reached at hs
  split at hs
  · cases hs
  · rename_i hsmall
    split at hs
    · cases hs
    · rename_i e hpath
      split at hs
      · rename_i hallowed
        simp only [Bool.and_eq_true, decide_eq_true_eq] at hallowed
        obtain ⟨hallows, hhead⟩ := hallowed
        have hsmall : app.declaresTooMuch req = false := by simpa using hsmall
        rcases raw_echoed hs with hecho | hbulk
        · exact serve_echoed hsmall hpath hallows hhead hecho _
        · -- The tokens of a bulk revocation come back when every one of them fails.
          obtain ⟨rfl, hadmin, body, hbody, hne, hlen, htoken⟩ := hbulk
          have hpost : req.method = .post := by
            simpa [Endpoint.allows, Endpoint.isPost] using hallows
          refine ⟨_, serve_outage hsmall hpath hpost hadmin hbody hne hlen at_ "", rfl, s, ?_,
            List.infix_refl _⟩
          obtain ⟨tok, htok, rfl⟩ := List.mem_map.mp htoken
          refine List.mem_flatMap.mpr ⟨failedItem app.jwt at_ "" tok, List.mem_map_of_mem htok, ?_⟩
          simp [itemFields, failedItem, Scalar.text]
      · cases hs

/-- What the clipped exits repeat is clipped. -/
theorem clipped_of_reached {s : String} (hs : s ∈ app.reached req (clippedOf (K := K) req)) :
    Clipped s := by
  unfold reached at hs
  split at hs
  · cases hs
  · split at hs
    · cases hs
    · split at hs
      · obtain ⟨t, -, rfl⟩ := List.mem_map.mp hs
        exact ⟨t, rfl⟩
      · cases hs

/-- If all replies are within the bound, then everything that the raw exits repeat is clipped: each
such text reaches a reply. -/
theorem EchoesBounded.clipped (h : app.EchoesBounded req) {s : String}
    (hs : s ∈ app.rawEchoes req) : Clipped s := by
  obtain ⟨reply, hrun, h4xx, hshows⟩ := exists_shown ⟨0, by decide, by decide⟩ hs
  have hreply := h 0 _ (fun _ => outage_terse _) reply hrun h4xx
  exact hreply.1 s (List.mem_append_left _ hs) hshows

end AppState

namespace Sample

/-- An id of 260 characters. -/
def longId : String := String.ofList (List.replicate 260 'a')

/-- A callback for a provider of that id. -/
def longCallback : HttpRequest :=
  { request .get ["auth", "callback", longId] [] "" with query := asBytes "code=c&state=s" }

/-- The same callback for any provider. -/
def callbackOf (id : String) : HttpRequest :=
  { request .get ["auth", "callback", id] [] "" with query := asBytes "code=c&state=s" }

/-- The id of an unknown provider is one of the pieces that come back as they are. -/
theorem unknown_echoed {id : String}
    (hpath : Endpoint.ofPath (callbackOf id).path = some (.authCallback id)) (h : id ≠ "idp") :
    id ∈ app.rawEchoes (callbackOf id) := by
  have hsmall : app.declaresTooMuch (callbackOf id) = false := rfl
  have hquery : ((crates.urlencoded callbackQuery (asBytes "code=c&state=s")).toOption.any fun q =>
      q.error.isNone && q.code.isSome && q.state.isSome) = true := by decide +kernel
  unfold AppState.rawEchoes AppState.reached
  rw [hsmall, hpath]
  show id ∈ parsed (queryOf crates callbackQuery (callbackOf id)) (app.callbackEcho id)
  unfold queryOf
  rw [show (callbackOf id).query = asBytes "code=c&state=s" from rfl]
  have hnone : app.oauth.providers[id]? = none := by
    rw [show app.oauth.providers = .ofList [("idp", OAuth.Sample.provider 100)] from rfl,
      Std.ExtTreeMap.getElem?_ofList_of_contains_eq_false (by simpa using h)]
  cases hq : crates.urlencoded callbackQuery (asBytes "code=c&state=s") with
  | error e =>
      rw [hq] at hquery
      cases hquery
  | ok q =>
      rw [hq] at hquery
      simp only [Except.toOption, Option.any_some, Bool.and_eq_true] at hquery
      simp [parsed, AppState.callbackEcho, hnone, hquery]

end Sample

end Tim.Web
