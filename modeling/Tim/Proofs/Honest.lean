import Tim.Lib.Later
import Tim.Proofs.Outbound

/-!
# `Tim.Proofs.Honest`: a login with an honest provider completes

`Idp` is what an identity provider serves: its discovery document, its key set and its answer to a
token request. `login_completes` says that a login at a provider that serves these consistently
ends in a session for the subject of the ID token, in every run: whatever other logins, callbacks
and sweeps run between, and whatever they have left in the caches.

* `completeCallback_under` is the callback call by call, under answers that are `Smooth`.
* `row_stays` says why the row of the login is still there when the callback deletes it.
* `smooth` says why the caches hand out nothing but what the provider has published.
* `exists_deletes`: a finished callback of the visit has tried to delete the row, in time.
* `Visit.found`: the row is still there when it does.
-/

set_option autoImplicit false

namespace Tim.OAuth

open Tim.Lib OAuthService

/-! ### The provider -/

/-- The response has a body that parses to `v`. -/
def Answers {C : Type} (K : OAuthCrates) (de : Payload → Option C) (v : C)
    (r : Except SendError HttpResponse) : Prop :=
  ∃ resp, r = .ok resp ∧ resp.isSuccess = true ∧ json K de resp = .ok v

/-- What an identity provider serves for one login, and what its ID token says. -/
structure Idp (K : OAuthCrates) where
  document : Discovery
  keys : List Value
  tokens : TokenResponse
  idToken : String
  header : Header
  key : Jwk
  decoding : K.DecodingKey
  claims : IdTokenClaims

section Idp

variable {K : OAuthCrates} (idp : Idp K) (svc : OAuthService K) (provider : Provider)

/-- The parts fit together, and the service is configured for them. -/
structure Idp.Sound (nonce : String) : Prop where
  accepted : idp.document.validateWith provider.config.allowHttpDiscovery = .ok ()
  pinned : enforceJwksPin provider idp.document = .ok ()
  idToken : idp.tokens.idToken = some idp.idToken
  header : K.decodeHeader (K.compact idp.idToken) = .ok idp.header
  asymmetric : ¬ (idp.header.alg = .hs256 ∨ idp.header.alg = .hs384 ∨ idp.header.alg = .hs512)
  key : selectKey (intoJwkSet K idp.keys) idp.header = .ok idp.key
  decoding : decodingKeyFor K idp.key = .ok idp.decoding
  audience : idp.claims.aud.contains provider.clientId = true
  nonce : idp.claims.nonce = some nonce

/-- The ID token is in force at this instant, and a session that starts now has an end. -/
structure Idp.InForce (t : DateTime) : Prop where
  decoded : K.decode IdTokenClaims.deserialize (K.compact idp.idToken) idp.decoding
    (idTokenValidation provider idp.document idp.header.alg) t.timestamp = .ok idp.claims
  issued : ¬ t.timestamp + provider.config.tokenValidation.clockSkewSeconds.toInt64 < idp.claims.iat
  ends : ((Duration.trySeconds (svc.effectiveSeconds idp.tokens.expiresIn).toInt).bind
    t.checkedAdd).isSome = true

/-- The provider serves its document and its key set. -/
def Idp.Serves : (o : Op) → Resp o → Prop
  | .httpGet url, r =>
      (url = provider.config.discoveryUrl → Answers K Discovery.deserialize idp.document r)
        ∧ (url = idp.document.jwksUri → Answers K jwksBody idp.keys r)
  | _, _ => True

/-- The provider answers the token request, the ID token is in force, and nothing of the service's
own fails. -/
def Idp.Honours : (o : Op) → Resp o → Prop
  | .now, t => idp.InForce svc provider t
  | .buildClient, r => r = .ok ()
  | .httpPost .., r => Answers K TokenResponse.deserialize idp.tokens r
  | .deleteState .., r => ∀ e, r ≠ .error e
  | .createSession _, r => r = .ok ()
  | _, _ => True

/-- The answers with which a callback goes through. The sessions that it creates are `made`. -/
def Idp.Smooth (nonce : String) (made : Session → Prop) : (o : Op) → Resp o → Prop
  | .discoveryGet url, r =>
      url = provider.config.discoveryUrl → ∀ doc, r = some doc → doc = idp.document
  | .jwksGet uri, r =>
      uri = idp.document.jwksUri → ∀ set, r = some set → set = intoJwkSet K idp.keys
  | .deleteState .., r => ∃ row : Returned, r = .ok (some row) ∧ row.nonce = nonce
  | .httpGet url, r => idp.Serves provider (.httpGet url) r
  | .now, t => idp.InForce svc provider t
  | .buildClient, r => r = .ok ()
  | .httpPost .., r => Answers K TokenResponse.deserialize idp.tokens r
  | .createSession session, r => r = .ok () ∧ made session
  | _, _ => True

/-- The answer about a session of the ID token's subject. -/
def Idp.Opens (providerId : String) (made : Session → Prop) (r : CallbackResult) : Prop :=
  ∃ session : Session, r = resultOf session ∧ made session ∧ session.providerId = providerId
    ∧ session.userId = idp.claims.sub

end Idp

/-! ### The callback -/

namespace OAuthService

variable {K : OAuthCrates} {svc : OAuthService K} {idp : Idp K} {provider : Provider}
  {nonce : String} {made : Session → Prop}

/-- Nothing is blocked when the offline mode is off. -/
theorem blockIfOffline_of_online (hoff : svc.offline = false) (url : String) :
    svc.blockIfOffline url = none := by
  simp [blockIfOffline, hoff]

/-- One attempt gets the document of the honest provider. -/
theorem fetchOnce_under (hoff : svc.offline = false) :
    (svc.fetchOnce provider.config.discoveryUrl).Under (idp.Smooth svc provider nonce made)
      (fun x => x = .ok idp.document) := by
  unfold fetchOnce
  rw [blockIfOffline_of_online hoff]
  refine Prog.Under.call_bind fun r hr => ?_
  obtain ⟨resp, rfl, hsuccess, hjson⟩ := hr.1 rfl
  simp only [hsuccess, hjson, Bool.not_true, Bool.false_eq_true, if_false]
  exact rfl

/-- The first attempt gets the document. -/
theorem fetchAttempts_under (hoff : svc.offline = false) (hsound : idp.Sound provider nonce)
    (retries delayMs : Nat) :
    (svc.fetchAttempts provider.config.discoveryUrl provider.config.allowHttpDiscovery retries
      delayMs).Under (idp.Smooth svc provider nonce made) (fun x => x = .ok idp.document) := by
  have hattempt : (Flow.attempt (svc.fetchOnce provider.config.discoveryUrl)).Under
      (idp.Smooth svc provider nonce made) (fun x => x = .ok (.ok idp.document)) := by
    refine (fetchOnce_under hoff).handle fun x hx => ?_
    subst hx
    exact rfl
  have haccept : (acceptDocument provider.config.discoveryUrl provider.config.allowHttpDiscovery
      idp.document).Under (idp.Smooth svc provider nonce made) (fun x => x = .ok idp.document) := by
    unfold acceptDocument
    rw [hsound.accepted]
    exact fun r _ => rfl
  cases retries with
  | zero =>
      rw [fetchAttempts]
      refine hattempt.bind (fun a ha => ?_) (fun e he => by cases he)
      cases ha
      exact haccept
  | succ retries =>
      rw [fetchAttempts]
      refine hattempt.bind (fun a ha => ?_) (fun e he => by cases he)
      cases ha
      exact haccept

/-- A discovery gets the document of the honest provider, from the cache or by its first attempt. -/
theorem fetchWith_under (hoff : svc.offline = false) (hsound : idp.Sound provider nonce) :
    (svc.fetchWith provider.config.discoveryUrl provider.config.allowHttpDiscovery).Under
      (idp.Smooth svc provider nonce made) (fun x => x = .ok idp.document) := by
  unfold fetchWith
  refine Prog.Under.call_bind fun r hr => ?_
  cases r with
  | some doc =>
      show Except.ok doc = Except.ok idp.document
      rw [hr rfl doc rfl]
  | none => exact fetchAttempts_under hoff hsound 3 500

/-- A key fetch gets the key set of the honest provider. -/
theorem fetchJwks_under (hoff : svc.offline = false) :
    (svc.fetchJwks idp.document.jwksUri).Under (idp.Smooth svc provider nonce made)
      (fun x => x = .ok (intoJwkSet K idp.keys)) := by
  have hload : (svc.loadJwks idp.document.jwksUri).Under (idp.Smooth svc provider nonce made)
      (fun x => x = .ok (intoJwkSet K idp.keys)) := by
    unfold loadJwks
    rw [blockIfOffline_of_online hoff]
    refine Prog.Under.call_bind fun r hr => ?_
    obtain ⟨resp, rfl, hsuccess, hjson⟩ := hr.2 rfl
    simp only [hsuccess, hjson, Bool.not_true, Bool.false_eq_true, if_false]
    exact rfl
  unfold fetchJwks
  refine Prog.Under.call_bind fun r hr => ?_
  cases r with
  | some set =>
      show Except.ok set = Except.ok (intoJwkSet K idp.keys)
      rw [hr rfl set rfl]
  | none =>
      refine hload.bind (fun set hset => ?_) (fun e he => by cases he)
      cases hset
      exact fun r _ => rfl

/-- The ID token passes every check. -/
theorem verify_under (hoff : svc.offline = false) (hsound : idp.Sound provider nonce) :
    (svc.verify idp.document provider idp.idToken nonce).Under (idp.Smooth svc provider nonce made)
      (fun x => x = .ok idp.claims) := by
  unfold verify
  simp only [hsound.header, if_neg hsound.asymmetric]
  refine (fetchJwks_under hoff).bind (fun set hset => ?_) (fun e he => by cases he)
  cases hset
  rw [hsound.key]
  show Prog.Under _ _ (Flow.try_ (decodingKeyFor K idp.key) >>= _)
  rw [hsound.decoding]
  show Prog.Under _ _ (Flow.call Op.now >>= _)
  refine Prog.Under.call_bind fun at_ hat => ?_
  simp only [hat.decoded, hsound.audience, Bool.not_true, Bool.false_eq_true, if_false]
  refine Prog.Under.call_bind fun now hnow => ?_
  simp only [if_neg hnow.issued, hsound.nonce]
  have hsame : constantTimeEq (asBytes nonce) (asBytes nonce) = true := by
    simp [constantTimeEq]
  simp only [hsame, Bool.not_true, Bool.false_eq_true, if_false]
  exact rfl

/-- The token request gets the tokens of the honest provider. -/
theorem exchange_under (hoff : svc.offline = false) (endpoint : String)
    (form : List (String × String)) :
    (svc.exchange provider endpoint form).Under (idp.Smooth svc provider nonce made)
      (fun x => x = .ok idp.tokens) := by
  unfold exchange
  rw [blockIfOffline_of_online hoff]
  refine Prog.Under.call_bind fun r hr => ?_
  obtain ⟨resp, rfl, hsuccess, hjson⟩ := hr
  simp only [hsuccess, hjson, Bool.not_true, Bool.false_eq_true, if_false]
  exact rfl

/-- A session is opened with what the provider has said about the user. -/
theorem openSession_under (providerId : String) :
    (svc.openSession providerId provider idp.tokens idp.claims).Under
      (idp.Smooth svc provider nonce made)
      (fun x => ∃ r, x = .ok r ∧ idp.Opens providerId made r) := by
  rw [openSession_eq]
  intro now hnow
  obtain ⟨expiresAt, hends⟩ := Option.isSome_iff_exists.mp hnow.ends
  simp only [hends]
  intro bytes _ r hr
  obtain ⟨rfl, hmade⟩ := hr
  exact ⟨_, rfl, _, rfl, hmade, rfl, rfl⟩

/-- A callback with its row gets through: every answer on the way is one that the checks accept. -/
theorem redeem_under (hoff : svc.offline = false) (hsound : idp.Sound provider nonce)
    (providerId code : String) {row : Returned} (hrow : row.nonce = nonce) :
    (svc.redeem providerId provider code row).Under (idp.Smooth svc provider nonce made)
      (fun x => ∃ r, x = .ok r ∧ idp.Opens providerId made r) := by
  unfold redeem
  refine (fetchWith_under hoff hsound).bind (fun doc hdoc => ?_) (fun e he => by cases he)
  cases hdoc
  rw [hsound.pinned]
  intro client hclient
  subst hclient
  refine (exchange_under hoff _ _).bind (fun tokens htokens => ?_) (fun e he => by cases he)
  cases htokens
  simp only [hsound.idToken, hrow]
  refine (verify_under hoff hsound).bind (fun claims hclaims => ?_) (fun e he => by cases he)
  cases hclaims
  exact openSession_under providerId

/-- A callback whose row is still there opens a session. -/
theorem completeCallback_under (hoff : svc.offline = false) {providerId : String}
    (hp : svc.providers[providerId]? = some provider) (hsound : idp.Sound provider nonce)
    (code state : String) :
    (svc.completeCallback providerId code state).Under (idp.Smooth svc provider nonce made)
      (fun x => ∃ r, x = .ok r ∧ idp.Opens providerId made r) := by
  unfold completeCallback
  rw [hp]
  refine Prog.Under.call_bind fun r hr => ?_
  obtain ⟨row, rfl, hrow⟩ := hr
  exact redeem_under hoff hsound providerId code hrow

/-- The result of a callback, in the response of its request. -/
def opened : Response → Option CallbackResult
  | .callback r => some r
  | .callbackAnswer (.opened r) => some r
  | _ => none

/-- The same for a request to the flow. -/
theorem program_under (hoff : svc.offline = false) {req : Request}
    {providerId code state : String} (hreq : req.callback = some (providerId, code, state))
    (hp : svc.providers[providerId]? = some provider) (hsound : idp.Sound provider nonce) :
    (svc.program req).Under (idp.Smooth svc provider nonce made)
      (fun x => ∃ resp r, x = .ok resp ∧ opened resp = some r ∧ idp.Opens providerId made r) := by
  have hcallback : (svc.completeCallback providerId code state).Under
      (idp.Smooth svc provider nonce made)
      (fun x => ∃ r, x = .ok r ∧ idp.Opens providerId made r) :=
    completeCallback_under hoff hp hsound code state
  cases req with
  | completeCallback id code' state' =>
      cases hreq
      refine hcallback.bind (fun r hr => ?_) (fun e he => ?_)
      · obtain ⟨r', heq, hopens⟩ := hr
        cases heq
        exact ⟨_, r, rfl, rfl, hopens⟩
      · obtain ⟨_, he, -⟩ := he
        cases he
  | authCallback id q =>
      obtain ⟨hid, herror, hcode, hstate⟩ : id = providerId ∧ q.error = none
          ∧ q.code = some code ∧ q.state = some state := by
        obtain ⟨code', state', error, description⟩ := q
        cases error <;> cases code' <;> cases state' <;> cases hreq
        exact ⟨rfl, rfl, rfl, rfl⟩
      subst hid
      show ((svc.authCallback id q) >>= fun r => pure (Response.callbackAnswer r)).Under _ _
      unfold authCallback
      simp only [herror, hcode, hstate]
      rw [Prog.bind_assoc]
      refine hcallback.bind (fun r hr => ?_) (fun e he => ?_)
      · obtain ⟨r', heq, hopens⟩ := hr
        cases heq
        exact ⟨_, r, rfl, rfl, hopens⟩
      · obtain ⟨_, he, -⟩ := he
        cases he
  | _ => cases hreq

/-- The row that a login has inserted for the URL it returns. -/
def StoredFor (h : List (Event oauthSig)) (r : AuthUrl) : Prop :=
  ∃ row : NewState, ⟨Op.insertState row, Except.ok ()⟩ ∈ h ∧ row.state = r.state
    ∧ row.providerId = r.provider

/-- A login returns a URL after its row was stored, with the state of the URL. -/
theorem buildLoginUrl_stores (providerId redirectUri : String) (h : List (Event oauthSig)) :
    (svc.buildLoginUrl providerId redirectUri).Spec (fun _ _ => True)
      (fun h x => ∀ r, x = .ok r → StoredFor h r) h := by
  unfold buildLoginUrl
  split
  · intro r hr
    cases hr
  · refine spec_seq ((Prog.meets_any _).spec h) (fun h₁ doc _ => ?_) fun h₁ e _ r hr => by cases hr
    refine spec_try_bind.mpr ⟨fun _ _ => ?_, fun e _ r hr => by cases hr⟩
    refine spec_randomHex_bind trivial fun state => ?_
    refine spec_randomHex_bind trivial fun nonce => ?_
    refine spec_call_bind.mpr ⟨trivial, fun raw => ?_⟩
    refine spec_call_bind.mpr ⟨trivial, fun inserted => ?_⟩
    refine spec_sql_bind.mpr ⟨fun _ hok => ?_, fun e _ r hr => by cases hr⟩
    subst hok
    split
    · intro r hr
      cases hr
    · intro r hr
      cases hr
      exact ⟨_, List.mem_append_right _ List.mem_cons_self, rfl, rfl⟩

/-- The same for a request to the flow, whichever of the two kinds of login it is. -/
theorem login_stores (req : Request) :
    (svc.program req).Spec (fun _ _ => True)
      (fun h x => ∀ r, x = .ok (.authUrl r) → StoredFor h r) [] := by
  -- The response of another request is no authorization URL.
  have hother : ∀ {α : Type} (p : Flow α) (f : α → Response), (∀ a r, f a ≠ .authUrl r) →
      (p >>= fun a => pure (f a)).Spec (fun _ _ => True)
        (fun h x => ∀ r, x = .ok (.authUrl r) → StoredFor h r) [] := by
    intro α p f hf
    refine spec_seq ((Prog.meets_any p).spec []) ?_ fun h e _ r hr => by cases hr
    intro h a _ r hr
    exact absurd (Except.ok.inj hr) (hf a r)
  cases req with
  | buildLoginUrl providerId redirectUri =>
      refine spec_seq (buildLoginUrl_stores providerId redirectUri []) ?_
        fun h e _ r hr => by cases hr
      intro h a ha r hr
      cases hr
      exact ha a rfl
  | authLogin id redirectUri =>
      show (svc.authLogin id redirectUri >>= fun r => pure (Response.authUrl r)).Spec _ _ []
      unfold authLogin
      split
      · intro r hr
        cases hr
      · split
        · intro r hr
          cases hr
        · rename_i uri _
          refine spec_seq (buildLoginUrl_stores id uri []) ?_ fun h e _ r hr => by cases hr
          intro h a ha r hr
          cases hr
          exact ha a rfl
  | _ => exact hother _ _ (fun a r h => by cases h)

end OAuthService

section Runs

variable {K : OAuthCrates} {store : SessionStore} {discoveryTtl jwksTtl : Nat}
  {svc : OAuthService K}
  {P : FlowPool store discoveryTtl jwksTtl → FlowLabel store discoveryTtl jwksTtl → Prop}
  {s₀ : State store} {c₀ c₁ c₂ c : FlowPool store discoveryTtl jwksTtl}

/-! ### The row of a login -/

/-- A login that began at `since` is overdue: its row is older than the maximum age. -/
def Overdue (svc : OAuthService K) (since now : DateTime) : Prop :=
  since.toTimestamptz.ns + svc.maxAge.toInt * nanosPerSecond ≤ now.toTimestamptz.ns

/-- The row is in the table, or the login is overdue, or a callback has taken the row. -/
def Kept (svc : OAuthService K) (since : DateTime) (row : NewState) (s : State store)
    (hist : List (Nat × Event oauthSig)) : Prop :=
  (∃ r, s.states[row.state]? = some r ∧ r.toNewState = row
      ∧ since.toTimestamptz.ns ≤ r.createdAt.ns)
    ∨ Overdue svc since s.clock
    ∨ ∃ tid found, (tid, (⟨Op.deleteState row.state row.providerId svc.maxAge,
        Except.ok (some found)⟩ : Event oauthSig)) ∈ hist

/-- The rounding of the database keeps the order of instants. -/
theorem toTimestamptz_mono {t t' : DateTime} (h : t ≤ t') :
    t.toTimestamptz.ns ≤ t'.toTimestamptz.ns := by
  have hle : t.ns ≤ t'.ns := h
  show t.ns / 1000 * 1000 ≤ t'.ns / 1000 * 1000
  omega

/-- A login that is overdue stays overdue. -/
theorem Overdue.later {since t t' : DateTime} (h : Overdue svc since t) (hle : t ≤ t') :
    Overdue svc since t' :=
  Int.le_trans h (toTimestamptz_mono hle)

/-- No call takes the row away but the `DELETE` of a callback, and a sweep of an overdue one. -/
theorem Kept.call {since : DateTime} {row : NewState} {s s' : State store}
    {hist : List (Nat × Event oauthSig)} (hkept : Kept svc since row s hist) {req : Request}
    {tid : Nat} {o : Op} {r : Resp o} (hcall : svc.Call req (eventsOf hist tid) o)
    (heff : State.Effect discoveryTtl jwksTtl tid s o r s') :
    Kept svc since row s' (hist ++ [(tid, ⟨o, r⟩)]) := by
  rcases hkept with ⟨old, hold, hsame, hsince⟩ | hdue | ⟨tid', found, hmem⟩
  · -- The row is there before the call.
    have hframe : s'.states = s.states → Kept svc since row s' (hist ++ [(tid, ⟨o, r⟩)]) := by
      intro hstates
      refine .inl ⟨old, ?_, hsame, hsince⟩
      rw [hstates]
      exact hold
    cases heff with
    | inserted new hfree =>
        refine .inl ⟨old, ?_, hsame, hsince⟩
        show (s.states.insert new.state _)[row.state]? = some old
        rw [Std.ExtTreeMap.getElem?_insert, if_neg]
        · exact hold
        · intro heq
          rw [Std.LawfulEqCmp.eq_of_compare heq] at hfree
          rw [hfree] at hold
          cases hold
    | consumed state providerId maxAge taken htaken hprovider hyoung =>
        obtain ⟨-, rfl, -⟩ := hcall
        by_cases heq : state = row.state
        · subst heq
          rw [hold] at htaken
          cases htaken
          have hid : row.providerId = providerId := by
            rw [← hsame]
            exact hprovider
          refine .inr (.inr ⟨tid, old.returned, ?_⟩)
          rw [hid]
          exact List.mem_append_right _ List.mem_cons_self
        · refine .inl ⟨old, ?_, hsame, hsince⟩
          show (s.states.erase state)[row.state]? = some old
          rw [Std.ExtTreeMap.getElem?_erase, if_neg]
          · exact hold
          · exact fun h => heq (Std.LawfulEqCmp.eq_of_compare h)
    | swept maxAge =>
        obtain ⟨-, rfl⟩ := hcall
        by_cases hage : old.olderThan svc.maxAge s.clock = true
        · -- Swept, and so too old.
          have hlt : old.createdAt.ns
              < s.clock.toTimestamptz.ns - svc.maxAge.toInt * nanosPerSecond :=
            of_decide_eq_true hage
          refine .inr (.inl ?_)
          show since.toTimestamptz.ns + svc.maxAge.toInt * nanosPerSecond
            ≤ s.clock.toTimestamptz.ns
          omega
        · refine .inl ⟨old, ?_, hsame, hsince⟩
          simp only [State.sweepState]
          rw [Std.ExtTreeMap.getElem?_filter', hold]
          simp [hage]
    | _ => exact hframe rfl
  · refine .inr (.inl ?_)
    rw [heff.clock_eq]
    exact hdue
  · exact .inr (.inr ⟨tid', found, List.mem_append_left _ hmem⟩)

/-- What happens outside the requests leaves the table as it is. -/
theorem Kept.env {since : DateTime} {row : NewState} {s s' : State store}
    {hist : List (Nat × Event oauthSig)} (hkept : Kept svc since row s hist)
    (henv : EnvStep s s') : Kept svc since row s' hist := by
  rcases hkept with hthere | hdue | htaken
  · refine .inl ?_
    rw [henv.states]
    exact hthere
  · exact .inr (.inl (hdue.later henv.clock))
  · exact .inr (.inr htaken)

/-- The clock does not go back in a run. -/
theorem clock_mono (h : Pool.Reach svc.program P c₀ c) : c₀.shared.clock ≤ c.shared.clock := by
  refine h.invariant (I := fun c : FlowPool store discoveryTtl jwksTtl =>
    c₀.shared.clock ≤ c.shared.clock) (Int.le_refl _) ?_
  intro c l c' _ _ hn hle
  cases hn with
  | spawn req => exact hle
  | cancel tid req o k htask => exact hle
  | env e s henv => exact Int.le_trans hle (envStep_of_env henv).clock
  | step tid ch req o k r s htask hexec =>
      have hsame : s.clock = c.shared.clock := (State.exec_effect hexec).clock_eq
      exact hsame ▸ hle

/-- The row of a login that starts after `c₀` stays until a callback takes it or it is overdue. -/
theorem row_stays (h₀ : FlowReach svc P s₀ c₀) (h : Pool.Reach svc.program P c₀ c) {login : Nat}
    (hlogin : c₀.tasks.length ≤ login) {row : NewState}
    (hrow : (login, (⟨Op.insertState row, Except.ok ()⟩ : Event oauthSig)) ∈ c.history) :
    Kept svc c₀.shared.clock row c.shared c.history := by
  have hall := h.invariant (I := fun c : FlowPool store discoveryTtl jwksTtl => ∀ row,
      (login, (⟨Op.insertState row, Except.ok ()⟩ : Event oauthSig)) ∈ c.history →
      Kept svc c₀.shared.clock row c.shared c.history) ?_ ?_
  · exact hall row hrow
  · intro row hmem
    have hlt : login < c₀.tasks.length := h₀.history_lt _ hmem
    omega
  intro c l c' hr _ hn hrows row hmem
  cases hn with
  | spawn req => exact hrows row hmem
  | cancel tid req o k htask => exact hrows row hmem
  | env e s henv => exact (hrows row hmem).env (envStep_of_env henv)
  | step tid ch req o k r s htask hexec =>
      have heff : State.Effect discoveryTtl jwksTtl tid c.shared o r s := State.exec_effect hexec
      have hcall := (h₀.trans hr).call_spec svc.program_spec htask
      rcases List.mem_append.mp hmem with hmem | hmem
      · exact (hrows row hmem).call hcall heff
      · -- The login inserts its row now.
        cases List.mem_singleton.mp hmem
        cases heff with
        | inserted _ hfree =>
            refine .inl ⟨⟨row, c.shared.clock.toTimestamptz⟩, ?_, rfl, ?_⟩
            · show (c.shared.states.insert row.state _)[row.state]? = _
              rw [Std.ExtTreeMap.getElem?_insert_self]
            · exact toTimestamptz_mono (clock_mono hr)

/-! ### The login and its callback -/

/-- The run from `c₁` to `c₂` passes `d`, where the callback makes its first call. That is the
`DELETE` of the row. -/
structure Deletes (svc : OAuthService K)
    (P : FlowPool store discoveryTtl jwksTtl → FlowLabel store discoveryTtl jwksTtl → Prop)
    (c₁ c₂ : FlowPool store discoveryTtl jwksTtl) (callback : Nat)
    (d : FlowPool store discoveryTtl jwksTtl) : Prop where
  before : Pool.Reach svc.program P c₁ d
  first : eventsOf d.history callback = []
  after : ∃ ch d', Pool.next svc.program d (.step callback ch) = some d'
    ∧ Pool.Reach svc.program P d' c₂

/-- A callback that came after `c₁` and has made its `DELETE` has made it somewhere in the run. -/
theorem exists_deletes (h₁ : FlowReach svc P s₀ c₁) (h₂ : Pool.Reach svc.program P c₁ c₂)
    {callback : Nat} (hcame : c₁.tasks.length ≤ callback) {state id : String} {age : Int32}
    {answer : Sql (Option Returned)}
    (hmem : (callback, (⟨Op.deleteState state id age, answer⟩ : Event oauthSig)) ∈ c₂.history) :
    ∃ d, Deletes svc P c₁ c₂ callback d ∧ d.shared.clock ≤ c₂.shared.clock := by
  have h : FlowReach svc P s₀ c₂ := h₁.trans h₂
  obtain ⟨t, ht⟩ := h.task_of_event hmem
  obtain ⟨g₁, g₂, hsplit⟩ := List.append_of_mem hmem
  obtain ⟨hfirst, -⟩ := h.history_spec svc.program_spec ht hsplit
  have hlen := h₂.length_le_of_late h₁.history_lt hsplit hcame
  obtain ⟨d, d', req, k, ch, s', hto, hstep, hfrom, rfl, htask, hP, hexec⟩ :=
    h₂.at_new_event hsplit hlen
  exact ⟨d, ⟨hto, hfirst, ch, d', hstep, hfrom⟩,
    clock_mono (Pool.Reach.trans (.tail _ .refl hP hstep) hfrom)⟩

/-- A login that starts after `c₀` has returned its URL by `c₁`, and the callback with its state
starts after that. No other callback brings this state. When the callback makes its `DELETE`, on the
way to `c₂`, the login is not overdue. However long the rest of the callback takes is no matter. -/
structure Visit (svc : OAuthService K)
    (P : FlowPool store discoveryTtl jwksTtl → FlowLabel store discoveryTtl jwksTtl → Prop)
    (c₀ c₁ c₂ : FlowPool store discoveryTtl jwksTtl)
    (login callback : Nat) (r : AuthUrl) (code : String) : Prop where
  began : c₀.tasks.length ≤ login
  returned : ∃ t, c₁.tasks[login]? = some t ∧ t.result = some (.ok (.authUrl r))
  came : c₁.tasks.length ≤ callback
  request : ∃ t, c₂.tasks[callback]? = some t
    ∧ t.req.callback = some (r.provider, code, r.state)
  sole : ∀ (tid : Nat) (t : Task oauthSig Fault Response Request) (code' : String),
    c₂.tasks[tid]? = some t → t.req.callback = some (r.provider, code', r.state) → tid = callback
  inTime : ∃ d, Deletes svc P c₁ c₂ callback d ∧ ¬ Overdue svc c₀.shared.clock d.shared.clock

/-- The `DELETE` of the callback finds the row of the login. -/
theorem Visit.found (h₀ : FlowReach svc P s₀ c₀) (h₁ : Pool.Reach svc.program P c₀ c₁)
    (h₂ : Pool.Reach svc.program P c₁ c₂) {login callback : Nat} {r : AuthUrl} {code : String}
    (hv : Visit svc P c₀ c₁ c₂ login callback r code) {row : NewState}
    (hrow : (login, (⟨Op.insertState row, Except.ok ()⟩ : Event oauthSig)) ∈ c₁.history)
    (hstate : row.state = r.state) (hprovider : row.providerId = r.provider)
    {state id : String} {age : Int32} {answer : Sql (Option Returned)}
    (hmem : (callback, (⟨Op.deleteState state id age, answer⟩ : Event oauthSig)) ∈ c₂.history)
    (hok : ∀ e, answer ≠ .error e) :
    ∃ found : Returned, answer = .ok (some found) ∧ found.nonce = row.nonce := by
  have h : FlowReach svc P s₀ c₂ := (h₀.trans h₁).trans h₂
  obtain ⟨t, ht, hreq⟩ := hv.request
  obtain ⟨g₁, g₂, hsplit⟩ := List.append_of_mem hmem
  obtain ⟨hfirst, rfl, -, code', hreq'⟩ := h.history_spec svc.program_spec ht hsplit
  cases hreq.symm.trans hreq'
  -- The pool in which the callback makes its first call, which is the `DELETE`.
  obtain ⟨d, ⟨hto, hnone, ch, d', hstep, hfrom⟩, hnotDue⟩ := hv.inTime
  obtain ⟨hhist, hexec⟩ : (∃ g₃, c₂.history = d.history ++ (callback,
        (⟨Op.deleteState r.state r.provider svc.maxAge, answer⟩ : Event oauthSig)) :: g₃)
      ∧ ∃ s', (oauthMachine store discoveryTtl jwksTtl).exec callback d.shared
        (Op.deleteState r.state r.provider svc.maxAge) ch = some (answer, s') := by
    cases Pool.next_cases svc.program hstep with
    | step _ _ req o k a s' htask hexec =>
        obtain ⟨g₃, hg₃⟩ := hfrom.history_append
        have hg₃ : c₂.history = d.history ++ (callback, ⟨o, a⟩) :: g₃ :=
          hg₃.trans (List.append_assoc ..)
        -- Both are the first call of the callback.
        have hown : eventsOf (g₁ ++ (callback, ⟨Op.deleteState r.state r.provider svc.maxAge,
              answer⟩) :: g₂) callback
            = eventsOf (d.history ++ (callback, ⟨o, a⟩) :: g₃) callback := by
          rw [← hsplit, hg₃]
        rw [eventsOf_split, eventsOf_split, hfirst, hnone] at hown
        cases (List.cons.inj hown).1
        exact ⟨⟨g₃, hg₃⟩, s', hexec⟩
  obtain ⟨g₃, hhist⟩ := hhist
  obtain ⟨s', hexec⟩ := hexec
  obtain ⟨later, hlater⟩ := hto.history_append
  have hthere : (login, (⟨Op.insertState row, Except.ok ()⟩ : Event oauthSig)) ∈ d.history := by
    rw [hlater]
    exact List.mem_append_left _ hrow
  rcases row_stays h₀ (h₁.trans hto) hv.began hthere with ⟨old, hold, hsame, hsince⟩ | hdue | htaken
  · -- The row is there, it is the provider's, and it is young enough.
    have hyoung : old.youngerThan svc.maxAge d.shared.clock = true := by
      refine decide_eq_true ?_
      have hlt : ¬ (c₀.shared.clock.toTimestamptz.ns + svc.maxAge.toInt * nanosPerSecond
        ≤ d.shared.clock.toTimestamptz.ns) := hnotDue
      omega
    have hid : old.providerId = r.provider := by
      rw [← hprovider, ← hsame]
    have hfilter : (d.shared.states[r.state]?).filter (fun x =>
        x.providerId == r.provider && x.youngerThan svc.maxAge d.shared.clock) = some old := by
      rw [← hstate, hold]
      simp [hid, hyoung]
    rcases State.statement_cases hexec with hgo | ⟨⟨e, he⟩, -⟩
    · unfold State.deleteState at hgo
      split at hgo
      · cases hgo
        exact absurd rfl (hok _)
      · rw [hfilter] at hgo
        cases hgo
        exact ⟨_, rfl, by rw [← hsame]⟩
    · exact absurd he (hok e)
  · exact absurd hdue hnotDue
  · -- Only this callback could have taken it, and this is the first call that it makes.
    obtain ⟨tid, found, htaken⟩ := htaken
    rw [hstate, hprovider] at htaken
    obtain ⟨k₁, k₂, hearly⟩ := List.append_of_mem htaken
    have hsplit' : c₂.history = k₁ ++ (tid, (⟨Op.deleteState r.state r.provider svc.maxAge,
        Except.ok (some found)⟩ : Event oauthSig)) :: (k₂ ++ (callback,
          ⟨Op.deleteState r.state r.provider svc.maxAge, answer⟩) :: g₃) := by
      rw [hhist, hearly]
      simp
    have hmem' := List.mem_append_left
      ((callback, (⟨Op.deleteState r.state r.provider svc.maxAge, answer⟩ : Event oauthSig)) :: g₃)
      htaken
    rw [← hhist] at hmem'
    obtain ⟨t', ht'⟩ := h.task_of_event hmem'
    obtain ⟨-, -, -, code', hother⟩ := h.history_spec svc.program_spec ht' hsplit'
    have hself : tid = callback := hv.sole tid t' code' ht' hother
    subst hself
    have hown := mem_eventsOf.mpr htaken
    rw [hnone] at hown
    cases hown

/-- Every answer to the callback lets it go through. -/
theorem Visit.smooth (h₀ : FlowReach svc P s₀ c₀) (h₁ : Pool.Reach svc.program P c₀ c₁)
    (h₂ : Pool.Reach svc.program P c₁ c₂) (hdiscovery : s₀.discovery = ∅) (hjwks : s₀.jwks = ∅)
    (huses : s₀.keyUses = []) {login callback : Nat} {r : AuthUrl} {code : String}
    (hv : Visit svc P c₀ c₁ c₂ login callback r code) {row : NewState}
    (hrow : (login, (⟨Op.insertState row, Except.ok ()⟩ : Event oauthSig)) ∈ c₁.history)
    (hstate : row.state = r.state) (hprovider : row.providerId = r.provider) {idp : Idp K}
    {provider : Provider} (hserves : ∀ e ∈ c₂.history, idp.Serves provider e.2.op e.2.resp)
    (hhonours : ∀ e ∈ eventsOf c₂.history callback, idp.Honours svc provider e.op e.resp) :
    ∀ e ∈ eventsOf c₂.history callback, idp.Smooth svc provider row.nonce
      (fun s => (callback, (⟨Op.createSession s, Except.ok ()⟩ : Event oauthSig)) ∈ c₂.history)
      e.op e.resp := by
  have h : FlowReach svc P s₀ c₂ := (h₀.trans h₁).trans h₂
  intro e he
  have hmem := mem_eventsOf.mp he
  have hhonour := hhonours e he
  obtain ⟨o, a⟩ := e
  cases o with
  | now => exact hhonour
  | buildClient => exact hhonour
  | httpPost url clientId clientSecret form => exact hhonour
  | httpGet url => exact hserves _ hmem
  | createSession s =>
      have hok : a = Except.ok () := hhonour
      subst hok
      exact ⟨rfl, hmem⟩
  | deleteState state id age => exact hv.found h₀ h₁ h₂ hrow hstate hprovider hmem hhonour
  | discoveryGet url =>
      -- A cached document was downloaded before, and the provider has only the one.
      intro hurl doc hdoc
      have hdoc : a = some doc := hdoc
      subst hurl hdoc
      have hall : c₂.history = c₂.history ++ [] := (List.append_nil _).symm
      obtain ⟨tid, resp, hget, -, hjson⟩ := held_published h hdiscovery hall (.inl he)
      obtain ⟨resp', heq, -, hserved⟩ := (hserves _ (mem_eventsOf.mp hget)).1 rfl
      cases heq
      exact Except.ok.inj (hjson.symm.trans hserved)
  | jwksGet uri =>
      intro huri set hset
      have hset : a = some set := hset
      subst huri hset
      obtain ⟨tid, resp, hget, -, keys, hkeys, rfl⟩ := keys_loaded h hjwks huses (.inl he)
      obtain ⟨resp', heq, -, hserved⟩ := (hserves _ hget).2 rfl
      cases heq
      rw [Except.ok.inj (hkeys.symm.trans hserved)]
  | _ => exact trivial

/-- In every run of the flow: when a login at an honest provider has returned its URL, the callback
that brings back its state in time opens a session for the subject of the ID token. In time is
what the `DELETE` asks for: the row is younger than the maximum age at that instant. -/
theorem login_completes (h₀ : FlowReach svc P s₀ c₀) (h₁ : Pool.Reach svc.program P c₀ c₁)
    (h₂ : Pool.Reach svc.program P c₁ c₂) (hdiscovery : s₀.discovery = ∅) (hjwks : s₀.jwks = ∅)
    (huses : s₀.keyUses = []) (hoff : svc.offline = false) {login callback : Nat} {r : AuthUrl}
    {code : String} (hv : Visit svc P c₀ c₁ c₂ login callback r code) {provider : Provider}
    (hp : svc.providers[r.provider]? = some provider) {idp : Idp K}
    (hsound : ∀ row, (login, (⟨Op.insertState row, Except.ok ()⟩ : Event oauthSig)) ∈ c₁.history →
      idp.Sound provider row.nonce)
    (hserves : ∀ e ∈ c₂.history, idp.Serves provider e.2.op e.2.resp)
    (hhonours : ∀ e ∈ eventsOf c₂.history callback, idp.Honours svc provider e.op e.resp)
    {t : Task oauthSig Fault Response Request} (ht : c₂.tasks[callback]? = some t)
    {x : Except Fault Response} (hx : t.result = some x) :
    ∃ resp result, x = .ok resp ∧ opened resp = some result ∧ idp.Opens r.provider
      (fun s => (callback, (⟨Op.createSession s, Except.ok ()⟩ : Event oauthSig)) ∈ c₂.history)
      result := by
  have h : FlowReach svc P s₀ c₂ := (h₀.trans h₁).trans h₂
  obtain ⟨tl, htl, hresult⟩ := hv.returned
  obtain ⟨row, hins, hstate, hprovider⟩ :=
    (h₀.trans h₁).result_spec login_stores htl hresult r rfl
  have hrow := mem_eventsOf.mp hins
  obtain ⟨tc, htc, hreq⟩ := hv.request
  cases ht.symm.trans htc
  obtain ⟨es, hes, hruns⟩ := h.result_spec (fun req => (svc.program req).spec_runs []) ht hx
  rw [List.nil_append] at hes
  subst hes
  exact (program_under hoff hreq hp (hsound row hrow)).result hruns
    (hv.smooth h₀ h₁ h₂ hdiscovery hjwks huses hrow hstate hprovider hserves hhonours)

end Runs

end Tim.OAuth

/-! ### Sample runs -/

namespace Tim.OAuth.Sample

open Tim.Lib Symbolic OAuthService

/-- What `idp.test` serves for the sample login. -/
def honest : Idp idp where
  document := ⟨"https://idp.test", "https://idp.test/authorize", "https://idp.test/token", none,
    "https://idp.test/jwks", [], []⟩
  keys := [.object [("kty", .string "RSA"), ("kid", .string "k1"), ("n", .string "idp-key"),
    ("e", .string "AQAB")]]
  tokens := ⟨"access", some "id-token", some 300⟩
  idToken := "id-token"
  header := ⟨.rs256, some "k1"⟩
  key := ⟨some "k1", none, .rsa "idp-key" "AQAB"⟩
  decoding := "idp-key"
  claims := ⟨"https://idp.test", "alice", .single "client", 2000, none, 1000,
    some (hexEncode (random 2)), (.ofList ([] : List (String × Value)) : ClaimMap)⟩

/-- The sample provider is an honest one. -/
theorem honest_sound : honest.Sound (provider 100) (hexEncode (random 2)) where
  accepted := by decide +kernel
  pinned := rfl
  idToken := rfl
  header := rfl
  asymmetric := by decide
  key := by decide +kernel
  decoding := rfl
  audience := by decide +kernel
  nonce := rfl

/-- The token of the sample provider is valid at second 1000. -/
theorem honest_inForce : honest.InForce flow (provider 100) (instant 1000) where
  decoded := rfl
  issued := by decide +kernel
  ends := by decide +kernel

/-- The response is one of the texts of `idp.test`. -/
def carries (text : String) : Except SendError HttpResponse → Bool
  | .ok ⟨200, .ok t⟩ => t == text
  | _ => false

/-- The test of an answer by its text. -/
theorem eq_of_carries {text : String} {r : Except SendError HttpResponse}
    (h : carries text r = true) : r = .ok ⟨200, .ok text⟩ := by
  unfold carries at h
  split at h
  · rw [eq_of_beq h]
  · cases h

def isStart (t : DateTime) : Bool := decide (t = instant 1000)

/-- The test of an instant. -/
theorem eq_of_isStart {t : DateTime} (h : isStart t = true) : t = instant 1000 :=
  of_decide_eq_true h

/-- The events of a run in which `idp.test` serves its texts and nothing fails. -/
def expected : Event oauthSig → Bool
  | ⟨.now, t⟩ => isStart t
  | ⟨.httpGet url, r⟩ => if url = documentUrl then carries "https-document" r else carries "keys" r
  | ⟨.httpPost .., r⟩ => carries "tokens" r
  | ⟨.buildClient, r⟩ => r.toOption.isSome
  | ⟨.deleteState .., r⟩ => r.toOption.isSome
  | ⟨.createSession _, r⟩ => r.toOption.isSome
  | ⟨.insertState row, _⟩ => row.nonce == hexEncode (random 2)
  | _ => true

/-- The test of a call that returns nothing. -/
theorem ok_of_isSome {ε : Type} {r : Except ε Unit} (h : r.toOption.isSome = true) :
    r = .ok () := by
  cases r with
  | ok _ => rfl
  | error e => cases h

/-- The two URLs of the sample provider carry its document and its keys. -/
theorem honest_get {url : String} {r : Except SendError HttpResponse}
    (h : (if url = documentUrl then carries "https-document" r else carries "keys" r) = true) :
    honest.Serves (provider 100) (.httpGet url) r := by
  constructor
  · intro hurl
    have hurl : url = documentUrl := hurl
    rw [if_pos hurl] at h
    exact ⟨_, eq_of_carries h, rfl, by decide +kernel⟩
  · intro hurl
    have hne : url ≠ documentUrl := by
      rw [hurl]
      decide
    rw [if_neg hne] at h
    exact ⟨_, eq_of_carries h, rfl, rfl⟩

/-- The events that the sample run expects are answers of the provider. -/
theorem honest_serves {e : Event oauthSig} (h : expected e = true) :
    honest.Serves (provider 100) e.op e.resp := by
  obtain ⟨o, r⟩ := e
  cases o with
  | httpGet url => exact honest_get h
  | _ => exact trivial

/-- The events that the sample run expects are ones that nothing disturbs. -/
theorem honest_honours {e : Event oauthSig} (h : expected e = true) :
    honest.Honours flow (provider 100) e.op e.resp := by
  obtain ⟨o, r⟩ := e
  cases o with
  | now =>
      rw [show r = instant 1000 from eq_of_isStart h]
      exact honest_inForce
  | httpPost url clientId clientSecret form => exact ⟨_, eq_of_carries h, rfl, rfl⟩
  | buildClient => exact ok_of_isSome h
  | createSession s => exact ok_of_isSome h
  | deleteState state id age =>
      intro e he
      have he : r = Except.error e := he
      subst he
      cases h
  | _ => exact trivial

end Tim.OAuth.Sample

namespace Tim.OAuth

open Tim.Lib OAuthService Symbolic Sample

/-- The URL that a login has returned. -/
def urlOf (t : Task oauthSig Fault Response Request) : Option AuthUrl :=
  match t.result with
  | some (.ok (.authUrl r)) => some r
  | _ => none

/-- The test of a finished login by its URL. -/
theorem result_of_urlOf {t : Task oauthSig Fault Response Request} {r : AuthUrl}
    (h : urlOf t = some r) : t.result = some (.ok (.authUrl r)) := by
  unfold urlOf at h
  split at h
  · rename_i r' hr
    cases h
    exact hr
  · cases h

/-- The login `0` has returned its URL. -/
def loggedIn (c : SamplePool) : Bool :=
  (c.tasks[0]?).any (fun t => (urlOf t).any fun r =>
    r.provider == "idp" && r.state == hexEncode (random 1))
  && decide (c.tasks.length = 1) && c.history.all fun e => expected e.2

/-- The event is the `DELETE` of the callback `1`. -/
def deletesOne : Nat × Event oauthSig → Bool
  | (tid, ⟨.deleteState .., _⟩) => tid == 1
  | _ => false

/-- The test for the `DELETE` of the callback in a history. -/
theorem deletes_of_any {hist : List (Nat × Event oauthSig)} (h : hist.any deletesOne = true) :
    ∃ state id age answer,
      (1, (⟨Op.deleteState state id age, answer⟩ : Event oauthSig)) ∈ hist := by
  obtain ⟨⟨tid, o, a⟩, he, hdelete⟩ := List.any_eq_true.mp h
  cases o with
  | deleteState state id age =>
      rw [show tid = 1 from eq_of_beq hdelete] at he
      exact ⟨state, id, age, a, he⟩
  | _ => cases hdelete

/-- The callback `1` has ended in time. -/
def calledBack (c : SamplePool) : Bool :=
  decide (c.tasks.map (·.req.callback) = [none, some ("idp", "code", hexEncode (random 1))])
  && (c.tasks[1]?).any (·.result.isSome) && isStart c.shared.clock
  && c.history.any deletesOne && c.history.all fun e => expected e.2

/-- The sample login ends in a session for `alice`. -/
theorem login_completes_sample :
    ∃ (c : SamplePool) (resp : Response) (result : CallbackResult) (session : Session),
      FlowReach flow Pool.Any flowStart c ∧ opened resp = some result
      ∧ result = resultOf session ∧ session.userId = "alice"
      ∧ (1, (⟨Op.createSession session, Except.ok ()⟩ : Event oauthSig)) ∈ c.history := by
  obtain ⟨c₁, h₁, hq₁⟩ := Pool.exists_reach flow.program (fun _ _ => true)
    (fun c : SamplePool => loggedIn c
      && (Pool.run flow.program (fun _ _ => true) c callbackRun).any calledBack)
    (Pool.init flowStart) loginRun (by decide +kernel)
  rw [Bool.and_eq_true] at hq₁
  obtain ⟨c₂, h₂, hq₂⟩ := Pool.exists_reach flow.program (fun _ _ => true) calledBack c₁
    callbackRun hq₁.2
  have hlogged := hq₁.1
  simp only [loggedIn, Bool.and_eq_true, decide_eq_true_eq] at hlogged
  simp only [calledBack, Bool.and_eq_true, decide_eq_true_eq] at hq₂
  obtain ⟨⟨hlogin, hone⟩, hexp₁⟩ := hlogged
  obtain ⟨⟨⟨⟨hreqs, hend⟩, hclock⟩, hdeleted⟩, hexp₂⟩ := hq₂
  obtain ⟨t₁, ht₁, hurl⟩ := (Option.any_eq_true _ _).mp hlogin
  obtain ⟨r, hr, hnames⟩ := (Option.any_eq_true _ _).mp hurl
  simp only [Bool.and_eq_true, beq_iff_eq] at hnames
  obtain ⟨hid, hstate⟩ := hnames
  obtain ⟨t₂, ht₂, hsome⟩ := (Option.any_eq_true _ _).mp hend
  obtain ⟨x, hx⟩ := Option.isSome_iff_exists.mp hsome
  -- The two requests are the login and the callback.
  have hreq : ∀ (tid : Nat) (t : Task oauthSig Fault Response Request),
      c₂.tasks[tid]? = some t →
      [none, some ("idp", "code", hexEncode (random 1))][tid]? = some t.req.callback := by
    intro tid t ht
    rw [← hreqs, List.getElem?_map, ht]
    rfl
  -- The callback ends in time, so its `DELETE` was in time.
  obtain ⟨state, id, age, answer, hdelete⟩ := deletes_of_any hdeleted
  obtain ⟨d, hdeletes, hle⟩ := exists_deletes h₁ h₂ (Nat.le_of_eq hone) hdelete
  have hyoung : ¬ Overdue flow flowStart.clock (instant 1000) := by
    show ¬ ((instant 1000).toTimestamptz.ns + flow.maxAge.toInt * nanosPerSecond
      ≤ (instant 1000).toTimestamptz.ns)
    decide +kernel
  have hvisit : Visit flow _ (Pool.init flowStart) c₁ c₂ 0 1 r "code" := {
    began := Nat.le_refl 0
    returned := ⟨t₁, ht₁, result_of_urlOf hr⟩
    came := Nat.le_of_eq hone
    request := by
      refine ⟨t₂, ht₂, ?_⟩
      rw [hid, hstate]
      exact (Option.some.inj (hreq 1 t₂ ht₂)).symm
    sole := by
      intro tid t code' ht hcallback
      have hat := hreq tid t ht
      rw [hcallback] at hat
      rcases tid with _ | _ | tid
      · cases hat
      · rfl
      · cases hat
    inTime := ⟨d, hdeletes, fun hdue => hyoung (hdue.later (eq_of_isStart hclock ▸ hle))⟩ }
  have hp : flow.providers[r.provider]? = some (provider 100) := by
    rw [hid]
    rfl
  obtain ⟨resp, result, -, hopened, session, hresult, hmade, -, hsub⟩ :=
    login_completes .refl h₁ h₂ rfl rfl rfl rfl hvisit hp
      (fun row hmem => by
        have hrow := List.all_eq_true.mp hexp₁ _ hmem
        rw [show row.nonce = hexEncode (random 2) from eq_of_beq hrow]
        exact honest_sound)
      (fun e he => honest_serves (List.all_eq_true.mp hexp₂ e he))
      (fun e he => honest_honours (List.all_eq_true.mp hexp₂ _ (mem_eventsOf.mp he))) ht₂ hx
  exact ⟨c₂, resp, result, session, (h₁.trans h₂).mono fun _ _ _ => trivial, hopened, hresult,
    hsub, hmade⟩

end Tim.OAuth
