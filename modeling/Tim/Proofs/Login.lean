import Tim.Proofs.FlowRuns

/-!
# `Tim.Proofs.Login`: sessions and the logins behind them

`sessions_bound` is the safety of the login flow in every run. Each session that a callback
creates belongs to one login, and no two sessions to the same. `Completion` is what binds the
two: the row of `auth.oauth_state` that the login has inserted and this callback has deleted,
and no other task, the two values of the row that the callback has sent to the token endpoint,
and the nonce of the row in the ID token.

A login inserts one row and a callback deletes one (`inserted_once`, `deleted_once`), so the row
identifies both, and `state_rows` says that no row is deleted twice.

* `form_of_row`: the token request is made of the row that the login has stored.
* `session_completes`: a session belongs to a login: its row, its nonce, its verifier.
* `session_unique`: no two sessions belong to one login.
-/

set_option autoImplicit false

namespace Tim.OAuth

open Tim.Lib OAuthService

section Runs

variable {K : OAuthCrates} {store : SessionStore} {discoveryTtl jwksTtl : Nat}
  {svc : OAuthService K}
  {P : FlowPool store discoveryTtl jwksTtl → FlowLabel store discoveryTtl jwksTtl → Prop}
  {s₀ : State store} {c : FlowPool store discoveryTtl jwksTtl}

/-! ### Calls that a task makes once -/

/-- A login inserts one row. -/
theorem inserted_once (h : FlowReach svc P s₀ c) {tid : Nat} {row row' : NewState}
    {r r' : Sql Unit} (h₁ : (tid, (⟨Op.insertState row, r⟩ : Event oauthSig)) ∈ c.history)
    (h₂ : (tid, (⟨Op.insertState row', r'⟩ : Event oauthSig)) ∈ c.history) : row = row' := by
  obtain ⟨i, hi⟩ := List.mem_iff_getElem?.mp h₁
  obtain ⟨j, hj⟩ := List.mem_iff_getElem?.mp h₂
  have hij : i = j := by
    refine h.once svc.program_spec (p := fun o => ∃ row, o = .insertState row) ?_ hi hj
      ⟨row, rfl⟩ ⟨row', rfl⟩
    rintro req h o hcall ⟨row, rfl⟩ ⟨o', r⟩ hmem ⟨row', rfl⟩
    obtain ⟨_, _, -, hins⟩ := hcall
    exact hins.first row' r hmem
  subst hij
  rw [hi] at hj
  cases hj
  rfl

/-- A callback deletes one row. -/
theorem deleted_once (h : FlowReach svc P s₀ c) {tid : Nat} {state state' id id' : String}
    {maxAge maxAge' : Int32} {r r' : Sql (Option Returned)}
    (h₁ : (tid, (⟨Op.deleteState state id maxAge, r⟩ : Event oauthSig)) ∈ c.history)
    (h₂ : (tid, (⟨Op.deleteState state' id' maxAge', r'⟩ : Event oauthSig)) ∈ c.history) :
    (⟨Op.deleteState state id maxAge, r⟩ : Event oauthSig)
      = ⟨Op.deleteState state' id' maxAge', r'⟩ := by
  obtain ⟨i, hi⟩ := List.mem_iff_getElem?.mp h₁
  obtain ⟨j, hj⟩ := List.mem_iff_getElem?.mp h₂
  have hij : i = j := by
    refine h.once svc.program_spec (p := fun o => ∃ state id age, o = .deleteState state id age)
      ?_ hi hj ⟨_, _, _, rfl⟩ ⟨_, _, _, rfl⟩
    rintro req h o hcall ⟨_, _, _, rfl⟩ e hmem -
    obtain ⟨rfl, -⟩ := hcall
    cases hmem
  subst hij
  rw [hi] at hj
  exact (Prod.mk.inj (Option.some.inj hj)).2

/-- A callback creates one session. -/
theorem created_once (h : FlowReach svc P s₀ c) {tid i j : Nat} {s s' : Session}
    {r r' : Except TimError Unit}
    (hi : c.history[i]? = some (tid, (⟨Op.createSession s, r⟩ : Event oauthSig)))
    (hj : c.history[j]? = some (tid, (⟨Op.createSession s', r'⟩ : Event oauthSig))) : i = j := by
  refine h.once svc.program_spec (p := fun o => ∃ s, o = .createSession s) ?_ hi hj
    ⟨s, rfl⟩ ⟨s', rfl⟩
  rintro req h o hcall ⟨s, rfl⟩ ⟨o', r⟩ hmem ⟨s', rfl⟩
  exact hcall.1 s' r hmem

/-! ### The age of a row -/

/-- The cast to `i32` keeps the last 32 bits, the first of them as a sign. -/
theorem maxAge_toInt (svc : OAuthService K) :
    svc.maxAge.toInt = (svc.stateMaxAgeSeconds.toNat : Int).bmod (2 ^ 32) := by
  have hcast : svc.maxAge.toInt = (svc.stateMaxAgeSeconds.toUInt32.toNat : Int).bmod (2 ^ 32) :=
    BitVec.toInt_eq_toNat_bmod _
  rw [hcast, UInt64.toNat_toUInt32, Int.bmod_def, Int.bmod_def]
  split <;> split <;> omega

/-- The cast to `i32` never makes the maximum age larger. -/
theorem maxAge_le (svc : OAuthService K) :
    svc.maxAge.toInt ≤ svc.stateMaxAgeSeconds.toNat := by
  rw [maxAge_toInt, Int.bmod_def]
  split <;> omega

/-- A row that was young enough for the `DELETE` is younger than `state_max_age_seconds`. -/
theorem age_lt {row : StateRow} {now : DateTime} (h : row.youngerThan svc.maxAge now = true) :
    now.toTimestamptz.ns - row.createdAt.ns
      < svc.stateMaxAgeSeconds.toNat * nanosPerSecond := by
  have hyoung : now.toTimestamptz.ns - svc.maxAge.toInt * nanosPerSecond < row.createdAt.ns :=
    of_decide_eq_true h
  have hle : svc.maxAge.toInt * nanosPerSecond
      ≤ svc.stateMaxAgeSeconds.toNat * nanosPerSecond :=
    Int.mul_le_mul_of_nonneg_right (maxAge_le svc) (by decide)
  omega

/-! ### The login behind a session -/

/-- What binds a session to a login. -/
structure Completion where
  removal : Removal
  redirectUri : String
  verifier : String
  code : String
  opening : Opening

/-- The session that the task `tid` has created after the events `before` completes the login
`login`. -/
structure Completion.Binds (svc : OAuthService K) (c : FlowPool store discoveryTtl jwksTtl)
    (before : List (Nat × Event oauthSig)) (tid : Nat) (session : Session) (login : Nat)
    (x : Completion) : Prop where
  /-- The login was one of the session's provider, and it had inserted the row. -/
  started : ∃ t, c.tasks[login]? = some t
    ∧ svc.loginOf t.req = some (session.providerId, x.redirectUri)
    -- The URL that the login returned shows the redirect URI and the challenge.
    ∧ ∀ r, t.result = some (.ok (.authUrl r)) → ∃ endpoint provider,
      K.appendPairs endpoint (authorizationPairs provider x.redirectUri x.removal.row.state
        x.removal.row.nonce (challengeOf K x.verifier)) = .ok r.authorizationUrl
  inserted : (login, (⟨Op.insertState x.removal.row.toNewState, Except.ok ()⟩ :
    Event oauthSig)) ∈ before
  provider : x.removal.row.providerId = session.providerId
  redirectUri : x.removal.row.redirectUri = some x.redirectUri
  verifier : x.removal.row.pkceVerifier = some x.verifier
  /-- This callback has deleted the row, and nothing else has deleted one with its state. -/
  deleted : x.removal ∈ c.shared.removed ∧ x.removal.tid = tid
    ∧ ∀ y ∈ c.shared.removed, y.row.state = x.removal.row.state → y = x.removal
  young : x.removal.at_.toTimestamptz.ns - x.removal.row.createdAt.ns
    < svc.stateMaxAgeSeconds.toNat * nanosPerSecond
  /-- The token request carries the two values of the row, and no other was made. -/
  sent : (∃ url clientId clientSecret form resp,
      (tid, (⟨Op.httpPost url clientId clientSecret form, Except.ok resp⟩ : Event oauthSig))
        ∈ before)
    ∧ ∀ url clientId clientSecret form resp,
      (tid, (⟨Op.httpPost url clientId clientSecret form, resp⟩ : Event oauthSig)) ∈ c.history →
      form = [("grant_type", "authorization_code"), ("code", x.code),
        ("redirect_uri", x.redirectUri), ("code_verifier", x.verifier)]
  /-- The ID token was accepted, with the nonce of the row. -/
  verified : Verified K x.opening.discovery x.opening.provider x.opening.idToken
    x.removal.row.nonce x.opening.set x.opening.claims (eventsOf before tid)
  nonce : x.opening.claims.nonce = some x.removal.row.nonce
  user : session.userId = x.opening.claims.sub

/-- The form of the token request with a redirect URI and a verifier. -/
theorem tokenForm_both {code redirectUri verifier : String} (h : verifier ≠ "") :
    tokenForm code (some redirectUri) (some verifier)
      = [("grant_type", "authorization_code"), ("code", code), ("redirect_uri", redirectUri),
        ("code_verifier", verifier)] := by
  have hempty : verifier.isEmpty = false := by simpa using h
  simp [tokenForm, hempty]

/-- The verifier that a login has inserted is not empty. -/
theorem verifier_ne_empty (laws : Base64Laws K) (h : FlowReach svc P s₀ c)
    {providerId redirectUri : String} {tid : Nat} {before : List (Nat × Event oauthSig)}
    (hbefore : ∀ e ∈ before, e ∈ c.history) {row : NewState}
    (hins : Inserting K providerId redirectUri (eventsOf before tid) row) :
    ∃ verifier, row.pkceVerifier = some verifier ∧ verifier ≠ "" := by
  obtain ⟨b, hb, hv⟩ := hins.verifier
  refine ⟨K.base64Url b, hv, laws.base64Url_ne_empty b fun hnil => ?_⟩
  have hlen := drawn_length h (hbefore _ (mem_eventsOf.mp hb))
  rw [hnil] at hlen
  cases hlen

/-- What a login that returned a URL has done. -/
theorem loginDone_of_result {req : Request} {hist : List (Event oauthSig)} {r : AuthUrl}
    {providerId redirectUri : String} (hdone : svc.Done req hist (.ok (.authUrl r)))
    (hlogin : svc.loginOf req = some (providerId, redirectUri)) :
    svc.LoginDone providerId redirectUri hist (.ok r) := by
  cases req with
  | buildLoginUrl id uri =>
      obtain ⟨_, _, hsame, hr⟩ := hdone
      cases hsame.symm.trans hlogin
      exact hr
  | authLogin id uri =>
      obtain ⟨_, _, hsame, hr⟩ := hdone
      cases hsame.symm.trans hlogin
      exact hr
  | _ => cases hlogin

/-- Every token request of a callback carries the values of the row that it has deleted. -/
theorem form_of_row (h : FlowReach svc P s₀ c) {tid : Nat}
    {t : Task oauthSig Fault Response Request} {providerId code state : String} {row : Returned}
    (ht : c.tasks[tid]? = some t) (hreq : t.req.callback = some (providerId, code, state))
    (hdel : (tid, (⟨Op.deleteState state providerId svc.maxAge, Except.ok (some row)⟩ :
      Event oauthSig)) ∈ c.history) {url clientId clientSecret : String}
    {form : List (String × String)} {resp : Except SendError HttpResponse}
    (hpost : (tid, (⟨Op.httpPost url clientId clientSecret form, resp⟩ : Event oauthSig))
      ∈ c.history) : form = tokenForm code row.redirectUri row.pkceVerifier := by
  obtain ⟨h₁, h₂, hsplit⟩ := List.append_of_mem (mem_eventsOf.mpr hpost)
  obtain ⟨-, id, code', state', row', hreq', hdel', rfl⟩ := h.event_spec svc.program_spec ht hsplit
  cases hreq.symm.trans hreq'
  have hmem : (tid, (⟨Op.deleteState state providerId svc.maxAge, Except.ok (some row')⟩ :
      Event oauthSig)) ∈ c.history := by
    refine mem_eventsOf.mp ?_
    rw [hsplit]
    exact List.mem_append_left _ hdel'
  cases deleted_once h hdel hmem
  rfl

/-- Every created session completes a login. -/
theorem session_completes (laws : Base64Laws K) (h : FlowReach svc P s₀ c)
    (hstates : s₀.states = ∅) (hremoved : s₀.removed = []) {i tid : Nat} {session : Session}
    (hcreate : c.history[i]?
      = some (tid, (⟨Op.createSession session, Except.ok ()⟩ : Event oauthSig))) :
    ∃ login x, Completion.Binds svc c (c.history.take i) tid session login x := by
  have hsplit := split_of_getElem? hcreate
  obtain ⟨t, ht⟩ := h.task_of_event (List.mem_of_getElem? hcreate)
  obtain ⟨-, code, state, hreq, o, ho, huser⟩ := h.history_spec svc.program_spec ht hsplit
  have hsub : ∀ e ∈ c.history.take i, e ∈ c.history := fun e he => List.mem_of_mem_take he
  -- The row that the callback was given, and the login that inserted it.
  have hdel := mem_eventsOf.mp ho.deleted
  obtain ⟨g₁, g₂, hg⟩ := List.append_of_mem hdel
  have hsplit' : c.history = g₁ ++ (tid, (⟨Op.deleteState state session.providerId svc.maxAge,
      Except.ok (some o.row)⟩ : Event oauthSig)) :: (g₂ ++ (tid, ⟨Op.createSession session,
      Except.ok ()⟩) :: c.history.drop (i + 1)) := by
    refine hsplit.trans ?_
    rw [hg]
    simp
  obtain ⟨x, hx, htid, hstate, hprovider, hrow, hyoung, login, hlogin⟩ :=
    consumed h hstates hremoved tid state session.providerId svc.maxAge o.row g₁ _ hsplit'
  have hrows := state_rows h hstates hremoved
  have hinserted : (login, (⟨Op.insertState x.row.toNewState, Except.ok ()⟩ : Event oauthSig))
      ∈ c.history.take i := by
    rw [hg]
    exact List.mem_append_left _ hlogin
  obtain ⟨l₁, l₂, hl⟩ := List.append_of_mem (hsub _ hinserted)
  obtain ⟨tl, htl⟩ := h.task_of_event (hsub _ hinserted)
  obtain ⟨providerId, redirectUri, hloginOf, hins⟩ := h.history_spec svc.program_spec htl hl
  have hl₁ : ∀ e ∈ l₁, e ∈ c.history := by
    intro e he
    rw [hl]
    exact List.mem_append_left _ he
  obtain ⟨verifier, hverifier, hne⟩ := verifier_ne_empty laws h hl₁ hins
  have hid : providerId = session.providerId := hins.provider.symm.trans hprovider
  subst hid
  have hform : tokenForm code o.row.redirectUri o.row.pkceVerifier
      = [("grant_type", "authorization_code"), ("code", code), ("redirect_uri", redirectUri),
        ("code_verifier", verifier)] := by
    rw [hrow]
    show tokenForm code x.row.redirectUri x.row.pkceVerifier = _
    rw [hins.redirectUri, hverifier]
    exact tokenForm_both hne
  refine ⟨login, ⟨x, redirectUri, verifier, code, o⟩, {
    started := ⟨tl, htl, hloginOf, fun r hr => ?_⟩
    inserted := hinserted
    provider := hprovider
    redirectUri := hins.redirectUri
    verifier := hverifier
    deleted := ⟨hx, htid, fun y hy hsame => ?_⟩
    young := age_lt hyoung
    sent := ⟨⟨_, _, _, _, _, mem_eventsOf.mp ho.posted⟩, ?_⟩
    verified := ?_
    nonce := ?_
    user := huser }⟩
  · -- The row of the URL is the one row that the login has inserted.
    have hdone := h.result_spec svc.program_spec htl hr
    obtain ⟨discovery, provider, -, -, state', nonce', verifier', hrow', hurl⟩ :=
      loginDone_of_result hdone hloginOf
    have hsame := inserted_once h (hsub _ hinserted) (mem_eventsOf.mp hrow')
    refine ⟨discovery.authorizationEndpoint, provider, ?_⟩
    have hverifier' : verifier = verifier' := by
      rw [hsame] at hverifier
      exact (Option.some.inj hverifier).symm
    rw [hverifier', show x.row.state = state' from congrArg NewState.state hsame,
      show x.row.nonce = nonce' from congrArg NewState.nonce hsame]
    exact hurl
  · have hinj := List.inj_on_of_nodup_map hrows.deletedOnce
    exact hinj hy hx hsame
  · intro url clientId clientSecret form resp hpost
    rw [form_of_row h ht hreq (hsub _ hdel) hpost]
    exact hform
  · have := ho.verified
    rw [hrow] at this
    exact this
  · have := ho.verified.nonce
    rw [hrow] at this
    exact this

/-- Two sessions that complete the same login are one session. -/
theorem session_unique (h : FlowReach svc P s₀ c) {i j tid tid' login : Nat}
    {s s' : Session} {x x' : Completion}
    (hi : c.history[i]? = some (tid, (⟨Op.createSession s, Except.ok ()⟩ : Event oauthSig)))
    (hj : c.history[j]? = some (tid', (⟨Op.createSession s', Except.ok ()⟩ : Event oauthSig)))
    (hx : Completion.Binds svc c (c.history.take i) tid s login x)
    (hx' : Completion.Binds svc c (c.history.take j) tid' s' login x') : i = j := by
  -- The login has inserted one row, and one task has deleted it.
  have hrow := inserted_once h (List.mem_of_mem_take hx.inserted)
    (List.mem_of_mem_take hx'.inserted)
  have hstate : x'.removal.row.state = x.removal.row.state :=
    (congrArg NewState.state hrow).symm
  have hsame := hx.deleted.2.2 x'.removal hx'.deleted.1 hstate
  have htid : tid = tid' := by
    rw [← hx.deleted.2.1, ← hx'.deleted.2.1, hsame]
  subst htid
  exact created_once h hi hj

end Runs

end Tim.OAuth
