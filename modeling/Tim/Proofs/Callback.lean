import Tim.Proofs.IdToken
import Tim.Proofs.Login

/-!
# `Tim.Proofs.Callback`: callbacks that fail, and the offline mode

`failed_callback` says what a callback that fails leaves as it was, whichever of its exits it
takes. The session store is never changed. The table `auth.oauth_state` is changed by the one
`DELETE`, and only when a row of the provider was found that is young enough.

`offline_airtight` is the offline mode. With a truthy `TIM_OFFLINE`, no run makes an HTTP request
or stores a session. Every callback fails, and every login fails whose discovery document is not
in the cache.

* `callback_result`: a finished callback has created a session, or it has failed and created none.
* `sessions_kept`, `table_kept`: the run lemmas about the session store and the table.
* `online_of_outbound`: an HTTP request was made by a program that is not offline.
-/

set_option autoImplicit false

namespace Tim.OAuth

open Tim.Lib OAuthService

section Runs

variable {K : OAuthCrates} {store : SessionStore} {discoveryTtl jwksTtl : Nat}
  {svc : OAuthService K}
  {P : FlowPool store discoveryTtl jwksTtl → FlowLabel store discoveryTtl jwksTtl → Prop}
  {s₀ : State store} {c : FlowPool store discoveryTtl jwksTtl}

/-! ### Finished requests -/

/-- The request is a callback. -/
def Request.isCallback : Request → Bool
  | .completeCallback .. | .authCallback .. => true
  | _ => false

/-- The request is a login. -/
def Request.isLogin : Request → Bool
  | .buildLoginUrl .. | .authLogin .. => true
  | _ => false

/-- The answer is an error: of the handler, or one that the provider has reported. -/
def Failed : Except Fault Response → Prop
  | .error _ => True
  | .ok (.callbackAnswer (.providerError ..)) => True
  | .ok _ => False

/-- A finished callback reports a session, or it has failed and created none. -/
theorem callback_result (h : FlowReach svc P s₀ c) {tid : Nat}
    {t : Task oauthSig Fault Response Request} (ht : c.tasks[tid]? = some t)
    (hreq : t.req.isCallback = true) {x : Except Fault Response} (hx : t.result = some x) :
    (∃ r, sessionResult t = some r) ∨ Failed x ∧ NoSession (eventsOf c.history tid) := by
  have hdone := h.result_spec svc.program_spec ht hx
  cases hr : t.req with
  | completeCallback providerId code state =>
      rw [hr] at hdone
      cases x with
      | error e => exact .inr ⟨trivial, hdone⟩
      | ok resp =>
          cases resp with
          | callback r => exact .inl ⟨r, by simp [sessionResult, hr, hx]⟩
          | _ => exact hdone.elim
  | authCallback id q =>
      rw [hr] at hdone
      cases x with
      | error e => exact .inr ⟨trivial, hdone⟩
      | ok resp =>
          cases resp with
          | callbackAnswer r =>
              cases r with
              | opened r => exact .inl ⟨r, by simp [sessionResult, hr, hx]⟩
              | providerError p e d => exact .inr ⟨trivial, hdone⟩
          | _ => exact hdone.elim
  | _ => simp [hr, Request.isCallback] at hreq

/-- A callback that reports a session has not failed. -/
theorem not_failed_of_sessionResult {t : Task oauthSig Fault Response Request}
    {x : Except Fault Response} {r : CallbackResult} (hx : t.result = some x)
    (hr : sessionResult t = some r) : ¬ Failed x := by
  intro hfail
  unfold sessionResult at hr
  rw [hx] at hr
  split at hr
  · rename_i hsame
    cases hsame
    exact hfail
  · rename_i hsame
    cases hsame
    exact hfail
  · cases hr

/-! ### The session store -/

/-- A `create` whose answer is not one of `Q` leaves the store as it was. -/
def KeepsUnless (store : SessionStore) (Q : Except TimError Unit → Prop) : Prop :=
  ∀ m session st, ¬ Q (store.create m session st).1 → (store.create m session st).2 = st

/-- A `create` that fails leaves the table of the sessions as it is. -/
theorem postgres_create_error {A : SealCrates} {cipher : SessionCipher A} {m : Moment}
    {session : Session} {table table' : SessionTable} {e : TimError}
    (h : PostgresStore.create cipher m session table = (.error e, table')) : table' = table := by
  unfold PostgresStore.create at h
  split at h
  · cases h
    rfl
  · split at h
    · cases h
      rfl
    · split at h
      · cases h
        rfl
      · cases h

/-- A `create` that fails leaves the store as it was. -/
theorem backend_keeps {A : SealCrates} (cipher : SessionCipher A) (b : SessionBackend) :
    KeepsUnless (b.store cipher) fun r => r = .ok () := by
  intro m session st hne
  cases b with
  | memory => exact absurd rfl hne
  | postgres =>
      cases hr : ((postgresStore cipher).create m session st).1 with
      | ok _ => exact absurd hr hne
      | error e => exact postgres_create_error (Prod.ext hr rfl)

/-- Sessions change only when one is created. -/
theorem sessions_kept {Q : Except TimError Unit → Prop} (hstore : KeepsUnless store Q)
    (h : FlowReach svc P s₀ c) :
    c.shared.sessions = s₀.sessions ∨ ∃ tid session r, Q r
      ∧ (tid, (⟨Op.createSession session, r⟩ : Event oauthSig)) ∈ c.history := by
  refine flow_invariant (I := fun s hist => s.sessions = s₀.sessions ∨ ∃ tid session r, Q r
    ∧ (tid, (⟨Op.createSession session, r⟩ : Event oauthSig)) ∈ hist) h (.inl rfl) ?_ ?_
  · intro s hist tid o r s' req _ heff hI
    rcases hI with hsame | ⟨tid', session, r', hQ, hmem⟩
    · cases heff with
      | created session nonce =>
          by_cases hQ : Q (store.create ⟨s.clock, nonce⟩ session s.sessions).1
          · exact .inr ⟨tid, session, _, hQ, List.mem_append_right _ List.mem_cons_self⟩
          · refine .inl ?_
            show (store.create _ _ _).2 = _
            rw [hstore _ _ _ hQ]
            exact hsame
      | _ => exact .inl hsame
    · exact .inr ⟨tid', session, r', hQ, List.mem_append_left _ hmem⟩
  · intro s hist s' henv hI
    rcases hI with hsame | hmem
    · exact .inl (henv.sessions.trans hsame)
    · exact .inr hmem

/-! ### The state table -/

/-- The guard of the runs whose only request is `req`. -/
def Alone (req : Request) (c : FlowPool store discoveryTtl jwksTtl)
    (l : FlowLabel store discoveryTtl jwksTtl) : Prop :=
  ∀ req', l = .spawn req' → req' = req ∧ c.tasks = []

/-- In a run of one request there is one task, with that request. -/
theorem req_of_alone {req : Request} (h : FlowReach svc (Alone req) s₀ c) :
    ∀ tid t, c.tasks[tid]? = some t → tid = 0 ∧ t.req = req := by
  refine h.invariant (I := fun c => ∀ tid t, c.tasks[tid]? = some t → tid = 0 ∧ t.req = req)
    (by simp [Pool.init]) ?_
  intro c l c' hr hP hn ih tid t ht
  rcases hn.task_back ht with ⟨t', ht', hreq⟩ | rfl
  · obtain ⟨hzero, hsame⟩ := ih tid t' ht'
    exact ⟨hzero, hreq ▸ hsame⟩
  · obtain ⟨hsame, hnil⟩ := hP t.req rfl
    cases hn with
    | spawn _ =>
        rw [hnil] at ht
        have hlt := (List.getElem?_eq_some_iff.mp ht).1
        simp only [List.nil_append, List.length_cons, List.length_nil] at hlt
        exact ⟨by omega, hsame⟩

/-- The `DELETE` of a callback finds a row: one of the provider that is younger than
`state_max_age_seconds`. -/
def Matches (svc : OAuthService K) (s : State store) (now : DateTime) (providerId state : String) :
    Prop :=
  ∃ row, s.states[state]? = some row ∧ row.providerId = providerId
    ∧ now.toTimestamptz.ns - row.createdAt.ns < svc.stateMaxAgeSeconds.toNat * nanosPerSecond

/-- A callback on its own changes the table only when it finds a row in it. -/
def TableKept (svc : OAuthService K) (s₀ : State store) (req : Request) (s : State store) : Prop :=
  s₀.clock ≤ s.clock ∧ (s.states = s₀.states ∨ ∃ providerId code state now,
    req.callback = some (providerId, code, state)
      ∧ (∃ provider, svc.providers[providerId]? = some provider)
      ∧ s₀.clock ≤ now ∧ now ≤ s.clock ∧ Matches svc s₀ now providerId state)

/-- The run lemma behind `failed_callback`: the table `auth.oauth_state` changes only by the row
that the callback itself has found. -/
theorem table_kept {req : Request} (hreq : req.isCallback = true)
    (h : FlowReach svc (Alone req) s₀ c) : TableKept svc s₀ req c.shared := by
  refine h.invariant (I := fun c => TableKept svc s₀ req c.shared)
    ⟨Int.le_refl _, .inl rfl⟩ ?_
  intro c l c' hr _ hn ⟨hclock, hkept⟩
  cases hn with
  | spawn req' => exact ⟨hclock, hkept⟩
  | cancel tid req' o k htask => exact ⟨hclock, hkept⟩
  | env e s henv =>
      have hstep : EnvStep c.shared s := envStep_of_env henv
      refine ⟨Int.le_trans hclock hstep.clock, ?_⟩
      rcases hkept with hsame | ⟨providerId, code, state, now, hcb, hp, hlo, hhi, hmatch⟩
      · exact .inl (hstep.states.trans hsame)
      · exact .inr ⟨providerId, code, state, now, hcb, hp, hlo, Int.le_trans hhi hstep.clock,
          hmatch⟩
  | step tid ch req' o k r s htask hexec =>
      have heff : State.Effect discoveryTtl jwksTtl tid c.shared o r s := State.exec_effect hexec
      have hcall := hr.call_spec svc.program_spec htask
      obtain ⟨-, rfl⟩ : tid = 0 ∧ req' = req := req_of_alone hr tid _ htask
      have hsameClock : s.clock = c.shared.clock := heff.clock_eq
      refine ⟨by rw [hsameClock]; exact hclock, ?_⟩
      rcases hkept with hsame | ⟨providerId, code, state, now, hcb, hp, hlo, hhi, hmatch⟩
      · cases heff with
        | inserted row hfree =>
            -- A callback makes no login URL.
            obtain ⟨_, _, hlogin, -⟩ := hcall
            cases req' with
            | completeCallback _ _ _ => cases hlogin
            | authCallback _ _ => cases hlogin
            | _ => cases hreq
        | swept maxAge =>
            obtain ⟨rfl, -⟩ := hcall
            cases hreq
        | consumed state providerId maxAge row hrow hprovider hyoung =>
            obtain ⟨-, rfl, hp, code, hcb⟩ := hcall
            rw [hsame] at hrow
            exact .inr ⟨providerId, code, state, c.shared.clock, hcb, hp, hclock, Int.le_refl _,
              row, hrow, hprovider, age_lt hyoung⟩
        | _ => exact .inl hsame
      · refine .inr ⟨providerId, code, state, now, hcb, hp, hlo, ?_, hmatch⟩
        rw [hsameClock]
        exact hhi

/-- A callback on its own that has failed. The session store is as before. Without a code and a
state, for an unknown provider, and when no row matches while it is served, the table
`auth.oauth_state` is as before too. -/
theorem failed_callback {A : SealCrates} (cipher : SessionCipher A) (b : SessionBackend)
    {s₀ : State (b.store cipher)} {c : FlowPool (b.store cipher) discoveryTtl jwksTtl}
    {req : Request} (hreq : req.isCallback = true) (h : FlowReach svc (Alone req) s₀ c)
    {t : Task oauthSig Fault Response Request} {x : Except Fault Response}
    (ht : c.tasks[0]? = some t) (hx : t.result = some x) (hfail : Failed x) :
    c.shared.sessions = s₀.sessions
      ∧ (req.callback = none → c.shared.states = s₀.states)
      ∧ ∀ providerId code state, req.callback = some (providerId, code, state) →
        (svc.providers[providerId]? = none
          ∨ ∀ now, s₀.clock ≤ now → now ≤ c.shared.clock → ¬ Matches svc s₀ now providerId state) →
        c.shared.states = s₀.states := by
  have htable := (table_kept hreq h).2
  obtain ⟨-, htreq⟩ := req_of_alone h 0 t ht
  refine ⟨?_, ?_, ?_⟩
  · rcases sessions_kept (backend_keeps cipher b) h with hsame | ⟨tid, session, _, rfl, hmem⟩
    · exact hsame
    · -- The event would be one of the callback, and then it reports a session.
      obtain ⟨t', ht'⟩ := h.task_of_event hmem
      obtain ⟨rfl, -⟩ := req_of_alone h tid t' ht'
      rcases callback_result h ht (by rw [htreq]; exact hreq) hx with ⟨r, hr⟩ | ⟨-, hno⟩
      · exact absurd hfail (not_failed_of_sessionResult hx hr)
      · exact absurd (mem_eventsOf.mpr hmem) (hno session)
  · intro hnone
    rcases htable with hsame | ⟨_, _, _, _, hcb, -⟩
    · exact hsame
    · rw [hnone] at hcb
      cases hcb
  · intro providerId code state hcallback hno
    rcases htable with hsame | ⟨_, _, _, now, hcb, ⟨provider, hp⟩, hlo, hhi, hmatch⟩
    · exact hsame
    · rw [hcallback] at hcb
      cases hcb
      rcases hno with hnone | hnone
      · rw [hp] at hnone
        cases hnone
      · exact absurd hmatch (hnone now hlo hhi)

/-! ### The offline mode -/

/-- A request to the outside is made only when the offline mode is off. -/
theorem online_of_outbound (h : FlowReach svc P s₀ c) {tid : Nat} {e : Event oauthSig}
    (hmem : (tid, e) ∈ c.history) (hout : e.op.isOutbound = true) : svc.offline = false := by
  obtain ⟨t, ht⟩ := h.task_of_event hmem
  obtain ⟨h₁, h₂, hsplit⟩ := List.append_of_mem (mem_eventsOf.mpr hmem)
  have hcall := h.event_spec svc.program_spec ht hsplit
  cases hop : e.op with
  | httpGet url =>
      rw [hop] at hcall
      exact hcall
  | httpPost url clientId clientSecret form =>
      rw [hop] at hcall
      exact hcall.1
  | _ => simp [hop, Op.isOutbound] at hout

/-- So is a session created. -/
theorem online_of_create (h : FlowReach svc P s₀ c) {tid : Nat} {session : Session}
    {r : Except TimError Unit}
    (hmem : (tid, (⟨Op.createSession session, r⟩ : Event oauthSig)) ∈ c.history) :
    svc.offline = false := by
  obtain ⟨_, _, o, ho, -⟩ := opening_of_create h hmem
  exact online_of_outbound h (mem_eventsOf.mp ho.posted) rfl

/-- A login looks the document up once. -/
theorem lookup_once (h : FlowReach svc P s₀ c) {tid : Nat} {url url' : String}
    {r r' : Option Discovery} (h₁ : (tid, (⟨Op.discoveryGet url, r⟩ : Event oauthSig)) ∈ c.history)
    (h₂ : (tid, (⟨Op.discoveryGet url', r'⟩ : Event oauthSig)) ∈ c.history) : r = r' := by
  obtain ⟨i, hi⟩ := List.mem_iff_getElem?.mp h₁
  obtain ⟨j, hj⟩ := List.mem_iff_getElem?.mp h₂
  have hij : i = j := by
    refine h.once svc.program_spec (p := fun o => ∃ url, o = .discoveryGet url) ?_ hi hj
      ⟨url, rfl⟩ ⟨url', rfl⟩
    rintro req h o hcall ⟨url, rfl⟩ ⟨o', r⟩ hmem ⟨url', rfl⟩
    exact hcall url' r hmem
  subst hij
  rw [hi] at hj
  cases hj
  rfl

/-- A login that found no document in the cache and is finished has failed, when the offline
mode is on. -/
theorem login_fails_offline (h : FlowReach svc P s₀ c) (hoff : svc.offline = true) {tid : Nat}
    {t : Task oauthSig Fault Response Request} (ht : c.tasks[tid]? = some t)
    (hreq : t.req.isLogin = true) {url : String}
    (hmiss : (tid, (⟨Op.discoveryGet url, none⟩ : Event oauthSig)) ∈ c.history)
    {x : Except Fault Response} (hx : t.result = some x) : Failed x := by
  have hdone := h.result_spec svc.program_spec ht hx
  cases x with
  | error e => exact trivial
  | ok resp =>
      exfalso
      -- A login that returned a URL has the document from the cache, so the lookup has hit.
      have hurl : ∃ r providerId redirectUri,
          svc.LoginDone providerId redirectUri (eventsOf c.history tid) (.ok r) := by
        cases hr : t.req with
        | buildLoginUrl providerId redirectUri =>
            rw [hr] at hdone
            cases resp with
            | authUrl r =>
                obtain ⟨id, uri, -, hr⟩ := hdone
                exact ⟨r, id, uri, hr⟩
            | _ => exact hdone.elim
        | authLogin id redirectUri =>
            rw [hr] at hdone
            cases resp with
            | authUrl r =>
                obtain ⟨id, uri, -, hr⟩ := hdone
                exact ⟨r, id, uri, hr⟩
            | _ => exact hdone.elim
        | _ => simp [hr, Request.isLogin] at hreq
      obtain ⟨r, _, _, discovery, provider, -, hgot, -⟩ := hurl
      rcases hgot with hhit | ⟨honline, -⟩
      · cases lookup_once h hmiss (mem_eventsOf.mp hhit)
      · rw [hoff] at honline
        cases honline

/-- With a truthy `TIM_OFFLINE`, in every run from any state: no HTTP request is made, no session
is created, every finished callback has failed, and so has every finished login that found no
document in the cache. -/
theorem offline_airtight (env : Option String) (henv : svc.offline = isOffline env)
    (hon : isOffline env = true) (h : FlowReach svc P s₀ c) :
    (∀ tid e, (tid, e) ∈ c.history → e.op.isOutbound = false)
      ∧ (∀ tid session (r : Except TimError Unit),
        (tid, (⟨Op.createSession session, r⟩ : Event oauthSig)) ∉ c.history)
      ∧ c.shared.sessions = s₀.sessions
      ∧ (∀ (tid : Nat) (t : Task oauthSig Fault Response Request) x, c.tasks[tid]? = some t →
        t.req.isCallback = true → t.result = some x → Failed x)
      ∧ ∀ (tid : Nat) (t : Task oauthSig Fault Response Request) url x,
        c.tasks[tid]? = some t → t.req.isLogin = true →
        (tid, (⟨Op.discoveryGet url, none⟩ : Event oauthSig)) ∈ c.history →
        t.result = some x → Failed x := by
  have hoff : svc.offline = true := henv.trans hon
  have hnot : svc.offline ≠ false := by
    rw [hoff]
    decide
  refine ⟨?_, ?_, ?_, ?_, ?_⟩
  · intro tid e hmem
    cases hout : e.op.isOutbound with
    | false => rfl
    | true => exact absurd (online_of_outbound h hmem hout) hnot
  · exact fun tid session r hmem => hnot (online_of_create h hmem)
  · have hstore : KeepsUnless store fun _ => True := fun _ _ _ hnone => absurd trivial hnone
    rcases sessions_kept hstore h with hsame | ⟨tid, session, r, -, hmem⟩
    · exact hsame
    · exact absurd (online_of_create h hmem) hnot
  · intro tid t x ht hreq hx
    rcases callback_result h ht hreq hx with ⟨r, hr⟩ | ⟨hfail, -⟩
    · exact absurd (created_of_sessionResult h ht hr).1 hnot
    · exact hfail
  · exact fun tid t url x ht hreq hmiss hx => login_fails_offline h hoff ht hreq hmiss hx

end Runs

end Tim.OAuth

namespace Tim.OAuth.Sample

open Tim.Lib Symbolic

/-- The callback of the sample login. -/
def callback : Request :=
  .authCallback "idp" ⟨some "code", some (hexEncode (random 1)), none, none⟩

/-- The sample service in the offline mode. -/
def offlineFlow : OAuthService idp := { flow with offline := isOffline (some " True ") }

/-- The row of the sample login. -/
def loginRow : StateRow where
  state := hexEncode (random 1)
  providerId := "idp"
  nonce := hexEncode (random 2)
  redirectUri := some "https://app.test/cb"
  pkceVerifier := some "verifier"
  createdAt := instant 900

/-- The state after the login, with its document in the cache. -/
def loggedIn : State memoryStore := { flowStart with
  states := flowStart.states.insert loginRow.state loginRow
  discovery := flowStart.discovery.insert documentUrl ⟨document, instant 900⟩ }

/-- The session of another user. -/
def openSession : Session where
  id := "s1"
  providerId := "slow"
  userId := "bob"
  createdAt := instant 900
  lastActivity := instant 950
  expiresAt := instant 4500
  profile := ∅

/-- A state in which the row belongs to a login at the other provider, while a session is open. -/
def crossed : State memoryStore := { flowStart with
  states := flowStart.states.insert loginRow.state { loginRow with providerId := "slow" }
  sessions := (MemoryStore.create ⟨instant 900, Vector.replicate 12 0⟩ openSession ∅).2 }

/-- The answer of a finished task is an error. -/
def isError (t : Task oauthSig Fault Response Request) : Bool :=
  match t.result with
  | some (.error _) => true
  | _ => false

/-- A task that the test takes for failed has failed. -/
theorem result_of_isError {t : Task oauthSig Fault Response Request} (h : isError t = true) :
    ∃ e, t.result = some (.error e) := by
  unfold isError at h
  split at h
  · rename_i e hres
    exact ⟨e, hres⟩
  · cases h

/-- The callback on its own, on a state `s`, is served until it fails. -/
theorem callback_run (svc : OAuthService idp) (s : State memoryStore) (labels : List SampleLabel)
    (hrun : (Pool.run svc.program (fun _ l => match l with
      | .spawn _ => false
      | _ => true) (⟨s, [⟨callback, some (svc.program callback)⟩], []⟩ : SamplePool) labels).any
        (fun c => (c.tasks[0]?).any isError) = true) :
    ∃ (c : SamplePool) (t : Task oauthSig Fault Response Request) (e : Fault),
      FlowReach svc (Alone callback) s c ∧ c.tasks[0]? = some t
      ∧ t.req.isCallback = true ∧ t.result = some (.error e) := by
  let c₀ : SamplePool := ⟨s, [⟨callback, some (svc.program callback)⟩], []⟩
  have hstart : FlowReach svc (Alone callback) s c₀ := by
    refine .tail (.spawn callback) .refl ?_ rfl
    rintro req ⟨⟩
    exact ⟨rfl, rfl⟩
  obtain ⟨c, h, hq⟩ :=
    Pool.exists_reach svc.program _ (fun c => (c.tasks[0]?).any isError) c₀ labels hrun
  have h : Pool.Reach svc.program (Alone callback) c₀ c := by
    refine h.mono fun c l hl req heq => ?_
    subst heq
    cases hl
  obtain ⟨t, ht, herr⟩ := (Option.any_eq_true _ _).mp hq
  obtain ⟨e, he⟩ := result_of_isError herr
  have hreach := hstart.trans h
  obtain ⟨-, hreq⟩ := req_of_alone hreach 0 t ht
  exact ⟨c, t, e, hreach, ht, by rw [hreq]; rfl, he⟩

end Tim.OAuth.Sample

namespace Tim.OAuth

open Tim.Lib

open Symbolic Sample in
/-- A callback at one provider with the state of a login at the other: the row stays, and so does
the session. -/
theorem failed_callback_sample :
    ∃ c : SamplePool, FlowReach flow (Alone callback) crossed c
      ∧ c.shared.sessions = crossed.sessions ∧ c.shared.states = crossed.states := by
  obtain ⟨c, t, e, h, ht, -, hres⟩ := callback_run flow crossed [.step 0 .go]
    (by decide +kernel)
  have hall := failed_callback (⟨random 0xaa⟩ : SessionCipher sealing) .memory rfl h ht hres trivial
  refine ⟨c, h, hall.1, hall.2.2 "idp" "code" (hexEncode (random 1)) rfl (.inr ?_)⟩
  rintro now - - ⟨row, hrow, hprovider, -⟩
  have hfound : crossed.states[hexEncode (random 1)]?
      = some { loginRow with providerId := "slow" } := by decide +kernel
  rw [hfound] at hrow
  cases hrow
  exact absurd hprovider (by decide)

open Symbolic Sample in
/-- In the offline mode, the callback of a login fails at the token exchange. -/
theorem offline_airtight_sample :
    ∃ (c : SamplePool) (t : Task oauthSig Fault Response Request) (x : Except Fault Response),
      FlowReach offlineFlow (Alone callback) loggedIn c ∧ c.tasks[0]? = some t
      ∧ t.result = some x ∧ Failed x ∧ c.shared.sessions = loggedIn.sessions := by
  obtain ⟨c, t, e, h, ht, hreq, hres⟩ := callback_run offlineFlow loggedIn
    [.step 0 .go, .step 0 .go, .step 0 .go] (by decide +kernel)
  have hall := offline_airtight (some " True ") rfl (by decide +kernel) h
  exact ⟨c, t, .error e, h, ht, hres, hall.2.2.2.1 0 t _ ht hreq hres, hall.2.2.1⟩

end Tim.OAuth
