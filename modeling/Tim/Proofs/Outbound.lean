import Tim.Proofs.Discovery
import Tim.Proofs.Login

/-!
# `Tim.Proofs.Outbound`: where the flow sends its requests

The flow talks to hosts that it learns about at run time: the endpoints stand in a discovery
document, and the document can come out of a cache that all requests share. This module follows
every request that the program issues back to the configuration. Where a server answers with a
redirect, the HTTP client may follow it by its own policy. Such requests are not the program's, and
nothing is said about them: what counts as downloaded from a URL is the answer to the request for
that URL.

* `cached_published`: whatever the cache holds under a URL was downloaded from that URL.
* `credentials_confined`: a request with the credentials of a provider is a token request, made
  by a callback of that provider, to the token endpoint of a document downloaded from that
  provider's discovery URL and past its pin. It redeems one login of the same provider, with the
  redirect URI and the verifier of that login, and no login is redeemed twice. Every other
  request goes to a configured discovery URL or to the key set of such a document.
* `redirects_permitted`: the redirect URIs on the way, in the authorization URL and in the token
  request, are those that the configuration permits for the provider.

The specification `Sends` says what a program knows when it makes an outgoing call. The rest is
`Pool.Reach.at_event`: the state that gave the answer, and the run that led to it.

* `program_sends`: each request of the flow sends only what `Sends` allows, where it is in the
  program.
* `post_redeems`, `redemption_unique`: a token request redeems one login, and each login is redeemed
  once.
-/

set_option autoImplicit false

namespace Tim.OAuth

open Tim.Lib Tim.Lib.Prog Tim.OAuth.Flow

namespace OAuthService

variable {K : OAuthCrates} (svc : OAuthService K)

/-! ### What a request works with -/

/-- The URL that a request looks its document up under. -/
def discoveryUrlOf : Request → Option String
  | .fetchWith url _ => some url
  | req => req.providerId.bind fun id =>
      (svc.providers[id]?).map fun provider => provider.config.discoveryUrl

/-- A document that the cache has handed out, or that was put there. -/
def Holds (url : String) (doc : Discovery) (h : List (Event oauthSig)) : Prop :=
  ⟨Op.discoveryGet url, some doc⟩ ∈ h ∨ ⟨Op.discoveryInsert url doc, ()⟩ ∈ h

/-- The document whose key set a request loads, among those that are `held` under a URL. -/
def Trusts (held : String → Discovery → Prop) (doc : Discovery) : Request → Prop
  | .verify discovery .. => doc = discovery
  | req => ∃ id provider, req.providerId = some id ∧ svc.providers[id]? = some provider
      ∧ held provider.config.discoveryUrl doc ∧ enforceJwksPin provider doc = .ok ()

/-- What a callback knows when it makes the token request. -/
structure Redeeming (req : Request) (h : List (Event oauthSig))
    (url clientId clientSecret : String) (form : List (String × String)) : Prop where
  evidence : ∃ providerId code state provider row doc,
    req.callback = some (providerId, code, state) ∧ svc.providers[providerId]? = some provider
      ∧ ⟨Op.deleteState state providerId svc.maxAge, Except.ok (some row)⟩ ∈ h
      ∧ Holds provider.config.discoveryUrl doc h ∧ enforceJwksPin provider doc = .ok ()
      ∧ url = doc.tokenEndpoint ∧ clientId = provider.clientId
      ∧ clientSecret = provider.clientSecret
      ∧ form = tokenForm code row.redirectUri row.pkceVerifier
  first : ∀ e ∈ h, ∀ url clientId clientSecret form,
    e.op ≠ .httpPost url clientId clientSecret form

/-- The outgoing calls of a request, and its inserts into the cache. -/
def Sends (req : Request) (h : List (Event oauthSig)) : Op → Prop
  | .httpGet url => svc.discoveryUrlOf req = some url
      ∨ ∃ doc, svc.Trusts (Holds · · h) doc req ∧ url = doc.jwksUri
  | .discoveryInsert url doc => svc.discoveryUrlOf req = some url ∧ Download K url doc h
  | .httpPost url clientId clientSecret form =>
      svc.Redeeming req h url clientId clientSecret form
  | _ => True

variable {svc}

/-- The discovery URL of a request is that of the provider that it names. -/
theorem discoveryUrlOf_of_providerId {req : Request} {id : String} {provider : Provider}
    (hreq : req.providerId = some id) (hp : svc.providers[id]? = some provider) :
    svc.discoveryUrlOf req = some provider.config.discoveryUrl := by
  cases req with
  | fetchWith url allowHttp => cases hreq
  | _ => simp [discoveryUrlOf, hreq, hp]

/-- What `fetch_with` has returned is held. -/
theorem GotDiscovery.holds {url : String} {allowHttp : Bool} {doc : Discovery}
    {h : List (Event oauthSig)} (hd : svc.GotDiscovery url allowHttp doc h) : Holds url doc h :=
  hd.imp id fun hfetched => hfetched.2.2.2

/-- A document that was handed out stays so. -/
theorem Holds.mono {url : String} {doc : Discovery} {h h' : List (Event oauthSig)}
    (hd : Holds url doc h) (hsub : ∀ e ∈ h, e ∈ h') : Holds url doc h' :=
  hd.imp (hsub _) (hsub _)

/-- A request that names a provider trusts what is held under the provider's URL. -/
theorem trusts_of_held {held : String → Discovery → Prop} {req : Request} {id : String}
    {provider : Provider} {doc : Discovery} (hreq : req.providerId = some id)
    (hp : svc.providers[id]? = some provider) (hd : held provider.config.discoveryUrl doc)
    (hpin : enforceJwksPin provider doc = .ok ()) : svc.Trusts held doc req := by
  cases req with
  | verify discovery provider idToken nonce => cases hreq
  | _ => exact ⟨id, provider, hreq, hp, hd, hpin⟩

/-- What a request trusts may be described more loosely. -/
theorem Trusts.imp {held held' : String → Discovery → Prop} {req : Request} {doc : Discovery}
    (ht : svc.Trusts held doc req) (himp : ∀ url doc, held url doc → held' url doc) :
    svc.Trusts held' doc req := by
  cases req with
  | verify discovery provider idToken nonce => exact ht
  | _ =>
      obtain ⟨id, provider, hreq, hp, hd, hpin⟩ := ht
      exact ⟨id, provider, hreq, hp, himp _ _ hd, hpin⟩

/-! ### The programs -/

section Programs

variable {req : Request}

/-- `fetch_with` sends its requests to the URL of the document, and what it returns it holds. -/
theorem fetchWith_sends {url : String} {allowHttp : Bool}
    (hurl : svc.discoveryUrlOf req = some url) (h : List (Event oauthSig)) :
    Spec (svc.Sends req) (fun h' x => QuietTo h h' ∧ ∀ doc, x = .ok doc → Holds url doc h')
      h (svc.fetchWith url allowHttp) := by
  have hcalls : svc.DiscoveryCalls url allowHttp (svc.Sends req) := {
    fetch := fun _ _ => .inl hurl
    sleep := fun _ _ => trivial
    insert := fun _ _ hdown _ => ⟨hurl, hdown⟩ }
  refine (fetchWith_spec hcalls trivial).mono (fun _ _ hφ => hφ) ?_
  rintro h' x ⟨hq, hdoc⟩
  exact ⟨hq, fun doc heq => (hdoc doc heq).holds⟩

/-- The key set is loaded from the trusted document. -/
theorem verify_sends {discovery : Discovery} {provider : Provider} {idToken nonce : String}
    {h : List (Event oauthSig)} (hdoc : ∀ h', h <+: h' → svc.Trusts (Holds · · h') discovery req) :
    Spec (svc.Sends req) (fun _ _ => True) h (svc.verify discovery provider idToken nonce) := by
  have hcalls : svc.JwksCalls discovery.jwksUri (fun h' o => h <+: h' → svc.Sends req h' o) := {
    get := fun _ _ => trivial
    load := fun h' _ hpre => .inr ⟨discovery, hdoc h' hpre, rfl⟩
    insert := fun _ _ _ _ => trivial }
  refine Spec.of_prefix ?_ (List.prefix_refl h)
  exact (verify_spec hcalls (fun _ _ => trivial) h).mono (fun _ _ hφ => hφ)
    (fun _ _ _ _ => trivial)

/-- A login sends one request at most, to the discovery URL. -/
theorem buildLoginUrl_sends {providerId redirectUri : String}
    (hreq : req.providerId = some providerId) :
    Spec (svc.Sends req) (fun _ _ => True) [] (svc.buildLoginUrl providerId redirectUri) := by
  unfold buildLoginUrl
  split
  · exact trivial
  · rename_i provider hp
    refine spec_seq (fetchWith_sends (discoveryUrlOf_of_providerId hreq hp) []) ?_
      (fun _ _ _ => trivial)
    intro h discovery _
    refine spec_try_bind.mpr ⟨fun _ _ => ?_, fun _ _ => trivial⟩
    refine spec_randomHex_bind trivial fun _ => ?_
    refine spec_randomHex_bind trivial fun _ => ?_
    refine ⟨trivial, fun raw => ⟨trivial, fun r => ?_⟩⟩
    refine spec_sql_bind.mpr ⟨fun _ _ => ?_, fun _ _ => trivial⟩
    split <;> exact trivial

/-- The token request is the only one of its part, with the credentials of the provider. -/
theorem exchange_sends {provider : Provider} {endpoint : String}
    {form : List (String × String)} {h : List (Event oauthSig)}
    (hpost : svc.Redeeming req h endpoint provider.clientId provider.clientSecret form) :
    Spec (svc.Sends req) (fun h' _ => h <+: h') h (svc.exchange provider endpoint form) := by
  unfold exchange
  split
  · exact List.prefix_refl h
  · refine spec_call_bind.mpr ⟨hpost, fun r => ?_⟩
    have hpre := List.prefix_append h [(⟨Op.httpPost endpoint provider.clientId
      provider.clientSecret form, r⟩ : Event oauthSig)]
    cases r with
    | error e =>
        show Spec _ _ _ (ite _ _ _)
        split
        · exact hpre
        · exact hpre
    | ok resp =>
        show Spec _ _ _ (ite _ _ _)
        split
        · exact hpre
        · split
          · exact hpre
          · exact hpre

/-- Opening a session sends nothing. -/
theorem openSession_sends (providerId : String) (provider : Provider) (tokens : TokenResponse)
    (claims : IdTokenClaims) (h : List (Event oauthSig)) :
    Spec (svc.Sends req) (fun _ _ => True) h
      (svc.openSession providerId provider tokens claims) := by
  unfold openSession
  refine spec_call_bind.mpr ⟨trivial, fun now => ?_⟩
  unfold addSeconds
  split
  · exact trivial
  · refine spec_randomHex_bind trivial fun _ => spec_call_bind.mpr ⟨trivial, fun r => ?_⟩
    exact spec_try_bind.mpr ⟨fun _ _ => trivial, fun _ _ => trivial⟩

/-- A callback with a row sends requests to the discovery URL, to the token endpoint and for the
keys, in the order in which each gives the URL of the next. -/
theorem redeem_sends {providerId code state : String} {provider : Provider} {row : Returned}
    (hreq : req.callback = some (providerId, code, state))
    (hp : svc.providers[providerId]? = some provider) :
    Spec (svc.Sends req) (fun _ _ => True)
      [⟨Op.deleteState state providerId svc.maxAge, Except.ok (some row)⟩]
      (svc.redeem providerId provider code row) := by
  have hid := providerId_of_callback hreq
  unfold redeem
  refine spec_seq (fetchWith_sends (discoveryUrlOf_of_providerId hid hp) _) ?_
    (fun _ _ _ => trivial)
  intro h₁ discovery hfetched
  have hq := hfetched.1
  have hdoc := hfetched.2 discovery rfl
  refine spec_try_bind.mpr ⟨fun _ hpin => ?_, fun _ _ => trivial⟩
  refine spec_call_bind.mpr ⟨trivial, fun client => ?_⟩
  have hq := hq.snoc .buildClient client trivial
  cases client with
  | error e => exact trivial
  | ok _ =>
      let h₂ := h₁ ++ [⟨Op.buildClient, Except.ok ()⟩]
      have hheld : Holds provider.config.discoveryUrl discovery h₂ :=
        hdoc.mono fun e he => List.mem_append_left _ he
      -- Only the `DELETE` and quiet calls so far.
      have hpost : svc.Redeeming req h₂ discovery.tokenEndpoint provider.clientId
          provider.clientSecret (tokenForm code row.redirectUri row.pkceVerifier) := {
        evidence := ⟨providerId, code, state, provider, row, discovery, hreq, hp,
          hq.mem List.mem_cons_self, hheld, hpin, rfl, rfl, rfl, rfl⟩
        first := fun e he url clientId clientSecret form heq => by
          have hloud : ¬ Quiet e.op := by
            rw [heq]
            exact id
          cases List.mem_singleton.mp (hq.mem_back he hloud)
          cases heq }
      refine spec_seq (exchange_sends hpost) ?_ (fun _ _ _ => trivial)
      intro h₃ tokens hpre
      split
      · exact trivial
      · refine spec_seq (verify_sends fun h' hpre' => ?_) ?_ (fun _ _ _ => trivial)
        · refine trusts_of_held hid hp (hheld.mono fun e he => ?_) hpin
          exact (hpre.trans hpre').subset he
        · exact fun h₄ claims _ => openSession_sends providerId provider tokens claims h₄

/-- The same for the callback as a whole. -/
theorem completeCallback_sends {providerId code state : String}
    (hreq : req.callback = some (providerId, code, state)) :
    Spec (svc.Sends req) (fun _ _ => True) [] (svc.completeCallback providerId code state) := by
  unfold completeCallback
  split
  · exact trivial
  · rename_i provider hp
    refine spec_call_bind.mpr ⟨trivial, fun r => ?_⟩
    refine spec_sql_bind.mpr ⟨fun found hok => ?_, fun _ _ => trivial⟩
    subst hok
    cases found with
    | none => exact trivial
    | some row => exact redeem_sends hreq hp

end Programs

/-- The outgoing calls of every request. -/
theorem program_sends (svc : OAuthService K) (req : Request) :
    Spec (svc.Sends req) (fun _ _ => True) [] (svc.program req) := by
  cases req with
  | buildLoginUrl providerId redirectUri =>
      exact spec_seq (buildLoginUrl_sends rfl) (fun _ _ _ => trivial) (fun _ _ _ => trivial)
  | authLogin id redirectUri =>
      show Spec _ _ [] (svc.authLogin id redirectUri >>= fun r => pure (Response.authUrl r))
      unfold authLogin
      split
      · exact trivial
      · split
        · exact trivial
        · exact spec_seq (buildLoginUrl_sends rfl) (fun _ _ _ => trivial) (fun _ _ _ => trivial)
  | completeCallback providerId code state =>
      exact spec_seq (completeCallback_sends rfl) (fun _ _ _ => trivial) (fun _ _ _ => trivial)
  | authCallback id q =>
      show Spec _ _ [] (svc.authCallback id q >>= fun r => pure (Response.callbackAnswer r))
      unfold authCallback
      split
      · exact trivial
      · rename_i herror
        split
        · exact trivial
        · rename_i code hcode
          split
          · exact trivial
          · rename_i state hstate
            have hreq : Request.callback (.authCallback id q) = some (id, code, state) := by
              simp [Request.callback, herror, hcode, hstate]
            refine spec_seq (spec_seq (ψ := fun _ _ => True) (completeCallback_sends hreq)
              (fun _ _ _ => trivial) (fun _ _ _ => trivial)) ?_ (fun _ _ _ => trivial)
            exact fun _ _ _ => trivial
  | sweepOauthState =>
      refine spec_call_bind.mpr ⟨trivial, fun r => ?_⟩
      cases r <;> exact trivial
  | fetchWith url allowHttp =>
      exact spec_seq (fetchWith_sends rfl []) (fun _ _ _ => trivial) (fun _ _ _ => trivial)
  | verify discovery provider idToken nonce =>
      exact spec_seq (verify_sends fun _ _ => rfl) (fun _ _ _ => trivial) (fun _ _ _ => trivial)

end OAuthService

/-! ### Every run -/

open OAuthService

section Runs

variable {K : OAuthCrates} {store : SessionStore} {discoveryTtl jwksTtl : Nat}
  {svc : OAuthService K}
  {P : FlowPool store discoveryTtl jwksTtl → FlowLabel store discoveryTtl jwksTtl → Prop}
  {s₀ : State store} {c : FlowPool store discoveryTtl jwksTtl}

/-- Some task has downloaded the document from the URL. -/
def Published (K : OAuthCrates) (url : String) (doc : Discovery)
    (hist : List (Nat × Event oauthSig)) : Prop :=
  ∃ tid, Download K url doc (eventsOf hist tid)

/-- What was published stays so. -/
theorem Published.append {url : String} {doc : Discovery} {hist : List (Nat × Event oauthSig)}
    (hp : Published K url doc hist) (later : List (Nat × Event oauthSig)) :
    Published K url doc (hist ++ later) := by
  obtain ⟨tid, resp, hget, hrest⟩ := hp
  refine ⟨tid, resp, ?_, hrest⟩
  rw [eventsOf_append]
  exact List.mem_append_left _ hget

/-- A document is put into the cache by the task that has downloaded it. -/
theorem insert_published (h : FlowReach svc P s₀ c) {tid : Nat} {url : String} {doc : Discovery}
    {before after : List (Nat × Event oauthSig)}
    (hsplit : c.history = before ++ (tid, ⟨Op.discoveryInsert url doc, ()⟩) :: after) :
    Published K url doc before := by
  have hmem : (tid, (⟨Op.discoveryInsert url doc, ()⟩ : Event oauthSig)) ∈ c.history := by
    rw [hsplit]
    exact List.mem_append_right _ List.mem_cons_self
  obtain ⟨t, ht⟩ := h.task_of_event hmem
  exact ⟨tid, (h.history_spec svc.program_sends ht hsplit).2⟩

/-- What the cache holds under a URL was downloaded from that URL. -/
theorem cached_published (h : FlowReach svc P s₀ c) (hempty : s₀.discovery = ∅) {url : String}
    {e : Cached Discovery} (he : c.shared.discovery[url]? = some e) :
    Published K url e.value c.history := by
  obtain ⟨tid, hmem⟩ := discovery_origin h hempty he
  obtain ⟨before, after, hsplit⟩ := List.append_of_mem hmem
  rw [hsplit]
  exact (insert_published h hsplit).append _

/-- So was every document that a task holds. -/
theorem held_published (h : FlowReach svc P s₀ c) (hempty : s₀.discovery = ∅) {tid : Nat}
    {before after : List (Nat × Event oauthSig)} (hhist : c.history = before ++ after)
    {url : String} {doc : Discovery} (hd : Holds url doc (eventsOf before tid)) :
    Published K url doc before := by
  rcases hd with hget | hins
  · -- The cache has handed it out in a state of the run.
    obtain ⟨b₁, b₂, hb⟩ := List.append_of_mem (mem_eventsOf.mp hget)
    have hsplit : c.history = b₁ ++ (tid, ⟨Op.discoveryGet url, some doc⟩) :: (b₂ ++ after) := by
      rw [hhist, hb]
      simp
    obtain ⟨c', req, k, ch, s', hr, hhistory, -, -, hexec⟩ := h.at_event hsplit
    have heff : State.Effect discoveryTtl jwksTtl tid c'.shared (.discoveryGet url) (some doc)
        s' := State.exec_effect hexec
    cases heff with
    | found _ e he hlive =>
        have hpub := cached_published hr hempty he
        rw [hhistory] at hpub
        rw [hb]
        exact hpub.append _
  · obtain ⟨b₁, b₂, hb⟩ := List.append_of_mem (mem_eventsOf.mp hins)
    have hsplit : c.history = b₁ ++ (tid, ⟨Op.discoveryInsert url doc, ()⟩) :: (b₂ ++ after) := by
      rw [hhist, hb]
      simp
    rw [hb]
    exact (insert_published h hsplit).append _

/-! ### The token requests -/

/-- A request with credentials. -/
structure Post where
  url : String
  clientId : String
  clientSecret : String
  form : List (String × String)

/-- The call at the place `i` of the history is this request, made by the task `tid`. -/
def PostAt (c : FlowPool store discoveryTtl jwksTtl) (i tid : Nat) (p : Post) : Prop :=
  ∃ r : Except SendError HttpResponse,
    c.history[i]? = some (tid, ⟨Op.httpPost p.url p.clientId p.clientSecret p.form, r⟩)

/-- What a token request belongs to. -/
structure Redemption where
  providerId : String
  code : String
  provider : Provider
  document : Discovery
  removal : Removal
  login : Nat
  redirectUri : String

/-- The token request `p` that the task `tid` makes after the events `before` redeems a login. -/
structure Redemption.Explains (svc : OAuthService K) (c : FlowPool store discoveryTtl jwksTtl)
    (before : List (Nat × Event oauthSig)) (tid : Nat) (p : Post) (x : Redemption) : Prop where
  callback : ∃ t, c.tasks[tid]? = some t
    ∧ t.req.callback = some (x.providerId, x.code, x.removal.row.state)
  provider : svc.providers[x.providerId]? = some x.provider
  credentials : p.clientId = x.provider.clientId ∧ p.clientSecret = x.provider.clientSecret
  /-- The endpoint was published under the discovery URL of this provider. -/
  endpoint : p.url = x.document.tokenEndpoint
    ∧ Published K x.provider.config.discoveryUrl x.document before
    ∧ enforceJwksPin x.provider x.document = .ok ()
  /-- The login was one of this provider, and this callback has deleted its row. -/
  started : ∃ t, c.tasks[x.login]? = some t
    ∧ svc.loginOf t.req = some (x.providerId, x.redirectUri)
  inserted : (x.login, (⟨Op.insertState x.removal.row.toNewState, Except.ok ()⟩ :
    Event oauthSig)) ∈ before
  deleted : x.removal ∈ c.shared.removed ∧ x.removal.tid = tid
    ∧ x.removal.row.providerId = x.providerId
  form : p.form = tokenForm x.code (some x.redirectUri) x.removal.row.pkceVerifier

/-- Every token request redeems a login. -/
theorem post_redeems (h : FlowReach svc P s₀ c) (hempty : s₀.discovery = ∅)
    (hstates : s₀.states = ∅) (hremoved : s₀.removed = []) {i tid : Nat} {p : Post}
    (hpost : PostAt c i tid p) :
    ∃ x : Redemption, x.Explains svc c (c.history.take i) tid p := by
  obtain ⟨r, hpost⟩ := hpost
  have hsplit := split_of_getElem? hpost
  have hsub : ∀ e ∈ c.history.take i, e ∈ c.history := fun e he => List.mem_of_mem_take he
  obtain ⟨t, ht⟩ := h.task_of_event (List.mem_of_getElem? hpost)
  have hsends : svc.Redeeming t.req (eventsOf (c.history.take i) tid) p.url p.clientId
      p.clientSecret p.form := h.history_spec svc.program_sends ht hsplit
  obtain ⟨providerId, code, state, provider, row, doc, hreq, hp, hdel, hd, hpin, hurl, hid,
    hsecret, hform⟩ := hsends.evidence
  -- The row that the callback was given, and the login that inserted it.
  obtain ⟨g₁, g₂, hg⟩ := List.append_of_mem (mem_eventsOf.mp hdel)
  have hsplit' : c.history = g₁ ++ (tid, (⟨Op.deleteState state providerId svc.maxAge,
      Except.ok (some row)⟩ : Event oauthSig)) :: (g₂ ++ c.history.drop i) := by
    refine (List.take_append_drop i c.history).symm.trans ?_
    rw [hg]
    simp
  obtain ⟨x, hx, htid, hstate, hprovider, hrow, -, login, hlogin⟩ :=
    consumed h hstates hremoved tid state providerId svc.maxAge row g₁ _ hsplit'
  have hinserted : (login, (⟨Op.insertState x.row.toNewState, Except.ok ()⟩ : Event oauthSig))
      ∈ c.history.take i := by
    rw [hg]
    exact List.mem_append_left _ hlogin
  obtain ⟨l₁, l₂, hl⟩ := List.append_of_mem (hsub _ hinserted)
  obtain ⟨tl, htl⟩ := h.task_of_event (hsub _ hinserted)
  obtain ⟨providerId', redirectUri, hloginOf, hins⟩ := h.history_spec svc.program_spec htl hl
  have hsame : providerId' = providerId := hins.provider.symm.trans hprovider
  subst hsame
  refine ⟨⟨providerId', code, provider, doc, x, login, redirectUri⟩, {
    callback := ⟨t, ht, by rw [hstate]; exact hreq⟩
    provider := hp
    credentials := ⟨hid, hsecret⟩
    endpoint := ⟨hurl, ?_, hpin⟩
    started := ⟨tl, htl, hloginOf⟩
    inserted := hinserted
    deleted := ⟨hx, htid, hprovider⟩
    form := ?_ }⟩
  · exact held_published h hempty (List.take_append_drop i c.history).symm hd
  · rw [hform, hrow]
    show tokenForm code x.row.redirectUri _ = _
    rw [hins.redirectUri]
    rfl

/-- A callback makes one token request. -/
theorem posted_once (h : FlowReach svc P s₀ c) {tid i j : Nat} {p q : Post}
    (hi : PostAt c i tid p) (hj : PostAt c j tid q) : i = j := by
  obtain ⟨r, hi⟩ := hi
  obtain ⟨r', hj⟩ := hj
  refine h.once svc.program_sends
    (p := fun o => ∃ p : Post, o = .httpPost p.url p.clientId p.clientSecret p.form)
    ?_ hi hj ⟨p, rfl⟩ ⟨q, rfl⟩
  intro req h o hsends hp e he hq
  obtain ⟨p, rfl⟩ := hp
  obtain ⟨q, hq⟩ := hq
  have hsends : svc.Redeeming req h p.url p.clientId p.clientSecret p.form := hsends
  exact hsends.first e he q.url q.clientId q.clientSecret q.form hq

/-- Two token requests that redeem the same login are one. -/
theorem redemption_unique (h : FlowReach svc P s₀ c) (hstates : s₀.states = ∅)
    (hremoved : s₀.removed = []) {i j tid tid' : Nat} {p q : Post}
    (hi : PostAt c i tid p) (hj : PostAt c j tid' q) {x x' : Redemption}
    (hx : x.Explains svc c (c.history.take i) tid p)
    (hx' : x'.Explains svc c (c.history.take j) tid' q) (hlogin : x.login = x'.login) :
    i = j := by
  have hins := hx'.inserted
  rw [← hlogin] at hins
  -- The login has inserted one row, and one task has deleted it.
  have hrow := inserted_once h (List.mem_of_mem_take hx.inserted) (List.mem_of_mem_take hins)
  have hsame : x.removal = x'.removal :=
    List.inj_on_of_nodup_map (state_rows h hstates hremoved).deletedOnce hx.deleted.1
      hx'.deleted.1 (congrArg NewState.state hrow)
  have htid : tid = tid' := by
    rw [← hx.deleted.2.1, ← hx'.deleted.2.1, hsame]
  subst htid
  exact posted_once h hi hj

/-- A request without credentials downloads the document that its task looks up, or the key set
of a document that was published under the discovery URL of its provider. -/
theorem get_sources (h : FlowReach svc P s₀ c) (hempty : s₀.discovery = ∅) {i tid : Nat}
    {url : String} {r : Except SendError HttpResponse}
    (hget : c.history[i]? = some (tid, ⟨Op.httpGet url, r⟩)) :
    ∃ t, c.tasks[tid]? = some t ∧ (svc.discoveryUrlOf t.req = some url
      ∨ ∃ doc, svc.Trusts (Published K · · (c.history.take i)) doc t.req ∧ url = doc.jwksUri) := by
  obtain ⟨t, ht⟩ := h.task_of_event (List.mem_of_getElem? hget)
  refine ⟨t, ht, ?_⟩
  rcases h.history_spec svc.program_sends ht (split_of_getElem? hget) with hurl | hkeys
  · exact .inl hurl
  · obtain ⟨doc, htrust, hurl⟩ := hkeys
    refine .inr ⟨doc, htrust.imp fun url doc hd => ?_, hurl⟩
    exact held_published h hempty (List.take_append_drop i c.history).symm hd

/-- In every run from empty tables and an empty cache, of the requests that the program issues: each
one with credentials redeems a login, no two redeem the same one, and every one without credentials
goes to one of the two other places. Redirects that the HTTP client follows on its own are not
among them. -/
theorem credentials_confined (h : FlowReach svc P s₀ c) (hempty : s₀.discovery = ∅)
    (hstates : s₀.states = ∅) (hremoved : s₀.removed = []) :
    (∃ login : Nat → Nat,
      (∀ i tid p, PostAt c i tid p →
        ∃ x : Redemption, x.login = login i ∧ x.Explains svc c (c.history.take i) tid p)
      ∧ ∀ i j tid tid' p q, PostAt c i tid p → PostAt c j tid' q → login i = login j → i = j)
    ∧ ∀ i tid url (r : Except SendError HttpResponse),
      c.history[i]? = some (tid, ⟨Op.httpGet url, r⟩) →
      ∃ t, c.tasks[tid]? = some t ∧ (svc.discoveryUrlOf t.req = some url
        ∨ ∃ doc, svc.Trusts (Published K · · (c.history.take i)) doc t.req
            ∧ url = doc.jwksUri) := by
  refine ⟨?_, fun i tid url r hget => get_sources h hempty hget⟩
  have hall : ∀ i, ∃ login, ∀ tid p, PostAt c i tid p →
      ∃ x : Redemption, x.login = login ∧ x.Explains svc c (c.history.take i) tid p := by
    intro i
    by_cases hex : ∃ tid p, PostAt c i tid p
    · obtain ⟨tid, p, hpost⟩ := hex
      obtain ⟨x, hx⟩ := post_redeems h hempty hstates hremoved hpost
      refine ⟨x.login, fun tid' p' hpost' => ⟨x, rfl, ?_⟩⟩
      obtain ⟨r, hr⟩ := hpost
      obtain ⟨r', hr'⟩ := hpost'
      rw [hr] at hr'
      cases p
      cases p'
      cases hr'
      exact hx
    · exact ⟨0, fun tid p hpost => absurd ⟨tid, p, hpost⟩ hex⟩
  choose login hlogin using hall
  refine ⟨login, hlogin, ?_⟩
  intro i j tid tid' p q hi hj heq
  obtain ⟨x, hx, hexplains⟩ := hlogin i tid p hi
  obtain ⟨x', hx', hexplains'⟩ := hlogin j tid' q hj
  exact redemption_unique h hstates hremoved hi hj hexplains hexplains'
    (hx.trans (heq.trans hx'.symm))

/-! ### Redirect URIs -/

variable (svc) in
/-- A redirect URI that the configuration allows for a provider: one of its list, or the
callback of this server when the list is empty. -/
def Permitted (id : String) (provider : Provider) (uri : String) : Prop :=
  uri ∈ provider.config.allowedRedirectUris
    ∨ provider.config.allowedRedirectUris = [] ∧ svc.publicBaseUrl ≠ ""
      ∧ uri = trimEndMatches svc.publicBaseUrl '/' ++ "/auth/callback/" ++ id

/-- A resolved redirect URI is on the list of the provider, or the list is empty and it is the URL
of the server. -/
theorem permitted_of_resolve {id uri : String} {provider : Provider} {supplied : Option String}
    (h : svc.resolveRedirectUri id provider.config.allowedRedirectUris supplied = .ok uri) :
    Permitted svc id provider uri := by
  unfold resolveRedirectUri at h
  split at h
  · split at h
    · cases h
    · rename_i hmem
      cases h
      exact .inl (by simpa using hmem)
  · split at h
    · rename_i first hfirst
      cases h
      exact .inl (List.mem_of_mem_head? hfirst)
    · rename_i hnone
      split at h
      · cases h
      · rename_i hbase
        cases h
        exact .inr ⟨List.head?_eq_none_iff.mp hnone, by simpa using hbase, rfl⟩

/-- The step starts no login but one of the handler `auth_login`. -/
def ByHandler (_ : FlowPool store discoveryTtl jwksTtl) :
    FlowLabel store discoveryTtl jwksTtl → Prop
  | .spawn (.buildLoginUrl ..) => False
  | _ => True

/-- In such a run, no task was given a redirect URI directly. -/
theorem login_by_handler (h : FlowReach svc ByHandler s₀ c) {tid : Nat}
    {t : Task oauthSig Fault Response Request} (ht : c.tasks[tid]? = some t)
    {id uri : String} (hlogin : svc.loginOf t.req = some (id, uri)) :
    ∃ provider, svc.providers[id]? = some provider ∧ Permitted svc id provider uri := by
  have hreq : ∀ providerId redirectUri, t.req ≠ .buildLoginUrl providerId redirectUri := by
    have hinv := h.invariant (I := fun c => ∀ (tid : Nat) (t : Task _ _ _ Request),
      c.tasks[tid]? = some t → ∀ providerId redirectUri,
        t.req ≠ .buildLoginUrl providerId redirectUri) (by simp [Pool.init]) ?_
    · exact hinv tid t ht
    · intro c l c' _ hP hn hI tid t ht
      rcases hn.task_back ht with hback | rfl
      · obtain ⟨t', ht', hsame⟩ := hback
        rw [← hsame]
        exact hI tid t' ht'
      · intro providerId redirectUri heq
        rw [heq] at hP
        exact hP
  cases hr : t.req with
  | buildLoginUrl providerId redirectUri => exact absurd hr (hreq _ _)
  | authLogin id' supplied =>
      rw [hr] at hlogin
      simp only [loginOf] at hlogin
      split at hlogin
      · cases hlogin
      · rename_i provider hp
        split at hlogin
        · cases hlogin
        · rename_i uri' huri
          cases hlogin
          exact ⟨provider, hp, permitted_of_resolve huri⟩
  | _ =>
      rw [hr] at hlogin
      cases hlogin

/-- What a login that has handed out a URL has put into it and into its row. -/
theorem login_result (h : FlowReach svc P s₀ c) {tid : Nat}
    {t : Task oauthSig Fault Response Request} (ht : c.tasks[tid]? = some t) {id uri : String}
    (hlogin : svc.loginOf t.req = some (id, uri)) {r : AuthUrl}
    (hr : t.result = some (.ok (.authUrl r))) :
    ∃ provider endpoint row nonce challenge, svc.providers[id]? = some provider
      ∧ (tid, (⟨Op.insertState row, Except.ok ()⟩ : Event oauthSig)) ∈ c.history
      ∧ K.appendPairs endpoint (authorizationPairs provider uri row.state nonce challenge)
          = .ok r.authorizationUrl := by
  have hdone := h.result_spec svc.program_spec ht hr
  obtain ⟨discovery, provider, hp, -, state, nonce, verifier, hrow, hurl⟩ :=
    loginDone_of_result hdone hlogin
  exact ⟨provider, _, _, nonce, _, hp, mem_eventsOf.mp hrow, hurl⟩

/-- The form has one redirect URI. -/
theorem mem_tokenForm {code uri : String} {verifier : Option String} (value : String) :
    ("redirect_uri", value) ∈ tokenForm code (some uri) verifier ↔ value = uri := by
  cases verifier with
  | none => simp [tokenForm]
  | some v =>
      simp only [tokenForm]
      split <;> simp

/-- In every run of the handlers: the redirect URI of an authorization URL that is handed out,
and the one of a token request, is permitted for the provider. The token request repeats the
redirect URI of the authorization URL that its login has handed out. -/
theorem redirects_permitted (h : FlowReach svc ByHandler s₀ c) (hempty : s₀.discovery = ∅)
    (hstates : s₀.states = ∅) (hremoved : s₀.removed = []) :
    (∀ (tid : Nat) (t : Task oauthSig Fault Response Request) (id : String)
        (supplied : Option String) (r : AuthUrl), c.tasks[tid]? = some t →
      t.req = .authLogin id supplied → t.result = some (.ok (.authUrl r)) →
      ∃ provider uri endpoint state nonce challenge, svc.providers[id]? = some provider
        ∧ Permitted svc id provider uri ∧ K.appendPairs endpoint
          (authorizationPairs provider uri state nonce challenge) = .ok r.authorizationUrl)
    ∧ ∀ i tid p, PostAt c i tid p → ∃ x : Redemption,
      x.Explains svc c (c.history.take i) tid p
        ∧ Permitted svc x.providerId x.provider x.redirectUri
        ∧ (∀ uri, ("redirect_uri", uri) ∈ p.form ↔ uri = x.redirectUri)
        ∧ ∀ (t : Task oauthSig Fault Response Request) (r : AuthUrl),
          c.tasks[x.login]? = some t → t.result = some (.ok (.authUrl r)) →
          ∃ endpoint nonce challenge, K.appendPairs endpoint (authorizationPairs x.provider
            x.redirectUri x.removal.row.state nonce challenge) = .ok r.authorizationUrl := by
  constructor
  · intro tid t id supplied r ht hreq hr
    have hdone := h.result_spec svc.program_spec ht hr
    rw [hreq] at hdone
    obtain ⟨id', uri, hlogin, -⟩ := hdone
    have hid : id' = id := by
      have hsame := (providerId_of_loginOf hlogin).symm
      cases hsame
      rfl
    subst hid
    rw [← hreq] at hlogin
    obtain ⟨provider, endpoint, row, nonce, challenge, hp, -, hurl⟩ := login_result h ht hlogin hr
    obtain ⟨provider', hp', hpermitted⟩ := login_by_handler h ht hlogin
    cases hp.symm.trans hp'
    exact ⟨provider, uri, endpoint, row.state, nonce, challenge, hp, hpermitted, hurl⟩
  · intro i tid p hpost
    obtain ⟨x, hx⟩ := post_redeems h hempty hstates hremoved hpost
    obtain ⟨tl, htl, hloginOf⟩ := hx.started
    obtain ⟨provider, hp, hpermitted⟩ := login_by_handler h htl hloginOf
    cases hp.symm.trans hx.provider
    refine ⟨x, hx, hpermitted, fun uri => ?_, fun t r ht hr => ?_⟩
    · rw [hx.form]
      exact mem_tokenForm uri
    · cases htl.symm.trans ht
      obtain ⟨provider', endpoint, row, nonce, challenge, hp', hrow, hurl⟩ :=
        login_result h ht hloginOf hr
      cases hp'.symm.trans hp
      -- The row behind the URL is the one that this callback has redeemed.
      have hsame := inserted_once h hrow (List.mem_of_mem_take hx.inserted)
      rw [hsame] at hurl
      exact ⟨endpoint, nonce, challenge, hurl⟩

end Runs

/-- The request with credentials of an event. -/
def postOf : Event oauthSig → Option Post
  | ⟨.httpPost url clientId clientSecret form, _⟩ => some ⟨url, clientId, clientSecret, form⟩
  | _ => none

/-- The event of a token request stands at its place of the history. -/
theorem postAt_of_postOf {store : SessionStore} {discoveryTtl jwksTtl : Nat}
    {c : FlowPool store discoveryTtl jwksTtl} {i tid : Nat} {e : Event oauthSig} {p : Post}
    (he : c.history[i]? = some (tid, e)) (hp : postOf e = some p) : PostAt c i tid p := by
  unfold postOf at hp
  split at hp
  · cases hp
    exact ⟨_, he⟩
  · cases hp

/-- `ByHandler`, as a test. -/
def byHandler {store : SessionStore} {discoveryTtl jwksTtl : Nat} :
    FlowLabel store discoveryTtl jwksTtl → Bool
  | .spawn (.buildLoginUrl ..) => false
  | _ => true

open Symbolic Sample in
/-- The sample run of a login and its callback makes a token request. -/
theorem sample_post :
    ∃ (c : SamplePool) (p : Post), FlowReach flow ByHandler flowStart c
      ∧ PostAt c 10 1 p ∧ p.clientSecret = "secret" := by
  obtain ⟨c, h, hq⟩ := Pool.exists_reach flow.program
    (fun _ l => byHandler l) (fun c : SamplePool => (c.history[10]?).any fun e => e.1 == 1
      && (postOf e.2).any fun p => p.clientSecret == "secret")
    (Pool.init flowStart) (loginRun ++ callbackRun) (by decide +kernel)
  have h : FlowReach flow ByHandler flowStart c := by
    refine h.mono fun c l hl => ?_
    cases l with
    | spawn req =>
        cases req with
        | buildLoginUrl providerId redirectUri => cases hl
        | _ => trivial
    | _ => trivial
  obtain ⟨⟨tid, e⟩, he, hpost⟩ := (Option.any_eq_true _ _).mp hq
  simp only [Bool.and_eq_true, beq_iff_eq] at hpost
  obtain ⟨rfl, hsome⟩ := hpost
  obtain ⟨p, hp, hsecret⟩ := (Option.any_eq_true _ _).mp hsome
  exact ⟨c, p, h, postAt_of_postOf he hp, by simpa using hsecret⟩

open Symbolic Sample in
/-- The token request of the sample run redeems its login. -/
theorem credentials_confined_sample :
    ∃ (c : SamplePool) (p : Post) (x : Redemption), FlowReach flow ByHandler flowStart c
      ∧ PostAt c 10 1 p ∧ p.clientSecret = "secret"
      ∧ x.Explains flow c (c.history.take 10) 1 p := by
  obtain ⟨c, p, h, hat, hsecret⟩ := sample_post
  obtain ⟨⟨login, hall, -⟩, -⟩ := credentials_confined h rfl rfl rfl
  obtain ⟨x, -, hx⟩ := hall 10 1 p hat
  exact ⟨c, p, x, h, hat, hsecret, hx⟩

open Symbolic Sample in
/-- Its redirect URI is the one of the provider's list. -/
theorem redirects_permitted_sample :
    ∃ (c : SamplePool) (p : Post) (x : Redemption), FlowReach flow ByHandler flowStart c
      ∧ PostAt c 10 1 p ∧ Permitted flow x.providerId x.provider x.redirectUri
      ∧ ∀ uri, ("redirect_uri", uri) ∈ p.form ↔ uri = x.redirectUri := by
  obtain ⟨c, p, h, hat, -⟩ := sample_post
  obtain ⟨-, hall⟩ := redirects_permitted h rfl rfl rfl
  obtain ⟨x, -, hpermitted, hform, -⟩ := hall 10 1 p hat
  exact ⟨c, p, x, h, hat, hpermitted, hform⟩

end Tim.OAuth
