import Tim.Model.OAuth

/-!
# `Tim.Proofs.Flow`: the calls of each program of the OAuth2 flow

The specification of every program, as what it has done when it makes a call and when it ends.
`Quiet` calls are those on the clock, the random source, the two caches and `GET` requests. The
part of a program between two of the other calls only adds quiet events (`QuietTo`), so each
specification speaks about the few calls that matter: the row that a login inserts, the row
that a callback consumes, the token request and the session.

* `Inserting` is the evidence behind the `INSERT` of `build_login_url`.
* `Opening` is the evidence behind the session of `complete_callback`: the provider, the row,
  the document, the token response and the verified claims.
* `Verified` lists what `idtoken::verify` has checked.
* `verify_spec`, `exchange_spec`, `gather_spec`: the parts of a callback.
* `buildLoginUrl_spec`, `completeCallback_spec`: the two programs.
* `program_spec`: every request to the flow.
-/

set_option autoImplicit false

namespace Tim.OAuth

open Tim.Lib Tim.Lib.Prog Tim.OAuth.Flow

/-! ### Rules for the combinators of the flow -/

section Rules

variable {α β : Type} {φ : List (Event oauthSig) → Op → Prop}
  {ψ : List (Event oauthSig) → Except Fault β → Prop} {h : List (Event oauthSig)}

/-- A call has to be allowed where it is made, and every answer is put into the history. -/
theorem spec_call_bind {o : Op} {f : Resp o → Flow β} :
    Spec φ ψ h (Flow.call o >>= f) ↔ φ h o ∧ ∀ r, Spec φ ψ (h ++ [⟨o, r⟩]) (f r) := Iff.rfl

/-- An error has to meet the postcondition where it is raised. -/
theorem spec_fail {e : TimError} : Spec φ ψ h (Flow.fail e) ↔ ψ h (.error (.err e)) := Iff.rfl

/-- A result has to meet the postcondition where it is returned. -/
theorem spec_pure {b : β} : Spec φ ψ h (pure b : Flow β) ↔ ψ h (.ok b) := Iff.rfl

/-- The rule of `?` on a result. -/
theorem spec_try_bind {x : Except TimError α} {f : α → Flow β} :
    Spec φ ψ h (Flow.try_ x >>= f)
      ↔ (∀ a, x = .ok a → Spec φ ψ h (f a)) ∧ ∀ e, x = .error e → ψ h (.error (.err e)) := by
  cases x with
  | ok a => simp [Flow.try_, Prog.bind_eq]
  | error e =>
      simp only [reduceCtorEq, false_implies, implies_true, true_and, Except.error.injEq,
        forall_eq']
      exact Iff.rfl

/-- The rule of `?` on the answer to a statement. -/
theorem spec_sql_bind {r : Sql α} {f : α → Flow β} :
    Spec φ ψ h (Flow.sql r >>= f)
      ↔ (∀ a, r = .ok a → Spec φ ψ h (f a))
        ∧ ∀ e, r = .error e → ψ h (.error (.err (.database e))) := by
  cases r with
  | ok a => simp [Flow.sql, Prog.bind_eq]
  | error e =>
      simp only [reduceCtorEq, false_implies, implies_true, true_and, Except.error.injEq,
        forall_eq']
      exact Iff.rfl

/-- The rule of sequential composition, from a specification of the first part. -/
theorem spec_seq {p : Flow α} {f : α → Flow β}
    {ψ' : List (Event oauthSig) → Except Fault α → Prop} (hp : Spec φ ψ' h p)
    (hok : ∀ h' a, ψ' h' (.ok a) → Spec φ ψ h' (f a))
    (herr : ∀ h' e, ψ' h' (.error e) → ψ h' (.error e)) : Spec φ ψ h (p >>= f) := by
  refine (spec_bind p f h).mpr (hp.mono (fun _ _ hφ => hφ) ?_)
  intro h' x hx
  cases x with
  | ok a => exact hok h' a hx
  | error e => exact herr h' e hx

/-- The result of a program as a value. A panic goes through. -/
theorem spec_attempt_bind {p : Flow α} {f : Except TimError α → Flow β}
    {ψ' : List (Event oauthSig) → Except Fault α → Prop} (hp : Spec φ ψ' h p)
    (hok : ∀ h' a, ψ' h' (.ok a) → Spec φ ψ h' (f (.ok a)))
    (herr : ∀ h' e, ψ' h' (.error (.err e)) → Spec φ ψ h' (f (.error e)))
    (hpanic : ∀ h', ψ' h' (.error .panic) → ψ h' (.error .panic)) :
    Spec φ ψ h (attempt p >>= f) := by
  refine (spec_bind (attempt p) f h).mpr ((spec_handle p _ _ h).mpr ?_)
  refine hp.mono (fun _ _ hφ => hφ) ?_
  intro h' x hx
  cases x with
  | ok a => exact hok h' a hx
  | error e =>
      cases e with
      | err e => exact herr h' e hx
      | panic => exact hpanic h' hx

end Rules

/-! ### Quiet calls -/

/-- The calls that neither touch `auth.oauth_state` nor the session store, and are no token
request. -/
def Quiet : Op → Prop
  | .insertState _ | .deleteState .. | .sweepState _ | .createSession _ | .httpPost .. => False
  | _ => True

/-- From the events `h` to the events `h'` with quiet calls only. -/
def QuietTo (h h' : List (Event oauthSig)) : Prop :=
  ∃ q, h' = h ++ q ∧ ∀ e ∈ q, Quiet e.op

namespace QuietTo

variable {h h₁ h₂ : List (Event oauthSig)}

/-- No event is a quiet continuation. -/
theorem refl (h : List (Event oauthSig)) : QuietTo h h := ⟨[], by simp, by simp⟩

/-- Quiet continuations in a row are one. -/
theorem trans (h₁₂ : QuietTo h h₁) (h₂₃ : QuietTo h₁ h₂) : QuietTo h h₂ := by
  obtain ⟨q, rfl, hq⟩ := h₁₂
  obtain ⟨q', rfl, hq'⟩ := h₂₃
  refine ⟨q ++ q', by simp, fun e he => ?_⟩
  rcases List.mem_append.mp he with he | he
  · exact hq e he
  · exact hq' e he

/-- A quiet event continues a quiet history. -/
theorem snoc (hq : QuietTo h h₁) (o : Op) (r : Resp o) (ho : Quiet o) :
    QuietTo h (h₁ ++ [⟨o, r⟩]) := by
  refine hq.trans ⟨[⟨o, r⟩], rfl, fun e he => ?_⟩
  rw [List.mem_singleton.mp he]
  exact ho

/-- Earlier events stay. -/
theorem mem (hq : QuietTo h h₁) {e : Event oauthSig} (he : e ∈ h) : e ∈ h₁ := by
  obtain ⟨q, rfl, -⟩ := hq
  exact List.mem_append_left q he

/-- An event that is not quiet was there before. -/
theorem mem_back (hq : QuietTo h h₁) {e : Event oauthSig} (he : e ∈ h₁) (hne : ¬ Quiet e.op) :
    e ∈ h := by
  obtain ⟨q, rfl, hq⟩ := hq
  rcases List.mem_append.mp he with he | he
  · exact he
  · exact absurd (hq e he) hne

end QuietTo

namespace OAuthService

variable {K : OAuthCrates} (svc : OAuthService K)

/-! ### `fetch_with` -/

/-- A document downloaded from a URL: the response was a success, and its body parses as this
document. -/
def Download (K : OAuthCrates) (url : String) (doc : Discovery) (h : List (Event oauthSig)) :
    Prop :=
  ∃ resp, ⟨Op.httpGet url, Except.ok resp⟩ ∈ h ∧ resp.isSuccess = true
    ∧ json K Discovery.deserialize resp = .ok doc

/-- The document that `fetch_with` has returned for a URL. It is the one that the cache holds under
this URL, or it was downloaded from the URL, checked and put into the cache. -/
def GotDiscovery (url : String) (allowHttp : Bool) (doc : Discovery)
    (h : List (Event oauthSig)) : Prop :=
  ⟨Op.discoveryGet url, some doc⟩ ∈ h
    ∨ svc.offline = false ∧ Download K url doc h ∧ doc.validateWith allowHttp = .ok ()
      ∧ ⟨Op.discoveryInsert url doc, ()⟩ ∈ h

/-- The calls of `fetch_with` on a URL, after the lookup. -/
structure DiscoveryCalls (url : String) (allowHttp : Bool)
    (φ : List (Event oauthSig) → Op → Prop) : Prop where
  fetch : ∀ h, svc.offline = false → φ h (.httpGet url)
  sleep : ∀ h ms, φ h (.sleep ms)
  insert : ∀ h doc, Download K url doc h → doc.validateWith allowHttp = .ok () →
    φ h (.discoveryInsert url doc)

variable {svc}
variable {φ : List (Event oauthSig) → Op → Prop}

/-- A download stays one when there are more events. -/
theorem Download.mono {url : String} {doc : Discovery} {h h' : List (Event oauthSig)}
    (hd : Download K url doc h) (hsub : ∀ e ∈ h, e ∈ h') : Download K url doc h' := by
  obtain ⟨resp, hget, hrest⟩ := hd
  exact ⟨resp, hsub _ hget, hrest⟩

/-- So does the document that `fetch_with` has returned. -/
theorem GotDiscovery.mono {url : String} {allowHttp : Bool} {doc : Discovery}
    {h h' : List (Event oauthSig)} (hd : svc.GotDiscovery url allowHttp doc h)
    (hsub : ∀ e ∈ h, e ∈ h') : svc.GotDiscovery url allowHttp doc h' := by
  rcases hd with hhit | ⟨hoff, hdown, hvalid, hins⟩
  · exact .inl (hsub _ hhit)
  · exact .inr ⟨hoff, hdown.mono hsub, hvalid, hsub _ hins⟩

/-- Where a document comes from does not change later on. -/
theorem GotDiscovery.append {url : String} {allowHttp : Bool} {doc : Discovery}
    {h : List (Event oauthSig)} (hd : svc.GotDiscovery url allowHttp doc h)
    (h' : List (Event oauthSig)) : svc.GotDiscovery url allowHttp doc (h ++ h') :=
  hd.mono fun _ he => List.mem_append_left h' he

/-- A request that is let through is one of a program that is not offline. -/
theorem blockIfOffline_none {url : String} (h : svc.blockIfOffline url = none) :
    svc.offline = false := by
  unfold blockIfOffline at h
  split at h
  · cases h
  · rename_i hoff
    simpa using hoff

/-- One attempt returns a document only when it has just downloaded it, and that it does not do
in the offline mode. -/
theorem fetchOnce_spec {url : String} (hget : ∀ h, svc.offline = false → φ h (.httpGet url))
    (h : List (Event oauthSig)) :
    Spec φ (fun h' x => QuietTo h h' ∧ ∀ doc, x = .ok doc →
        svc.offline = false ∧ Download K url doc h')
      h (svc.fetchOnce url) := by
  unfold fetchOnce
  split
  · exact ⟨.refl h, nofun⟩
  · rename_i hnone
    have hoff := blockIfOffline_none hnone
    refine spec_call_bind.mpr ⟨hget h hoff, fun r => ?_⟩
    have hq : QuietTo h (h ++ [⟨Op.httpGet url, r⟩]) := (QuietTo.refl h).snoc _ r trivial
    cases r with
    | error e => exact ⟨hq, nofun⟩
    | ok resp =>
        show Spec φ _ _ (ite _ _ _)
        split
        · exact ⟨hq, nofun⟩
        · rename_i hsuccess
          split
          · exact ⟨hq, nofun⟩
          · rename_i doc hdoc
            refine ⟨hq, fun doc' heq => ?_⟩
            cases heq
            exact ⟨hoff, resp, List.mem_append_right h List.mem_cons_self,
              by simpa using hsuccess, hdoc⟩

/-- The document that is accepted is the one that was downloaded, and it is put into the cache
before it is returned. -/
theorem acceptDocument_spec {url : String} {allowHttp : Bool}
    (hφ : svc.DiscoveryCalls url allowHttp φ) (hoff : svc.offline = false) {doc : Discovery}
    {h h' : List (Event oauthSig)} (hq : QuietTo h h') (hdown : Download K url doc h') :
    Spec φ (fun h' x => QuietTo h h' ∧ ∀ doc, x = .ok doc → svc.GotDiscovery url allowHttp doc h')
      h' (acceptDocument url allowHttp doc) := by
  unfold acceptDocument
  refine spec_try_bind.mpr ⟨fun _ hvalid => ?_, fun _ _ => ⟨hq, nofun⟩⟩
  refine spec_call_bind.mpr ⟨hφ.insert h' doc hdown hvalid, fun r => ?_⟩
  refine ⟨hq.snoc (.discoveryInsert url doc) r trivial, fun doc' hdoc => ?_⟩
  cases hdoc
  exact .inr ⟨hoff, hdown.mono fun _ he => List.mem_append_left _ he, hvalid,
    List.mem_append_right h' List.mem_cons_self⟩

/-- The loop of attempts, by induction on the number that is left: the document comes from the last
one. -/
theorem fetchAttempts_spec {url : String} {allowHttp : Bool}
    (hφ : svc.DiscoveryCalls url allowHttp φ) (retries delayMs : Nat)
    {h h' : List (Event oauthSig)} (hq : QuietTo h h') :
    Spec φ (fun h' x => QuietTo h h' ∧ ∀ doc, x = .ok doc → svc.GotDiscovery url allowHttp doc h')
      h' (svc.fetchAttempts url allowHttp retries delayMs) := by
  -- Induction on the retries that are left.
  induction retries generalizing delayMs h' with
  | zero =>
      rw [fetchAttempts]
      refine spec_attempt_bind (fetchOnce_spec hφ.fetch h') ?_ ?_ ?_
      · intro h'' doc hx
        obtain ⟨hoff, hdown⟩ := hx.2 doc rfl
        exact acceptDocument_spec hφ hoff (hq.trans hx.1) hdown
      · exact fun h'' e hx => ⟨hq.trans hx.1, nofun⟩
      · exact fun h'' hx => ⟨hq.trans hx.1, nofun⟩
  | succ retries ih =>
      rw [fetchAttempts]
      refine spec_attempt_bind (fetchOnce_spec hφ.fetch h') ?_ ?_ ?_
      · intro h'' doc hx
        obtain ⟨hoff, hdown⟩ := hx.2 doc rfl
        exact acceptDocument_spec hφ hoff (hq.trans hx.1) hdown
      · rintro h'' e ⟨hq', -⟩
        have hq'' := hq.trans hq'
        show Spec φ _ h'' (ite _ _ _)
        split
        · refine spec_call_bind.mpr ⟨hφ.sleep h'' delayMs, fun r => ?_⟩
          exact ih _ (hq''.snoc (.sleep delayMs) r trivial)
        · exact ⟨hq'', nofun⟩
      · exact fun h'' hx => ⟨hq.trans hx.1, nofun⟩

/-- A document is the cached one or a new download. The cache is asked first. -/
theorem fetchWith_spec {url : String} {allowHttp : Bool}
    (hφ : svc.DiscoveryCalls url allowHttp φ) {h : List (Event oauthSig)}
    (hget : φ h (.discoveryGet url)) :
    Spec φ (fun h' x => QuietTo h h' ∧ ∀ doc, x = .ok doc → svc.GotDiscovery url allowHttp doc h')
      h (svc.fetchWith url allowHttp) := by
  unfold fetchWith
  refine spec_call_bind.mpr ⟨hget, fun r => ?_⟩
  have hq : QuietTo h (h ++ [⟨Op.discoveryGet url, r⟩]) := (QuietTo.refl h).snoc _ r trivial
  cases r with
  | some cached =>
      refine ⟨hq, fun doc hdoc => ?_⟩
      cases hdoc
      exact .inl (List.mem_append_right h List.mem_cons_self)
  | none => exact fetchAttempts_spec hφ 3 500 hq

/-! ### `JwksCache::fetch` and `idtoken::verify` -/

/-- A response that carries a key set. -/
def IsKeySet (K : OAuthCrates) (resp : HttpResponse) (set : JwkSet) : Prop :=
  resp.isSuccess = true ∧ ∃ keys, json K jwksBody resp = .ok keys ∧ set = intoJwkSet K keys

/-- The last event is the response of the URI that the key set was read from. -/
def JustLoaded (K : OAuthCrates) (uri : String) (set : JwkSet) (h : List (Event oauthSig)) :
    Prop :=
  ∃ before resp, h = before ++ [⟨Op.httpGet uri, Except.ok resp⟩] ∧ IsKeySet K resp set

/-- The key set came from the cache, or it was loaded from the URI and put there. -/
def GotKeys (uri : String) (set : JwkSet) (h : List (Event oauthSig)) : Prop :=
  ⟨Op.jwksGet uri, some set⟩ ∈ h ∨ ⟨Op.jwksInsert uri set, ()⟩ ∈ h

/-- Where a key set comes from does not change later on. -/
theorem GotKeys.append {uri : String} {set : JwkSet} {h : List (Event oauthSig)}
    (hk : GotKeys uri set h) (h' : List (Event oauthSig)) : GotKeys uri set (h ++ h') :=
  hk.imp (List.mem_append_left h') (List.mem_append_left h')

/-- The comparison of the bytes decides equality of the texts. -/
theorem eq_of_constantTimeEq {a b : String} (h : constantTimeEq (asBytes a) (asBytes b) = true) :
    a = b := by
  unfold constantTimeEq at h
  rw [Bool.and_eq_true] at h
  exact asBytes_injective (beq_iff_eq.mp h.2)

variable (svc) in
/-- The calls of `JwksCache::fetch` on a URI. -/
structure JwksCalls (uri : String) (φ : List (Event oauthSig) → Op → Prop) : Prop where
  get : ∀ h, φ h (.jwksGet uri)
  load : ∀ h, svc.offline = false → φ h (.httpGet uri)
  insert : ∀ h set, JustLoaded K uri set h → φ h (.jwksInsert uri set)

/-- A key set is loaded by one request, and that is the last call of `load`. -/
theorem loadJwks_spec {uri : String} (hφ : svc.JwksCalls uri φ) (h : List (Event oauthSig)) :
    Spec φ (fun h' x => QuietTo h h' ∧ ∀ set, x = .ok set → JustLoaded K uri set h')
      h (svc.loadJwks uri) := by
  unfold loadJwks
  split
  · exact ⟨.refl h, nofun⟩
  · rename_i hnone
    refine spec_call_bind.mpr ⟨hφ.load h (blockIfOffline_none hnone), fun r => ?_⟩
    have hq : QuietTo h (h ++ [⟨Op.httpGet uri, r⟩]) := (QuietTo.refl h).snoc _ r trivial
    cases r with
    | error e => exact ⟨hq, nofun⟩
    | ok resp =>
        show Spec φ _ _ (ite _ _ _)
        split
        · exact ⟨hq, nofun⟩
        · rename_i hsuccess
          split
          · exact ⟨hq, nofun⟩
          · rename_i keys hkeys
            refine ⟨hq, fun set hset => ?_⟩
            cases hset
            exact ⟨h, resp, rfl, by simpa using hsuccess, keys, hkeys, rfl⟩

/-- A key set is the cached one or a new download. The cache is asked first. -/
theorem fetchJwks_spec {uri : String} (hφ : svc.JwksCalls uri φ) (h : List (Event oauthSig)) :
    Spec φ (fun h' x => QuietTo h h' ∧ ∀ set, x = .ok set → GotKeys uri set h')
      h (svc.fetchJwks uri) := by
  unfold fetchJwks
  refine spec_call_bind.mpr ⟨hφ.get h, fun r => ?_⟩
  have hq : QuietTo h (h ++ [⟨Op.jwksGet uri, r⟩]) := (QuietTo.refl h).snoc _ r trivial
  cases r with
  | some set =>
      refine ⟨hq, fun set' hset => ?_⟩
      cases hset
      exact .inl (List.mem_append_right h List.mem_cons_self)
  | none =>
      refine spec_seq (loadJwks_spec hφ _) ?_ ?_
      · rintro h' set ⟨hq', hset⟩
        refine spec_call_bind.mpr ⟨hφ.insert h' set (hset set rfl), fun r => ?_⟩
        refine ⟨(hq.trans hq').snoc (.jwksInsert uri set) r trivial, fun set' hset' => ?_⟩
        cases hset'
        exact .inr (List.mem_append_right h' List.mem_cons_self)
      · exact fun h' e hx => ⟨hq.trans hx.1, nofun⟩

/-- What `verify` has checked of an accepted token: the header and the key it names, and the
claims at the two instants it read. -/
structure Verified (K : OAuthCrates) (discovery : Discovery) (provider : Provider)
    (idToken expectedNonce : String) (set : JwkSet) (claims : IdTokenClaims)
    (h : List (Event oauthSig)) : Prop where
  evidence : ∃ header key decoding at_ now, ⟨Op.now, at_⟩ ∈ h ∧ ⟨Op.now, now⟩ ∈ h
      ∧ K.decodeHeader (K.compact idToken) = .ok header
      ∧ header.alg ≠ .hs256 ∧ header.alg ≠ .hs384 ∧ header.alg ≠ .hs512
      ∧ selectKey set header = .ok key ∧ decodingKeyFor K key = .ok decoding
      ∧ K.decode IdTokenClaims.deserialize (K.compact idToken) decoding
          (idTokenValidation provider discovery header.alg) (DateTime.timestamp at_) = .ok claims
      ∧ ¬ (DateTime.timestamp now
          + provider.config.tokenValidation.clockSkewSeconds.toInt64 < claims.iat)
  audience : claims.aud.contains provider.clientId = true
  nonce : claims.nonce = some expectedNonce

/-- A verification is not undone by later events. -/
theorem Verified.mono {discovery : Discovery} {provider : Provider}
    {idToken expectedNonce : String} {set : JwkSet} {claims : IdTokenClaims}
    {h h' : List (Event oauthSig)}
    (hv : Verified K discovery provider idToken expectedNonce set claims h)
    (hsub : ∀ e ∈ h, e ∈ h') :
    Verified K discovery provider idToken expectedNonce set claims h' := by
  obtain ⟨⟨header, key, decoding, at_, now, hat, hnow, hrest⟩, haud, hnonce⟩ := hv
  exact ⟨⟨header, key, decoding, at_, now, hsub _ hat, hsub _ hnow, hrest⟩, haud, hnonce⟩

/-- Accepted claims are verified with the keys of the discovery document, and against the nonce. -/
theorem verify_spec {discovery : Discovery} {provider : Provider} {idToken expectedNonce : String}
    (hφ : svc.JwksCalls discovery.jwksUri φ) (hnow : ∀ h, φ h .now)
    (h : List (Event oauthSig)) :
    Spec φ (fun h' x => QuietTo h h' ∧ ∀ claims, x = .ok claims →
        ∃ set, GotKeys discovery.jwksUri set h'
          ∧ Verified K discovery provider idToken expectedNonce set claims h')
      h (svc.verify discovery provider idToken expectedNonce) := by
  unfold verify
  split
  · exact ⟨.refl h, nofun⟩
  · rename_i header hheader
    split
    · exact ⟨.refl h, nofun⟩
    -- The key set is fetched only for a token whose header names an asymmetric algorithm.
    · rename_i hsym
      refine spec_seq (fetchJwks_spec hφ h) ?_ (fun h' e hx => ⟨hx.1, nofun⟩)
      rintro h' set ⟨hq, hset⟩
      have hset := hset set rfl
      refine spec_try_bind.mpr ⟨fun key hkey => ?_, fun _ _ => ⟨hq, nofun⟩⟩
      refine spec_try_bind.mpr ⟨fun decoding hdecoding => ?_, fun _ _ => ⟨hq, nofun⟩⟩
      refine spec_call_bind.mpr ⟨hnow h', fun at_ => ?_⟩
      -- The decoder reads the clock itself.
      have hq := hq.snoc .now at_ trivial
      split
      · exact ⟨hq, nofun⟩
      · rename_i claims hclaims
        show Spec φ _ _ (ite _ _ _)
        split
        · exact ⟨hq, nofun⟩
        · rename_i haud
          -- The age is judged by a second reading.
          refine spec_call_bind.mpr ⟨hnow _, fun now => ?_⟩
          have hq := hq.snoc .now now trivial
          show Spec φ _ _ (ite _ _ _)
          split
          · exact ⟨hq, nofun⟩
          · rename_i hiat
            split
            · exact ⟨hq, nofun⟩
            · rename_i nonce hnonce
              show Spec φ _ _ (ite _ _ _)
              split
              · exact ⟨hq, nofun⟩
              · rename_i heq
                refine ⟨hq, fun claims' hok => ?_⟩
                cases hok
                refine ⟨set, ?_, ⟨header, key, decoding, at_, now, ?_, ?_, hheader, ?_, ?_, ?_,
                  hkey, hdecoding, hclaims, hiat⟩, by simpa using haud, ?_⟩
                · exact (hset.append _).append _
                · exact List.mem_append_left _ (List.mem_append_right _ List.mem_cons_self)
                · exact List.mem_append_right _ List.mem_cons_self
                · exact fun heq => hsym (.inl heq)
                · exact fun heq => hsym (.inr (.inl heq))
                · exact fun heq => hsym (.inr (.inr heq))
                -- The comparison in constant time decides equality.
                · have hsame : nonce = expectedNonce := eq_of_constantTimeEq (by simpa using heq)
                  rw [hnonce, hsame]

/-! ### Requests -/

end OAuthService

/-- The provider that a request names. -/
def Request.providerId : Request → Option String
  | .buildLoginUrl providerId _ => some providerId
  | .authLogin id _ => some id
  | .completeCallback providerId _ _ => some providerId
  | .authCallback id _ => some id
  | _ => none

/-- The code and the state that a request completes a callback with. -/
def Request.callback : Request → Option (String × String × String)
  | .completeCallback providerId code state => some (providerId, code, state)
  | .authCallback id q =>
      match q.error, q.code, q.state with
      | none, some code, some state => some (id, code, state)
      | _, _, _ => none
  | _ => none

namespace OAuthService

variable {K : OAuthCrates} (svc : OAuthService K)

/-- The redirect URI that a request builds a login URL with. -/
def loginOf : Request → Option (String × String)
  | .buildLoginUrl providerId redirectUri => some (providerId, redirectUri)
  | .authLogin id redirectUri =>
      match svc.providers[id]? with
      | none => none
      | some provider =>
          match svc.resolveRedirectUri id provider.config.allowedRedirectUris redirectUri with
          | .error _ => none
          | .ok uri => some (id, uri)
  | _ => none

/-- The flag that a request passes to `fetch_with`. -/
def allowHttpOf : Request → Option Bool
  | .fetchWith _ allowHttp => some allowHttp
  | req => req.providerId.bind fun id =>
      (svc.providers[id]?).map fun provider => provider.config.allowHttpDiscovery

/-- The evidence behind the `INSERT` of a login. -/
structure Inserting (K : OAuthCrates) (providerId redirectUri : String)
    (h : List (Event oauthSig)) (row : NewState) : Prop where
  provider : row.providerId = providerId
  redirectUri : row.redirectUri = some redirectUri
  state : ∃ b, ⟨Op.fillBytes 32, b⟩ ∈ h ∧ row.state = hexEncode b
  verifier : ∃ b, ⟨Op.fillBytes 32, b⟩ ∈ h ∧ row.pkceVerifier = some (K.base64Url b)
  first : ∀ row' r, ⟨Op.insertState row', r⟩ ∉ h

/-- What a callback has gathered when it opens a session. -/
structure Opening where
  provider : Provider
  row : Returned
  discovery : Discovery
  resp : HttpResponse
  tokens : TokenResponse
  idToken : String
  set : JwkSet
  claims : IdTokenClaims

/-- The evidence behind the session of a callback. -/
structure Opening.Valid (providerId code state : String) (h : List (Event oauthSig))
    (x : Opening) : Prop where
  provider : svc.providers[providerId]? = some x.provider
  deleted : ⟨Op.deleteState state providerId svc.maxAge, Except.ok (some x.row)⟩ ∈ h
  /-- The document is the one under the discovery URL of the provider. -/
  document : svc.GotDiscovery x.provider.config.discoveryUrl x.provider.config.allowHttpDiscovery
    x.discovery h
  pinned : enforceJwksPin x.provider x.discovery = .ok ()
  posted : ⟨Op.httpPost x.discovery.tokenEndpoint x.provider.clientId x.provider.clientSecret
    (tokenForm code x.row.redirectUri x.row.pkceVerifier), Except.ok x.resp⟩ ∈ h
  answered : x.resp.isSuccess = true ∧ json K TokenResponse.deserialize x.resp = .ok x.tokens
  idToken : x.tokens.idToken = some x.idToken
  keys : GotKeys x.discovery.jwksUri x.set h
  verified : Verified K x.discovery x.provider x.idToken x.row.nonce x.set x.claims h

/-- The calls that a request makes after the events `h`. -/
def Call (req : Request) (h : List (Event oauthSig)) : Op → Prop
  | .httpGet _ => svc.offline = false
  | .discoveryGet _ => ∀ url r, ⟨Op.discoveryGet url, r⟩ ∉ h
  | .discoveryInsert _ doc => ∃ allowHttp, svc.allowHttpOf req = some allowHttp
      ∧ doc.validateWith allowHttp = .ok ()
  | .jwksInsert uri set => JustLoaded K uri set h
  | .insertState row => ∃ providerId redirectUri,
      svc.loginOf req = some (providerId, redirectUri)
        ∧ Inserting K providerId redirectUri h row
  | .deleteState state providerId maxAge => h = [] ∧ maxAge = svc.maxAge
      ∧ (∃ provider, svc.providers[providerId]? = some provider)
      ∧ ∃ code, req.callback = some (providerId, code, state)
  | .sweepState maxAge => req = .sweepOauthState ∧ maxAge = svc.maxAge
  | .httpPost _ _ _ form => svc.offline = false ∧ ∃ providerId code state row,
      req.callback = some (providerId, code, state)
        ∧ ⟨Op.deleteState state providerId svc.maxAge, Except.ok (some row)⟩ ∈ h
        ∧ form = tokenForm code row.redirectUri row.pkceVerifier
  | .createSession s => (∀ s' r, ⟨Op.createSession s', r⟩ ∉ h) ∧ ∃ code state,
      req.callback = some (s.providerId, code, state)
        ∧ ∃ x : Opening, x.Valid svc s.providerId code state h ∧ s.userId = x.claims.sub
  | _ => True

/-- No session has been created. -/
def NoSession (h : List (Event oauthSig)) : Prop :=
  ∀ s, ⟨Op.createSession s, Except.ok ()⟩ ∉ h

/-- What a login that returned a URL has done. -/
def LoginDone (providerId redirectUri : String) (h : List (Event oauthSig)) :
    Except Fault AuthUrl → Prop
  | .ok r => (∃ discovery provider, svc.providers[providerId]? = some provider
      ∧ svc.GotDiscovery provider.config.discoveryUrl provider.config.allowHttpDiscovery
          discovery h
      ∧ ∃ state nonce verifier, ⟨Op.insertState ⟨state, providerId, nonce, some redirectUri,
            some verifier⟩, Except.ok ()⟩ ∈ h
        ∧ K.appendPairs discovery.authorizationEndpoint
            (authorizationPairs provider redirectUri state nonce (challengeOf K verifier))
          = .ok r.authorizationUrl)
  | .error _ => True

/-- What a finished callback has done: it opened a session exactly when it returns one. -/
def CallbackDone (h : List (Event oauthSig)) : Except Fault CallbackResult → Prop
  | .ok r => svc.offline = false ∧ ∃ s, s.id = r.sessionId
      ∧ ⟨Op.createSession s, Except.ok ()⟩ ∈ h
  | .error _ => NoSession h

variable {svc}

/-- Whether `http` is admitted is a setting of the provider that the request names. -/
theorem allowHttpOf_of_providerId {req : Request} {providerId : String} {provider : Provider}
    (hreq : req.providerId = some providerId) (hp : svc.providers[providerId]? = some provider) :
    svc.allowHttpOf req = some provider.config.allowHttpDiscovery := by
  cases req with
  | fetchWith url allowHttp => cases hreq
  | _ => simp [allowHttpOf, hreq, hp]

/-- The request may make the calls of a discovery. -/
theorem discoveryCalls {req : Request} {url : String} {allowHttp : Bool}
    (hreq : svc.allowHttpOf req = some allowHttp) :
    svc.DiscoveryCalls url allowHttp (svc.Call req) where
  fetch _ hoff := hoff
  sleep _ _ := trivial
  insert _ _ _ hvalid := ⟨allowHttp, hreq, hvalid⟩

/-- The request may make the calls of a key fetch. -/
theorem jwksCalls (req : Request) (uri : String) : svc.JwksCalls uri (svc.Call req) where
  get _ := trivial
  load _ hoff := hoff
  insert _ _ hload := hload

/-- A login names its provider. -/
theorem providerId_of_loginOf {req : Request} {providerId redirectUri : String}
    (h : svc.loginOf req = some (providerId, redirectUri)) : req.providerId = some providerId := by
  unfold loginOf at h
  split at h
  · cases h
    rfl
  · split at h
    · cases h
    · split at h
      · cases h
      · cases h
        rfl
  · cases h

/-- A callback names its provider. -/
theorem providerId_of_callback {req : Request} {providerId code state : String}
    (h : req.callback = some (providerId, code, state)) : req.providerId = some providerId := by
  unfold Request.callback at h
  split at h
  · cases h
    rfl
  · split at h
    · cases h
      rfl
    · cases h
  · cases h

/-- A drawn text, with the event that it comes from. -/
theorem spec_randomHex_bind {β : Type} {φ : List (Event oauthSig) → Op → Prop}
    {ψ : List (Event oauthSig) → Except Fault β → Prop} {h : List (Event oauthSig)} {n : Nat}
    {f : String → Flow β} (hcall : φ h (.fillBytes n))
    (hf : ∀ b, Spec φ ψ (h ++ [⟨Op.fillBytes n, b⟩]) (f (hexEncode b))) :
    Spec φ ψ h (randomHex n >>= f) :=
  ⟨hcall, fun b => hf b⟩

/-- A login URL was made with a state, a nonce and a verifier of their own, and its row is in the
table before the URL is returned. -/
theorem buildLoginUrl_spec {req : Request} {providerId redirectUri : String}
    (hreq : svc.loginOf req = some (providerId, redirectUri)) :
    Spec (svc.Call req) (svc.LoginDone providerId redirectUri) []
      (svc.buildLoginUrl providerId redirectUri) := by
  unfold buildLoginUrl
  split
  · exact trivial
  · rename_i provider hp
    have hflag := allowHttpOf_of_providerId (providerId_of_loginOf hreq) hp
    refine spec_seq (fetchWith_spec (discoveryCalls hflag) (fun _ _ => List.not_mem_nil)) ?_
      (fun _ _ _ => trivial)
    rintro h discovery ⟨hq, hdisc⟩
    have hdisc := hdisc discovery rfl
    refine spec_try_bind.mpr ⟨fun _ _ => ?_, fun _ _ => trivial⟩
    refine spec_randomHex_bind trivial fun stateBytes => ?_
    refine spec_randomHex_bind trivial fun nonceBytes => ?_
    refine ⟨trivial, fun raw => ?_⟩
    -- Only quiet calls so far, so there was no `INSERT` before.
    let h₃ := h ++ [⟨Op.fillBytes 32, stateBytes⟩] ++ [⟨Op.fillBytes 32, nonceBytes⟩]
      ++ [⟨Op.fillBytes 32, raw⟩]
    have hq₃ : QuietTo [] h₃ :=
      ((hq.snoc (.fillBytes 32) stateBytes trivial).snoc (.fillBytes 32) nonceBytes trivial).snoc
        (.fillBytes 32) raw trivial
    have hins : Inserting K providerId redirectUri h₃
        ⟨hexEncode stateBytes, providerId, hexEncode nonceBytes, some redirectUri,
          some (K.base64Url raw)⟩ := {
      provider := rfl
      redirectUri := rfl
      state := ⟨stateBytes, by simp [h₃], rfl⟩
      verifier := ⟨raw, by simp [h₃], rfl⟩
      first := fun row' r hmem => by
        have := hq₃.mem_back hmem (fun hquiet => hquiet)
        cases this }
    refine ⟨⟨providerId, redirectUri, hreq, hins⟩, fun r => ?_⟩
    refine spec_sql_bind.mpr ⟨fun _ hok => ?_, fun _ _ => trivial⟩
    subst hok
    split
    · exact trivial
    · rename_i url hurl
      refine ⟨discovery, provider, hp, ?_, hexEncode stateBytes, hexEncode nonceBytes,
        K.base64Url raw, ?_, hurl⟩
      · exact (((hdisc.append _).append _).append _).append _
      · exact List.mem_append_right _ List.mem_cons_self

/-! ### `complete_callback` -/

/-- Quiet events create no session. -/
theorem noSession_of_quiet {h h' : List (Event oauthSig)} (hq : QuietTo h h')
    (hno : NoSession h) : NoSession h' :=
  fun s hs => hno s (hq.mem_back hs fun hquiet => hquiet)

/-- The token request is made at most once, to the endpoint of the document and with the form of the
row. Tokens are those of its answer. -/
theorem exchange_spec {req : Request} {providerId code state : String} {provider : Provider}
    {endpoint : String} {row : Returned} {h : List (Event oauthSig)}
    (hreq : req.callback = some (providerId, code, state))
    (hdel : ⟨Op.deleteState state providerId svc.maxAge, Except.ok (some row)⟩ ∈ h) :
    Spec (svc.Call req) (fun h' x => ∃ resp, (h' = h ∨ h' = h ++ [⟨Op.httpPost endpoint
          provider.clientId provider.clientSecret
          (tokenForm code row.redirectUri row.pkceVerifier), resp⟩])
        ∧ ∀ tokens, x = .ok tokens → svc.offline = false
          ∧ ∃ r, resp = .ok r ∧ h' = h ++ [⟨Op.httpPost endpoint provider.clientId
              provider.clientSecret (tokenForm code row.redirectUri row.pkceVerifier), resp⟩]
            ∧ r.isSuccess = true ∧ json K TokenResponse.deserialize r = .ok tokens)
      h (svc.exchange provider endpoint (tokenForm code row.redirectUri row.pkceVerifier)) := by
  unfold exchange
  split
  · exact ⟨.error ⟨false, ""⟩, .inl rfl, nofun⟩
  · rename_i hnone
    have hoff := blockIfOffline_none hnone
    refine spec_call_bind.mpr ⟨⟨hoff, providerId, code, state, row, hreq, hdel, rfl⟩,
      fun r => ?_⟩
    cases r with
    | error e =>
        show Spec _ _ _ (ite _ _ _)
        split
        · exact ⟨.error e, .inr rfl, nofun⟩
        · exact ⟨.error e, .inr rfl, nofun⟩
    | ok resp =>
        show Spec _ _ _ (ite _ _ _)
        split
        · exact ⟨.ok resp, .inr rfl, nofun⟩
        · rename_i hsuccess
          split
          · exact ⟨.ok resp, .inr rfl, nofun⟩
          · rename_i tokens htokens
            refine ⟨.ok resp, .inr rfl, fun tokens' hok => ?_⟩
            cases hok
            exact ⟨hoff, resp, rfl, rfl, by simpa using hsuccess, htokens⟩

/-- What stands behind a session is not undone by later events. -/
theorem Opening.Valid.mono {providerId code state : String} {x : Opening}
    {h h' : List (Event oauthSig)} (hx : x.Valid svc providerId code state h)
    (hsub : ∀ e ∈ h, e ∈ h') : x.Valid svc providerId code state h' :=
  { hx with
    deleted := hsub _ hx.deleted
    document := hx.document.mono hsub
    posted := hsub _ hx.posted
    keys := hx.keys.imp (hsub _) (hsub _)
    verified := hx.verified.mono hsub }

/-- The session that a callback creates. -/
def sessionOf (providerId : String) (provider : Provider) (claims : IdTokenClaims)
    (now expiresAt : DateTime) (id : String) : Session where
  id := id
  providerId := providerId
  userId := (profileFromClaims provider claims).1
  createdAt := now
  lastActivity := now
  expiresAt := expiresAt
  profile := (profileFromClaims provider claims).2

/-- What the callback answers about its session. -/
def resultOf (session : Session) : CallbackResult where
  status := "ok"
  provider := session.providerId
  sessionId := session.id
  expiresAt := session.expiresAt
  userProfile := session.profile.insert "user_id" (.string session.userId)

/-- `openSession` call by call. -/
theorem openSession_eq (svc : OAuthService K) (providerId : String) (provider : Provider)
    (tokens : TokenResponse) (claims : IdTokenClaims) :
    svc.openSession providerId provider tokens claims = .op Op.now fun (now : DateTime) =>
      match (Duration.trySeconds (svc.effectiveSeconds tokens.expiresIn).toInt).bind
          now.checkedAdd with
      | none => .raise .panic
      | some expiresAt => .op (.fillBytes 24) fun bytes =>
          let session := sessionOf providerId provider claims now expiresAt (hexEncode bytes)
          .op (.createSession session) fun r =>
            match r with
            | .error e => .raise (.err e)
            | .ok () => .ret (resultOf session) := by
  unfold openSession
  refine congrArg (Prog.op (S := oauthSig) Op.now) (funext fun now => ?_)
  show (addSeconds now _ >>= _) = _
  unfold addSeconds
  cases (Duration.trySeconds (svc.effectiveSeconds tokens.expiresIn).toInt).bind
      (DateTime.checkedAdd now) with
  | none => rfl
  | some expiresAt =>
      refine congrArg (Prog.op (S := oauthSig) (Op.fillBytes 24)) (funext fun bytes => ?_)
      refine congrArg (Prog.op (S := oauthSig) (Op.createSession _)) (funext fun r => ?_)
      cases r with
      | error e => rfl
      | ok _ => rfl

/-- Opening the session is the last thing that a callback does. -/
theorem openSession_spec {req : Request} {providerId code state : String} {x : Opening}
    {h : List (Event oauthSig)} (hoff : svc.offline = false)
    (hreq : req.callback = some (providerId, code, state))
    (hx : x.Valid svc providerId code state h)
    (hfirst : ∀ s r, ⟨Op.createSession s, r⟩ ∉ h) :
    Spec (svc.Call req) svc.CallbackDone h
      (svc.openSession providerId x.provider x.tokens x.claims) := by
  have hno : NoSession h := fun s => hfirst s _
  unfold openSession
  refine spec_call_bind.mpr ⟨trivial, fun now => ?_⟩
  have hq : QuietTo h (h ++ [⟨Op.now, now⟩]) := (QuietTo.refl h).snoc _ now trivial
  unfold addSeconds
  split
  · exact noSession_of_quiet hq hno
  · rename_i expiresAt hexp
    refine spec_randomHex_bind trivial fun idBytes => ?_
    have hq := hq.snoc (.fillBytes 24) idBytes trivial
    refine spec_call_bind.mpr ⟨⟨?_, code, state, hreq, x, ?_, rfl⟩, fun r => ?_⟩
    · exact fun s' r hmem => hfirst s' r (hq.mem_back hmem fun hquiet => hquiet)
    · exact hx.mono fun e he => hq.mem he
    · refine spec_try_bind.mpr ⟨fun _ hok => ?_, fun e herr => ?_⟩
      · subst hok
        exact ⟨hoff, _, rfl, List.mem_append_right _ List.mem_cons_self⟩
      · subst herr
        intro s hs
        rcases List.mem_append.mp hs with hs | hs
        · exact noSession_of_quiet hq hno s hs
        · cases List.mem_singleton.mp hs

/-- The part of `redeem` before the session: the tokens and the verified claims. -/
def gather (svc : OAuthService K) (provider : Provider) (code : String) (row : Returned) :
    Flow (TokenResponse × IdTokenClaims) := do
  let discovery ← svc.fetchWith provider.config.discoveryUrl provider.config.allowHttpDiscovery
  let () ← Flow.try_ (enforceJwksPin provider discovery)
  match ← Flow.call .buildClient with
  | .error e => Flow.fail (.badGateway ("build http client: " ++ e))
  | .ok () =>
      let tokens ← svc.exchange provider discovery.tokenEndpoint
        (tokenForm code row.redirectUri row.pkceVerifier)
      match tokens.idToken with
      | none => Flow.fail (.unprocessable "token response has no id_token")
      | some idToken =>
          let claims ← svc.verify discovery provider idToken row.nonce
          return (tokens, claims)

/-- The redemption is cut in two: gathering what the session is made of, and opening it. -/
theorem redeem_eq (svc : OAuthService K) (providerId : String) (provider : Provider)
    (code : String) (row : Returned) :
    svc.redeem providerId provider code row = svc.gather provider code row >>= fun g =>
      svc.openSession providerId provider g.1 g.2 := by
  unfold redeem gather
  rw [bind_assoc]
  refine congrArg (Bind.bind _) (funext fun discovery => ?_)
  cases enforceJwksPin provider discovery with
  | error e => rfl
  | ok _ =>
      refine congrArg (Prog.op (S := oauthSig) Op.buildClient) (funext fun client => ?_)
      cases client with
      | error e => rfl
      | ok _ =>
          show _ = (svc.exchange _ _ _ >>= _) >>= _
          rw [bind_assoc]
          refine congrArg (Bind.bind _) (funext fun tokens => ?_)
          cases tokens.idToken with
          | none => rfl
          | some idToken =>
              show _ = (svc.verify _ _ _ _ >>= _) >>= _
              rw [bind_assoc]
              rfl

/-- What the callback knows before it opens the session. -/
def Gathered (svc : OAuthService K) (providerId code state : String) (provider : Provider)
    (h : List (Event oauthSig)) : Except Fault (TokenResponse × IdTokenClaims) → Prop
  | .ok g => svc.offline = false ∧ (∀ s r, ⟨Op.createSession s, r⟩ ∉ h)
      ∧ ∃ x : Opening, x.Valid svc providerId code state h
        ∧ x.provider = provider ∧ x.tokens = g.1 ∧ x.claims = g.2
  | .error _ => NoSession h

/-- Everything that the session is made of is verified before the session is opened. -/
theorem gather_spec {req : Request} {providerId code state : String} {provider : Provider}
    {row : Returned} (hreq : req.callback = some (providerId, code, state))
    (hp : svc.providers[providerId]? = some provider) :
    Spec (svc.Call req) (svc.Gathered providerId code state provider)
      [⟨Op.deleteState state providerId svc.maxAge, Except.ok (some row)⟩]
      (svc.gather provider code row) := by
  let h₀ : List (Event oauthSig) :=
    [⟨Op.deleteState state providerId svc.maxAge, Except.ok (some row)⟩]
  have hfirst₀ : ∀ s r, ⟨Op.createSession s, r⟩ ∉ h₀ := fun s r hs => by
    cases List.mem_singleton.mp hs
  have hflag := allowHttpOf_of_providerId (providerId_of_callback hreq) hp
  unfold gather
  have hget : svc.Call req h₀ (.discoveryGet provider.config.discoveryUrl) := by
    intro url r hmem
    cases List.mem_singleton.mp hmem
  refine spec_seq (fetchWith_spec (discoveryCalls hflag) hget) ?_
    (fun h e hx => noSession_of_quiet hx.1 fun s => hfirst₀ s _)
  rintro h₁ discovery ⟨hq₁, hdocument⟩
  have hno₁ : NoSession h₁ := noSession_of_quiet hq₁ fun s => hfirst₀ s _
  refine spec_try_bind.mpr ⟨fun _ hpin => ?_, fun _ _ => hno₁⟩
  refine spec_call_bind.mpr ⟨trivial, fun client => ?_⟩
  have hq₂ : QuietTo h₀ (h₁ ++ [⟨Op.buildClient, client⟩]) := hq₁.snoc _ client trivial
  have hno₂ : NoSession (h₁ ++ [⟨Op.buildClient, client⟩]) :=
    noSession_of_quiet hq₂ fun s => hfirst₀ s _
  cases client with
  | error e => exact hno₂
  | ok _ =>
      have hexchange := @exchange_spec K svc req providerId code state provider
        discovery.tokenEndpoint row _ hreq (hq₂.mem List.mem_cons_self)
      refine spec_seq hexchange ?_ ?_
      · rintro h₃ tokens ⟨resp, -, hok⟩
        obtain ⟨hoff, r, rfl, rfl, hsuccess, hjson⟩ := hok tokens rfl
        -- The token request is the only call so far that is neither quiet nor the `DELETE`.
        have hfirst₃ : ∀ s r', ⟨Op.createSession s, r'⟩ ∉ h₁ ++ [⟨Op.buildClient, Except.ok ()⟩]
            ++ [⟨Op.httpPost discovery.tokenEndpoint provider.clientId provider.clientSecret
              (tokenForm code row.redirectUri row.pkceVerifier), Except.ok r⟩] := by
          intro s r' hs
          rcases List.mem_append.mp hs with hs | hs
          · exact hfirst₀ s r' (hq₂.mem_back hs fun hquiet => hquiet)
          · cases List.mem_singleton.mp hs
        split
        · exact fun s => hfirst₃ s _
        · rename_i idToken hid
          refine spec_seq (verify_spec (jwksCalls req _) (fun _ => trivial) _) ?_
            (fun h e hx => noSession_of_quiet hx.1 fun s => hfirst₃ s _)
          rintro h₄ claims ⟨hq₄, hclaims⟩
          obtain ⟨set, hkeys, hverified⟩ := hclaims claims rfl
          refine ⟨hoff, fun s r' hs => hfirst₃ s r' (hq₄.mem_back hs fun hquiet => hquiet),
            ⟨provider, row, discovery, r, tokens, idToken, set, claims⟩, ?_, rfl, rfl, rfl⟩
          exact {
            provider := hp
            deleted := hq₄.mem (List.mem_append_left _ (hq₂.mem List.mem_cons_self))
            document := (hdocument discovery rfl).mono fun e he =>
              hq₄.mem (List.mem_append_left _ (List.mem_append_left _ he))
            pinned := hpin
            posted := hq₄.mem (List.mem_append_right _ List.mem_cons_self)
            answered := ⟨hsuccess, hjson⟩
            idToken := hid
            keys := hkeys
            verified := hverified }
      · rintro h₃ e ⟨resp, hh, -⟩
        rcases hh with rfl | rfl
        · exact hno₂
        · intro s hs
          rcases List.mem_append.mp hs with hs | hs
          · exact hno₂ s hs
          · cases List.mem_singleton.mp hs

/-- A callback with a row ends with a session that has all its reasons in the history, or without
one. -/
theorem redeem_spec {req : Request} {providerId code state : String} {provider : Provider}
    {row : Returned} (hreq : req.callback = some (providerId, code, state))
    (hp : svc.providers[providerId]? = some provider) :
    Spec (svc.Call req) svc.CallbackDone
      [⟨Op.deleteState state providerId svc.maxAge, Except.ok (some row)⟩]
      (svc.redeem providerId provider code row) := by
  rw [redeem_eq]
  refine spec_seq (gather_spec hreq hp) ?_ fun h e hno => hno
  rintro h ⟨tokens, claims⟩ ⟨hoff, hfirst, x, hx, rfl, rfl, rfl⟩
  exact openSession_spec hoff hreq hx hfirst

/-- The callback as a whole. Without a row it has ended before any request. -/
theorem completeCallback_spec {req : Request} {providerId code state : String}
    (hreq : req.callback = some (providerId, code, state)) :
    Spec (svc.Call req) svc.CallbackDone [] (svc.completeCallback providerId code state) := by
  have hno : ∀ r, NoSession [⟨Op.deleteState state providerId svc.maxAge, r⟩] := by
    intro r s hs
    cases List.mem_singleton.mp hs
  unfold completeCallback
  split
  · exact fun s hs => by cases hs
  · rename_i provider hp
    refine spec_call_bind.mpr ⟨⟨rfl, rfl, ⟨provider, hp⟩, code, hreq⟩, fun r => ?_⟩
    refine spec_sql_bind.mpr ⟨fun found hok => ?_, fun e _ => hno r⟩
    subst hok
    cases found with
    | none => exact hno _
    | some row => exact redeem_spec hreq hp

/-! ### All requests -/

variable (svc) in
/-- What a finished request has done. -/
def Done (req : Request) (h : List (Event oauthSig)) (x : Except Fault Response) : Prop :=
  match req with
  | .buildLoginUrl .. | .authLogin .. => match x with
      | .ok (.authUrl r) => ∃ providerId redirectUri,
          svc.loginOf req = some (providerId, redirectUri)
            ∧ svc.LoginDone providerId redirectUri h (.ok r)
      | .ok _ => False
      | .error _ => True
  | .completeCallback .. => match x with
      | .ok (.callback r) => svc.CallbackDone h (.ok r)
      | .ok _ => False
      | .error _ => NoSession h
  | .authCallback .. => match x with
      | .ok (.callbackAnswer (.opened r)) => svc.CallbackDone h (.ok r)
      | .ok (.callbackAnswer (.providerError ..)) => NoSession h
      | .ok _ => False
      | .error _ => NoSession h
  | .sweepOauthState => True
  | .fetchWith url allowHttp => ∀ doc, x = .ok (.discovery doc) →
      svc.GotDiscovery url allowHttp doc h
  | .verify discovery provider idToken expectedNonce => ∀ claims, x = .ok (.claims claims) →
      ∃ set, GotKeys discovery.jwksUri set h
        ∧ Verified K discovery provider idToken expectedNonce set claims h

/-- Every request of the flow keeps to its calls and ends as `Done` says. The invariants over runs
are derived from this one statement. -/
theorem program_spec (svc : OAuthService K) (req : Request) :
    Spec (svc.Call req) (svc.Done req) [] (svc.program req) := by
  cases req with
  | buildLoginUrl providerId redirectUri =>
      have hreq : svc.loginOf (.buildLoginUrl providerId redirectUri)
          = some (providerId, redirectUri) := rfl
      refine spec_seq (buildLoginUrl_spec hreq) ?_ (fun h e _ => trivial)
      intro h r hr
      exact ⟨providerId, redirectUri, rfl, hr⟩
  | authLogin id redirectUri =>
      show Spec _ _ [] (svc.authLogin id redirectUri >>= fun r => pure (Response.authUrl r))
      unfold authLogin
      split
      · exact trivial
      -- The handler resolves the redirect URI before the flow starts.
      · rename_i provider hp
        split
        · exact trivial
        · rename_i uri huri
          have hreq : svc.loginOf (.authLogin id redirectUri) = some (id, uri) := by
            simp [loginOf, hp, huri]
          refine spec_seq (buildLoginUrl_spec hreq) ?_ (fun h e _ => trivial)
          intro h r hr
          exact ⟨id, uri, hreq, hr⟩
  | completeCallback providerId code state =>
      have hreq : Request.callback (.completeCallback providerId code state)
          = some (providerId, code, state) := rfl
      exact spec_seq (completeCallback_spec hreq) (fun h r hr => hr) (fun h e he => he)
  -- Three checks of the query come first, and none of their exits opens a session.
  | authCallback id q =>
      have hnil : NoSession [] := fun s hs => by cases hs
      show Spec _ _ [] (svc.authCallback id q >>= fun r => pure (Response.callbackAnswer r))
      unfold authCallback
      split
      · exact hnil
      · rename_i herror
        split
        · exact hnil
        · rename_i code hcode
          split
          · exact hnil
          · rename_i state hstate
            have hreq : Request.callback (.authCallback id q) = some (id, code, state) := by
              simp [Request.callback, herror, hcode, hstate]
            refine spec_seq (spec_seq (completeCallback_spec hreq)
              (ψ := fun h x => match x with
                | .ok (CallbackAnswer.opened r) => svc.CallbackDone h (.ok r)
                | _ => NoSession h) (fun h r hr => hr) (fun h e he => he)) ?_ (fun h e he => he)
            intro h r hr
            cases r with
            | opened r => exact hr
            | providerError p e d => exact hr
  | sweepOauthState =>
      refine spec_call_bind.mpr ⟨⟨rfl, rfl⟩, fun r => ?_⟩
      cases r with
      | ok n => exact trivial
      | error e => exact trivial
  | fetchWith url allowHttp =>
      have hget : svc.Call (.fetchWith url allowHttp) [] (.discoveryGet url) :=
        fun _ _ => List.not_mem_nil
      refine spec_seq (fetchWith_spec (discoveryCalls rfl) hget) ?_ (fun h e _ => nofun)
      rintro h doc ⟨-, hdoc⟩ doc' hdoc'
      cases hdoc'
      exact hdoc doc rfl
  | verify discovery provider idToken expectedNonce =>
      refine spec_seq (verify_spec (jwksCalls _ _) (fun _ => trivial) []) ?_ (fun h e _ => nofun)
      rintro h claims ⟨-, hclaims⟩ claims' hclaims'
      cases hclaims'
      exact hclaims claims rfl

end OAuthService

end Tim.OAuth
