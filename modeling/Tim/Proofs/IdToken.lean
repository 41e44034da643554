import Tim.Proofs.FlowRuns

/-!
# `Tim.Proofs.IdToken`: what stands behind an accepted ID token

`TokenCheck.Passed` lists the conditions that an ID token meets when a callback creates a
session from it. Some of them `jsonwebtoken::decode` checks, by the `Validation` that `verify`
builds, and the others `verify` checks itself. `session_verified` says that every session of
every run has passed all of them.

`keys_fresh` bounds the age of the key set that `verify` uses. The JWKS cache is one for all
providers, with the largest of their times-to-live, so the bound is that of the configuration
and not of the provider. `keys_stale` is a run where the two differ.

* `claims_of_passes`: what the claim checks of the library say about the payload.
* `passed_of_opening`: the conditions, from what stands behind a session.
-/

set_option autoImplicit false

namespace Tim.OAuth

open Tim.Lib OAuthService

/-! ### Claims -/

namespace IdTokenClaims

/-- The fields that the claim checks of `decode` read, in the payload and in the claims. -/
theorem fields_of_deserialize {p : Payload} {c : IdTokenClaims} (h : deserialize p = some c) :
    stringField (p.field "iss") = some c.iss
      ∧ (p.field "exp").required Value.asI64 = some c.exp
      ∧ (p.field "nbf").optional Value.asI64 = some c.nbf := by
  simp only [deserialize, Option.bind_eq_bind, Option.bind_eq_some_iff, Option.pure_def,
    Option.some.injEq] at h
  obtain ⟨iss, hiss, sub, -, aud, -, exp, hexp, nbf, hnbf, iat, -, nonce, -, rfl⟩ := h
  exact ⟨hiss, hexp, hnbf⟩

end IdTokenClaims

/-- A value that is read as an `i64` is that number. -/
theorem int_of_asI64 {v : Value} {i : Int64} (h : v.asI64 = some i) :
    v = .number (.int i.toInt) := by
  unfold Value.asI64 at h
  split at h
  · rename_i n
    split at h
    · rename_i hrange
      cases h
      rw [Int64.toInt_ofInt_of_le hrange.1 (by omega)]
    · cases h
  · cases h

/-- A required integer is the one that the claim checks compare. -/
theorem intClaim_of_required {p : Payload} {k : String} {i : Int64}
    (h : (p.field k).required Value.asI64 = some i) : Validation.intClaim p k = some i.toInt := by
  unfold Field.required at h
  split at h
  · rename_i v hfield
    unfold Validation.intClaim
    rw [hfield, int_of_asI64 h]
  · cases h

/-- So is an optional one that is there. -/
theorem intClaim_of_optional {p : Payload} {k : String} {i : Int64}
    (h : (p.field k).optional Value.asI64 = some (some i)) :
    Validation.intClaim p k = some i.toInt := by
  unfold Field.optional at h
  split at h
  · cases h
  · rename_i v hfield
    unfold Value.asOption at h
    split at h
    · cases h
    · obtain ⟨i', hi, hsame⟩ := Option.map_eq_some_iff.mp h
      cases hsame
      unfold Validation.intClaim
      rw [hfield, int_of_asI64 hi]
  · cases h

/-- A required issuer that passes the check is the expected one. -/
theorem issuer_of_passes {p : Payload} {iss expected : String}
    (hfield : stringField (p.field "iss") = some iss)
    (hthere : Validation.hasRequired p "iss" = true)
    (hcheck : (match p.field "iss" with
      | .present (.string s) => [expected].contains s
      | _ => true) = true) : iss = expected := by
  cases hf : p.field "iss" with
  | missing =>
      rw [Validation.hasRequired, if_pos (by decide), hf] at hthere
      cases hthere
  | duplicate =>
      rw [hf] at hfield
      cases hfield
  | present v =>
      rw [hf] at hfield hcheck
      cases v with
      | string s =>
          cases hfield
          simpa using hcheck
      | _ => cases hfield

/-- The casts and the addition of the `iat` check never let the limit grow. -/
theorem iat_le {now : DateTime} {skew : UInt64} {iat : Int64}
    (h : ¬ (now.timestamp + skew.toInt64 < iat)) :
    iat.toInt ≤ now.timestamp.toInt + skew.toNat := by
  have hlow : -(2 ^ 63) ≤ now.timestamp.toInt := now.timestamp.le_toInt
  have hwrap : ∀ x : Int, -(2 ^ 63) ≤ x → x.bmod (2 ^ 64) ≤ x := by
    intro x hx
    rw [Int.bmod_def]
    split <;> omega
  have hsum : (now.timestamp + skew.toInt64).toInt
      = (now.timestamp.toInt + skew.toNat).bmod (2 ^ 64) := by
    have hskew : skew.toInt64.toInt = (skew.toNat : Int).bmod (2 ^ 64) :=
      BitVec.toInt_eq_toNat_bmod _
    rw [Int64.toInt_add, hskew, Int.add_bmod_bmod]
  rw [Int64.lt_iff_toInt_lt, hsum] at h
  have hbound := hwrap (now.timestamp.toInt + skew.toNat) (by omega)
  omega

/-! ### The conditions -/

/-- The algorithms of `jsonwebtoken` that are not symmetric. -/
def asymmetric : List Algorithm :=
  [.es256, .es384, .rs256, .rs384, .rs512, .ps256, .ps384, .ps512, .edDSA]

/-- What is none of the three HMAC algorithms is asymmetric. -/
theorem mem_asymmetric {alg : Algorithm} (h₁ : alg ≠ .hs256) (h₂ : alg ≠ .hs384)
    (h₃ : alg ≠ .hs512) : alg ∈ asymmetric := by
  cases alg <;> first | decide | exact absurd rfl ‹_›

/-- The selected key is one of the set, and it has the `kid` of the header when there is
one. -/
theorem selectKey_mem {set : JwkSet} {header : Header} {key : Jwk}
    (h : selectKey set header = .ok key) :
    key ∈ set ∧ ∀ kid, header.kid = some kid → key.keyId = some kid := by
  unfold selectKey at h
  split at h
  · rename_i kid hkid
    split at h
    · rename_i k hfind
      cases h
      refine ⟨List.mem_of_find?_eq_some hfind, fun kid' hkid' => ?_⟩
      rw [hkid] at hkid'
      cases hkid'
      simpa using List.find?_some hfind
    · cases h
  · rename_i hnone
    split at h
    · rename_i k hfind
      cases h
      refine ⟨List.mem_of_find?_eq_some hfind, fun kid hkid => ?_⟩
      rw [hnone] at hkid
      cases hkid
    · cases h

/-- A pin that lets a document through is met by it. -/
theorem pinned_of_enforce {provider : Provider} {discovery : Discovery}
    (h : enforceJwksPin provider discovery = .ok ()) :
    ∀ pinned, provider.config.jwksUri = some pinned → discovery.jwksUri = pinned := by
  intro pinned hpin
  unfold enforceJwksPin at h
  simp only [hpin] at h
  split at h
  · cases h
  · rename_i hsame
    exact (not_not.mp hsame).symm

/-- What `verify` has read of a token: its header, the key, and the clock. -/
structure TokenCheck (K : OAuthCrates) where
  header : Header
  key : Jwk
  decoding : K.DecodingKey
  at_ : DateTime
  now : DateTime

/-- `clock_skew_seconds` of a provider. -/
def Provider.skew (p : Provider) : Int := p.config.tokenValidation.clockSkewSeconds.toNat

/-- The conditions on the ID token of a session that the task `tid` opens. -/
structure TokenCheck.Passed {K : OAuthCrates} (hist : List (Nat × Event oauthSig)) (tid : Nat)
    (o : Opening) (k : TokenCheck K) : Prop where
  header : K.decodeHeader (K.compact o.idToken) = .ok k.header
  algorithm : k.header.alg ∈ asymmetric
  loaded : Loaded K o.discovery.jwksUri o.set hist
  pinned : ∀ pinned, o.provider.config.jwksUri = some pinned → o.discovery.jwksUri = pinned
  key : k.key ∈ o.set ∧ decodingKeyFor K k.key = .ok k.decoding
  kid : ∀ kid, k.header.kid = some kid → k.key.keyId = some kid
  signature : K.verifies (K.compact o.idToken) k.decoding = true
  payload : ∃ p, K.payload (K.compact o.idToken) = some p
    ∧ IdTokenClaims.deserialize p = some o.claims
  clock : (tid, (⟨Op.now, k.at_⟩ : Event oauthSig)) ∈ hist
    ∧ (tid, (⟨Op.now, k.now⟩ : Event oauthSig)) ∈ hist
  issuer : o.claims.iss = o.discovery.issuer
  audience : o.claims.aud.contains o.provider.clientId = true
  exp : k.at_.timestamp.toInt - o.provider.skew ≤ o.claims.exp.toInt
  nbf : ∀ nbf, o.claims.nbf = some nbf → nbf.toInt ≤ k.at_.timestamp.toInt + o.provider.skew
  iat : o.claims.iat.toInt ≤ k.now.timestamp.toInt + o.provider.skew
  nonce : o.claims.nonce = some o.row.nonce

section Runs

variable {K : OAuthCrates} {store : SessionStore} {discoveryTtl jwksTtl : Nat}
  {svc : OAuthService K}
  {P : FlowPool store discoveryTtl jwksTtl → FlowLabel store discoveryTtl jwksTtl → Prop}
  {s₀ : State store} {c : FlowPool store discoveryTtl jwksTtl}

/-- The claim checks of the `Validation` that `verify` builds. -/
theorem claims_of_passes {provider : Provider} {discovery : Discovery} {alg : Algorithm}
    {p : Payload} {claims : IdTokenClaims} {now : Int64}
    (hclaims : IdTokenClaims.deserialize p = some claims)
    (hpass : (idTokenValidation provider discovery alg).passes p now = true) :
    claims.iss = discovery.issuer
      ∧ now.toInt - provider.skew ≤ claims.exp.toInt
      ∧ ∀ nbf, claims.nbf = some nbf → nbf.toInt ≤ now.toInt + provider.skew := by
  obtain ⟨hiss, hexp, hnbf⟩ := IdTokenClaims.fields_of_deserialize hclaims
  simp only [Validation.passes, idTokenValidation, Bool.and_eq_true] at hpass
  obtain ⟨⟨⟨hrequired, hexpCheck⟩, hnbfCheck⟩, hissCheck⟩ := hpass
  refine ⟨?_, ?_, fun nbf hsome => ?_⟩
  · exact issuer_of_passes hiss (List.all_eq_true.mp hrequired "iss" (by decide)) hissCheck
  · rw [intClaim_of_required hexp] at hexpCheck
    simp only [Bool.not_true, Bool.false_or, Bool.not_eq_true'] at hexpCheck
    have hle : ¬ claims.exp.toInt < now.toInt - provider.skew := of_decide_eq_false hexpCheck
    omega
  · rw [hsome] at hnbf
    rw [intClaim_of_optional hnbf] at hnbfCheck
    simp only [Bool.not_true, Bool.false_or, Bool.not_eq_true'] at hnbfCheck
    have hle : ¬ now.toInt + provider.skew < nbf.toInt := of_decide_eq_false hnbfCheck
    omega

/-- The token of every session that a callback opens has passed the conditions. -/
theorem passed_of_opening (laws : DecodeLaws K.toCrates) (h : FlowReach svc P s₀ c)
    (hjwks : s₀.jwks = ∅) (huses : s₀.keyUses = []) {tid : Nat} {id code state : String}
    {before : List (Event oauthSig)} {o : Opening} (ho : o.Valid svc id code state before)
    (hbefore : ∀ e ∈ before, (tid, e) ∈ c.history) :
    ∃ k : TokenCheck K, TokenCheck.Passed c.history tid o k := by
  obtain ⟨⟨header, key, decoding, at_, now, hat, hnow, hheader, h₁, h₂, h₃, hkey, hdecoding,
    hdecode, hiat⟩, haud, hnonce⟩ := ho.verified
  obtain ⟨-, hverifies, p, hp, hclaims, hpass⟩ :=
    (laws.ok_iff IdTokenClaims.deserialize _ _ _ _ _ rfl).mp hdecode
  obtain ⟨hiss, hexp, hnbf⟩ := claims_of_passes hclaims hpass
  obtain ⟨hmem, hkid⟩ := selectKey_mem hkey
  have hgot : GotKeys o.discovery.jwksUri o.set (eventsOf c.history tid) :=
    ho.keys.imp (fun he => mem_eventsOf.mpr (hbefore _ he))
      (fun he => mem_eventsOf.mpr (hbefore _ he))
  exact ⟨⟨header, key, decoding, at_, now⟩, {
    header := hheader
    algorithm := mem_asymmetric h₁ h₂ h₃
    loaded := keys_loaded h hjwks huses hgot
    pinned := pinned_of_enforce ho.pinned
    key := ⟨hmem, hdecoding⟩
    kid := hkid
    signature := hverifies
    payload := ⟨p, hp, hclaims⟩
    clock := ⟨hbefore _ hat, hbefore _ hnow⟩
    issuer := hiss
    audience := haud
    exp := hexp
    nbf := hnbf
    iat := iat_le hiat
    nonce := hnonce }⟩

/-- The session that a finished callback reports. -/
def sessionResult (t : Task oauthSig Fault Response Request) : Option CallbackResult :=
  match t.req, t.result with
  | .completeCallback .., some (.ok (.callback r)) => some r
  | .authCallback .., some (.ok (.callbackAnswer (.opened r))) => some r
  | _, _ => none

/-- A callback that reports a session has created one. -/
theorem created_of_sessionResult (h : FlowReach svc P s₀ c) {tid : Nat}
    {t : Task oauthSig Fault Response Request} (ht : c.tasks[tid]? = some t)
    {r : CallbackResult} (hr : sessionResult t = some r) :
    svc.offline = false ∧ ∃ session, session.id = r.sessionId
      ∧ (tid, (⟨Op.createSession session, Except.ok ()⟩ : Event oauthSig)) ∈ c.history := by
  have hdone : svc.CallbackDone (eventsOf c.history tid) (.ok r) := by
    unfold sessionResult at hr
    split at hr
    · rename_i hreq hres
      have hdone := h.result_spec svc.program_spec ht hres
      rw [hreq] at hdone
      cases hr
      exact hdone
    · rename_i hreq hres
      have hdone := h.result_spec svc.program_spec ht hres
      rw [hreq] at hdone
      cases hr
      exact hdone
    · cases hr
  obtain ⟨hoff, session, hid, hmem⟩ := hdone
  exact ⟨hoff, session, hid, mem_eventsOf.mp hmem⟩

/-- The evidence behind a session, from the events of its task. -/
theorem opening_of_create (h : FlowReach svc P s₀ c) {tid : Nat} {session : Session}
    {r : Except TimError Unit}
    (hmem : (tid, (⟨Op.createSession session, r⟩ : Event oauthSig)) ∈ c.history) :
    ∃ code state, ∃ o : Opening,
      o.Valid svc session.providerId code state (eventsOf c.history tid)
        ∧ session.userId = o.claims.sub := by
  obtain ⟨t, ht⟩ := h.task_of_event hmem
  obtain ⟨h₁, h₂, hsplit⟩ := List.append_of_mem (mem_eventsOf.mpr hmem)
  obtain ⟨-, code, state, -, o, ho, huser⟩ := h.event_spec svc.program_spec ht hsplit
  refine ⟨code, state, o, ho.mono fun e he => ?_, huser⟩
  rw [hsplit]
  exact List.mem_append_left _ he

/-- In every run, a callback that stores a session has checked the ID token of the token
response as `TokenCheck.Passed` says, and a callback that reports a session has stored one. -/
theorem session_verified (laws : DecodeLaws K.toCrates) (h : FlowReach svc P s₀ c)
    (hjwks : s₀.jwks = ∅) (huses : s₀.keyUses = []) :
    (∀ tid session (r : Except TimError Unit),
      (tid, (⟨Op.createSession session, r⟩ : Event oauthSig)) ∈ c.history →
      ∃ code state, ∃ o : Opening,
        o.Valid svc session.providerId code state (eventsOf c.history tid)
          ∧ session.userId = o.claims.sub
          ∧ ∃ k : TokenCheck K, TokenCheck.Passed c.history tid o k)
    ∧ ∀ tid t r, c.tasks[tid]? = some t → sessionResult t = some r →
      ∃ session, session.id = r.sessionId
        ∧ (tid, (⟨Op.createSession session, Except.ok ()⟩ : Event oauthSig)) ∈ c.history := by
  refine ⟨fun tid session r hmem => ?_, fun tid t r ht hr => ?_⟩
  · obtain ⟨code, state, o, ho, huser⟩ := opening_of_create h hmem
    exact ⟨code, state, o, ho, huser,
      passed_of_opening laws h hjwks huses ho fun e he => mem_eventsOf.mp he⟩
  · exact (created_of_sessionResult h ht hr).2

/-! ### The age of the keys -/

/-- The key sets that a task was handed from a URI were loaded from it at most `ttl` seconds
before. `Load` is the end of a load, where the set goes into the cache. -/
def FreshKeys (K : OAuthCrates) (c : FlowPool store discoveryTtl jwksTtl) (ttl tid : Nat)
    (uri : String) (set : JwkSet) : Prop :=
  (∃ u ∈ c.shared.keyUses, u.tid = tid ∧ u.uri = uri ∧ u.set = set)
    ∧ ∀ u ∈ c.shared.keyUses, u.tid = tid → u.uri = uri → u.set = set →
      ∃ v ∈ c.shared.keyUses, v.uri = uri ∧ v.set = set ∧ Load K v c.history
        ∧ u.at_.ns - v.at_.ns ≤ ttl * nanosPerSecond

/-- `ttl` is the largest `cache_ttl_seconds` of all providers, at least 60. -/
structure LargestTtl (providers : Std.ExtTreeMap String Provider) (ttl : Nat) : Prop where
  floor : 60 ≤ ttl
  le : ∀ (id : String) p, providers[id]? = some p →
    p.config.tokenValidation.cacheTtlSeconds.toNat ≤ ttl
  attained : ttl = 60 ∨ ∃ (id : String) (p : Provider), providers[id]? = some p
    ∧ p.config.tokenValidation.cacheTtlSeconds.toNat = ttl

/-- The maximum of two numbers is one of them and not below the other. -/
theorem max_cases (a b : UInt64) : max a b = b ∧ a ≤ b ∨ max a b = a ∧ b ≤ a := by
  have hmax : max a b = if a ≤ b then b else a := rfl
  rw [hmax]
  split
  · rename_i hle
    exact .inl ⟨rfl, hle⟩
  · rename_i hnot
    exact .inr ⟨rfl, UInt64.le_of_lt (UInt64.not_le.mp hnot)⟩

/-- The fold of `from_config` computes the largest time-to-live. -/
theorem foldl_max_spec (ttl : UInt64) (configs : List ProviderConfig) :
    let fold := configs.foldl (fun ttl pc => max ttl pc.tokenValidation.cacheTtlSeconds) ttl
    ttl ≤ fold ∧ (∀ pc ∈ configs, pc.tokenValidation.cacheTtlSeconds ≤ fold)
      ∧ (fold = ttl ∨ ∃ pc ∈ configs, pc.tokenValidation.cacheTtlSeconds = fold) := by
  induction configs generalizing ttl with
  | nil => simp
  | cons pc configs ih =>
      obtain ⟨hle, hall, hsome⟩ := ih (max ttl pc.tokenValidation.cacheTtlSeconds)
      have hcases := max_cases ttl pc.tokenValidation.cacheTtlSeconds
      have hboth : ttl ≤ max ttl pc.tokenValidation.cacheTtlSeconds
          ∧ pc.tokenValidation.cacheTtlSeconds ≤ max ttl pc.tokenValidation.cacheTtlSeconds := by
        rcases hcases with ⟨hmax, hlt⟩ | ⟨hmax, hlt⟩
        · rw [hmax]
          exact ⟨hlt, UInt64.le_refl _⟩
        · rw [hmax]
          exact ⟨UInt64.le_refl _, hlt⟩
      refine ⟨UInt64.le_trans hboth.1 hle, ?_, ?_⟩
      · intro pc' hpc'
        rcases List.mem_cons.mp hpc' with rfl | hpc'
        · exact UInt64.le_trans hboth.2 hle
        · exact hall pc' hpc'
      · rcases hsome with hsame | ⟨pc', hpc', hsame⟩
        · rcases hcases with ⟨hmax, -⟩ | ⟨hmax, -⟩
          · exact .inr ⟨pc, List.mem_cons_self, (hsame.trans hmax).symm⟩
          · exact .inl (hsame.trans hmax)
        · exact .inr ⟨pc', List.mem_cons_of_mem _ hpc', hsame⟩

/-- The time-to-live of the cache is the largest of all providers. -/
theorem cacheTtl_largest (svc : OAuthService K) : LargestTtl svc.providers svc.cacheTtl := by
  obtain ⟨hfloor, hall, hsome⟩ := foldl_max_spec 60 (svc.providers.toList.map (·.2.config))
  have hpos : svc.cacheTtl = (jwksTtl (svc.providers.toList.map (·.2.config))).toNat := by
    unfold OAuthService.cacheTtl
    rcases max_cases (jwksTtl (svc.providers.toList.map (·.2.config))) 1 with ⟨-, hle⟩ | ⟨hmax, -⟩
    · have hone : (jwksTtl (svc.providers.toList.map (·.2.config))).toNat ≤ 1 := hle
      have hsixty : 60 ≤ (jwksTtl (svc.providers.toList.map (·.2.config))).toNat := hfloor
      omega
    · rw [hmax]
  constructor
  · rw [hpos]
    exact hfloor
  · intro id p hp
    rw [hpos]
    have hmem : (id, p) ∈ svc.providers.toList :=
      Std.ExtTreeMap.mem_toList_iff_getElem?_eq_some.mpr hp
    exact hall p.config (List.mem_map.mpr ⟨(id, p), hmem, rfl⟩)
  · rw [hpos]
    rcases hsome with hsame | ⟨pc, hpc, hsame⟩
    · exact .inl (congrArg UInt64.toNat hsame)
    · obtain ⟨⟨id, p⟩, hmem, rfl⟩ := List.mem_map.mp hpc
      exact .inr ⟨id, p, Std.ExtTreeMap.mem_toList_iff_getElem?_eq_some.mp hmem,
        congrArg UInt64.toNat hsame⟩

/-- Every key set that a task is handed is fresh, by the time-to-live of the cache. -/
theorem fresh_of_gotKeys (h : FlowReach svc P s₀ c) (hjwks : s₀.jwks = ∅)
    (huses : s₀.keyUses = []) {tid : Nat} {uri : String} {set : JwkSet}
    (hgot : GotKeys uri set (eventsOf c.history tid)) : FreshKeys K c jwksTtl tid uri set := by
  have hkeys := key_sets h hjwks huses
  refine ⟨hkeys.handed tid uri set hgot, ?_⟩
  rintro u hu - rfl rfl
  obtain ⟨hage, v, hv, huri, hset, hat, hload⟩ := hkeys.uses u hu
  refine ⟨v, hv, huri, hset, hload, ?_⟩
  rw [hat]
  exact hage

end Runs

section Freshness

variable {K : OAuthCrates} {store : SessionStore} {discoveryTtl : Nat} {svc : OAuthService K}
  {P : FlowPool store discoveryTtl svc.cacheTtl → FlowLabel store discoveryTtl svc.cacheTtl → Prop}
  {s₀ : State store} {c : FlowPool store discoveryTtl svc.cacheTtl}

/-- In every run, the key set that a verification uses was loaded from the URI of its
discovery document, and no longer before than the largest `cache_ttl_seconds` of all providers,
60 s at least. This is about every lookup of a key set, and so about the sets that have
accepted a token, in `verify` and in a callback. -/
theorem keys_fresh (h : FlowReach svc P s₀ c) (hjwks : s₀.jwks = ∅) (huses : s₀.keyUses = []) :
    ∃ ttl, LargestTtl svc.providers ttl
      ∧ (∀ tid uri set, GotKeys uri set (eventsOf c.history tid) →
        FreshKeys K c ttl tid uri set)
      ∧ (∀ tid t discovery provider idToken nonce claims, c.tasks[tid]? = some t →
        t.req = .verify discovery provider idToken nonce →
        t.result = some (.ok (.claims claims)) →
        ∃ set, Verified K discovery provider idToken nonce set claims (eventsOf c.history tid)
          ∧ FreshKeys K c ttl tid discovery.jwksUri set)
      ∧ ∀ tid session (r : Except TimError Unit),
        (tid, (⟨Op.createSession session, r⟩ : Event oauthSig)) ∈ c.history →
        ∃ code state, ∃ o : Opening,
          o.Valid svc session.providerId code state (eventsOf c.history tid)
            ∧ FreshKeys K c ttl tid o.discovery.jwksUri o.set := by
  refine ⟨svc.cacheTtl, cacheTtl_largest svc, ?_, ?_, ?_⟩
  · exact fun tid uri set hgot => fresh_of_gotKeys h hjwks huses hgot
  · intro tid t discovery provider idToken nonce claims ht hreq hres
    have hdone := h.result_spec svc.program_spec ht hres
    rw [hreq] at hdone
    obtain ⟨set, hgot, hverified⟩ := hdone claims rfl
    exact ⟨set, hverified, fresh_of_gotKeys h hjwks huses hgot⟩
  · intro tid session r hmem
    obtain ⟨code, state, o, ho, -⟩ := opening_of_create h hmem
    exact ⟨code, state, o, ho, fresh_of_gotKeys h hjwks huses ho.keys⟩

end Freshness

/-! ### Sample runs -/

open Symbolic Sample in
/-- The ID token of the sample run has passed the conditions. -/
theorem session_verified_sample :
    ∃ (c : SamplePool) (session : Session) (o : Opening) (k : TokenCheck idp),
      FlowReach flow Pool.Any flowStart c
      ∧ (1, (⟨Op.createSession session, Except.ok ()⟩ : Event oauthSig)) ∈ c.history
      ∧ session.userId = o.claims.sub ∧ TokenCheck.Passed c.history 1 o k := by
  obtain ⟨c, session, h, hcreate⟩ := sample_session
  have hmem := List.mem_of_getElem? hcreate
  obtain ⟨-, -, o, -, huser, k, hk⟩ :=
    (session_verified symbolic_decode h rfl rfl).1 1 session (.ok ()) hmem
  exact ⟨c, session, o, k, h, hmem, huser, hk⟩

end Tim.OAuth

namespace Tim.OAuth.Sample

open Tim.Lib Symbolic

/-- The discovery document of `idp.test`. -/
def document : Discovery where
  issuer := "https://idp.test"
  authorizationEndpoint := "https://idp.test/authorize"
  tokenEndpoint := "https://idp.test/token"
  userinfoEndpoint := none
  jwksUri := "https://idp.test/jwks"
  grantTypesSupported := []
  responseTypesSupported := []

/-- The provider with a `cache_ttl_seconds` of 100 verifies the sample token. -/
def verification : Request :=
  .verify document (provider 100) "id-token" (hexEncode (random 2))

/-- Two such verifications that have started. -/
def verifyStart : FlowPool memoryStore 3600 flow.cacheTtl :=
  ⟨flowStart, [⟨verification, some (flow.program verification)⟩,
    ⟨verification, some (flow.program verification)⟩], []⟩

/-- The first is served, and the second 200 seconds later. -/
def verifyRun : List (FlowLabel memoryStore 3600 flow.cacheTtl) :=
  [.step 0 .go, .step 0 (.response (.ok ⟨200, .ok "keys"⟩)), .step 0 .go, .step 0 .go,
   .step 0 .go, .env (.tick (instant 1200)), .step 1 .go, .step 1 .go, .step 1 .go]

/-- The sample verification is about to be served in a run from the start. -/
theorem verifyStart_reach : FlowReach flow Pool.Any flowStart verifyStart := by
  refine .tail (.spawn verification) (.tail (.spawn verification) .refl trivial rfl) trivial ?_
  rfl

/-- A finished verification has accepted its token. -/
def accepted (t : Task oauthSig Fault Response Request) : Bool :=
  match t.result with
  | some (.ok (.claims _)) => true
  | _ => false

/-- The test of an accepted verification. -/
theorem result_of_accepted {t : Task oauthSig Fault Response Request} (h : accepted t = true) :
    ∃ claims, t.result = some (.ok (.claims claims)) := by
  unfold accepted at h
  split at h
  · rename_i claims hres
    exact ⟨claims, hres⟩
  · cases h

/-- The pool after these steps: the second verification has accepted the token, by keys that
were loaded more than 100 seconds before. -/
theorem verify_run :
    ∃ (c : FlowPool memoryStore 3600 flow.cacheTtl) (t : Task oauthSig Fault Response Request)
      (claims : IdTokenClaims), FlowReach flow Pool.Any flowStart c ∧ c.tasks[1]? = some t
      ∧ t.req = verification ∧ t.result = some (.ok (.claims claims))
      ∧ (c.shared.keyUses.any fun u => u.tid == 1 && u.uri == document.jwksUri
        && c.shared.keyUses.all fun v => v.loadedAt != v.at_
          || decide (100 * nanosPerSecond < u.at_.ns - v.at_.ns)) = true := by
  obtain ⟨c, h, hq⟩ := Pool.exists_reach flow.program (fun _ _ => true)
    (fun c : FlowPool memoryStore 3600 flow.cacheTtl =>
      (c.tasks[1]?).any accepted && c.shared.keyUses.any fun u => u.tid == 1
        && u.uri == document.jwksUri && c.shared.keyUses.all fun v => v.loadedAt != v.at_
          || decide (100 * nanosPerSecond < u.at_.ns - v.at_.ns))
    verifyStart verifyRun (by decide +kernel)
  have h : Pool.Reach flow.program Pool.Any verifyStart c := h.mono fun _ _ _ => trivial
  rw [Bool.and_eq_true] at hq
  obtain ⟨t, ht, hacc⟩ := (Option.any_eq_true _ _).mp hq.1
  obtain ⟨claims, hclaims⟩ := result_of_accepted hacc
  have hreq : t.req = verification := by
    obtain ⟨t', ht', hsame, -⟩ := h.task_persists (show verifyStart.tasks[1]? = some _ from rfl)
    rw [ht] at ht'
    cases ht'
    exact hsame
  exact ⟨c, t, claims, verifyStart_reach.trans h, ht, hreq, hclaims, hq.2⟩

/-- The sample service has the provider. -/
theorem flow_provider : flow.providers["idp"]? = some (provider 100) := by
  rw [flow, Std.ExtTreeMap.getElem?_ofList_of_mem]
  · exact Std.ReflCmp.compare_self
  · simp
  · simp

end Tim.OAuth.Sample

namespace Tim.OAuth

open Tim.Lib OAuthService

open Symbolic Sample in
/-- A provider with a `cache_ttl_seconds` of 100 accepts a token by a key set that was loaded
200 seconds before, because another provider has a larger value. -/
theorem keys_stale :
    ∃ (c : FlowPool memoryStore 3600 flow.cacheTtl) (p : Provider)
      (t : Task oauthSig Fault Response Request) (claims : IdTokenClaims) (u : KeyUse),
      FlowReach flow Pool.Any flowStart c ∧ flow.providers["idp"]? = some p
      ∧ c.tasks[1]? = some t ∧ t.req = .verify document p "id-token" (hexEncode (random 2))
      ∧ t.result = some (.ok (.claims claims))
      ∧ u ∈ c.shared.keyUses ∧ u.tid = 1 ∧ u.uri = document.jwksUri
      ∧ ∀ v ∈ c.shared.keyUses, Load idp v c.history →
        p.config.tokenValidation.cacheTtlSeconds.toNat * nanosPerSecond < u.at_.ns - v.at_.ns := by
  obtain ⟨c, t, claims, h, ht, hreq, hclaims, hold⟩ := verify_run
  obtain ⟨u, hu, htests⟩ := List.any_eq_true.mp hold
  simp only [Bool.and_eq_true, beq_iff_eq] at htests
  obtain ⟨⟨htid, huri⟩, hall⟩ := htests
  refine ⟨c, provider 100, t, claims, u, h, flow_provider, ht, hreq, hclaims, hu, htid, huri,
    fun v hv hload => ?_⟩
  have hv := List.all_eq_true.mp hall v hv
  rw [Bool.or_eq_true] at hv
  rcases hv with hne | hlt
  · exact absurd hload.1 (by simpa using hne)
  · exact of_decide_eq_true hlt

open Symbolic Sample in
/-- The keys of the second verification are still fresh by the largest of the two values. -/
theorem keys_fresh_sample :
    ∃ (c : FlowPool memoryStore 3600 flow.cacheTtl) (ttl : Nat) (set : JwkSet),
      FlowReach flow Pool.Any flowStart c ∧ LargestTtl flow.providers ttl
      ∧ FreshKeys idp c ttl 1 document.jwksUri set := by
  obtain ⟨c, t, claims, h, ht, hreq, hclaims, -⟩ := verify_run
  obtain ⟨ttl, hlargest, -, hverify, -⟩ := keys_fresh h rfl rfl
  obtain ⟨set, -, hfresh⟩ := hverify 1 t document (provider 100) "id-token" _ claims ht hreq hclaims
  exact ⟨c, ttl, set, h, hlargest, hfresh⟩

end Tim.OAuth
