import Tim.Proofs.IdToken
import Tim.Lib.Twin

/-!
# `Tim.Proofs.Keys`: the key set of a provider and the key that verifies

Two facts about the keys behind an ID token, each with the inputs on which it fails.

`into_jwk_set` reads the `keys` array as a whole. One element that is no JWK makes the whole set
empty, so the parseable elements arrive exactly when all of them are parseable, or none is
(`parseable_keys_kept`).

`verify` takes the key that the `kid` of the header names without asking which algorithm the key
is for. `decode` compares the families of key and algorithm only. So the algorithm of an accepted
token is one that its key permits, unless the key was found by `kid` and advertises another one
(`key_permits_alg`).
-/

set_option autoImplicit false

namespace Tim.OAuth

open Tim.Lib Tim.Lib.Prog OAuthService

/-! ### Elements that do not parse -/

/-- A `JwkSet` deserializes when each of its elements does, to the list of their keys. -/
def ElementwiseKeys (K : OAuthCrates) (parse : Value → Option Jwk) : Prop :=
  ∀ keys, K.jwkSetFromValue keys = keys.mapM parse

/-- A list is refused as a whole when one of its elements is. -/
theorem mapM_eq_none {α β : Type} {f : α → Option β} {l : List α} :
    l.mapM f = none ↔ ∃ a ∈ l, f a = none := by
  induction l with
  | nil => simp
  | cons a l ih =>
      cases ha : f a with
      | none => simp [ha]
      | some b =>
          have hrest : (a :: l).mapM f = none ↔ l.mapM f = none := by
            rw [List.mapM_cons, ha]
            cases l.mapM f <;> simp
          rw [hrest, ih]
          simp [ha]

/-- What an element of an accepted list gives is in the result. -/
theorem mem_of_mapM {α β : Type} {f : α → Option β} {l : List α} {bs : List β}
    (h : l.mapM f = some bs) {a : α} {b : β} (ha : a ∈ l) (hb : f a = some b) : b ∈ bs := by
  induction l generalizing bs with
  | nil => cases ha
  | cons c l ih =>
      rw [List.mapM_cons, Option.bind_eq_bind, Option.bind_eq_some_iff] at h
      obtain ⟨d, hd, h⟩ := h
      rw [Option.bind_eq_bind, Option.bind_eq_some_iff] at h
      obtain ⟨ds, hds, h⟩ := h
      cases h
      rcases List.mem_cons.mp ha with rfl | ha
      · rw [hb] at hd
        cases hd
        exact List.mem_cons_self
      · exact List.mem_cons_of_mem _ (ih hds ha)

/-- A key set keeps every parseable element exactly when all elements are parseable, or none is. -/
theorem intoJwkSet_contains {K : OAuthCrates} {parse : Value → Option Jwk}
    (laws : ElementwiseKeys K parse) (keys : List Value) :
    (∀ v ∈ keys, ∀ k, parse v = some k → k ∈ intoJwkSet K keys)
      ↔ (∀ v ∈ keys, parse v ≠ none) ∨ ∀ v ∈ keys, parse v = none := by
  unfold intoJwkSet
  rw [laws keys]
  cases hset : keys.mapM parse with
  | some set =>
      have hall : ∀ v ∈ keys, parse v ≠ none := by
        intro v hv hnone
        have hnil := mapM_eq_none.mpr ⟨v, hv, hnone⟩
        rw [hset] at hnil
        cases hnil
      exact ⟨fun _ => .inl hall, fun _ v hv k hk => mem_of_mapM hset hv hk⟩
  | none =>
      obtain ⟨bad, hbad, hnone⟩ := mapM_eq_none.mp hset
      constructor
      · intro hcontains
        refine .inr fun v hv => ?_
        cases hk : parse v with
        | none => rfl
        | some k => cases hcontains v hv k hk
      · rintro (hall | hall) v hv k hk
        · exact absurd hnone (hall bad hbad)
        · rw [hall v hv] at hk
          cases hk

section Fetch

variable {K : OAuthCrates} {svc : OAuthService K} {uri : String} {resp : HttpResponse}
  {keys : List Value}

/-- What a fetch returns that has to load the key set and gets this response. -/
theorem fetchJwks_run (honline : svc.offline = false) (hstatus : resp.isSuccess = true)
    (hkeys : json K jwksBody resp = .ok keys) {env : Nat → (o : Op) → Resp o}
    (hmiss : env 0 (.jwksGet uri) = none) (hget : env 1 (.httpGet uri) = .ok resp) :
    (svc.fetchJwks uri).run (S := oauthSig) env = .ok (intoJwkSet K keys) := by
  have hblock : svc.blockIfOffline uri = none := by simp [blockIfOffline, honline]
  unfold run fetchJwks
  refine (congrArg Prod.fst (interp_call_bind ..)).trans ?_
  rw [hmiss]
  unfold loadJwks
  rw [hblock]
  dsimp only
  rw [bind_assoc]
  refine (congrArg Prod.fst (interp_call_bind ..)).trans ?_
  rw [hget]
  simp only [hstatus, hkeys]
  rfl

/-- A fetch that loads the array `keys` returns every parseable element of it exactly when all
elements are parseable, or none is. -/
theorem parseable_keys_kept {parse : Value → Option Jwk} (laws : ElementwiseKeys K parse)
    (honline : svc.offline = false) (hstatus : resp.isSuccess = true)
    (hkeys : json K jwksBody resp = .ok keys) {env : Nat → (o : Op) → Resp o}
    (hmiss : env 0 (.jwksGet uri) = none) (hget : env 1 (.httpGet uri) = .ok resp) :
    (∃ set, (svc.fetchJwks uri).run (S := oauthSig) env = .ok set
        ∧ ∀ v ∈ keys, ∀ k, parse v = some k → k ∈ set)
      ↔ (∀ v ∈ keys, parse v ≠ none) ∨ ∀ v ∈ keys, parse v = none := by
  rw [← intoJwkSet_contains laws keys, fetchJwks_run honline hstatus hkeys hmiss hget]
  constructor
  · rintro ⟨set, hset, hcontains⟩
    cases hset
    exact hcontains
  · intro hcontains
    exact ⟨_, rfl, hcontains⟩

end Fetch

namespace Sample

open Symbolic

/-- Every request is answered by the response, and nothing is cached. -/
def answering (at_ : DateTime) (resp : HttpResponse) : (o : Op) → Resp o
  | .now => at_
  | .fillBytes _ => []
  | .sleep _ => ()
  | .buildClient => .ok ()
  | .discoveryGet _ => none
  | .discoveryInsert .. => ()
  | .jwksGet _ => none
  | .jwksInsert .. => ()
  | .httpGet _ => .ok resp
  | .httpPost .. => .ok resp
  | .insertState _ => .ok ()
  | .deleteState .. => .ok none
  | .sweepState _ => .ok 0
  | .createSession _ => .ok ()

/-- The JWK of the sample key, for an algorithm if one is given. -/
def rsaKey (alg : Option String) : Value :=
  .object ([("kty", .string "RSA"), ("kid", .string "k1"), ("n", .string "idp-key"),
    ("e", .string "AQAB")] ++ (alg.map fun a => ("alg", Value.string a)).toList)

/-- The JWK of another key, for an algorithm of its own. -/
def secondKey : Value :=
  .object [("kty", .string "RSA"), ("kid", .string "k2"), ("n", .string "next-key"),
    ("e", .string "AQAB"), ("alg", .string "RS512")]

/-- A JWK with a `kty` that the library does not know. -/
def unknownKey : Value := .object [("kty", .string "AKP"), ("kid", .string "k2")]

/-- An ID token that the sample key has signed with RS512. -/
def idToken512 : Token := { idToken with header := ⟨.rs512, some "k1"⟩ }

/-- `idp.test` with key sets that hold an unknown key, or advertise an algorithm. -/
def idpKeys : OAuthCrates := oauth [("id-token", idToken), ("id-token-512", idToken512)]
  [("one", [("keys", .array [rsaKey none])]),
   ("two", [("keys", .array [rsaKey none, secondKey])]),
   ("mixed", [("keys", .array [rsaKey none, unknownKey])]),
   ("rs256", [("keys", .array [rsaKey (some "RS256")])])]

/-- A service without providers. -/
def keysFlow : OAuthService idpKeys where
  providers := ∅
  stateMaxAgeSeconds := 300
  sessionTtlSeconds := 3600
  publicBaseUrl := ""
  offline := false

/-- The answers of `idp.test` at second 1000 with one of its texts. -/
def serving (text : String) : Nat → (o : Op) → Resp o :=
  fun _ => answering (instant 1000) ⟨200, .ok text⟩

end Sample

open Sample Symbolic in
/-- A key set of two good keys: both arrive. -/
theorem parseable_keys_kept_sample :
    ∃ set, (keysFlow.fetchJwks "https://idp.test/jwks").run (S := oauthSig) (serving "two")
        = .ok set ∧ ∀ v ∈ [rsaKey none, secondKey], ∀ k, rsaJwk v = some k → k ∈ set := by
  have hkeys : json idpKeys jwksBody ⟨200, .ok "two"⟩ = .ok [rsaKey none, secondKey] := rfl
  refine (parseable_keys_kept (fun _ => rfl) rfl rfl hkeys rfl rfl).mpr (.inl ?_)
  rw [List.forall_mem_cons, List.forall_mem_cons]
  exact ⟨by decide +kernel, by decide +kernel, List.forall_mem_nil _⟩

open Sample Symbolic in
/-- An unknown key next to a good one: the good one is lost. -/
theorem parseable_key_lost :
    ∃ k, rsaJwk (rsaKey none) = some k
      ∧ json idpKeys jwksBody ⟨200, .ok "mixed"⟩ = .ok [rsaKey none, unknownKey]
      ∧ (keysFlow.fetchJwks "https://idp.test/jwks").run (S := oauthSig) (serving "mixed")
        = .ok [] := by
  refine ⟨⟨some "k1", none, .rsa "idp-key" "AQAB"⟩, by decide +kernel, rfl, ?_⟩
  rfl

/-! ### The algorithm of the key -/

/-- What `jsonwebtoken::decode` checks about key families: a key of one family accepts only
tokens with an algorithm of that family. -/
structure FamilyLaws (K : OAuthCrates) : Prop where
  rsa : ∀ {C : Type} (de : Payload → Option C) n e k t h v now c,
    K.fromRsaComponents n e = .ok k → K.decodeHeader t = .ok h →
    K.decode de t k v now = .ok c → h.alg ∈ [.rs256, .rs384, .rs512, .ps256, .ps384, .ps512]
  ec : ∀ {C : Type} (de : Payload → Option C) x y k t h v now c,
    K.fromEcComponents x y = .ok k → K.decodeHeader t = .ok h →
    K.decode de t k v now = .ok c → h.alg ∈ [.es256, .es384]

section Verify

variable {K : OAuthCrates} {svc : OAuthService K} {discovery : Discovery} {provider : Provider}
  {idToken expectedNonce : String} {env : Nat → (o : Op) → Resp o} {claims : IdTokenClaims}
  {header : Header} {set : JwkSet} {key : Jwk}

/-- What stands behind an accepted token: the key that `selectKey` takes from the set, a `decode`
with it, and the checks of `aud` and `nonce`. -/
structure Decoded (K : OAuthCrates) (discovery : Discovery) (provider : Provider)
    (idToken : String) (header : Header) (set : JwkSet) (claims : IdTokenClaims) : Prop where
  decoded : ∃ key decoding at_, selectKey set header = .ok key
    ∧ decodingKeyFor K key = .ok decoding
    ∧ K.decode IdTokenClaims.deserialize (K.compact idToken) decoding
        (idTokenValidation provider discovery header.alg) at_ = .ok claims
  audience : claims.aud.contains provider.clientId = true
  nonce : claims.nonce ≠ none

/-- What stands behind an accepted ID token in a run with given answers. -/
theorem verify_decodes
    (hok : (svc.verify discovery provider idToken expectedNonce).run (S := oauthSig) env
      = .ok claims) :
    ∃ header set, K.decodeHeader (K.compact idToken) = .ok header
      ∧ (svc.fetchJwks discovery.jwksUri).run (S := oauthSig) env = .ok set
      ∧ Decoded K discovery provider idToken header set claims := by
  unfold verify at hok
  split at hok
  · cases hok
  · rename_i header hheader
    split at hok
    · cases hok
    · obtain ⟨set, n, hset, hrest⟩ := run_bind_ok hok
      refine ⟨header, set, hheader, hset, ?_⟩
      refine (Meets.interp (φ := fun _ => True) (ψ := fun x => ∀ claims, x = .ok claims →
        Decoded K discovery provider idToken header set claims) ?_ _ n) claims hrest
      cases hkey : selectKey set header with
      | error e => exact nofun
      | ok key =>
          show Meets _ _ (Flow.try_ (decodingKeyFor K key) >>= _)
          cases hdecoding : decodingKeyFor K key with
          | error e => exact nofun
          | ok decoding =>
              refine Meets.call_bind trivial fun at_ => ?_
              split
              · exact nofun
              · rename_i claims hclaims
                show Meets _ _ (ite _ _ _)
                split
                · exact nofun
                · rename_i haud
                  refine ⟨trivial, fun now => ?_⟩
                  show Meets _ _ (ite _ _ _)
                  split
                  · exact nofun
                  · split
                    · exact nofun
                    · rename_i nonce hnonce
                      show Meets _ _ (ite _ _ _)
                      split
                      · exact nofun
                      · intro claims' hclaims'
                        cases hclaims'
                        exact ⟨⟨key, decoding, _, hkey, hdecoding, hclaims⟩, by simpa using haud,
                          by simp [hnonce]⟩

/-- A key of an accepted token permits its algorithm exactly when it was taken without a `kid`,
or advertises no algorithm, or the one of the token. -/
theorem key_permits_alg (laws : FamilyLaws K)
    (hheader : K.decodeHeader (K.compact idToken) = .ok header)
    (hset : (svc.fetchJwks discovery.jwksUri).run (S := oauthSig) env = .ok set)
    (hkey : selectKey set header = .ok key)
    (hok : (svc.verify discovery provider idToken expectedNonce).run (S := oauthSig) env
      = .ok claims) :
    jwkMatchesAlg key header.alg = true
      ↔ header.kid = none ∨ key.keyAlgorithm = none
        ∨ key.keyAlgorithm = some (algorithmDebug header.alg) := by
  obtain ⟨header', set', hheader', hset', hdecoded⟩ := verify_decodes hok
  obtain rfl : header = header' := Except.ok.inj (hheader.symm.trans hheader')
  obtain rfl : set = set' := Except.ok.inj (hset.symm.trans hset')
  obtain ⟨key', decoding, at_, hkey', hdecoding, hclaims⟩ := hdecoded.decoded
  obtain rfl : key = key' := Except.ok.inj (hkey.symm.trans hkey')
  cases halg : key.keyAlgorithm with
  | some advertised =>
      have hmatch : jwkMatchesAlg key header.alg = true
          ↔ advertised = algorithmDebug header.alg := by
        simp [jwkMatchesAlg, halg]
      rw [hmatch]
      constructor
      · intro heq
        exact .inr (.inr (by rw [heq]))
      · rintro (hkid | hnone | hsame)
        · -- Without a `kid` the key is one that matches.
          rw [← hmatch]
          unfold selectKey at hkey
          rw [hkid] at hkey
          dsimp only at hkey
          split at hkey
          · rename_i k hfind
            cases hkey
            exact List.find?_some (p := fun k => jwkMatchesAlg k header.alg) hfind
          · cases hkey
        · cases hnone
        · exact Option.some.inj hsame
  | none =>
      refine iff_of_true ?_ (.inr (.inl rfl))
      -- The library has compared the families.
      unfold decodingKeyFor at hdecoding
      unfold jwkMatchesAlg
      rw [halg]
      cases hparams : key.algorithm with
      | rsa n e =>
          rw [hparams] at hdecoding
          dsimp only at hdecoding
          split at hdecoding
          · rename_i k hk
            cases hdecoding
            simpa using laws.rsa _ n e _ _ _ _ _ _ hk hheader hclaims
          · cases hdecoding
      | ellipticCurve x y =>
          rw [hparams] at hdecoding
          dsimp only at hdecoding
          split at hdecoding
          · rename_i k hk
            cases hdecoding
            simpa using laws.ec _ x y _ _ _ _ _ _ hk hheader hclaims
          · cases hdecoding
      | other debug =>
          rw [hparams] at hdecoding
          cases hdecoding

end Verify

namespace Sample

open Symbolic

/-- The symbolic `decode` compares the families as the library does. -/
theorem idpKeys_families : FamilyLaws idpKeys where
  rsa de n e k t h v now c _ hheader hdecode := by
    have hheader : t.header = h := Except.ok.inj hheader
    have hallowed : Symbolic.allowed t v = true := by
      unfold idpKeys at hdecode
      simp only [Symbolic.oauth, symbolic, Symbolic.decode] at hdecode
      split at hdecode
      · cases hdecode
      · rename_i hall
        simpa using hall
    simp only [Symbolic.allowed, Bool.and_eq_true, List.all_eq_true, List.contains_iff_mem]
      at hallowed
    have hrsa := hallowed.1 _ hallowed.2
    rw [hheader] at hrsa
    revert hrsa
    cases h.alg <;> decide
  ec de x y k t h v now c hk _ _ := by cases hk

/-- The key that the sample sets advertise for RS256. -/
def key256 : Jwk := ⟨some "k1", some "RS256", .rsa "idp-key" "AQAB"⟩

/-- The verification of a token against the set that advertises RS256. -/
def verification256 (token : String) : Except Fault IdTokenClaims :=
  (keysFlow.verify document (provider 100) token (hexEncode (random 2))).run (S := oauthSig)
    (serving "rs256")

/-- A verification that has not failed has claims. -/
theorem exists_claims {x : Except Fault IdTokenClaims} (h : x.isOk = true) :
    ∃ claims, x = .ok claims := by
  cases x with
  | ok claims => exact ⟨claims, rfl⟩
  | error e => cases h

end Sample

open Sample in
/-- An RS256 token under a key for RS256. -/
theorem key_permits_alg_sample :
    (∃ claims, verification256 "id-token" = .ok claims) ∧ jwkMatchesAlg key256 .rs256 = true := by
  obtain ⟨claims, hok⟩ := exists_claims (x := verification256 "id-token") (by decide +kernel)
  refine ⟨⟨claims, hok⟩, ?_⟩
  have hheader : idpKeys.decodeHeader (idpKeys.compact "id-token") = .ok ⟨.rs256, some "k1"⟩ := rfl
  have hset : (keysFlow.fetchJwks document.jwksUri).run (S := oauthSig) (serving "rs256")
      = .ok [key256] := rfl
  have hkey : selectKey [key256] ⟨.rs256, some "k1"⟩ = .ok key256 := rfl
  exact (key_permits_alg idpKeys_families hheader hset hkey hok).mpr (.inr (.inr rfl))

open Sample in
/-- An RS512 token is accepted under a key for RS256, which its `kid` names. -/
theorem key_forbids_alg :
    (∃ claims, verification256 "id-token-512" = .ok claims)
      ∧ idpKeys.decodeHeader (idpKeys.compact "id-token-512") = .ok ⟨.rs512, some "k1"⟩
      ∧ (keysFlow.fetchJwks document.jwksUri).run (S := oauthSig) (serving "rs256")
        = .ok [key256]
      ∧ selectKey [key256] ⟨.rs512, some "k1"⟩ = .ok key256
      ∧ jwkMatchesAlg key256 .rs512 = false :=
  ⟨exists_claims (by decide +kernel), rfl, rfl, rfl, by decide⟩

end Tim.OAuth
