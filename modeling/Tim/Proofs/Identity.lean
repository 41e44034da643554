import Tim.Proofs.Casts
import Tim.Proofs.Expired
import Tim.Proofs.Profile

/-!
# `Tim.Proofs.Identity`: whose session the replies name

Three replies say whose session it is: that of the callback, that of `/auth/session/validate` and
that of `/auth/profile`. The session carries the verified `sub` and the provider id, and a profile
under names that the operator chooses. The callback inserts its `user_id` after the profile,
`/auth/profile` inserts the profile after its `user_id` and `provider`. So a mapping with one of
these names replaces the identity there (`one_identity_iff`), and only there.

The database gives a profile back through JSON, where a float can change. The identity is a string,
so it is enough that the profile that is read has the strings of the one that was stored
(`SameStrings`).

* `memory_owner`, `postgres_owner`: a session that is read back is one of the same user and
  provider.
* `identity_profile_iff`: the mappings that replace the identity in the reply of `/auth/profile`.
-/

set_option autoImplicit false

namespace Tim

variable {A : SealCrates} {cipher : SessionCipher A}

/-- The store has taken the session with the call `c`, its id is not used again, and a read at `m`
gives `s'`. -/
structure ReadBack (cipher : SessionCipher A) (backend : SessionBackend) (s : Session)
    (before : List SessionCall) (c : SessionCall) (after : List SessionCall) (m : Moment)
    (s' : Session) : Prop where
  op : c.op = .create s
  takes : backend.Takes cipher before c
  once : NoCreate s.id after
  read : ((backend.store cipher).get m s.id (backend.after cipher (before ++ c :: after))).1
    = .ok (some s')

/-- The sessions have the same owner, and profiles with the same strings. -/
structure Session.SameOwner (s s' : Session) : Prop where
  user : s'.userId = s.userId
  provider : s'.providerId = s.providerId
  profile : SameStrings s.profile s'.profile

/-- A name has one string or nothing in both profiles, or in none of them. -/
theorem SameStrings.forall_iff {p p' : ClaimMap} (h : SameStrings p p') (k v : String) :
    (∀ w, p'[k]? = some w → w = .string v) ↔ ∀ w, p[k]? = some w → w = .string v := by
  have hcases : ∀ x : Option Value,
      (∀ w, x = some w → w = .string v) ↔ x = none ∨ x = some (.string v) := by
    intro x
    cases x <;> simp
  rw [hcases, hcases, h.none_iff, h.string_iff]

variable {s s' : Session} {before after : List SessionCall} {c : SessionCall} {m m₀ : Moment}

/-- A read of the memory store gives a session of the user that it was created for, whatever was
called in between. -/
theorem memory_owner {map : SessionMap} (hc : NoCreate s.id after)
    (hread : (memoryStore.get m s.id (memoryStore.run map (⟨m₀, .create s⟩ :: after))).1
      = .ok (some s')) : s.SameOwner s' := by
  have hview := MemoryStore.view_created (m := m₀) hc map
  generalize memoryStore.run map (⟨m₀, .create s⟩ :: after) = st at hview hread
  change SessionMap at st
  obtain ⟨hfound, -⟩ := (MemoryStore.get_ok_iff m st s.id s').mp hread
  rw [MemoryStore.view, hfound] at hview
  split at hview
  · cases hview
  · have hstill : s'.still = s.still := Option.some.inj hview
    have huser := congrArg Session.userId hstill
    have hprovider := congrArg Session.providerId hstill
    have hprofile := congrArg Session.profile hstill
    refine ⟨huser, hprovider, ?_⟩
    rw [show s'.profile = s.profile from hprofile]
    exact ⟨fun _ => Iff.rfl, fun _ _ => Iff.rfl⟩

/-- A read of the table gives one of the same user and provider too. The profile may have changed
where the codec does not read it back. -/
theorem postgres_owner (hlaws : SealLaws A) {table : SessionTable}
    (hok : ((postgresStore cipher).step table ⟨m₀, .create s⟩).1 = true)
    (hc : NoCreate s.id after)
    (hread : ((postgresStore cipher).get m s.id
      ((postgresStore cipher).run table (⟨m₀, .create s⟩ :: after))).1 = .ok (some s')) :
    s.SameOwner s' := by
  obtain ⟨htext, sealed, hsealed, hrow⟩ := PostgresStore.rowAt_created hok hc
  generalize (postgresStore cipher).run table (⟨m₀, .create s⟩ :: after) = st at hrow hread
  change SessionTable at st
  change (PostgresStore.get cipher m s.id st).1 = _ at hread
  unfold PostgresStore.get at hread
  rw [htext, if_neg (by decide)] at hread
  split at hread
  · cases hread
  · rename_i r hr
    obtain ⟨hfound, -⟩ := Option.filter_eq_some_iff.mp hr
    rw [PostgresStore.rowAt, hfound] at hrow
    split at hrow
    · cases hrow
    · have hstill : r.still = (PostgresStore.row s sealed).still := Option.some.inj hrow
      have huser := congrArg SessionRow.userId hstill
      have hprovider := congrArg SessionRow.providerId hstill
      have hprofile : r.profileEncrypted = sealed := congrArg SessionRow.profileEncrypted hstill
      -- What was sealed opens to what the codec reads from the text of the profile.
      obtain ⟨json, hto, hopen⟩ :=
        PostgresStore.openProfile_sealProfile hlaws.decrypts hsealed
      rw [hprofile] at hread
      cases hp : PostgresStore.openProfile cipher sealed with
      | error e =>
          rw [hp] at hread
          cases hread
      | ok profile =>
          rw [hp] at hread hopen
          cases hread
          cases hfrom : A.fromSlice json with
          | error e => simp [hfrom, Except.toOption] at hopen
          | ok profile' =>
              rw [hfrom] at hopen
              cases hopen
              exact ⟨huser, hprovider, hlaws.fromSlice_toVec _ _ _ hto hfrom⟩

/-- A session that is read back has its owner and the strings of its profile. -/
theorem ReadBack.same (hlaws : SealLaws A) {backend : SessionBackend}
    (h : ReadBack cipher backend s before c after m s') : s.SameOwner s' := by
  obtain ⟨m₀, op⟩ := c
  cases h.op
  have hread := h.read
  have hrun : backend.after cipher (before ++ ⟨m₀, .create s⟩ :: after)
      = (backend.store cipher).run (backend.after cipher before) (⟨m₀, .create s⟩ :: after) :=
    Lapsed.run_append ..
  rw [hrun] at hread
  cases backend with
  | memory => exact memory_owner h.once hread
  | postgres => exact postgres_owner hlaws h.takes h.once hread

end Tim

namespace Tim.Web

open Tim.Lib Tim.Lib.Prog
open Tim.OAuth (Op oauthSig OAuthService Provider IdTokenClaims CallbackResult mappedClaim
  profileFromClaims)
open Tim.OAuth.OAuthService (Opening sessionOf resultOf)
open AppState (profileObject authSessionValidate authProfile)

variable {K : WebCrates}

/-! ### What a reply says -/

/-- The `user_id` and the `provider` of a reply. -/
structure Identity where
  user : Option Value
  provider : Option Value

/-- The identity of a user of a provider. -/
def Identity.of (sub providerId : String) : Identity :=
  ⟨some (.string sub), some (.string providerId)⟩

/-- The identity that a body names. -/
def Body.identity : Body K → Option Identity
  | .callback r => some ⟨r.userProfile["user_id"]?, some (.string r.provider)⟩
  | .session s => some (.of s.userId s.providerId)
  | .profile userId providerId claims =>
      let obj := profileObject userId providerId claims
      some ⟨obj["user_id"]?, obj["provider"]?⟩
  | _ => none

/-- The session is found by its id. -/
def Finds (s : Session) : (o : WebOp) → WebResp K o → Prop
  | .sessionGet _, r => r = .ok (some s)
  | _, _ => True

/-- A reply names the identity. -/
def Shows (i : Identity) (x : Except Halt (Reply K)) : Prop :=
  ∀ r, x = .ok r → r.body.identity = some i

/-- The callback, the validation and the profile of a session name one identity. -/
structure OneIdentity (K : WebCrates) (req : HttpRequest) (i : Identity) (r : CallbackResult)
    (s : Session) : Prop where
  callback : (Body.callback r : Body K).identity = some i
  validate : (authSessionValidate req).Under (S := webSig K) (Finds s) (Shows i)
  profile : (authProfile req).Under (S := webSig K) (Finds s) (Shows i)

/-- No mapping with the name `user_id` or `provider` finds something else than the identity. -/
structure Unaliased (provider : Provider) (claims : IdTokenClaims) (providerId : String) :
    Prop where
  user : ∀ key v, provider.config.claimMappings["user_id"]? = some key →
    mappedClaim claims key = some v → v = .string claims.sub
  provider : ∀ key v, provider.config.claimMappings["provider"]? = some key →
    mappedClaim claims key = some v → v = .string providerId

/-! ### The object of `auth_profile` -/

/-- The two names that the profile reply adds are behind those of the profile: a claim by one of
these names hides it. -/
theorem profileObject_getElem? (userId providerId : String) (profile : ClaimMap) (k : String) :
    (profileObject userId providerId profile)[k]?
      = profile[k]?.or (((∅ : ClaimMap).insert "user_id" (.string userId)).insert "provider"
        (.string providerId))[k]? := by
  cases hk : profile[k]? with
  | some v =>
      exact OAuth.profileOf_of_mem (f := some)
        (Std.ExtTreeMap.mem_toList_iff_getElem?_eq_some.mpr hk) (OAuth.distinct_toList profile) _
  | none =>
      refine OAuth.profileOf_of_notMem (f := some) (fun v hv => ?_) _
      rw [Std.ExtTreeMap.mem_toList_iff_getElem?_eq_some, hk] at hv
      cases hv

/-- The entry of the object under a name of the identity, when the profile has another one. -/
theorem or_eq_iff {x : Option Value} {v : Value} :
    x.or (some v) = some v ↔ ∀ w, x = some w → w = v := by
  cases x with
  | none => simp
  | some w => simp

/-- What a mapping finds is in the profile. -/
theorem profile_eq_some {provider : Provider} {claims : IdTokenClaims} {k : String} {v : Value} :
    (profileFromClaims provider claims).2[k]? = some v
      ↔ ∃ key, provider.config.claimMappings[k]? = some key ∧ mappedClaim claims key = some v := by
  cases hmap : provider.config.claimMappings[k]? with
  | none =>
      rw [OAuth.profile_getElem?_of_none hmap]
      simp
  | some key =>
      rw [OAuth.profile_getElem? hmap]
      simp

/-- `auth_profile` names the identity exactly when no mapping hides it. The profile only has to have
the strings of the one that the claims are mapped to. -/
theorem identity_profile_iff {provider : Provider} {claims : IdTokenClaims}
    {providerId : String} {profile : ClaimMap}
    (hsame : SameStrings (profileFromClaims provider claims).2 profile) :
    (Body.profile claims.sub providerId profile : Body K).identity
        = some (.of claims.sub providerId)
      ↔ Unaliased provider claims providerId := by
  have huser := profileObject_getElem? claims.sub providerId profile "user_id"
  have hprovider := profileObject_getElem? claims.sub providerId profile "provider"
  simp only [Body.identity, Identity.of, Option.some.injEq, Identity.mk.injEq]
  rw [huser, hprovider]
  -- Without the profile both names have what the session says.
  have hu : (((∅ : ClaimMap).insert "user_id" (.string claims.sub)).insert "provider"
      (.string providerId))["user_id"]? = some (.string claims.sub) := by
    rw [Std.ExtTreeMap.getElem?_insert, if_neg (by decide), Std.ExtTreeMap.getElem?_insert_self]
  have hp : (((∅ : ClaimMap).insert "user_id" (.string claims.sub)).insert "provider"
      (.string providerId))["provider"]? = some (.string providerId) := by
    simp
  rw [hu, hp, or_eq_iff, or_eq_iff, hsame.forall_iff, hsame.forall_iff]
  simp only [profile_eq_some]
  constructor
  · rintro ⟨hu, hp⟩
    exact ⟨fun key v hkey hv => hu v ⟨key, hkey, hv⟩, fun key v hkey hv => hp v ⟨key, hkey, hv⟩⟩
  · rintro ⟨hu, hp⟩
    exact ⟨fun v ⟨key, hkey, hv⟩ => hu key v hkey hv, fun v ⟨key, hkey, hv⟩ => hp key v hkey hv⟩

/-! ### The three replies -/

variable {req : HttpRequest} {id : String} {s : Session} {i : Identity}

/-- The two routes that read the session of a request answer about the session that is found. -/
theorem liveSession_under (hreq : sessionAuth K req = .ok id) {f : Session → Handler K (Reply K)}
    {ψ : Except Halt (Reply K) → Prop} :
    (AppState.liveSession (K := K) req >>= f).Under (S := webSig K) (Finds s) ψ
      ↔ (f s).Under (S := webSig K) (Finds s) ψ := by
  unfold AppState.liveSession
  rw [hreq]
  constructor
  · exact fun h => h (.ok (some s)) rfl (.ok ()) trivial
  · rintro h r rfl touched -
    exact h

/-- What `session/validate` shows of a session is its user. -/
theorem validate_shows (hreq : sessionAuth K req = .ok id) :
    (authSessionValidate req).Under (S := webSig K) (Finds s) (Shows i)
      ↔ Identity.of s.userId s.providerId = i := by
  refine (liveSession_under hreq).trans ?_
  constructor
  · exact fun h => Option.some.inj (h _ rfl)
  · rintro rfl r ⟨⟩
    rfl

/-- What `profile` shows of a session is the profile, and the user where no claim hides it. -/
theorem profile_shows (hreq : sessionAuth K req = .ok id) :
    (authProfile req).Under (S := webSig K) (Finds s) (Shows i)
      ↔ (Body.profile s.userId s.providerId s.profile : Body K).identity = some i := by
  refine (liveSession_under hreq).trans ?_
  constructor
  · exact fun h => h _ rfl
  · rintro h r ⟨⟩
    exact h

/-- The replies about a session of a callback, as the store gives it back. -/
theorem oneIdentity_of_same {provider : Provider} {claims : IdTokenClaims} {providerId : String}
    {now expiresAt : DateTime} {sessionId : String}
    (hsame : (sessionOf providerId provider claims now expiresAt sessionId).SameOwner s)
    (hreq : sessionAuth K req = .ok id) :
    OneIdentity K req (.of claims.sub providerId)
        (resultOf (sessionOf providerId provider claims now expiresAt sessionId)) s
      ↔ Unaliased provider claims providerId := by
  have hbody : (Body.profile s.userId s.providerId s.profile : Body K)
      = .profile claims.sub providerId s.profile := by
    rw [hsame.user, hsame.provider]
    rfl
  have hprofileIff := @identity_profile_iff K provider claims providerId s.profile hsame.profile
  constructor
  · intro h
    have hprofile := (profile_shows hreq).mp h.profile
    rw [hbody] at hprofile
    exact hprofileIff.mp hprofile
  · intro h
    refine ⟨?_, (validate_shows hreq).mpr ?_, (profile_shows hreq).mpr ?_⟩
    · -- The callback inserts its `user_id` last.
      simp [Body.identity, Identity.of, resultOf, sessionOf, profileFromClaims]
    · rw [hsame.user, hsame.provider]
      rfl
    · rw [hbody]
      exact hprofileIff.mpr h

/-! ### The callback -/

variable {A : SealCrates}

/-- A callback that answers `r` has verified claims and created a session, and the replies about
that session name one identity exactly when no mapping hides it. -/
def Identified (K : WebCrates) (cipher : SessionCipher A) (backend : SessionBackend)
    (svc : OAuthService K.toOAuthCrates) (providerId code state : String)
    (h : List (Event oauthSig)) (x : Except Fault CallbackResult) : Prop :=
  ∀ r, x = .ok r → ∃ (o : Opening) (session : Session),
    o.Valid svc providerId code state h ∧ ⟨Op.createSession session, Except.ok ()⟩ ∈ h
    ∧ session.id = r.sessionId
    ∧ ∀ before c after m s req, ReadBack cipher backend session before c after m s →
      sessionAuth K req = .ok r.sessionId →
      (OneIdentity K req (.of o.claims.sub providerId) r s
        ↔ Unaliased o.provider o.claims providerId)

/-- Opening a session from verified claims. -/
theorem openSession_identified (hlaws : SealLaws A) {cipher : SessionCipher A}
    {backend : SessionBackend} {svc : OAuthService K.toOAuthCrates}
    {providerId code state : String} {o : Opening} {h : List (Event oauthSig)}
    (ho : o.Valid svc providerId code state h) :
    (svc.openSession providerId o.provider o.tokens o.claims).Spec (S := oauthSig)
      (fun _ _ => True) (Identified K cipher backend svc providerId code state) h := by
  rw [OAuthService.openSession_eq]
  refine ⟨trivial, fun now => ?_⟩
  dsimp only
  split
  · rintro r ⟨⟩
  · rename_i expiresAt _
    -- The id of the session is drawn, then the store is asked to create it.
    refine ⟨trivial, fun bytes => ⟨trivial, fun answer => ?_⟩⟩
    cases answer with
    | error e => rintro r ⟨⟩
    | ok _ =>
        rintro r ⟨⟩
        refine ⟨o, sessionOf providerId o.provider o.claims now expiresAt (hexEncode bytes),
          ho.mono fun e he => by simp [he], by simp, rfl, ?_⟩
        exact fun before c after m s req hback hreq =>
          oneIdentity_of_same (hback.same hlaws) hreq

/-- The replies about a session name the verified subject and the provider, exactly when no claim
mapping with the name `user_id` or `provider` finds another value. -/
theorem one_identity_iff (hlaws : SealLaws A) (cipher : SessionCipher A)
    (backend : SessionBackend) (svc : OAuthService K.toOAuthCrates)
    (providerId code state : String) :
    (svc.completeCallback providerId code state).Spec (S := oauthSig) (fun _ _ => True)
      (Identified K cipher backend svc providerId code state) [] := by
  unfold OAuthService.completeCallback
  split
  · rintro r ⟨⟩
  · rename_i provider hp
    refine OAuth.spec_call_bind.mpr ⟨trivial, fun found => ?_⟩
    refine OAuth.spec_sql_bind.mpr ⟨fun row hrow => ?_, fun e _ r hr => by cases hr⟩
    subst hrow
    cases row with
    | none => rintro r ⟨⟩
    | some row =>
        -- Up to the session everything is `gather`, which ends with verified claims.
        show Spec _ _ _ (svc.redeem providerId provider code row)
        rw [OAuthService.redeem_eq]
        have hreq : (OAuth.Request.completeCallback providerId code state).callback
            = some (providerId, code, state) := rfl
        refine OAuth.spec_seq
          ((OAuthService.gather_spec hreq hp).mono (fun _ _ _ => trivial) fun _ _ h => h) ?_
          fun _ _ _ r hr => by cases hr
        rintro h ⟨tokens, claims⟩ ⟨-, -, o, ho, rfl, rfl, rfl⟩
        exact openSession_identified hlaws ho

/-! ### A mapping named `user_id` -/

namespace Sample

open Symbolic

/-- The session that the callback opens for the claims, at a provider that reports the issuer as
`user_id`. -/
def issuerSession (claims : IdTokenClaims) : Session :=
  sessionOf "idp" (OAuth.Sample.mapping "user_id" "iss") claims (instant 0) (instant 60) "s1"

/-- A request of that session. -/
def showing : HttpRequest := request .get ["auth", "profile"] [("x-tim-session", "s1")] ""

/-- The sample request has the id of the sample session. -/
theorem showing_session : sessionAuth crates showing = .ok "s1" := by
  decide +kernel

/-- The session is read back from `MemoryStore` at second one. -/
theorem issuerSession_read (claims : IdTokenClaims) :
    ReadBack Symbolic.cipher .memory (issuerSession claims) []
      ⟨moment (instant 0), .create (issuerSession claims)⟩ [] (moment (instant 1))
      (issuerSession claims) where
  op := rfl
  takes := rfl
  once := fun c hc => absurd hc List.not_mem_nil
  read := (MemoryStore.get_ok_iff (moment (instant 1)) ((∅ : SessionMap).insert "s1" _) "s1" _).mpr
    ⟨Std.ExtTreeMap.getElem?_insert_self, (by decide : instant 1 < instant 60)⟩

end Sample

open Sample Symbolic in
/-- The callbacks of the sample service. -/
theorem one_identity_iff_idp :
    SealLaws sealing
      ∧ (app.oauth.completeCallback "idp" "code" "state").Spec (S := oauthSig) (fun _ _ => True)
        (Identified crates Symbolic.cipher .memory app.oauth "idp" "code" "state") [] :=
  ⟨sealing_laws, one_identity_iff (K := crates) sealing_laws Symbolic.cipher .memory app.oauth
    "idp" "code" "state"⟩

open Sample Symbolic in
/-- `/auth/profile` reports the issuer as the user, for a token that is verified. -/
theorem issuer_reported_as_user :
    ∃ claims, OAuth.Sample.mappedVerification "user_id" "iss" = .ok claims
      ∧ ReadBack Symbolic.cipher .memory (issuerSession claims) []
        ⟨moment (instant 0), .create (issuerSession claims)⟩ [] (moment (instant 1))
        (issuerSession claims)
      ∧ ¬ OneIdentity crates showing (.of claims.sub "idp") (resultOf (issuerSession claims))
        (issuerSession claims) := by
  obtain ⟨claims, hok⟩ := OAuth.Sample.exists_claims
    (x := OAuth.Sample.mappedVerification "user_id" "iss") (by decide +kernel)
  -- The token is from an issuer with another name than its subject.
  have hdiffer : (OAuth.Sample.mappedVerification "user_id" "iss").toOption.all
      (fun claims => decide (claims.iss ≠ claims.sub)) = true := by decide +kernel
  rw [hok] at hdiffer
  have hne : claims.iss ≠ claims.sub := of_decide_eq_true hdiffer
  refine ⟨claims, hok, issuerSession_read claims, fun h => ?_⟩
  have hclear := (oneIdentity_of_same ((issuerSession_read claims).same sealing_laws)
    showing_session).mp h
  have hiss : Value.string claims.iss = .string claims.sub :=
    hclear.user "iss" _ (OAuth.Sample.mapping_getElem? _ _) rfl
  exact hne (Value.string.inj hiss)

end Tim.Web
