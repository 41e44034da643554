import Tim.Proofs.Issued

/-!
# `Tim.Proofs.Verdict`: the verdicts on a token at one instant

`validate`, `introspect` and `authenticate_bearer` decide about a token. Here all their calls
are answered by one function, which is one instant in one state of the database. Each of the
three accepts under a condition on the claims that the token verifies to. The conditions are
then compared.

* `introspect_agrees`: introspection says active exactly when validation does, with the fields of
  the token.
* `bearer_validates`: whoever gets through as a bearer has a valid token.
* `issued_usable_iff`: an issued token is usable exactly under the conditions on its audience.
-/

set_option autoImplicit false

namespace Tim

open Tim.Lib Tim.Lib.Prog Tim.Action

variable {K : Crates}

/-- One instant in one state: the answer to every call. -/
abbrev Snapshot (K : Crates) := (o : Op) → Resp K o

namespace Snapshot

/-- The clock of the snapshot. -/
def now (f : Snapshot K) : DateTime := f .now

/-- What a denylist lookup finds. -/
def denied (f : Snapshot K) (jti : Uuid) : Sql Bool := f (.selectDenylist jti)

end Snapshot

/-- The snapshot at an instant, with empty tables. Every write fails. -/
def Snapshot.clear (K : Crates) (now : DateTime) : Snapshot K
  | .now => now
  | .newUuid => ⟨0⟩
  | .sign _ => .error .unauthorized
  | .selectDenylist _ => .ok false
  | .selectDenylistEntry _ => .ok none
  | .selectExpiresAt _ => .ok none
  | .selectChain _ => .ok none
  | .selectTokens .. => .ok []
  | .countTokens .. => .ok 0
  | .begin => .error "read only"
  | .insertMetadata .. => .error "read only"
  | .insertDenylist .. => .error "read only"
  | .commit => .error "read only"
  | .rollback => ()

namespace Symbolic

/-- The sample service with an audience policy that does not allow the default audience. -/
def strict : JwtService symbolic where
  signer := service.signer
  cfg := { service.cfg with
    audience := { validationEnabled := true, allowed := ["portal"], default := "tim-service" } }

end Symbolic

/-- The audience policy holds of the claims: it is off, or one of the audiences is allowed. -/
def AudienceConfig.permits (a : AudienceConfig) (aud : Option (List String)) : Bool :=
  !a.enforced || aud.any (·.any a.allowed.contains)

namespace JwtService

variable (svc : JwtService K) (f : Snapshot K)

/-- The claims of a token that verifies, that has not expired and whose jti is a UUID without
a denylist row. -/
structure Alive (token : K.Token) (cl : StandardClaims) (jti : Uuid) : Prop where
  verified : svc.signer.verifyRaw f.now StandardClaims.deserialize token permissiveValidation
    = .ok cl
  alive : ¬ cl.exp < f.now.timestamp
  parsed : K.parseUuid cl.jti = some jti
  free : f.denied jti = .ok false

variable {svc f} {token : K.Token} {cl : StandardClaims} {jti : Uuid}

/-- A token is alive with one jti and one set of claims. -/
theorem Alive.unique {cl' : StandardClaims} {jti' : Uuid} (h : svc.Alive f token cl jti)
    (h' : svc.Alive f token cl' jti') : cl' = cl ∧ jti' = jti := by
  have hv := h'.verified
  rw [h.verified] at hv
  cases hv
  have hj := h'.parsed
  rw [h.parsed] at hj
  cases hj
  exact ⟨rfl, rfl⟩

/-! ### `validate` -/

/-- A call is answered by the function. -/
theorem answer_call_bind {α : Type} {o : Op} {k : Resp K o → Action K α} :
    (Action.call o >>= k).answer f = (k (f o)).answer f := rfl

/-- A denylist lookup in a snapshot. -/
theorem answer_lookup_bind {α : Type} {k : Bool → Action K α} :
    (denylistLookup jti >>= k).answer f = match f.denied jti with
      | .ok b => (k b).answer f
      | .error e => .error (.err (.database e)) := by
  show ((Action.sql (f.denied jti)).handle k .raise).answer f = _
  cases f.denied jti <;> rfl

/-- The answers of `validate` to a request without an audience. -/
theorem validate_answer {iss : Option String} :
    (svc.validate ⟨token, none, iss⟩).answer f
      = match svc.signer.verifyRaw f.now StandardClaims.deserialize token permissiveValidation with
        | .error e => .ok (responseUndecodable (classifyJwtError e))
        | .ok cl =>
            if iss.any (fun want => want ≠ cl.iss) then
              .ok (responseFrom cl false false "issuer_mismatch")
            else if !svc.cfg.audience.permits cl.aud then
              .ok (responseFrom cl true false "audience_mismatch")
            else if cl.exp < f.now.timestamp then .ok (responseFrom cl true false "expired")
            else match K.parseUuid cl.jti with
              | none => .error (.err (.badRequest "token jti is not a UUID"))
              | some jti => match f.denied jti with
                | .ok true => .ok (responseFrom cl true false "revoked")
                | .ok false => .ok (responseFromValid cl)
                | .error e => .error (.err (.database e)) := by
  unfold validate
  rw [answer_call_bind]
  show (match svc.signer.verifyRaw f.now StandardClaims.deserialize token permissiveValidation with
    | .error e => _
    | .ok claims => _ : Action K ValidateResponse).answer f = _
  cases svc.signer.verifyRaw f.now StandardClaims.deserialize token permissiveValidation with
  | error e => rfl
  | ok cl =>
      -- The source spells the policy out. `permits` is the same condition.
      have hpolicy : (svc.cfg.audience.enforced
          && !cl.aud.any (·.any svc.cfg.audience.allowed.contains))
            = !svc.cfg.audience.permits cl.aud := by
        simp [AudienceConfig.permits]
      show (if iss.any (fun want => want ≠ cl.iss) = true then _ else if false = true then _
        else if (svc.cfg.audience.enforced
          && !cl.aud.any (·.any svc.cfg.audience.allowed.contains)) = true then _
        else if cl.exp < f.now.timestamp then _ else _ : Action K ValidateResponse).answer f = _
      rw [hpolicy, if_neg Bool.false_ne_true]
      dsimp only
      split
      · rfl
      · split
        · rfl
        · split
          · rfl
          · cases K.parseUuid cl.jti with
            | none => rfl
            | some jti =>
                show (denylistLookup jti >>= _).answer f = _
                rw [answer_lookup_bind]
                cases hd : f.denied jti with
                | error e => simp only [hd]
                | ok b => cases b <;> simp only [hd] <;> rfl

/-- `validate` reports a token valid and active exactly when it is alive, has the expected
issuer and meets the audience policy. -/
theorem validate_active_iff {iss : Option String} :
    (∃ r, (svc.validate ⟨token, none, iss⟩).answer f = .ok r ∧ r.valid = true ∧ r.active = true)
      ↔ ∃ cl jti, svc.Alive f token cl jti ∧ iss.any (fun want => want ≠ cl.iss) = false
        ∧ svc.cfg.audience.permits cl.aud = true := by
  rw [validate_answer]
  constructor
  · rintro ⟨r, hr, hvalid, hactive⟩
    split at hr
    -- Every exit before the last has `active` false.
    · cases hr
      cases hactive
    · rename_i cl hv
      split at hr
      · cases hr
        cases hactive
      · rename_i hiss
        split at hr
        · cases hr
          cases hactive
        · rename_i hpol
          split at hr
          · cases hr
            cases hactive
          · rename_i halive
            split at hr
            · cases hr
            · rename_i jti hjti
              split at hr
              · cases hr
                cases hactive
              · rename_i hd
                exact ⟨cl, jti, ⟨hv, halive, hjti, hd⟩, by simpa using hiss, by simpa using hpol⟩
              · cases hr
  · rintro ⟨cl, jti, h, hiss, hpol⟩
    rw [h.verified]
    dsimp only
    rw [hiss, hpol, if_neg Bool.false_ne_true, if_neg (by simp), if_neg h.alive, h.parsed]
    dsimp only
    rw [h.free]
    exact ⟨_, rfl, rfl, rfl⟩

/-! ### `introspect` -/

/-- The response of `introspect` to an active token. -/
def activeResponse (cl : StandardClaims) : IntrospectionResponse where
  active := true
  iss := some cl.iss
  sub := cl.sub
  aud := cl.aud
  exp := some cl.exp
  iat := some cl.iat
  jti := some cl.jti
  tokenType := some "custom_jwt"
  extraClaims := cl.extra

/-- The answers of `introspect`. -/
theorem introspect_answer :
    (svc.introspect ⟨token⟩).answer f
      = match svc.signer.verify f.now StandardClaims.deserialize token permissiveValidation with
        | .error _ => .ok .inactive
        | .ok cl =>
            if cl.iss ≠ svc.cfg.issuer then .ok .inactive
            else if cl.exp < f.now.timestamp then .ok .inactive
            else match K.parseUuid cl.jti with
              | none => .ok .inactive
              | some jti => match f.denied jti with
                | .ok true => .ok .inactive
                | .ok false => .ok (activeResponse cl)
                | .error e => .error (.err (.database e)) := by
  unfold introspect
  rw [answer_call_bind]
  show (match svc.signer.verify f.now StandardClaims.deserialize token permissiveValidation with
    | .error e => _
    | .ok claims => _ : Action K IntrospectionResponse).answer f = _
  cases svc.signer.verify f.now StandardClaims.deserialize token permissiveValidation with
  | error e => rfl
  | ok cl =>
      dsimp only
      split
      · rfl
      · show (if cl.exp < f.now.timestamp then _ else _ : Action K IntrospectionResponse).answer f
          = _
        split
        · rfl
        · cases K.parseUuid cl.jti with
          | none => rfl
          | some jti =>
              show (denylistLookup jti >>= _).answer f = _
              rw [answer_lookup_bind]
              cases hd : f.denied jti with
              | error e => simp only [hd]
              | ok b => cases b <;> simp only [hd] <;> rfl

/-- `introspect` has three kinds of answers: the claims of a live token of the configured
issuer, the constant inactive response, and the error of a denylist query. -/
theorem introspect_cases :
    (∃ cl jti, svc.Alive f token cl jti ∧ cl.iss = svc.cfg.issuer
      ∧ (svc.introspect ⟨token⟩).answer f = .ok (activeResponse cl))
    ∨ ((∀ cl jti, svc.Alive f token cl jti → cl.iss ≠ svc.cfg.issuer)
      ∧ ((svc.introspect ⟨token⟩).answer f = .ok .inactive
        ∨ ∃ jti e, f.denied jti = .error e
          ∧ (svc.introspect ⟨token⟩).answer f = .error (.err (.database e)))) := by
  rw [introspect_answer]
  split
  · rename_i e he
    refine .inr ⟨fun cl jti h => ?_, .inl rfl⟩
    rw [verify_of_verifyRaw h.verified] at he
    cases he
  · rename_i cl hv
    have hraw := verifyRaw_of_verify hv
    -- A live token has these claims, so a test that they fail refutes it.
    have hclaims : ∀ {cl' jti}, svc.Alive f token cl' jti → cl' = cl := by
      intro cl' jti h
      have := h.verified
      rw [hraw] at this
      exact (Except.ok.inj this).symm
    split
    · rename_i hiss
      exact .inr ⟨fun cl' jti h => hclaims h ▸ hiss, .inl rfl⟩
    · rename_i hiss
      split
      · rename_i hexp
        exact .inr ⟨fun cl' jti h => absurd (hclaims h ▸ hexp) h.alive, .inl rfl⟩
      · rename_i hexp
        split
        · rename_i hjti
          refine .inr ⟨fun cl' jti h => ?_, .inl rfl⟩
          have hp := h.parsed
          rw [hclaims h, hjti] at hp
          cases hp
        · rename_i jti hjti
          have hfree : ∀ {cl' jti'}, svc.Alive f token cl' jti' → f.denied jti = .ok false := by
            intro cl' jti' h
            have hp := h.parsed
            rw [hclaims h, hjti] at hp
            cases hp
            exact h.free
          split
          · rename_i hd
            refine .inr ⟨fun cl' jti' h => ?_, .inl rfl⟩
            rw [hfree h] at hd
            cases hd
          · rename_i hd
            exact .inl ⟨cl, jti, ⟨hraw, hexp, hjti, hd⟩, not_not.mp hiss, rfl⟩
          · rename_i e hd
            refine .inr ⟨fun cl' jti' h => ?_, .inr ⟨jti, e, hd, rfl⟩⟩
            rw [hfree h] at hd
            cases hd

/-- With the audience policy off, introspection is active exactly when validation against the
configured issuer is. An active answer has the claims of the token and nothing else, and every
other answer is the constant inactive one, unless the denylist query fails. -/
theorem introspect_agrees (svc : JwtService K) (f : Snapshot K) (token : K.Token)
    (hoff : svc.cfg.audience.enforced = false) :
    ((∃ r, (svc.introspect ⟨token⟩).answer f = .ok r ∧ r.active = true)
      ↔ ∃ r, (svc.validate ⟨token, none, some svc.cfg.issuer⟩).answer f = .ok r
        ∧ r.valid = true ∧ r.active = true)
    ∧ (∀ r, (svc.introspect ⟨token⟩).answer f = .ok r → r.active = true →
      ∃ cl, svc.signer.verifyRaw f.now StandardClaims.deserialize token permissiveValidation
          = .ok cl
        ∧ r.sub = cl.sub ∧ r.aud = cl.aud ∧ r.exp = some cl.exp ∧ r.iat = some cl.iat
        ∧ r.jti = some cl.jti ∧ r.iss = some cl.iss ∧ r.extraClaims = cl.extra
        ∧ r.tokenType = some "custom_jwt" ∧ r.scope = none ∧ r.clientId = none
        ∧ r.username = none ∧ r.nbf = none)
    ∧ ((¬ ∃ r, (svc.introspect ⟨token⟩).answer f = .ok r ∧ r.active = true) →
      (∀ jti e, f.denied jti ≠ .error e) →
      (svc.introspect ⟨token⟩).answer f = .ok .inactive) := by
  have hpermits : ∀ aud, svc.cfg.audience.permits aud = true := by
    intro aud
    simp [AudienceConfig.permits, hoff]
  have hiss : ∀ cl : StandardClaims,
      (some svc.cfg.issuer).any (fun want => want ≠ cl.iss) = false ↔ cl.iss = svc.cfg.issuer := by
    intro cl
    rw [Option.any_some, decide_eq_false_iff_not, not_not]
    exact eq_comm
  rw [validate_active_iff]
  rcases @introspect_cases K svc f token with
    ⟨cl, jti, halive, heq, hans⟩ | ⟨hdead, hans⟩
  · -- The token is alive, and all three parts read its claims.
    rw [hans]
    refine ⟨⟨fun _ => ⟨cl, jti, halive, (hiss cl).mpr heq, hpermits _⟩,
      fun _ => ⟨_, rfl, rfl⟩⟩, ?_, ?_⟩
    · intro r hr _
      cases hr
      exact ⟨cl, halive.verified, rfl, rfl, rfl, rfl, rfl, rfl, rfl, rfl, rfl, rfl, rfl, rfl⟩
    · intro hno
      exact absurd ⟨_, rfl, rfl⟩ hno
  · have hno : ¬ ∃ cl jti, svc.Alive f token cl jti
        ∧ (some svc.cfg.issuer).any (fun want => want ≠ cl.iss) = false
        ∧ svc.cfg.audience.permits cl.aud = true := by
      rintro ⟨cl, jti, halive, hi, -⟩
      exact hdead cl jti halive ((hiss cl).mp hi)
    have hinactive : ¬ ∃ r, (svc.introspect ⟨token⟩).answer f = .ok r ∧ r.active = true := by
      rintro ⟨r, hr, hactive⟩
      rcases hans with hans | ⟨jti, e, -, hans⟩
      · rw [hans] at hr
        cases hr
        cases hactive
      · rw [hans] at hr
        cases hr
    refine ⟨iff_of_false hinactive hno, ?_, ?_⟩
    · intro r hr hactive
      exact absurd ⟨r, hr, hactive⟩ hinactive
    · intro _ hquery
      rcases hans with hans | ⟨jti, e, hd, -⟩
      · exact hans
      · exact absurd hd (hquery jti e)

open Symbolic in
/-- The sample token is active for both at second 1200. -/
theorem introspect_agrees_sample :
    ∃ r, (service.validate ⟨Symbolic.token, none, some service.cfg.issuer⟩).answer
        (Snapshot.clear symbolic (instant 1200)) = .ok r ∧ r.valid = true ∧ r.active = true := by
  refine (introspect_agrees service (Snapshot.clear symbolic (instant 1200)) Symbolic.token
    rfl).1.mp ?_
  have hactive : ((service.introspect ⟨Symbolic.token⟩).answer
      (Snapshot.clear symbolic (instant 1200))).toOption.any (·.active) = true := by
    decide +kernel
  cases hr : (service.introspect ⟨Symbolic.token⟩).answer (Snapshot.clear symbolic (instant 1200))
    with
  | ok r =>
      rw [hr] at hactive
      exact ⟨r, rfl, hactive⟩
  | error e =>
      rw [hr] at hactive
      cases hactive

/-! ### `authenticate_bearer` -/

/-- The answers of `authenticate_bearer`. -/
theorem authenticateBearer_answer :
    (svc.authenticateBearer token).answer f
      = match svc.signer.verify f.now StandardClaims.deserialize token bearerValidation with
        | .error _ => .error (.err .unauthorized)
        | .ok cl => match K.parseUuid cl.jti with
          | none => .error (.err .unauthorized)
          | some jti => match f.denied jti with
            | .ok true => .error (.err .unauthorized)
            | .ok false => match cl.sub with
              | some sub => .ok sub
              | none => .error (.err .unauthorized)
            | .error e => .error (.err (.database e)) := by
  unfold authenticateBearer
  rw [answer_call_bind]
  show (match svc.signer.verify f.now StandardClaims.deserialize token bearerValidation with
    | .error e => _
    | .ok claims => _ : Action K String).answer f = _
  cases svc.signer.verify f.now StandardClaims.deserialize token bearerValidation with
  | error e => rfl
  | ok cl =>
      dsimp only
      cases K.parseUuid cl.jti with
      | none => rfl
      | some jti =>
          show (denylistLookup jti >>= _).answer f = _
          rw [answer_lookup_bind]
          cases hd : f.denied jti with
          | error e => simp only [hd]
          | ok b =>
              simp only [hd]
              cases b with
              | true => rfl
              | false => cases cl.sub <;> rfl

/-- Two validations with the same algorithms route a token to the same key. So claims that
the first accepts, the second accepts when its checks pass. -/
theorem verifyRaw_of_algorithms (laws : DecodeLaws K) {s : JwtSigner K} {at_ : DateTime}
    {C : Type} {de : Payload → Option C} {v v' : Validation} {c : C}
    (halg : v.algorithms = v'.algorithms) (haud : v.validateAud = false)
    (haud' : v'.validateAud = false) (hpass : ∀ p, v'.passes p at_.timestamp = true)
    (h : s.verifyRaw at_ de token v = .ok c) : s.verifyRaw at_ de token v' = .ok c := by
  have hallowed : ∀ k, K.allowed token k v = K.allowed token k v' :=
    fun k => laws.allowed_algorithms token k v v' halg
  -- With either key, a success stays a success and a bad signature a bad signature.
  have hok : ∀ k, K.decode de token k v at_.timestamp = .ok c →
      K.decode de token k v' at_.timestamp = .ok c := by
    intro k hk
    obtain ⟨ha, hver, p, hp, hde, -⟩ := (laws.ok_iff de token k v _ c haud).mp hk
    exact (laws.ok_iff de token k v' _ c haud').mpr
      ⟨hallowed k ▸ ha, hver, p, hp, hde, hpass p⟩
  have hbad : ∀ k, K.decode de token k v at_.timestamp = .error .invalidSignature →
      K.decode de token k v' at_.timestamp = .error .invalidSignature := by
    intro k hk
    obtain ⟨ha, hver⟩ := (laws.invalidSignature_iff de token k v _).mp hk
    exact (laws.invalidSignature_iff de token k v' _).mpr ⟨hallowed k ▸ ha, hver⟩
  unfold JwtSigner.verifyRaw at h ⊢
  split at h
  · exact hok _ h
  · split at h
    · rename_i d hd
      cases h
      rw [hok _ hd]
    · rename_i e hd
      split at h
      · rw [hbad _ hd]
        dsimp only
        split at h
        · exact hok _ h
        · cases h
      · cases h

/-- A bearer token that is accepted before its `exp` has passed is valid, and it is active
when the audience policy permits it. -/
theorem bearer_validates (laws : DecodeLaws K) (svc : JwtService K) (f : Snapshot K)
    (token : K.Token) {sub : String}
    (hbearer : (svc.authenticateBearer token).answer f = .ok sub) :
    ∃ cl, claimsOf token = some cl
      ∧ (¬ cl.exp < f.now.timestamp →
        ∃ r, (svc.validate ⟨token, none, none⟩).answer f = .ok r ∧ r.valid = true
          ∧ (r.active = true ↔ svc.cfg.audience.enforced = false
            ∨ ∃ aud, cl.aud = some aud ∧ ∃ a ∈ aud, a ∈ svc.cfg.audience.allowed)) := by
  rw [authenticateBearer_answer] at hbearer
  split at hbearer
  · cases hbearer
  · rename_i cl hv
    have hraw := verifyRaw_of_verify hv
    refine ⟨cl, claimsOf_of_verifyRaw laws rfl hraw, fun halive => ?_⟩
    -- `validate` checks no `exp` in the decoder, so it decodes what the bearer check decoded.
    have halg : bearerValidation.algorithms = permissiveValidation.algorithms := rfl
    have hperm : svc.signer.verifyRaw f.now StandardClaims.deserialize token permissiveValidation
        = .ok cl := verifyRaw_of_algorithms laws halg rfl rfl (fun _ => rfl) hraw
    split at hbearer
    · cases hbearer
    · rename_i jti hjti
      split at hbearer
      · cases hbearer
      · rename_i hd
        have hpol : svc.cfg.audience.permits cl.aud = true ↔ svc.cfg.audience.enforced = false
            ∨ ∃ aud, cl.aud = some aud ∧ ∃ a ∈ aud, a ∈ svc.cfg.audience.allowed := by
          simp [AudienceConfig.permits, Option.any_eq_true]
        rw [validate_answer, hperm]
        dsimp only
        rw [Option.any_none, if_neg Bool.false_ne_true, if_neg halive, hjti]
        dsimp only
        rw [hd]
        cases hp : svc.cfg.audience.permits cl.aud with
        | true => exact ⟨_, rfl, rfl, iff_of_true rfl (hpol.mp hp)⟩
        | false =>
            refine ⟨_, rfl, rfl, iff_of_false nofun fun hany => ?_⟩
            rw [hpol.mpr hany] at hp
            cases hp
      · cases hbearer

/-- Whether an answer of `validate` is valid and active. -/
def accepted : Except Fault ValidateResponse → Bool
  | .ok r => r.valid && r.active
  | .error _ => false

open Symbolic in
/-- A token is accepted as a bearer token where `validate` does not report it active: within
the leeway after its `exp`, and with an audience that the policy does not allow. -/
theorem bearer_not_active :
    ((service.authenticateBearer Symbolic.token).answer
        (Snapshot.clear symbolic (instant 1630)) = .ok "alice"
      ∧ accepted ((service.validate ⟨Symbolic.token, none, none⟩).answer
        (Snapshot.clear symbolic (instant 1630))) = false)
    ∧ ((strict.authenticateBearer Symbolic.token).answer
        (Snapshot.clear symbolic (instant 1200)) = .ok "alice"
      ∧ accepted ((strict.validate ⟨Symbolic.token, none, none⟩).answer
        (Snapshot.clear symbolic (instant 1200))) = false) := by
  decide +kernel

open Symbolic in
/-- The sample token at second 1200. -/
theorem bearer_validates_sample :
    ∃ r, (service.validate ⟨Symbolic.token, none, none⟩).answer
        (Snapshot.clear symbolic (instant 1200)) = .ok r
      ∧ r.valid = true ∧ r.active = true := by
  have hbearer : (service.authenticateBearer Symbolic.token).answer
      (Snapshot.clear symbolic (instant 1200)) = .ok "alice" := by decide +kernel
  obtain ⟨cl, hcl, hvalid⟩ := bearer_validates symbolic_decode service _ Symbolic.token hbearer
  have halive : (claimsOf Symbolic.token).all
      (fun cl => decide (¬ cl.exp < (instant 1200).timestamp)) = true := by decide +kernel
  rw [hcl, Option.all_some, decide_eq_true_eq] at halive
  obtain ⟨r, hr, hv, hactive⟩ := hvalid halive
  exact ⟨r, hr, hv, hactive.mpr (.inl rfl)⟩

/-! ### Issued tokens -/

/-- The condition on a request under which the token it returns can be used. -/
def usable (svc : JwtService K) : Request K → Prop
  | .generate req => svc.cfg.audience.enforced = false ∨ req.audience ≠ some (.multi [])
  | .extend req => svc.cfg.audience.enforced = false
      ∨ ∃ cl, claimsOf req.token = some cl ∧ ∃ aud, cl.aud = some aud
        ∧ ∃ a ∈ aud, a ∈ svc.cfg.audience.allowed
  | _ => False

/-- The audience that a request asks for. -/
def requestedAudience (svc : JwtService K) : Option Audience → List String
  | some a => a.intoVec
  | none => [svc.cfg.audience.default]

/-- Only an empty list asks for no audience at all. -/
theorem requestedAudience_eq_nil {requested : Option Audience} :
    svc.requestedAudience requested = [] ↔ requested = some (.multi []) := by
  cases requested with
  | none => simp [requestedAudience]
  | some a => cases a <;> simp [requestedAudience, Audience.intoVec]

/-- While the policy is on, every entry of a resolved audience is allowed. -/
theorem resolveAudience_allowed {requested : Option Audience} {aud : List String}
    (h : svc.resolveAudience requested = .ok aud) :
    aud = svc.requestedAudience requested
      ∧ (svc.cfg.audience.enforced = true → ∀ a ∈ aud, a ∈ svc.cfg.audience.allowed) := by
  have hres : (if svc.cfg.audience.enforced then
      match (svc.requestedAudience requested).find?
        fun a => !svc.cfg.audience.allowed.contains a with
      | some a => .error (TimError.unprocessable ("audience '" ++ a ++ "' not in allowed set"))
      | none => .ok (svc.requestedAudience requested)
    else .ok (svc.requestedAudience requested)) = Except.ok aud := h
  split at hres
  · split at hres
    · cases hres
    · rename_i hall
      cases hres
      exact ⟨rfl, fun _ => by simpa using hall⟩
  · rename_i hoff
    cases hres
    exact ⟨rfl, fun hon => absurd hon hoff⟩

/-- A resolved audience meets the policy unless it is empty. -/
theorem permits_of_resolveAudience {requested : Option Audience} {aud : List String}
    (h : svc.resolveAudience requested = .ok aud) :
    svc.cfg.audience.permits (some aud) = true
      ↔ svc.cfg.audience.enforced = false ∨ requested ≠ some (.multi []) := by
  obtain ⟨haud, hall⟩ := resolveAudience_allowed h
  cases he : svc.cfg.audience.enforced with
  | false => simp [AudienceConfig.permits, he]
  | true =>
      rw [AudienceConfig.permits, he, Option.any_some, ne_eq, ← requestedAudience_eq_nil, ← haud]
      cases aud with
      | nil => simp
      | cons a l =>
          have ha := hall he a List.mem_cons_self
          simp [ha]

end JwtService

section Issued

variable {svc : JwtService K}
  {P : JwtPool svc → Label (jwtMachine svc.signer) (Request K) → Prop} {s₀ : Store}
  {c : JwtPool svc} {tid : Nat} {cl : StandardClaims} {token : K.Token}

/-- A signed token that is not denylisted is reported active up to its `exp` exactly when the
audience policy permits it. -/
theorem validate_signed (laws : DecodeLaws K) (enc : EncodeLaws K) {claims : Payload}
    (hsign : svc.signer.sign claims = .ok token) (hclaims : claimsOf token = some cl)
    {f : Snapshot K} {jti : Uuid} (hjti : K.parseUuid cl.jti = some jti)
    (hexp : f.now.timestamp ≤ cl.exp) (hfree : f.denied jti = .ok false) :
    (∃ r, (svc.validate ⟨token, none, none⟩).answer f = .ok r ∧ r.valid = true
      ∧ r.active = true) ↔ svc.cfg.audience.permits cl.aud = true := by
  have halive : svc.Alive f token cl jti :=
    ⟨verifyRaw_of_signed laws enc hsign hclaims f.now rfl rfl fun _ => rfl,
      Int64.not_lt.mpr hexp, hjti, hfree⟩
  rw [JwtService.validate_active_iff]
  constructor
  · rintro ⟨cl', jti', halive', -, hpol⟩
    rw [(halive.unique halive').1] at hpol
    exact hpol
  · intro hpol
    exact ⟨cl, jti, halive, rfl, hpol⟩

/-- What `generate` and `extend` sign, read from the request. -/
theorem signed_request (laws : DecodeLaws K) (h : JwtReach svc P s₀ c)
    {t : Task (jwtSig K) Fault (Response K) (Request K)} (ht : c.tasks[tid]? = some t)
    {r : TokenResponse K} (hx : t.result = some (.ok (.token r))) :
    ∃ cl u now, (⟨Op.sign cl, Except.ok r.token⟩ : Event (jwtSig K)) ∈ eventsOf c.history tid
      ∧ cl.jti = K.uuidText u ∧ cl.iat = DateTime.timestamp now ∧ cl.iat < cl.exp
      ∧ (svc.cfg.audience.permits cl.aud = true ↔ svc.usable t.req) := by
  have hdone := h.result_spec svc.program_spec ht hx
  cases hreq : t.req with
  | generate req =>
      rw [hreq] at hdone
      obtain ⟨_, heq, g, hvalid, hevents, htoken⟩ := hdone
      cases heq
      refine ⟨g.claims svc req, g.jti, g.now, ?_, rfl, rfl,
        timestamp_lt_of_plusMinutes hvalid.minutes hvalid.exp,
        JwtService.permits_of_resolveAudience hvalid.aud⟩
      rw [hevents, htoken]
      exact List.mem_of_getElem? (i := 2) rfl
  | extend req =>
      rw [hreq] at hdone
      obtain ⟨_, heq, x, hvalid, hevents, htoken⟩ := hdone
      cases heq
      have hold := claimsOf_of_verifyRaw laws rfl (JwtService.verifyRaw_of_verify hvalid.verified)
      refine ⟨x.claims svc, x.newJti, x.now, ?_, rfl, rfl,
        timestamp_lt_of_plusMinutes hvalid.minutes hvalid.exp, ?_⟩
      · rw [hevents, htoken]
        exact List.mem_of_getElem? (i := 5) rfl
      · show svc.cfg.audience.permits x.old.aud = true ↔ _
        simp [AudienceConfig.permits, JwtService.usable, hold, Option.any_eq_true]
  | _ =>
      rw [hreq] at hdone
      exact absurd rfl (hdone r)

/-- The token that a request has returned is reported valid and active at every instant from
its issuance to its `exp` second, while its jti is not denylisted, exactly when the audience of
the request has an entry that the policy allows. -/
theorem issued_usable_iff (laws : DecodeLaws K) (enc : EncodeLaws K) (uuid : UuidLaws K)
    (h : JwtReach svc P s₀ c) {t : Task (jwtSig K) Fault (Response K) (Request K)}
    (ht : c.tasks[tid]? = some t) {r : TokenResponse K}
    (hx : t.result = some (.ok (.token r))) :
    (∃ cl jti, claimsOf r.token = some cl ∧ K.parseUuid cl.jti = some jti
      ∧ ∀ f : Snapshot K, cl.iat ≤ f.now.timestamp → f.now.timestamp ≤ cl.exp →
        f.denied jti = .ok false →
        ∃ resp, (svc.validate ⟨r.token, none, none⟩).answer f = .ok resp ∧ resp.valid = true
          ∧ resp.active = true)
      ↔ svc.usable t.req := by
  obtain ⟨cl, u, now, hsign, hjti, hiat, hlt, hpol⟩ := signed_request laws h ht hx
  -- The token has the claims that are read from their text, with the same named fields.
  obtain ⟨hsigned, _, ⟨extra, -, rfl⟩, hclaims⟩ := payload_of_sign laws enc h hsign
  have hparse : K.parseUuid cl.jti = some u := by
    rw [hjti]
    exact uuid.parse_text u
  rw [← hpol]
  constructor
  · rintro ⟨cl', jti', hcl', hjti', hall⟩
    rw [hclaims] at hcl'
    cases hcl'
    -- The instant of issuance is one of the instants.
    have hle : (Snapshot.clear K now).now.timestamp ≤ cl.exp :=
      Int64.le_of_lt (hiat ▸ hlt)
    have hok := hall (Snapshot.clear K now) (hiat ▸ Int64.le_refl _) hle rfl
    exact (validate_signed laws enc hsigned hclaims hparse hle rfl).mp hok
  · intro hperm
    refine ⟨{ cl with extra }, u, hclaims, hparse, fun f _ hexp hfree => ?_⟩
    exact (validate_signed laws enc hsigned hclaims hparse hexp hfree).mpr hperm

end Issued

open Symbolic in
/-- With the policy on, a request for an empty list of audiences returns a token that is not
active when it is issued. -/
theorem issued_not_usable :
    ∃ c t r cl jti, JwtReach strict Pool.Any store c ∧ c.tasks[0]? = some t
      ∧ t.req = .generate { request with audience := some (.multi []) }
      ∧ t.result = some (.ok (.token r)) ∧ claimsOf r.token = some cl
      ∧ symbolic.parseUuid cl.jti = some jti ∧ cl.iat ≤ (instant 1000).timestamp
      ∧ (instant 1000).timestamp ≤ cl.exp
      ∧ (Snapshot.clear symbolic (instant 1000)).denied jti = .ok false
      ∧ JwtService.accepted ((strict.validate ⟨r.token, none, none⟩).answer
        (Snapshot.clear symbolic (instant 1000))) = false := by
  let first : Label (jwtMachine strict.signer) (Request symbolic) :=
    .spawn (.generate { request with audience := some (.multi []) })
  let c₀ : JwtPool strict := ⟨store,
    [⟨.generate { request with audience := some (.multi []) },
      some (strict.program (.generate { request with audience := some (.multi []) }))⟩], []⟩
  obtain ⟨c, h, hq⟩ := Pool.exists_reach strict.program (fun _ _ => true)
    (fun c : JwtPool strict => (issuedBy 0 c).any fun token => (claimsOf token).any fun cl =>
      (symbolic.parseUuid cl.jti).isSome && decide (cl.iat ≤ (instant 1000).timestamp)
      && decide ((instant 1000).timestamp ≤ cl.exp)
      && !JwtService.accepted ((strict.validate ⟨token, none, none⟩).answer
        (Snapshot.clear symbolic (instant 1000))))
    c₀ (generateRun.drop 1) (by decide +kernel)
  have h : Pool.Reach strict.program Pool.Any c₀ c := h.mono fun _ _ _ => trivial
  obtain ⟨token, htok, hcl⟩ := (Option.any_eq_true _ _).mp hq
  obtain ⟨cl, hclaims, htests⟩ := (Option.any_eq_true _ _).mp hcl
  simp only [Bool.and_eq_true, decide_eq_true_eq] at htests
  obtain ⟨⟨⟨hjti, hiat⟩, hexp⟩, hnot⟩ := htests
  obtain ⟨jti, hjti⟩ := Option.isSome_iff_exists.mp hjti
  obtain ⟨t, r, ht, hx, rfl⟩ := result_of_issuedBy htok
  have hreq : t.req = .generate { request with audience := some (.multi []) } := by
    obtain ⟨t', ht', hsame, -⟩ := h.task_persists (show c₀.tasks[0]? = some _ from rfl)
    rw [ht] at ht'
    cases ht'
    exact hsame
  have hreach : JwtReach strict Pool.Any store c :=
    (Pool.Reach.refl.tail first trivial rfl).trans h
  exact ⟨c, t, r, cl, jti, hreach, ht, hreq, hx, hclaims, hjti, hiat, hexp, rfl,
    by simpa using hnot⟩

open Symbolic in
/-- The token of the sample run can be used until its `exp`. -/
theorem issued_usable_sample :
    ∃ c t r, JwtReach service Pool.Any store c ∧ c.tasks[0]? = some t
      ∧ t.result = some (.ok (.token r))
      ∧ ∃ cl jti, claimsOf r.token = some cl ∧ symbolic.parseUuid cl.jti = some jti
        ∧ ∀ f : Snapshot symbolic, cl.iat ≤ f.now.timestamp → f.now.timestamp ≤ cl.exp →
          f.denied jti = .ok false →
          ∃ resp, (service.validate ⟨r.token, none, none⟩).answer f = .ok resp
            ∧ resp.valid = true ∧ resp.active = true := by
  obtain ⟨c, h, hq⟩ := Pool.exists_reach service.program (fun _ _ => true)
    (fun c => (issuedBy 0 c).isSome) (Pool.init store) generateRun (by decide +kernel)
  have h : JwtReach service Pool.Any store c := h.mono fun _ _ _ => trivial
  obtain ⟨token, htok⟩ := Option.isSome_iff_exists.mp hq
  obtain ⟨t, r, ht, hx, -⟩ := result_of_issuedBy htok
  have main := issued_usable_iff symbolic_decode symbolic_encode symbolic_uuid h ht hx
  refine ⟨c, t, r, h, ht, hx, main.mpr ?_⟩
  cases hreq : t.req with
  | generate req => exact .inl rfl
  | extend req => exact .inl rfl
  | _ =>
      have hdone := h.result_spec service.program_spec ht hx
      rw [hreq] at hdone
      exact absurd rfl (hdone r)

end Tim
