import Tim.Lib.Later
import Tim.Proofs.Atomic
import Tim.Proofs.Revocation

/-!
# `Tim.Proofs.Finality`: a token that is refused stays refused

The clock only moves forward, the denylist only grows, and the predecessor key only retires. So a
token that is refused for what it is (its signature, its issuer or audience, its expiry, a
revocation) cannot be accepted by the same request later, in any run. `refusal_final` is this
result, for `validate`, `introspect`, bearer authentication, `extend` and `revoke`.

Two kinds of refusal are not final, and `Rejected` leaves them out: a failure of the database, and
a `revoke_by_jti` that finds no metadata row. There is one kind of token for which even the
signature check is not final. A token whose `kid` names the predecessor is checked with that key
alone while it is active, and with the current key afterwards. `NamesItsKey` says that the token
is not signed by the current key under the name of the predecessor.

* `Validation.passes_earlier`, `JwtSigner.verifyRaw_earlier`: a token that passes later has passed
  before.
* `program_precludes`: a rejection and a later acceptance of one token exclude each other, per
  operation.
-/

set_option autoImplicit false

namespace Tim

open Tim.Lib Tim.Lib.Prog Tim.Action

variable {K : Crates}

/-! ### Verification at two instants -/

namespace JwtSigner

variable {s : JwtSigner K} {now₁ now₂ : DateTime} {token : K.Token} {v : Validation}

/-- A token that names the predecessor is not signed by the current key. -/
def NamesItsKey (s : JwtSigner K) (token : K.Token) : Prop :=
  ∀ prev hd, s.previous = some prev → K.decodeHeader token = .ok hd → hd.kid = some prev.kid →
    K.verifies token s.current.decoding = false

/-- A predecessor that is active later is active before. -/
theorem activePrevious_earlier {prev : KeyPair K} (hle : now₁ ≤ now₂)
    (h : s.activePrevious now₂ = some prev) : s.activePrevious now₁ = some prev := by
  unfold activePrevious at h ⊢
  cases hret : s.previousRetiresAt with
  | none => rw [hret] at h; cases h
  | some retires =>
      rw [hret] at h
      dsimp only at h ⊢
      split at h
      · cases h
      · rename_i hactive
        have hbefore : ¬ retires ≤ now₁ := fun hretired => hactive (Int.le_trans hretired hle)
        rw [if_neg hbefore]
        exact h

/-- A key that is published later on was published before: keys retire and none is added. -/
theorem Publishes.earlier {key : KeyPair K} (hle : now₁ ≤ now₂) (h : s.Publishes now₂ key) :
    s.Publishes now₁ key := by
  rcases h.cases with rfl | hact
  · exact publishes_current s now₁
  · exact publishes_activePrevious (activePrevious_earlier hle hact)

end JwtSigner

/-- A later instant has no earlier second. -/
theorem timestamp_mono {a b : DateTime} (h : a ≤ b) : a.timestamp.toInt ≤ b.timestamp.toInt := by
  rw [DateTime.timestamp_toInt, DateTime.timestamp_toInt]
  exact Int.ediv_le_ediv (by decide) h

/-- The claim checks get no easier with time, without a check of `nbf`. -/
theorem Validation.passes_earlier {v : Validation} (hnbf : v.validateNbf = false) {p : Payload}
    {a b : DateTime} (hle : a ≤ b) (h : v.passes p b.timestamp = true) :
    v.passes p a.timestamp = true := by
  have htime := timestamp_mono hle
  simp only [Validation.passes, hnbf, Bool.and_eq_true, Bool.not_false, Bool.true_or, and_true,
    Bool.or_eq_true] at h ⊢
  obtain ⟨⟨hreq, hexp⟩, hiss⟩ := h
  refine ⟨⟨hreq, ?_⟩, hiss⟩
  rcases hexp with hoff | hexp
  · exact .inl hoff
  · right
    split at hexp
    · rename_i e _
      simp only [Bool.not_eq_true', decide_eq_false_iff_not] at hexp ⊢
      omega
    · rfl

/-- A token that verifies later verifies before. -/
theorem JwtSigner.verifyRaw_earlier (laws : DecodeLaws K) {C : Type} {s : JwtSigner K}
    {now₁ now₂ : DateTime} {de : Payload → Option C} {token : K.Token} {v : Validation} {c : C}
    (hkey : s.NamesItsKey token) (hnbf : v.validateNbf = false) (haud : v.validateAud = false)
    (hle : now₁ ≤ now₂) (h : s.verifyRaw now₂ de token v = .ok c) :
    s.verifyRaw now₁ de token v = .ok c := by
  obtain ⟨key, hpub, hver, hdec⟩ := verifies_of_verifyRaw laws h
  obtain ⟨hallow, -, p, hp, hde, hpass⟩ := (laws.ok_iff de token _ v _ c haud).mp hdec
  have hdec₁ : K.decode de token key.decoding v now₁.timestamp = .ok c :=
    (laws.ok_iff de token _ v _ c haud).mpr
      ⟨hallow, hver, p, hp, hde, Validation.passes_earlier hnbf hle hpass⟩
  have hpub₁ := hpub.earlier hle
  cases hrt : s.routed now₁ token with
  | none => rw [verifyRaw_of_unrouted laws hpub₁ hrt hver, hdec₁]
  | some prev =>
      -- The header names the predecessor, so the current key is not the one that verifies.
      have hact := activePrevious_of_routed hrt
      have hsame : key = prev := by
        rcases hpub₁.cases with rfl | hact'
        · unfold routed at hrt
          split at hrt
          · cases hrt
          · rename_i hd hhd
            split at hrt
            · cases hrt
            · rename_i kid hkid
              unfold activePreviousMatching at hrt
              rw [hact] at hrt
              dsimp only at hrt
              split at hrt
              · rename_i hnamed
                have hno := hkey prev hd (previous_of_activePrevious hact) hhd
                  (by rw [hkid, hnamed])
                rw [hver] at hno
                cases hno
              · cases hrt
        · rw [hact] at hact'
          cases hact'
          rfl
      subst hsame
      unfold verifyRaw
      rw [hrt]
      exact hdec₁

/-! ### What later answers keep -/

/-- What is known for good once a call is answered: an instant that has been, and a denylist hit. -/
def KnownAt (s : Store) : Event (jwtSig K) → Prop
  | ⟨.now, t⟩ => DateTime.ns t ≤ s.clock.ns
  | ⟨.selectDenylist jti, .ok true⟩ => (s.denied jti).isSome
  | _ => True

/-- The second answer is one that can come after the first. -/
def LaterAnswer (e : Event (jwtSig K)) : Event (jwtSig K) → Prop
  | ⟨.now, t'⟩ => ∀ t : DateTime, e = ⟨.now, t⟩ → t ≤ t'
  | ⟨.selectDenylist jti, r⟩ => e = ⟨.selectDenylist jti, .ok true⟩ → r ≠ .ok false
  | _ => True

/-- What an event tells about a store stays true while the store grows. -/
theorem KnownAt.grows {s s' : Store} {e : Event (jwtSig K)} (h : KnownAt s e) (hg : s.Grows s')
    (hclock : s.clock.ns ≤ s'.clock.ns) : KnownAt s' e := by
  unfold KnownAt at h ⊢
  split at h
  · exact Int.le_trans h hclock
  · obtain ⟨row, hrow, hkey⟩ := Store.denied_isSome.mp h
    exact Store.denied_isSome.mpr ⟨row, hg.denylist.subset hrow, hkey⟩
  · trivial

/-- Every event tells something about the store it was made in, and none of it is lost later on. -/
theorem known_lasting (signer : JwtSigner K) : Pool.Lasting (jwtMachine signer) KnownAt where
  made := by
    intro tid s o ch r s' hexec
    have heff := Store.exec_effect hexec
    cases heff with
    | now => exact Int.le_refl _
    | selectDenylist jti =>
        show KnownAt s ⟨Op.selectDenylist jti, Except.ok (Store.denied s jti).isSome⟩
        cases hdenied : (Store.denied s jti).isSome with
        | true => exact hdenied
        | false => trivial
    | query o r hq => cases o <;> first | exact hq.elim | trivial
    | failed o r hf =>
        cases o with
        | selectDenylist jti =>
            obtain ⟨e, rfl⟩ := hf
            trivial
        | selectChain | begin | insertMetadata | insertDenylist => trivial
        | _ => exact hf.elim
    | _ => trivial
  call := by
    intro tid s o ch r s' e hexec hknown
    have heff := Store.exec_effect hexec
    have hclock : s'.clock = s.clock := heff.clock
    exact hknown.grows heff.grows (hclock ▸ Int.le_refl _)
  release := by
    intro tid s e hknown
    exact hknown.grows (Store.grows_setTx s tid none) (Int.le_refl _)
  env := by
    intro s t s' e henv hknown
    simp only [jwtMachine, Store.tick] at henv
    split at henv
    · rename_i hle
      cases henv
      exact hknown.grows ⟨List.prefix_rfl, List.prefix_rfl⟩ hle
    · cases henv

/-- The answers of a history get only later. -/
theorem answers_later {svc : JwtService K}
    {P : JwtPool svc → Label (jwtMachine svc.signer) (Request K) → Prop} {s₀ : Store}
    {c : JwtPool svc} (h : JwtReach svc P s₀ c) :
    c.history.Pairwise fun a b => LaterAnswer a.2 b.2 := by
  refine h.pairwise (known_lasting svc.signer) ?_
  intro tid s o ch r s' e hexec hknown
  have heff := Store.exec_effect hexec
  cases heff with
  | now =>
      intro t he
      subst he
      exact hknown
  | selectDenylist jti =>
      intro he
      subst he
      have hdenied : (s.denied jti).isSome = true := hknown
      rw [hdenied]
      nofun
  | query o r hq => cases o <;> first | exact hq.elim | trivial
  | failed o r hf =>
      cases o with
      | selectDenylist jti =>
          obtain ⟨e, rfl⟩ := hf
          intro _
          nofun
      | selectChain | begin | insertMetadata | insertDenylist => trivial
      | _ => exact hf.elim
  | _ => trivial

/-- The answers that a call can have: a signature is the one of the signer. -/
def Genuine (svc : JwtService K) : (o : Op) → Resp K o → Prop
  | .sign claims, r => r = svc.signer.sign claims.serialize
  | _, _ => True

/-- In every run, the answers of the store are those of the machine, so a rejection is never made
up. -/
theorem genuine {svc : JwtService K}
    {P : JwtPool svc → Label (jwtMachine svc.signer) (Request K) → Prop} {s₀ : Store}
    {c : JwtPool svc} (h : JwtReach svc P s₀ c) : ∀ a ∈ c.history, Genuine svc a.2.op a.2.resp := by
  intro a ha
  obtain ⟨tid, o, r⟩ := a
  cases o with
  | sign claims => exact sign_read h (mem_eventsOf.mpr ha)
  | _ => trivial

/-! ### The programs -/

/-- The token that a request presents. -/
def presentedToken : Request K → Option K.Token
  | .validate req => some req.token
  | .introspect req => some req.token
  | .authenticateBearer token => some token
  | .extend req => some req.token
  | .revoke token _ => some token
  | _ => none

/-- The request is refused for the token it presents, or for its own parameters. -/
def Rejected : Request K → Except Fault (Response K) → Prop
  | .validate _, .ok (.validate r) => r.active = false
  | .validate _, .error (.err (.badRequest _)) => True
  | .introspect _, .ok (.introspect r) => r.active = false
  | .authenticateBearer _, .error (.err .unauthorized) => True
  | .extend _, .error (.err (.badRequest _)) => True
  | .extend _, .error (.err (.unprocessable _)) => True
  | .revoke _ _, .error (.err (.badRequest _)) => True
  | _, _ => False

/-- A request without a token is not rejected for one. -/
theorem not_rejected {req : Request K} (h : presentedToken req = none)
    (x : Except Fault (Response K)) : ¬ Rejected req x := by
  cases req with
  | generate | revokeByJti | bulkRevoke | listForSubject => exact id
  | _ => cases h

/-- The request accepts the token it presents. -/
def Granted : Request K → Except Fault (Response K) → Prop
  | .validate _, .ok (.validate r) => r.active = true
  | .introspect _, .ok (.introspect r) => r.active = true
  | .authenticateBearer _, .ok _ => True
  | .extend _, .ok _ => True
  | .revoke _ _, .ok _ => True
  | _, _ => False

section Rules

variable {svc : JwtService K} {α : Type} {ψ χ : Except Fault α → Prop}

/-- A result that is there cannot turn into one that is not allowed. -/
theorem late_ret {p : Action K α} {a : α} (h : ¬ χ (.ok a)) :
    Precludes (Genuine svc) LaterAnswer ψ χ p (pure a : Action K α) := .late h

/-- A second run that fails grants nothing, whatever the first one did. -/
theorem late_fail {p : Action K α} {e : TimError} (h : ¬ χ (.error (.err e))) :
    Precludes (Genuine svc) LaterAnswer ψ χ p (fail e : Action K α) := .late h

/-- The rule of the clock. -/
theorem precludes_now {f g : DateTime → Action K α}
    (h : ∀ t t' : DateTime, t ≤ t' → Precludes (Genuine svc) LaterAnswer ψ χ (f t) (g t')) :
    Precludes (Genuine svc) LaterAnswer ψ χ (call .now >>= f) (call .now >>= g) :=
  Precludes.both (S := jwtSig K) Op.now fun t t' hlater => h t t' (hlater t rfl)

/-- The rule of a lookup. After a hit the later one is a hit as well. -/
theorem precludes_lookup {jti : Uuid} {f g : Bool → Action K α}
    (hhit : (g true).Under (S := jwtSig K) (Genuine svc) fun y => ¬ χ y)
    (hdb : ∀ e, ¬ ψ (.error (.err (.database e))))
    (hdb' : ∀ e, ¬ χ (.error (.err (.database e))))
    (hmiss : Precludes (Genuine svc) LaterAnswer ψ χ (f false) (g false)) :
    Precludes (Genuine svc) LaterAnswer ψ χ (JwtService.denylistLookup jti >>= f)
      (JwtService.denylistLookup jti >>= g) := by
  refine Precludes.both (S := jwtSig K) (Op.selectDenylist jti) fun r r' hlater => ?_
  cases r' with
  | error e => exact late_fail (hdb' e)
  | ok found' =>
      cases found' with
      | true => exact .late hhit
      | false =>
          cases r with
          | error e => exact .early (hdb e)
          | ok found =>
              cases found with
              | true => exact absurd rfl (hlater rfl)
              | false => exact hmiss

end Rules

namespace JwtService

variable {svc : JwtService K}

/-- The claims of a token that verifies at the later instant are those at the earlier one. -/
theorem verify_earlier (laws : DecodeLaws K) {t t' : DateTime} {token : K.Token} {v : Validation}
    {claims : StandardClaims} (hkey : svc.signer.NamesItsKey token) (hnbf : v.validateNbf = false)
    (haud : v.validateAud = false) (hle : t ≤ t')
    (h : svc.signer.verify t' StandardClaims.deserialize token v = .ok claims) :
    svc.signer.verify t StandardClaims.deserialize token v = .ok claims :=
  verify_of_verifyRaw (JwtSigner.verifyRaw_earlier laws hkey hnbf haud hle (verifyRaw_of_verify h))

/-- Expired once, expired for ever. -/
theorem expired_later {t t' : DateTime} (hle : t ≤ t') {exp : Int64} (h : exp < t.timestamp) :
    exp < t'.timestamp := by
  have htime := timestamp_mono hle
  rw [Int64.lt_iff_toInt_lt] at h ⊢
  omega

/-- A token that `validate` rejects is not granted by a later `validate`. The proof walks through
both runs, and each exit of the first closes the exits of the second. -/
theorem validate_precludes (laws : DecodeLaws K) (req : ValidateRequest K)
    (hkey : svc.signer.NamesItsKey req.token) :
    Precludes (Genuine svc) LaterAnswer
      (fun x => Rejected (.validate req) (wrapped Response.validate x))
      (fun y => Granted (.validate req) (wrapped Response.validate y))
      (svc.validate req) (svc.validate req) := by
  have hinactive : ∀ r : ValidateResponse, r.active = false →
      ¬ Granted (.validate req) (wrapped (ε := Fault) (Response.validate (K := K)) (.ok r)) := by
    intro r hr hact
    cases hr.symm.trans hact
  unfold validate
  refine precludes_now fun at₁ at₂ hat => ?_
  cases hlater : svc.signer.verifyRaw at₂ StandardClaims.deserialize req.token
      permissiveValidation with
  | error e => exact late_ret (hinactive _ rfl)
  | ok claims =>
      rw [JwtSigner.verifyRaw_earlier laws hkey rfl rfl hat hlater]
      refine precludes_now fun now₁ now₂ hnow => ?_
      -- The checks of the issuer and the audience do not look at the clock.
      split
      · exact late_ret (hinactive _ rfl)
      · split
        · exact late_ret (hinactive _ rfl)
        · split
          · exact late_ret (hinactive _ rfl)
          · by_cases hexp : claims.exp < now₂.timestamp
            · rw [if_pos hexp]
              exact late_ret (hinactive _ rfl)
            · have hexp₁ : ¬ claims.exp < now₁.timestamp :=
                fun h => hexp (expired_later hnow h)
              rw [if_neg hexp, if_neg hexp₁]
              cases K.parseUuid claims.jti with
              | none => exact late_fail nofun
              | some jti =>
                  refine precludes_lookup (hinactive _ rfl) (fun _ => nofun) (fun _ => nofun) ?_
                  exact .early nofun

/-- A token that `introspect` calls inactive is not active for a later one. -/
theorem introspect_precludes (laws : DecodeLaws K) (req : IntrospectRequest K)
    (hkey : svc.signer.NamesItsKey req.token) :
    Precludes (Genuine svc) LaterAnswer
      (fun x => Rejected (.introspect req) (wrapped Response.introspect x))
      (fun y => Granted (.introspect req) (wrapped Response.introspect y))
      (svc.introspect req) (svc.introspect req) := by
  have hinactive : ¬ Granted (.introspect req)
      (wrapped (ε := Fault) (Response.introspect (K := K)) (.ok .inactive)) := nofun
  unfold introspect
  refine precludes_now fun at₁ at₂ hat => ?_
  cases hlater : svc.signer.verify at₂ StandardClaims.deserialize req.token
      permissiveValidation with
  | error e => exact late_ret hinactive
  | ok claims =>
      rw [verify_earlier laws hkey rfl rfl hat hlater]
      dsimp only
      split
      · exact late_ret hinactive
      · refine precludes_now fun now₁ now₂ hnow => ?_
        by_cases hexp : claims.exp < now₂.timestamp
        · rw [if_pos hexp]
          exact late_ret hinactive
        · have hexp₁ : ¬ claims.exp < now₁.timestamp := fun h => hexp (expired_later hnow h)
          rw [if_neg hexp, if_neg hexp₁]
          cases K.parseUuid claims.jti with
          | none => exact late_ret hinactive
          | some jti =>
              refine precludes_lookup hinactive (fun _ => nofun) (fun _ => nofun) ?_
              exact .early nofun

/-- A bearer token that is refused stays refused. -/
theorem authenticateBearer_precludes (laws : DecodeLaws K) (token : K.Token)
    (hkey : svc.signer.NamesItsKey token) :
    Precludes (Genuine svc) LaterAnswer
      (fun x => Rejected (.authenticateBearer token) (wrapped Response.subject x))
      (fun y => Granted (.authenticateBearer token) (wrapped Response.subject y))
      (svc.authenticateBearer token) (svc.authenticateBearer token) := by
  unfold authenticateBearer
  refine precludes_now fun at₁ at₂ hat => ?_
  cases hlater : svc.signer.verify at₂ StandardClaims.deserialize token bearerValidation with
  | error e => exact late_fail nofun
  | ok claims =>
      rw [verify_earlier laws hkey rfl rfl hat hlater]
      dsimp only
      cases K.parseUuid claims.jti with
      | none => exact late_fail nofun
      | some jti =>
          refine precludes_lookup nofun (fun _ => nofun) (fun _ => nofun) ?_
          cases claims.sub with
          | none => exact late_fail nofun
          | some sub => exact .early nofun

/-- A token that cannot be revoked stays so, for the reasons that do not go away. -/
theorem revoke_precludes (laws : DecodeLaws K) (token : K.Token) (reason : Option String)
    (hkey : svc.signer.NamesItsKey token) :
    Precludes (Genuine svc) LaterAnswer
      (fun x => Rejected (.revoke token reason) (wrapped Response.revoked x))
      (fun y => Granted (.revoke token reason) (wrapped Response.revoked y))
      (svc.revoke token reason) (svc.revoke token reason) := by
  unfold revoke
  refine precludes_now fun at₁ at₂ hat => ?_
  cases hlater : svc.signer.verify at₂ StandardClaims.deserialize token permissiveValidation with
  | error e => exact late_fail nofun
  | ok claims =>
      rw [verify_earlier laws hkey rfl rfl hat hlater]
      dsimp only
      cases K.parseUuid claims.jti with
      | none => exact late_fail nofun
      | some jti =>
          dsimp only
          cases DateTime.fromTimestamp claims.exp with
          | none => exact late_fail nofun
          | some exp =>
              -- From here on only the database can fail.
              refine .early (Under.call_bind fun rows _ => ?_)
              cases rows <;> nofun

/-- The results that are no refusal for good. -/
def NotForGood {α : Type} (x : Except Fault α) : Prop :=
  (∀ m, x ≠ .error (.err (.badRequest m))) ∧ ∀ m, x ≠ .error (.err (.unprocessable m))

/-- A failing database is no reason for good. -/
theorem notForGood_sql {α β : Type} {r : Sql α} {f : α → Action K β}
    (h : ∀ a, (f a).Under (S := jwtSig K) (Genuine svc) NotForGood) :
    (sql r >>= f).Under (S := jwtSig K) (Genuine svc) NotForGood := by
  cases r with
  | ok a => exact h a
  | error e => exact ⟨nofun, nofun⟩

/-- Inside its transaction `extend` refuses nothing, as long as the old expiry is in range. -/
theorem extendTx_passes (old claims : StandardClaims) (anc : Ancestor) (oldJti newJti : Uuid)
    (now newExp : DateTime) {oldExp : DateTime}
    (hexp : DateTime.fromTimestamp old.exp = some oldExp) :
    (svc.extendTx old claims anc oldJti newJti now newExp).Under (S := jwtSig K) (Genuine svc)
      NotForGood := by
  unfold extendTx
  rw [hexp]
  refine Under.call_bind fun id _ => Under.call_bind fun inserted _ => notForGood_sql fun _ => ?_
  exact Under.call_bind fun denied _ => notForGood_sql fun _ => ⟨nofun, nofun⟩

/-- When it is not, the transaction does not end well. -/
theorem extendTx_fails (old claims : StandardClaims) (anc : Ancestor) (oldJti newJti : Uuid)
    (now newExp : DateTime) (hexp : DateTime.fromTimestamp old.exp = none) :
    (svc.extendTx old claims anc oldJti newJti now newExp).Under (S := jwtSig K) (Genuine svc)
      fun x => ∃ f, x = .error f := by
  unfold extendTx
  rw [hexp]
  refine Under.call_bind fun id _ => Under.call_bind fun inserted _ => ?_
  cases inserted <;> exact ⟨_, rfl⟩

/-- A transaction that stops is rolled back, and its error goes through. -/
theorem under_orRollback_bind {α β : Type} {p : Action K α} {f : α → Action K β}
    {ψ : Except Fault α → Prop} {ψ' : Except Fault β → Prop}
    (hp : p.Under (S := jwtSig K) (Genuine svc) ψ)
    (hok : ∀ a, ψ (.ok a) → (f a).Under (S := jwtSig K) (Genuine svc) ψ')
    (herr : ∀ e, ψ (.error e) → ψ' (.error e)) :
    (orRollback p >>= f).Under (S := jwtSig K) (Genuine svc) ψ' := by
  refine Under.bind (ψ := ψ) (hp.handle fun x hx => ?_) hok herr
  cases x with
  | ok a => exact hx
  | error e => exact fun _ _ => hx

/-- The part of `extend` after its checks, with the lifetime `minutes`. -/
theorem extend_rest {ψ : Except Fault (TokenResponse K) → Prop} (old : StandardClaims)
    (anc : Ancestor) (oldJti : Uuid) (now : DateTime) (minutes : Int64)
    {ψtx : Except Fault Unit → Prop} (hpanic : ψ (.error .panic))
    (hcrypto : ∀ m, ψ (.error (.err (.crypto m)))) (hdb : ∀ e, ψ (.error (.err (.database e))))
    (htx : ∀ claims newJti newExp, (svc.extendTx old claims anc oldJti newJti now newExp).Under
      (S := jwtSig K) (Genuine svc) ψtx)
    (hok : ∀ r, ψtx (.ok ()) → ψ (.ok r)) (herr : ∀ e, ψtx (.error e) → ψ (.error e)) :
    (do
      let newExp ← addMinutes now minutes
      let newJti ← call .newUuid
      let claims := svc.extendClaims old newJti now newExp
      match ← call (.sign claims) with
      | .error e => fail e
      | .ok token =>
          let () ← sql (← call .begin)
          let () ← orRollback (svc.extendTx old claims anc oldJti newJti now newExp)
          let () ← sql (← call .commit)
          return {
            status := "extended"
            jwtName := anc.jwtName.getD "EXTENDED_TOKEN"
            token
            expiresAt := newExp } : Action K (TokenResponse K)).Under (S := jwtSig K) (Genuine svc)
      ψ := by
  rw [addMinutes_eq]
  cases plusMinutes now minutes with
  | none => exact hpanic
  | some newExp =>
      refine Under.call_bind fun newJti _ => Under.call_bind fun signed hsigned => ?_
      cases signed with
      | error e =>
          have hsign : svc.signer.sign _ = .error e := hsigned.symm
          unfold JwtSigner.sign at hsign
          split at hsign
          · cases hsign
          · cases hsign
            exact hcrypto _
      | ok token =>
          refine Under.call_bind fun begun _ => ?_
          cases begun with
          | error e => exact hdb e
          | ok _ =>
              refine under_orRollback_bind (htx _ newJti newExp) (fun _ hx => ?_) herr
              refine Under.call_bind fun committed _ => ?_
              cases committed with
              | error e => exact hdb e
              | ok _ => exact hok _ hx

/-- A token that is refused an extension stays so, for the reasons that do not go away. -/
theorem extend_precludes (laws : DecodeLaws K) (req : ExtendRequest K)
    (hkey : svc.signer.NamesItsKey req.token) :
    Precludes (Genuine svc) LaterAnswer
      (fun x => Rejected (.extend req) (wrapped Response.token x))
      (fun y => Granted (.extend req) (wrapped Response.token y)) (svc.extend req)
      (svc.extend req) := by
  unfold extend
  refine precludes_now fun at₁ at₂ hat => ?_
  cases hlater : svc.signer.verify at₂ StandardClaims.deserialize req.token
      permissiveValidation with
  | error e => exact late_fail nofun
  | ok old =>
      rw [verify_earlier laws hkey rfl rfl hat hlater]
      refine precludes_now fun now₁ now₂ hnow => ?_
      by_cases hexp : old.exp < now₂.timestamp
      · rw [if_pos hexp]
        exact late_fail nofun
      · have hexp₁ : ¬ old.exp < now₁.timestamp := fun h => hexp (expired_later hnow h)
        rw [if_neg hexp, if_neg hexp₁]
        cases K.parseUuid old.jti with
        | none => exact late_fail nofun
        | some oldJti =>
            refine precludes_lookup nofun (fun _ => nofun) (fun _ => nofun) ?_
            refine Precludes.both (S := jwtSig K) (Op.selectChain oldJti) fun r r' _ => ?_
            cases r' with
            | error e => exact late_fail nofun
            | ok found' =>
                cases r with
                | error e => exact .early nofun
                | ok found =>
                    by_cases hmin : req.expirationInMinutes.getD 60 ≤ 0
                    · exact .late (by simp only [if_pos hmin]; exact nofun)
                    · cases hold : DateTime.fromTimestamp old.exp with
                      | none =>
                          -- No later transaction can end well.
                          refine .late ?_
                          simp only [if_neg hmin]
                          exact extend_rest old _ oldJti now₂ _ nofun (fun _ => nofun)
                            (fun _ => nofun)
                            (fun claims newJti newExp =>
                              extendTx_fails old claims _ oldJti newJti now₂ newExp hold)
                            (fun _ h => absurd h nofun) fun _ _ => nofun
                      | some oldExp =>
                          -- The first run refuses nothing any more.
                          refine .early ?_
                          simp only [if_neg hmin]
                          have hpass : ∀ x : Except Fault (TokenResponse K), NotForGood x →
                              ¬ Rejected (.extend req) (wrapped Response.token x) := by
                            intro x hx hrej
                            cases x with
                            | ok r => exact hrej
                            | error f =>
                                cases f with
                                | panic => exact hrej
                                | err e =>
                                    cases e with
                                    | badRequest m => exact hx.1 m rfl
                                    | unprocessable m => exact hx.2 m rfl
                                    | _ => exact hrej
                          refine Under.mono (ψ := NotForGood) ?_ hpass
                          exact extend_rest old _ oldJti now₁ _ ⟨nofun, nofun⟩
                            (fun _ => ⟨nofun, nofun⟩) (fun _ => ⟨nofun, nofun⟩)
                            (fun claims newJti newExp =>
                              extendTx_passes old claims _ oldJti newJti now₁ newExp hold)
                            (fun _ _ => ⟨nofun, nofun⟩) fun e he => ⟨by
                              rintro m heq
                              cases heq
                              exact he.1 m rfl, by
                              rintro m heq
                              cases heq
                              exact he.2 m rfl⟩

/-- A request that is refused for good cannot be granted by a later run of the same program. -/
theorem program_precludes (laws : DecodeLaws K) (req : Request K)
    (hkey : ∀ token, presentedToken req = some token → svc.signer.NamesItsKey token) :
    Precludes (Genuine svc) LaterAnswer (Rejected req) (Granted req) (svc.program req)
      (svc.program req) := by
  cases req with
  | validate req => exact (validate_precludes laws req (hkey _ rfl)).wrap
  | introspect req => exact (introspect_precludes laws req (hkey _ rfl)).wrap
  | authenticateBearer token => exact (authenticateBearer_precludes laws token (hkey _ rfl)).wrap
  | extend req => exact (extend_precludes laws req (hkey _ rfl)).wrap
  | revoke token reason => exact (revoke_precludes laws token reason (hkey _ rfl)).wrap
  | generate | revokeByJti | bulkRevoke | listForSubject =>
      exact .early (Under.mono (S := jwtSig K) (ψ := fun _ => True)
        (under_any (S := jwtSig K) (Genuine svc) _) fun x _ => not_rejected rfl x)

end JwtService

/-- A refusal is final. Once a request has been refused for the token it presents or for its own
parameters, no request of the same kind that starts afterwards accepts the token, whatever else
runs before, between and after the two. -/
theorem refusal_final (laws : DecodeLaws K) {svc : JwtService K}
    {P P' : JwtPool svc → Label (jwtMachine svc.signer) (Request K) → Prop} {s₀ : Store}
    {c₁ c₂ : JwtPool svc} (h₁ : JwtReach svc P s₀ c₁) (h₂ : Pool.Reach svc.program P' c₁ c₂)
    {tid₁ tid₂ : Nat} {t₁ t₂ : Task (jwtSig K) Fault (Response K) (Request K)}
    {x₁ x₂ : Except Fault (Response K)} (ht₁ : c₁.tasks[tid₁]? = some t₁)
    (hx₁ : t₁.result = some x₁) (hrejected : Rejected t₁.req x₁)
    (ht₂ : c₂.tasks[tid₂]? = some t₂) (hx₂ : t₂.result = some x₂)
    (hlate : c₁.tasks.length ≤ tid₂) (hsame : t₂.req = t₁.req)
    (hkey : ∀ token, presentedToken t₁.req = some token → svc.signer.NamesItsKey token) :
    ¬ Granted t₂.req x₂ := by
  have hany : JwtReach svc Pool.Any s₀ c₂ :=
    (h₁.mono fun _ _ _ => trivial).trans (h₂.mono fun _ _ _ => trivial)
  rw [hsame]
  refine h₁.precludes h₂ (genuine hany) (answers_later hany) ht₁ hx₁ ht₂ hx₂ hlate ?_ hrejected
  rw [hsame]
  exact JwtService.program_precludes laws t₁.req hkey

namespace Symbolic

/-- The token is found revoked by task 3, and the same request starts again as task 4. -/
def foundInactive (t : Task (jwtSig symbolic) Fault (Response symbolic) (Request symbolic)) :
    Bool :=
  match t.req, t.result with
  | .validate _, some (.ok (.validate r)) => !r.active
  | _, _ => false

/-- The pool with the request of the task started once more. -/
def startAgain (c : JwtPool service)
    (t : Task (jwtSig symbolic) Fault (Response symbolic) (Request symbolic)) : JwtPool service :=
  { c with tasks := c.tasks ++ [⟨t.req, some (service.program t.req)⟩] }

/-- A validation by task 3, after the extension of the token. -/
def rejectedRun : List RunLabel :=
  extendRevokeRun
    ++ [.spawn (.validate ⟨token, none, none⟩), .step 3 .go, .step 3 .go, .step 3 .go]

/-- A task that the test takes for one with a rejected token is one. -/
theorem rejected_of_foundInactive
    {t : Task (jwtSig symbolic) Fault (Response symbolic) (Request symbolic)}
    (h : foundInactive t = true) : ∃ x, t.result = some x ∧ Rejected t.req x
      ∧ ∀ token, presentedToken t.req = some token → service.signer.NamesItsKey token := by
  unfold foundInactive at h
  split at h
  · rename_i req r hreq hres
    refine ⟨_, hres, ?_, fun token _ prev hd hprev => ?_⟩
    · rw [hreq]
      exact (Bool.not_eq_true' _).mp h
    · cases hprev
  · cases h

end Symbolic

open Symbolic in
/-- After the extension of a token, task 3 finds it revoked, and the same request that starts
afterwards does not accept it. -/
theorem refusal_final_extended :
    ∃ (c₁ c₂ : JwtPool service) (t₁ t₂ : Task (jwtSig symbolic) Fault (Response symbolic)
        (Request symbolic)) (x₂ : Except Fault (Response symbolic)),
      c₁.tasks[3]? = some t₁ ∧ foundInactive t₁ = true ∧ Pool.Reach service.program Pool.Any c₁ c₂
      ∧ c₂.tasks[4]? = some t₂ ∧ t₂.result = some x₂ ∧ ¬ Granted t₂.req x₂ := by
  let steps : List RunLabel := [.step 4 .go, .step 4 .go, .step 4 .go]
  let done : JwtPool service → Bool := fun c => c.tasks[4]?.any fun t => t.result.isSome
  obtain ⟨c₁, h₁, hq⟩ := Pool.exists_reach service.program (fun _ _ => true)
    (fun c : JwtPool service => decide (c.tasks.length = 4) && c.tasks[3]?.any fun t =>
      foundInactive t
        && (Pool.run service.program (fun _ _ => true) (startAgain c t) steps).any done)
    (Pool.init store) rejectedRun (by decide +kernel)
  simp only [Bool.and_eq_true, decide_eq_true_eq] at hq
  obtain ⟨hlen, hany⟩ := hq
  obtain ⟨t₁, ht₁, hboth⟩ := (Option.any_eq_true _ _).mp hany
  simp only [Bool.and_eq_true] at hboth
  obtain ⟨hfound, hrun⟩ := hboth
  obtain ⟨x₁, hx₁, hrej, hkey⟩ := rejected_of_foundInactive hfound
  have hspawn : Pool.Reach service.program Pool.Any c₁ (startAgain c₁ t₁) :=
    .tail (.spawn t₁.req) .refl trivial rfl
  obtain ⟨c₂, h₂, hdone⟩ := Pool.exists_reach service.program (fun _ _ => true) done
    (startAgain c₁ t₁) steps hrun
  have h₂' : Pool.Reach service.program Pool.Any (startAgain c₁ t₁) c₂ :=
    h₂.mono fun _ _ _ => trivial
  obtain ⟨t₂, ht₂, hres⟩ := (Option.any_eq_true _ _).mp hdone
  obtain ⟨x₂, hx₂⟩ := Option.isSome_iff_exists.mp hres
  have hnew : (startAgain c₁ t₁).tasks[4]? = some ⟨t₁.req, some (service.program t₁.req)⟩ := by
    simp [startAgain, ← hlen]
  obtain ⟨t, ht, hreq, -⟩ := h₂'.task_persists hnew
  have hsame : t = t₂ := Option.some.inj (ht.symm.trans ht₂)
  have h₁' : JwtReach service Pool.Any store c₁ := h₁.mono fun _ _ _ => trivial
  exact ⟨c₁, c₂, t₁, t₂, x₂, ht₁, hfound, hspawn.trans h₂', ht₂, hx₂,
    refusal_final symbolic_decode h₁' (hspawn.trans h₂') ht₁ hx₁ hrej ht₂ hx₂
      (Nat.le_of_eq hlen) (hsame ▸ hreq) hkey⟩

end Tim
