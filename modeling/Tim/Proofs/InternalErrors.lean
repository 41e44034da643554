import Tim.Proofs.Gates

/-!
# `Tim.Proofs.InternalErrors`: where the text of an internal error can go

A `Database`, `Crypto`, `Config` or `Io` error carries a text that no client should see. Two
runs of one request are compared whose answers differ in such texts only (`SameAnswer`).

Every function of the token service and of the OAuth2 flow that a route calls is `Steady`: its
two results agree but for such a text. `intoResponse` drops the text, so the replies are equal.
The one exception is `bulk_revoke`, which writes the `Display` of a failed item's error into its
own answer. `internal_text_hidden` says exactly when that shows.

* `Alike.intoResponse_eq`: the replies to two errors that differ in an internal text are equal.
* `handler_steady`, `serve_steady`: every route but the exposing one.
* `serve_outage_ne`: a batch of that route during two outages.
-/

set_option autoImplicit false

namespace Tim.Web

open Tim.Lib Tim.Lib.Prog

/-! ### Answers and results that differ in internal texts only -/

/-- The errors are the same but for the text of an internal one. -/
def Alike : TimError → TimError → Prop
  | .database _, .database _ | .crypto _, .crypto _ | .config _, .config _ | .io _, .io _ => True
  | e, e' => e = e'

/-- Errors that a client cannot tell apart are equal, or of one internal kind with different texts.
-/
theorem Alike.cases {e e' : TimError} (h : Alike e e') :
    e = e' ∨ ∃ m m', e = .database m ∧ e' = .database m' ∨ e = .crypto m ∧ e' = .crypto m'
      ∨ e = .config m ∧ e' = .config m' ∨ e = .io m ∧ e' = .io m' := by
  unfold Alike at h
  split at h
  · exact .inr ⟨_, _, .inl ⟨rfl, rfl⟩⟩
  · exact .inr ⟨_, _, .inr (.inl ⟨rfl, rfl⟩)⟩
  · exact .inr ⟨_, _, .inr (.inr (.inl ⟨rfl, rfl⟩))⟩
  · exact .inr ⟨_, _, .inr (.inr (.inr ⟨rfl, rfl⟩))⟩
  · exact .inl h

/-- The reply to an internal error does not show its text. -/
theorem Alike.intoResponse_eq {K : WebCrates} {e e' : TimError} (h : Alike e e') :
    (intoResponse e : Reply K) = intoResponse e' := by
  rcases h.cases with rfl | ⟨m, m', ⟨rfl, rfl⟩ | ⟨rfl, rfl⟩ | ⟨rfl, rfl⟩ | ⟨rfl, rfl⟩⟩ <;> rfl

/-- An error cannot be told from itself. -/
theorem Alike.refl (e : TimError) : Alike e e := by
  cases e <;> trivial

/-- Results that agree but for the text of an internal error. -/
def AlikeResult {α : Type} : Except TimError α → Except TimError α → Prop
  | .ok a, .ok b => a = b
  | .error e, .error e' => Alike e e'
  | _, _ => False

/-- The same for results: equal values, or errors that cannot be told apart. -/
theorem AlikeResult.cases {α : Type} {r r' : Except TimError α} (h : AlikeResult r r') :
    (∃ a, r = .ok a ∧ r' = .ok a) ∨ ∃ e e', r = .error e ∧ r' = .error e' ∧ Alike e e' := by
  match r, r', h with
  | .ok a, .ok _, rfl => exact .inl ⟨a, rfl, rfl⟩
  | .error e, .error e', hee => exact .inr ⟨e, e', rfl, rfl, hee⟩

/-- Answers to a statement that agree but for the text of a `sqlx` error. -/
def AlikeSql {α : Type} : Except String α → Except String α → Prop
  | .ok a, .ok b => a = b
  | .error _, .error _ => True
  | _, _ => False

/-- The results of a service agree but for the text of an internal error. -/
def SameOutcome {α : Type} : Except Fault α → Except Fault α → Prop
  | .ok a, .ok b => a = b
  | .error (.err e), .error (.err e') => Alike e e'
  | .error .panic, .error .panic => True
  | _, _ => False

/-- An outcome cannot be told from itself. -/
theorem SameOutcome.refl {α : Type} (x : Except Fault α) : SameOutcome x x := by
  cases x with
  | ok a => rfl
  | error f =>
      cases f with
      | err e => exact Alike.refl e
      | panic => trivial

/-! ### The token service -/

section Jwt

variable {K : Crates} {α β : Type}

/-- The answers to a call of the token service agree but for internal texts. -/
def JwtAnswer : (o : Op) → Resp K o → Resp K o → Prop
  | .now, r, r' | .newUuid, r, r' | .rollback, r, r' => r = r'
  | .sign _, r, r' => AlikeResult r r'
  | .selectDenylist _, r, r' | .selectDenylistEntry _, r, r' | .selectExpiresAt _, r, r'
  | .selectChain _, r, r' | .selectTokens .., r, r' | .countTokens .., r, r' | .begin, r, r'
  | .insertMetadata .., r, r' | .insertDenylist .., r, r' | .commit, r, r' => AlikeSql r r'

/-- Two runs of the program whose answers agree but for internal texts have results that agree
but for internal texts. -/
def Steady (p : Action K α) : Prop := Twin (S := jwtSig K) JwtAnswer SameOutcome p p

/-- A result does not depend on a text of an error. -/
theorem steady_ret (a : α) : Steady (.ret a : Action K α) := .ret rfl

/-- Neither does an error that the operation itself raises. -/
theorem steady_fail (e : TimError) : Steady (Action.fail e : Action K α) := .raise (Alike.refl e)

/-- Two steady operations in a row. -/
theorem steady_bind {p : Action K α} {f : α → Action K β} (hp : Steady p)
    (hf : ∀ a, Steady (f a)) : Steady (p >>= f) := by
  refine Twin.handle hp fun x y hxy => ?_
  match x, y, hxy with
  | .ok a, .ok _, rfl => exact hf a
  | .error (.err e), .error (.err e'), hee => exact .raise hee
  | .error .panic, .error .panic, _ => exact .raise trivial

/-- The `?` on an answer hides nothing but the text. -/
theorem steady_sql {r r' : Sql α} {f : α → Action K β} (hr : AlikeSql r r')
    (hf : ∀ a, Steady (f a)) :
    Twin (S := jwtSig K) JwtAnswer SameOutcome (Action.sql r >>= f) (Action.sql r' >>= f) := by
  match r, r', hr with
  | .ok a, .ok _, rfl => exact hf a
  | .error e, .error e', _ => exact .raise trivial

/-- The clock gives no text. -/
theorem steady_now {f : DateTime → Action K β} (hf : ∀ t, Steady (f t)) :
    Steady (Action.call .now >>= f) := by
  refine .op _ _ _ fun t t' ht => ?_
  cases ht
  exact hf t

/-- A UUID is no text of an error. -/
theorem steady_newUuid {f : Uuid → Action K β} (hf : ∀ u, Steady (f u)) :
    Steady (Action.call .newUuid >>= f) := by
  refine .op _ _ _ fun u u' hu => ?_
  cases hu
  exact hf u

/-- A failing lookup stops the operation with an error of the same kind. -/
theorem steady_lookup {jti : Uuid} {f : Bool → Action K β} (hf : ∀ b, Steady (f b)) :
    Steady (JwtService.denylistLookup jti >>= f) :=
  .op _ _ _ fun _ _ hr => steady_sql hr hf

/-- The addition makes no call. -/
theorem steady_addMinutes {now : DateTime} {m : Int64} {f : DateTime → Action K β}
    (hf : ∀ t, Steady (f t)) : Steady (addMinutes now m >>= f) := by
  rw [addMinutes_eq]
  cases plusMinutes now m with
  | none => exact .raise trivial
  | some t => exact hf t

variable (svc : JwtService K)

/-- The texts of the database do not decide what `generate` answers. -/
theorem generate_steady (req : GenerateRequest) : Steady (svc.generate req) := by
  unfold JwtService.generate
  split
  · exact steady_fail _
  · split
    · exact steady_fail _
    · split
      · exact steady_fail _
      · refine steady_newUuid fun jti => steady_now fun now => steady_addMinutes fun exp => ?_
        refine .op _ _ _ fun r r' hr => ?_
        rcases hr.cases with ⟨token, rfl, rfl⟩ | ⟨e, e', rfl, rfl, hee⟩
        · refine steady_newUuid fun id => .op _ _ _ fun r r' hr => ?_
          exact steady_sql hr fun _ => steady_ret _
        · exact .raise hee

/-- Nor what `validate` answers. -/
theorem validate_steady (req : ValidateRequest K) : Steady (svc.validate req) := by
  unfold JwtService.validate
  refine steady_now fun at_ => ?_
  split
  · exact steady_ret _
  · refine steady_now fun now => ?_
    split
    · exact steady_ret _
    · split
      · exact steady_ret _
      · split
        · exact steady_ret _
        · split
          · exact steady_ret _
          · split
            · exact steady_fail _
            · refine steady_lookup fun denied => ?_
              cases denied <;> exact steady_ret _

/-- Nor what becomes of a bearer token. -/
theorem authenticateBearer_steady (token : K.Token) : Steady (svc.authenticateBearer token) := by
  unfold JwtService.authenticateBearer
  refine steady_now fun at_ => ?_
  split
  · exact steady_fail _
  · rename_i claims _
    split
    · exact steady_fail _
    · refine steady_lookup fun denied => ?_
      cases denied with
      | true => exact steady_fail _
      | false =>
          cases claims.sub with
          | some sub => exact steady_ret _
          | none => exact steady_fail _

/-- Nor what `introspect` answers. -/
theorem introspect_steady (req : IntrospectRequest K) : Steady (svc.introspect req) := by
  unfold JwtService.introspect
  refine steady_now fun at_ => ?_
  split
  · exact steady_ret _
  · split
    · exact steady_ret _
    · refine steady_now fun now => ?_
      split
      · exact steady_ret _
      · split
        · exact steady_ret _
        · refine steady_lookup fun denied => ?_
          cases denied <;> exact steady_ret _

/-- Nor what `revoke` answers. A batch is another matter, see `bulkRevokeLoop_answer`. -/
theorem revoke_steady (token : K.Token) (reason : Option String) :
    Steady (svc.revoke token reason) := by
  unfold JwtService.revoke
  refine steady_now fun at_ => ?_
  split
  · exact steady_fail _
  · split
    · exact steady_fail _
    · split
      · exact steady_fail _
      · exact .op _ _ _ fun r r' hr => steady_sql hr fun _ => steady_ret _

/-- Nor what a revocation by jti answers. -/
theorem revokeByJti_steady (jti : Uuid) (reason : Option String) :
    Steady (JwtService.revokeByJti jti reason : Action K _) := by
  unfold JwtService.revokeByJti
  refine .op _ _ _ fun r r' hr => steady_sql hr fun row => ?_
  cases row with
  | none => exact steady_ret _
  | some exp => exact .op _ _ _ fun r r' hr => steady_sql hr fun _ => steady_ret _

/-- Nor how the transaction of `extend` ends. -/
theorem extendTx_steady (old claims : StandardClaims) (anc : JwtService.Ancestor)
    (oldJti newJti : Uuid) (now newExp : DateTime) :
    Steady (svc.extendTx old claims anc oldJti newJti now newExp) := by
  unfold JwtService.extendTx
  refine steady_newUuid fun id => .op _ _ _ fun r r' hr => steady_sql hr fun _ => ?_
  split
  · exact steady_fail _
  · exact .op _ _ _ fun r r' hr => steady_sql hr fun _ => steady_ret _

/-- The rollback does not look at the error. -/
theorem steady_orRollback {p : Action K α} (hp : Steady p) : Steady (Action.orRollback p) := by
  refine Twin.handle hp fun x y hxy => ?_
  match x, y, hxy with
  | .ok a, .ok _, rfl => exact steady_ret a
  | .error (.err e), .error (.err e'), hee => exact .op _ _ _ fun _ _ _ => .raise hee
  | .error .panic, .error .panic, _ => exact .op _ _ _ fun _ _ _ => .raise trivial

/-- Nor what `extend` answers. -/
theorem extend_steady (req : ExtendRequest K) : Steady (svc.extend req) := by
  unfold JwtService.extend
  refine steady_now fun at_ => ?_
  split
  · exact steady_fail _
  · refine steady_now fun now => ?_
    split
    · exact steady_fail _
    · split
      · exact steady_fail _
      · refine steady_lookup fun denied => ?_
        cases denied with
        | true => exact steady_fail _
        | false =>
            refine .op _ _ _ fun r r' hr => steady_sql hr fun row => ?_
            dsimp only
            split
            · exact steady_fail _
            · refine steady_addMinutes fun newExp => steady_newUuid fun newJti => ?_
              refine .op _ _ _ fun r r' hr => ?_
              rcases hr.cases with ⟨token, rfl, rfl⟩ | ⟨e, e', rfl, rfl, hee⟩
              · refine .op _ _ _ fun r r' hr => steady_sql hr fun _ => ?_
                refine steady_bind (steady_orRollback (extendTx_steady svc _ _ _ _ _ _ _))
                  fun _ => ?_
                exact .op _ _ _ fun r r' hr => steady_sql hr fun _ => steady_ret _
              · exact .raise hee

/-- Nor what the loop of a listing answers, by induction on the rows. -/
theorem listLoop_steady (now : DateTime) (rows : List MetadataRow) (acc : List TokenSummary) :
    Steady (JwtService.listLoop now rows acc : Action K _) := by
  induction rows generalizing acc with
  | nil => exact steady_ret _
  | cons row rows ih =>
      unfold JwtService.listLoop JwtService.denylistEntry
      refine steady_bind (.op _ _ _ fun r r' hr => steady_sql hr fun entry => ?_) fun entry => ih _
      cases entry <;> exact steady_ret _

/-- Nor what a listing answers. -/
theorem listForSubject_steady (subject : String) (req : ListRequest) :
    Steady (JwtService.listForSubject subject req : Action K _) := by
  unfold JwtService.listForSubject
  refine .op _ _ _ fun r r' hr => steady_sql hr fun rows => ?_
  refine .op _ _ _ fun r r' hr => steady_sql hr fun count => ?_
  refine steady_now fun now => ?_
  exact steady_bind (listLoop_steady now rows []) fun _ => steady_ret _

/-! ### `bulk_revoke` -/

/-- At the instant, `revoke` gets as far as its statement: the token verifies, its jti is a UUID
and its `exp` is in range. -/
def Revocable (at_ : DateTime) (token : K.Token) : Prop :=
  ∃ claims jti exp,
    svc.signer.verify at_ StandardClaims.deserialize token permissiveValidation = .ok claims
    ∧ K.parseUuid claims.jti = some jti ∧ DateTime.fromTimestamp claims.exp = some exp

/-- A token that is never revocable costs one look at the clock. -/
theorem revoke_quiet {token : K.Token} (reason : Option String)
    (hno : ∀ at_, ¬ Revocable svc at_ token) :
    (svc.revoke token reason).Meets (S := jwtSig K) (fun o => o = Op.now) (fun _ => True) := by
  unfold JwtService.revoke
  refine Meets.call_bind rfl fun at_ => ?_
  split
  · exact trivial
  · rename_i claims hverify
    split
    · exact trivial
    · rename_i jti hjti
      split
      · exact trivial
      · rename_i exp hexp
        exact absurd ⟨claims, jti, exp, hverify, hjti, hexp⟩ (hno at_)

/-- A batch without a revocable token is steady. -/
theorem bulkRevoke_steady {req : BulkRevokeRequest K}
    (hno : ∀ tok ∈ req.tokens, ∀ at_, ¬ Revocable svc at_ tok) : Steady (svc.bulkRevoke req) := by
  unfold JwtService.bulkRevoke
  split
  · exact steady_fail _
  · split
    · exact steady_fail _
    · have hquiet := svc.bulkRevokeLoop_meets req.reason req.tokens ⟨0, 0, 0, []⟩ fun tok htok =>
        revoke_quiet svc req.reason (hno tok htok)
      refine (Twin.of_exact hquiet ?_).mono ?_
      · rintro o rfl r r' hr
        exact hr
      · rintro x y ⟨rfl, -⟩
        exact .refl x

/-- Every statement fails with the text. -/
def failing (K : Crates) (at_ : DateTime) (text : String) : (o : Op) → Resp K o
  | .now => at_
  | .newUuid => ⟨0⟩
  | .sign _ => .error .unauthorized
  | .selectDenylist _ => .error text
  | .selectDenylistEntry _ => .error text
  | .selectExpiresAt _ => .error text
  | .selectChain _ => .error text
  | .selectTokens .. => .error text
  | .countTokens .. => .error text
  | .begin => .error text
  | .insertMetadata .. => .error text
  | .insertDenylist .. => .error text
  | .commit => .error text
  | .rollback => ()

/-- Two databases that fail with different texts are two environments of that kind. -/
theorem failing_alike (at_ : DateTime) (text text' : String) (o : Op) :
    JwtAnswer o (failing K at_ text o) (failing K at_ text' o) := by
  cases o <;> trivial

/-- The error of `revoke` when its statement fails with the text. -/
def revokeError (at_ : DateTime) (text : String) (token : K.Token) : TimError :=
  match svc.signer.verify at_ StandardClaims.deserialize token permissiveValidation with
  | .error _ => .badRequest "token signature invalid; nothing to revoke"
  | .ok claims =>
      match K.parseUuid claims.jti with
      | none => .badRequest "token jti is not a UUID"
      | some _ =>
          match DateTime.fromTimestamp claims.exp with
          | none => .badRequest "token exp out of range"
          | some _ => .database text

/-- With a failing database, a revocation fails with its text. -/
theorem revoke_answer (at_ : DateTime) (text : String) (token : K.Token)
    (reason : Option String) :
    (svc.revoke token reason).answer (S := jwtSig K) (failing K at_ text)
      = .error (.err (revokeError svc at_ text token)) := by
  show (match svc.signer.verify at_ StandardClaims.deserialize token permissiveValidation with
    | .error _ => _
    | .ok claims => _ : Action K Bool).answer (S := jwtSig K) (failing K at_ text) = _
  unfold revokeError
  cases svc.signer.verify at_ StandardClaims.deserialize token permissiveValidation with
  | error e => rfl
  | ok claims =>
      dsimp only
      cases K.parseUuid claims.jti with
      | none => rfl
      | some jti =>
          dsimp only
          cases DateTime.fromTimestamp claims.exp with
          | none => rfl
          | some exp => rfl

/-- The item of a token whose revocation has failed. -/
def failedItem (at_ : DateTime) (text : String) (token : K.Token) : BulkRevokeItem K :=
  ⟨token, "failed", some (revokeError svc at_ text token).display⟩

/-- The item of a revocable token tells the text apart. -/
theorem failedItem_ne {at_ : DateTime} {text text' : String} {token : K.Token}
    (hrev : Revocable svc at_ token) (hne : text ≠ text') :
    failedItem svc at_ text token ≠ failedItem svc at_ text' token := by
  obtain ⟨claims, jti, exp, hverify, hjti, hexp⟩ := hrev
  have herr : ∀ t, revokeError svc at_ t token = .database t := by
    intro t
    unfold revokeError
    rw [hverify]
    show (match K.parseUuid claims.jti with | none => _ | some _ => _) = _
    rw [hjti]
    show (match DateTime.fromTimestamp claims.exp with | none => _ | some _ => _) = _
    rw [hexp]
  intro hitem
  have hdisplay : (revokeError svc at_ text token).display
      = (revokeError svc at_ text' token).display :=
    Option.some.inj (congrArg BulkRevokeItem.reason hitem)
  rw [herr, herr] at hdisplay
  exact hne ((String.append_right_inj _).mp hdisplay)

/-- With a failing database, the loop puts its text into the reply, once for each token. -/
theorem bulkRevokeLoop_answer (at_ : DateTime) (text : String) (reason : Option String)
    (toks : List K.Token) (acc : BulkRevokeResponse K) :
    (svc.bulkRevokeLoop reason toks acc).answer (S := jwtSig K) (failing K at_ text)
      = .ok { acc with
          failed := acc.failed + toks.length
          results := acc.results ++ toks.map (failedItem svc at_ text) } := by
  induction toks generalizing acc with
  | nil =>
      simp only [List.length_nil, Nat.add_zero, List.map_nil, List.append_nil]
      rfl
  | cons tok toks ih =>
      have hattempt : (Action.attempt (svc.revoke tok reason)).answer (S := jwtSig K)
          (failing K at_ text) = .ok (.error (revokeError svc at_ text tok)) := by
        refine (answer_handle _ _ _ _).trans ?_
        rw [revoke_answer]
        rfl
      refine (answer_handle _ _ _ _).trans ?_
      rw [hattempt]
      refine (ih _).trans ?_
      simp only [List.length_cons, List.map_cons, List.append_assoc, List.singleton_append,
        failedItem, Nat.add_assoc, Nat.add_comm 1]

end Jwt

/-! ### The OAuth2 flow -/

section Flow

open Tim.OAuth (Flow OAuthService OAuthCrates Provider Discovery IdTokenClaims oauthSig)

variable {α β : Type}

/-- The answers to a call of the flow agree but for internal texts. -/
def FlowAnswer : (o : OAuth.Op) → OAuth.Resp o → OAuth.Resp o → Prop
  | .insertState _, r, r' | .deleteState .., r, r' | .sweepState _, r, r' => AlikeSql r r'
  | .createSession _, r, r' => AlikeResult r r'
  | .now, r, r' | .fillBytes _, r, r' | .sleep _, r, r' | .buildClient, r, r'
  | .discoveryGet _, r, r' | .discoveryInsert .., r, r' | .jwksGet _, r, r'
  | .jwksInsert .., r, r' | .httpGet _, r, r' | .httpPost .., r, r' => r = r'

/-- The calls without an internal error. -/
def Exact : OAuth.Op → Prop
  | .insertState _ | .deleteState .. | .sweepState _ | .createSession _ => False
  | _ => True

/-- A call without an error text gives equal answers. -/
theorem eq_of_exact {o : OAuth.Op} (ho : Exact o) {r r' : OAuth.Resp o}
    (hr : FlowAnswer o r r') : r = r' := by
  cases o with
  | insertState | deleteState | sweepState | createSession => exact ho.elim
  | _ => exact hr

/-- Two runs of the flow whose answers agree but for internal texts have results that agree but
for internal texts. -/
def SteadyFlow (p : Flow α) : Prop := Twin (S := oauthSig) FlowAnswer SameOutcome p p

/-- A result does not depend on a text of an error. -/
theorem steadyFlow_ret (a : α) : SteadyFlow (.ret a : Flow α) := .ret rfl

/-- Neither does an error that the flow itself raises. -/
theorem steadyFlow_fail (e : TimError) : SteadyFlow (Flow.fail e : Flow α) :=
  .raise (Alike.refl e)

/-- A part of the flow whose calls have no error texts. -/
theorem steadyFlow_of_exact {p : Flow α} (hp : p.Meets (S := oauthSig) Exact (fun _ => True)) :
    SteadyFlow p := by
  refine (Twin.of_exact hp fun o ho r r' hr => eq_of_exact ho hr).mono ?_
  rintro x y ⟨rfl, -⟩
  exact .refl x

/-- Two steady parts of the flow in a row. -/
theorem steadyFlow_bind {p : Flow α} {f : α → Flow β} (hp : SteadyFlow p)
    (hf : ∀ a, SteadyFlow (f a)) : SteadyFlow (p >>= f) := by
  refine Twin.handle hp fun x y hxy => ?_
  match x, y, hxy with
  | .ok a, .ok _, rfl => exact hf a
  | .error (.err e), .error (.err e'), hee => exact .raise hee
  | .error .panic, .error .panic, _ => exact .raise trivial

/-- A call without an error text. -/
theorem steadyFlow_call {o : OAuth.Op} {f : OAuth.Resp o → Flow β} (ho : Exact o)
    (hf : ∀ r, SteadyFlow (f r)) : SteadyFlow (Flow.call o >>= f) := by
  refine .op _ _ _ fun r r' hr => ?_
  cases eq_of_exact ho hr
  exact hf r

/-- A statement that fails stops the flow with an error of the same kind. -/
theorem steadyFlow_sql {r r' : OAuth.Sql α} {f : α → Flow β} (hr : AlikeSql r r')
    (hf : ∀ a, SteadyFlow (f a)) :
    Twin (S := oauthSig) FlowAnswer SameOutcome (Flow.sql r >>= f) (Flow.sql r' >>= f) := by
  match r, r', hr with
  | .ok a, .ok _, rfl => exact hf a
  | .error e, .error e', _ => exact .raise trivial

/-- A check makes no call. -/
theorem steadyFlow_try {x : Except TimError α} {f : α → Flow β} (hf : ∀ a, SteadyFlow (f a)) :
    SteadyFlow (Flow.try_ x >>= f) := by
  cases x with
  | ok a => exact hf a
  | error e => exact steadyFlow_fail e

/-- Random bytes come without an error text. -/
theorem steadyFlow_randomHex {n : Nat} {f : String → Flow β} (hf : ∀ s, SteadyFlow (f s)) :
    SteadyFlow (OAuth.randomHex n >>= f) :=
  steadyFlow_call trivial fun b => hf (hexEncode b)

variable {K : OAuthCrates} (svc : OAuthService K)

/-- A discovery asks neither the database nor the session store, so it is steady. -/
theorem fetchWith_steady (url : String) (allowHttp : Bool) :
    SteadyFlow (svc.fetchWith url allowHttp) := by
  have hcalls : svc.DiscoveryCalls url allowHttp fun _ o => Exact o :=
    ⟨fun _ _ => trivial, fun _ _ => trivial, fun _ _ _ _ => trivial⟩
  have hspec := OAuthService.fetchWith_spec hcalls (h := []) trivial
  exact steadyFlow_of_exact (hspec.meets (fun _ _ ho => ho) fun _ _ _ => trivial)

/-- So is the verification of an ID token. -/
theorem verify_steady (discovery : Discovery) (provider : Provider)
    (idToken expectedNonce : String) :
    SteadyFlow (svc.verify discovery provider idToken expectedNonce) := by
  have hcalls : svc.JwksCalls discovery.jwksUri fun _ o => Exact o :=
    ⟨fun _ => trivial, fun _ _ => trivial, fun _ _ _ => trivial⟩
  refine steadyFlow_of_exact ?_
  exact (OAuthService.verify_spec hcalls (fun _ => trivial) []).meets (fun _ _ ho => ho)
    fun _ _ _ => trivial

/-- The texts of the database do not decide what a login answers. -/
theorem buildLoginUrl_steady (providerId redirectUri : String) :
    SteadyFlow (svc.buildLoginUrl providerId redirectUri) := by
  unfold OAuthService.buildLoginUrl
  split
  · exact steadyFlow_fail _
  · refine steadyFlow_bind (fetchWith_steady svc _ _) fun discovery => steadyFlow_try fun _ => ?_
    refine steadyFlow_randomHex fun state => steadyFlow_randomHex fun nonce => ?_
    refine steadyFlow_call trivial fun raw => .op _ _ _ fun r r' hr => ?_
    refine steadyFlow_sql hr fun _ => ?_
    split
    · exact steadyFlow_fail _
    · exact steadyFlow_ret _

/-- So is the token request. -/
theorem exchange_steady (provider : Provider) (endpoint : String)
    (form : List (String × String)) : SteadyFlow (svc.exchange provider endpoint form) := by
  unfold OAuthService.exchange
  split
  · exact steadyFlow_fail _
  · refine steadyFlow_call trivial fun r => ?_
    cases r with
    | error e =>
        dsimp only
        split
        · exact steadyFlow_fail _
        · exact steadyFlow_fail _
    | ok resp =>
        dsimp only
        split
        · exact steadyFlow_fail _
        · split
          · exact steadyFlow_fail _
          · exact steadyFlow_ret _

/-- The texts of the session store do not decide whether a session is opened. -/
theorem openSession_steady (providerId : String) (provider : Provider)
    (tokens : OAuth.TokenResponse) (claims : IdTokenClaims) :
    SteadyFlow (svc.openSession providerId provider tokens claims) := by
  unfold OAuthService.openSession OAuth.addSeconds
  refine steadyFlow_call trivial fun now => ?_
  split
  · exact .raise trivial
  · refine steadyFlow_randomHex fun id => .op _ _ _ fun r r' hr => ?_
    rcases hr.cases with ⟨a, rfl, rfl⟩ | ⟨e, e', rfl, rfl, hee⟩
    · exact steadyFlow_ret _
    · exact .raise hee

/-- Nor what a callback answers. -/
theorem completeCallback_steady (providerId code state : String) :
    SteadyFlow (svc.completeCallback providerId code state) := by
  unfold OAuthService.completeCallback
  split
  · exact steadyFlow_fail _
  · refine .op _ _ _ fun r r' hr => steadyFlow_sql hr fun row => ?_
    cases row with
    | none => exact steadyFlow_fail _
    | some row =>
        show SteadyFlow (OAuthService.redeem ..)
        unfold OAuthService.redeem
        refine steadyFlow_bind (fetchWith_steady svc _ _) fun discovery => ?_
        refine steadyFlow_try fun _ => steadyFlow_call trivial fun r => ?_
        cases r with
        | error e => exact steadyFlow_fail _
        | ok _ =>
            refine steadyFlow_bind (exchange_steady svc _ _ _) fun tokens => ?_
            split
            · exact steadyFlow_fail _
            · refine steadyFlow_bind (verify_steady svc _ _ _ _) fun claims => ?_
              exact openSession_steady svc _ _ _ _

/-- The same for the handler of the login. -/
theorem authLogin_steady (id : String) (redirectUri : Option String) :
    SteadyFlow (svc.authLogin id redirectUri) := by
  unfold OAuthService.authLogin
  split
  · exact steadyFlow_fail _
  · split
    · exact steadyFlow_fail _
    · exact buildLoginUrl_steady svc _ _

/-- The same for the handler of the callback. -/
theorem authCallback_steady (id : String) (q : OAuth.CallbackQuery) :
    SteadyFlow (svc.authCallback id q) := by
  unfold OAuthService.authCallback
  split
  · exact steadyFlow_ret _
  · split
    · exact steadyFlow_fail _
    · split
      · exact steadyFlow_fail _
      · exact steadyFlow_bind (completeCallback_steady svc _ _ _) fun _ => steadyFlow_ret _

end Flow

/-! ### The handlers -/

section Handlers

open Handler

variable {K : WebCrates} {α β : Type}

/-- The answers to a call of the server agree but for internal texts. -/
def SameAnswer : (o : WebOp) → WebResp K o → WebResp K o → Prop
  | .jwt o, r, r' => JwtAnswer o r r'
  | .oauth o, r, r' => FlowAnswer o r r'
  | .sessionGet _, r, r' => AlikeResult r r'
  | .sessionTouch _, r, r' => AlikeResult r r'
  | .sessionRevoke _, r, r' => AlikeResult r r'

/-- The results of a handler agree but for the text of an internal error. -/
def SameHalt : Except Halt α → Except Halt α → Prop
  | .ok a, .ok b => a = b
  | .error (.err e), .error (.err e') => Alike e e'
  | .error (.reject r), .error (.reject r') => r = r'
  | .error .panic, .error .panic => True
  | _, _ => False

/-- Two halts of a handler that a client cannot tell apart. -/
theorem SameHalt.cases {x y : Except Halt α} (h : SameHalt x y) :
    x = y ∨ ∃ e e', x = .error (.err e) ∧ y = .error (.err e') ∧ Alike e e' := by
  match x, y, h with
  | .ok a, .ok _, rfl => exact .inl rfl
  | .error (.err e), .error (.err e'), hee => exact .inr ⟨e, e', rfl, rfl, hee⟩
  | .error (.reject r), .error (.reject _), rfl => exact .inl rfl
  | .error .panic, .error .panic, _ => exact .inl rfl

/-- Two runs of the handler whose answers agree but for internal texts have results that agree
but for internal texts. -/
def SteadyHandler (p : Handler K α) : Prop := Twin (S := webSig K) SameAnswer SameHalt p p

/-- A reply does not depend on a text of an error. -/
theorem steadyHandler_ret (a : α) : SteadyHandler (.ret a : Handler K α) := .ret rfl

/-- Neither does an error that the handler itself raises. -/
theorem steadyHandler_fail (e : TimError) : SteadyHandler (Handler.fail e : Handler K α) :=
  .raise (Alike.refl e)

/-- Two steady parts of a handler in a row. -/
theorem steadyHandler_bind {p : Handler K α} {f : α → Handler K β} (hp : SteadyHandler p)
    (hf : ∀ a, SteadyHandler (f a)) : SteadyHandler (p >>= f) := by
  refine Twin.handle hp fun x y hxy => ?_
  match x, y, hxy with
  | .ok a, .ok _, rfl => exact hf a
  | .error (.err e), .error (.err e'), hee => exact .raise hee
  | .error (.reject r), .error (.reject _), rfl => exact .raise rfl
  | .error .panic, .error .panic, _ => exact .raise trivial

/-- A check makes no call. -/
theorem steadyHandler_try {x : Except TimError α} {f : α → Handler K β}
    (hf : ∀ a, SteadyHandler (f a)) : SteadyHandler (try_ x >>= f) := by
  cases x with
  | ok a => exact hf a
  | error e => exact steadyHandler_fail e

/-- An extractor makes no call. -/
theorem steadyHandler_extract {x : Except Rejection α} {f : α → Handler K β}
    (hf : ∀ a, SteadyHandler (f a)) : SteadyHandler (extract x >>= f) := by
  cases x with
  | ok a => exact hf a
  | error r => exact .raise rfl

/-- A steady operation of the token service in a handler. -/
theorem steadyHandler_ofJwt {p : Action K.toCrates α} (hp : Steady p) :
    SteadyHandler (ofJwt p : Handler K α) := by
  refine Twin.embed hp (fun _ _ _ hr => hr) fun x y hxy => ?_
  match x, y, hxy with
  | .ok a, .ok _, rfl => rfl
  | .error (.err e), .error (.err e'), hee => exact hee
  | .error .panic, .error .panic, _ => trivial

/-- A steady part of the flow in a handler. -/
theorem steadyHandler_ofOauth {p : OAuth.Flow α} (hp : SteadyFlow p) :
    SteadyHandler (ofOauth p : Handler K α) := by
  refine Twin.embed hp (fun _ _ _ hr => hr) fun x y hxy => ?_
  match x, y, hxy with
  | .ok a, .ok _, rfl => rfl
  | .error (.err e), .error (.err e'), hee => exact hee
  | .error .panic, .error .panic, _ => trivial

/-- A steady operation of the token service, and then a steady handler. -/
theorem steadyHandler_jwt {p : Action K.toCrates α} {f : α → Handler K β} (hp : Steady p)
    (hf : ∀ a, SteadyHandler (f a)) : SteadyHandler (ofJwt p >>= f) :=
  steadyHandler_bind (steadyHandler_ofJwt hp) hf

/-- A steady part of the flow, and then a steady handler. -/
theorem steadyHandler_oauth {p : OAuth.Flow α} {f : α → Handler K β} (hp : SteadyFlow p)
    (hf : ∀ a, SteadyHandler (f a)) : SteadyHandler (ofOauth p >>= f) :=
  steadyHandler_bind (steadyHandler_ofOauth hp) hf

/-- The `?` on an answer of the session store. -/
theorem steadyHandler_result {r r' : Except TimError α} {f : α → Handler K β}
    (hr : AlikeResult r r') (hf : ∀ a, SteadyHandler (f a)) :
    Twin (S := webSig K) SameAnswer SameHalt (try_ r >>= f) (try_ r' >>= f) := by
  rcases hr.cases with ⟨a, rfl, rfl⟩ | ⟨e, e', rfl, rfl, hee⟩
  · exact hf a
  · exact .raise hee

/-- The outcomes that a handler looks at agree but for the text of an internal error. -/
def SameAttempt : Except Halt (Except TimError α) → Except Halt (Except TimError α) → Prop
  | .ok r, .ok r' => AlikeResult r r'
  | .error (.reject r), .error (.reject r') => r = r'
  | .error .panic, .error .panic => True
  | _, _ => False

/-- Two attempts whose results a handler looks at itself: the errors are still there to be told
apart. -/
theorem SameAttempt.cases {x y : Except Halt (Except TimError α)} (h : SameAttempt x y) :
    (∃ r r', x = .ok r ∧ y = .ok r' ∧ AlikeResult r r')
      ∨ ∃ halt, x = .error halt ∧ y = .error halt ∧ ∀ e, halt ≠ .err e := by
  cases x with
  | ok r =>
      cases y with
      | ok r' => exact .inl ⟨r, r', rfl, rfl, h⟩
      | error halt' => exact h.elim
  | error halt =>
      cases y with
      | ok r' => cases halt <;> exact h.elim
      | error halt' =>
          cases halt with
          | err e => exact h.elim
          | reject r =>
              cases halt' with
              | reject r' =>
                  obtain rfl : r = r' := h
                  exact .inr ⟨_, rfl, rfl, nofun⟩
              | err e => exact h.elim
              | panic => exact h.elim
          | panic =>
              cases halt' with
              | panic => exact .inr ⟨_, rfl, rfl, nofun⟩
              | err e => exact h.elim
              | reject r => exact h.elim

/-- A handler that looks at the outcome of `revoke` itself. Only a bad request is answered with
its message, and that is no internal error. -/
theorem steadyHandler_revoked {p : Handler K Bool} {f : Except TimError Bool → Handler K β}
    (hp : SteadyHandler p) (hok : ∀ b, SteadyHandler (f (.ok b)))
    (hbad : ∀ msg, SteadyHandler (f (.error (.badRequest msg))))
    (hother : ∀ e, (∀ msg, e ≠ .badRequest msg) → f (.error e) = Handler.fail e) :
    SteadyHandler (attempt p >>= f) := by
  have hattempt : Twin (S := webSig K) SameAnswer SameAttempt (attempt p) (attempt p) := by
    refine Twin.handle hp fun x y hxy => ?_
    match x, y, hxy with
    | .ok a, .ok _, rfl => exact .ret rfl
    | .error (.err e), .error (.err e'), hee => exact .ret hee
    | .error (.reject r), .error (.reject _), rfl => exact .raise rfl
    | .error .panic, .error .panic, _ => exact .raise trivial
  refine Twin.handle hattempt fun x y hxy => ?_
  rcases hxy.cases with ⟨r, r', rfl, rfl, hr⟩ | ⟨halt, rfl, rfl, hhalt⟩
  case inl =>
      rcases AlikeResult.cases hr with ⟨b, rfl, rfl⟩ | ⟨e, e', rfl, rfl, hee⟩
      · exact hok b
      · -- Different errors are both internal, and the handler passes them on.
        by_cases hmsg : ∃ msg, e = .badRequest msg
        · obtain ⟨msg, rfl⟩ := hmsg
          cases hee
          exact hbad msg
        · have he : ∀ msg, e ≠ .badRequest msg := fun msg h => hmsg ⟨msg, h⟩
          have he' : ∀ msg, e' ≠ .badRequest msg := by
            rintro msg rfl
            rcases hee.cases with rfl | ⟨m, m', h | h | h | h⟩
            · exact he msg rfl
            all_goals cases h.2
          show Twin (S := webSig K) _ _ (f (.error e)) (f (.error e'))
          rw [hother e he, hother e' he']
          exact .raise hee
  case inr =>
      cases halt with
      | err e => exact absurd rfl (hhalt e)
      | reject r => exact .raise rfl
      | panic => exact .raise trivial

namespace AppState

variable {app : AppState K} {req : HttpRequest}

/-- The texts of the session store do not decide whether a session is found. -/
theorem liveSession_steady (req : HttpRequest) :
    SteadyHandler (liveSession req : Handler K Session) := by
  refine steadyHandler_try fun id => .op _ _ _ fun r r' hr => ?_
  refine steadyHandler_result hr fun found => ?_
  cases found with
  | none => exact steadyHandler_fail _
  | some session => exact .op _ _ _ fun _ _ _ => steadyHandler_ret session

/-- The legacy `extend` routes are steady. -/
theorem extendCookie_steady (cookieName : String) :
    SteadyHandler (app.extendCookie cookieName req) := by
  unfold extendCookie
  split
  · exact steadyHandler_fail _
  · exact steadyHandler_jwt (extend_steady _ _) fun _ => steadyHandler_ret _

/-- The legacy logout is steady: it counts what it has revoked and says nothing about the errors. -/
theorem jwtBlacklistCompat_steady : SteadyHandler (app.jwtBlacklistCompat req) := by
  refine steadyHandler_try fun _ => steadyHandler_extract fun q => ?_
  split
  · refine steadyHandler_revoked (steadyHandler_ofJwt (revoke_steady _ _ _)) ?_ ?_ ?_
    · intro b
      cases b <;> exact steadyHandler_ret _
    · exact fun msg => steadyHandler_ret _
    · intro e he
      cases e with
      | badRequest msg => exact absurd rfl (he msg)
      | _ => rfl
  · split
    · dsimp only
      split
      · exact steadyHandler_fail _
      · refine steadyHandler_jwt (revokeByJti_steady _ _) fun found => ?_
        match found with
        | some true => exact steadyHandler_ret _
        | some false => exact steadyHandler_ret _
        | none => exact steadyHandler_ret _
    · split
      · exact .op _ _ _ fun r r' hr => steadyHandler_result hr fun _ => steadyHandler_ret _
      · exact steadyHandler_fail _

/-- So is the legacy revocation of named cookies. -/
theorem jwtCustomBlacklistCompat_steady : SteadyHandler (app.jwtCustomBlacklistCompat req) := by
  refine steadyHandler_try fun _ => steadyHandler_extract fun body => ?_
  dsimp only
  split
  · exact steadyHandler_fail _
  · split
    · exact steadyHandler_ret _
    · refine steadyHandler_revoked (steadyHandler_ofJwt (revoke_steady _ _ _)) ?_ ?_ ?_
      · intro b
        cases b <;> exact steadyHandler_ret _
      · exact fun msg => steadyHandler_ret _
      · intro e he
        cases e with
        | badRequest msg => exact absurd rfl (he msg)
        | _ => rfl

/-- The request is an admitted bulk revocation of at most the allowed number of tokens, one of
which is revocable at some instant. -/
def BulkRevokes (app : AppState K) (req : HttpRequest) : Prop :=
  app.admin.adminAuth req = .ok () ∧ ∃ body,
    jsonBody K (bulkRevokeBody K) app.maxRequestBytes req = .ok body
      ∧ body.tokens.length ≤ app.jwt.cfg.bulkRevokeMax
      ∧ ∃ tok ∈ body.tokens, ∃ at_, Revocable app.jwt at_ tok

/-- A batch without a token that reaches the database is steady. -/
theorem bulkRevoke_of_not_admitted {body : BulkRevokeRequest K.toCrates}
    (hno : body.tokens.length ≤ app.jwt.cfg.bulkRevokeMax →
      ∀ tok ∈ body.tokens, ∀ at_, ¬ Revocable app.jwt at_ tok) :
    Steady (app.jwt.bulkRevoke body) := by
  by_cases hlen : body.tokens.length ≤ app.jwt.cfg.bulkRevokeMax
  · exact bulkRevoke_steady _ (hno hlen)
  · unfold JwtService.bulkRevoke
    split
    · exact steady_fail _
    · rw [if_pos (by omega)]
      exact steady_fail _

/-- So is its route, for every request that is not one of the exposing kind. -/
theorem jwtRevokeBulk_steady (hno : ¬ app.BulkRevokes req) :
    SteadyHandler (app.jwtRevokeBulk req) := by
  unfold jwtRevokeBulk adminAuth
  cases hadmin : app.admin.adminAuth req with
  | error e => exact steadyHandler_fail e
  | ok _ =>
      cases hbody : jsonBody K (bulkRevokeBody K) app.maxRequestBytes req with
      | error r => exact .raise rfl
      | ok body =>
          refine steadyHandler_jwt (bulkRevoke_of_not_admitted ?_) fun _ => steadyHandler_ret _
          intro hlen tok htok at_ hrev
          exact hno ⟨hadmin, body, hbody, hlen, tok, htok, at_, hrev⟩

/-- Every route but the bulk revocation is steady. -/
theorem handler_steady (e : Endpoint) (he : e = .jwtRevokeBulk → ¬ app.BulkRevokes req) :
    SteadyHandler (app.handler req e) := by
  cases e with
  | health | introspectTypes | authProviders => exact steadyHandler_ret _
  | jwtGenerate =>
      refine steadyHandler_try fun _ => steadyHandler_extract fun body => ?_
      exact steadyHandler_jwt (generate_steady _ _) fun _ => steadyHandler_ret _
  | jwtValidate | jwtValidateBoolean =>
      refine steadyHandler_extract fun body => steadyHandler_try fun _ => ?_
      exact steadyHandler_jwt (validate_steady _ _) fun _ => steadyHandler_ret _
  | jwtRevoke =>
      refine steadyHandler_try fun _ => steadyHandler_extract fun body => ?_
      exact steadyHandler_jwt (revoke_steady _ _ _) fun _ => steadyHandler_ret _
  | jwtRevokeBulk => exact jwtRevokeBulk_steady (he rfl)
  | jwtExtend =>
      refine steadyHandler_try fun _ => steadyHandler_extract fun body => ?_
      exact steadyHandler_jwt (extend_steady _ _) fun _ => steadyHandler_ret _
  | jwtListMe =>
      refine steadyHandler_try fun token => ?_
      refine steadyHandler_jwt (authenticateBearer_steady _ _) fun sub => ?_
      exact steadyHandler_jwt (listForSubject_steady _ _) fun _ => steadyHandler_ret _
  | jwks => exact steadyHandler_jwt (steady_now fun t => steady_ret t) fun _ => steadyHandler_ret _
  | jwtVerificationKey => exact steadyHandler_try fun _ => steadyHandler_ret _
  | jwtUserinfo =>
      refine steadyHandler_try fun _ => ?_
      split
      · exact steadyHandler_fail _
      · refine steadyHandler_jwt (authenticateBearer_steady _ _) fun sub => ?_
        exact steadyHandler_jwt (validate_steady _ _) fun _ => steadyHandler_ret _
  | jwtCustomVerify =>
      refine steadyHandler_extract fun body => steadyHandler_try fun _ => ?_
      dsimp only
      split
      · exact steadyHandler_fail _
      · split
        · exact steadyHandler_ret _
        · exact steadyHandler_jwt (validate_steady _ _) fun _ => steadyHandler_ret _
  | jwtCustomUserinfo =>
      refine steadyHandler_extract fun body => steadyHandler_try fun _ => ?_
      dsimp only
      split
      · exact steadyHandler_fail _
      · split
        · exact steadyHandler_fail _
        · refine steadyHandler_jwt (authenticateBearer_steady _ _) fun sub => ?_
          exact steadyHandler_jwt (validate_steady _ _) fun _ => steadyHandler_ret _
  | jwtCustomExtend =>
      refine steadyHandler_try fun _ => steadyHandler_extract fun body => ?_
      dsimp only
      split
      · exact steadyHandler_fail _
      · exact extendCookie_steady _
  | jwtExtendSession => exact steadyHandler_try fun _ => extendCookie_steady _
  | jwtCustomBlacklist => exact jwtCustomBlacklistCompat_steady
  | jwtBlacklist => exact jwtBlacklistCompat_steady
  | introspect =>
      refine steadyHandler_extract fun bytes => steadyHandler_try fun _ => ?_
      refine steadyHandler_try fun r => ?_
      exact steadyHandler_jwt (introspect_steady _ _) fun _ => steadyHandler_ret _
  | authProviderOne segment =>
      refine steadyHandler_extract fun id => ?_
      split
      · exact steadyHandler_fail _
      · exact steadyHandler_ret _
  | authLogin segment =>
      refine steadyHandler_extract fun id => steadyHandler_extract fun uri => ?_
      exact steadyHandler_oauth (authLogin_steady _ _ _) fun _ => steadyHandler_ret _
  | authCallback segment =>
      refine steadyHandler_extract fun id => steadyHandler_extract fun q => ?_
      refine steadyHandler_oauth (authCallback_steady _ _ _) fun answer => ?_
      cases answer <;> exact steadyHandler_ret _
  | authSessionValidate | authProfile =>
      exact steadyHandler_bind (liveSession_steady req) fun _ => steadyHandler_ret _
  -- An error of the store becomes the same reply whatever its text.
  | authLogout =>
      refine steadyHandler_try fun id => .op _ _ _ fun r r' hr => ?_
      exact steadyHandler_result hr fun _ => steadyHandler_ret _
  | authHealth =>
      exact steadyHandler_oauth (steadyFlow_call trivial steadyFlow_ret)
        fun _ => steadyHandler_ret _

/-- The request reaches a bulk revocation with a revocable token. -/
def Exposes (app : AppState K) (req : HttpRequest) : Prop :=
  app.declaresTooMuch req = false ∧ Endpoint.ofPath req.path = some .jwtRevokeBulk
    ∧ req.method = .post ∧ app.BulkRevokes req

/-- The whole server, for such a request: equal replies to environments that differ in error texts
only. -/
theorem serve_steady (hno : ¬ app.Exposes req) :
    Twin (S := webSig K) SameAnswer (fun x y => x = y) (app.serve req) (app.serve req) := by
  unfold serve
  split
  · exact .ret rfl
  · rename_i hsmall
    split
    · exact .ret rfl
    · rename_i e hpath
      split
      · exact .ret rfl
      · rename_i hallows
        have hhandler : SteadyHandler (app.handler req e) := by
          refine handler_steady e ?_
          rintro rfl hbulk
          have hpost : req.method = .post := by
            simpa [Endpoint.allows, Endpoint.isPost] using hallows
          exact hno ⟨by simpa using hsmall, hpath, hpost, hbulk⟩
        refine Twin.handle hhandler fun x y hxy => ?_
        rcases hxy.cases with rfl | ⟨e, e', rfl, rfl, hee⟩
        · match x with
          | .ok r => exact .ret rfl
          | .error (.err e) => exact .ret rfl
          | .error (.reject r) => exact .ret rfl
          | .error .panic => exact .raise rfl
        · refine .ret ?_
          rw [Alike.intoResponse_eq hee]

/-- Every statement and every session call fails with the text. -/
def outage (K : WebCrates) (at_ : DateTime) (text : String) : (o : WebOp) → WebResp K o
  | .jwt o => failing K.toCrates at_ text o
  | .oauth o => match o with
      | .now => at_
      | .fillBytes _ => []
      | .sleep _ => ()
      | .buildClient => .ok ()
      | .discoveryGet _ => none
      | .discoveryInsert .. => ()
      | .jwksGet _ => none
      | .jwksInsert .. => ()
      | .httpGet _ => .error ⟨true, ""⟩
      | .httpPost .. => .error ⟨true, ""⟩
      | .insertState _ => .error text
      | .deleteState .. => .error text
      | .sweepState _ => .error text
      | .createSession _ => .error (.database text)
  | .sessionGet _ => .error (.database text)
  | .sessionTouch _ => .error (.database text)
  | .sessionRevoke _ => .error (.database text)

/-- Two outages with different texts are such environments. -/
theorem outage_alike (at_ : DateTime) (text text' : String) (o : WebOp) :
    SameAnswer o (outage K at_ text o) (outage K at_ text' o) := by
  cases o with
  | jwt o => exact failing_alike at_ text text' o
  | oauth o => cases o <;> trivial
  | _ => exact trivial

/-- What a handler answers after a part that has a result. -/
theorem answer_bind_ok {α β : Type} {f : (o : (webSig K).Op) → (webSig K).Resp o}
    {x : Handler K α} {k : α → Handler K β} {a : α}
    (h : x.answer (S := webSig K) f = .ok a) :
    (x >>= k).answer (S := webSig K) f = (k a).answer (S := webSig K) f := by
  refine (answer_handle _ _ _ _).trans ?_
  rw [h]

/-- The answer to a batch during an outage: every token fails. -/
def outageResponse (svc : JwtService K.toCrates) (at_ : DateTime) (text : String)
    (tokens : List K.Token) : BulkRevokeResponse K.toCrates :=
  ⟨0, 0, tokens.length, tokens.map (failedItem svc at_ text)⟩

/-- A batch within the limit is carried out, and none of its inserts succeeds. -/
theorem bulkRevoke_outage (svc : JwtService K.toCrates) {body : BulkRevokeRequest K.toCrates}
    (hne : body.tokens ≠ []) (hlen : body.tokens.length ≤ svc.cfg.bulkRevokeMax)
    (at_ : DateTime) (text : String) :
    (svc.bulkRevoke body).answer (S := jwtSig K.toCrates) (failing K.toCrates at_ text)
      = .ok (outageResponse svc at_ text body.tokens) := by
  unfold JwtService.bulkRevoke
  rw [if_neg (by simpa using hne), if_neg (by omega), bulkRevokeLoop_answer]
  simp [outageResponse]

/-- A batch of which every token failed is answered 400. -/
theorem bulkStatus_outage (svc : JwtService K.toCrates) {tokens : List K.Token}
    (hne : tokens ≠ []) (at_ : DateTime) (text : String) :
    bulkStatus (outageResponse svc at_ text tokens) = 400 := by
  unfold bulkStatus
  exact if_pos ⟨List.length_pos_iff.mpr hne, rfl, rfl⟩

/-- The reply to an admitted batch during an outage, with the text of the database in it. -/
theorem jwtRevokeBulk_outage (hadmin : app.admin.adminAuth req = .ok ())
    {body : BulkRevokeRequest K.toCrates}
    (hbody : jsonBody K (bulkRevokeBody K) app.maxRequestBytes req = .ok body)
    (hne : body.tokens ≠ []) (hlen : body.tokens.length ≤ app.jwt.cfg.bulkRevokeMax)
    (at_ : DateTime) (text : String) :
    (app.jwtRevokeBulk req).answer (S := webSig K) (outage K at_ text)
      = .ok ⟨400, .bulkRevoke (outageResponse app.jwt at_ text body.tokens), none⟩ := by
  have hembed : (ofJwt (app.jwt.bulkRevoke body) : Handler K _).answer (S := webSig K)
      (outage K at_ text) = .ok (outageResponse app.jwt at_ text body.tokens) := by
    refine (answer_embed _ _ _ _).trans ?_
    show embedResult _ ((app.jwt.bulkRevoke body).answer (S := jwtSig K.toCrates)
      (failing K.toCrates at_ text)) = _
    rw [bulkRevoke_outage app.jwt hne hlen at_ text]
    rfl
  unfold jwtRevokeBulk adminAuth
  rw [hadmin, hbody]
  refine (answer_bind_ok (a := ()) rfl).trans ?_
  refine (answer_bind_ok (a := body) rfl).trans ?_
  refine (answer_bind_ok hembed).trans ?_
  show Except.ok _ = _
  rw [bulkStatus_outage app.jwt hne at_ text]

/-- The reply to a bulk revocation during an outage shows the text in the items of the
revocable tokens. -/
theorem serve_outage (hsmall : app.declaresTooMuch req = false)
    (hpath : Endpoint.ofPath req.path = some .jwtRevokeBulk) (hpost : req.method = .post)
    (hadmin : app.admin.adminAuth req = .ok ()) {body : BulkRevokeRequest K.toCrates}
    (hbody : jsonBody K (bulkRevokeBody K) app.maxRequestBytes req = .ok body)
    (hne : body.tokens ≠ []) (hlen : body.tokens.length ≤ app.jwt.cfg.bulkRevokeMax)
    (at_ : DateTime) (text : String) :
    (app.serve req).run (fun _ => outage K at_ text)
      = .ok ⟨400, .bulkRevoke (outageResponse app.jwt at_ text body.tokens), none⟩ := by
  refine (run_const (S := webSig K) _ _).trans ?_
  unfold serve
  rw [hsmall, hpath]
  have hallows : Endpoint.allows .jwtRevokeBulk req.method = true := by rw [hpost]; rfl
  simp only [Bool.false_eq_true, ↓reduceIte, hallows, Bool.not_true]
  refine (answer_handle _ _ _ _).trans ?_
  have hhandler : (app.handler req .jwtRevokeBulk).answer (S := webSig K) (outage K at_ text)
      = .ok ⟨400, .bulkRevoke (outageResponse app.jwt at_ text body.tokens), none⟩ :=
    jwtRevokeBulk_outage hadmin hbody hne hlen at_ text
  rw [hhandler]
  -- The reply of a `POST` with status 400 passes the two mappers unchanged.
  show Except.ok (headless req (app.sizeMapped _)) = _
  unfold headless
  rw [hpost]
  rfl

/-- An exposing request is answered differently during two outages. -/
theorem serve_outage_ne (hexposes : app.Exposes req) :
    ∃ at_, (app.serve req).run (S := webSig K) (fun _ => outage K at_ "a")
      ≠ (app.serve req).run (S := webSig K) (fun _ => outage K at_ "b") := by
  have hadmitted := hexposes.2.2.2
  obtain ⟨body, hbody, hlen, tok, htok, at_, hrev⟩ := hadmitted.2
  have hne : body.tokens ≠ [] := List.ne_nil_of_mem htok
  have hreply := serve_outage hexposes.1 hexposes.2.1 hexposes.2.2.1 hadmitted.1 hbody hne hlen at_
  refine ⟨at_, fun heq => ?_⟩
  have hreplies := (hreply "a").symm.trans (heq.trans (hreply "b"))
  -- The two replies have the same items, so the texts would be the same.
  simp only [Except.ok.injEq, Reply.mk.injEq, Body.bulkRevoke.injEq, outageResponse,
    BulkRevokeResponse.mk.injEq, and_true, true_and] at hreplies
  exact failedItem_ne app.jwt hrev (by decide) (List.map_inj_left.mp hreplies tok htok)

end AppState

end Handlers

/-- What a bulk revocation says of its items. -/
def itemReasons {K : WebCrates} : Except Unit (Reply K) → List (Option String)
  | .ok ⟨_, .bulkRevoke r, _⟩ => r.results.map BulkRevokeItem.reason
  | _ => []

end Tim.Web
