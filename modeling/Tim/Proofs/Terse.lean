import Tim.Proofs.ErrorBody
import Tim.Proofs.Trace

/-!
# `Tim.Proofs.Terse`: the messages of the services' errors

The message of a 4xx error is shown to the client. Here every function of the token service and
of the OAuth2 flow that a route calls is walked through once: as long as the texts from outside
have at most `n` characters, the message of its error has at most `l`, which is `1000` more and
room for what the configuration adds. Fixed messages and clipped texts take the `1000`.

The functions that write a piece of their request into a message take it as a hypothesis that
the piece is short.

* `generate_terse`, `bulkRevoke_terse`: the operations that repeat a part of the request.
* `completeCallback_terse`, `buildLoginUrl_terse`: the two programs of the flow.
-/

set_option autoImplicit false

namespace Tim.Web

open Tim.Lib Tim.Lib.Prog

/-! ### Texts from outside -/

/-- The message that the reply to the error shows has at most `n` characters. -/
def Terse (n : Nat) : TimError → Prop
  | .badRequest m | .notFound m | .unprocessable m => m.length ≤ n
  | _ => True

/-- The texts in the answer to a call of the token service have at most `n` characters. -/
def JwtTerse {K : Crates} (n : Nat) : (o : Op) → Resp K o → Prop
  | .sign _, r => ∀ e, r = .error e → Terse n e
  | .insertDenylist .., r => ∀ e, r = .error e → e.length ≤ n
  | _, _ => True

/-- The texts in the answer to a call of the flow have at most `n` characters. -/
def FlowTerse (K : OAuth.OAuthCrates) (n : Nat) : (o : OAuth.Op) → OAuth.Resp o → Prop
  | .discoveryGet _, r => ∀ doc, r = some doc → doc.jwksUri.length ≤ n
  | .httpGet _, r => ∀ resp doc, r = .ok resp →
      OAuth.OAuthService.json K OAuth.Discovery.deserialize resp = .ok doc →
      doc.jwksUri.length ≤ n
  | .createSession _, r => ∀ e, r = .error e → Terse n e
  | _, _ => True

/-! ### The token service -/

/-- A short message is within a larger bound. -/
theorem Terse.mono {n n' : Nat} {e : TimError} (h : Terse n e) (hle : n ≤ n') : Terse n' e := by
  cases e with
  | badRequest m | notFound m | unprocessable m => exact Nat.le_trans h hle
  | _ => trivial

/-- The error of a service has a terse message. -/
def TerseEnd {α : Type} (l : Nat) : Except Fault α → Prop
  | .error (.err e) => Terse l e
  | _ => True

section Jwt

variable {K : Crates} {α β : Type} {n l : Nat}

/-- While the texts from outside are terse, so are the errors of the program. -/
def TerseJwt (n l : Nat) (p : Action K α) : Prop :=
  p.Under (S := jwtSig K) (JwtTerse n) (TerseEnd l)

/-- A result has no message. -/
theorem terseJwt_ret (a : α) : TerseJwt n l (.ret a : Action K α) := trivial

/-- A short error ends an operation. -/
theorem terseJwt_fail {e : TimError} (he : Terse l e) :
    TerseJwt n l (Action.fail e : Action K α) := he

/-- An error with a fixed message. -/
theorem terseJwt_fixed (hl : n + 1000 ≤ l) {e : TimError} (he : Terse 1000 e) :
    TerseJwt n l (Action.fail e : Action K α) := he.mono (by omega)

/-- Two operations with short messages in a row. -/
theorem terseJwt_bind {p : Action K α} {f : α → Action K β} (hp : TerseJwt n l p)
    (hf : ∀ a, TerseJwt n l (f a)) : TerseJwt n l (p >>= f) := by
  refine Under.bind hp (fun a _ => hf a) fun e he => ?_
  cases e with
  | err e => exact he
  | panic => trivial

/-- A call, whose texts are as short as the surroundings promise. -/
theorem terseJwt_call {o : Op} {f : Resp K o → Action K β}
    (hf : ∀ r, JwtTerse n o r → TerseJwt n l (f r)) : TerseJwt n l (Action.call o >>= f) :=
  fun r hr => hf r hr

/-- The text of a failing statement is not part of the message that a client gets. -/
theorem terseJwt_sql {r : Sql α} {f : α → Action K β} (hf : ∀ a, TerseJwt n l (f a)) :
    TerseJwt n l (Action.sql r >>= f) := by
  cases r with
  | ok a => exact hf a
  | error e => exact terseJwt_fail (e := .database e) trivial

/-- A statement, with the `?` on its answer. -/
theorem terseJwt_query {o : Op} {g : Resp K o → Sql α} {f : α → Action K β}
    (hf : ∀ a, TerseJwt n l (f a)) :
    TerseJwt n l (Action.call o >>= fun r => Action.sql (g r) >>= f) :=
  terseJwt_call fun _ _ => terseJwt_sql hf

/-- A lookup fails with the text of the database only. -/
theorem terseJwt_lookup {jti : Uuid} {f : Bool → Action K β} (hf : ∀ b, TerseJwt n l (f b)) :
    TerseJwt n l (JwtService.denylistLookup jti >>= f) := fun _ _ => terseJwt_sql hf

/-- The addition has no message. -/
theorem terseJwt_addMinutes {now : DateTime} {m : Int64} {f : DateTime → Action K β}
    (hf : ∀ t, TerseJwt n l (f t)) : TerseJwt n l (addMinutes now m >>= f) := by
  rw [addMinutes_eq]
  cases plusMinutes now m with
  | none => exact trivial
  | some t => exact hf t

/-- A rollback passes the error on. -/
theorem terseJwt_orRollback {p : Action K α} (hp : TerseJwt n l p) :
    TerseJwt n l (Action.orRollback p) := by
  refine Under.handle hp fun x hx => ?_
  match x, hx with
  | .ok a, _ => exact terseJwt_ret a
  | .error (.err e), he => exact fun _ _ => he
  | .error .panic, _ => exact fun _ _ => trivial

variable (svc : JwtService K) (hl : n + 1000 ≤ l)
include hl

/-- The messages of this operation are fixed. -/
theorem authenticateBearer_terse (token : K.Token) :
    TerseJwt n l (svc.authenticateBearer token) := by
  unfold JwtService.authenticateBearer
  refine terseJwt_call fun at_ _ => ?_
  split
  · exact terseJwt_fixed hl trivial
  · rename_i claims _
    split
    · exact terseJwt_fixed hl trivial
    · refine terseJwt_lookup fun denied => ?_
      cases denied with
      | true => exact terseJwt_fixed hl trivial
      | false =>
          cases claims.sub with
          | some sub => exact terseJwt_ret _
          | none => exact terseJwt_fixed hl trivial

/-- So are those of `validate`. -/
theorem validate_terse (req : ValidateRequest K) : TerseJwt n l (svc.validate req) := by
  unfold JwtService.validate
  refine terseJwt_call fun at_ _ => ?_
  split
  · exact terseJwt_ret _
  · refine terseJwt_call fun now _ => ?_
    split
    · exact terseJwt_ret _
    · split
      · exact terseJwt_ret _
      · split
        · exact terseJwt_ret _
        · split
          · exact terseJwt_ret _
          · split
            · exact terseJwt_fixed hl (length_fixed (by decide))
            · refine terseJwt_lookup fun denied => ?_
              cases denied <;> exact terseJwt_ret _

/-- So are those of `revoke`. -/
theorem revoke_terse (token : K.Token) (reason : Option String) :
    TerseJwt n l (svc.revoke token reason) := by
  unfold JwtService.revoke
  refine terseJwt_call fun at_ _ => ?_
  split
  · exact terseJwt_fixed hl (length_fixed (by decide))
  · split
    · exact terseJwt_fixed hl (length_fixed (by decide))
    · split
      · exact terseJwt_fixed hl (length_fixed (by decide))
      · exact terseJwt_query fun _ => terseJwt_ret _

/-- `generate` repeats the audience of the request, and nothing else of it. -/
theorem generate_terse {req : GenerateRequest}
    (haud : ¬ req.expirationInMinutes ≤ 0 → ¬ svc.cfg.maxClaimsBytes < K.jsonLen req.content →
      ∀ e, svc.resolveAudience req.audience = .error e → Terse l e) :
    TerseJwt n l (svc.generate req) := by
  unfold JwtService.generate
  split
  · exact terseJwt_fixed hl (length_fixed (by decide))
  · rename_i hexp
    split
    · exact terseJwt_fixed hl trivial
    · rename_i hsize
      split
      · rename_i e haudience
        exact terseJwt_fail (haud hexp hsize e haudience)
      · refine terseJwt_call fun jti _ => terseJwt_call fun now _ => ?_
        refine terseJwt_addMinutes fun exp => terseJwt_call fun signed hsigned => ?_
        cases signed with
        | error e => exact terseJwt_fail ((hsigned e rfl).mono (by omega))
        | ok token =>
            refine terseJwt_call fun id _ => ?_
            exact terseJwt_query fun _ => terseJwt_ret _

/-- The messages of the transaction are fixed. -/
theorem extendTx_terse (old claims : StandardClaims) (anc : JwtService.Ancestor)
    (oldJti newJti : Uuid) (now newExp : DateTime) :
    TerseJwt n l (svc.extendTx old claims anc oldJti newJti now newExp) := by
  unfold JwtService.extendTx
  refine terseJwt_call fun id _ => terseJwt_query fun _ => ?_
  split
  · exact terseJwt_fixed hl (length_fixed (by decide))
  · exact terseJwt_query fun _ => terseJwt_ret _

/-- So are those of `extend`. -/
theorem extend_terse (req : ExtendRequest K) : TerseJwt n l (svc.extend req) := by
  unfold JwtService.extend
  refine terseJwt_call fun at_ _ => ?_
  split
  · exact terseJwt_fixed hl (length_fixed (by decide))
  · refine terseJwt_call fun now _ => ?_
    split
    · exact terseJwt_fixed hl (length_fixed (by decide))
    · split
      · exact terseJwt_fixed hl (length_fixed (by decide))
      · refine terseJwt_lookup fun denied => ?_
        cases denied with
        | true => exact terseJwt_fixed hl (length_fixed (by decide))
        | false =>
            refine terseJwt_query fun row => ?_
            dsimp only
            split
            · exact terseJwt_fixed hl (length_fixed (by decide))
            · refine terseJwt_addMinutes fun newExp => terseJwt_call fun newJti _ => ?_
              refine terseJwt_call fun signed hsigned => ?_
              cases signed with
              | error e => exact terseJwt_fail ((hsigned e rfl).mono (by omega))
              | ok token =>
                  refine terseJwt_query fun _ => ?_
                  refine terseJwt_bind (terseJwt_orRollback ?_) fun _ => ?_
                  · exact extendTx_terse svc hl _ _ _ _ _ _ _
                  · exact terseJwt_query fun _ => terseJwt_ret _

omit hl

/-- So are those of `introspect`. -/
theorem introspect_terse (req : IntrospectRequest K) : TerseJwt n l (svc.introspect req) := by
  unfold JwtService.introspect
  refine terseJwt_call fun at_ _ => ?_
  split
  · exact terseJwt_ret _
  · split
    · exact terseJwt_ret _
    · refine terseJwt_call fun now _ => ?_
      split
      · exact terseJwt_ret _
      · split
        · exact terseJwt_ret _
        · refine terseJwt_lookup fun denied => ?_
          cases denied <;> exact terseJwt_ret _

/-- So are those of a revocation by jti. -/
theorem revokeByJti_terse (jti : Uuid) (reason : Option String) :
    TerseJwt n l (JwtService.revokeByJti jti reason : Action K _) := by
  unfold JwtService.revokeByJti
  refine terseJwt_query fun row => ?_
  cases row with
  | none => exact terseJwt_ret _
  | some exp => exact terseJwt_query fun _ => terseJwt_ret _

/-- The loop of a listing fails with the text of the database only, by induction on the rows. -/
theorem listLoop_terse (now : DateTime) (rows : List MetadataRow) (acc : List TokenSummary) :
    TerseJwt n l (JwtService.listLoop now rows acc : Action K _) := by
  induction rows generalizing acc with
  | nil => exact terseJwt_ret _
  | cons row rows ih =>
      unfold JwtService.listLoop JwtService.denylistEntry
      refine terseJwt_bind (terseJwt_query fun entry => ?_) fun entry => ih _
      cases entry <;> exact terseJwt_ret _

/-- So does the listing. -/
theorem listForSubject_terse (subject : String) (req : ListRequest) :
    TerseJwt n l (JwtService.listForSubject subject req : Action K _) := by
  unfold JwtService.listForSubject
  refine fun r _ => terseJwt_sql fun rows => fun r _ => terseJwt_sql fun count => ?_
  refine terseJwt_call fun now _ => ?_
  exact terseJwt_bind (listLoop_terse now rows []) fun _ => terseJwt_ret _

/-! ### `bulk_revoke` -/

/-- The shape of what a bulk revocation of `tokens` answers: the counts add up to the items, and
each item is about one of the tokens, with texts of at most `l` characters. -/
structure Tally (tokens : List K.Token) (l : Nat) (r : BulkRevokeResponse K) : Prop where
  count : r.newlyRevoked + r.alreadyRevoked + r.failed = r.results.length
  item : ∀ i ∈ r.results, i.token ∈ tokens ∧ i.status.length ≤ l ∧ ∀ s ∈ i.reason, s.length ≤ l

/-- One more item in the reply to a batch: the counts add up, and its texts are short. -/
theorem Tally.push {tokens : List K.Token} {r : BulkRevokeResponse K} (h : Tally tokens l r)
    {newly already failed : Nat} {i : BulkRevokeItem K} (htok : i.token ∈ tokens)
    (hone : newly + already + failed = r.newlyRevoked + r.alreadyRevoked + r.failed + 1)
    (hstatus : i.status.length ≤ l) (hreason : ∀ s ∈ i.reason, s.length ≤ l) :
    Tally tokens l ⟨newly, already, failed, r.results ++ [i]⟩ where
  count := by
    simp only [List.length_append, List.length_singleton]
    have hcount := h.count
    omega
  item := by
    intro j hj
    rcases List.mem_append.mp hj with hj | hj
    · exact h.item j hj
    · cases List.mem_singleton.mp hj
      exact ⟨htok, hstatus, hreason⟩

/-- The result of a bulk revocation of `tokens`, `k` of which have an item. -/
def BulkEnd (tokens : List K.Token) (l k : Nat) : Except Fault (BulkRevokeResponse K) → Prop
  | .ok r => Tally tokens l r ∧ r.results.length = k
  | .error (.err e) => Terse l e
  | .error .panic => True

/-- The text of a failed revocation, which a bulk revocation shows, is short. -/
def DisplayEnd (n : Nat) : Except Fault Bool → Prop
  | .error (.err e) => e.display.length ≤ n + 1000
  | _ => True

/-- A fixed message is short also in the form that a batch shows it in. -/
theorem displayEnd_fixed {m : String} (hm : m.length ≤ 900) :
    DisplayEnd n (.error (.err (.badRequest m))) := by
  show ("bad request: " ++ m).length ≤ _
  rw [String.length_append, show "bad request: ".length = 13 from String.length_ofList]
  omega

/-- The error of a revocation as a batch shows it: here the text of the database counts. -/
theorem revoke_display (token : K.Token) (reason : Option String) :
    (svc.revoke token reason).Under (S := jwtSig K) (JwtTerse n) (DisplayEnd n) := by
  unfold JwtService.revoke
  refine Under.call_bind fun at_ _ => ?_
  split
  · exact displayEnd_fixed (length_fixed (by decide))
  · split
    · exact displayEnd_fixed (length_fixed (by decide))
    · split
      · exact displayEnd_fixed (length_fixed (by decide))
      · refine fun r hr => ?_
        cases r with
        | ok k => exact trivial
        | error text =>
            have htext := hr text rfl
            show ("database error: " ++ text).length ≤ _
            rw [String.length_append, show "database error: ".length = 16 from String.length_ofList]
            omega

/-- What the loop of `bulk_revoke` looks at: an outcome, and no error that stops it. -/
def AttemptEnd (n : Nat) : Except Fault (Except TimError Bool) → Prop
  | .ok (.error e) => e.display.length ≤ n + 1000
  | .error (.err _) => False
  | _ => True

/-- The same for an attempt, whose error is a value. -/
theorem attempt_display (token : K.Token) (reason : Option String) :
    (Action.attempt (svc.revoke token reason)).Under (S := jwtSig K) (JwtTerse n)
      (AttemptEnd n) := by
  refine Under.handle (revoke_display svc token reason) fun x hx => ?_
  match x, hx with
  | .ok _, _ => trivial
  | .error (.err _), he => exact he
  | .error .panic, _ => trivial

/-- The loop of a batch, by induction on the tokens that are left: every item so far has short
texts. -/
theorem bulkRevokeLoop_terse (hl : n + 1000 ≤ l) (reason : Option String)
    (tokens toks : List K.Token) (acc : BulkRevokeResponse K) (hsub : ∀ t ∈ toks, t ∈ tokens)
    (hacc : Tally tokens l acc) :
    (svc.bulkRevokeLoop reason toks acc).Under (S := jwtSig K) (JwtTerse n)
      (BulkEnd tokens l (acc.results.length + toks.length)) := by
  induction toks generalizing acc with
  | nil => exact ⟨hacc, rfl⟩
  | cons tok toks ih =>
      have htok : tok ∈ tokens := hsub tok List.mem_cons_self
      -- One more item, whatever it says, and the rest of the batch.
      have hrest : ∀ (newly already failed : Nat) (i : BulkRevokeItem K),
          Tally tokens l ⟨newly, already, failed, acc.results ++ [i]⟩ →
          (svc.bulkRevokeLoop reason toks ⟨newly, already, failed, acc.results ++ [i]⟩).Under
            (S := jwtSig K) (JwtTerse n)
            (BulkEnd tokens l (acc.results.length + (tok :: toks).length)) := by
        intro newly already failed i hpush
        have hloop := ih _ (fun t ht => hsub t (List.mem_cons_of_mem _ ht)) hpush
        rwa [List.length_append, List.length_singleton, Nat.add_assoc, Nat.add_comm 1] at hloop
      have hword : ∀ w : List Char, w.length ≤ 7 → (String.ofList w).length ≤ l :=
        fun _ hw => Nat.le_trans (length_fixed hw) (by omega)
      refine Under.handle (attempt_display svc tok reason) fun x hx => ?_
      match x, hx with
      | .ok (.ok true), _ =>
          exact hrest _ _ _ _ (hacc.push htok (by omega) (hword _ (by decide)) (by simp))
      | .ok (.ok false), _ =>
          exact hrest _ _ _ _ (hacc.push htok (by omega) (hword _ (by decide)) (by simp))
      | .ok (.error e), hdisplay =>
          refine hrest _ _ _ _ (hacc.push htok (by omega) (hword _ (by decide)) ?_)
          rintro s ⟨⟩
          exact Nat.le_trans hdisplay hl
      | .error .panic, _ => trivial

/-- A bulk revocation answers with a tally of its tokens, no more than are allowed. -/
theorem bulkRevoke_terse (hl : n + 1000 ≤ l) (hmax : svc.cfg.bulkRevokeMax + 1000 ≤ l)
    (req : BulkRevokeRequest K) :
    (svc.bulkRevoke req).Under (S := jwtSig K) (JwtTerse n) (fun x => BulkEnd req.tokens l
      req.tokens.length x ∧ (x.toOption.isSome → req.tokens.isEmpty = false
        ∧ req.tokens.length ≤ svc.cfg.bulkRevokeMax)) := by
  unfold JwtService.bulkRevoke
  split
  · refine ⟨?_, fun h => by cases h⟩
    show Terse l (.badRequest _)
    exact Terse.mono (n := 1000) (length_fixed (by decide)) (by omega)
  · rename_i hsome
    split
    · refine ⟨?_, fun h => by cases h⟩
      show String.length _ ≤ l
      have hdigits := length_toString_le svc.cfg.bulkRevokeMax
      simp only [String.length_append]
      have hhead : "tokens exceeds bulk_revoke_max (".length = 32 := String.length_ofList
      have htail : ")".length = 1 := String.length_ofList
      omega
    · rename_i hfew
      have hloop := bulkRevokeLoop_terse svc hl req.reason req.tokens req.tokens ⟨0, 0, 0, []⟩
        (fun _ ht => ht) ⟨rfl, by simp⟩
      refine hloop.mono fun x hx => ⟨by simpa using hx, fun _ => ⟨by simpa using hsome, ?_⟩⟩
      omega

end Jwt

/-! ### Clipped texts -/

/-- A clipped text has one character more than the limit at most. -/
theorem length_clipUntrusted_le (s : String) (max : Nat) :
    (clipUntrusted s max).length ≤ max + 1 := by
  unfold clipUntrusted
  split
  · rw [String.length_append, String.length_ofList, List.length_take,
      show "…".length = 1 from String.length_ofList]
    omega
  · rename_i hshort
    rw [String.length_toList] at hshort
    omega

/-- A fixed text in front of a clipped one. -/
theorem length_echo_le {head : String} (s : String) (hhead : head.length ≤ 700) :
    (head ++ clipUntrusted s 256).length ≤ 957 := by
  have hclip := length_clipUntrusted_le s 256
  rw [String.length_append]
  omega

/-- A fixed text in front of a clipped one and one behind it. -/
theorem length_quote_le {head tail : String} (s : String) (hhead : head.length ≤ 700)
    (htail : tail.length ≤ 43) : (head ++ clipUntrusted s 256 ++ tail).length ≤ 1000 := by
  have hecho := length_echo_le s hhead
  rw [String.length_append]
  omega

/-! ### The OAuth2 flow -/

section Flow

open Tim.OAuth (Flow OAuthService OAuthCrates Provider Discovery JwkSet IdTokenClaims oauthSig)

variable {α β : Type} {K : OAuthCrates} {n l : Nat}

/-- While the texts from outside are terse, so are the errors of the program. -/
def TerseFlow (K : OAuthCrates) (n l : Nat) (p : Flow α) : Prop :=
  p.Under (S := oauthSig) (FlowTerse K n) (TerseEnd l)

/-- A result has no message. -/
theorem terseFlow_ret (a : α) : TerseFlow K n l (.ret a : Flow α) := trivial

/-- A short error ends the flow. -/
theorem terseFlow_fail {e : TimError} (he : Terse l e) :
    TerseFlow K n l (Flow.fail e : Flow α) := he

/-- An error with a fixed message, or with a clipped text in it. -/
theorem terseFlow_fixed (hl : 1000 ≤ l) {e : TimError} (he : Terse 1000 e) :
    TerseFlow K n l (Flow.fail e : Flow α) := he.mono hl

/-- Two parts with short messages in a row. -/
theorem terseFlow_bind {p : Flow α} {f : α → Flow β} (hp : TerseFlow K n l p)
    (hf : ∀ a, TerseFlow K n l (f a)) : TerseFlow K n l (p >>= f) := by
  refine Under.bind hp (fun a _ => hf a) fun e he => ?_
  cases e with
  | err e => exact he
  | panic => trivial

/-- A call, whose texts are as short as the surroundings promise. -/
theorem terseFlow_call {o : OAuth.Op} {f : OAuth.Resp o → Flow β}
    (hf : ∀ r, FlowTerse K n o r → TerseFlow K n l (f r)) :
    TerseFlow K n l (Flow.call o >>= f) := fun r hr => hf r hr

/-- The text of a failing statement is not part of the message that a client gets. -/
theorem terseFlow_sql {r : OAuth.Sql α} {f : α → Flow β} (hf : ∀ a, TerseFlow K n l (f a)) :
    TerseFlow K n l (Flow.sql r >>= f) := by
  cases r with
  | ok a => exact hf a
  | error e => exact terseFlow_fail (e := .database e) trivial

/-- A check with short errors. -/
theorem terseFlow_try {x : Except TimError α} {f : α → Flow β}
    (hx : ∀ e, x = .error e → Terse l e) (hf : ∀ a, TerseFlow K n l (f a)) :
    TerseFlow K n l (Flow.try_ x >>= f) := by
  cases x with
  | ok a => exact hf a
  | error e => exact terseFlow_fail (hx e rfl)

/-- Random bytes come without a message. -/
theorem terseFlow_randomHex {k : Nat} {f : String → Flow β} (hf : ∀ s, TerseFlow K n l (f s)) :
    TerseFlow K n l (OAuth.randomHex k >>= f) := fun b _ => hf (hexEncode b)

variable (svc : OAuthService K)

/-- A discovery document that is in use has a terse `jwks_uri`, and the errors on the way to it
are gateway errors, which show no message. -/
def DocEnd (n : Nat) : Except Fault Discovery → Prop
  | .ok doc => doc.jwksUri.length ≤ n
  | .error (.err e) => Terse 0 e
  | .error .panic => True

/-- The same of an attempt whose error is a value. -/
def DocAttempt (n : Nat) : Except Fault (Except TimError Discovery) → Prop
  | .ok (.ok doc) => doc.jwksUri.length ≤ n
  | .ok (.error e) => Terse 0 e
  | .error (.err _) => False
  | .error .panic => True

/-- A blocked request gets no message of its own. -/
theorem blockIfOffline_terse {url : String} {e : TimError} (h : svc.blockIfOffline url = some e) :
    Terse l e := by
  unfold OAuthService.blockIfOffline at h
  split at h
  · cases h
    exact trivial
  · cases h

/-- One attempt gets a document whose texts are as short as the surroundings promise. -/
theorem fetchOnce_doc (url : String) :
    (svc.fetchOnce url).Under (S := oauthSig) (FlowTerse K n) (DocEnd n) := by
  unfold OAuthService.fetchOnce
  split
  · rename_i e hblock
    exact blockIfOffline_terse svc hblock
  · refine fun r hr => ?_
    cases r with
    | error e => exact trivial
    | ok resp =>
        show Under (S := oauthSig) _ _ (if _ then _ else _)
        split
        · exact trivial
        · split
          · exact trivial
          · rename_i doc hdoc
            exact hr resp doc rfl hdoc

/-- A refused document gets no message of its own. -/
theorem validateWith_terse {doc : Discovery} {allowHttp : Bool} {e : TimError}
    (h : doc.validateWith allowHttp = .error e) : Terse 0 e := by
  unfold Discovery.validateWith at h
  repeat' split at h
  all_goals cases h
  all_goals trivial

/-- An accepted document is the one that was there. -/
theorem acceptDocument_doc (url : String) (allowHttp : Bool) {doc : Discovery}
    (hdoc : doc.jwksUri.length ≤ n) :
    (OAuthService.acceptDocument url allowHttp doc).Under (S := oauthSig) (FlowTerse K n)
      (DocEnd n) := by
  unfold OAuthService.acceptDocument
  cases hvalid : doc.validateWith allowHttp with
  | error e => exact validateWith_terse hvalid
  | ok _ => exact fun _ _ => hdoc

/-- The loop of attempts, by induction on their number. -/
theorem fetchAttempts_doc (url : String) (allowHttp : Bool) (retries delayMs : Nat) :
    (svc.fetchAttempts url allowHttp retries delayMs).Under (S := oauthSig) (FlowTerse K n)
      (DocEnd n) := by
  have hattempt : (Flow.attempt (svc.fetchOnce url)).Under (S := oauthSig) (FlowTerse K n)
      (DocAttempt n) := by
    refine Under.handle (fetchOnce_doc svc url) fun x hx => ?_
    match x, hx with
    | .ok doc, hdoc => exact hdoc
    | .error (.err e), he => exact he
    | .error .panic, _ => trivial
  induction retries generalizing delayMs with
  | zero =>
      refine Under.handle hattempt fun x hx => ?_
      match x, hx with
      | .ok (.ok doc), hdoc => exact acceptDocument_doc url allowHttp hdoc
      | .ok (.error e), he => exact he
      | .error .panic, _ => trivial
  | succ retries ih =>
      refine Under.handle hattempt fun x hx => ?_
      match x, hx with
      | .ok (.ok doc), hdoc => exact acceptDocument_doc url allowHttp hdoc
      | .ok (.error e), he =>
          show Under (S := oauthSig) _ _ (if _ then _ else _)
          split
          · exact fun _ _ => ih _
          · exact he
      | .error .panic, _ => trivial

/-- A discovery gets such a document, from the cache or by an attempt. -/
theorem fetchWith_doc (url : String) (allowHttp : Bool) :
    (svc.fetchWith url allowHttp).Under (S := oauthSig) (FlowTerse K n) (DocEnd n) := by
  refine fun r hr => ?_
  cases r with
  | some doc => exact hr doc rfl
  | none => exact fetchAttempts_doc svc url allowHttp 3 500

/-- The message about a pin has the id of the provider and both URIs. It is the one that depends on
the configuration. -/
theorem enforceJwksPin_terse {provider : Provider} {doc : Discovery} {e : TimError}
    (hdoc : doc.jwksUri.length ≤ n)
    (hpin : provider.id.length + (provider.config.jwksUri.getD "").length + n + 1000 ≤ l)
    (h : OAuth.enforceJwksPin provider doc = .error e) : Terse l e := by
  unfold OAuth.enforceJwksPin at h
  split at h
  · cases h
  · rename_i pinned hpinned
    rw [hpinned] at hpin
    split at h
    · cases h
      show String.length _ ≤ l
      simp only [String.length_append]
      have h1 : "provider ".length = 9 := String.length_ofList
      have h2 : ": discovery jwks_uri `".length = 22 := String.length_ofList
      have h3 : "` does not match pinned value `".length = 31 := String.length_ofList
      have h4 : "`".length = 1 := String.length_ofList
      have hget : (some pinned : Option String).getD "" = pinned := rfl
      rw [hget] at hpin
      omega
    · cases h

/-- The provider's document, and then its pin. -/
theorem terseFlow_discovery {provider : Provider} {f : Discovery → Flow β}
    (hpin : provider.id.length + (provider.config.jwksUri.getD "").length + n + 1000 ≤ l)
    (hf : ∀ doc, TerseFlow K n l (f doc)) :
    TerseFlow K n l (svc.fetchWith provider.config.discoveryUrl provider.config.allowHttpDiscovery
      >>= fun doc => Flow.try_ (OAuth.enforceJwksPin provider doc) >>= fun _ => f doc) := by
  refine Under.bind (fetchWith_doc svc _ _) (fun doc hdoc => ?_) fun e he => ?_
  · exact terseFlow_try (fun e he => enforceJwksPin_terse hdoc hpin he) fun _ => hf doc
  · cases e with
    | err e => exact Terse.mono he (Nat.zero_le _)
    | panic => trivial

/-- The messages of a login: that about the pin is the longest. -/
theorem buildLoginUrl_terse {providerId : String} (redirectUri : String) {provider : Provider}
    (hknown : svc.providers[providerId]? = some provider)
    (hpin : provider.id.length + (provider.config.jwksUri.getD "").length + n + 1000 ≤ l) :
    TerseFlow K n l (svc.buildLoginUrl providerId redirectUri) := by
  unfold OAuthService.buildLoginUrl
  rw [hknown]
  refine terseFlow_discovery svc hpin fun doc => ?_
  refine terseFlow_randomHex fun state => terseFlow_randomHex fun nonce => ?_
  refine fun raw _ => fun r _ => terseFlow_sql fun _ => ?_
  split
  · exact terseFlow_fail trivial
  · exact terseFlow_ret _

/-- A message that repeats a clipped text is short. -/
theorem terse_echo {head : String} (s : String) (hhead : head.length ≤ 700) :
    Terse 1000 (.unprocessable (head ++ clipUntrusted s 256)) :=
  Nat.le_trans (length_echo_le s hhead) (by decide)

/-- The message about a missing key repeats a clipped key id. -/
theorem selectKey_terse {set : JwkSet} {header : Header} {e : TimError}
    (h : OAuth.selectKey set header = .error e) : Terse 1000 e := by
  unfold OAuth.selectKey at h
  split at h
  · rename_i kid _
    split at h
    · cases h
    · cases h
      exact length_quote_le kid (length_fixed (by decide)) (length_fixed (by decide))
  · split at h
    · cases h
    · cases h
      exact length_fixed (by decide)

/-- The message about an unusable key is short. -/
theorem decodingKeyFor_terse {jwk : OAuth.Jwk} {e : TimError}
    (h : OAuth.decodingKeyFor K jwk = .error e) : Terse 1000 e := by
  unfold OAuth.decodingKeyFor at h
  split at h
  · split at h
    · cases h
    · cases h
      exact terse_echo _ (length_fixed (by decide))
  · split at h
    · cases h
    · cases h
      exact terse_echo _ (length_fixed (by decide))
  · cases h
    exact terse_echo _ (length_fixed (by decide))

/-- A key fetch gets no message of its own. -/
theorem loadJwks_terse (uri : String) : TerseFlow K n l (svc.loadJwks uri) := by
  unfold OAuthService.loadJwks
  split
  · rename_i e hblock
    exact terseFlow_fail (blockIfOffline_terse svc hblock)
  · refine terseFlow_call fun r _ => ?_
    cases r with
    | error e => exact terseFlow_fail trivial
    | ok resp =>
        dsimp only
        split
        · exact terseFlow_fail trivial
        · split
          · exact terseFlow_fail trivial
          · exact terseFlow_ret _

/-- Neither does one with the cache in front. -/
theorem fetchJwks_terse (uri : String) : TerseFlow K n l (svc.fetchJwks uri) := by
  refine terseFlow_call fun r _ => ?_
  cases r with
  | some set => exact terseFlow_ret set
  | none =>
      refine terseFlow_bind (loadJwks_terse svc uri) fun set => ?_
      exact terseFlow_call fun _ _ => terseFlow_ret set

/-- The messages about an ID token are fixed, or repeat clipped texts. -/
theorem verify_terse (hl : 1000 ≤ l) (doc : Discovery) (provider : Provider)
    (idToken expectedNonce : String) :
    TerseFlow K n l (svc.verify doc provider idToken expectedNonce) := by
  unfold OAuthService.verify
  split
  · exact terseFlow_fixed hl (terse_echo _ (length_fixed (by decide)))
  · split
    · exact terseFlow_fixed hl (length_fixed (by decide))
    · refine terseFlow_bind (fetchJwks_terse svc _) fun set => ?_
      refine terseFlow_try (fun e he => (selectKey_terse he).mono hl) fun key => ?_
      refine terseFlow_try (fun e he => (decodingKeyFor_terse he).mono hl) fun decoding => ?_
      refine terseFlow_call fun at_ _ => ?_
      split
      · exact terseFlow_fixed hl (terse_echo _ (length_fixed (by decide)))
      · split
        · exact terseFlow_fixed hl (length_fixed (by decide))
        · refine terseFlow_call fun now _ => ?_
          dsimp only
          split
          · exact terseFlow_fixed hl (length_fixed (by decide))
          · split
            · exact terseFlow_fixed hl (length_fixed (by decide))
            · split
              · exact terseFlow_fixed hl (length_fixed (by decide))
              · exact terseFlow_ret _

/-- A token request gets no message of its own. -/
theorem exchange_terse (provider : Provider) (endpoint : String)
    (form : List (String × String)) :
    TerseFlow K n l (svc.exchange provider endpoint form) := by
  unfold OAuthService.exchange
  split
  · rename_i e hblock
    exact terseFlow_fail (blockIfOffline_terse svc hblock)
  · refine terseFlow_call fun r _ => ?_
    cases r with
    | error e =>
        dsimp only
        split
        · exact terseFlow_fail trivial
        · exact terseFlow_fail trivial
    | ok resp =>
        dsimp only
        split
        · exact terseFlow_fail trivial
        · split
          · exact terseFlow_fail trivial
          · exact terseFlow_ret _

/-- The message of the session store is the one that its errors bring. -/
theorem openSession_terse (hn : n ≤ l) (providerId : String) (provider : Provider)
    (tokens : OAuth.TokenResponse) (claims : IdTokenClaims) :
    TerseFlow K n l (svc.openSession providerId provider tokens claims) := by
  unfold OAuthService.openSession OAuth.addSeconds
  refine terseFlow_call fun now _ => ?_
  split
  · exact trivial
  · refine terseFlow_randomHex fun id => fun r hr => ?_
    cases r with
    | ok _ => exact terseFlow_ret _
    | error e => exact terseFlow_fail ((hr e rfl).mono hn)

/-- The messages of a callback: that about the pin is the longest. -/
theorem completeCallback_terse {providerId : String} (code state : String) {provider : Provider}
    (hknown : svc.providers[providerId]? = some provider)
    (hpin : provider.id.length + (provider.config.jwksUri.getD "").length + n + 1000 ≤ l) :
    TerseFlow K n l (svc.completeCallback providerId code state) := by
  have hl : 1000 ≤ l := by omega
  unfold OAuthService.completeCallback
  rw [hknown]
  refine fun r _ => terseFlow_sql fun row => ?_
  cases row with
  | none => exact terseFlow_fixed hl (length_fixed (by decide))
  | some row =>
      show TerseFlow K n l (OAuthService.redeem ..)
      unfold OAuthService.redeem
      refine terseFlow_discovery svc hpin fun doc => terseFlow_call fun r _ => ?_
      cases r with
      | error e => exact terseFlow_fail trivial
      | ok _ =>
          refine terseFlow_bind (exchange_terse svc _ _ _) fun tokens => ?_
          split
          · exact terseFlow_fixed hl (length_fixed (by decide))
          · refine terseFlow_bind (verify_terse svc hl _ _ _ _) fun claims => ?_
            exact openSession_terse svc (by omega) _ _ _ _

end Flow

end Tim.Web
