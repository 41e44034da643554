import Tim.Proofs.Signer
import Tim.Proofs.Store

/-!
# `Tim.Proofs.Trace`: the calls of each program

The specification of every program of the token service, as the list of its calls.

`generate` and `extend` are the two programs that sign a token and write metadata.
`Generated` and `Extended` hold the values that a successful execution meets, and `events`
lists its calls and answers in order. A call in the middle of such an execution comes after a
prefix of that list: this is what `Call` says. `Done` says that a successful execution has
made the whole list.

The other programs open no transaction. They read, and insert into the denylist on the pool.

* `generate_spec`, `extend_spec`: the two programs that sign.
* `validate_spec`, `introspect_spec`, `authenticateBearer_spec`: the three that look up.
* `revoke_spec`, `bulkRevoke_spec`, `revokeByJti_spec`: the three that revoke.
* `program_spec`: every request.
-/

set_option autoImplicit false

namespace Tim

open Tim.Lib Tim.Lib.Prog Tim.Action

/-! ### Rules for the combinators of the service -/

section Rules

variable {K : Crates} {α β : Type} {φ : List (Event (jwtSig K)) → Op → Prop}
  {ψ : List (Event (jwtSig K)) → Except Fault β → Prop} {h : List (Event (jwtSig K))}

/-- A call has to be allowed where it is made, and every answer is put into the history. -/
theorem spec_call_bind {o : Op} {f : Resp K o → Action K β} :
    Spec φ ψ h (Action.call o >>= f) ↔ φ h o ∧ ∀ r, Spec φ ψ (h ++ [⟨o, r⟩]) (f r) := Iff.rfl

/-- An error has to meet the postcondition where it is raised. -/
theorem spec_fail {e : TimError} : Spec φ ψ h (Action.fail e) ↔ ψ h (.error (.err e)) := Iff.rfl

/-- What comes after an error is not reached. -/
theorem spec_fail_bind {e : TimError} {f : α → Action K β} :
    Spec φ ψ h (Action.fail e >>= f) ↔ ψ h (.error (.err e)) := Iff.rfl

/-- A result has to meet the postcondition where it is returned. -/
theorem spec_pure {b : β} : Spec φ ψ h (pure b : Action K β) ↔ ψ h (.ok b) := Iff.rfl

/-- The rule of `?` on the answer to a statement. -/
theorem spec_sql_bind {r : Sql α} {f : α → Action K β} :
    Spec φ ψ h (Action.sql r >>= f)
      ↔ (∀ a, r = .ok a → Spec φ ψ h (f a))
        ∧ ∀ e, r = .error e → ψ h (.error (.err (.database e))) := by
  cases r with
  | ok a => simp [Action.sql, Prog.bind_eq]
  | error e =>
      simp only [Action.sql, reduceCtorEq, false_implies, implies_true, true_and,
        Except.error.injEq, forall_eq']
      exact spec_fail_bind

/-- `now + Duration::minutes(minutes)` without the panic. -/
def plusMinutes (now : DateTime) (minutes : Int64) : Option DateTime :=
  (Duration.tryMinutes minutes).bind now.checkedAdd

/-- The addition returns the sum, or panics where there is none. -/
theorem addMinutes_eq (now : DateTime) (m : Int64) :
    (addMinutes now m : Action K DateTime) = match plusMinutes now m with
      | some t => .ret t
      | none => .raise .panic := by
  unfold addMinutes plusMinutes
  cases Duration.tryMinutes m with
  | none => rfl
  | some d =>
      rw [Option.bind_some]
      cases hadd : now.checkedAdd d <;> simp only [hadd]

/-- Both ways out of the addition. -/
theorem spec_addMinutes_bind {now : DateTime} {m : Int64} {f : DateTime → Action K β} :
    Spec φ ψ h (addMinutes now m >>= f)
      ↔ (∀ t, plusMinutes now m = some t → Spec φ ψ h (f t))
        ∧ (plusMinutes now m = none → ψ h (.error .panic)) := by
  rw [addMinutes_eq]
  cases plusMinutes now m with
  | none =>
      constructor
      · intro hs
        refine ⟨fun t ht => ?_, fun _ => hs⟩
        cases ht
      · intro hs
        exact hs.2 rfl
  | some t =>
      constructor
      · intro hs
        refine ⟨fun t' ht => ?_, nofun⟩
        cases ht
        exact hs
      · intro hs
        exact hs.1 t rfl

/-- The rule of a denylist lookup: the answer is a value, or the error of the statement. -/
theorem spec_lookup_bind {jti : Uuid} {f : Bool → Action K β} :
    Spec φ ψ h (JwtService.denylistLookup jti >>= f)
      ↔ φ h (.selectDenylist jti)
        ∧ (∀ b, Spec φ ψ (h ++ [⟨Op.selectDenylist jti, Except.ok b⟩]) (f b))
        ∧ ∀ e, ψ (h ++ [⟨Op.selectDenylist jti, Except.error e⟩])
            (.error (.err (.database e))) := by
  constructor
  · intro hs
    exact ⟨hs.1, fun b => hs.2 (Except.ok b), fun e => hs.2 (Except.error e)⟩
  · intro hs
    refine ⟨hs.1, fun r => ?_⟩
    cases r with
    | ok b => exact hs.2.1 b
    | error e => exact hs.2.2 e

/-- The rule for a program whose value is wrapped. -/
theorem spec_map {p : Action K α} {f : α → β} {ψ' : List (Event (jwtSig K)) → Except Fault α → Prop}
    (hp : Spec φ ψ' h p) (hok : ∀ h a, ψ' h (.ok a) → ψ h (.ok (f a)))
    (herr : ∀ h e, ψ' h (.error e) → ψ h (.error e)) :
    Spec φ ψ h (do return f (← p)) := by
  refine (spec_bind p _ h).mpr (hp.mono (fun _ _ hφ => hφ) ?_)
  intro h' x hx
  cases x with
  | ok a => exact hok h' a hx
  | error e => exact herr h' e hx

/-- The later of the two instants is the first one moved by the minutes. -/
theorem plusMinutes_ns {now exp : DateTime} {m : Int64} (he : plusMinutes now m = some exp) :
    exp.ns = now.ns + m.toInt * 60 * nanosPerSecond := by
  unfold plusMinutes at he
  obtain ⟨d, hd, hadd⟩ := Option.bind_eq_some_iff.mp he
  rw [DateTime.checkedAdd_ns hadd, Duration.tryMinutes_ns hd]

end Rules

namespace JwtService

variable {K : Crates}

/-! ### `generate` -/

/-- The values that `generate` meets before it signs. -/
structure Draft where
  aud : List String
  jti : Uuid
  now : DateTime
  exp : DateTime

/-- The values of a successful `generate`. -/
structure Generated (K : Crates) extends Draft where
  token : K.Token
  id : Uuid

/-- The claims that `generate` signs. -/
def Draft.claims (svc : JwtService K) (req : GenerateRequest) (d : Draft) : StandardClaims :=
  svc.generateClaims req d.aud d.jti d.now d.exp

/-- The calls before the signature, with their answers. -/
def Draft.events (K : Crates) (d : Draft) : List (Event (jwtSig K)) :=
  [⟨Op.newUuid, d.jti⟩, ⟨Op.now, d.now⟩]

/-- The checks before the signature. -/
structure Draft.Valid (svc : JwtService K) (req : GenerateRequest) (d : Draft) : Prop where
  minutes : 0 < req.expirationInMinutes
  aud : svc.resolveAudience req.audience = .ok d.aud
  exp : plusMinutes d.now req.expirationInMinutes = some d.exp

/-- The metadata row that `generate` inserts. -/
def Generated.row (svc : JwtService K) (req : GenerateRequest) (g : Generated K) : NewMetadata :=
  svc.generateRow req (g.claims svc req) g.aud g.id g.jti g.now g.exp

/-- The calls of `generate` before it inserts, with their answers. -/
def Generated.signEvents (svc : JwtService K) (req : GenerateRequest) (g : Generated K) :
    List (Event (jwtSig K)) :=
  g.toDraft.events K ++ [⟨Op.sign (g.claims svc req), Except.ok g.token⟩, ⟨Op.newUuid, g.id⟩]

/-- The calls of a successful `generate`, with their answers. -/
def Generated.events (svc : JwtService K) (req : GenerateRequest) (g : Generated K) :
    List (Event (jwtSig K)) :=
  g.signEvents svc req ++ [⟨Op.insertMetadata .pool (g.row svc req), Except.ok ()⟩]

/-- The calls that `generate` makes after the events `h`. -/
def GenerateCall (svc : JwtService K) (req : GenerateRequest) (h : List (Event (jwtSig K))) :
    Op → Prop
  | .newUuid | .now => True
  | .sign c => ∃ d : Draft, d.Valid svc req ∧ h = d.events K ∧ c = d.claims svc req
  | .insertMetadata conn row => ∃ g : Generated K, g.Valid svc req ∧ h = g.signEvents svc req
      ∧ conn = .pool ∧ row = g.row svc req
  | _ => False

/-- A successful `generate` has made its whole list of calls. -/
def GenerateDone (svc : JwtService K) (req : GenerateRequest) (h : List (Event (jwtSig K))) :
    Except Fault (TokenResponse K) → Prop
  | .ok r => ∃ g : Generated K, g.Valid svc req ∧ h = g.events svc req ∧ r.token = g.token
  | .error _ => True

/-- A generation makes its calls in the order of the source, and ends as they have answered. -/
theorem generate_spec (svc : JwtService K) (req : GenerateRequest) :
    Spec (svc.GenerateCall req) (svc.GenerateDone req) [] (svc.generate req) := by
  unfold generate
  split
  · exact trivial
  · rename_i hmin
    have hmin : 0 < req.expirationInMinutes := Int64.not_le.mp hmin
    split
    · exact trivial
    · split
      · exact trivial
      · rename_i aud haud
        refine spec_call_bind.mpr ⟨trivial, fun jti => ?_⟩
        refine spec_call_bind.mpr ⟨trivial, fun now => ?_⟩
        refine spec_addMinutes_bind.mpr ⟨fun exp hexp => ?_, fun _ => trivial⟩
        have hvalid : (⟨aud, jti, now, exp⟩ : Draft).Valid svc req := ⟨hmin, haud, hexp⟩
        refine spec_call_bind.mpr ⟨⟨⟨aud, jti, now, exp⟩, hvalid, rfl, rfl⟩, fun signed => ?_⟩
        cases signed with
        | error e => exact trivial
        | ok token =>
            refine spec_call_bind.mpr ⟨trivial, fun id => ?_⟩
            let g : Generated K := ⟨⟨aud, jti, now, exp⟩, token, id⟩
            refine spec_call_bind.mpr ⟨⟨g, hvalid, rfl, rfl, rfl⟩, fun inserted => ?_⟩
            refine spec_sql_bind.mpr ⟨fun _ hok => ?_, fun _ _ => trivial⟩
            subst hok
            exact ⟨g, hvalid, rfl, rfl⟩

/-! ### `extend` -/

/-- The values that `extend` meets before it signs. -/
structure Source where
  at_ : DateTime
  old : StandardClaims
  now : DateTime
  oldJti : Uuid
  found : Option (Uuid × Uuid × Option String)
  newExp : DateTime
  newJti : Uuid

/-- The values that `extend` meets before its transaction ends. -/
structure Extended (K : Crates) extends Source where
  token : K.Token
  id : Uuid
  oldExp : DateTime
  rows : Nat

namespace Source

/-- The claims that `extend` signs. -/
def claims (svc : JwtService K) (x : Source) : StandardClaims :=
  svc.extendClaims x.old x.newJti x.now x.newExp

/-- What `extend` takes over from the metadata of the old token. -/
def anc (x : Source) : Ancestor := ancestor x.oldJti x.found

/-- The reads of `extend`, with their answers. -/
def reads (K : Crates) (x : Source) : List (Event (jwtSig K)) :=
  [⟨Op.now, x.at_⟩, ⟨Op.now, x.now⟩, ⟨Op.selectDenylist x.oldJti, Except.ok false⟩,
   ⟨Op.selectChain x.oldJti, Except.ok x.found⟩]

/-- The calls before the signature, with their answers. -/
def events (K : Crates) (x : Source) : List (Event (jwtSig K)) :=
  x.reads K ++ [⟨Op.newUuid, x.newJti⟩]

/-- The checks before the signature. -/
structure Valid (svc : JwtService K) (req : ExtendRequest K) (x : Source) : Prop where
  verified : svc.signer.verify x.at_ StandardClaims.deserialize req.token permissiveValidation
    = .ok x.old
  alive : ¬ x.old.exp < x.now.timestamp
  jti : K.parseUuid x.old.jti = some x.oldJti
  minutes : 0 < req.expirationInMinutes.getD 60
  exp : plusMinutes x.now (req.expirationInMinutes.getD 60) = some x.newExp

end Source

namespace Extended

variable (svc : JwtService K) (x : Extended K)

/-- The metadata row that `extend` inserts. -/
def row : NewMetadata :=
  svc.extendRow x.old (x.claims svc) x.anc x.id x.newJti x.now x.newExp

/-- The calls before the transaction. -/
def signEvents : List (Event (jwtSig K)) :=
  x.toSource.events K ++ [⟨Op.sign (x.claims svc), Except.ok x.token⟩]

/-- The calls before the metadata row is inserted. -/
def beginEvents : List (Event (jwtSig K)) :=
  x.signEvents svc ++ [⟨Op.begin, Except.ok ()⟩, ⟨Op.newUuid, x.id⟩]

/-- The calls before the old token is denylisted. -/
def metadataEvents : List (Event (jwtSig K)) :=
  x.beginEvents svc ++ [⟨Op.insertMetadata .tx (x.row svc), Except.ok ()⟩]

/-- The calls before the commit. -/
def denylistEvents : List (Event (jwtSig K)) :=
  x.metadataEvents svc
    ++ [⟨Op.insertDenylist .tx x.oldJti x.oldExp (some supersededReason), Except.ok x.rows⟩]

/-- The calls of a successful `extend`. -/
def events : List (Event (jwtSig K)) :=
  x.denylistEvents svc ++ [⟨Op.commit, Except.ok ()⟩]

end Extended

/-- The calls that `extend` makes after the events `h`. -/
def ExtendCall (svc : JwtService K) (req : ExtendRequest K) (h : List (Event (jwtSig K))) :
    Op → Prop
  | .now | .selectDenylist _ | .newUuid | .rollback => True
  | .selectChain _ => h.length = 3
  | .sign c => ∃ x : Source, x.Valid svc req ∧ h = x.events K ∧ c = x.claims svc
  | .begin => ∃ x : Extended K, x.Valid svc req ∧ h = x.signEvents svc
  | .insertMetadata conn row => ∃ x : Extended K, x.Valid svc req ∧ h = x.beginEvents svc
      ∧ conn = .tx ∧ row = x.row svc
  | .insertDenylist conn jti exp reason => ∃ x : Extended K, x.Valid svc req
      ∧ h = x.metadataEvents svc ∧ conn = .tx ∧ jti = x.oldJti ∧ exp = x.oldExp
      ∧ reason = some supersededReason
  | .commit => ∃ x : Extended K, x.Valid svc req ∧ h = x.denylistEvents svc
  | _ => False

/-- A successful `extend` has made its whole list of calls. -/
def ExtendDone (svc : JwtService K) (req : ExtendRequest K) (h : List (Event (jwtSig K))) :
    Except Fault (TokenResponse K) → Prop
  | .ok r => ∃ x : Extended K, x.Valid svc req ∧ h = x.events svc ∧ r.token = x.token
  | .error _ => True

/-- The part of `extend` inside its transaction. When it ends without an error it has
inserted both rows. -/
theorem extendTx_spec (svc : JwtService K) (req : ExtendRequest K) (x : Source)
    (hx : x.Valid svc req) (token : K.Token) :
    Spec (svc.ExtendCall req)
      (fun h r => r = .ok () → ∃ x' : Extended K, x'.toSource = x ∧ x'.token = token
        ∧ h = x'.denylistEvents svc)
      ((⟨x, token, x.oldJti, x.now, 0⟩ : Extended K).signEvents svc
        ++ [⟨Op.begin, Except.ok ()⟩])
      (svc.extendTx x.old (x.claims svc) x.anc x.oldJti x.newJti x.now x.newExp) := by
  unfold extendTx
  refine spec_call_bind.mpr ⟨trivial, fun id => ?_⟩
  refine spec_call_bind.mpr ⟨⟨⟨x, token, id, x.now, 0⟩, hx, rfl, rfl, rfl⟩, fun inserted => ?_⟩
  refine spec_sql_bind.mpr ⟨fun _ hok => ?_, fun _ _ => nofun⟩
  subst hok
  cases DateTime.fromTimestamp x.old.exp with
  | none => exact nofun
  | some oldExp =>
      refine spec_call_bind.mpr ⟨⟨⟨x, token, id, oldExp, 0⟩, hx, rfl, rfl, rfl, rfl, rfl⟩,
        fun denied => ?_⟩
      refine spec_sql_bind.mpr ⟨fun rows hok => ?_, fun _ _ => nofun⟩
      subst hok
      exact fun _ => ⟨⟨x, token, id, oldExp, rows⟩, rfl, rfl, rfl⟩

/-- A transaction that stops is rolled back, and the error goes through. -/
theorem spec_orRollback_bind {φ : List (Event (jwtSig K)) → Op → Prop} {α β : Type}
    {ψ : List (Event (jwtSig K)) → Except Fault β → Prop} {h : List (Event (jwtSig K))}
    {p : Action K α} {f : α → Action K β} {ψ' : List (Event (jwtSig K)) → Except Fault α → Prop}
    (hp : Spec φ ψ' h p) (hok : ∀ h a, ψ' h (.ok a) → Spec φ ψ h (f a))
    (herr : ∀ h e, ψ' h (.error e) → φ h .rollback
      ∧ ψ (h ++ [⟨Op.rollback, ()⟩]) (.error e)) :
    Spec φ ψ h (orRollback p >>= f) := by
  refine (spec_bind (orRollback p) f h).mpr ((spec_handle p _ _ h).mpr ?_)
  refine hp.mono (fun _ _ hφ => hφ) ?_
  intro h' x hx
  cases x with
  | ok a => exact hok h' a hx
  | error e => exact spec_call_bind.mpr ⟨(herr h' e hx).1, fun _ => (herr h' e hx).2⟩

/-- So does an extension. -/
theorem extend_spec (svc : JwtService K) (req : ExtendRequest K) :
    Spec (svc.ExtendCall req) (svc.ExtendDone req) [] (svc.extend req) := by
  unfold extend
  refine spec_call_bind.mpr ⟨trivial, fun at_ => ?_⟩
  split
  · exact trivial
  · rename_i old hverify
    refine spec_call_bind.mpr ⟨trivial, fun now => ?_⟩
    split
    · exact trivial
    · rename_i halive
      split
      · exact trivial
      · rename_i oldJti hjti
        refine spec_lookup_bind.mpr ⟨trivial, fun denied => ?_, fun _ => trivial⟩
        cases denied with
        | true => exact trivial
        | false =>
            refine spec_call_bind.mpr ⟨rfl, fun answer => ?_⟩
            refine spec_sql_bind.mpr ⟨fun found hok => ?_, fun _ _ => trivial⟩
            subst hok
            show Spec _ _ _ (ite _ _ _)
            split
            · exact trivial
            · rename_i hmin
              have hmin : 0 < req.expirationInMinutes.getD 60 := Int64.not_le.mp hmin
              refine spec_addMinutes_bind.mpr ⟨fun newExp hexp => ?_, fun _ => trivial⟩
              refine spec_call_bind.mpr ⟨trivial, fun newJti => ?_⟩
              -- All that the rest of the program uses is known from here on.
              let x : Source := ⟨at_, old, now, oldJti, found, newExp, newJti⟩
              have hx : x.Valid svc req := ⟨hverify, halive, hjti, hmin, hexp⟩
              refine spec_call_bind.mpr ⟨⟨x, hx, rfl, rfl⟩, fun signed => ?_⟩
              cases signed with
              | error e => exact trivial
              | ok token =>
                  refine spec_call_bind.mpr ⟨⟨⟨x, token, newJti, now, 0⟩, hx, rfl⟩, fun begun => ?_⟩
                  refine spec_sql_bind.mpr ⟨fun _ hok => ?_, fun _ _ => trivial⟩
                  subst hok
                  -- Whichever of its statements fails, the one call left is the rollback.
                  refine spec_orRollback_bind (extendTx_spec svc req x hx token) ?_
                    (fun _ _ _ => ⟨trivial, trivial⟩)
                  intro h' _ hdone
                  obtain ⟨x', hsrc, htok, rfl⟩ := hdone rfl
                  have hx' : x'.Valid svc req := hsrc ▸ hx
                  refine spec_call_bind.mpr ⟨⟨x', hx', rfl⟩, fun committed => ?_⟩
                  refine spec_sql_bind.mpr ⟨fun _ hok => ?_, fun _ _ => trivial⟩
                  subst hok
                  exact ⟨x', hx', rfl, htok.symm⟩

/-! ### The programs without a transaction -/

/-- The calls of the programs that revoke or list: they neither sign, nor look a token up, nor
open a transaction. -/
def Plain : Op → Prop
  | .now | .selectDenylistEntry _ | .selectExpiresAt _ | .selectTokens .. | .countTokens .. => True
  | .insertDenylist conn .. => conn = .pool
  | _ => False

/-- The calls of the programs that only check a token. -/
def Check : Op → Prop
  | .now | .selectDenylist _ => True
  | _ => False

/-- A denylist lookup with its answer. -/
def asLookup : Event (jwtSig K) → Option (Uuid × Sql Bool)
  | ⟨.selectDenylist jti, r⟩ => some (jti, r)
  | _ => none

/-- The denylist lookups among the events. -/
def lookups (h : List (Event (jwtSig K))) : List (Uuid × Sql Bool) := h.filterMap asLookup

/-- The token verifies under the service's keys and carries the jti. -/
def Carries (svc : JwtService K) (v : Validation) (token : K.Token) (jti : Uuid) : Prop :=
  ∃ at_ claims, svc.signer.verifyRaw at_ StandardClaims.deserialize token v = .ok claims
    ∧ K.parseUuid claims.jti = some jti

/-- The result of a finished request by its lookup. `revoked` is the result after a hit, and
`accepted` says that the result accepts the token. A token is looked up at most once, by its
own jti, and an accepted one was looked up and not found. -/
def LookupDone {α : Type} (svc : JwtService K) (v : Validation) (token : K.Token)
    (revoked accepted : Except Fault α → Prop) (h : List (Event (jwtSig K)))
    (x : Except Fault α) : Prop :=
  match lookups h with
  | [] => ¬ accepted x
  | [(jti, .ok true)] => svc.Carries v token jti ∧ revoked x
  | [(jti, .ok false)] => svc.Carries v token jti
  | [(jti, .error e)] => svc.Carries v token jti ∧ x = .error (.err (.database e))
  | _ => False

/-- The calls of a program that looks a token up: none follows a hit or a failed lookup. -/
def LookupCall (h : List (Event (jwtSig K))) (o : Op) : Prop :=
  Check o ∧ ∀ l ∈ lookups h, l.2 = .ok false

/-- What `verify` accepts has been accepted without the mapping of errors. -/
theorem verifyRaw_of_verify {C : Type} {s : JwtSigner K} {now : DateTime}
    {de : Payload → Option C} {token : K.Token} {v : Validation} {c : C}
    (h : s.verify now de token v = .ok c) : s.verifyRaw now de token v = .ok c := by
  unfold JwtSigner.verify at h
  split at h
  · rename_i d hd
    rw [hd]
    cases h
    rfl
  · cases h

/-- The other way round. -/
theorem verify_of_verifyRaw {C : Type} {s : JwtSigner K} {now : DateTime}
    {de : Payload → Option C} {token : K.Token} {v : Validation} {c : C}
    (h : s.verifyRaw now de token v = .ok c) : s.verify now de token v = .ok c := by
  unfold JwtSigner.verify
  rw [h]

/-- A validation looks up the jti once it has verified the token, and its answer follows. -/
theorem validate_spec (svc : JwtService K) (req : ValidateRequest K) :
    Spec LookupCall
      (LookupDone svc permissiveValidation req.token
        (fun x => ∃ c, x = .ok (responseFrom c true false "revoked"))
        (fun x => ∃ r, x = .ok r ∧ r.active = true)) []
      (svc.validate req) := by
  -- The exits before the lookup accept nothing.
  have hinactive : ∀ r : ValidateResponse, r.active = false →
      ¬ ∃ r', (Except.ok r : Except Fault ValidateResponse) = .ok r' ∧ r'.active = true := by
    rintro r hr ⟨r', heq, hact⟩
    cases heq
    rw [hr] at hact
    cases hact
  have herror : ∀ f, ¬ ∃ r', (Except.error f : Except Fault ValidateResponse) = .ok r'
      ∧ r'.active = true := by
    rintro f ⟨r', heq, -⟩
    cases heq
  unfold validate
  refine spec_call_bind.mpr ⟨⟨trivial, nofun⟩, fun at_ => ?_⟩
  split
  · exact hinactive _ rfl
  · rename_i claims hverify
    refine spec_call_bind.mpr ⟨⟨trivial, nofun⟩, fun now => ?_⟩
    split
    · exact hinactive _ rfl
    · split
      · exact hinactive _ rfl
      · split
        · exact hinactive _ rfl
        · split
          · exact hinactive _ rfl
          · split
            · exact herror _
            · rename_i jti hjti
              have hcarries : svc.Carries permissiveValidation req.token jti :=
                ⟨at_, claims, hverify, hjti⟩
              refine spec_lookup_bind.mpr ⟨⟨trivial, nofun⟩, fun denied => ?_, fun e => ?_⟩
              · cases denied with
                | true => exact ⟨hcarries, claims, rfl⟩
                | false => exact hcarries
              · exact ⟨hcarries, rfl⟩

/-- So does an introspection. -/
theorem introspect_spec (svc : JwtService K) (req : IntrospectRequest K) :
    Spec LookupCall
      (LookupDone svc permissiveValidation req.token (fun x => x = .ok .inactive)
        (fun x => ∃ r, x = .ok r ∧ r.active = true)) []
      (svc.introspect req) := by
  have hinactive : ¬ ∃ r, (Except.ok IntrospectionResponse.inactive :
      Except Fault IntrospectionResponse) = .ok r ∧ r.active = true := by
    rintro ⟨r, heq, hact⟩
    cases heq
    cases hact
  unfold introspect
  refine spec_call_bind.mpr ⟨⟨trivial, nofun⟩, fun at_ => ?_⟩
  split
  · exact hinactive
  · rename_i claims hverify
    split
    · exact hinactive
    · refine spec_call_bind.mpr ⟨⟨trivial, nofun⟩, fun now => ?_⟩
      split
      · exact hinactive
      · split
        · exact hinactive
        · rename_i jti hjti
          have hcarries : svc.Carries permissiveValidation req.token jti :=
            ⟨at_, claims, verifyRaw_of_verify hverify, hjti⟩
          refine spec_lookup_bind.mpr ⟨⟨trivial, nofun⟩, fun denied => ?_, fun e => ?_⟩
          · cases denied with
            | true => exact ⟨hcarries, rfl⟩
            | false => exact hcarries
          · exact ⟨hcarries, rfl⟩

/-- So does the check of a bearer token. -/
theorem authenticateBearer_spec (svc : JwtService K) (token : K.Token) :
    Spec LookupCall
      (LookupDone svc bearerValidation token (fun x => x = .error (.err .unauthorized))
        (fun x => ∃ sub, x = .ok sub)) []
      (svc.authenticateBearer token) := by
  unfold authenticateBearer
  refine spec_call_bind.mpr ⟨⟨trivial, nofun⟩, fun at_ => ?_⟩
  split
  · exact nofun
  · rename_i claims hverify
    split
    · exact nofun
    · rename_i jti hjti
      have hcarries : svc.Carries bearerValidation token jti :=
        ⟨at_, claims, verifyRaw_of_verify hverify, hjti⟩
      refine spec_lookup_bind.mpr ⟨⟨trivial, nofun⟩, fun denied => ?_, fun e => ?_⟩
      · cases denied with
        | true => exact ⟨hcarries, rfl⟩
        | false =>
            cases claims.sub with
            | some sub => exact hcarries
            | none => exact hcarries
      · exact ⟨hcarries, rfl⟩

/-- An event that is no lookup adds none. -/
theorem lookups_append {h : List (Event (jwtSig K))} {e : Event (jwtSig K)}
    (he : asLookup e = none) : lookups (h ++ [e]) = lookups h := by
  simp [lookups, List.filterMap_append, he]

/-- The statements in the transaction of `extend` are no lookups. -/
theorem extendTx_lookups (svc : JwtService K) (old claims : StandardClaims) (anc : Ancestor)
    (oldJti newJti : Uuid) (now newExp : DateTime) (h : List (Event (jwtSig K)))
    (hpass : ∀ l ∈ lookups h, l.2 = .ok false) :
    Spec (fun h _ => ∀ l ∈ lookups h, l.2 = .ok false) (fun h' _ => lookups h' = lookups h) h
      (svc.extendTx old claims anc oldJti newJti now newExp) := by
  unfold extendTx
  refine spec_call_bind.mpr ⟨hpass, fun id => ?_⟩
  have h₁ : lookups (h ++ [⟨Op.newUuid, id⟩]) = lookups h := lookups_append rfl
  refine spec_call_bind.mpr ⟨by rwa [h₁], fun inserted => ?_⟩
  have h₂ : lookups (h ++ [⟨Op.newUuid, id⟩] ++ [⟨Op.insertMetadata .tx
      (svc.extendRow old claims anc id newJti now newExp), inserted⟩]) = lookups h :=
    (lookups_append rfl).trans h₁
  refine spec_sql_bind.mpr ⟨fun _ _ => ?_, fun _ _ => h₂⟩
  split
  · exact h₂
  · rename_i oldExp _
    refine spec_call_bind.mpr ⟨by rwa [h₂], fun denied => ?_⟩
    have h₃ : lookups (h ++ [⟨Op.newUuid, id⟩] ++ [⟨Op.insertMetadata .tx
        (svc.extendRow old claims anc id newJti now newExp), inserted⟩]
        ++ [⟨Op.insertDenylist .tx oldJti oldExp (some supersededReason), denied⟩]) = lookups h :=
      (lookups_append rfl).trans h₂
    exact spec_sql_bind.mpr ⟨fun _ _ => h₃, fun _ _ => h₃⟩

/-- An extension goes on only after its lookup has found nothing. -/
theorem extend_lookups (svc : JwtService K) (req : ExtendRequest K) :
    Spec (fun h _ => ∀ l ∈ lookups h, l.2 = .ok false)
      (LookupDone svc permissiveValidation req.token
        (fun x => x = .error (.err (.unprocessable "token already revoked")))
        (fun x => ∃ r, x = .ok r)) []
      (svc.extend req) := by
  have herror : ∀ f, ¬ ∃ r, (Except.error f : Except Fault (TokenResponse K)) = .ok r := by
    rintro f ⟨r, hr⟩
    cases hr
  unfold extend
  refine spec_call_bind.mpr ⟨nofun, fun at_ => ?_⟩
  split
  · exact herror _
  · rename_i old hverify
    refine spec_call_bind.mpr ⟨nofun, fun now => ?_⟩
    split
    · exact herror _
    · split
      · exact herror _
      · rename_i oldJti hjti
        have hcarries : svc.Carries permissiveValidation req.token oldJti :=
          ⟨at_, old, verifyRaw_of_verify hverify, hjti⟩
        -- After a miss no further call is a lookup.
        have hmiss : ∀ {α : Type} {revoked accepted : Except Fault α → Prop} {h x},
            lookups h = [(oldJti, .ok false)] →
            LookupDone svc permissiveValidation req.token revoked accepted h x := by
          intro α revoked accepted h x hl
          unfold LookupDone
          rw [hl]
          exact hcarries
        have hpass : ∀ {h : List (Event (jwtSig K))}, lookups h = [(oldJti, .ok false)] →
            ∀ l ∈ lookups h, l.2 = .ok false := by
          intro h hl l hmem
          rw [hl, List.mem_singleton] at hmem
          rw [hmem]
        refine spec_lookup_bind.mpr ⟨nofun, fun denied => ?_, fun e => ⟨hcarries, rfl⟩⟩
        cases denied with
        | true => exact ⟨hcarries, rfl⟩
        | false =>
            refine spec_call_bind.mpr ⟨hpass rfl, fun answer => ?_⟩
            refine spec_sql_bind.mpr ⟨fun found _ => ?_, fun _ _ => hmiss rfl⟩
            show Spec _ _ _ (ite _ _ _)
            split
            · exact hmiss rfl
            · refine spec_addMinutes_bind.mpr ⟨fun newExp _ => ?_, fun _ => hmiss rfl⟩
              refine spec_call_bind.mpr ⟨hpass rfl, fun newJti => ?_⟩
              refine spec_call_bind.mpr ⟨hpass rfl, fun signed => ?_⟩
              cases signed with
              | error e => exact hmiss rfl
              | ok token =>
                  refine spec_call_bind.mpr ⟨hpass rfl, fun begun => ?_⟩
                  refine spec_sql_bind.mpr ⟨fun _ _ => ?_, fun _ _ => hmiss rfl⟩
                  refine spec_orRollback_bind
                    (extendTx_lookups svc _ _ _ _ _ _ _ _ (hpass rfl)) ?_ ?_
                  · intro h' _ hl
                    refine spec_call_bind.mpr ⟨hpass hl, fun committed => ?_⟩
                    have hl' : lookups (h' ++ [⟨Op.commit, committed⟩])
                        = [(oldJti, .ok false)] := (lookups_append rfl).trans hl
                    exact spec_sql_bind.mpr ⟨fun _ _ => hmiss hl', fun _ _ => hmiss hl'⟩
                  · intro h' e hl
                    exact ⟨hpass hl, hmiss ((lookups_append rfl).trans hl)⟩

/-! ### Revocation -/

/-- A `revoke` that reports a new revocation has inserted the row. -/
def RevokeDone (svc : JwtService K) (token : K.Token) (reason : Option String)
    (h₀ h : List (Event (jwtSig K))) (x : Except Fault Bool) : Prop :=
  x = .ok true → ∃ at_ claims jti exp,
    svc.signer.verifyRaw at_ StandardClaims.deserialize token permissiveValidation = .ok claims
    ∧ K.parseUuid claims.jti = some jti
    ∧ h = h₀ ++ [⟨Op.now, at_⟩] ++ [⟨Op.insertDenylist .pool jti exp reason, Except.ok 1⟩]

/-- A revocation ends as its insert has answered. The history before it is kept, so that a batch can
use this for each of its tokens. -/
theorem revoke_spec (svc : JwtService K) (token : K.Token) (reason : Option String)
    (h₀ : List (Event (jwtSig K))) :
    Spec (fun _ o => Plain o) (fun h x => h₀ <+: h ∧ svc.RevokeDone token reason h₀ h x) h₀
      (svc.revoke token reason) := by
  unfold revoke
  refine spec_call_bind.mpr ⟨trivial, fun at_ => ?_⟩
  split
  · exact ⟨List.prefix_append _ _, nofun⟩
  · rename_i claims hverify
    split
    · exact ⟨List.prefix_append _ _, nofun⟩
    · rename_i jti hjti
      split
      · exact ⟨List.prefix_append _ _, nofun⟩
      · rename_i exp hexp
        refine spec_call_bind.mpr ⟨rfl, fun answer => ?_⟩
        have hpre : h₀ <+: h₀ ++ [⟨Op.now, at_⟩]
            ++ [⟨Op.insertDenylist .pool jti exp reason, answer⟩] := by
          rw [List.append_assoc]
          exact List.prefix_append _ _
        refine spec_sql_bind.mpr ⟨fun rows hok => ⟨hpre, fun htrue => ?_⟩, fun _ _ => ⟨hpre, nofun⟩⟩
        subst hok
        have hrows : rows = 1 := by simpa using htrue
        subst hrows
        exact ⟨at_, claims, jti, exp, verifyRaw_of_verify hverify, hjti, rfl⟩

section Bulk

variable (svc : JwtService K) (reason : Option String)
  {I : List (Event (jwtSig K)) → BulkRevokeResponse K → Prop}
  {φ : List (Event (jwtSig K)) → Op → Prop}

/-- One `revoke` keeps the invariant `I`, with its report added to the response. -/
def RevokeKeeps (φ : List (Event (jwtSig K)) → Op → Prop)
    (I : List (Event (jwtSig K)) → BulkRevokeResponse K → Prop) : Prop :=
  ∀ tok h acc, I h acc → Spec φ (fun h' x => ∀ acc' : BulkRevokeResponse K,
    (x = .ok true → acc'.results = acc.results ++ [⟨tok, "revoked", none⟩]) →
    (x ≠ .ok true → ∃ status why, status ≠ "revoked"
      ∧ acc'.results = acc.results ++ [⟨tok, status, why⟩]) → I h' acc') h
    (svc.revoke tok reason)

/-- The loop rule of `bulk_revoke`. -/
theorem bulkRevokeLoop_spec (hstep : svc.RevokeKeeps reason φ I) (toks : List K.Token)
    (h : List (Event (jwtSig K))) (acc : BulkRevokeResponse K) (hI : I h acc) :
    Spec φ (fun h' x => ∀ r, x = .ok r → I h' r) h (svc.bulkRevokeLoop reason toks acc) := by
  induction toks generalizing h acc with
  | nil =>
      intro r hr
      cases hr
      exact hI
  | cons tok toks ih =>
      unfold bulkRevokeLoop
      refine (spec_bind _ _ h).mpr ((spec_handle _ _ _ h).mpr ?_)
      refine (hstep tok h acc hI).mono (fun _ _ hφ => hφ) ?_
      intro h' x hx
      cases x with
      | ok newly =>
          cases newly with
          | true => exact ih h' _ (hx _ (fun _ => rfl) (fun hne => absurd rfl hne))
          | false => exact ih h' _ (hx _ nofun (fun _ => ⟨"already", none, by decide, rfl⟩))
      | error f =>
          cases f with
          | err e => exact ih h' _ (hx _ nofun (fun _ => ⟨"failed", _, by decide, rfl⟩))
          | panic => exact nofun

/-- The calls of a batch are the calls of its revocations. -/
theorem bulkRevokeLoop_meets {φ : Op → Prop} (toks : List K.Token) (acc : BulkRevokeResponse K)
    (hrevoke : ∀ tok ∈ toks, (svc.revoke tok reason).Meets (S := jwtSig K) φ (fun _ => True)) :
    (svc.bulkRevokeLoop reason toks acc).Meets (S := jwtSig K) φ (fun _ => True) := by
  induction toks generalizing acc with
  | nil => exact trivial
  | cons tok toks ih =>
      have hrest := fun acc' => ih acc' fun t ht => hrevoke t (List.mem_cons_of_mem tok ht)
      unfold bulkRevokeLoop
      refine Meets.bind (ψ := fun _ => True) ?_ (fun y _ => ?_) fun _ _ => trivial
      · refine (hrevoke tok List.mem_cons_self).handle fun x _ => ?_
        match x with
        | .ok b => exact trivial
        | .error (.err e) => exact trivial
        | .error .panic => exact trivial
      · match y with
        | .ok true => exact hrest _
        | .ok false => exact hrest _
        | .error e => exact hrest _

/-- An invariant that every revocation keeps holds at the end of a batch. -/
theorem bulkRevoke_spec (req : BulkRevokeRequest K) (hstep : svc.RevokeKeeps req.reason φ I)
    (hI : I [] ⟨0, 0, 0, []⟩) :
    Spec φ (fun h' x => ∀ r, x = .ok r → I h' r) [] (svc.bulkRevoke req) := by
  unfold bulkRevoke
  split
  · exact nofun
  · split
    · exact nofun
    · exact svc.bulkRevokeLoop_spec req.reason hstep _ [] _ hI

end Bulk

/-- A `revoke_by_jti` that reports a new revocation has inserted the row. -/
def RevokeByJtiDone (jti : Uuid) (reason : Option String) (h : List (Event (jwtSig K)))
    (x : Except Fault (Option Bool)) : Prop :=
  x = .ok (some true) → ∃ exp,
    h = [⟨Op.selectExpiresAt jti, Except.ok (some exp)⟩]
      ++ [⟨Op.insertDenylist .pool jti exp reason, Except.ok 1⟩]

/-- A revocation by jti ends as its lookup and its insert have answered. -/
theorem revokeByJti_spec (jti : Uuid) (reason : Option String) :
    Spec (fun _ o => Plain o) (RevokeByJtiDone (K := K) jti reason) []
      (revokeByJti jti reason) := by
  unfold revokeByJti
  refine spec_call_bind.mpr ⟨trivial, fun answer => ?_⟩
  refine spec_sql_bind.mpr ⟨fun row hok => ?_, fun _ _ => nofun⟩
  subst hok
  cases row with
  | none => exact nofun
  | some exp =>
      refine spec_call_bind.mpr ⟨rfl, fun inserted => ?_⟩
      refine spec_sql_bind.mpr ⟨fun rows hok => ?_, fun _ _ => nofun⟩
      subst hok
      intro htrue
      have hrows : rows = 1 := by simpa using htrue
      subst hrows
      exact ⟨exp, rfl⟩

/-! ### Listing -/

/-- The calls of the programs that list tokens. -/
def Listing : Op → Prop
  | .now | .selectDenylistEntry _ | .selectTokens .. | .countTokens .. => True
  | _ => False

/-- The calls of a listing are plain. -/
theorem plain_of_listing {o : Op} (h : Listing o) : Plain o := by
  cases o with
  | now | selectDenylistEntry | selectTokens | countTokens => exact trivial
  | _ => exact h.elim

/-- A lookup of an entry makes a call of a listing. -/
theorem denylistEntry_spec (jti : Uuid) (h : List (Event (jwtSig K))) :
    Spec (fun _ o => Listing o) (fun _ _ => True) h (denylistEntry jti : Action K _) := by
  unfold denylistEntry
  refine spec_call_bind.mpr ⟨trivial, fun answer => ?_⟩
  refine spec_sql_bind.mpr ⟨fun row _ => ?_, fun _ _ => trivial⟩
  cases row <;> exact trivial

/-- So does the loop over the rows, by induction on them. -/
theorem listLoop_spec (now : DateTime) (rows : List MetadataRow) (acc : List TokenSummary)
    (h : List (Event (jwtSig K))) :
    Spec (fun _ o => Listing o) (fun _ _ => True) h (listLoop now rows acc : Action K _) := by
  induction rows generalizing h acc with
  | nil => exact trivial
  | cons row rows ih =>
      unfold listLoop
      refine (spec_bind _ _ h).mpr ?_
      refine (denylistEntry_spec row.jwtUuid h).mono (fun _ _ hφ => hφ) ?_
      intro h' x _
      cases x with
      | ok entry => exact ih _ _
      | error f => exact trivial

/-- A listing makes no other calls. -/
theorem listForSubject_spec (subject : String) (req : ListRequest) :
    Spec (fun _ o => Listing o) (fun _ _ => True) []
      (listForSubject subject req : Action K _) := by
  unfold listForSubject
  refine spec_call_bind.mpr ⟨trivial, fun answer => ?_⟩
  refine spec_sql_bind.mpr ⟨fun rows _ => ?_, fun _ _ => trivial⟩
  refine spec_call_bind.mpr ⟨trivial, fun answer => ?_⟩
  refine spec_sql_bind.mpr ⟨fun count _ => ?_, fun _ _ => trivial⟩
  refine spec_call_bind.mpr ⟨trivial, fun now => ?_⟩
  refine (spec_bind _ _ _).mpr ((listLoop_spec now rows [] _).mono (fun _ _ hφ => hφ) ?_)
  intro h' x _
  cases x <;> exact trivial

/-- Its calls are plain. -/
theorem listForSubject_plain (subject : String) (req : ListRequest) :
    Spec (fun _ o => Plain o) (fun _ _ => True) []
      (listForSubject subject req : Action K _) :=
  (listForSubject_spec subject req).mono (fun _ _ => plain_of_listing) (fun _ _ _ => trivial)

/-! ### All programs -/

/-- The calls of the program of a request after the events `h`. -/
def Call (svc : JwtService K) : Request K → List (Event (jwtSig K)) → Op → Prop
  | .generate req, h, o => svc.GenerateCall req h o
  | .extend req, h, o => svc.ExtendCall req h o
  | .validate _, _, o | .introspect _, _, o | .authenticateBearer _, _, o => Check o
  | _, _, o => Plain o

/-- The results of the program of a request after the events `h`. Only `generate` and `extend`
return a token. -/
def Done (svc : JwtService K) : Request K → List (Event (jwtSig K)) →
    Except Fault (Response K) → Prop
  | .generate req, h, .ok a => ∃ r, a = .token r ∧ svc.GenerateDone req h (.ok r)
  | .extend req, h, .ok a => ∃ r, a = .token r ∧ svc.ExtendDone req h (.ok r)
  | _, _, x => ∀ r, x ≠ .ok (.token r)

/-- Every request keeps to its calls and ends as `Done` says. The invariants over runs are derived
from this one statement. -/
theorem program_spec (svc : JwtService K) (req : Request K) :
    (svc.program req).Spec (svc.Call req) (svc.Done req) [] := by
  have hfault : ∀ h e, svc.Done req h (.error e) := by
    intro h e
    cases req <;> intro r hr <;> cases hr
  cases req with
  | generate req =>
      exact spec_map (svc.generate_spec req) (fun _ r hok => ⟨r, rfl, hok⟩) fun h e _ => hfault h e
  | extend req =>
      exact spec_map (svc.extend_spec req) (fun _ r hok => ⟨r, rfl, hok⟩) fun h e _ => hfault h e
  | validate req =>
      exact spec_map ((svc.validate_spec req).mono (fun _ _ hφ => hφ.1) (fun _ _ _ => trivial))
        (fun _ _ _ _ hr => nomatch hr) fun h e _ => hfault h e
  | introspect req =>
      exact spec_map ((svc.introspect_spec req).mono (fun _ _ hφ => hφ.1) (fun _ _ _ => trivial))
        (fun _ _ _ _ hr => nomatch hr) fun h e _ => hfault h e
  | authenticateBearer token =>
      exact spec_map
        ((svc.authenticateBearer_spec token).mono (fun _ _ hφ => hφ.1) (fun _ _ _ => trivial))
        (fun _ _ _ _ hr => nomatch hr) fun h e _ => hfault h e
  | revoke token reason =>
      exact spec_map (svc.revoke_spec token reason []) (fun _ _ _ _ hr => nomatch hr)
        fun h e _ => hfault h e
  | revokeByJti jti reason =>
      exact spec_map (revokeByJti_spec jti reason) (fun _ _ _ _ hr => nomatch hr)
        fun h e _ => hfault h e
  | bulkRevoke req =>
      have hstep : svc.RevokeKeeps req.reason (fun _ o => Plain o) (fun _ _ => True) :=
        fun tok h _ _ => (svc.revoke_spec tok req.reason h).mono (fun _ _ hφ => hφ)
          (fun _ _ _ _ _ _ => trivial)
      exact spec_map (svc.bulkRevoke_spec req hstep trivial) (fun _ _ _ _ hr => nomatch hr)
        fun h e _ => hfault h e
  | listForSubject subject req =>
      exact spec_map (listForSubject_plain subject req) (fun _ _ _ _ hr => nomatch hr)
        fun h e _ => hfault h e

end JwtService

end Tim
