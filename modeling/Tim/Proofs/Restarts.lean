import Tim.Proofs.Finality
import Tim.Proofs.Verdict

/-!
# `Tim.Proofs.Restarts`: several servers over one database

A server process ends, and another one starts on the tables that it leaves behind, with other keys
and another configuration. This is how a key is rotated: the next server has a new signing key, and
the key before it as its predecessor, until that one retires.

`Succession` is any number of such servers, one after the other. `restarts_keep_tokens` follows a
token that one of them has issued to a later one. It is accepted there as long as the later server
trusts the key, refused once any server has entered it into the denylist, and refused by a server
that does not trust the key any more.

* `accepted_while_published`: the token is accepted while the key is published and the jti is free.
* `invalid_once_retired`: it is refused once the key is not published any more.
* `not_accepted_of_denied`: it is refused once its jti is on the denylist.
-/

set_option autoImplicit false

namespace Tim

open Tim.Lib

variable {K : Crates}

/-! ### Servers one after the other -/

/-- The tables as the next server finds them. What no transaction has committed is gone. -/
def Store.restarted (s : Store) : Store := { s with txs := ∅ }

/-- Servers with their own keys and configurations have run from the first tables to the second,
one after the other. Each of them can have ended at any point of its run. -/
inductive Succession (K : Crates) (s : Store) : Store → Prop
  | start : Succession K s s
  | server {s' : Store} (svc : JwtService K) (c : JwtPool svc) (before : Succession K s s')
      (run : JwtReach svc Pool.Any s' c) : Succession K s c.shared.restarted

/-- A step of a server does not turn the clock back. -/
theorem clock_of_next {svc : JwtService K} {c c' : JwtPool svc}
    {l : Label (jwtMachine svc.signer) (Request K)} (hn : Pool.Next svc.program c l c') :
    c.shared.clock.ns ≤ c'.shared.clock.ns := by
  cases hn with
  | spawn req => exact Int.le_refl _
  | step tid ch req o k r s htask hexec =>
      have hclock : s.clock = c.shared.clock := (Store.exec_effect hexec).clock
      show c.shared.clock.ns ≤ s.clock.ns
      exact hclock ▸ Int.le_refl _
  | cancel tid req o k htask => exact Int.le_refl _
  | env t s henv =>
      simp only [jwtMachine, Store.tick] at henv
      split at henv
      · rename_i hle
        cases henv
        exact hle
      · cases henv

/-- Neither does a run. -/
theorem clock_le {svc : JwtService K}
    {P : JwtPool svc → Label (jwtMachine svc.signer) (Request K) → Prop} {s : Store}
    {c : JwtPool svc} (h : JwtReach svc P s c) : s.clock.ns ≤ c.shared.clock.ns :=
  h.invariant (I := fun c : JwtPool svc => s.clock.ns ≤ c.shared.clock.ns) (Int.le_refl _)
    fun _ _ _ _ _ hn hle => Int.le_trans hle (clock_of_next hn)

/-- No server takes a row back. -/
theorem Succession.grows {s s' : Store} (h : Succession K s s') : s.Grows s' := by
  induction h with
  | start => exact Store.Grows.rfl
  | server svc c _ run ih =>
      have hrun := tables_grow run
      exact ih.trans (hrun.trans ⟨List.prefix_rfl, List.prefix_rfl⟩)

/-! ### What a server reads -/

section Server

variable {svc : JwtService K}
  {P : JwtPool svc → Label (jwtMachine svc.signer) (Request K) → Prop} {s : Store}
  {c : JwtPool svc}

/-- What is known of an answer between the start and the end of a run: an instant is one of the
run, a hit of the denylist stays a hit, and a row that was there at the start is not missed. -/
def ReadIn (s s' : Store) : (o : Op) → Resp K o → Prop
  | .now, (t : DateTime) => s.clock.ns ≤ t.ns ∧ t.ns ≤ s'.clock.ns
  | .selectDenylist jti, a => (a = .ok true → (s'.denied jti).isSome = true)
      ∧ ((s.denied jti).isSome = true → a ≠ .ok false)
  | _, _ => True

/-- A denylisted jti stays so while the store grows. -/
theorem denied_grows {s s' : Store} (hg : s.Grows s') {jti : Uuid}
    (h : (s.denied jti).isSome = true) : (s'.denied jti).isSome = true := by
  obtain ⟨row, hrow, hkey⟩ := Store.denied_isSome.mp h
  exact Store.denied_isSome.mpr ⟨row, hg.denylist.subset hrow, hkey⟩

/-- What was read in a span of time was read in a longer one. -/
theorem ReadIn.grows {s' s'' : Store} {o : Op} {r : Resp K o} (h : ReadIn s s' o r)
    (hg : s'.Grows s'') (hclock : s'.clock.ns ≤ s''.clock.ns) : ReadIn s s'' o r := by
  cases o with
  | now => exact ⟨h.1, Int.le_trans h.2 hclock⟩
  | selectDenylist jti => exact ⟨fun ha => denied_grows hg (h.1 ha), h.2⟩
  | _ => trivial

/-- A read of the machine reads a store between the start and the end of the span. -/
theorem readIn_of_effect {tid : Nat} {s' s'' : Store} {o : Op} {r : Resp K o}
    (h : Store.Effect svc.signer tid s' o r s'') (hg : s.Grows s')
    (hclock : s.clock.ns ≤ s'.clock.ns) : ReadIn s s'' o r := by
  cases o with
  | now =>
      cases h with
      | now => exact ⟨hclock, Int.le_refl _⟩
      | query o r hq => exact hq.elim
      | failed o r hf => exact hf.elim
  | selectDenylist jti =>
      obtain ⟨rfl, ha | ⟨e, ha⟩⟩ := h.selectDenylist_inv
      · subst ha
        refine ⟨Except.ok.inj, ?_⟩
        intro hrow hmissed
        rw [denied_grows hg hrow] at hmissed
        cases hmissed
      · subst ha
        constructor
        · intro hhit
          cases hhit
        · intro _ hmissed
          cases hmissed
  | _ => trivial

/-- Every answer of a run is known in this way. -/
theorem read_in (h : JwtReach svc P s c) :
    ∀ a ∈ c.history, ReadIn s c.shared a.2.op a.2.resp := by
  refine h.invariant (I := fun c => ∀ a ∈ c.history, ReadIn s c.shared a.2.op a.2.resp)
    (by simp [Pool.init]) ?_
  intro c l c' hr _ hn ih
  have hold : ∀ a ∈ c.history, ReadIn s c'.shared a.2.op a.2.resp := fun a ha =>
    (ih a ha).grows (grows_of_next hn) (clock_of_next hn)
  cases hn with
  | spawn req => exact hold
  | cancel tid req o k htask => exact hold
  | env t s henv => exact hold
  | step tid ch req o k r s' htask hexec =>
      intro a ha
      rcases List.mem_append.mp ha with ha | ha
      · exact hold a ha
      · rw [List.mem_singleton.mp ha]
        exact readIn_of_effect (Store.exec_effect hexec) (tables_grow hr) (clock_le hr)

/-- A request of the run has ended with the result. -/
def EndedWith (c : JwtPool svc) (req : Request K) (x : Except Fault (Response K)) : Prop :=
  ∃ (tid : Nat) (t : Task (jwtSig K) Fault (Response K) (Request K)),
    c.tasks[tid]? = some t ∧ t.req = req ∧ t.result = some x

/-- A request whose program ends in `ψ` on such answers has a result in `ψ`. -/
theorem EndedWith.under (h : JwtReach svc P s c) {req : Request K} {x : Except Fault (Response K)}
    {ψ : Except Fault (Response K) → Prop} (hended : EndedWith c req x)
    (hp : (svc.program req).Under (ReadIn s c.shared) ψ) : ψ x := by
  obtain ⟨tid, t, ht, rfl, hx⟩ := hended
  obtain ⟨es, hes, hrun⟩ := h.result_spec (fun req => (svc.program req).spec_runs []) ht hx
  rw [List.nil_append] at hes
  refine hp.result hrun fun e he => ?_
  rw [← hes] at he
  exact read_in h _ (mem_eventsOf.mp he)

/-- The same for a validation, whose result is wrapped into the response. -/
theorem EndedWith.validate (h : JwtReach svc P s c) {v : ValidateRequest K}
    {x : Except Fault (Response K)} {ψ : Except Fault ValidateResponse → Prop}
    (hended : EndedWith c (.validate v) x)
    (hp : (svc.validate v).Under (ReadIn s c.shared) ψ) :
    ∃ y, ψ y ∧ x = Prog.wrapped .validate y := by
  have hunder : (svc.program (.validate v)).Under (ReadIn s c.shared)
      fun x => ∃ y, ψ y ∧ x = Prog.wrapped .validate y :=
    Prog.Under.wrap (hp.mono fun y hy => ⟨y, hy, rfl⟩)
  exact hended.under h hunder

end Server

/-! ### The later server -/

/-- A signer that publishes the key of another one reads the claims that the other one has
signed. -/
theorem JwtSigner.verifyRaw_of_publishes (laws : DecodeLaws K) (enc : EncodeLaws K)
    {signer signer' : JwtSigner K} {cl : StandardClaims} {token : K.Token} {now : DateTime}
    {claims : Payload} (hsign : signer.sign claims = .ok token)
    (hclaims : claimsOf token = some cl) (h : signer'.Publishes now signer.current) :
    signer'.verifyRaw now StandardClaims.deserialize token permissiveValidation = .ok cl := by
  obtain ⟨hheader, hverifies⟩ := sign_spec enc hsign
  obtain ⟨p, hpayload, hcl⟩ := Option.bind_eq_some_iff.mp hclaims
  rw [verifyRaw_of_kid laws h hheader rfl hverifies]
  obtain ⟨pem, priv, pubPem, -, -, -, -, hdk⟩ := signer.current.fromPem
  refine (laws.ok_iff _ _ _ _ _ _ rfl).mpr ⟨?_, hverifies, p, hpayload, hcl, rfl⟩
  exact laws.allowed_rs256 token _ _ _ _ hdk hheader rfl rfl

section Later

variable {svc : JwtService K} {s s' : Store} {token : K.Token} {cl : StandardClaims} {jti : Uuid}

/-- The result of a validation that accepts the token, unless a statement has failed. -/
def Validated (x : Except Fault ValidateResponse) : Prop :=
  (∃ r, x = .ok r ∧ r.valid = true ∧ r.active = true) ∨ ∃ e, x = .error (.err (.database e))

/-- A token of a trusted key is accepted while it is alive and not denylisted. -/
theorem validate_accepts
    (hverify : ∀ t : DateTime, t.ns ≤ s'.clock.ns →
      svc.signer.verifyRaw t StandardClaims.deserialize token permissiveValidation = .ok cl)
    (halive : ∀ t : DateTime, t.ns ≤ s'.clock.ns → ¬ cl.exp < t.timestamp)
    (hjti : K.parseUuid cl.jti = some jti) (hfree : (s'.denied jti).isSome = false)
    (hpolicy : svc.cfg.audience.permits cl.aud = true) :
    (svc.validate ⟨token, none, none⟩).Under (ReadIn s s') Validated := by
  have hallowed : (svc.cfg.audience.enforced
      && !cl.aud.any (·.any svc.cfg.audience.allowed.contains)) = false := by
    have hpermits : cl.aud.any (·.any svc.cfg.audience.allowed.contains) = true
        ∨ svc.cfg.audience.enforced = false := by
      simpa [AudienceConfig.permits, or_comm] using hpolicy
    rcases hpermits with hany | hoff
    · rw [hany, Bool.not_true, Bool.and_false]
    · rw [hoff, Bool.false_and]
  unfold JwtService.validate
  refine Prog.Under.call_bind fun at_ hat => ?_
  rw [hverify at_ hat.2]
  refine Prog.Under.call_bind fun now hnow => ?_
  simp only [Option.any_none, Bool.false_eq_true, if_false, hallowed, if_neg (halive now hnow.2),
    hjti]
  intro a ha
  cases a with
  | error e => exact .inr ⟨e, rfl⟩
  | ok denied =>
      cases denied with
      | true =>
          have hhit := ha.1 rfl
          rw [hfree] at hhit
          cases hhit
      | false => exact .inl ⟨_, rfl, rfl, rfl⟩

/-- A token that no key of the server verifies is not valid. -/
theorem validate_rejects
    (hverify : ∀ t : DateTime, s.clock.ns ≤ t.ns → ∀ cl,
      svc.signer.verifyRaw t StandardClaims.deserialize token permissiveValidation ≠ .ok cl) :
    (svc.validate ⟨token, none, none⟩).Under (ReadIn s s') fun x =>
      ∃ r, x = .ok r ∧ r.valid = false := by
  unfold JwtService.validate
  refine Prog.Under.call_bind fun at_ hat => ?_
  split
  · exact ⟨_, rfl, rfl⟩
  · rename_i cl hok
    exact absurd hok (hverify at_ hat.1 cl)

variable {P : JwtPool svc → Label (jwtMachine svc.signer) (Request K) → Prop} {c : JwtPool svc}
  {x : Except Fault (Response K)}

/-- While the server publishes the signing key, it accepts the token. -/
theorem accepted_while_published (laws : DecodeLaws K) (enc : EncodeLaws K)
    (h : JwtReach svc P s c) (hended : EndedWith c (.validate ⟨token, none, none⟩) x)
    {signer : JwtSigner K} {claims : Payload} (hsign : signer.sign claims = .ok token)
    (hclaims : claimsOf token = some cl)
    (hjti : K.parseUuid cl.jti = some jti)
    (hpublishes : svc.signer.Publishes c.shared.clock signer.current)
    (hexp : c.shared.clock.timestamp ≤ cl.exp) (hpolicy : svc.cfg.audience.permits cl.aud = true)
    (hfree : ∀ row ∈ c.shared.denylist, row.jwtUuid ≠ jti) :
    (∃ resp, x = .ok (.validate resp) ∧ resp.valid = true ∧ resp.active = true)
      ∨ ∃ e, x = .error (.err (.database e)) := by
  have hverify : ∀ at_ : DateTime, at_.ns ≤ c.shared.clock.ns →
      svc.signer.verifyRaw at_ StandardClaims.deserialize token permissiveValidation = .ok cl :=
    fun at_ hle => JwtSigner.verifyRaw_of_publishes laws enc hsign hclaims (hpublishes.earlier hle)
  have halive : ∀ at_ : DateTime, at_.ns ≤ c.shared.clock.ns → ¬ cl.exp < at_.timestamp := by
    intro at_ hle hlt
    exact Int64.not_lt.mpr hexp (JwtService.expired_later hle hlt)
  have hmissing : (c.shared.denied jti).isSome = false := by
    cases hdenied : (c.shared.denied jti).isSome with
    | false => rfl
    | true =>
        obtain ⟨row, hrow, hkey⟩ := Store.denied_isSome.mp hdenied
        exact absurd hkey (hfree row hrow)
  have hunder : (svc.validate ⟨token, none, none⟩).Under (ReadIn s c.shared) Validated :=
    validate_accepts hverify halive hjti hmissing hpolicy
  obtain ⟨y, ⟨resp, rfl, hvalid, hactive⟩ | ⟨e, rfl⟩, rfl⟩ := hended.validate h hunder
  · exact .inl ⟨resp, rfl, hvalid, hactive⟩
  · exact .inr ⟨e, rfl⟩

/-- A server that has started without a key that verifies the token does not hold it valid. -/
theorem invalid_once_retired (laws : DecodeLaws K) (h : JwtReach svc P s c)
    (hended : EndedWith c (.validate ⟨token, none, none⟩) x)
    (hnone : ∀ key, svc.signer.Publishes s.clock key → K.verifies token key.decoding = false) :
    ∃ resp, x = .ok (.validate resp) ∧ resp.valid = false := by
  have hverify : ∀ at_ : DateTime, s.clock.ns ≤ at_.ns → ∀ cl,
      svc.signer.verifyRaw at_ StandardClaims.deserialize token permissiveValidation
        ≠ .ok cl := by
    intro at_ hle cl hok
    obtain ⟨key, hpublishes, hverifies, -⟩ := JwtSigner.verifies_of_verifyRaw laws hok
    rw [hnone key (hpublishes.earlier hle)] at hverifies
    cases hverifies
  have hunder : (svc.validate ⟨token, none, none⟩).Under (ReadIn s c.shared) fun x =>
      ∃ r, x = .ok r ∧ r.valid = false := validate_rejects hverify
  obtain ⟨y, ⟨resp, rfl, hvalid⟩, rfl⟩ := hended.validate h hunder
  exact ⟨resp, rfl, hvalid⟩

end Later

/-- A request for a token with a denylisted jti does not accept it. -/
theorem not_accepted_of_denied (laws : DecodeLaws K) {svc : JwtService K}
    {P : JwtPool svc → Label (jwtMachine svc.signer) (Request K) → Prop} {s : Store}
    {c : JwtPool svc} (h : JwtReach svc P s c) {jti : Uuid} (hrow : (s.denied jti).isSome = true)
    {req : Request K} {x : Except Fault (Response K)} {token : K.Token} {v : Validation}
    (hended : EndedWith c req x) (htok : lookedUp req = some (token, v))
    (hjti : jtiOf token = some jti) : ¬ Accepted req x := by
  obtain ⟨tid, t, ht, rfl, hx⟩ := hended
  intro hacc
  have hres := (h.result_spec (lookup_spec svc) ht hx).done htok
  have haud : v.validateAud = false := by
    cases hreq : t.req <;> rw [hreq] at htok <;> cases htok <;> rfl
  unfold JwtService.LookupDone at hres
  split at hres
  · exact hres hacc
  · exact not_accepted_of_refused hres.2 hacc
  · rename_i jti' hone
    have hsame := jtiOf_of_carries laws haud hres
    rw [hjti] at hsame
    cases hsame
    -- The lookup has missed a row that was there before the request came.
    have hmem : (jti, Except.ok false) ∈ JwtService.lookups (eventsOf c.history tid) := by
      rw [hone]
      exact List.mem_singleton_self _
    obtain ⟨e, he, hlookup⟩ := List.mem_filterMap.mp hmem
    have hread := read_in h _ (mem_eventsOf.mp he)
    obtain ⟨o, r⟩ := e
    cases o with
    | selectDenylist jti' =>
        cases hlookup
        exact hread.2 hrow rfl
    | _ => cases hlookup
  · rw [hres.2] at hacc
    exact not_accepted_error hacc
  · exact hres

section Restarts

variable {svc₁ svc₂ : JwtService K}
  {P₁ : JwtPool svc₁ → Label (jwtMachine svc₁.signer) (Request K) → Prop}
  {P₂ : JwtPool svc₂ → Label (jwtMachine svc₂.signer) (Request K) → Prop}
  {s₀ s s' : Store} {c₁ : JwtPool svc₁} {c₂ : JwtPool svc₂}

/-- A token that one server has issued, at a later server over the same database, with any number
of servers between the two.

* No row is lost on the way.
* As long as the later server publishes the key that the token was signed with, a validation that
  ends before the token's `exp` is over accepts it, while its jti is not denylisted and the audience
  policy permits it. Only a failing statement prevents that.
* Once any server between the two has denylisted its jti, no request accepts it.
* When no key that the later server publishes at its start verifies it, it is not valid. -/
theorem restarts_keep_tokens (laws : DecodeLaws K) (enc : EncodeLaws K) (uuid : UuidLaws K)
    (h₁ : JwtReach svc₁ P₁ s₀ c₁) {req : Request K} {r : TokenResponse K}
    (hissued : EndedWith c₁ req (.ok (.token r)))
    (hbetween : Succession K c₁.shared.restarted s') (hlater : Succession K s' s)
    (h₂ : JwtReach svc₂ P₂ s c₂) :
    c₁.shared.Grows c₂.shared
    ∧ ∃ cl jti, claimsOf r.token = some cl ∧ K.parseUuid cl.jti = some jti
      ∧ (∀ x, EndedWith c₂ (.validate ⟨r.token, none, none⟩) x →
          svc₂.signer.Publishes c₂.shared.clock svc₁.signer.current →
          c₂.shared.clock.timestamp ≤ cl.exp → svc₂.cfg.audience.permits cl.aud = true →
          (∀ row ∈ c₂.shared.denylist, row.jwtUuid ≠ jti) →
          (∃ resp, x = .ok (.validate resp) ∧ resp.valid = true ∧ resp.active = true)
            ∨ ∃ e, x = .error (.err (.database e)))
      ∧ (∀ req' x v, EndedWith c₂ req' x → lookedUp req' = some (r.token, v) →
          (∃ row ∈ s'.denylist, row.jwtUuid = jti) → ¬ Accepted req' x)
      ∧ (∀ x, EndedWith c₂ (.validate ⟨r.token, none, none⟩) x →
          (∀ key, svc₂.signer.Publishes s.clock key → K.verifies r.token key.decoding = false) →
          ∃ resp, x = .ok (.validate resp) ∧ resp.valid = false) := by
  have hstart : c₁.shared.Grows c₁.shared.restarted := ⟨List.prefix_rfl, List.prefix_rfl⟩
  have hgrows : c₁.shared.Grows c₂.shared :=
    hstart.trans ((hbetween.grows.trans hlater.grows).trans (tables_grow h₂))
  obtain ⟨tid, t, ht, -, hx⟩ := hissued
  obtain ⟨cl, u, -, hsigned, hjti, -⟩ := signed_request laws h₁ ht hx
  obtain ⟨hsign, _, ⟨extra, -, rfl⟩, hclaims⟩ := payload_of_sign laws enc h₁ hsigned
  have hparse : K.parseUuid cl.jti = some u := by
    rw [hjti]
    exact uuid.parse_text u
  refine ⟨hgrows, { cl with extra }, u, hclaims, hparse, ?_, ?_, ?_⟩
  · intro x hended hpublishes hexp hpolicy hfree
    exact accepted_while_published laws enc h₂ hended hsign hclaims hparse hpublishes hexp hpolicy
      hfree
  · intro req' x v hended htok hrow
    have hdenied := denied_grows hlater.grows (Store.denied_isSome.mpr hrow)
    have hown : jtiOf r.token = some u := by
      unfold jtiOf
      rw [hclaims]
      exact hparse
    exact not_accepted_of_denied laws h₂ hdenied hended htok hown
  · intro x hended hnone
    exact invalid_once_retired laws h₂ hended hnone

end Restarts

/-! ### A sample rotation -/

namespace Symbolic

/-- The next server: a new key, and the key of `service` as its predecessor until second 2000. -/
def rotated : JwtService symbolic where
  signer := {
    current := keyPair "next.pem" "k2"
    previous := some service.signer.current
    previousRetiresAt := some (instant 2000)
    kids_differ := by
      intro prev hprev
      cases hprev
      decide }
  cfg := service.cfg

/-- A validation of the token has come in at the next server. -/
def arrived (s : Store) (token : symbolic.Token) : JwtPool rotated where
  shared := s
  tasks :=
    [⟨.validate ⟨token, none, none⟩, some (rotated.program (.validate ⟨token, none, none⟩))⟩]
  history := []

/-- It is over at second 1000, and nothing is denylisted. -/
def validated (c : JwtPool rotated) : Bool :=
  (c.tasks[0]?.any fun t => t.result.isSome) && c.shared.denylist.isEmpty
    && decide (c.shared.clock = instant 1000)

/-- The three calls of a validation. -/
def validation : List (Label (jwtMachine rotated.signer) (Request symbolic)) :=
  [.step 0 .go, .step 0 .go, .step 0 .go]

/-- The first server has issued a token that outlives second 1000, and the next one can validate
it. -/
def handedOver (c : JwtPool service) : Bool :=
  (issuedBy 0 c).any fun token =>
    ((claimsOf token).any fun cl => decide ((instant 1000).timestamp ≤ cl.exp))
      && (Pool.run rotated.program (fun _ _ => true) (arrived c.shared.restarted token)
        validation).any validated

end Symbolic

open Symbolic in
/-- A token of the first server is accepted by the next one, which has another key. -/
theorem restarts_keep_tokens_rotated :
    ∃ (c₁ : JwtPool service) (c₂ : JwtPool rotated) (req : Request symbolic)
      (r : TokenResponse symbolic) (x : Except Fault (Response symbolic)),
      JwtReach service Pool.Any store c₁ ∧ EndedWith c₁ req (.ok (.token r))
      ∧ JwtReach rotated Pool.Any c₁.shared.restarted c₂
      ∧ EndedWith c₂ (.validate ⟨r.token, none, none⟩) x
      ∧ ((∃ resp, x = .ok (.validate resp) ∧ resp.valid = true ∧ resp.active = true)
        ∨ ∃ e, x = .error (.err (.database e))) := by
  obtain ⟨c₁, h₁, hq⟩ := Pool.exists_reach service.program (fun _ _ => true) handedOver
    (Pool.init store) generateRun (by decide +kernel)
  have h₁' : JwtReach service Pool.Any store c₁ := h₁.mono fun _ _ _ => trivial
  obtain ⟨token, htoken, hboth⟩ := (Option.any_eq_true _ _).mp hq
  simp only [Bool.and_eq_true] at hboth
  obtain ⟨hexp, hrun⟩ := hboth
  obtain ⟨t₁, r, ht₁, hx₁, rfl⟩ := result_of_issuedBy htoken
  obtain ⟨c₂, h₂, hdone⟩ := Pool.exists_reach rotated.program (fun _ _ => true) validated
    (arrived c₁.shared.restarted r.token) validation hrun
  have h₂' : Pool.Reach rotated.program Pool.Any (arrived c₁.shared.restarted r.token) c₂ :=
    h₂.mono fun _ _ _ => trivial
  have hspawn : JwtReach rotated Pool.Any c₁.shared.restarted
      (arrived c₁.shared.restarted r.token) :=
    .tail (.spawn (.validate ⟨r.token, none, none⟩)) .refl trivial rfl
  have hreach : JwtReach rotated Pool.Any c₁.shared.restarted c₂ := hspawn.trans h₂'
  simp only [validated, Bool.and_eq_true, decide_eq_true_eq] at hdone
  obtain ⟨⟨hresult, hempty⟩, hclock⟩ := hdone
  obtain ⟨t₂, ht₂, hsome⟩ := (Option.any_eq_true _ _).mp hresult
  obtain ⟨x, hx⟩ := Option.isSome_iff_exists.mp hsome
  have hfirst : (arrived c₁.shared.restarted r.token).tasks[0]?
      = some ⟨.validate ⟨r.token, none, none⟩,
        some (rotated.program (.validate ⟨r.token, none, none⟩))⟩ := rfl
  obtain ⟨t, ht, hreq, -⟩ := h₂'.task_persists hfirst
  have hsame : t = t₂ := Option.some.inj (ht.symm.trans ht₂)
  subst hsame
  have hissued : EndedWith c₁ t₁.req (.ok (.token r)) := ⟨0, t₁, ht₁, rfl, hx₁⟩
  have hended : EndedWith c₂ (.validate ⟨r.token, none, none⟩) x := ⟨0, t, ht, hreq, hx⟩
  obtain ⟨-, cl, jti, hclaims, -, haccepted, -⟩ := restarts_keep_tokens symbolic_decode
    symbolic_encode symbolic_uuid h₁' hissued .start .start hreach
  rw [hclaims] at hexp
  refine ⟨c₁, c₂, t₁.req, r, x, h₁', hissued, hreach, hended, haccepted x hended ?_ ?_ rfl ?_⟩
  · rw [hclock]
    exact JwtSigner.publishes_activePrevious rfl
  · rw [hclock]
    simpa using hexp
  · rw [List.isEmpty_iff.mp hempty]
    intro row hrow
    cases hrow

end Tim
