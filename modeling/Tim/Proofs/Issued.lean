import Tim.Proofs.Claims
import Tim.Proofs.Revocation

/-!
# `Tim.Proofs.Issued`: the tokens that the service has signed

The claims that `generate` and `extend` sign keep the free map apart from the named fields.
So a signed token carries exactly the claims it was signed with, and every verification whose
claim checks they pass returns them.

* `generateClaims_wellFormed`, `extendClaims_wellFormed`: no extra claim has a reserved name.
* `sign_wellFormed`: every signature of a run is over such claims.
* `claimsOf_signed`, `verifyRaw_of_signed`: the signed token carries them, as the codec reads them
  back.
-/

set_option autoImplicit false

namespace Tim

open Tim.Lib

variable {K : Crates}

/-! ### The signed map -/

/-- After names were erased from a map, none of them is there and the rest is as before. -/
theorem getElem?_foldl_erase (names : List String) (m : ClaimMap) (k : String) :
    (names.foldl (fun m k => m.erase k) m)[k]? = if k ∈ names then none else m[k]? := by
  induction names generalizing m with
  | nil => simp
  | cons n names ih =>
      rw [List.foldl_cons, ih, Std.ExtTreeMap.getElem?_erase]
      by_cases hmem : k ∈ names
      · simp [hmem]
      · by_cases heq : n = k
        · simp [heq]
        · have hne : k ≠ n := fun h => heq h.symm
          simp [hmem, heq, hne]

/-- `strip_reserved` removes the reserved names and nothing else. -/
theorem getElem?_stripReserved (m : ClaimMap) (k : String) :
    (stripReserved m)[k]? = if k ∈ reservedClaimNames then none else m[k]? :=
  getElem?_foldl_erase reservedClaimNames m k

/-- The map that `generate` signs: the content without the reserved names, with the token
type. -/
theorem getElem?_generateClaims (svc : JwtService K) (req : GenerateRequest) (aud : List String)
    (jti : Uuid) (now exp : DateTime) (k : String) :
    (svc.generateClaims req aud jti now exp).extra[k]?
      = if k = "token_type" then some (.string "custom_jwt")
        else if k ∈ reservedClaimNames then none else req.content[k]? := by
  show ((stripReserved req.content).insert "token_type" (Value.string "custom_jwt"))[k]? = _
  rw [Std.ExtTreeMap.getElem?_insert, getElem?_stripReserved]
  by_cases heq : k = "token_type"
  · simp [heq]
  · have hne : "token_type" ≠ k := fun h => heq h.symm
    simp [heq, hne]

/-- The named claims are reserved, and `token_type` is none of them. -/
theorem named_reserved {k : String} (hk : k ∈ StandardClaims.named) :
    k ∈ reservedClaimNames ∧ k ≠ "token_type" := by
  simp only [StandardClaims.named, List.mem_cons, List.not_mem_nil, or_false] at hk
  rcases hk with rfl | rfl | rfl | rfl | rfl | rfl <;> decide

/-- No extra claim of a generated token has the name of a standard one. -/
theorem generateClaims_wellFormed (svc : JwtService K) (req : GenerateRequest)
    (aud : List String) (jti : Uuid) (now exp : DateTime) :
    (svc.generateClaims req aud jti now exp).WellFormed := by
  intro k hk hmem
  obtain ⟨hres, hne⟩ := named_reserved hk
  rw [Std.ExtTreeMap.mem_iff_isSome_getElem?, getElem?_generateClaims, if_neg hne,
    if_pos hres] at hmem
  cases hmem

/-- An extension keeps that, since it copies the extra claims. -/
theorem extendClaims_wellFormed (svc : JwtService K) {old : StandardClaims}
    (h : old.WellFormed) (jti : Uuid) (now exp : DateTime) :
    (svc.extendClaims old jti now exp).WellFormed := by
  intro k hk hmem
  obtain ⟨-, hne⟩ := named_reserved hk
  rcases Std.ExtTreeMap.mem_insertIfNew.mp hmem with heq | hold
  · rw [Std.compare_eq_iff_eq] at heq
    exact hne heq.symm
  · exact h k hk hold

/-- A map with a token type is signed again as it is. -/
theorem extendClaims_extra (svc : JwtService K) {old : StandardClaims}
    (h : "token_type" ∈ old.extra) (jti : Uuid) (now exp : DateTime) :
    (svc.extendClaims old jti now exp).extra = old.extra := by
  refine Std.ExtTreeMap.ext_getElem? fun k => ?_
  show (old.extra.insertIfNew "token_type" (Value.string "custom_jwt"))[k]? = _
  rw [Std.ExtTreeMap.getElem?_insertIfNew, if_neg]
  rintro ⟨-, hnot⟩
  exact hnot h

/-! ### Signed tokens -/

/-- A token that expires some minutes later has its `exp` after its `iat`. -/
theorem timestamp_lt_of_plusMinutes {now exp : DateTime} {m : Int64} (hm : 0 < m)
    (hexp : plusMinutes now m = some exp) : now.timestamp < exp.timestamp := by
  rw [Int64.lt_iff_toInt_lt, DateTime.timestamp_toInt, DateTime.timestamp_toInt,
    plusMinutes_ns hexp]
  have hpos : 0 < m.toInt := Int64.lt_iff_toInt_lt.mp hm
  have hn : nanosPerSecond = 1000000000 := rfl
  rw [hn]
  omega

section Issued

variable {svc : JwtService K}
  {P : JwtPool svc → Label (jwtMachine svc.signer) (Request K) → Prop} {s₀ : Store}
  {c : JwtPool svc} {tid : Nat} {cl : StandardClaims} {a : Except TimError K.Token}
  {token : K.Token}

/-- The claims of a token that verifies are well formed. -/
theorem wellFormed_of_verifyRaw (laws : DecodeLaws K) {s : JwtSigner K} {at_ : DateTime}
    {v : Validation} (hv : v.validateAud = false)
    (h : s.verifyRaw at_ StandardClaims.deserialize token v = .ok cl) : cl.WellFormed := by
  obtain ⟨p, -, hp⟩ := Option.bind_eq_some_iff.mp (claimsOf_of_verifyRaw laws hv h)
  exact StandardClaims.wellFormed_of_deserialize hp

/-- The service signs only well-formed claims. -/
theorem sign_wellFormed (laws : DecodeLaws K) (h : JwtReach svc P s₀ c)
    (hmem : (⟨Op.sign cl, a⟩ : Event (jwtSig K)) ∈ eventsOf c.history tid) : cl.WellFormed := by
  obtain ⟨t, ht⟩ := h.task_of_event (mem_eventsOf.mp hmem)
  obtain ⟨h₁, h₂, hsplit⟩ := List.append_of_mem hmem
  have hcall := h.event_spec svc.program_spec ht hsplit
  cases hreq : t.req with
  | generate req =>
      rw [hreq] at hcall
      obtain ⟨d, -, -, rfl⟩ := hcall
      exact generateClaims_wellFormed svc req d.aud d.jti d.now d.exp
  | extend req =>
      rw [hreq] at hcall
      obtain ⟨x, hvalid, -, rfl⟩ := hcall
      have hold : x.old.WellFormed :=
        wellFormed_of_verifyRaw laws rfl (JwtService.verifyRaw_of_verify hvalid.verified)
      exact extendClaims_wellFormed svc hold x.newJti x.now x.newExp
  | _ =>
      rw [hreq] at hcall
      exact hcall.elim

/-- The claims of a signed token are read back from the text of those that were signed. -/
theorem claimsOf_of_sign (enc : EncodeLaws K) {signer : JwtSigner K}
    (hsign : signer.sign cl.serialize = .ok token) (hcl : cl.WellFormed) :
    ∃ cl', cl.RereadAs cl' ∧ claimsOf token = some cl' := by
  obtain ⟨cl', hreread, hpayload⟩ :=
    enc.payload_of_encode _ cl _ _ (JwtSigner.encode_of_sign hsign)
  refine ⟨cl', hreread, ?_⟩
  rw [claimsOf, hpayload]
  exact StandardClaims.deserialize_serialize cl' (hreread.wellFormed hcl)

/-- A signed token carries the claims it was signed with, as their text is read. -/
theorem payload_of_sign (laws : DecodeLaws K) (enc : EncodeLaws K) (h : JwtReach svc P s₀ c)
    (hmem : (⟨Op.sign cl, Except.ok token⟩ : Event (jwtSig K)) ∈ eventsOf c.history tid) :
    svc.signer.sign cl.serialize = .ok token
      ∧ ∃ cl', cl.RereadAs cl' ∧ claimsOf token = some cl' := by
  have hsign := (sign_read h hmem).symm
  exact ⟨hsign, claimsOf_of_sign enc hsign (sign_wellFormed laws h hmem)⟩

/-- Where a text is read as it was written, these are the same claims. -/
theorem claimsOf_signed (laws : DecodeLaws K) (json : K.JsonExact) (h : JwtReach svc P s₀ c)
    (hmem : (⟨Op.sign cl, Except.ok token⟩ : Event (jwtSig K)) ∈ eventsOf c.history tid) :
    claimsOf token = some cl := by
  have hpayload := json _ _ _ _ (JwtSigner.encode_of_sign (sign_read h hmem).symm)
  rw [claimsOf, hpayload]
  exact StandardClaims.deserialize_serialize cl (sign_wellFormed laws h hmem)

/-- Every verification of a signed token for RS256 that checks no claim returns its claims. -/
theorem verifyRaw_of_signed (laws : DecodeLaws K) (enc : EncodeLaws K) {claims : Payload}
    (hsign : svc.signer.sign claims = .ok token) (hclaims : claimsOf token = some cl)
    (at_ : DateTime) {v : Validation} (haud : v.validateAud = false)
    (halg : v.algorithms = [.rs256]) (hpass : ∀ p, v.passes p at_.timestamp = true) :
    svc.signer.verifyRaw at_ StandardClaims.deserialize token v = .ok cl := by
  obtain ⟨hheader, hverifies⟩ := JwtSigner.sign_spec enc hsign
  obtain ⟨p, hpayload, hcl⟩ := Option.bind_eq_some_iff.mp hclaims
  rw [JwtSigner.verifyRaw_of_sign laws enc hsign rfl]
  obtain ⟨pem, priv, pubPem, -, -, -, -, hdk⟩ := svc.signer.current.fromPem
  refine (laws.ok_iff _ _ _ _ _ _ haud).mpr ⟨?_, hverifies, p, hpayload, hcl, hpass p⟩
  exact laws.allowed_rs256 token _ v _ _ hdk hheader rfl halg

/-- A request that returns a token has signed it. -/
theorem sign_of_result (h : JwtReach svc P s₀ c)
    {t : Task (jwtSig K) Fault (Response K) (Request K)} (ht : c.tasks[tid]? = some t)
    {r : TokenResponse K} (hx : t.result = some (.ok (.token r))) :
    ∃ cl, (⟨Op.sign cl, Except.ok r.token⟩ : Event (jwtSig K)) ∈ eventsOf c.history tid := by
  have hdone := h.result_spec svc.program_spec ht hx
  cases hreq : t.req with
  | generate req =>
      rw [hreq] at hdone
      obtain ⟨r', heq, g, -, hevents, htoken⟩ := hdone
      cases heq
      refine ⟨g.claims svc req, ?_⟩
      rw [hevents, htoken]
      exact List.mem_of_getElem? (i := 2) rfl
  | extend req =>
      rw [hreq] at hdone
      obtain ⟨r', heq, x, -, hevents, htoken⟩ := hdone
      cases heq
      refine ⟨x.claims svc, ?_⟩
      rw [hevents, htoken]
      exact List.mem_of_getElem? (i := 5) rfl
  | _ =>
      rw [hreq] at hdone
      exact absurd rfl (hdone r)

end Issued

/-! ### Tokens of the sample service -/

namespace Symbolic

/-- The token that a finished task has returned. -/
def issuedBy {svc : JwtService symbolic} (tid : Nat) (c : JwtPool svc) : Option symbolic.Token :=
  c.tasks[tid]?.bind fun t => match t.result with
    | some (.ok (.token r)) => some r.token
    | _ => none

/-- The test of a finished request by its token. -/
theorem result_of_issuedBy {svc : JwtService symbolic} {tid : Nat} {c : JwtPool svc}
    {token : symbolic.Token}
    (h : issuedBy tid c = some token) :
    ∃ t r, c.tasks[tid]? = some t ∧ t.result = some (.ok (.token r)) ∧ r.token = token := by
  obtain ⟨t, ht, hres⟩ := Option.bind_eq_some_iff.mp h
  split at hres
  · rename_i r hr
    exact ⟨t, r, ht, hr, Option.some.inj hres⟩
  · cases hres

/-- The pool after an extension of the token has started. -/
def startExtend (c : JwtPool service) (token : symbolic.Token) : JwtPool service :=
  { c with tasks := c.tasks
      ++ [⟨.extend ⟨token, none⟩, some (service.program (.extend ⟨token, none⟩))⟩] }

end Symbolic

end Tim
