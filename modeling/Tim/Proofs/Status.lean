import Tim.Proofs.Issued
import Tim.Proofs.Listing

/-!
# `Tim.Proofs.Status`: the status of a listed token and the answer of the validator

The row of a token keeps its expiry in microseconds, and `list_for_subject` compares it with the
clock as it is. The token itself carries whole seconds, and `validate` compares them with the whole
seconds of the clock. So the list calls a token expired as soon as its instant has passed, and
the validator once the second of that instant is over.

`listed_status_agrees` compares the two for a token that the service has issued. They agree in a
store at an instant exactly when the jti is denylisted, or the instant is not inside the second of
the expiry and after the expiry.

* `validates_iff`: when the validator calls the token active.
* `listed_status`: what the list says about its row.
* `listed_status_differs`: an instant inside the second of the expiry.
-/

set_option autoImplicit false

namespace Tim

open Tim.Lib Tim.Action
open Tim.Lib.Prog (ensures_ret ensures_raise Solo)
open Store

/-! ### Seconds and microseconds -/

/-- The rounding of the database stays inside the second. -/
theorem timestamp_toTimestamptz (t : DateTime) : t.toTimestamptz.timestamp = t.timestamp := by
  have hns : t.toTimestamptz.ns = t.ns / 1000 * 1000 := rfl
  unfold DateTime.timestamp
  have hn : nanosPerSecond = 1000000000 := rfl
  rw [hns, hn]
  congr 1
  omega

/-- The clock is past an instant by its whole seconds, or by its count and in the same second. -/
theorem lt_iff_timestamp {a b : DateTime} :
    a.timestamp < b.timestamp ↔ a < b ∧ b.timestamp ≠ a.timestamp := by
  have hlt : a < b ↔ a.ns < b.ns := Iff.rfl
  have heq : b.timestamp ≠ a.timestamp ↔ b.timestamp.toInt ≠ a.timestamp.toInt :=
    not_congr Int64.toInt_inj.symm
  have hn : nanosPerSecond = 1000000000 := rfl
  rw [Int64.lt_iff_toInt_lt, heq, DateTime.timestamp_toInt, DateTime.timestamp_toInt, hlt, hn]
  omega

namespace JwtService

variable {K : Crates} {svc : JwtService K} {tid : Nat} {s : Store} {token : K.Token}
  {claims : StandardClaims} {jti : Uuid}

/-! ### The validator -/

/-- The validator answers the token in the store at its instant as `P` says. -/
def Validates (svc : JwtService K) (tid : Nat) (token : K.Token) (s : Store)
    (P : ValidateResponse → Prop) : Prop :=
  ∃ v s', (svc.validate ⟨token, none, none⟩).Solo (frozen svc.signer) tid s (.ok v) s' ∧ P v

/-- The answers for a token that verifies and whose jti is a UUID, without an audience policy. -/
theorem validate_still (haud : svc.cfg.audience.enforced = false)
    (hverified : svc.signer.verifyRaw s.clock StandardClaims.deserialize token permissiveValidation
      = .ok claims) (hparsed : K.parseUuid claims.jti = some jti) :
    Still svc.signer tid (svc.validate ⟨token, none, none⟩) s fun x _ => ∀ v, x = .ok v →
      v = if claims.exp < s.clock.timestamp then responseFrom claims true false "expired"
        else if (s.denied jti).isSome then responseFrom claims true false "revoked"
        else responseFromValid claims := by
  unfold validate
  refine still_now ?_
  simp only [hverified]
  refine still_now ?_
  simp only [Option.any_none, Bool.false_eq_true, ↓reduceIte, haud, Bool.false_and, hparsed]
  by_cases hexp : claims.exp < s.clock.timestamp
  · simp only [hexp, ↓reduceIte]
    exact ensures_ret.mpr fun v heq => (Except.ok.inj heq).symm
  · simp only [hexp, ↓reduceIte]
    refine still_call fun r s₁ heff => ?_
    obtain ⟨rfl, rfl | ⟨e, rfl⟩⟩ := heff.selectDenylist_inv
    · cases hdenied : (s₁.denied jti).isSome with
      | true => exact ensures_ret.mpr fun v heq => (Except.ok.inj heq).symm
      | false => exact ensures_ret.mpr fun v heq => (Except.ok.inj heq).symm
    · exact still_fail fun v heq => by cases heq

/-- A token that verifies and has a UUID gets a verdict. -/
theorem validate_solo (tid : Nat) (haud : svc.cfg.audience.enforced = false)
    (hverified : svc.signer.verifyRaw s.clock StandardClaims.deserialize token permissiveValidation
      = .ok claims) (hparsed : K.parseUuid claims.jti = some jti) :
    ∃ v s', (svc.validate ⟨token, none, none⟩).Solo (frozen svc.signer) tid s (.ok v) s' := by
  suffices hrun : ∃ v, (svc.validate ⟨token, none, none⟩).Solo (frozen svc.signer) tid s
      (.ok v) s from hrun.imp fun v hv => ⟨s, hv⟩
  unfold validate
  by_cases hexp : claims.exp < s.clock.timestamp
  · refine ⟨responseFrom claims true false "expired", ?_⟩
    refine solo_call .go rfl ?_
    simp only [hverified]
    refine solo_call .go rfl ?_
    simp only [Option.any_none, Bool.false_eq_true, ↓reduceIte, haud, Bool.false_and, hexp]
    exact ⟨rfl, rfl⟩
  · refine ⟨if (s.denied jti).isSome then responseFrom claims true false "revoked"
      else responseFromValid claims, ?_⟩
    refine solo_call .go rfl ?_
    simp only [hverified]
    refine solo_call .go rfl ?_
    simp only [Option.any_none, Bool.false_eq_true, ↓reduceIte, haud, Bool.false_and, hparsed, hexp]
    refine solo_call .go (r := .ok (s.denied jti).isSome) (t := s) rfl ?_
    cases (s.denied jti).isSome with
    | true => exact ⟨rfl, rfl⟩
    | false => exact ⟨rfl, rfl⟩

/-- The answer of the validator is the one of `validate_still`. -/
theorem validates_iff (tid : Nat) (haud : svc.cfg.audience.enforced = false)
    (hverified : svc.signer.verifyRaw s.clock StandardClaims.deserialize token permissiveValidation
      = .ok claims) (hparsed : K.parseUuid claims.jti = some jti) (P : ValidateResponse → Prop) :
    svc.Validates tid token s P
      ↔ P (if claims.exp < s.clock.timestamp then responseFrom claims true false "expired"
        else if (s.denied jti).isSome then responseFrom claims true false "revoked"
        else responseFromValid claims) := by
  constructor
  · rintro ⟨v, s', hrun, hv⟩
    rwa [validate_still haud hverified hparsed _ _ hrun v rfl] at hv
  · intro hP
    obtain ⟨v, s', hrun⟩ := validate_solo tid haud hverified hparsed
    refine ⟨v, s', hrun, ?_⟩
    rwa [validate_still haud hverified hparsed _ _ hrun v rfl]

/-! ### Issued tokens -/

/-- A successful `generate` or `extend` returned the token and added the row. -/
def Issued (svc : JwtService K) (token : K.Token) (row : MetadataRow) : Prop :=
  ∃ tid s s' resp, resp.token = token ∧ s'.metadata = s.metadata ++ [row]
    ∧ ((∃ req, (svc.generate req).Solo (passing svc.signer) tid s (.ok resp) s')
      ∨ ∃ req, (svc.extend req).Solo (passing svc.signer) tid s (.ok resp) s')

/-- A token of an issued row is one that was signed for it. -/
theorem Issued.signedFor {row : MetadataRow} (h : svc.Issued token row) :
    svc.SignedFor token row := by
  obtain ⟨tid, s, s', resp, rfl, hrows, ⟨req, hrun⟩ | ⟨req, hrun⟩⟩ := h
  · obtain ⟨row', hrows', -, hsigned⟩ := svc.generate_atomic tid s req _ _ hrun
    have heq := List.append_cancel_left (hrows.symm.trans hrows')
    rw [List.singleton_inj.mp heq]
    exact hsigned
  · obtain ⟨row', entry, old, oldJti, at_, -, -, -, hrows', -, -, hsigned⟩ :=
      svc.extend_atomic tid s req _ _ hrun
    have heq := List.append_cancel_left (hrows.symm.trans hrows')
    rw [List.singleton_inj.mp heq]
    exact hsigned

/-- The claims that the service composes have no extra claim with the name of a standard one. -/
theorem Composes.wellFormed (laws : DecodeLaws K) {exp : DateTime} (h : svc.Composes claims exp) :
    claims.WellFormed := by
  cases h with
  | generate req aud jti now => exact generateClaims_wellFormed svc req aud jti now exp
  | extend hold jti now =>
      refine extendClaims_wellFormed svc ?_ jti now exp
      exact wellFormed_of_verifyRaw laws rfl (verifyRaw_of_verify hold)

/-- The `exp` of the claims is the second of the row's `expires_at`. -/
theorem Composes.exp_eq {exp : DateTime} (h : svc.Composes claims exp) :
    claims.exp = exp.timestamp := by
  cases h <;> rfl

/-- What the validator finds in an issued token, at every instant. -/
theorem Issued.verified (laws : DecodeLaws K) (enc : EncodeLaws K) {row : MetadataRow}
    (h : svc.Issued token row) :
    ∃ claims : StandardClaims, claims.exp = row.expiresAt.timestamp
      ∧ claims.jti = K.uuidText row.jwtUuid
      ∧ ∀ at_, svc.signer.verifyRaw at_ StandardClaims.deserialize token permissiveValidation
        = .ok claims := by
  obtain ⟨claims, exp, hcomposed, hsign, hjti, hexp⟩ := h.signedFor
  obtain ⟨_, ⟨extra, -, rfl⟩, hclaims⟩ := claimsOf_of_sign enc hsign (hcomposed.wellFormed laws)
  refine ⟨{ claims with extra }, ?_, hjti, fun at_ => ?_⟩
  · rw [hexp, timestamp_toTimestamptz]
    exact hcomposed.exp_eq
  · exact verifyRaw_of_signed laws enc hsign hclaims at_ rfl rfl fun _ => rfl

/-! ### The comparison -/

/-- The status of a listed token says what the validator says. -/
structure StatusAgrees (svc : JwtService K) (tid : Nat) (token : K.Token) (jti : Uuid) (s : Store)
    (status : String) : Prop where
  active : status = "active" ↔ svc.Validates tid token s (·.active = true)
  revoked : status = "revoked" ↔ (s.denied jti).isSome = true
  expired : status = "expired" ↔ (s.denied jti).isSome = false
    ∧ svc.Validates tid token s (·.reason = some "expired")

/-- The status of an entry with the jti and the expiry of a row. -/
theorem listed_status (uuid : UuidLaws K) {row : MetadataRow} {subject : String}
    {req : ListRequest} {resp : ListResponse} {s' : Store}
    (hlist : (listForSubject (K := K) subject req).Solo (frozen svc.signer) tid s (.ok resp) s')
    {entry : TokenSummary} (hentry : entry ∈ resp.tokens)
    (hjti : entry.jti = K.uuidText row.jwtUuid) (hexp : entry.expiresAt = row.expiresAt) :
    entry.status = if (s.denied row.jwtUuid).isSome then "revoked"
      else if row.expiresAt < s.clock then "expired" else "active" := by
  obtain ⟨now, order, rfl, hlisted⟩ :=
    listForSubject_ensures (calm_frozen svc.signer) subject req _ _ hlist resp rfl
  rw [hlisted.tokens] at hentry
  obtain ⟨r, -, rfl⟩ := List.mem_map.mp hentry
  have hsame : r.jwtUuid = row.jwtUuid := by
    have htext : K.uuidText r.jwtUuid = K.uuidText row.jwtUuid := hjti
    have htext := congrArg K.parseUuid htext
    rw [uuid.parse_text, uuid.parse_text] at htext
    exact Option.some.inj htext
  have hrexp : r.expiresAt = row.expiresAt := hexp
  show (if (s.denied r.jwtUuid).isSome then "revoked"
    else if r.expiresAt < s.clock then "expired" else "active") = _
  rw [hsame, hrexp]

/-- In a store at an instant, the entry of an issued token in a list has the status that the
validator gives it, if and only if its jti is denylisted, or the instant is not after the expiry
within its second. -/
theorem listed_status_agrees (laws : DecodeLaws K) (enc : EncodeLaws K) (uuid : UuidLaws K)
    (haud : svc.cfg.audience.enforced = false) {row : MetadataRow} (hissued : svc.Issued token row)
    {subject : String} {req : ListRequest} {resp : ListResponse} {s' : Store}
    (hlist : (listForSubject (K := K) subject req).Solo (frozen svc.signer) tid s (.ok resp) s')
    {entry : TokenSummary} (hentry : entry ∈ resp.tokens)
    (hjti : entry.jti = K.uuidText row.jwtUuid) (hexp : entry.expiresAt = row.expiresAt) :
    svc.StatusAgrees tid token row.jwtUuid s entry.status
      ↔ (s.denied row.jwtUuid).isSome = true
        ∨ ¬ (row.expiresAt < s.clock ∧ s.clock.timestamp = row.expiresAt.timestamp) := by
  obtain ⟨claims, hcexp, hcjti, hverified⟩ := hissued.verified laws enc
  have hparsed : K.parseUuid claims.jti = some row.jwtUuid := by rw [hcjti, uuid.parse_text]
  have hstatus := listed_status uuid hlist hentry hjti hexp
  have hvalidates := validates_iff tid haud (hverified s.clock) hparsed
  have hseconds : claims.exp < s.clock.timestamp
      ↔ row.expiresAt < s.clock ∧ s.clock.timestamp ≠ row.expiresAt.timestamp := by
    rw [hcexp]
    exact lt_iff_timestamp
  rw [hstatus]
  cases hdenied : (s.denied row.jwtUuid).isSome with
  | true =>
      -- Both say that the token is not active, and the list says why.
      refine iff_of_true ⟨?_, ?_, ?_⟩ (.inl rfl)
      · rw [hvalidates, hdenied]
        refine iff_of_false (by simp) ?_
        split <;> simp [responseFrom]
      · rw [hdenied]
        simp
      · rw [hdenied]
        simp
  | false =>
      simp only [Bool.false_eq_true, ↓reduceIte, false_or]
      constructor
      · rintro ⟨-, -, hexpired⟩ ⟨hpast, hsame⟩
        rw [if_pos hpast, hvalidates, hdenied] at hexpired
        have hreason := (hexpired.mp rfl).2
        rw [if_neg (fun hlt => (hseconds.mp hlt).2 hsame)] at hreason
        cases hreason
      · intro hcond
        have hagree : row.expiresAt < s.clock ↔ claims.exp < s.clock.timestamp := by
          rw [hseconds]
          exact ⟨fun hpast => ⟨hpast, fun hsame => hcond ⟨hpast, hsame⟩⟩, fun h => h.1⟩
        by_cases hpast : row.expiresAt < s.clock
        · have hover := hagree.mp hpast
          refine ⟨?_, ?_, ?_⟩
          · simp [hvalidates, hpast, hover, responseFrom]
          · simp [hdenied, hpast]
          · simp [hvalidates, hdenied, hpast, hover, responseFrom]
        · have hover := mt hagree.mpr hpast
          refine ⟨?_, ?_, ?_⟩
          · simp [hvalidates, hdenied, hpast, hover, responseFromValid]
          · simp [hdenied, hpast]
          · simp [hvalidates, hdenied, hpast, hover, responseFromValid]

end JwtService

/-! ### A token that expires within a second -/

namespace Symbolic

/-- Some milliseconds after a second. -/
def instantMs (secs : Fin 4096) (ms : Fin 1000) : DateTime where
  ns := secs * 1000000000 + ms * 1000000
  lo := by
    have hmin : minTimestamp * nanosPerSecond = -8334601228800000000000 := rfl
    omega
  hi := by
    have hmax : (maxTimestamp + 1) * nanosPerSecond = 8210266876800000000000 := rfl
    omega

/-- Empty tables 200 ms after second 1000. -/
def storeMs : Store := { store with clock := instantMs 1000 200 }

/-- The first entry of a page has the status, and the jti and expiry of the row. -/
def listsAs (row : MetadataRow) (status : String) : Except Fault ListResponse → Bool
  | .ok resp => resp.tokens.any fun t => t.status == status
      && t.jti == symbolic.uuidText row.jwtUuid && decide (t.expiresAt = row.expiresAt)
  | .error _ => false

/-- The test of a listing with the status of a row. -/
theorem listsAs_ok {row : MetadataRow} {status : String} {x : Except Fault ListResponse}
    (h : listsAs row status x = true) :
    ∃ resp entry, x = .ok resp ∧ entry ∈ resp.tokens ∧ entry.status = status
      ∧ entry.jti = symbolic.uuidText row.jwtUuid ∧ entry.expiresAt = row.expiresAt := by
  cases x with
  | error e => cases h
  | ok resp =>
      obtain ⟨entry, hmem, htest⟩ := List.any_eq_true.mp h
      simp only [Bool.and_eq_true, beq_iff_eq, decide_eq_true_eq] at htest
      exact ⟨resp, entry, rfl, hmem, htest.1.1, htest.1.2, htest.2⟩

/-- A finished validation calls the token active. -/
def validatesActive : Except Fault ValidateResponse → Bool
  | .ok v => v.active
  | .error _ => false

/-- The test of an active verdict. -/
theorem validatesActive_ok {x : Except Fault ValidateResponse} (h : validatesActive x = true) :
    ∃ v, x = .ok v ∧ v.active = true := by
  cases x with
  | ok v => exact ⟨v, rfl, h⟩
  | error e => cases h

/-- The one row of a store is listed with the status at an instant, and the validator calls the
token active then. -/
def listedAs (later : DateTime) (status : String) :
    Except Fault (TokenResponse symbolic) → Store → Bool
  | .ok resp, s' => match s'.metadata with
      | [row] =>
          ((JwtService.listForSubject (K := symbolic) "alice" listing).play
            (jwtMachine service.signer) 0 { s' with clock := later }
            ([.order [row], .go, .go, .go] : List Choice)).any (fun y => listsAs row status y.1)
          && ((service.validate ⟨resp.token, none, none⟩).play (jwtMachine service.signer) 0
            { s' with clock := later } ([.go, .go, .go] : List Choice)).any
              fun y => validatesActive y.1
      | _ => false
  | .error _, _ => false

/-- The sample token, listed and validated at a later instant. -/
theorem exists_listed (later : DateTime) (status : String)
    (h : (((service.generate request).play (jwtMachine service.signer) 0 storeMs
      ([.uuid ⟨1⟩, .go, .go, .uuid ⟨2⟩, .go] : List Choice)).any
        fun y => listedAs later status y.1 y.2) = true) :
    ∃ token row s, service.Issued token row ∧ s.clock = later
      ∧ (∃ resp s' entry, (JwtService.listForSubject (K := symbolic) "alice" listing).Solo
          (frozen service.signer) 0 s (.ok resp) s' ∧ entry ∈ resp.tokens
        ∧ entry.status = status ∧ entry.jti = symbolic.uuidText row.jwtUuid
        ∧ entry.expiresAt = row.expiresAt)
      ∧ service.Validates 0 token s (·.active = true) := by
  have hpass : ∀ s : Store, (passing service.signer).moves s s := fun s =>
    ⟨s.clock, if_pos (Int.le_refl _)⟩
  obtain ⟨x, s₁, hrun, htest⟩ := Prog.exists_solo (M := jwtMachine service.signer)
    (E := passing service.signer) (listedAs later status) _ hpass (fun _ _ => trivial) h
  cases x with
  | error e => cases htest
  | ok resp =>
      simp only [listedAs] at htest
      split at htest
      · rename_i row hrow
        rw [Bool.and_eq_true] at htest
        refine ⟨resp.token, row, { s₁ with clock := later },
          ⟨0, storeMs, s₁, resp, rfl, hrow, .inl ⟨request, hrun⟩⟩, rfl, ?_, ?_⟩
        · obtain ⟨y, s₂, hlist, hstatus⟩ := exists_frozen service.signer
            (JwtService.listForSubject "alice" listing) 0 { s₁ with clock := later }
            (fun x _ => listsAs row status x) _ htest.1
          obtain ⟨page, entry, rfl, hentry⟩ := listsAs_ok hstatus
          exact ⟨page, s₂, entry, hlist, hentry⟩
        · obtain ⟨y, s₂, hval, hactive⟩ := exists_frozen service.signer
            (service.validate ⟨resp.token, none, none⟩) 0 { s₁ with clock := later }
            (fun x _ => validatesActive x) _ htest.2
          obtain ⟨v, rfl, hv⟩ := validatesActive_ok hactive
          exact ⟨v, s₂, hval, hv⟩
      · cases htest

end Symbolic

open Symbolic in
/-- Before the expiry the list and the validator agree. -/
theorem listed_status_agrees_active :
    ∃ token row s, ∃ entry : TokenSummary, service.Issued token row ∧ entry.status = "active"
      ∧ service.StatusAgrees 0 token row.jwtUuid s entry.status := by
  obtain ⟨token, row, s, hissued, hclock, ⟨resp, s', entry, hlist, hentry, hstatus, hjti, hexp⟩,
    hvalid⟩ := exists_listed (instantMs 1500 0) "active" (by decide +kernel)
  refine ⟨token, row, s, entry, hissued, hstatus, ?_⟩
  refine (JwtService.listed_status_agrees symbolic_decode symbolic_encode symbolic_uuid rfl hissued
    hlist hentry hjti hexp).mpr (.inr ?_)
  -- An entry that is past its expiry does not read active.
  have hread := JwtService.listed_status symbolic_uuid hlist hentry hjti hexp
  rintro ⟨hpast, -⟩
  rw [hstatus, if_pos hpast] at hread
  split at hread
  · exact absurd hread (by decide)
  · exact absurd hread (by decide)

open Symbolic in
/-- A token that expires 200 ms after second 1600: at 500 ms the list calls it expired, and the
validator active. -/
theorem listed_status_differs :
    ∃ token row s, service.Issued token row
      ∧ (∃ resp s' entry, (JwtService.listForSubject (K := symbolic) "alice" listing).Solo
          (frozen service.signer) 0 s (.ok resp) s' ∧ entry ∈ resp.tokens
        ∧ entry.status = "expired" ∧ entry.jti = symbolic.uuidText row.jwtUuid
        ∧ entry.expiresAt = row.expiresAt)
      ∧ service.Validates 0 token s (·.active = true) := by
  obtain ⟨token, row, s, hissued, -, hlist, hvalid⟩ :=
    exists_listed (instantMs 1600 500) "expired" (by decide +kernel)
  exact ⟨token, row, s, hissued, hlist, hvalid⟩

end Tim
