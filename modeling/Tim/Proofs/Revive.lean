import Tim.Proofs.Atomic
import Tim.Proofs.Revocation

/-!
# `Tim.Proofs.Revive`: extending a token that introspection calls inactive

`introspect` and `extend` check the same token each by itself. Both ask for a signature, an
`exp` that is not over and a jti that is a UUID without a denylist row. `introspect` asks in
addition that the `iss` is the configured issuer. `extend` does not.

`inactive_not_extended` compares the two in one store at one instant. A token that introspection
calls inactive is refused by every extension and nothing is written, exactly when it is not a live
token of another issuer (`ForeignLive`). Such a token is extended whenever nothing but its issuer
could stand in the way (`Unhindered`, `extend_succeeds`). `foreign_token_extended` is one, and it
gets a fresh token from the service.

* `extend_refuses`: a token that is not live is not extended.
* `foreign_of_inactive`: a live token that introspection calls inactive is one of another issuer.
* `extend_succeeds`: a live token is extended, whoever is its issuer.
-/

set_option autoImplicit false

namespace Tim

open Tim.Lib Tim.Action
open Tim.Lib.Prog (ensures_ret ensures_raise ensures_op Solo)
open Store

section Rules

variable {K : Crates} {signer : JwtSigner K} {tid : Nat} {s s' : Store} {α β : Type}
  {Q : Except Fault α → Store → Prop} {x : Except Fault α}

/-- Nothing moves between two calls, and every call can fail. -/
def frozen (signer : JwtSigner K) : Surroundings (jwtMachine signer) := ⟨Eq, fun _ => True⟩

/-- Every run of the action in the store at its instant ends as `Q` says. -/
def Still (signer : JwtSigner K) (tid : Nat) (p : Action K α) (s : Store)
    (Q : Except Fault α → Store → Prop) : Prop :=
  Prog.Ensures (frozen signer) tid p s Q

/-- An error without a call leaves the store as it is. -/
theorem still_fail {e : TimError} (h : Q (.error (.err e)) s) :
    Still signer tid (fail e) s Q :=
  ensures_raise.mpr h

/-- A call in a store at rest: its effect is the only thing that happens. -/
theorem still_call {o : Op} {f : Resp K o → Action K α}
    (h : ∀ r s₁, Effect signer tid s o r s₁ → Still signer tid (f r) s₁ Q) :
    Still signer tid (call o >>= f) s Q :=
  ensures_call fun s₁ _ r s₂ hsame _ hexec => by
    obtain rfl : s = s₁ := hsame
    exact h r s₂ (exec_effect hexec)

/-- The clock stands still, so that it is read as the instant of the store. -/
theorem still_now {f : DateTime → Action K α} (h : Still signer tid (f s.clock) s Q) :
    Still signer tid (call .now >>= f) s Q := by
  refine still_call fun r s₁ heff => ?_
  cases heff with
  | now => exact h
  | query o r hq => exact hq.elim
  | failed o r he => exact he.elim

/-- One call of a run. -/
theorem solo_call (ch : Choice) {o : Op} {f : Resp K o → Action K α} {r : Resp K o} {t : Store}
    (hexec : s.exec signer tid o ch = some (r, t)) (h : (f r).Solo (frozen signer) tid t x s') :
    (call o >>= f).Solo (frozen signer) tid s x s' :=
  ⟨s, ch, r, t, rfl, trivial, hexec, h⟩

/-- The result of a statement is handed on. -/
theorem solo_sql {a : β} {f : β → Action K α} (h : (f a).Solo (frozen signer) tid s x s') :
    (sql (.ok a) >>= f).Solo (frozen signer) tid s x s' := h

/-- A run by a list of choices, with a tested end. -/
theorem exists_frozen (signer : JwtSigner K) (p : Action K α) (tid : Nat) (s : Store)
    (test : Except Fault α → Store → Bool) (chs : List Choice)
    (h : ((p.play (jwtMachine signer) tid s chs).any fun y => test y.1 y.2) = true) :
    ∃ x s', p.Solo (frozen signer) tid s x s' ∧ test x s' = true :=
  Prog.exists_solo (M := jwtMachine signer) (E := frozen signer) test chs (fun _ => rfl)
    (fun _ _ => trivial) h

end Rules

namespace JwtService

variable {K : Crates} (svc : JwtService K) (token : K.Token) (s : Store)

/-- The token verifies, it has not expired, and its jti is a UUID that is not denylisted. -/
structure Live (claims : StandardClaims) (jti : Uuid) : Prop where
  verified : svc.signer.verify s.clock StandardClaims.deserialize token permissiveValidation
    = .ok claims
  alive : ¬ claims.exp < s.clock.timestamp
  parsed : K.parseUuid claims.jti = some jti
  free : s.denied jti = none

/-- A live token with an `iss` that is not the issuer of the service. -/
def ForeignLive : Prop :=
  ∃ claims jti, svc.Live token s claims jti ∧ claims.iss ≠ svc.cfg.issuer

variable {svc token s} {tid : Nat}

/-- A token that is not live is not extended. -/
theorem extend_refuses (hdead : ∀ claims jti, ¬ svc.Live token s claims jti)
    (minutes : Option Int64) :
    Still svc.signer tid (svc.extend ⟨token, minutes⟩) s
      fun x s' => (∃ e, x = .error (.err e)) ∧ SameTables s s' := by
  unfold extend
  refine still_now ?_
  split
  · exact still_fail ⟨⟨_, rfl⟩, .refl s⟩
  rename_i claims hverified
  refine still_now ?_
  split
  · exact still_fail ⟨⟨_, rfl⟩, .refl s⟩
  rename_i halive
  split
  · exact still_fail ⟨⟨_, rfl⟩, .refl s⟩
  rename_i jti hparsed
  refine still_call fun r s₁ heff => ?_
  obtain ⟨rfl, rfl | ⟨e, rfl⟩⟩ := heff.selectDenylist_inv
  · cases hdenied : s₁.denied jti with
    | none => exact absurd ⟨hverified, halive, hparsed, hdenied⟩ (hdead claims jti)
    | some row => exact still_fail ⟨⟨_, rfl⟩, .refl s₁⟩
  · exact still_fail ⟨⟨_, rfl⟩, .refl s₁⟩

/-- A live token that introspection calls inactive is one of another issuer. -/
theorem foreign_of_inactive {claims : StandardClaims} {jti : Uuid}
    (hlive : svc.Live token s claims jti) {resp : IntrospectionResponse} {s' : Store}
    (hrun : (svc.introspect ⟨token⟩).Solo (frozen svc.signer) tid s (.ok resp) s')
    (hinactive : resp.active = false) : claims.iss ≠ svc.cfg.issuer := by
  intro hiss
  have hactive : Still svc.signer tid (svc.introspect ⟨token⟩) s
      fun x _ => ∀ resp, x = .ok resp → resp.active = true := by
    unfold introspect
    refine still_now ?_
    simp only [hlive.verified, hiss, ne_eq, not_true_eq_false, ↓reduceIte]
    refine still_now ?_
    simp only [hlive.alive, ↓reduceIte, hlive.parsed]
    refine still_call fun r s₁ heff => ?_
    obtain ⟨rfl, rfl | ⟨e, rfl⟩⟩ := heff.selectDenylist_inv
    · rw [hlive.free]
      refine ensures_ret.mpr ?_
      rintro _ ⟨⟩
      rfl
    · refine still_fail (e := .database e) ?_
      rintro _ ⟨⟩
  rw [hactive _ _ hrun resp rfl] at hinactive
  cases hinactive

/-- The minutes that leave the range of a `Duration`. -/
theorem plusMinutes_max (now : DateTime) : plusMinutes now Int64.maxValue = none := by
  have hrange : Duration.tryMinutes Int64.maxValue = none := by decide +kernel
  rw [plusMinutes, hrange]
  rfl

/-! ### An extension that nothing hinders -/

variable (svc token s) in
/-- Only the token decides about an extension by so many minutes: their end and the end of the token
are in the calendar, the signer signs, no transaction is open, and two UUIDs are left of which none
is the id of a row. -/
structure Unhindered (minutes : Option Int64) : Prop where
  positive : 0 < minutes.getD 60
  inside : (plusMinutes s.clock (minutes.getD 60)).isSome = true
  dated : ∀ claims, svc.signer.verify s.clock StandardClaims.deserialize token permissiveValidation
    = .ok claims → (DateTime.fromTimestamp claims.exp).isSome = true
  signs : ∀ claims : StandardClaims, ∃ t, svc.signer.sign claims.serialize = .ok t
  idle : ∀ tid, s.txOf tid = none
  drawn : ∀ r ∈ s.metadata, r.id ∈ s.used
  room : ∃ jti id, jti ∉ s.used ∧ id ∉ jti :: s.used

/-- The task is the only one with an open transaction. -/
def AloneWith (s : Store) (tid : Nat) (tx : Tx) : Prop :=
  s.txOf tid = some tx ∧ ∀ tid', tid' ≠ tid → s.txOf tid' = none

/-- What it inserts meets no row of another transaction. -/
theorem AloneWith.otherTx {tx : Tx} (h : AloneWith s tid tx) (p : Tx → Bool) :
    s.otherTx tid .tx p = false := by
  rw [Bool.eq_false_iff]
  intro hany
  obtain ⟨tid', tx', hne, htx, -⟩ := Store.otherTx_cases hany fun hpool => by cases hpool
  rw [h.2 tid' hne] at htx
  cases htx

/-- It stays so when it puts a row into its transaction. -/
theorem AloneWith.setTx {tx : Tx} (h : AloneWith s tid tx) (tx' : Tx) :
    AloneWith (s.setTx tid (some tx')) tid tx' := by
  refine ⟨txOf_setTx_self s tid _, fun tid' hne => ?_⟩
  rw [txOf_setTx_ne s _ (Ne.symm hne)]
  exact h.2 tid' hne

/-- The insert of a row under a new id goes through. -/
theorem insertMetadata_run (signer : JwtSigner K) {tx : Tx} (h : AloneWith s tid tx)
    (row : NewMetadata) (hnew : ∀ r ∈ s.metadata ++ tx.metadata, r.id ≠ row.id) :
    ∃ tx', s.exec signer tid (.insertMetadata .tx row) .go
      = some (.ok (), s.setTx tid (some tx')) := by
  refine ⟨{ tx with metadata := tx.metadata ++ [row.stored tx.startedAt tid] }, ?_⟩
  show s.insertMetadata tid .tx row = _
  unfold Store.insertMetadata
  have hown : s.ownTx tid .tx = some tx := h.1
  have hkey : (s.metadata ++ tx.metadata).any (fun r => decide (r.id = row.id)) = false := by
    rw [List.any_eq_false]
    intro r hr
    simpa using hnew r hr
  simp only [hown, hkey, h.otherTx, Bool.false_eq_true, ↓reduceIte]
  rfl

/-- The insert of a denylist row goes through, with or without a new row. -/
theorem insertDenylist_run (signer : JwtSigner K) {tx : Tx} (h : AloneWith s tid tx) (jti : Uuid)
    (exp : DateTime) (reason : Option String) :
    ∃ n s' tx', s.exec signer tid (.insertDenylist .tx jti exp reason) .go = some (.ok n, s')
      ∧ AloneWith s' tid tx' := by
  have hown : s.ownTx tid .tx = some tx := h.1
  have hexec : s.exec signer tid (.insertDenylist .tx jti exp reason) .go
      = s.insertDenylist tid .tx jti exp reason := rfl
  cases hkey : (s.denylist ++ tx.denylist).any (fun r => decide (r.jwtUuid = jti)) with
  | true =>
      refine ⟨0, s, tx, ?_, h⟩
      rw [hexec, Store.insertDenylist]
      simp only [hown, hkey, ↓reduceIte]
      rfl
  | false =>
      let row := DenylistRow.stored jti exp reason tx.startedAt tid
      refine ⟨1, _, _, ?_, h.setTx { tx with denylist := tx.denylist ++ [row] }⟩
      rw [hexec, Store.insertDenylist]
      simp only [hown, hkey, h.otherTx, Bool.false_eq_true, ↓reduceIte]
      rfl

variable (svc) in
/-- The transaction of an extension goes through when its row has a new id. -/
theorem extendTx_run {tx : Tx} (h : AloneWith s tid tx) (hempty : tx.metadata = [])
    (hdrawn : ∀ r ∈ s.metadata, r.id ∈ s.used) {id : Uuid} (hid : id ∉ s.used)
    {old : StandardClaims} {oldExp : DateTime}
    (hold : DateTime.fromTimestamp old.exp = some oldExp) (claims : StandardClaims)
    (anc : Ancestor) (oldJti newJti : Uuid) (now newExp : DateTime) :
    ∃ s' tx', (svc.extendTx old claims anc oldJti newJti now newExp).Solo (frozen svc.signer) tid s
      (.ok ()) s' ∧ s'.txOf tid = some tx' := by
  have hdraw : s.exec svc.signer tid .newUuid (.uuid id)
      = some (id, { s with used := id :: s.used }) := if_neg hid
  have halone : AloneWith { s with used := id :: s.used } tid tx := h
  obtain ⟨tx₁, hinsert⟩ := insertMetadata_run svc.signer halone
    (svc.extendRow old claims anc id newJti now newExp) (by
      intro r hr heq
      rw [hempty, List.append_nil] at hr
      have hrow : r.id = id := heq
      exact hid (hrow ▸ hdrawn r hr))
  obtain ⟨n, s', tx', hdeny, hend⟩ := insertDenylist_run svc.signer (halone.setTx tx₁) oldJti
    oldExp (some supersededReason)
  refine ⟨s', tx', ?_, hend.1⟩
  unfold extendTx
  refine solo_call (.uuid id) hdraw ?_
  refine solo_call .go hinsert (solo_sql ?_)
  simp only [hold]
  refine solo_call .go hdeny (solo_sql ?_)
  exact ⟨rfl, rfl⟩

/-- A live token is extended when nothing hinders it, whoever is its issuer: `extend` does not look
at the `iss`. -/
theorem extend_succeeds {claims : StandardClaims} {jti : Uuid} (hlive : svc.Live token s claims jti)
    {minutes : Option Int64} (h : svc.Unhindered token s minutes) :
    ∃ resp s', (svc.extend ⟨token, minutes⟩).Solo (frozen svc.signer) tid s (.ok resp) s' := by
  obtain ⟨newExp, hsum⟩ := Option.isSome_iff_exists.mp h.inside
  obtain ⟨oldExp, hold⟩ := Option.isSome_iff_exists.mp (h.dated claims hlive.verified)
  obtain ⟨newJti, id, hnew, hid⟩ := h.room
  obtain ⟨signed, hsign⟩ := h.signs (svc.extendClaims claims newJti s.clock newExp)
  -- The store when the transaction begins.
  let s₁ : Store := { s with
    used := newJti :: s.used
    signed := svc.extendClaims claims newJti s.clock newExp :: s.signed }
  let tx : Tx := ⟨s.clock, [], []⟩
  let anc := ancestor jti ((s.chainRow jti).map fun r => (r.originalJwtUuid, r.id, r.jwtName))
  have halone : AloneWith (s₁.setTx tid (some tx)) tid tx :=
    ⟨txOf_setTx_self s₁ tid _, fun tid' hne => by
      rw [txOf_setTx_ne s₁ _ (Ne.symm hne)]
      exact h.idle tid'⟩
  obtain ⟨s₂, tx₂, hrun, hopen⟩ := extendTx_run svc halone rfl
    (fun r hr => List.mem_cons_of_mem _ (h.drawn r hr)) hid hold
    (svc.extendClaims claims newJti s.clock newExp) anc jti newJti s.clock newExp
  have hcommit : s₂.exec svc.signer tid .commit .go
      = some (.ok (), (s₂.apply tx₂).setTx tid none) := by
    show s₂.commit tid = _
    unfold Store.commit
    rw [hopen]
    rfl
  refine ⟨⟨"extended", anc.jwtName.getD "EXTENDED_TOKEN", signed, newExp⟩,
    (s₂.apply tx₂).setTx tid none, ?_⟩
  unfold extend
  refine solo_call .go rfl ?_
  simp only [hlive.verified]
  refine solo_call .go rfl ?_
  simp only [hlive.alive, ↓reduceIte, hlive.parsed]
  refine solo_call .go (r := .ok (s.denied jti).isSome) (t := s) rfl ?_
  rw [hlive.free]
  refine solo_call .go (t := s) rfl (solo_sql ?_)
  rw [if_neg (Int64.not_le.mpr h.positive), addMinutes_eq, hsum]
  refine solo_call (.uuid newJti) (if_neg hnew) ?_
  refine solo_call .go (r := .ok signed) (t := s₁) ?_ ?_
  · exact congrArg (fun r => some (r, s₁)) hsign
  refine solo_call .go (r := .ok ()) (t := s₁.setTx tid (some tx)) ?_ (solo_sql ?_)
  · show s₁.statement _ .go = _
    rw [show s₁.txOf tid = none from h.idle tid]
    rfl
  refine Prog.solo_bind.mpr ⟨.ok (), s₂, ?_, ?_⟩
  · exact Prog.solo_handle.mpr ⟨.ok (), s₂, hrun, rfl, rfl⟩
  exact solo_call .go hcommit (solo_sql ⟨rfl, rfl⟩)

/-- In a store at an instant, every token that introspection calls inactive is refused by every
extension, with the tables unchanged, exactly when the token is not a live one of another
issuer. A live one of another issuer is extended by any minutes that nothing hinders. -/
theorem inactive_not_extended :
    (((∃ resp s', (svc.introspect ⟨token⟩).Solo (frozen svc.signer) tid s (.ok resp) s'
          ∧ resp.active = false) →
        ∀ minutes, Still svc.signer tid (svc.extend ⟨token, minutes⟩) s
          fun x s' => (∃ e, x = .error (.err e)) ∧ SameTables s s')
      ↔ ¬ svc.ForeignLive token s)
      ∧ (svc.ForeignLive token s → ∀ minutes, svc.Unhindered token s minutes →
        ∃ resp s', (svc.extend ⟨token, minutes⟩).Solo (frozen svc.signer) tid s
          (.ok resp) s') := by
  refine ⟨?_, fun ⟨claims, jti, hlive, _⟩ minutes h => extend_succeeds hlive h⟩
  constructor
  · rintro h ⟨claims, jti, hlive, hiss⟩
    have hinactive : (svc.introspect ⟨token⟩).Solo (frozen svc.signer) tid s
        (.ok .inactive) s := by
      unfold introspect
      refine solo_call .go rfl ?_
      simp only [hlive.verified, ne_eq, hiss, not_false_eq_true, ↓reduceIte]
      exact ⟨rfl, rfl⟩
    -- An extension by too many minutes panics, so it got past all checks of the token.
    have hpanic : (svc.extend ⟨token, some Int64.maxValue⟩).Solo (frozen svc.signer) tid s
        (.error .panic) s := by
      unfold extend
      refine solo_call .go rfl ?_
      simp only [hlive.verified]
      refine solo_call .go rfl ?_
      simp only [hlive.alive, ↓reduceIte, hlive.parsed]
      refine solo_call .go (r := .ok (s.denied jti).isSome) (t := s) rfl ?_
      rw [hlive.free]
      refine solo_call .go (t := s) rfl ?_
      refine solo_sql ?_
      dsimp only [Option.getD_some]
      rw [if_neg (by decide), addMinutes_eq, plusMinutes_max]
      exact ⟨rfl, rfl⟩
    obtain ⟨⟨e, he⟩, -⟩ := h ⟨_, s, hinactive, rfl⟩ (some Int64.maxValue) _ _ hpanic
    cases he
  · rintro h ⟨resp, s', hrun, hinactive⟩ minutes
    refine extend_refuses (fun claims jti hlive => h ?_) minutes
    exact ⟨claims, jti, hlive, foreign_of_inactive hlive hrun hinactive⟩

end JwtService

namespace Symbolic

/-- A token with the key of the sample service and the issuer of another. -/
def foreignToken : symbolic.Token :=
  { token with
    payload := StandardClaims.serialize
      { service.generateClaims request ["tim-service"] ⟨1⟩ (instant 1000) (instant 1600) with
        iss := "other" } }

/-- A finished introspection says `active`. -/
def introspects (active : Bool) : Except Fault IntrospectionResponse → Bool
  | .ok resp => resp.active == active
  | .error _ => false

/-- The test of a finished introspection. -/
theorem introspects_ok {active : Bool} {x : Except Fault IntrospectionResponse}
    (h : introspects active x = true) : ∃ resp, x = .ok resp ∧ resp.active = active := by
  cases x with
  | ok resp => exact ⟨resp, rfl, by simpa [introspects] using h⟩
  | error e => cases h

/-- A finished extension left one row, and its token introspects as active. -/
def extendsActive : Except Fault (TokenResponse symbolic) → Store → Bool
  | .ok resp, s' => decide (s'.metadata.length = 1)
      && ((service.introspect ⟨resp.token⟩).play (jwtMachine service.signer) 0 s'
        ([.go, .go, .go] : List Choice)).any fun y => introspects true y.1
  | .error _, _ => false

end Symbolic

open Symbolic in
/-- A token of another issuer under the same key: introspection calls it inactive, and an
extension turns it into an active token. -/
theorem foreign_token_extended :
    (∃ resp s', (service.introspect ⟨foreignToken⟩).Solo (frozen service.signer) 0 store
        (.ok resp) s' ∧ resp.active = false)
      ∧ ∃ resp s', (service.extend ⟨foreignToken, none⟩).Solo (frozen service.signer) 0 store
          (.ok resp) s' ∧ s'.metadata.length = 1
        ∧ ∃ resp' s'', (service.introspect ⟨resp.token⟩).Solo (frozen service.signer) 0 s'
            (.ok resp') s'' ∧ resp'.active = true := by
  constructor
  · obtain ⟨x, s', hrun, htest⟩ := exists_frozen service.signer
      (service.introspect ⟨foreignToken⟩) 0 store (fun x _ => introspects false x) [.go]
      (by decide +kernel)
    obtain ⟨resp, rfl, hactive⟩ := introspects_ok htest
    exact ⟨resp, s', hrun, hactive⟩
  · obtain ⟨x, s', hrun, htest⟩ := exists_frozen service.signer
      (service.extend ⟨foreignToken, none⟩) 0 store extendsActive
      [.go, .go, .go, .go, .uuid ⟨3⟩, .go, .go, .uuid ⟨5⟩, .go, .go, .go]
      (by decide +kernel)
    cases x with
    | error e => cases htest
    | ok resp =>
        simp only [extendsActive, Bool.and_eq_true, decide_eq_true_eq] at htest
        obtain ⟨y, s'', hrun', htest'⟩ := exists_frozen service.signer
          (service.introspect ⟨resp.token⟩) 0 s' (fun x _ => introspects true x) [.go, .go, .go]
          htest.2
        obtain ⟨resp', rfl, hactive⟩ := introspects_ok htest'
        exact ⟨resp, s', hrun, htest.1, resp', s'', hrun', hactive⟩

end Tim
