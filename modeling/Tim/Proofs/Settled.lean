import Tim.Proofs.Ledger
import Tim.Proofs.Revocation

/-!
# `Tim.Proofs.Settled`: what the requests have done to the ledger

`Tim.Proofs.Ledger` explains a run by calls of one sequential ledger. Here each finished request
is settled: `ledger_run` adds to the explanation that a successful `generate` was one issue, a
revocation one entry with the reported answer, a batch as many entries as it counts, an extension
one replacement of a jti that was free when it was looked up, and that everything else, every
error among it, has only read.

`rows_accounted` follows by the laws of the ledger. Once every request of a run has its result, the
metadata table has grown by exactly one row for each token that was handed out, and the denylist
by one row for each revocation that was reported as new and by at most one more for each
extension: no update is lost, and none counts twice.

The trails are what a program has called by the time it returns, as specifications over its local
history. `NoWrites` is their invariant on every path to an error.

* `trail_spec`: the trail of every operation.
* `Trail.settled`: a finished request is settled by its trail.
-/

set_option autoImplicit false

namespace Tim

open Tim.Lib Tim.Lib.Prog Tim.Lib.Pool

variable {K : Crates}

/-! ### What a finished request has done -/

/-- The event is a statement that has changed a table. -/
def writes : Event (jwtSig K) → Bool
  | ⟨.insertMetadata .pool _, .ok ()⟩ => true
  | ⟨.insertDenylist .pool .., .ok _⟩ => true
  | ⟨.commit, .ok ()⟩ => true
  | _ => false

/-- No event has changed a table. -/
def NoWrites (h : List (Event (jwtSig K))) : Prop := ∀ e ∈ h, writes e = false

/-- A history without writes and one more event that is none. -/
theorem NoWrites.snoc {h : List (Event (jwtSig K))} (hh : NoWrites h) {e : Event (jwtSig K)}
    (he : writes e = false) : NoWrites (h ++ [e]) := by
  intro e' he'
  cases List.mem_append.mp he' with
  | inl hold => exact hh e' hold
  | inr hnew => rw [List.mem_singleton.mp hnew]; exact he

/-- An empty history has no writes. -/
theorem noWrites_nil : NoWrites ([] : List (Event (jwtSig K))) := by
  intro e he
  cases he

/-- An insert into the denylist on the pool that has counted `n` rows. -/
def insertCount : Event (jwtSig K) → Option Nat
  | ⟨.insertDenylist .pool .., .ok n⟩ => some n
  | _ => none

namespace JwtService

/-- The calls of a `revoke` after the events `h₀`, by its result. -/
def RevokeTrail (svc : JwtService K) (token : K.Token) (reason : Option String)
    (h₀ h : List (Event (jwtSig K))) : Except Fault Bool → Prop
  | .ok newly => ∃ at_ jti exp n, svc.Carries permissiveValidation token jti
      ∧ h = h₀ ++ [⟨Op.now, at_⟩] ++ [⟨Op.insertDenylist .pool jti exp reason, Except.ok n⟩]
      ∧ newly = decide (n = 1)
  | .error f => f ≠ .panic ∧ ∃ tail, h = h₀ ++ tail ∧ NoWrites tail

/-- What `revoke` leaves behind: one insert with the count that it reports, or no write. -/
theorem revoke_trail (svc : JwtService K) (token : K.Token) (reason : Option String)
    (h₀ : List (Event (jwtSig K))) :
    Spec (fun _ _ => True) (fun h x => svc.RevokeTrail token reason h₀ h x) h₀
      (svc.revoke token reason) := by
  unfold revoke
  refine spec_call_bind.mpr ⟨trivial, fun at_ => ?_⟩
  have hnow : NoWrites ([⟨Op.now, at_⟩] : List (Event (jwtSig K))) := noWrites_nil.snoc rfl
  have hstop : ∀ e, svc.RevokeTrail token reason h₀ (h₀ ++ [⟨Op.now, at_⟩])
      (.error (.err e)) := fun e => ⟨nofun, _, rfl, hnow⟩
  split
  · exact hstop _
  · rename_i claims hverify
    split
    · exact hstop _
    · rename_i jti hjti
      split
      · exact hstop _
      · rename_i exp hexp
        refine spec_call_bind.mpr ⟨trivial, fun answer => ?_⟩
        refine spec_sql_bind.mpr ⟨fun n hok => ?_, fun e herr => ?_⟩
        · subst hok
          exact ⟨at_, jti, exp, n, ⟨at_, claims, verifyRaw_of_verify hverify, hjti⟩, rfl, rfl⟩
        · subst herr
          refine ⟨nofun, [⟨Op.now, at_⟩, ⟨Op.insertDenylist .pool jti exp reason, Except.error e⟩],
            ?_, hnow.snoc rfl⟩
          rw [List.append_assoc]
          rfl

/-- What the events of a batch add up to: clock reads and inserts, as many new and as many
known jtis as the response counts. -/
structure BulkTally (h : List (Event (jwtSig K))) (acc : BulkRevokeResponse K) : Prop where
  plain : ∀ e ∈ h, writes e = true → (insertCount e).isSome
  newly : h.countP (fun e => insertCount e = some 1) = acc.newlyRevoked
  already : h.countP (fun e => (insertCount e).any (· ≠ 1)) = acc.alreadyRevoked

/-- A statement of a batch that changes nothing does not count. -/
theorem insertCount_none {e : Event (jwtSig K)} (h : writes e = false) : insertCount e = none := by
  obtain ⟨o, r⟩ := e
  cases o with
  | insertDenylist conn jti exp reason =>
      cases conn with
      | pool =>
          cases r with
          | ok n => cases h
          | error e => rfl
      | tx => rfl
  | _ => rfl

/-- Events without writes change nothing about the counts. -/
theorem BulkTally.append {h : List (Event (jwtSig K))} {acc acc' : BulkRevokeResponse K}
    (ht : BulkTally h acc) {tail : List (Event (jwtSig K))} (hquiet : NoWrites tail)
    (hn : acc'.newlyRevoked = acc.newlyRevoked) (ha : acc'.alreadyRevoked = acc.alreadyRevoked) :
    BulkTally (h ++ tail) acc' := by
  have hnone : ∀ e ∈ tail, insertCount e = none := fun e he => insertCount_none (hquiet e he)
  refine ⟨?_, ?_, ?_⟩
  · intro e he hw
    cases List.mem_append.mp he with
    | inl hold => exact ht.plain e hold hw
    | inr hnew => rw [hquiet e hnew] at hw; cases hw
  · rw [List.countP_append, ht.newly, hn]
    have : tail.countP (fun e => insertCount e = some 1) = 0 :=
      List.countP_eq_zero.mpr fun e he => by simp [hnone e he]
    omega
  · rw [List.countP_append, ht.already, ha]
    have : tail.countP (fun e => (insertCount e).any (· ≠ 1)) = 0 :=
      List.countP_eq_zero.mpr fun e he => by simp [hnone e he]
    omega

/-- One item of a batch that was inserted or known. -/
theorem BulkTally.insert {h : List (Event (jwtSig K))} {acc acc' : BulkRevokeResponse K}
    (ht : BulkTally h acc) (at_ : DateTime) (jti : Uuid) (exp : DateTime) (reason : Option String)
    (n : Nat) (hn : acc'.newlyRevoked = acc.newlyRevoked + if n = 1 then 1 else 0)
    (ha : acc'.alreadyRevoked = acc.alreadyRevoked + if n = 1 then 0 else 1) :
    BulkTally (h ++ [⟨Op.now, at_⟩]
      ++ [⟨Op.insertDenylist .pool jti exp reason, Except.ok n⟩]) acc' := by
  have hnow : BulkTally (h ++ [⟨Op.now, at_⟩]) acc :=
    ht.append (noWrites_nil.snoc rfl) rfl rfl
  refine ⟨?_, ?_, ?_⟩
  · intro e he hw
    cases List.mem_append.mp he with
    | inl hold => exact hnow.plain e hold hw
    | inr hnew => rw [List.mem_singleton.mp hnew]; rfl
  · rw [List.countP_append, hnow.newly, hn]
    by_cases h1 : n = 1 <;> simp [insertCount, h1]
  · rw [List.countP_append, hnow.already, ha]
    by_cases h1 : n = 1 <;> simp [insertCount, h1]

/-- The result of a batch, by its events. -/
def BulkTrail (h : List (Event (jwtSig K))) : Except Fault (BulkRevokeResponse K) → Prop
  | .ok r => BulkTally h r
  | .error _ => NoWrites h

/-- The loop of a batch, by induction on the tokens: every insert so far is in one of the two
counts. -/
theorem bulkRevokeLoop_trail (svc : JwtService K) (reason : Option String) (toks : List K.Token)
    (h : List (Event (jwtSig K))) (acc : BulkRevokeResponse K) (ht : BulkTally h acc) :
    Spec (fun _ _ => True) (fun h x => BulkTrail h x) h (svc.bulkRevokeLoop reason toks acc) := by
  induction toks generalizing h acc with
  | nil => exact ht
  | cons tok toks ih =>
      unfold bulkRevokeLoop
      refine (spec_bind _ _ h).mpr ((spec_handle _ _ _ h).mpr ?_)
      refine (svc.revoke_trail tok reason h).mono (fun _ _ hφ => hφ) ?_
      intro h' x hx
      cases x with
      | ok newly =>
          obtain ⟨at_, jti, exp, n, -, rfl, rfl⟩ := hx
          by_cases h1 : n = 1
          · rw [decide_eq_true h1]
            exact ih _ _ (ht.insert at_ jti exp reason n (by rw [if_pos h1])
              (by rw [if_pos h1]; rfl))
          · rw [decide_eq_false h1]
            exact ih _ _ (ht.insert at_ jti exp reason n (by rw [if_neg h1]; rfl)
              (by rw [if_neg h1]))
      | error f =>
          obtain ⟨hpanic, tail, rfl, hquiet⟩ := hx
          cases f with
          | err e => exact ih _ _ (ht.append hquiet rfl rfl)
          | panic => exact absurd rfl hpanic

/-- A batch starts with nothing counted. -/
theorem bulkRevoke_trail (svc : JwtService K) (req : BulkRevokeRequest K) :
    Spec (fun _ _ => True) (fun h x => BulkTrail h x) [] (svc.bulkRevoke req) := by
  unfold bulkRevoke
  split
  · exact noWrites_nil
  · split
    · exact noWrites_nil
    · exact svc.bulkRevokeLoop_trail req.reason _ [] _
        ⟨fun e he => absurd he List.not_mem_nil, rfl, rfl⟩

/-- The calls of `revoke_by_jti`, by its result. -/
def ByJtiTrail (jti : Uuid) (reason : Option String) (h : List (Event (jwtSig K))) :
    Except Fault (Option Bool) → Prop
  | .ok (some newly) => ∃ exp n, newly = decide (n = 1)
      ∧ h = [⟨Op.selectExpiresAt jti, Except.ok (some exp)⟩,
        ⟨Op.insertDenylist .pool jti exp reason, Except.ok n⟩]
  | _ => NoWrites h

/-- What a revocation by jti leaves behind. -/
theorem revokeByJti_trail (jti : Uuid) (reason : Option String) :
    Spec (fun _ _ => True) (fun h x => ByJtiTrail (K := K) jti reason h x) []
      (revokeByJti jti reason) := by
  unfold revokeByJti
  refine spec_call_bind.mpr ⟨trivial, fun answer => ?_⟩
  have hread : NoWrites ([⟨Op.selectExpiresAt jti, answer⟩] : List (Event (jwtSig K))) :=
    noWrites_nil.snoc rfl
  refine spec_sql_bind.mpr ⟨fun row hok => ?_, fun _ _ => hread⟩
  subst hok
  cases row with
  | none => exact hread
  | some exp =>
      refine spec_call_bind.mpr ⟨trivial, fun inserted => ?_⟩
      refine spec_sql_bind.mpr ⟨fun n hok => ?_, fun e herr => ?_⟩
      · subst hok
        exact ⟨exp, n, rfl, rfl⟩
      · subst herr
        exact hread.snoc rfl

/-- A `generate` that fails has changed nothing. -/
theorem generate_failed (svc : JwtService K) (req : GenerateRequest) :
    Spec (fun _ _ => True) (fun h x => ∀ f, x = .error f → NoWrites h) [] (svc.generate req) := by
  unfold generate
  split
  · exact fun _ _ => noWrites_nil
  · split
    · exact fun _ _ => noWrites_nil
    · split
      · exact fun _ _ => noWrites_nil
      · rename_i aud _
        refine spec_call_bind.mpr ⟨trivial, fun jti => ?_⟩
        refine spec_call_bind.mpr ⟨trivial, fun now => ?_⟩
        have h₂ : NoWrites ([] ++ [⟨Op.newUuid, jti⟩] ++ [⟨Op.now, now⟩] :
            List (Event (jwtSig K))) := (noWrites_nil.snoc rfl).snoc rfl
        refine spec_addMinutes_bind.mpr ⟨fun exp _ => ?_, fun _ _ _ => h₂⟩
        refine spec_call_bind.mpr ⟨trivial, fun signed => ?_⟩
        have h₃ := h₂.snoc (e := ⟨Op.sign (svc.generateClaims req aud jti now exp), signed⟩) rfl
        cases signed with
        | error e => exact fun _ _ => h₃
        | ok token =>
            refine spec_call_bind.mpr ⟨trivial, fun id => ?_⟩
            refine spec_call_bind.mpr ⟨trivial, fun inserted => ?_⟩
            refine spec_sql_bind.mpr ⟨fun _ _ => nofun, fun e herr _ _ => ?_⟩
            subst herr
            exact (h₃.snoc rfl).snoc rfl

/-- The statements inside the transaction of `extend` change nothing by themselves. -/
theorem extendTx_quiet (svc : JwtService K) (old claims : StandardClaims) (anc : Ancestor)
    (oldJti newJti : Uuid) (now newExp : DateTime) {h : List (Event (jwtSig K))}
    (hh : NoWrites h) :
    Spec (fun _ _ => True) (fun h _ => NoWrites h) h
      (svc.extendTx old claims anc oldJti newJti now newExp) := by
  unfold extendTx
  refine spec_call_bind.mpr ⟨trivial, fun id => ?_⟩
  refine spec_call_bind.mpr ⟨trivial, fun inserted => ?_⟩
  have h₂ := (hh.snoc (e := ⟨Op.newUuid, id⟩) rfl).snoc (e := ⟨Op.insertMetadata .tx
    (svc.extendRow old claims anc id newJti now newExp), inserted⟩) rfl
  refine spec_sql_bind.mpr ⟨fun _ _ => ?_, fun _ _ => h₂⟩
  cases DateTime.fromTimestamp old.exp with
  | none => exact h₂
  | some oldExp =>
      refine spec_call_bind.mpr ⟨trivial, fun denied => ?_⟩
      have h₃ := h₂.snoc (e := ⟨Op.insertDenylist .tx oldJti oldExp (some supersededReason),
        denied⟩) rfl
      exact spec_sql_bind.mpr ⟨fun _ _ => h₃, fun _ _ => h₃⟩

/-- An `extend` that fails has changed nothing. -/
theorem extend_failed (svc : JwtService K) (req : ExtendRequest K) :
    Spec (fun _ _ => True) (fun h x => ∀ f, x = .error f → NoWrites h) [] (svc.extend req) := by
  unfold extend
  refine spec_call_bind.mpr ⟨trivial, fun at_ => ?_⟩
  have h₁ : NoWrites ([⟨Op.now, at_⟩] : List (Event (jwtSig K))) := noWrites_nil.snoc rfl
  split
  · exact fun _ _ => h₁
  · rename_i old _
    refine spec_call_bind.mpr ⟨trivial, fun now => ?_⟩
    have h₂ := h₁.snoc (e := ⟨Op.now, now⟩) rfl
    split
    · exact fun _ _ => h₂
    · split
      · exact fun _ _ => h₂
      · rename_i oldJti _
        have h₃ : ∀ r, NoWrites (_ ++ [⟨Op.selectDenylist oldJti, r⟩]) := fun r =>
          h₂.snoc (e := ⟨Op.selectDenylist oldJti, r⟩) rfl
        refine spec_lookup_bind.mpr ⟨trivial, fun denied => ?_, fun e _ _ => h₃ _⟩
        cases denied with
        | true => exact fun _ _ => h₃ _
        | false =>
            refine spec_call_bind.mpr ⟨trivial, fun found => ?_⟩
            have h₄ := (h₃ (.ok false)).snoc (e := ⟨Op.selectChain oldJti, found⟩) rfl
            refine spec_sql_bind.mpr ⟨fun row _ => ?_, fun _ _ _ _ => h₄⟩
            show Spec _ _ _ (ite _ _ _)
            split
            · exact fun _ _ => h₄
            · refine spec_addMinutes_bind.mpr ⟨fun newExp _ => ?_, fun _ _ _ => h₄⟩
              refine spec_call_bind.mpr ⟨trivial, fun newJti => ?_⟩
              refine spec_call_bind.mpr ⟨trivial, fun signed => ?_⟩
              have h₆ := (h₄.snoc (e := ⟨Op.newUuid, newJti⟩) rfl).snoc
                (e := ⟨Op.sign (svc.extendClaims old newJti now newExp), signed⟩) rfl
              cases signed with
              | error e => exact fun _ _ => h₆
              | ok token =>
                  refine spec_call_bind.mpr ⟨trivial, fun begun => ?_⟩
                  have h₇ := h₆.snoc (e := ⟨Op.begin, begun⟩) rfl
                  refine spec_sql_bind.mpr ⟨fun _ _ => ?_, fun _ _ _ _ => h₇⟩
                  refine spec_orRollback_bind (svc.extendTx_quiet old _ _ _ _ _ _ h₇)
                    (fun h' _ hq => ?_) fun h' e hq => ⟨trivial, fun _ _ => hq.snoc rfl⟩
                  refine spec_call_bind.mpr ⟨trivial, fun committed => ?_⟩
                  refine spec_sql_bind.mpr ⟨fun _ _ => nofun, fun e herr _ _ => ?_⟩
                  subst herr
                  exact hq.snoc rfl

/-- A call that no table can show. -/
def ReadCall (o : Op) : Prop := Check o ∨ Listing o

/-- A program that makes only such calls has changed nothing. -/
theorem reads_noWrites {α : Type} {p : Action K α} {ψ : List (Event (jwtSig K)) →
    Except Fault α → Prop} {h : List (Event (jwtSig K))} (hp : Spec (fun _ o => ReadCall o) ψ h p)
    (hh : NoWrites h) : Spec (fun _ _ => True) (fun h _ => NoWrites h) h p := by
  induction p generalizing h with
  | ret a => exact hh
  | raise e => exact hh
  | op o k ih =>
      refine ⟨trivial, fun r => ih r (hp.2 r) (hh.snoc ?_)⟩
      cases o with
      | insertMetadata conn row => exact (hp.1.elim id id).elim
      | insertDenylist conn jti exp reason => exact (hp.1.elim id id).elim
      | commit => exact (hp.1.elim id id).elim
      | _ => rfl

/-- What a finished request has called, by its result. -/
def Trail (svc : JwtService K) (h : List (Event (jwtSig K))) :
    Request K → Except Fault (Response K) → Prop
  | .generate req, .ok (.token r) => svc.GenerateDone req h (.ok r)
  | .extend req, .ok (.token r) => svc.ExtendDone req h (.ok r)
  | .revoke token reason, .ok (.revoked newly) => svc.RevokeTrail token reason [] h (.ok newly)
  | .revokeByJti jti reason, .ok (.revokedByJti x) => ByJtiTrail jti reason h (.ok x)
  | .bulkRevoke _, .ok (.bulkRevoke r) => BulkTrail h (.ok r)
  | _, _ => NoWrites h

/-- What every request leaves behind. The accounts of the ledger are read off here. -/
theorem trail_spec (svc : JwtService K) (req : Request K) :
    (svc.program req).Spec (fun _ _ => True) (fun h x => svc.Trail h req x) [] := by
  have hany : ∀ {α : Type} {φ : List (Event (jwtSig K)) → Op → Prop}
      {ψ : List (Event (jwtSig K)) → Except Fault α → Prop} {p : Action K α},
      Spec φ ψ [] p → Spec (fun _ _ => True) ψ [] p :=
    fun hp => hp.mono (fun _ _ _ => trivial) fun _ _ hx => hx
  cases req with
  | generate req =>
      refine spec_map (hany ((svc.generate_spec req).and (svc.generate_failed req)))
        (fun h r hok => hok.1) fun h f herr => herr.2 f rfl
  | extend req =>
      refine spec_map (hany ((svc.extend_spec req).and (svc.extend_failed req)))
        (fun h r hok => hok.1) fun h f herr => herr.2 f rfl
  | revoke token reason =>
      refine spec_map (svc.revoke_trail token reason []) (fun h newly hok => hok) fun h f herr => ?_
      obtain ⟨-, tail, rfl, hquiet⟩ := herr
      exact hquiet
  | revokeByJti jti reason =>
      exact spec_map (revokeByJti_trail jti reason) (fun h x hok => hok) fun h f herr => herr
  | bulkRevoke req =>
      exact spec_map (svc.bulkRevoke_trail req) (fun h r hok => hok) fun h f herr => herr
  | validate req =>
      refine spec_map (reads_noWrites (ψ := fun _ _ => True) ?_ noWrites_nil)
        (fun h r hok => hok) fun h f herr => herr
      exact (svc.validate_spec req).mono (fun _ _ hφ => .inl hφ.1) fun _ _ _ => trivial
  | introspect req =>
      refine spec_map (reads_noWrites (ψ := fun _ _ => True) ?_ noWrites_nil)
        (fun h r hok => hok) fun h f herr => herr
      exact (svc.introspect_spec req).mono (fun _ _ hφ => .inl hφ.1) fun _ _ _ => trivial
  | authenticateBearer token =>
      refine spec_map (reads_noWrites (ψ := fun _ _ => True) ?_ noWrites_nil)
        (fun h r hok => hok) fun h f herr => herr
      exact (svc.authenticateBearer_spec token).mono (fun _ _ hφ => .inl hφ.1) fun _ _ _ => trivial
  | listForSubject subject req =>
      refine spec_map (reads_noWrites (ψ := fun _ _ => True) ?_ noWrites_nil)
        (fun h r hok => hok) fun h f herr => herr
      exact (listForSubject_spec subject req).mono (fun _ _ hφ => .inr hφ) fun _ _ _ => trivial

/-! ### The same on the ledger -/

/-- What an entry of one id has answered. -/
def entryAnswer : TokenCall → Option Bool
  | ⟨.enter _ _, newly⟩ => some newly
  | _ => none

/-- What a finished request has done on the ledger, by its result. Everything that is not named
here, an error among them, has only read. -/
def Settled (svc : JwtService K) (es : List TokenCall) :
    Request K → Except Fault (Response K) → Prop
  | .generate _, .ok (.token r) => ∃ row, svc.SignedFor r.token row ∧ es = [⟨.issue row, ()⟩]
  | .extend req, .ok (.token r) => ∃ jti rows row entry newly,
      svc.Carries permissiveValidation req.token jti ∧ entry.jwtUuid = jti
        ∧ svc.SignedFor r.token row
        ∧ es = [⟨.look jti, none⟩, ⟨.rows, rows⟩, ⟨.replace row jti entry, newly⟩]
  | .revoke token reason, .ok (.revoked newly) => ∃ jti entry,
      svc.Carries permissiveValidation token jti ∧ entry.jwtUuid = jti ∧ entry.reason = reason
        ∧ es = [⟨.enter jti entry, newly⟩]
  | .revokeByJti jti reason, .ok (.revokedByJti (some newly)) => ∃ rows entry,
      entry.jwtUuid = jti ∧ entry.reason = reason
        ∧ es = [⟨.rows, rows⟩, ⟨.enter jti entry, newly⟩]
  | .bulkRevoke _, .ok (.bulkRevoke r) =>
      (∀ a ∈ es, Ledger.isRead a = true ∨ (entryAnswer a).isSome)
      ∧ es.countP (fun a => entryAnswer a = some true) = r.newlyRevoked
      ∧ es.countP (fun a => entryAnswer a = some false) = r.alreadyRevoked
  | _, _ => ∀ a ∈ es, Ledger.isRead a = true

/-- An event that changes no table contributes only reads. -/
theorem reads_of_point {h : List (Event (jwtSig K))} {e : Event (jwtSig K)} {es : List TokenCall}
    (hw : writes e = false) (hp : ledgerPoint h e es) : ∀ a ∈ es, Ledger.isRead a = true := by
  have hone : ∀ (a : TokenCall) es, Ledger.isRead a = true → es = [a] →
      ∀ b ∈ es, Ledger.isRead b = true := by
    intro a es ha hes b hb
    rw [hes, List.mem_singleton] at hb
    rw [hb]
    exact ha
  have hnil : ∀ es : List TokenCall, es = [] → ∀ b ∈ es, Ledger.isRead b = true := by
    intro es hes b hb
    rw [hes] at hb
    cases hb
  obtain ⟨o, r⟩ := e
  cases o with
  | selectDenylist | selectDenylistEntry | selectExpiresAt | selectChain | selectTokens
  | countTokens =>
      cases r with
      | error e => exact hnil es hp
      | ok found =>
          obtain ⟨x, -, hes⟩ := hp
          exact hone _ es rfl hes
  | insertMetadata conn | insertDenylist conn =>
      cases conn with
      | tx => exact hnil es hp
      | pool =>
          cases r with
          | error e => exact hnil es hp
          | ok n => cases hw
  | commit =>
      cases r with
      | error e => exact hnil es hp
      | ok u => cases hw
  | now | newUuid | sign | begin | rollback => exact hnil es hp

/-- A task that has changed no table has only read. -/
theorem reads_of_noWrites {h : List (Event (jwtSig K))} {es : List TokenCall}
    (hh : NoWrites h) (ha : Accounts ledgerPoint h es) : ∀ a ∈ es, Ledger.isRead a = true := by
  intro a hmem
  obtain ⟨h₁, e, h₂, es', rfl, hp, ha'⟩ := ha.mem hmem
  exact reads_of_point (hh e (by simp)) hp a ha'

/-- A statement without an effect outside its transaction. -/
def silent : Op → Bool
  | .now | .newUuid | .sign _ | .begin | .rollback => true
  | .insertMetadata conn _ => conn = .tx
  | .insertDenylist conn .. => conn = .tx
  | _ => false

/-- At a call that the ledger does not know, there is nothing to enter. -/
theorem point_silent {e : Event (jwtSig K)} (hs : silent e.op = true) (h : List (Event (jwtSig K)))
    (es : List TokenCall) (hp : ledgerPoint h e es) : es = [] := by
  obtain ⟨o, r⟩ := e
  cases o with
  | now | newUuid | sign | begin | rollback => exact hp
  | insertMetadata conn | insertDenylist conn =>
      cases conn with
      | pool => cases hs
      | tx => exact hp
  | _ => cases hs

/-- The silent events at the end of a task contribute nothing. -/
theorem drop_silent {h : List (Event (jwtSig K))} {es : List TokenCall}
    (q : List (Event (jwtSig K))) (hq : ∀ e ∈ q, silent e.op = true)
    (ha : Accounts ledgerPoint (h ++ q) es) : Accounts ledgerPoint h es :=
  ha.drop_silent q fun e he h' es' => point_silent (hq e he) h' es'

/-- A successful `generate` is one issue. -/
theorem generate_account (svc : JwtService K) {req : GenerateRequest} {g : Generated K}
    {es : List TokenCall} (ha : Accounts ledgerPoint (g.events svc req) es) :
    ∃ now tid, es = [⟨.issue ((g.row svc req).stored now tid), ()⟩] := by
  obtain ⟨es₁, es₂, rfl, ha₁, now, tid, rfl⟩ := ha.snoc_inv
  have hnil : es₁ = [] := accounts_nil (drop_silent (h := []) (g.signEvents svc req) (by
    intro e he
    simp only [Generated.signEvents, Draft.events, List.cons_append, List.nil_append,
      List.mem_cons, List.not_mem_nil, or_false] at he
    rcases he with rfl | rfl | rfl | rfl <;> rfl) ha₁)
  exact ⟨now, tid, by rw [hnil]; rfl⟩

/-- A successful `extend` looks the old jti up, reads the rows, and replaces. -/
theorem extend_account (svc : JwtService K) {x : Extended K} {es : List TokenCall}
    (ha : Accounts ledgerPoint (x.events svc) es) :
    ∃ rows now tid, es = [⟨.look x.oldJti, none⟩, ⟨.rows, rows⟩,
      ⟨.replace ((x.row svc).stored now tid) x.oldJti
        (.stored x.oldJti x.oldExp (some supersededReason) now tid), decide (x.rows = 1)⟩] := by
  obtain ⟨es₁, es₂, rfl, ha₁, h₀, row, jti, exp, reason, n, now, tid, hh, rfl⟩ := ha.snoc_inv
  -- The two inserts before the commit are those of the list.
  obtain ⟨hmeta, hdeny⟩ := List.append_inj' hh rfl
  obtain ⟨-, hrow⟩ := List.append_inj' hmeta rfl
  cases hdeny
  cases hrow
  have ha₂ : Accounts ledgerPoint ([⟨Op.now, x.at_⟩, ⟨Op.now, x.now⟩]
      ++ [⟨Op.selectDenylist x.oldJti, Except.ok false⟩]
      ++ [⟨Op.selectChain x.oldJti, Except.ok x.found⟩]) es₁ :=
    drop_silent [⟨Op.newUuid, x.newJti⟩, ⟨Op.sign (x.claims svc), Except.ok x.token⟩,
      ⟨Op.begin, Except.ok ()⟩, ⟨Op.newUuid, x.id⟩,
      ⟨Op.insertMetadata .tx (x.row svc), Except.ok ()⟩,
      ⟨Op.insertDenylist .tx x.oldJti x.oldExp (some supersededReason), Except.ok x.rows⟩]
      (by simp [silent]) ha₁
  obtain ⟨es₃, es₄, rfl, ha₃, rows, -, rfl⟩ := ha₂.snoc_inv
  obtain ⟨es₅, es₆, rfl, ha₅, y, hy, rfl⟩ := ha₃.snoc_inv
  have hnone : y = none := by
    cases y with
    | none => rfl
    | some r => cases hy
  have hnil : es₅ = [] := accounts_nil (drop_silent (h := [])
    [⟨Op.now, x.at_⟩, ⟨Op.now, x.now⟩] (by simp [silent]) ha₅)
  exact ⟨rows, now, tid, by rw [hnil, hnone]; rfl⟩

/-- What one event of a batch contributes. -/
theorem batch_point {h : List (Event (jwtSig K))} {e : Event (jwtSig K)} {es : List TokenCall}
    (hplain : writes e = true → (insertCount e).isSome) (hp : ledgerPoint h e es) :
    (∀ a ∈ es, Ledger.isRead a = true ∨ (entryAnswer a).isSome)
      ∧ es.countP (fun a => entryAnswer a = some true)
        = [e].countP (fun e => insertCount e = some 1)
      ∧ es.countP (fun a => entryAnswer a = some false)
        = [e].countP (fun e => (insertCount e).any (· ≠ 1)) := by
  cases hw : writes e with
  | false =>
      have hreads := reads_of_point hw hp
      have hanswer : ∀ a ∈ es, entryAnswer a = none := by
        intro a ha
        have hread := hreads a ha
        obtain ⟨o, r⟩ := a
        cases o with
        | enter id entry => cases hread
        | _ => rfl
      have hcount : insertCount e = none := insertCount_none hw
      refine ⟨fun a ha => .inl (hreads a ha), ?_, ?_⟩
      · rw [List.countP_eq_zero.mpr fun a ha => by simp [hanswer a ha]]
        simp [hcount]
      · rw [List.countP_eq_zero.mpr fun a ha => by simp [hanswer a ha]]
        simp [hcount]
  | true =>
      obtain ⟨n, hn⟩ := Option.isSome_iff_exists.mp (hplain hw)
      obtain ⟨o, r⟩ := e
      cases o with
      | insertDenylist conn jti exp reason =>
          cases conn with
          | tx => cases hn
          | pool =>
              cases r with
              | error e => cases hn
              | ok m =>
                  cases hn
                  obtain ⟨now, tid, rfl⟩ := hp
                  refine ⟨fun a ha => ?_, ?_, ?_⟩
                  · rw [List.mem_singleton.mp ha]
                    exact .inr rfl
                  · by_cases h1 : n = 1 <;> simp [entryAnswer, insertCount, h1]
                  · by_cases h1 : n = 1 <;> simp [entryAnswer, insertCount, h1]
      | _ => cases hn

/-- The counts of a batch are those of its entries on the ledger. -/
theorem batch_account {h : List (Event (jwtSig K))} {es : List TokenCall}
    (ha : Accounts ledgerPoint h es)
    (hplain : ∀ e ∈ h, writes e = true → (insertCount e).isSome) :
    (∀ a ∈ es, Ledger.isRead a = true ∨ (entryAnswer a).isSome)
      ∧ es.countP (fun a => entryAnswer a = some true) = h.countP (fun e => insertCount e = some 1)
      ∧ es.countP (fun a => entryAnswer a = some false)
        = h.countP (fun e => (insertCount e).any (· ≠ 1)) := by
  induction ha with
  | nil => exact ⟨fun a ha => absurd ha List.not_mem_nil, rfl, rfl⟩
  | snoc _ hp ih =>
      obtain ⟨hall, hnew, hold⟩ := ih fun e he => hplain e (List.mem_append_left _ he)
      obtain ⟨hall', hnew', hold'⟩ := batch_point (hplain _ (by simp)) hp
      refine ⟨fun a ha => ?_, ?_, ?_⟩
      · exact (List.mem_append.mp ha).elim (hall a) (hall' a)
      · rw [List.countP_append, List.countP_append, hnew, hnew']
      · rw [List.countP_append, List.countP_append, hold, hold']

/-- From the calls of a finished request to what it has done on the ledger. The signing key has
answered each signature. -/
theorem Trail.settled {svc : JwtService K} {h : List (Event (jwtSig K))} {req : Request K}
    {x : Except Fault (Response K)} {es : List TokenCall} (ht : svc.Trail h req x)
    (hsign : ∀ c r, (⟨Op.sign c, r⟩ : Event (jwtSig K)) ∈ h → r = svc.signer.sign c.serialize)
    (ha : Accounts ledgerPoint h es) : svc.Settled es req x := by
  cases req with
  | generate req =>
      cases x with
      | error f => exact reads_of_noWrites ht ha
      | ok a =>
          cases a with
          | token r =>
              obtain ⟨g, hvalid, rfl, htok⟩ := ht
              obtain ⟨now, tid, rfl⟩ := generate_account svc ha
              refine ⟨_, ⟨g.claims svc req, g.exp, .generate req g.aud g.jti g.now g.exp, ?_,
                rfl, rfl⟩, rfl⟩
              rw [htok]
              exact (hsign (g.claims svc req) (.ok g.token)
                (by simp [Generated.events, Generated.signEvents])).symm
          | _ => exact reads_of_noWrites ht ha
  | extend req =>
      cases x with
      | error f => exact reads_of_noWrites ht ha
      | ok a =>
          cases a with
          | token r =>
              obtain ⟨y, hvalid, rfl, htok⟩ := ht
              obtain ⟨rows, now, tid, rfl⟩ := extend_account svc ha
              refine ⟨y.oldJti, rows, _, .stored y.oldJti y.oldExp (some supersededReason) now tid,
                _, ⟨y.at_, y.old, verifyRaw_of_verify hvalid.verified, hvalid.jti⟩, rfl,
                ⟨y.claims svc, y.newExp, .extend hvalid.verified y.newJti y.now y.newExp, ?_,
                  rfl, rfl⟩, rfl⟩
              rw [htok]
              exact (hsign (y.claims svc) (.ok y.token) (by
                simp [Extended.events, Extended.denylistEvents, Extended.metadataEvents,
                  Extended.beginEvents, Extended.signEvents])).symm
          | _ => exact reads_of_noWrites ht ha
  | revoke token reason =>
      cases x with
      | error f => exact reads_of_noWrites ht ha
      | ok a =>
          cases a with
          | revoked newly =>
              obtain ⟨at_, jti, exp, n, hcarries, rfl, rfl⟩ := ht
              obtain ⟨es₁, es₂, rfl, ha₁, now, tid, rfl⟩ := ha.snoc_inv
              have hnil : es₁ = [] := accounts_nil (drop_silent (h := []) [⟨Op.now, at_⟩]
                (by simp [silent]) ha₁)
              exact ⟨jti, _, hcarries, rfl, rfl, by rw [hnil]; rfl⟩
          | _ => exact reads_of_noWrites ht ha
  | revokeByJti jti reason =>
      cases x with
      | error f => exact reads_of_noWrites ht ha
      | ok a =>
          cases a with
          | revokedByJti y =>
              cases y with
              | none => exact reads_of_noWrites ht ha
              | some newly =>
                  obtain ⟨exp, n, rfl, rfl⟩ := ht
                  obtain ⟨es₁, es₂, rfl, ha₁, now, tid, rfl⟩ :=
                    (show Accounts ledgerPoint ([⟨Op.selectExpiresAt jti, Except.ok (some exp)⟩]
                      ++ [⟨Op.insertDenylist .pool jti exp reason, Except.ok n⟩]) es from
                      ha).snoc_inv
                  obtain ⟨es₃, es₄, rfl, ha₃, rows, -, rfl⟩ :=
                    (show Accounts ledgerPoint ([] ++ [⟨Op.selectExpiresAt jti,
                      Except.ok (some exp)⟩]) es₁ from ha₁).snoc_inv
                  exact ⟨rows, _, rfl, rfl, by rw [accounts_nil ha₃]; rfl⟩
          | _ => exact reads_of_noWrites ht ha
  | bulkRevoke req =>
      cases x with
      | error f => exact reads_of_noWrites ht ha
      | ok a =>
          cases a with
          | bulkRevoke r =>
              obtain ⟨hall, hnew, hold⟩ := batch_account ha ht.plain
              exact ⟨hall, hnew.trans ht.newly, hold.trans ht.already⟩
          | _ => exact reads_of_noWrites ht ha
  | validate | introspect | authenticateBearer | listForSubject =>
      have hread : NoWrites h := by cases x <;> exact ht
      have hall := reads_of_noWrites hread ha
      cases x <;> exact hall

end JwtService

section Runs

variable {svc : JwtService K}
  {P : JwtPool svc → Label (jwtMachine svc.signer) (Request K) → Prop} {s₀ : Store}
  {c : JwtPool svc}

/-- Every run is a run of one sequential ledger. The answered calls contribute, in their order,
calls of the ledger that are legal one after the other, that lead from the tables at the start to
those at the end, and in which each finished request has done what its result says. -/
theorem ledger_run (h₀ : s₀.Idle) (h : JwtReach svc P s₀ c) :
    ∃ calls, Explains ledgerPoint c.history calls
      ∧ tokenLedger.Legal s₀.ledger (calls.map Prod.snd) c.shared.ledger
      ∧ ∀ tid t x, c.tasks[tid]? = some t → t.result = some x →
        svc.Settled (eventsOf calls tid) t.req x := by
  obtain ⟨calls, hex, hlegal⟩ := explained h₀ h
  refine ⟨calls, hex, hlegal, fun tid t x ht hx => ?_⟩
  have htrail := h.result_spec svc.trail_spec ht hx
  exact htrail.settled (fun cl r he => sign_read h he) (hex.accounts tid)

/-! ### Nothing lost, nothing twice -/

/-- The request has handed a token out. -/
def handedOut (t : Task (jwtSig K) Fault (Response K) (Request K)) : Bool :=
  match t.req, t.result with
  | .generate _, some (.ok (.token _)) => true
  | .extend _, some (.ok (.token _)) => true
  | _, _ => false

/-- The request has extended a token. -/
def extended (t : Task (jwtSig K) Fault (Response K) (Request K)) : Bool :=
  match t.req, t.result with
  | .extend _, some (.ok (.token _)) => true
  | _, _ => false

/-- How many new revocations the request has reported. -/
def reportedNew (t : Task (jwtSig K) Fault (Response K) (Request K)) : Nat :=
  match t.req, t.result with
  | .revoke .., some (.ok (.revoked newly)) => if newly then 1 else 0
  | .revokeByJti .., some (.ok (.revokedByJti (some newly))) => if newly then 1 else 0
  | .bulkRevoke _, some (.ok (.bulkRevoke r)) => r.newlyRevoked
  | _, _ => 0

/-- How many rows the calls issue. -/
def rowsAdded (es : List TokenCall) : Nat := (es.map fun a => (Ledger.rowsOf a).length).sum

/-- How many entries the calls make. -/
def entriesAdded (es : List TokenCall) : Nat := (es.map fun a => (Ledger.entryOf a).length).sum

/-- Reads of the ledger bring neither rows nor entries. -/
theorem reads_add_nothing {es : List TokenCall} (h : ∀ a ∈ es, Ledger.isRead a = true) :
    rowsAdded es = 0 ∧ entriesAdded es = 0 := by
  induction es with
  | nil => exact ⟨rfl, rfl⟩
  | cons a es ih =>
      obtain ⟨hissue, henter⟩ := ih fun b hb => h b (List.mem_cons_of_mem a hb)
      obtain ⟨hrows, hentry⟩ := Ledger.rowsOf_read (h a List.mem_cons_self)
      constructor
      · show (Ledger.rowsOf a).length + rowsAdded es = 0
        rw [hrows, hissue]
        rfl
      · show (Ledger.entryOf a).length + entriesAdded es = 0
        rw [hentry, henter]
        rfl

/-- A batch makes as many entries as it has found new jtis. -/
theorem batch_adds {es : List TokenCall}
    (h : ∀ a ∈ es, Ledger.isRead a = true ∨ (JwtService.entryAnswer a).isSome) :
    rowsAdded es = 0
      ∧ entriesAdded es = es.countP (fun a => JwtService.entryAnswer a = some true) := by
  induction es with
  | nil => exact ⟨rfl, rfl⟩
  | cons a es ih =>
      obtain ⟨hissue, henter⟩ := ih fun b hb => h b (List.mem_cons_of_mem a hb)
      have hone : (Ledger.rowsOf a).length = 0 ∧ (Ledger.entryOf a).length
          = if JwtService.entryAnswer a = some true then 1 else 0 := by
        obtain ⟨o, r⟩ := a
        cases o with
        | enter id entry => cases r <;> exact ⟨rfl, rfl⟩
        | look id => exact ⟨rfl, rfl⟩
        | rows => exact ⟨rfl, rfl⟩
        | issue row =>
            exact absurd (h _ List.mem_cons_self) (by simp [Ledger.isRead, JwtService.entryAnswer])
        | replace row id entry =>
            exact absurd (h _ List.mem_cons_self) (by simp [Ledger.isRead, JwtService.entryAnswer])
      constructor
      · show (Ledger.rowsOf a).length + rowsAdded es = 0
        omega
      · show (Ledger.entryOf a).length + entriesAdded es = _
        rw [List.countP_cons, hone.2, henter]
        simp only [decide_eq_true_eq]
        omega

/-- A settled request has added to the ledger what its result reports. An extension adds an entry
unless the old jti was entered between its look and its commit. -/
theorem settled_adds {es : List TokenCall}
    {t : Task (jwtSig K) Fault (Response K) (Request K)} {x : Except Fault (Response K)}
    (hx : t.result = some x) (hs : svc.Settled es t.req x) :
    rowsAdded es = (if handedOut t then 1 else 0)
      ∧ reportedNew t ≤ entriesAdded es
      ∧ entriesAdded es ≤ reportedNew t + if extended t then 1 else 0 := by
  have hreads : (∀ a ∈ es, Ledger.isRead a = true) →
      rowsAdded es = 0 ∧ 0 ≤ entriesAdded es ∧ entriesAdded es ≤ 0 := by
    intro h
    obtain ⟨hissue, henter⟩ := reads_add_nothing h
    omega
  unfold handedOut reportedNew extended
  rw [hx]
  generalize t.req = req at hs
  cases req with
  | generate req =>
      cases x with
      | error f => exact hreads hs
      | ok a =>
          cases a with
          | token r =>
              obtain ⟨row, -, rfl⟩ := hs
              exact ⟨rfl, Nat.le_refl 0, Nat.le_refl 0⟩
          | _ => exact hreads hs
  | extend req =>
      cases x with
      | error f => exact hreads hs
      | ok a =>
          cases a with
          | token r =>
              obtain ⟨jti, rows, row, entry, newly, -, -, -, rfl⟩ := hs
              cases newly
              · exact ⟨rfl, Nat.le_refl 0, Nat.zero_le 1⟩
              · exact ⟨rfl, Nat.zero_le 1, Nat.le_refl 1⟩
          | _ => exact hreads hs
  | revoke token reason =>
      cases x with
      | error f => exact hreads hs
      | ok a =>
          cases a with
          | revoked newly =>
              obtain ⟨jti, entry, -, -, -, rfl⟩ := hs
              cases newly
              · exact ⟨rfl, Nat.le_refl 0, Nat.le_refl 0⟩
              · exact ⟨rfl, Nat.le_refl 1, Nat.le_refl 1⟩
          | _ => exact hreads hs
  | revokeByJti jti reason =>
      cases x with
      | error f => exact hreads hs
      | ok a =>
          cases a with
          | revokedByJti y =>
              cases y with
              | none => exact hreads hs
              | some newly =>
                  obtain ⟨rows, entry, -, -, rfl⟩ := hs
                  cases newly
                  · exact ⟨rfl, Nat.le_refl 0, Nat.le_refl 0⟩
                  · exact ⟨rfl, Nat.le_refl 1, Nat.le_refl 1⟩
          | _ => exact hreads hs
  | bulkRevoke req =>
      cases x with
      | error f => exact hreads hs
      | ok a =>
          cases a with
          | bulkRevoke r =>
              obtain ⟨hall, hnew, -⟩ := hs
              obtain ⟨hissue, henter⟩ := batch_adds hall
              show rowsAdded es = 0 ∧ r.newlyRevoked ≤ entriesAdded es
                ∧ entriesAdded es ≤ r.newlyRevoked
              omega
          | _ => exact hreads hs
  | validate | introspect | authenticateBearer | listForSubject =>
      cases x <;> exact hreads hs

/-- The sums over the tasks, each of which has a result that settles it. -/
theorem sum_settled (svc : JwtService K) {calls : List (Nat × TokenCall)}
    {tasks : List (Task (jwtSig K) Fault (Response K) (Request K))}
    (hdone : ∀ t ∈ tasks, t.result.isSome)
    (hsettled : ∀ tid t x, tasks[tid]? = some t → t.result = some x →
      svc.Settled (eventsOf calls tid) t.req x) :
    ((List.range tasks.length).map fun tid => rowsAdded (eventsOf calls tid)).sum
        = tasks.countP handedOut
      ∧ (tasks.map reportedNew).sum
        ≤ ((List.range tasks.length).map fun tid => entriesAdded (eventsOf calls tid)).sum
      ∧ ((List.range tasks.length).map fun tid => entriesAdded (eventsOf calls tid)).sum
        ≤ (tasks.map reportedNew).sum + tasks.countP extended := by
  induction tasks using List.reverseRecOn with
  | nil => exact ⟨rfl, Nat.le_refl 0, Nat.le_refl 0⟩
  | append_singleton tasks t ih =>
      obtain ⟨hissue, hge, hle⟩ := ih (fun u hu => hdone u (by simp [hu])) fun tid u x hu hx =>
        hsettled tid u x (by
          rw [List.getElem?_append_left (List.getElem?_eq_some_iff.mp hu).1]
          exact hu) hx
      obtain ⟨x, hx⟩ := Option.isSome_iff_exists.mp (hdone t (by simp))
      obtain ⟨h₁, h₂, h₃⟩ := settled_adds hx (hsettled tasks.length t x (by simp) hx)
      simp only [List.length_append, List.length_cons, List.length_nil, Nat.zero_add,
        List.range_succ, List.map_append, List.map_cons, List.map_nil, List.sum_append,
        List.sum_cons, List.sum_nil, List.countP_append, List.countP_singleton]
      omega

/-- Once every request has its result, the metadata table has grown by one row for each token that
was handed out, and the denylist by one row for each revocation that was reported as new and at
most one more for each extension. -/
theorem rows_accounted (h₀ : s₀.Idle) (h : JwtReach svc P s₀ c)
    (hdone : ∀ t ∈ c.tasks, t.result.isSome) :
    c.shared.metadata.length = s₀.metadata.length + c.tasks.countP handedOut
      ∧ s₀.denylist.length + (c.tasks.map reportedNew).sum ≤ c.shared.denylist.length
      ∧ c.shared.denylist.length
        ≤ s₀.denylist.length + (c.tasks.map reportedNew).sum + c.tasks.countP extended := by
  obtain ⟨calls, hex, hlegal⟩ := explained h₀ h
  obtain ⟨hissued, hentries⟩ := Ledger.legal_adds hlegal
  have hlt : ∀ a ∈ calls, a.1 < c.tasks.length := by
    intro a ha
    obtain ⟨e, he⟩ := hex.tag a ha
    exact h.history_lt (a.1, e) he
  obtain ⟨hsum, hge, hle⟩ := sum_settled svc hdone fun tid t x ht hx =>
    (h.result_spec svc.trail_spec ht hx).settled (fun cl r he => sign_read h he)
      (hex.accounts tid)
  have hmeta := congrArg List.length hissued
  have hdeny := congrArg List.length hentries
  rw [List.length_append, List.length_flatMap, List.map_map] at hmeta hdeny
  have h₁ := sum_tasks hlt fun a => (Ledger.rowsOf a).length
  have h₂ := sum_tasks hlt fun a => (Ledger.entryOf a).length
  simp only [Store.ledger, List.length_map] at hmeta hdeny
  simp only [Function.comp_def] at hmeta hdeny
  simp only [rowsAdded, entriesAdded] at hsum hge hle
  omega

end Runs

/-! ### A run with an extension and a revocation -/

open Symbolic in
/-- Task 0 generates a token, task 1 extends it, and task 2 tries to revoke the old one. -/
theorem Symbolic.finished_run :
    ∃ c, JwtReach service Pool.Any store c ∧ (∀ t ∈ c.tasks, t.result.isSome)
      ∧ c.tasks.length = 3 ∧ c.tasks.countP handedOut = 2 := by
  obtain ⟨c, hreach, hq⟩ := Pool.exists_reach service.program (fun _ _ => true)
    (fun c : JwtPool service => c.tasks.all (fun t => t.result.isSome)
      && (decide (c.tasks.length = 3) && decide (c.tasks.countP handedOut = 2)))
    (Pool.init store) extendRevokeRun (by decide +kernel)
  simp only [Bool.and_eq_true, decide_eq_true_eq, List.all_eq_true] at hq
  exact ⟨c, hreach.mono fun _ _ _ => trivial, hq.1, hq.2.1, hq.2.2⟩

open Symbolic in
/-- The calls of the ledger in that run. -/
theorem ledger_run_sample :
    ∃ (c : JwtPool service) (calls : List (Nat × TokenCall)), c.tasks.length = 3
      ∧ Explains ledgerPoint c.history calls
      ∧ tokenLedger.Legal store.ledger (calls.map Prod.snd) c.shared.ledger
      ∧ ∀ tid t x, c.tasks[tid]? = some t → t.result = some x →
        service.Settled (eventsOf calls tid) t.req x := by
  obtain ⟨c, hreach, -, hlen, -⟩ := Symbolic.finished_run
  obtain ⟨calls, hrun⟩ := ledger_run store_idle hreach
  exact ⟨c, calls, hlen, hrun⟩

open Symbolic in
/-- Two tokens were handed out in that run, so there are two metadata rows. -/
theorem rows_accounted_sample :
    ∃ c, JwtReach service Pool.Any store c ∧ c.shared.metadata.length = 2 := by
  obtain ⟨c, hreach, hdone, -, hcount⟩ := Symbolic.finished_run
  have hrows := (rows_accounted store_idle hreach hdone).1
  rw [hcount] at hrows
  exact ⟨c, hreach, hrows⟩

end Tim
