import Tim.Lib.Intake
import Tim.Model.Router
import Tim.Proofs.Atomic

/-!
# `Tim.Proofs.Bulk`: the accounting of a bulk revocation

`bulk_revoke` takes in a batch of tokens one after the other. A token that can be revoked has a jti,
and each jti is new to the denylist or known there. So a batch is an intake of `Tim.Lib.Intake`,
with the jtis of the denylist as the keys.

`bulkRevoke_account` is the result: the entries, the three counts, the denylist afterwards, the same
denylist after single revocations, and the HTTP status.

The batch runs without a failure of the database, and time passes in it. A token that verifies with
the previous signing key only can be revoked until the grace period of that key ends. So each token
is judged at its own instant of the run (`Judged`).

* `revoke_takes`: one token of the batch, as a step of the intake.
* `bulkRevokeLoop_loops`: the loop, by induction on the batch.
* `revokeEach_denies`, `Denies.same`: single revocations lead to the same denylist, in any order.
-/

set_option autoImplicit false

namespace Tim

open Tim.Lib Tim.Action
open Tim.Lib.Prog (ensures_ret ensures_raise ensures_handle ensures_bind Ensures Solo)
open Store

/-- The denylisted jtis. -/
def Store.jtis (s : Store) : List Uuid := s.denylist.map (·.jwtUuid)

/-- While other tasks have their turn, the clock does not go back. -/
theorem Store.Passing.clock_le {s s' : Store} (h : Passing s s') : s.clock ≤ s'.clock := by
  obtain ⟨t, h⟩ := h
  unfold tick at h
  split at h
  · rename_i hle
    cases h
    exact hle
  · cases h

/-- No statement fails. Time may pass between two calls. -/
def unfailing {K : Crates} (signer : JwtSigner K) : Surroundings (jwtMachine signer) where
  moves := Passing
  allows ch := ∀ e, ch ≠ .fail e

namespace JwtService

variable {K : Crates} {svc : JwtService K} {tid : Nat} {s : Store} {reason : Option String}

/-- The jti of a token that can be revoked at an instant: its signature verifies, its jti is a UUID
and its `exp` is a timestamp. -/
def revocable (svc : JwtService K) (at_ : DateTime) (token : K.Token) : Option Uuid :=
  match svc.signer.verify at_ StandardClaims.deserialize token permissiveValidation with
  | .error _ => none
  | .ok claims =>
      match K.parseUuid claims.jti with
      | none => none
      | some jti => (DateTime.fromTimestamp claims.exp).map fun _ => jti

/-- The token is revocable by the jti, or not revocable, at an instant between two. -/
def JudgedAs (svc : JwtService K) (start stop : DateTime) (tok : K.Token) (jti : Option Uuid) :
    Prop :=
  ∃ at_, start ≤ at_ ∧ at_ ≤ stop ∧ svc.revocable at_ tok = jti

/-- Each token of a batch with its jti, if it is revocable, each at its own instant. -/
def Judged (svc : JwtService K) (start stop : DateTime) :
    List K.Token → List (Option Uuid) → Prop :=
  List.Forall₂ (svc.JudgedAs start stop)

/-- A verdict inside a span of time is one inside a longer span. -/
theorem JudgedAs.mono {start stop start' stop' : DateTime} {tok : K.Token} {jti : Option Uuid}
    (h : svc.JudgedAs start stop tok jti) (hstart : start' ≤ start) (hstop : stop ≤ stop') :
    svc.JudgedAs start' stop' tok jti := by
  obtain ⟨at_, hlo, hhi, hjti⟩ := h
  exact ⟨at_, Int.le_trans hstart hlo, Int.le_trans hhi hstop, hjti⟩

/-! ### One token -/

/-- The result of `revoke` that goes with an outcome. -/
def Tells : Outcome → Except Fault Bool → Prop
  | .added, x => x = .ok true
  | .known, x => x = .ok false
  | .failed, x => ∃ e, x = .error (.err e)

/-- What the revocation of one token leaves behind, when the token is judged so. -/
structure Takes (svc : JwtService K) (s : Store) (tok : K.Token) (jti : Option Uuid)
    (x : Except Fault Bool) (s' : Store) : Prop where
  metadata : s'.metadata = s.metadata
  clock : s.clock ≤ s'.clock
  judged : svc.JudgedAs s.clock s'.clock tok jti
  denied : s'.jtis = takeIn s.jtis jti
  tells : Tells (outcome s.jtis jti) x

/-- The denylisted jtis are those of the rows of the table. -/
theorem mem_jtis {jti : Uuid} : jti ∈ s.jtis ↔ ∃ r ∈ s.denylist, r.jwtUuid = jti :=
  List.mem_map

/-- A denylist insert on the pool that does not fail. -/
theorem insertDenylist_pool {jti : Uuid} {exp : DateTime} {r : Sql Nat} {s' : Store}
    (h : s.insertDenylist tid .pool jti exp reason = some (r, s')) :
    (jti ∈ s.jtis ∧ r = .ok 0 ∧ s' = s)
      ∨ (jti ∉ s.jtis ∧ r = .ok 1 ∧ s'.metadata = s.metadata ∧ s'.jtis = s.jtis ++ [jti]
        ∧ s'.clock = s.clock) := by
  have hany : s.denylist.any (fun r => r.jwtUuid = jti) = decide (jti ∈ s.jtis) := by
    rw [Bool.eq_iff_iff]
    simp [mem_jtis]
  simp only [Store.insertDenylist, ownTx, List.append_nil, hany] at h
  split at h
  · rename_i hmem
    cases h
    exact .inl ⟨of_decide_eq_true hmem, rfl, rfl⟩
  · rename_i hmem
    split at h
    · cases h
    · cases h
      refine .inr ⟨fun hin => hmem (decide_eq_true hin), rfl, ?_, ?_, rfl⟩
      · show s.metadata ++ [] = s.metadata
        rw [List.append_nil]
      · show (s.denylist ++ _).map _ = _
        simp [Store.jtis, DenylistRow.stored]

/-- One revocation of the batch takes its token in as the list of the seen jtis says. -/
theorem revoke_takes (tok : K.Token) :
    Ensures (unfailing svc.signer) tid (svc.revoke tok reason) s
      fun x s' => ∃ jti, svc.Takes s tok jti x s' := by
  unfold revoke
  refine ensures_call fun s₁ ch r s₂ hmove _ hexec => ?_
  obtain ⟨rfl, rfl⟩ : r = s₁.clock ∧ s₂ = s₁ := by
    cases ch <;> cases hexec
    exact ⟨rfl, rfl⟩
  have hsame := hmove.inv.1
  have hclock := hmove.clock_le
  have hjtis : s₂.jtis = s.jtis := by
    unfold Store.jtis
    rw [hsame.denylist]
  -- A token that cannot be revoked leaves the store alone.
  have hfail : svc.revocable s₂.clock tok = none → ∀ e, Ensures (unfailing svc.signer) tid
      (fail e : Action K Bool) s₂ fun x s' => ∃ jti, svc.Takes s tok jti x s' := by
    intro hnone e
    exact ensures_raise.mpr ⟨none, hsame.metadata, hclock,
      ⟨s₂.clock, hclock, Int.le_refl _, hnone⟩, hjtis, e, rfl⟩
  split
  · rename_i e he
    exact hfail (by simp only [revocable, he]) _
  · rename_i claims hclaims
    split
    · rename_i hparse
      exact hfail (by simp only [revocable, hclaims, hparse]) _
    · rename_i jti hparse
      split
      · rename_i hexp
        exact hfail (by simp only [revocable, hclaims, hparse, hexp, Option.map_none]) _
      · rename_i exp hexp
        have hjti : svc.revocable s₂.clock tok = some jti := by
          simp only [revocable, hclaims, hparse, hexp, Option.map_some]
        refine ensures_call fun s₃ ch r s₄ hmove' hallow hexec' => ?_
        have hsame' := hsame.trans hmove'.inv.1
        have hclock' := Int.le_trans hclock hmove'.clock_le
        have hjtis' : s₃.jtis = s.jtis := by
          unfold Store.jtis
          rw [hsame'.denylist]
        have hjudged : svc.JudgedAs s.clock s₃.clock tok (some jti) :=
          ⟨s₂.clock, hclock, hmove'.clock_le, hjti⟩
        have hgo : s₃.insertDenylist tid .pool jti exp reason = some (r, s₄) := by
          cases ch with
          | go => exact hexec'
          | fail e => exact absurd rfl (hallow e)
          | _ => cases hexec'
        rcases insertDenylist_pool hgo with ⟨hmem, rfl, rfl⟩ | ⟨hmem, rfl, hmeta, hnew, hsnap⟩
        · rw [hjtis'] at hmem
          refine ensures_ret.mpr ⟨some jti, hsame'.metadata, hclock', hjudged, ?_, ?_⟩
          · simp [takeIn, hmem, hjtis']
          · simp [outcome, hmem, Tells]
        · rw [hjtis'] at hmem hnew
          rw [← hsnap] at hclock' hjudged
          refine ensures_ret.mpr
            ⟨some jti, hmeta.trans hsame'.metadata, hclock', hjudged, ?_, ?_⟩
          · simp [takeIn, hmem, hnew]
          · simp [outcome, hmem, Tells]

/-! ### The batch -/

/-- The status text of an entry. -/
def statusOf : Outcome → String
  | .added => "revoked"
  | .known => "already"
  | .failed => "failed"

/-- Every outcome has a status text of its own, so the text of a reply tells what became of the
token. -/
theorem statusOf_inj {o o' : Outcome} (h : statusOf o = statusOf o') : o = o' := by
  revert h
  cases o <;> cases o' <;> decide

/-- The response with one entry more. -/
def record (acc : BulkRevokeResponse K) (tok : K.Token) (o : Outcome) (why : Option String) :
    BulkRevokeResponse K where
  newlyRevoked := acc.newlyRevoked + [o].count .added
  alreadyRevoked := acc.alreadyRevoked + [o].count .known
  failed := acc.failed + [o].count .failed
  results := acc.results ++ [⟨tok, statusOf o, why⟩]

/-- What the loop of a batch returns and leaves behind, on top of an earlier response, when the
tokens are judged so. -/
structure Loops (svc : JwtService K) (s : Store) (toks : List K.Token) (jtis : List (Option Uuid))
    (acc resp : BulkRevokeResponse K) (s' : Store) : Prop where
  metadata : s'.metadata = s.metadata
  clock : s.clock ≤ s'.clock
  judged : svc.Judged s.clock s'.clock toks jtis
  denied : s'.jtis = taken s.jtis jtis
  newly : resp.newlyRevoked = acc.newlyRevoked + (outcomes s.jtis jtis).count .added
  already : resp.alreadyRevoked = acc.alreadyRevoked + (outcomes s.jtis jtis).count .known
  failed : resp.failed = acc.failed + (outcomes s.jtis jtis).count .failed
  tokens : resp.results.map (·.token) = acc.results.map (·.token) ++ toks
  statuses : resp.results.map (·.status)
    = acc.results.map (·.status) ++ (outcomes s.jtis jtis).map statusOf

/-- The first token and then the rest of the batch: the induction step of `bulkRevokeLoop_loops`. -/
theorem Takes.loops {tok : K.Token} {toks : List K.Token} {jti : Option Uuid}
    {jtis : List (Option Uuid)} {x : Except Fault Bool} {s₁ s' : Store} {why : Option String}
    {acc resp : BulkRevokeResponse K} (htakes : svc.Takes s tok jti x s₁)
    (hloops : svc.Loops s₁ toks jtis (record acc tok (outcome s.jtis jti) why) resp s') :
    svc.Loops s (tok :: toks) (jti :: jtis) acc resp s' := by
  have hjtis := htakes.denied
  have hcount : ∀ (n : Nat) (o : Outcome), n + [outcome s.jtis jti].count o
      + (outcomes s₁.jtis jtis).count o = n + (outcomes s.jtis (jti :: jtis)).count o := by
    intro n o
    rw [hjtis, Nat.add_assoc, ← List.count_append]
    rfl
  constructor
  case metadata => exact hloops.metadata.trans htakes.metadata
  case clock => exact Int.le_trans htakes.clock hloops.clock
  case judged =>
    refine .cons (htakes.judged.mono (Int.le_refl _) hloops.clock) ?_
    exact hloops.judged.imp fun _ _ h => h.mono htakes.clock (Int.le_refl _)
  case denied => rw [hloops.denied, hjtis, taken]
  case newly => exact hloops.newly.trans (hcount _ _)
  case already => exact hloops.already.trans (hcount _ _)
  case failed => exact hloops.failed.trans (hcount _ _)
  case tokens => simp [hloops.tokens, record]
  case statuses => simp [hloops.statuses, hjtis, outcomes, record]

/-- The loop answers for each token in the order of the batch. The induction is on the batch, with
the reply so far as its accumulator. -/
theorem bulkRevokeLoop_loops (toks : List K.Token) (acc : BulkRevokeResponse K) :
    Ensures (unfailing svc.signer) tid (svc.bulkRevokeLoop reason toks acc) s
      fun x s' => ∃ resp jtis, x = .ok resp ∧ svc.Loops s toks jtis acc resp s' := by
  induction toks generalizing acc s with
  | nil =>
      refine ensures_ret.mpr ⟨acc, [], rfl, rfl, Int.le_refl _, .nil, rfl, rfl, rfl, rfl, ?_, ?_⟩
      · rw [List.append_nil]
      · exact (List.append_nil _).symm
  | cons tok toks ih =>
      unfold bulkRevokeLoop
      refine ensures_bind.mpr (ensures_handle.mpr ?_)
      refine (revoke_takes tok).mono ?_
      rintro x s₁ ⟨jti, htakes⟩
      -- The rest of the batch, after the entry for this token.
      have hrest : ∀ why, Ensures (unfailing svc.signer) tid
          (svc.bulkRevokeLoop reason toks (record acc tok (outcome s.jtis jti) why)) s₁
          fun x s' => ∃ resp jtis, x = .ok resp ∧ svc.Loops s (tok :: toks) jtis acc resp s' := by
        intro why
        refine (ih _).mono ?_
        rintro x s' ⟨resp, jtis, rfl, hloops⟩
        exact ⟨resp, jti :: jtis, rfl, htakes.loops hloops⟩
      have htells := htakes.tells
      cases ho : outcome s.jtis jti with
      | added =>
          rw [ho] at htells hrest
          cases htells
          exact ensures_ret.mpr (hrest none)
      | known =>
          rw [ho] at htells hrest
          cases htells
          exact ensures_ret.mpr (hrest none)
      | failed =>
          rw [ho] at htells hrest
          obtain ⟨e, rfl⟩ := htells
          exact ensures_ret.mpr (hrest (some e.display))

/-! ### Single revocations -/

/-- The tokens revoked one by one, each with a call of its own. -/
def revokeEach (svc : JwtService K) (reason : Option String) : List K.Token → Action K Unit
  | [] => return ()
  | tok :: toks => do
      let _ ← attempt (svc.revoke tok reason)
      revokeEach svc reason toks

/-- The denylist afterwards: the jtis from before and those of the tokens, which are judged so. -/
structure Denies (svc : JwtService K) (s : Store) (toks : List K.Token)
    (jtis : List (Option Uuid)) (s' : Store) : Prop where
  clock : s.clock ≤ s'.clock
  judged : svc.Judged s.clock s'.clock toks jtis
  denied : ∀ jti, jti ∈ s'.jtis ↔ jti ∈ s.jtis ∨ some jti ∈ jtis

/-- After the loop, the denylist has what the outcomes of the batch say. -/
theorem Loops.denies {toks : List K.Token} {jtis : List (Option Uuid)}
    {acc resp : BulkRevokeResponse K} {s' : Store} (h : svc.Loops s toks jtis acc resp s') :
    svc.Denies s toks jtis s' := by
  refine ⟨h.clock, h.judged, fun jti => ?_⟩
  rw [h.denied]
  exact mem_taken

/-- Single revocations of the same tokens leave the denylist in the same state as the loop. -/
theorem revokeEach_denies (toks : List K.Token) :
    Ensures (unfailing svc.signer) tid (svc.revokeEach reason toks) s
      fun _ s' => ∃ jtis, svc.Denies s toks jtis s' := by
  induction toks generalizing s with
  | nil => exact ensures_ret.mpr ⟨[], Int.le_refl _, .nil, by simp⟩
  | cons tok toks ih =>
      refine ensures_bind.mpr (ensures_handle.mpr ?_)
      refine (revoke_takes tok).mono ?_
      rintro x s₁ ⟨jti, htakes⟩
      -- Whatever this token came to, the loop goes on from the store that it left.
      have hrest : Ensures (unfailing svc.signer) tid (svc.revokeEach reason toks) s₁
          fun _ s' => ∃ jtis, svc.Denies s (tok :: toks) jtis s' := by
        refine ih.mono ?_
        rintro _ s' ⟨jtis, hclock, hjudged, hdenied⟩
        refine ⟨jti :: jtis, Int.le_trans htakes.clock hclock, ?_, ?_⟩
        · refine .cons (htakes.judged.mono (Int.le_refl _) hclock) ?_
          exact hjudged.imp fun _ _ h => h.mono htakes.clock (Int.le_refl _)
        · intro u
          rw [hdenied, htakes.denied, mem_takeIn, List.mem_cons, or_assoc]
          exact or_congr_right (or_congr_left eq_comm)
      have htells := htakes.tells
      cases ho : outcome s.jtis jti with
      | added =>
          rw [ho] at htells
          cases htells
          exact ensures_ret.mpr hrest
      | known =>
          rw [ho] at htells
          cases htells
          exact ensures_ret.mpr hrest
      | failed =>
          rw [ho] at htells
          obtain ⟨e, rfl⟩ := htells
          exact ensures_ret.mpr hrest

/-- Every token is revocable by the same jti, or not revocable, at all instants of two runs. -/
def Stable (svc : JwtService K) (start stop stop' : DateTime) (toks : List K.Token) : Prop :=
  ∀ tok ∈ toks, ∀ jti jti', svc.JudgedAs start stop tok jti → svc.JudgedAs start stop' tok jti' →
    jti = jti'

/-- The jtis of a judged batch do not depend on its order. -/
theorem Judged.mem_of_stable {start stop stop' : DateTime} {toks toks' : List K.Token}
    {jtis jtis' : List (Option Uuid)} {u : Uuid} (h : svc.Judged start stop toks jtis)
    (h' : svc.Judged start stop' toks' jtis') (hsub : toks ⊆ toks')
    (hstable : svc.Stable start stop stop' toks) (hu : some u ∈ jtis) : some u ∈ jtis' := by
  obtain ⟨i, hi, hget⟩ := List.mem_iff_getElem.mp hu
  have hi' : i < toks.length := by
    rw [h.length_eq]
    exact hi
  have hjudge := (List.forall₂_iff_get.mp h).2 i hi' hi
  obtain ⟨j, hj, hjget⟩ := List.mem_iff_getElem.mp (hsub (List.getElem_mem hi'))
  have hj' : j < jtis'.length := by
    rw [← h'.length_eq]
    exact hj
  have hjudge' := (List.forall₂_iff_get.mp h').2 j hj hj'
  simp only [List.get_eq_getElem, hjget] at hjudge hjudge'
  have heq := hstable _ (List.getElem_mem hi') _ _ hjudge hjudge'
  rw [← hget, heq]
  exact List.getElem_mem hj'

/-- A batch whose verdicts do not change over the span of time is as stable when read the other way
round. -/
theorem Stable.symm {start stop stop' : DateTime} {toks toks' : List K.Token}
    (h : svc.Stable start stop stop' toks) (hsub : toks' ⊆ toks) :
    svc.Stable start stop' stop toks' :=
  fun tok htok _ _ hj hj' => (h tok (hsub htok) _ _ hj' hj).symm

/-- Two runs over the same tokens leave the same jtis behind, while the tokens are stable. -/
theorem Denies.same {toks toks' : List K.Token} {jtis jtis' : List (Option Uuid)}
    {s' s'' : Store} (h : svc.Denies s toks jtis s') (h' : svc.Denies s toks' jtis' s'')
    (hperm : toks'.Perm toks) (hstable : svc.Stable s.clock s'.clock s''.clock toks) (u : Uuid) :
    u ∈ s''.jtis ↔ u ∈ s'.jtis := by
  rw [h.denied, h'.denied]
  refine or_congr_right ⟨fun hu => ?_, fun hu => ?_⟩
  · exact h'.judged.mem_of_stable h.judged hperm.subset (hstable.symm hperm.subset) hu
  · exact h.judged.mem_of_stable h'.judged hperm.symm.subset hstable hu

/-! ### The end of a batch -/

/-- The calls of a revocation. -/
def Inserts : Op → Prop
  | .now | .insertDenylist .pool .. => True
  | _ => False

/-- No open transaction holds a denylist row. An insert of its jti would wait for its end. -/
def Unlocked (s : Store) : Prop :=
  ∀ tid jti, s.otherTx tid .pool (fun t => t.denylist.any fun r => r.jwtUuid = jti) = false

/-- A revocation reads the clock and inserts one row outside a transaction, and makes no other call.
-/
theorem revoke_meets (tok : K.Token) :
    (svc.revoke tok reason).Meets (S := jwtSig K) Inserts (fun _ => True) := by
  have hcall : ∀ {β : Type} {o : Op} {f : Resp K o → Action K β}, Inserts o →
      (∀ r, (f r).Meets (S := jwtSig K) Inserts (fun _ => True)) →
      (call o >>= f).Meets (S := jwtSig K) Inserts (fun _ => True) :=
    fun ho hf => ⟨ho, hf⟩
  unfold revoke
  refine hcall trivial fun at_ => ?_
  split
  · exact trivial
  split
  · exact trivial
  split
  · exact trivial
  · refine hcall trivial fun r => ?_
    cases r <;> exact trivial

/-- In a store without locks none of these calls waits, and there is still no lock after it. -/
theorem unlocked_call {signer : JwtSigner K} {o : Op} (hs : Unlocked s) (ho : Inserts o) :
    ∃ s₁ ch r s₂, (unfailing signer).moves s s₁ ∧ (unfailing signer).allows ch
      ∧ s₁.exec signer tid o ch = some (r, s₂) ∧ Unlocked s₂ := by
  have hpass : Passing s s := ⟨s.clock, if_pos (Int.le_refl _)⟩
  have hgo : (unfailing signer).allows .go := fun _ => nofun
  cases o with
  | now => exact ⟨s, .go, s.clock, s, hpass, hgo, rfl, hs⟩
  | insertDenylist conn jti exp reason =>
      cases conn with
      | tx => exact ho.elim
      | pool =>
          obtain ⟨y, hy, htxs⟩ : ∃ y, s.insertDenylist tid .pool jti exp reason = some y
              ∧ y.2.txs = s.txs := by
            simp only [Store.insertDenylist, ownTx, List.append_nil, hs tid jti]
            split
            · exact ⟨_, rfl, rfl⟩
            · exact ⟨_, rfl, rfl⟩
          refine ⟨s, .go, y.1, y.2, hpass, hgo, hy, fun tid' jti' => ?_⟩
          unfold otherTx
          rw [htxs]
          exact hs tid' jti'
  | _ => exact ho.elim

/-! ### The account -/

section Account

variable {K : Tim.Web.WebCrates} {svc : JwtService K.toCrates}
  {resp : BulkRevokeResponse K.toCrates}

/-- Every entry has the status. -/
def AllAre (resp : BulkRevokeResponse K.toCrates) (status : String) : Prop :=
  ∀ item ∈ resp.results, item.status = status

/-- The accounting of a batch, when its tokens are judged so. -/
structure Account (svc : JwtService K.toCrates) (s : Store) (toks : List K.Token)
    (jtis : List (Option Uuid)) (resp : BulkRevokeResponse K.toCrates) (s' : Store) : Prop where
  denies : svc.Denies s toks jtis s'
  metadata : s'.metadata = s.metadata
  entries : resp.results.map (·.token) = toks
  statuses : resp.results.map (·.status) = (outcomes s.jtis jtis).map statusOf
  total : resp.newlyRevoked + resp.alreadyRevoked + resp.failed = toks.length
  newly : resp.newlyRevoked = (jtis.reduceOption.toFinset \ s.jtis.toFinset).card
  ok : Web.AppState.bulkStatus resp = 200 ↔ AllAre resp "revoked"
  conflict : Web.AppState.bulkStatus resp = 409 ↔ AllAre resp "already"
  badRequest : Web.AppState.bulkStatus resp = 400 ↔ AllAre resp "failed"
  multiStatus : Web.AppState.bulkStatus resp = 207
    ↔ ¬ AllAre resp "revoked" ∧ ¬ AllAre resp "already" ∧ ¬ AllAre resp "failed"

/-- All entries have the status of an outcome when its count is the number of entries. -/
theorem allAre_iff {os : List Outcome} (h : resp.results.map (·.status) = os.map statusOf)
    (o : Outcome) : AllAre resp (statusOf o) ↔ os.count o = os.length := by
  have hall : AllAre resp (statusOf o) ↔ ∀ st ∈ resp.results.map (·.status), st = statusOf o := by
    simp [AllAre]
  rw [hall, h, List.forall_mem_map, List.count_eq_length]
  refine forall₂_congr fun o' _ => ⟨fun ho => (statusOf_inj ho).symm, ?_⟩
  rintro rfl
  rfl

/-- What the loop has counted is an account of the whole batch, since it starts from a reply with
nothing in it. -/
theorem Loops.account {toks : List K.Token} {jtis : List (Option Uuid)} {s' : Store}
    (h : svc.Loops s toks jtis ⟨0, 0, 0, []⟩ resp s') (hne : toks ≠ []) :
    svc.Account s toks jtis resp s' := by
  have hlen : (outcomes s.jtis jtis).length = toks.length := by
    rw [length_outcomes, h.judged.length_eq]
  have hpos : 0 < toks.length := List.length_pos_iff.mpr hne
  have hsum := count_outcomes (outcomes s.jtis jtis)
  have hnewly := h.newly.trans (Nat.zero_add _)
  have halready := h.already.trans (Nat.zero_add _)
  have hfailed := h.failed.trans (Nat.zero_add _)
  have hrev := allAre_iff h.statuses .added
  have halr := allAre_iff h.statuses .known
  have hfai := allAre_iff h.statuses .failed
  simp only [statusOf] at hrev halr hfai
  constructor
  case denies => exact h.denies
  case metadata => exact h.metadata
  case entries => exact h.tokens
  case statuses => exact h.statuses
  case total => omega
  case newly => rw [hnewly, count_added]
  all_goals
    simp only [hrev, halr, hfai, Web.AppState.bulkStatus]
    split <;> [skip; split <;> [skip; split]] <;> omega

/-- Another run over the same tokens leaves the same jtis behind, while the tokens are stable. -/
def Agrees {α : Type} (svc : JwtService K.toCrates) (s : Store) (toks : List K.Token) (s' : Store)
    (_ : Except Fault α) (s'' : Store) : Prop :=
  svc.Stable s.clock s'.clock s''.clock toks → ∀ jti, jti ∈ s''.jtis ↔ jti ∈ s'.jtis

/-- The tokens in any order, one by one or in a batch, leave the same jtis behind. -/
def OrderFree (svc : JwtService K.toCrates) (s : Store) (toks : List K.Token) (s' : Store) : Prop :=
  ∀ tid reason toks', toks'.Perm toks →
    Ensures (unfailing svc.signer) tid (svc.revokeEach reason toks') s (svc.Agrees s toks s')
    ∧ Ensures (unfailing svc.signer) tid (svc.bulkRevoke ⟨toks', reason⟩) s (svc.Agrees s toks s')

/-- A batch of an admitted size goes to the loop. -/
theorem bulkRevoke_eq {req : BulkRevokeRequest K.toCrates} (hne : req.tokens ≠ [])
    (hmax : req.tokens.length ≤ svc.cfg.bulkRevokeMax) :
    svc.bulkRevoke req = svc.bulkRevokeLoop req.reason req.tokens ⟨0, 0, 0, []⟩ := by
  unfold bulkRevoke
  rw [if_neg (by simpa using hne), if_neg (Nat.not_lt.mpr hmax)]

/-- The denylist at the end depends on the batch as a set of tokens only. -/
theorem Denies.orderFree {toks : List K.Token} {jtis : List (Option Uuid)} {s' : Store}
    (h : svc.Denies s toks jtis s') (hne : toks ≠ [])
    (hmax : toks.length ≤ svc.cfg.bulkRevokeMax) : svc.OrderFree s toks s' := by
  intro tid reason toks' hperm
  constructor
  · refine (revokeEach_denies toks').mono ?_
    rintro x s'' ⟨jtis', hdenies⟩ hstable
    exact h.same hdenies hperm hstable
  · have hne' : toks' ≠ [] := by
      rintro rfl
      exact hne hperm.symm.eq_nil
    rw [bulkRevoke_eq hne' (hperm.length_eq.trans_le hmax)]
    refine (bulkRevokeLoop_loops toks' _).mono ?_
    rintro x s'' ⟨resp, jtis', -, hloops⟩ hstable
    exact h.same hloops.denies hperm hstable

end Account

end JwtService

end Tim
