import Tim.Lib.Solo
import Tim.Proofs.Trace

/-!
# `Tim.Proofs.Atomic`: the token operations are all or nothing

`operations_atomic` is about one operation, from the database before it to the database after it,
with any failure of any statement. An operation that stops with an error leaves both tables as
they were. One that succeeds changes them by its own rows and nothing else. The token of a response
is one that was signed for the jti of a row that is committed.

The proofs follow the programs call by call. `ensures_call` hands over the outcome of a call as a
case of `Store.Effect`. `Store.SameTables` is what all calls before the write keep, and
`Store.Holding` what the calls inside the transaction of `extend` keep.

* `generate_atomic`, `revoke_atomic`, `revokeByJti_atomic`, `extend_atomic`: the four operations one
  by one.
* `extendTx_holds`, `after_orRollback`: the transaction of `extend`, and what a rollback leaves of
  it.
-/

set_option autoImplicit false

namespace Tim

open Tim.Lib Tim.Action
open Tim.Lib.Prog (ensures_ret ensures_raise ensures_op ensures_handle)

/-! ### Tables and transactions -/

namespace Store

/-- Time passes between two calls, and nothing else happens. -/
def Passing (s s' : Store) : Prop := ∃ t, s.tick t = some s'

/-- Both tables are the same. -/
structure SameTables (s s' : Store) : Prop where
  metadata : s'.metadata = s.metadata
  denylist : s'.denylist = s.denylist

/-- The tables are those of the same store. -/
theorem SameTables.refl (s : Store) : SameTables s s := ⟨rfl, rfl⟩

/-- Two steps that leave the tables as they are. -/
theorem SameTables.trans {s s₁ s₂ : Store} (h : SameTables s s₁) (h' : SameTables s₁ s₂) :
    SameTables s s₂ :=
  ⟨h'.metadata.trans h.metadata, h'.denylist.trans h.denylist⟩

/-- Equal tables give the same answer about every jti. -/
theorem SameTables.denied {s s' : Store} (h : SameTables s s') (jti : Uuid) :
    s'.denied jti = s.denied jti := by
  unfold Store.denied
  rw [h.denylist]

/-- Time changes no table and no transaction. -/
theorem Passing.inv {s s' : Store} (h : Passing s s') :
    SameTables s s' ∧ ∀ tid, s'.txOf tid = s.txOf tid := by
  obtain ⟨t, h⟩ := h
  unfold tick at h
  split at h
  · cases h
    exact ⟨⟨rfl, rfl⟩, fun _ => rfl⟩
  · cases h

/-- Both tables are those of `s`, and the task has the transaction `tx` open. -/
structure Holding (s : Store) (tid : Nat) (tx : Tx) (s' : Store) : Prop where
  same : SameTables s s'
  open_ : s'.txOf tid = some tx

/-- Time passes for an open transaction without touching what it holds. -/
theorem Holding.passing {s s₁ s₂ : Store} {tid : Nat} {tx : Tx} (h : Holding s tid tx s₁)
    (hpass : Passing s₁ s₂) : Holding s tid tx s₂ :=
  ⟨h.same.trans hpass.inv.1, (hpass.inv.2 tid).trans h.open_⟩

/-- The calls that write no committed row. -/
def Quiet : Op → Prop
  | .insertMetadata .pool _ | .insertDenylist .pool .. | .commit => False
  | _ => True

variable {K : Crates} {signer : JwtSigner K} {tid : Nat} {s s' : Store}

/-- Only a write or a commit changes the tables. -/
theorem Effect.same {o : Op} {r : Resp K o} (h : Effect signer tid s o r s') (hquiet : Quiet o) :
    SameTables s s' := by
  cases h with
  | insertMetadata conn row tx hown hfree hother =>
      cases conn with
      | pool => exact hquiet.elim
      | tx => exact ⟨by simp [write], by simp [write]⟩
  | insertDenylist conn jti exp reason tx hown hfree hother =>
      cases conn with
      | pool => exact hquiet.elim
      | tx => exact ⟨by simp [write], by simp [write]⟩
  | commit tx htx => exact hquiet.elim
  | commitFailed e => exact hquiet.elim
  | begin hnone => exact ⟨by simp, by simp⟩
  | rollback => exact ⟨by simp, by simp⟩
  | _ => exact ⟨rfl, rfl⟩

/-- No call moves the clock. -/
theorem Effect.clock {o : Op} {r : Resp K o} (h : Effect signer tid s o r s') :
    s'.clock = s.clock := by
  have hset : ∀ (s : Store) tx, (s.setTx tid tx).clock = s.clock := by
    intro s tx
    cases tx <;> rfl
  have hwrite : ∀ (tx : Tx) conn, (s.write tid tx conn).clock = s.clock := by
    intro tx conn
    cases conn
    · rfl
    · exact hset _ _
  cases h with
  | begin hnone => exact hset _ _
  | insertMetadata conn row tx hown hfree hother => exact hwrite _ _
  | insertDenylist conn jti exp reason tx hown hfree hother => exact hwrite _ _
  | commit tx htx => exact hset _ _
  | commitFailed e => exact hset _ _
  | rollback => exact hset _ _
  | _ => rfl

/-- A metadata row goes in, or the statement fails. -/
theorem Effect.insertMetadata_inv {conn : Conn} {row : NewMetadata} {r : Sql Unit}
    (h : Effect signer tid s (.insertMetadata conn row) r s') :
    (∃ e, r = .error e) ∧ s' = s
      ∨ r = .ok () ∧ ∃ tx, s.ownTx tid conn = some tx
        ∧ s' = s.write tid
          { tx with metadata := tx.metadata ++ [row.stored tx.startedAt tid] } conn := by
  cases h with
  | insertMetadata conn row tx hown hfree hother => exact .inr ⟨rfl, tx, hown, rfl⟩
  | query o r hq => exact hq.elim
  | failed o r he => exact .inl ⟨he, rfl⟩

/-- A denylist row goes in, or the jti has one, or the statement fails. -/
theorem Effect.insertDenylist_inv {conn : Conn} {jti : Uuid} {exp : DateTime}
    {reason : Option String} {r : Sql Nat}
    (h : Effect signer tid s (.insertDenylist conn jti exp reason) r s') :
    (∃ e, r = .error e) ∧ s' = s
      ∨ r = .ok 0 ∧ s' = s ∧ (∃ tx, s.ownTx tid conn = some tx
        ∧ ∃ r ∈ s.denylist ++ tx.denylist, r.jwtUuid = jti)
      ∨ r = .ok 1 ∧ ∃ tx, s.ownTx tid conn = some tx
        ∧ (∀ r ∈ s.denylist ++ tx.denylist, r.jwtUuid ≠ jti)
        ∧ s' = s.write tid { tx with
          denylist := tx.denylist ++ [.stored jti exp reason tx.startedAt tid] } conn := by
  cases h with
  | conflict conn jti exp reason tx hown hmem => exact .inr (.inl ⟨rfl, rfl, tx, hown, hmem⟩)
  | insertDenylist conn jti exp reason tx hown hfree hother =>
      exact .inr (.inr ⟨rfl, tx, hown, hfree, rfl⟩)
  | query o r hq => exact hq.elim
  | failed o r he => exact .inl ⟨he, rfl⟩

end Store

open Store

/-! ### The rules -/

section Rules

variable {K : Crates} {signer : JwtSigner K} {tid : Nat} {s : Store} {α β : Type}
  {Q : Except Fault α → Store → Prop}

/-- One call in any surroundings. -/
theorem ensures_call {E : Surroundings (jwtMachine signer)} {o : Op} {f : Resp K o → Action K α}
    (h : ∀ s₁ ch r s₂, E.moves s s₁ → E.allows ch → s₁.exec signer tid o ch = some (r, s₂) →
      Prog.Ensures E tid (f r) s₂ Q) : Prog.Ensures E tid (call o >>= f) s Q :=
  ensures_op.mpr h

/-- Time may pass between two calls, and every call can fail. -/
def passing (signer : JwtSigner K) : Surroundings (jwtMachine signer) := ⟨Passing, fun _ => True⟩

/-- Every run of the action from the store ends as `Q` says. -/
def After (signer : JwtSigner K) (tid : Nat) (p : Action K α) (s : Store)
    (Q : Except Fault α → Store → Prop) : Prop :=
  Prog.Ensures (passing signer) tid p s Q

/-- A result without a call has to be right in the state at hand. -/
theorem after_pure {a : α} (h : Q (.ok a) s) : After signer tid (pure a) s Q :=
  ensures_ret.mpr h

/-- An error without a call has to be right in the state at hand. -/
theorem after_fail {e : TimError} (h : Q (.error (.err e)) s) :
    After signer tid (fail e) s Q :=
  ensures_raise.mpr h

/-- One call: the outcomes of the call on the store at that moment. -/
theorem after_call {o : Op} {f : Resp K o → Action K α}
    (h : ∀ s₁ r s₂, Passing s s₁ → Effect signer tid s₁ o r s₂ → After signer tid (f r) s₂ Q) :
    After signer tid (call o >>= f) s Q :=
  ensures_call fun s₁ _ r s₂ hpass _ hexec => h s₁ r s₂ hpass (exec_effect hexec)

/-- One call that writes no committed row. -/
theorem after_quiet {s₀ : Store} {o : Op} {f : Resp K o → Action K α} (hsame : SameTables s₀ s)
    (hquiet : Quiet o) (h : ∀ r s₁, SameTables s₀ s₁ → After signer tid (f r) s₁ Q) :
    After signer tid (call o >>= f) s Q :=
  after_call fun _ r s₂ hpass heff =>
    h r s₂ ((hsame.trans hpass.inv.1).trans (heff.same hquiet))

/-- The signature is a function of the claims, and no table changes. -/
theorem after_sign {s₀ : Store} {c : StandardClaims}
    {f : Except TimError K.Token → Action K α} (hsame : SameTables s₀ s)
    (h : ∀ s₁, SameTables s₀ s₁ → After signer tid (f (signer.sign c.serialize)) s₁ Q) :
    After signer tid (call (.sign c) >>= f) s Q := by
  refine after_call fun s₁ r s₂ hpass heff => ?_
  have hsame₂ := (hsame.trans hpass.inv.1).trans (heff.same trivial)
  cases heff with
  | sign c => exact h _ hsame₂
  | query o r hq => exact hq.elim
  | failed o r he => exact he.elim

/-- A transaction starts empty. -/
theorem after_begin {s₀ : Store} {f : Sql Unit → Action K α} (hsame : SameTables s₀ s)
    (hok : ∀ start s₁, Holding s₀ tid ⟨start, [], []⟩ s₁ → After signer tid (f (.ok ())) s₁ Q)
    (herr : ∀ e s₁, SameTables s₀ s₁ → After signer tid (f (.error e)) s₁ Q) :
    After signer tid (call .begin >>= f) s Q := by
  refine after_call fun s₁ r s₂ hpass heff => ?_
  have hsame₁ := hsame.trans hpass.inv.1
  cases heff with
  | begin hnone =>
      refine hok s₁.clock _ ⟨⟨?_, ?_⟩, ?_⟩
      · simpa using hsame₁.metadata
      · simpa using hsame₁.denylist
      · simp
  | query o r hq => exact hq.elim
  | failed o r he =>
      obtain ⟨e, rfl⟩ := he
      exact herr e _ hsame₁

/-- A commit adds the rows of the transaction to the tables. One that fails adds none. -/
theorem after_commit {s₀ : Store} {tx : Tx} {f : Sql Unit → Action K α}
    (hhold : Holding s₀ tid tx s)
    (hok : ∀ s₁, s₁.metadata = s₀.metadata ++ tx.metadata →
      s₁.denylist = s₀.denylist ++ tx.denylist → After signer tid (f (.ok ())) s₁ Q)
    (herr : ∀ e s₁, SameTables s₀ s₁ → After signer tid (f (.error e)) s₁ Q) :
    After signer tid (call .commit >>= f) s Q := by
  refine after_call fun s₁ r s₂ hpass heff => ?_
  have hhold₁ := hhold.passing hpass
  cases heff with
  | commit tx' htx =>
      obtain rfl : tx' = tx := Option.some.inj (htx.symm.trans hhold₁.open_)
      refine hok _ ?_ ?_
      · simp [hhold₁.same.metadata]
      · simp [hhold₁.same.denylist]
  | commitFailed e => exact herr e _ (hhold₁.same.trans ⟨by simp, by simp⟩)
  | query o r hq => exact hq.elim
  | failed o r he => exact he.elim

/-- The `?` on an answer. -/
theorem after_sql {r : Sql β} {f : β → Action K α}
    (hok : ∀ a, r = .ok a → After signer tid (f a) s Q)
    (herr : ∀ e, r = .error e → Q (.error (.err (.database e))) s) :
    After signer tid (sql r >>= f) s Q := by
  cases r with
  | ok a => exact hok a rfl
  | error e => exact after_fail (herr e rfl)

/-- The sum is inside the calendar, or the operation panics on the spot. -/
theorem after_addMinutes {now : DateTime} {m : Int64} {f : DateTime → Action K α}
    (hok : ∀ t, plusMinutes now m = some t → After signer tid (f t) s Q)
    (hpanic : plusMinutes now m = none → Q (.error .panic) s) :
    After signer tid (addMinutes now m >>= f) s Q := by
  rw [addMinutes_eq]
  cases h : plusMinutes now m with
  | some t => exact hok t h
  | none => exact ensures_raise.mpr (hpanic h)

end Rules

/-! ### The operations -/

namespace JwtService

variable {K : Crates} (svc : JwtService K) (tid : Nat) (s : Store)

/-- The claims that the service composes, and the instant they expire at. -/
inductive Composes : StandardClaims → DateTime → Prop
  | generate (req : GenerateRequest) (aud : List String) (jti : Uuid) (now exp : DateTime) :
      Composes (svc.generateClaims req aud jti now exp) exp
  | extend {at_ : DateTime} {token : K.Token} {old : StandardClaims}
      (hold : svc.signer.verify at_ StandardClaims.deserialize token permissiveValidation = .ok old)
      (jti : Uuid) (now exp : DateTime) : Composes (svc.extendClaims old jti now exp) exp

/-- The token was signed for the row: with its jti, and with the instant that the row expires at. -/
def SignedFor (token : K.Token) (row : MetadataRow) : Prop :=
  ∃ claims exp, svc.Composes claims exp ∧ svc.signer.sign claims.serialize = .ok token
    ∧ claims.jti = K.uuidText row.jwtUuid ∧ row.expiresAt = exp.toTimestamptz

/-- What `generate` leaves behind. -/
def Generates : Except Fault (TokenResponse K) → Store → Prop
  | .error _, s' => SameTables s s'
  | .ok resp, s' => ∃ row, s'.metadata = s.metadata ++ [row] ∧ s'.denylist = s.denylist
      ∧ svc.SignedFor resp.token row

/-- What `revoke` and `revoke_by_jti` leave behind. -/
def Revokes {α : Type} : Except Fault α → Store → Prop
  | .error _, s' => SameTables s s'
  | .ok _, s' => s'.metadata = s.metadata
      ∧ (s'.denylist = s.denylist ∨ ∃ row, s'.denylist = s.denylist ++ [row])

/-- What `extend` leaves behind. The jti of the old token is denylisted, once. -/
def Extends (req : ExtendRequest K) : Except Fault (TokenResponse K) → Store → Prop
  | .error _, s' => SameTables s s'
  | .ok resp, s' => ∃ row entry old oldJti at_,
      svc.signer.verify at_ StandardClaims.deserialize req.token permissiveValidation = .ok old
      ∧ K.parseUuid old.jti = some oldJti ∧ (∀ r ∈ s.denylist, r.jwtUuid ≠ oldJti)
      ∧ s'.metadata = s.metadata ++ [row] ∧ s'.denylist = s.denylist ++ [entry]
      ∧ entry.jwtUuid = oldJti ∧ svc.SignedFor resp.token row

/-- A generation leaves one row and nothing else, or no trace. -/
theorem generate_atomic (req : GenerateRequest) :
    After svc.signer tid (svc.generate req) s (svc.Generates s) := by
  unfold generate
  split
  · exact after_fail (.refl s)
  split
  · exact after_fail (.refl s)
  split
  · exact after_fail (.refl s)
  · rename_i aud haud
    refine after_quiet (.refl s) trivial fun jti s₁ h₁ => ?_
    refine after_quiet h₁ trivial fun now s₂ h₂ => ?_
    refine after_addMinutes (fun exp _ => ?_) fun _ => h₂
    refine after_sign h₂ fun s₄ h₄ => ?_
    split
    · exact after_fail h₄
    · rename_i token htoken
      refine after_quiet h₄ trivial fun id s₅ h₅ => ?_
      -- The one write. It commits with its statement, so there is nothing to take back later.
      refine after_call fun s₆ r s₇ hpass heff => ?_
      have h₆ := h₅.trans hpass.inv.1
      rcases heff.insertMetadata_inv with ⟨⟨e, rfl⟩, rfl⟩ | ⟨rfl, tx, hown, rfl⟩
      · exact after_fail h₆
      · cases hown
        let claims := svc.generateClaims req aud jti now exp
        let row := (svc.generateRow req claims aud id jti now exp).stored s₆.clock tid
        refine after_pure ⟨row, ?_, ?_, claims, exp, .generate req aud jti now exp, htoken, rfl,
          rfl⟩
        · show s₆.metadata ++ [row] = _
          rw [h₆.metadata]
        · show s₆.denylist ++ [] = _
          rw [h₆.denylist, List.append_nil]

/-- The one write of a revocation, on the pool. -/
theorem insertDenylist_revokes {s₁ : Store} (h₁ : SameTables s s₁) (jti : Uuid) (exp : DateTime)
    (reason : Option String) {α : Type} {k : Nat → Action K α}
    (hk : ∀ n, ∃ a, k n = .ret a) :
    After svc.signer tid (do
      let n ← sql (← call (.insertDenylist .pool jti exp reason))
      k n) s₁ (Revokes s) := by
  refine after_call fun s₂ r s₃ hpass heff => ?_
  have h₂ := h₁.trans hpass.inv.1
  rcases heff.insertDenylist_inv with ⟨⟨e, rfl⟩, rfl⟩ | ⟨rfl, rfl, -⟩ | ⟨rfl, tx, hown, -, rfl⟩
  · exact after_fail h₂
  · obtain ⟨a, ha⟩ := hk 0
    show After _ _ (k 0) _ _
    rw [ha]
    exact after_pure ⟨h₂.metadata, .inl h₂.denylist⟩
  · obtain ⟨a, ha⟩ := hk 1
    show After _ _ (k 1) _ _
    rw [ha]
    cases hown
    refine after_pure ⟨?_, .inr ⟨.stored jti exp reason s₂.clock tid, ?_⟩⟩
    · show s₂.metadata ++ [] = _
      rw [h₂.metadata, List.append_nil]
    · show s₂.denylist ++ _ = _
      rw [h₂.denylist]
      rfl

/-- A revocation leaves one denylist row and nothing else, or no trace. -/
theorem revoke_atomic (token : K.Token) (reason : Option String) :
    After svc.signer tid (svc.revoke token reason) s (Revokes s) := by
  unfold revoke
  refine after_quiet (.refl s) trivial fun at_ s₁ h₁ => ?_
  split
  · exact after_fail h₁
  split
  · exact after_fail h₁
  split
  · exact after_fail h₁
  · exact svc.insertDenylist_revokes tid s h₁ _ _ reason fun n => ⟨_, rfl⟩

/-- A revocation by jti leaves one denylist row and nothing else, or no trace. -/
theorem revokeByJti_atomic (jti : Uuid) (reason : Option String) :
    After svc.signer tid (revokeByJti jti reason) s (Revokes s) := by
  unfold revokeByJti
  refine after_quiet (.refl s) trivial fun r s₁ h₁ => ?_
  refine after_sql (fun found hfound => ?_) fun e _ => h₁
  split
  · exact after_pure ⟨h₁.metadata, .inl h₁.denylist⟩
  · exact svc.insertDenylist_revokes tid s h₁ jti _ reason fun n => ⟨_, rfl⟩

/-- The statements of `extend` inside its transaction, from one that is still empty. They stop
with an error and the tables unchanged, or they leave the two rows in the transaction. -/
theorem extendTx_holds {s₁ : Store} {start : DateTime} (h₁ : Holding s tid ⟨start, [], []⟩ s₁)
    (old claims : StandardClaims) (anc : Ancestor) {oldJti : Uuid} (newJti : Uuid)
    (now newExp : DateTime) (hfree : ∀ r ∈ s.denylist, r.jwtUuid ≠ oldJti) :
    After svc.signer tid (svc.extendTx old claims anc oldJti newJti now newExp) s₁
      fun x s' => match x with
        | .error _ => SameTables s s'
        | .ok _ => ∃ row entry, Holding s tid ⟨start, [row], [entry]⟩ s'
            ∧ row.jwtUuid = newJti ∧ row.expiresAt = newExp.toTimestamptz
            ∧ entry.jwtUuid = oldJti := by
  unfold extendTx
  refine after_call fun s₂ id s₃ hpass heff => ?_
  have h₃ : Holding s tid ⟨start, [], []⟩ s₃ := by
    have h₂ := h₁.passing hpass
    cases heff with
    | newUuid u hfresh => exact ⟨⟨h₂.same.metadata, h₂.same.denylist⟩, h₂.open_⟩
    | query o r hq => exact hq.elim
    | failed o r he => exact he.elim
  refine after_call fun s₄ r s₅ hpass heff => ?_
  have h₄ := h₃.passing hpass
  let row := (svc.extendRow old claims anc id newJti now newExp).stored start tid
  rcases heff.insertMetadata_inv with ⟨⟨e, rfl⟩, rfl⟩ | ⟨rfl, tx, hown, rfl⟩
  · exact after_fail h₄.same
  obtain rfl : tx = ⟨start, [], []⟩ := Option.some.inj (hown.symm.trans h₄.open_)
  have h₅ : Holding s tid ⟨start, [row], []⟩ (s₄.setTx tid (some ⟨start, [row], []⟩)) :=
    ⟨⟨by simpa using h₄.same.metadata, by simpa using h₄.same.denylist⟩, by simp⟩
  cases DateTime.fromTimestamp old.exp with
  | none => exact after_fail h₅.same
  | some oldExp =>
    refine after_call fun s₆ r s₇ hpass heff => ?_
    have h₆ := h₅.passing hpass
    let entry := DenylistRow.stored oldJti oldExp (some supersededReason) start tid
    rcases heff.insertDenylist_inv with ⟨⟨e, rfl⟩, rfl⟩ | ⟨rfl, rfl, tx, hown, r, hr, heq⟩ |
      ⟨rfl, tx, hown, -, rfl⟩
    · exact after_fail h₆.same
    · -- The jti was free before, and the transaction has no denylist row yet.
      obtain rfl : tx = ⟨start, [row], []⟩ := Option.some.inj (hown.symm.trans h₆.open_)
      rw [h₆.same.denylist, List.append_nil] at hr
      exact absurd heq (hfree r hr)
    · obtain rfl : tx = ⟨start, [row], []⟩ := Option.some.inj (hown.symm.trans h₆.open_)
      refine after_pure ⟨row, entry, ⟨⟨?_, ?_⟩, ?_⟩, rfl, rfl, rfl⟩
      · show (s₆.setTx tid (some ⟨start, [row], [entry]⟩)).metadata = _
        rw [metadata_setTx, h₆.same.metadata]
      · show (s₆.setTx tid (some ⟨start, [row], [entry]⟩)).denylist = _
        rw [denylist_setTx, h₆.same.denylist]
      · show (s₆.setTx tid (some ⟨start, [row], [entry]⟩)).txOf tid = _
        rw [txOf_setTx_self]

/-- An open transaction is dropped when the action inside it stops. -/
theorem after_orRollback {α β : Type} {s₁ : Store} {p : Action K α} {f : α → Action K β}
    {Q : Except Fault β → Store → Prop}
    (h : After svc.signer tid p s₁ fun x s₂ => match x with
      | .error e => ∀ s₃, SameTables s₂ s₃ → Q (.error e) s₃
      | .ok a => After svc.signer tid (f a) s₂ Q) :
    After svc.signer tid (orRollback p >>= f) s₁ Q := by
  refine ensures_handle.mpr (ensures_handle.mpr ?_)
  refine Prog.Ensures.mono h fun x s₂ hx => ?_
  cases x with
  | ok a => exact ensures_ret.mpr hx
  | error e =>
      refine after_quiet (.refl s₂) trivial fun _ s₃ h₃ => ?_
      exact ensures_raise.mpr (ensures_raise.mpr (hx s₃ h₃))

/-- An extension leaves a metadata row and the denylist row of its parent, both or neither,
whichever of its statements fails. -/
theorem extend_atomic (req : ExtendRequest K) :
    After svc.signer tid (svc.extend req) s (svc.Extends s req) := by
  unfold extend
  refine after_quiet (.refl s) trivial fun at_ s₁ h₁ => ?_
  split
  · exact after_fail h₁
  rename_i old hold
  refine after_quiet h₁ trivial fun now s₂ h₂ => ?_
  split
  · exact after_fail h₂
  split
  · exact after_fail h₂
  rename_i oldJti hjti
  refine after_call fun s₃ r s₄ hpass heff => ?_
  have h₃ := h₂.trans hpass.inv.1
  obtain ⟨rfl, rfl | ⟨e, rfl⟩⟩ := heff.selectDenylist_inv
  · cases hdenied : (s₄.denied oldJti).isSome with
    | true => exact after_fail h₃
    | false =>
        -- Nothing else runs, so the jti is still free when the transaction inserts it.
        have hfree : ∀ r ∈ s.denylist, r.jwtUuid ≠ oldJti := by
          rw [h₃.denied] at hdenied
          exact denied_eq_none.mp (Option.not_isSome_iff_eq_none.mp (by simp [hdenied]))
        refine after_quiet h₃ trivial fun found s₅ h₅ => ?_
        refine after_sql (fun found _ => ?_) fun e _ => h₅
        show After _ _ (ite _ _ _) _ _
        split
        · exact after_fail h₅
        refine after_addMinutes (fun newExp _ => ?_) fun _ => h₅
        refine after_quiet h₅ trivial fun newJti s₆ h₆ => ?_
        refine after_sign h₆ fun s₈ h₈ => ?_
        split
        · exact after_fail h₈
        rename_i token htoken
        refine after_begin h₈ (fun start s₉ hopen => ?_) fun e s₉ h₉ => after_fail h₉
        refine after_orRollback svc tid (Prog.Ensures.mono
          (svc.extendTx_holds tid s hopen old _ _ newJti now newExp hfree) ?_)
        intro x s₁₀ hx
        cases x with
        -- A statement failed. The rollback drops the transaction, whatever was in it.
        | error e => exact fun s₁₁ h₁₁ => hx.trans h₁₁
        | ok u =>
            obtain ⟨row, entry, hholds, hrow, hexp, hentry⟩ := hx
            refine after_commit hholds (fun s₁₁ hmeta hdeny => ?_) fun e s₁₁ h₁₁ => after_fail h₁₁
            refine after_pure ⟨row, entry, old, oldJti, at_, hold, hjti, hfree, hmeta, hdeny,
              hentry, _, newExp, .extend hold newJti now newExp, htoken, ?_, hexp⟩
            rw [hrow]
            rfl
  · exact after_fail h₃

/-- The four operations that write. With an error both tables stay as they are. A success of
`generate` adds one metadata row, one of `revoke` or `revoke_by_jti` at most one denylist row, and
one of `extend` a metadata row and the denylist row of the old jti. A returned token was signed for
the jti of the committed row. -/
theorem operations_atomic :
    (∀ req, After svc.signer tid (svc.generate req) s (svc.Generates s))
      ∧ (∀ token reason, After svc.signer tid (svc.revoke token reason) s (Revokes s))
      ∧ (∀ jti reason, After svc.signer tid (revokeByJti jti reason) s (Revokes s))
      ∧ ∀ req, After svc.signer tid (svc.extend req) s (svc.Extends s req) :=
  ⟨svc.generate_atomic tid s, svc.revoke_atomic tid s, svc.revokeByJti_atomic tid s,
    svc.extend_atomic tid s⟩

end JwtService

end Tim
