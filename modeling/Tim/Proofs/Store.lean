import Tim.Model.Service

/-!
# `Tim.Proofs.Store`: what one call does to the store

`Store.Effect` lists the possible outcomes of one call: the answer, the store after it, and
what the call found there. `exec_effect` is the inversion of `Store.exec`, so later proofs go
by the cases of `Effect` and never unfold `exec`.

`Reach.store_invariant` is the invariant rule of `Tim.Lib.Pool` at this machine. A property
of the store and the history needs a proof for one call (with what the program's
specification says of the call), for a dropped transaction and for the clock.
-/

set_option autoImplicit false

namespace Tim

open Tim.Lib

namespace Store

variable {K : Crates}

/-! ### Transactions -/

/-- A task has the transaction that was set for it. -/
@[simp] theorem txOf_setTx_self (s : Store) (tid : Nat) (tx : Option Tx) :
    (s.setTx tid tx).txOf tid = tx := by
  cases tx <;> simp [setTx, txOf]

/-- The transactions of other tasks stay. -/
theorem txOf_setTx_ne (s : Store) {tid tid' : Nat} (tx : Option Tx) (h : tid ≠ tid') :
    (s.setTx tid tx).txOf tid' = s.txOf tid' := by
  cases tx with
  | none => simp [setTx, txOf, Std.ExtTreeMap.getElem?_erase, h]
  | some tx => simp [setTx, txOf, Std.ExtTreeMap.getElem?_insert, h]

/-- An open transaction is no part of the table of tokens. -/
@[simp] theorem metadata_setTx (s : Store) (tid : Nat) (tx : Option Tx) :
    (s.setTx tid tx).metadata = s.metadata := by
  cases tx <;> rfl

/-- Neither is it one of the denylist. -/
@[simp] theorem denylist_setTx (s : Store) (tid : Nat) (tx : Option Tx) :
    (s.setTx tid tx).denylist = s.denylist := by
  cases tx <;> rfl

/-- It draws no UUID. -/
@[simp] theorem used_setTx (s : Store) (tid : Nat) (tx : Option Tx) :
    (s.setTx tid tx).used = s.used := by
  cases tx <;> rfl

/-- It signs nothing. -/
@[simp] theorem signed_setTx (s : Store) (tid : Nat) (tx : Option Tx) :
    (s.setTx tid tx).signed = s.signed := by
  cases tx <;> rfl

/-- A commit puts its rows behind those of the table of tokens. -/
@[simp] theorem metadata_apply (s : Store) (tx : Tx) :
    (s.apply tx).metadata = s.metadata ++ tx.metadata := rfl

/-- It puts its entries behind those of the denylist. -/
@[simp] theorem denylist_apply (s : Store) (tx : Tx) :
    (s.apply tx).denylist = s.denylist ++ tx.denylist := rfl

/-- It leaves the open transactions as they are. -/
@[simp] theorem txOf_apply (s : Store) (tx : Tx) (tid : Nat) :
    (s.apply tx).txOf tid = s.txOf tid := rfl

/-- An open transaction that remains after one of them is closed was open before. -/
theorem txOf_of_close {s : Store} {tid tid' : Nat} {tx : Tx}
    (h : (s.setTx tid none).txOf tid' = some tx) : tid ≠ tid' ∧ s.txOf tid' = some tx := by
  by_cases heq : tid = tid'
  · subst heq
    rw [txOf_setTx_self] at h
    cases h
  · rw [txOf_setTx_ne s none heq] at h
    exact ⟨heq, h⟩

/-- If no other transaction has the property, then none that belongs to another task has it. -/
theorem otherTx_false {s : Store} {tid : Nat} {conn : Conn} {p : Tx → Bool}
    (h : s.otherTx tid conn p = false) {tid' : Nat} {tx : Tx} (hne : conn = .pool ∨ tid' ≠ tid)
    (htx : s.txOf tid' = some tx) : p tx = false := by
  unfold otherTx at h
  rw [List.any_eq_false] at h
  have hmem : (tid', tx) ∈ s.txs.toList := Std.ExtTreeMap.mem_toList_iff_getElem?_eq_some.mpr htx
  have := h _ hmem
  simpa [hne] using this

/-- No other open transaction has a row that the insert of this task meets, unless some does. -/
theorem otherTx_cases {s : Store} {tid : Nat} {conn : Conn} {p : Tx → Bool}
    (h : s.otherTx tid conn p = true) (hpool : conn = .pool → s.txOf tid = none) :
    ∃ tid' tx, tid' ≠ tid ∧ s.txOf tid' = some tx ∧ p tx = true := by
  unfold otherTx at h
  obtain ⟨⟨tid', tx⟩, hmem, hp⟩ := List.any_eq_true.mp h
  simp only [Bool.and_eq_true, decide_eq_true_eq, Bool.or_eq_true] at hp
  have htx : s.txOf tid' = some tx := Std.ExtTreeMap.mem_toList_iff_getElem?_eq_some.mp hmem
  refine ⟨tid', tx, ?_, htx, hp.2⟩
  rintro rfl
  rcases hp.1 with hconn | hne
  · rw [hpool hconn] at htx
    cases htx
  · exact hne rfl

/-! ### The denylist as a set of keys -/

/-- A jti is denied when the denylist has a row of it. -/
theorem denied_isSome {s : Store} {jti : Uuid} :
    (s.denied jti).isSome = true ↔ ∃ r ∈ s.denylist, r.jwtUuid = jti := by
  simp [denied]

/-- A jti is free when no row is one of it. -/
theorem denied_eq_none {s : Store} {jti : Uuid} :
    s.denied jti = none ↔ ∀ r ∈ s.denylist, r.jwtUuid ≠ jti := by
  simp [denied]

/-! ### The latest row -/

/-- The latest row is one of the rows. -/
theorem latest_mem {rows : List MetadataRow} {r : MetadataRow} (h : latest rows = some r) :
    r ∈ rows := by
  induction rows generalizing r with
  | nil => cases h
  | cons q rows ih =>
      simp only [latest] at h
      split at h
      · cases h
        exact List.mem_cons_self
      · rename_i r' hr'
        split at h
        · cases h
          exact List.mem_cons_of_mem _ (ih hr')
        · cases h
          exact List.mem_cons_self

/-- Where there is a row there is a latest one. -/
theorem latest_isSome {rows : List MetadataRow} {r : MetadataRow} (h : r ∈ rows) :
    ∃ r', latest rows = some r' := by
  cases rows with
  | nil => cases h
  | cons q rows =>
      simp only [latest]
      split
      · exact ⟨q, rfl⟩
      · split
        · exact ⟨_, rfl⟩
        · exact ⟨q, rfl⟩

/-- The row of a jti is a row of the table, and it is one of that jti. -/
theorem chainRow_mem {s : Store} {jti : Uuid} {r : MetadataRow} (h : s.chainRow jti = some r) :
    r ∈ s.metadata ∧ r.jwtUuid = jti := by
  have := latest_mem h
  simpa using this

/-- A jti with a row is found. -/
theorem chainRow_isSome {s : Store} {r : MetadataRow} (h : r ∈ s.metadata) :
    ∃ r', s.chainRow r.jwtUuid = some r' := by
  have hmem : r ∈ s.metadata.filter fun q => q.jwtUuid = r.jwtUuid := by simpa using h
  exact latest_isSome hmem

/-! ### The outcomes of a call -/

/-- The statements that read and whose answers no invariant depends on. -/
def isQuery : Op → Prop
  | .selectDenylistEntry _ | .selectExpiresAt _ | .selectTokens .. | .countTokens .. => True
  | _ => False

/-- The call is a statement whose answer an invariant depends on, and it failed. -/
def isError : (o : Op) → Resp K o → Prop
  | .selectDenylist _, r => ∃ e, r = .error e
  | .selectChain _, r => ∃ e, r = .error e
  | .begin, r => ∃ e, r = .error e
  | .insertMetadata .., r => ∃ e, r = .error e
  | .insertDenylist .., r => ∃ e, r = .error e
  | _, _ => False

/-- The outcomes of a call of task `tid` on the store `s`. -/
inductive Effect (signer : JwtSigner K) (tid : Nat) (s : Store) :
    (o : Op) → Resp K o → Store → Prop
  | now : Effect signer tid s .now s.clock s
  | newUuid (u : Uuid) (hfresh : u ∉ s.used) :
      Effect signer tid s .newUuid u { s with used := u :: s.used }
  | sign (c : StandardClaims) :
      Effect signer tid s (.sign c) (signer.sign c.serialize) { s with signed := c :: s.signed }
  | selectDenylist (jti : Uuid) :
      Effect signer tid s (.selectDenylist jti) (.ok (s.denied jti).isSome) s
  | selectChain (jti : Uuid) :
      Effect signer tid s (.selectChain jti)
        (.ok ((s.chainRow jti).map fun r => (r.originalJwtUuid, r.id, r.jwtName))) s
  | query (o : Op) (r : Resp K o) (hq : isQuery o) : Effect signer tid s o r s
  | failed (o : Op) (r : Resp K o) (he : isError o r) : Effect signer tid s o r s
  | begin (hnone : s.txOf tid = none) :
      Effect signer tid s .begin (.ok ()) (s.setTx tid (some ⟨s.clock, [], []⟩))
  | insertMetadata (conn : Conn) (row : NewMetadata) (tx : Tx) (hown : s.ownTx tid conn = some tx)
      (hfree : ∀ r ∈ s.metadata ++ tx.metadata, r.id ≠ row.id)
      (hother : ∀ tid' tx', conn = .pool ∨ tid' ≠ tid → s.txOf tid' = some tx' →
        ∀ r ∈ tx'.metadata, r.id ≠ row.id) :
      Effect signer tid s (.insertMetadata conn row) (.ok ())
        (s.write tid { tx with metadata := tx.metadata ++ [row.stored tx.startedAt tid] } conn)
  | conflict (conn : Conn) (jti : Uuid) (exp : DateTime) (reason : Option String) (tx : Tx)
      (hown : s.ownTx tid conn = some tx)
      (hmem : ∃ r ∈ s.denylist ++ tx.denylist, r.jwtUuid = jti) :
      Effect signer tid s (.insertDenylist conn jti exp reason) (.ok 0) s
  | insertDenylist (conn : Conn) (jti : Uuid) (exp : DateTime) (reason : Option String) (tx : Tx)
      (hown : s.ownTx tid conn = some tx)
      (hfree : ∀ r ∈ s.denylist ++ tx.denylist, r.jwtUuid ≠ jti)
      (hother : ∀ tid' tx', conn = .pool ∨ tid' ≠ tid → s.txOf tid' = some tx' →
        ∀ r ∈ tx'.denylist, r.jwtUuid ≠ jti) :
      Effect signer tid s (.insertDenylist conn jti exp reason) (.ok 1)
        (s.write tid { tx with
          denylist := tx.denylist ++ [.stored jti exp reason tx.startedAt tid] } conn)
  | commit (tx : Tx) (htx : s.txOf tid = some tx) :
      Effect signer tid s .commit (.ok ()) ((s.apply tx).setTx tid none)
  | commitFailed (e : String) :
      Effect signer tid s .commit (.error e) (s.setTx tid none)
  | rollback : Effect signer tid s .rollback () (s.setTx tid none)

/-- What an insert into the table of tokens does: it adds its row, or it fails for a duplicate key.
-/
theorem insertMetadata_effect {signer : JwtSigner K} {tid : Nat} {s s' : Store} {conn : Conn}
    {row : NewMetadata} {r : Sql Unit} (h : s.insertMetadata tid conn row = some (r, s')) :
    Effect signer tid s (.insertMetadata conn row) r s' := by
  unfold insertMetadata at h
  split at h
  · cases h
  · rename_i tx hown
    split at h
    · cases h
      exact .failed _ _ ⟨_, rfl⟩
    · rename_i hfree
      split at h
      · cases h
      · rename_i hother
        cases h
        refine .insertMetadata conn row tx hown ?_ ?_
        · rw [List.any_eq_true] at hfree
          intro r hr heq
          exact hfree ⟨r, hr, by simpa using heq⟩
        · intro tid' tx' hne htx
          have := otherTx_false (Bool.eq_false_iff.mpr hother) hne htx
          simpa using this

/-- What an insert into the denylist does: it adds its row, or it finds one there and adds nothing.
-/
theorem insertDenylist_effect {signer : JwtSigner K} {tid : Nat} {s s' : Store} {conn : Conn}
    {jti : Uuid} {exp : DateTime} {reason : Option String} {r : Sql Nat}
    (h : s.insertDenylist tid conn jti exp reason = some (r, s')) :
    Effect signer tid s (.insertDenylist conn jti exp reason) r s' := by
  unfold insertDenylist at h
  split at h
  · cases h
  · rename_i tx hown
    split at h
    · rename_i hmem
      cases h
      obtain ⟨r, hr, heq⟩ := List.any_eq_true.mp hmem
      exact .conflict conn jti exp reason tx hown ⟨r, hr, by simpa using heq⟩
    · rename_i hfree
      split at h
      · cases h
      · rename_i hother
        cases h
        refine .insertDenylist conn jti exp reason tx hown ?_ ?_
        · rw [List.any_eq_true] at hfree
          intro r hr heq
          exact hfree ⟨r, hr, by simpa using heq⟩
        · intro tid' tx' hne htx
          have := otherTx_false (Bool.eq_false_iff.mpr hother) hne htx
          simpa using this

/-- What a commit does: the rows of the transaction go into the tables, all of them. -/
theorem commit_effect {signer : JwtSigner K} {tid : Nat} {s s' : Store} {r : Sql Unit}
    (h : s.commit tid = some (r, s')) : Effect signer tid s .commit r s' := by
  unfold commit at h
  split at h
  · cases h
  · rename_i tx htx
    cases h
    exact .commit tx htx

/-- A statement goes on, or it fails and changes nothing. -/
theorem statement_cases {α : Type} {s s' : Store} {f : Option (Sql α × Store)} {ch : Choice}
    {r : Sql α} (h : s.statement f ch = some (r, s')) :
    f = some (r, s') ∨ (∃ e, r = .error e) ∧ s' = s := by
  cases ch with
  | go => exact .inl h
  | fail e =>
      cases h
      exact .inr ⟨⟨e, rfl⟩, rfl⟩
  | _ => cases h

/-- A read leaves the store as it is, and it answers or fails. -/
theorem select_cases {α : Type} {s s' : Store} {a : α} {ch : Choice} {r : Sql α}
    (h : s.select a ch = some (r, s')) : s' = s ∧ (r = .ok a ∨ ∃ e, r = .error e) := by
  rcases statement_cases h with hgo | ⟨he, rfl⟩
  · cases hgo
    exact ⟨rfl, .inl rfl⟩
  · exact ⟨rfl, .inr he⟩

/-- Every answered call is one of the outcomes. -/
theorem exec_effect {signer : JwtSigner K} {tid : Nat} {s s' : Store} {o : Op} {ch : Choice}
    {r : Resp K o} (h : s.exec signer tid o ch = some (r, s')) : Effect signer tid s o r s' := by
  cases o with
  | now =>
      cases ch <;> cases h
      exact .now
  | newUuid =>
      cases ch with
      | uuid u =>
          simp only [exec] at h
          split at h
          · cases h
          · rename_i hfresh
            cases h
            exact .newUuid _ hfresh
      | _ => cases h
  | sign c =>
      cases ch <;> cases h
      exact .sign c
  | selectDenylist jti =>
      obtain ⟨rfl, rfl | he⟩ := select_cases h
      · exact .selectDenylist jti
      · exact .failed _ _ he
  | selectChain jti =>
      obtain ⟨rfl, rfl | he⟩ := select_cases h
      · exact .selectChain jti
      · exact .failed _ _ he
  -- What these queries answer does not matter for the tables.
  | selectDenylistEntry jti =>
      obtain ⟨rfl, -⟩ := select_cases h
      exact .query _ _ trivial
  | selectExpiresAt jti =>
      obtain ⟨rfl, -⟩ := select_cases h
      exact .query _ _ trivial
  | countTokens subject filter =>
      obtain ⟨rfl, -⟩ := select_cases h
      exact .query _ _ trivial
  | selectTokens subject filter limit offset =>
      cases ch with
      | order rows =>
          obtain ⟨r', -, heq⟩ := Option.map_eq_some_iff.mp h
          cases heq
          exact .query _ _ trivial
      | fail e =>
          cases h
          exact .query _ _ trivial
      | _ => cases h
  | begin =>
      rcases statement_cases h with hgo | ⟨he, rfl⟩
      · split at hgo
        · cases hgo
        · rename_i hnone
          cases hgo
          exact .begin hnone
      · exact .failed _ _ he
  | insertMetadata conn row =>
      rcases statement_cases h with hgo | ⟨he, rfl⟩
      · exact insertMetadata_effect hgo
      · exact .failed _ _ he
  | insertDenylist conn jti exp reason =>
      rcases statement_cases h with hgo | ⟨he, rfl⟩
      · exact insertDenylist_effect hgo
      · exact .failed _ _ he
  -- A commit that fails drops the transaction as a rollback does.
  | commit =>
      cases ch with
      | go => exact commit_effect h
      | fail e =>
          cases h
          exact .commitFailed e
      | _ => cases h
  | rollback =>
      cases ch <;> cases h
      exact .rollback

/-- A chain query answers with the latest row of the jti. -/
theorem Effect.selectChain_inv {signer : JwtSigner K} {tid : Nat} {s s' : Store} {jti : Uuid}
    {r : Sql (Option (Uuid × Uuid × Option String))}
    (h : Effect signer tid s (.selectChain jti) r s') :
    s' = s ∧ (r = .ok ((s.chainRow jti).map fun r => (r.originalJwtUuid, r.id, r.jwtName))
      ∨ ∃ e, r = .error e) := by
  cases h with
  | selectChain => exact ⟨rfl, .inl rfl⟩
  | query o r hq => exact hq.elim
  | failed o r he => exact ⟨rfl, .inr he⟩

/-- A lookup answers whether the jti has a row. -/
theorem Effect.selectDenylist_inv {signer : JwtSigner K} {tid : Nat} {s s' : Store} {jti : Uuid}
    {r : Sql Bool} (h : Effect signer tid s (.selectDenylist jti) r s') :
    s' = s ∧ (r = .ok (s.denied jti).isSome ∨ ∃ e, r = .error e) := by
  cases h with
  | selectDenylist => exact ⟨rfl, .inl rfl⟩
  | query o r hq => exact hq.elim
  | failed o r he => exact ⟨rfl, .inr he⟩

end Store

/-! ### Runs of the service -/

section Runs

variable {K : Crates}

/-- A pool of requests to the token service. -/
abbrev JwtPool (svc : JwtService K) := Pool (jwtMachine svc.signer) (Request K) Fault (Response K)

/-- A run of the token service from the store `s₀`, each step allowed by `P`. -/
abbrev JwtReach (svc : JwtService K)
    (P : JwtPool svc → Label (jwtMachine svc.signer) (Request K) → Prop) (s₀ : Store)
    (c : JwtPool svc) : Prop :=
  Pool.Reach svc.program P (Pool.init s₀) c

variable {svc : JwtService K}
  {P : JwtPool svc → Label (jwtMachine svc.signer) (Request K) → Prop} {s₀ : Store}
  {c : JwtPool svc}

/-- The invariant rule for properties of the store and the history. -/
theorem store_invariant {φ : Request K → List (Event (jwtSig K)) → Op → Prop}
    {ψ : Request K → List (Event (jwtSig K)) → Except Fault (Response K) → Prop}
    (hcode : ∀ req, (svc.program req).Spec (φ req) (ψ req) [])
    {I : Store → List (Nat × Event (jwtSig K)) → Prop} (h : JwtReach svc P s₀ c) (h₀ : I s₀ [])
    (hcall : ∀ s hist tid (o : Op) (r : Resp K o) s' req, φ req (eventsOf hist tid) o →
      Store.Effect svc.signer tid s o r s' → I s hist → I s' (hist ++ [(tid, ⟨o, r⟩)]))
    (hdrop : ∀ s hist tid, I s hist → I (s.setTx tid none) hist)
    (htick : ∀ s hist t, I s hist → I { s with clock := t } hist) : I c.shared c.history := by
  refine h.invariant (I := fun c => I c.shared c.history) h₀ ?_
  intro c l c' hr _ hn hI
  cases hn with
  | spawn req => exact hI
  | step tid ch req o k r s htask hexec =>
      exact hcall _ _ tid o r s req (hr.call_spec hcode htask) (Store.exec_effect hexec) hI
  | cancel tid req o k htask => exact hdrop _ _ tid hI
  | env t s henv =>
      simp only [jwtMachine, Store.tick] at henv
      split at henv
      · cases henv
        exact htick _ _ t hI
      · cases henv

end Runs

end Tim
