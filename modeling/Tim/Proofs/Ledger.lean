import Tim.Lib.Ledger
import Tim.Proofs.Atomic
import Tim.Proofs.Runs

/-!
# `Tim.Proofs.Ledger`: the token tables as an atomic ledger

The two tables are written by single statements and by the transaction of `extend`, which runs
over several steps with other requests in between. `explained` says that every run can be
explained as if each request had used one sequential ledger (`Tim.Lib.Ledger`): a statement on the
pool is a call of the ledger at its own step, a statement inside a transaction does nothing, and
the commit of an extension is one replacement.

`Pending` is the invariant behind it. It gives the uncommitted rows of a transaction as a function
of what its task has done so far, and `Bookkeeping.tx` reads it at the commit.

* `step_explained`: one step of a run is explained by calls of the ledger.
* `bookkeeping`: the state that the ledger has is that of the store.
-/

set_option autoImplicit false

namespace Tim

open Tim.Lib Tim.Lib.Prog Tim.Lib.Pool

variable {K : Crates}

/-! ### The tables as a ledger -/

/-- The calls of the ledger behind the token tables. -/
abbrev TokenCall := Event (ledgerSig Uuid MetadataRow DenylistRow)

/-- The ledger as a sequential object. -/
abbrev tokenLedger : Object (ledgerSig Uuid MetadataRow DenylistRow) :=
  Ledger.object Uuid MetadataRow DenylistRow

/-- The token tables as a ledger. -/
def Store.ledger (s : Store) : Ledger Uuid MetadataRow DenylistRow :=
  ⟨s.metadata, s.denylist.map fun r => (r.jwtUuid, r)⟩

/-- Rows as entries under their jti. -/
theorem lookup_rows (rows : List DenylistRow) (jti : Uuid) :
    (rows.map fun r => (r.jwtUuid, r)).lookup jti = rows.find? fun r => r.jwtUuid = jti := by
  induction rows with
  | nil => rfl
  | cons r rows ih =>
      rw [List.map_cons, List.lookup_cons, List.find?_cons, ih]
      by_cases h : r.jwtUuid = jti
      · simp [h]
      · simp [h, beq_false_of_ne (Ne.symm h)]

/-- The entries of the ledger are the rows of the denylist. -/
theorem Store.lookup_ledger (s : Store) (jti : Uuid) :
    s.ledger.entries.lookup jti = s.denied jti :=
  lookup_rows s.denylist jti

/-- The rows of the list query, as a page of these rows. -/
def PageOf (rows : List MetadataRow) (subject : String) (filter : ListFilter)
    (limit offset : Int64) (page : List MetadataRow) : Prop :=
  ∃ order : List MetadataRow, order.Perm (rows.filter (filter.matches subject))
    ∧ order.Pairwise (fun a b => b.issuedAt ≤ a.issuedAt)
    ∧ page = (order.drop offset.toInt.toNat).take limit.toInt.toNat

/-- What an answered call does on the ledger. A statement inside a transaction does nothing until
the commit, and then the two inserts are one call. -/
def ledgerPoint : Point (jwtSig K) (ledgerSig Uuid MetadataRow DenylistRow)
  | _, ⟨.selectDenylist jti, .ok found⟩, es => ∃ x, found = x.isSome ∧ es = [⟨.look jti, x⟩]
  | _, ⟨.selectDenylistEntry jti, .ok found⟩, es => ∃ x : Option DenylistRow,
      found = x.map (fun r => (r.denylistedAt, r.reason)) ∧ es = [⟨.look jti, x⟩]
  | _, ⟨.selectExpiresAt jti, .ok found⟩, es => ∃ rows : List MetadataRow,
      found = (Store.latest (rows.filter fun r => r.jwtUuid = jti)).map (fun r => r.expiresAt)
        ∧ es = [⟨.rows, rows⟩]
  | _, ⟨.selectChain jti, .ok found⟩, es => ∃ rows : List MetadataRow,
      found = (Store.latest (rows.filter fun r => r.jwtUuid = jti)).map
          (fun r => (r.originalJwtUuid, r.id, r.jwtName))
        ∧ es = [⟨.rows, rows⟩]
  | _, ⟨.selectTokens subject filter limit offset, .ok page⟩, es => ∃ rows,
      PageOf rows subject filter limit offset page ∧ es = [⟨.rows, rows⟩]
  | _, ⟨.countTokens subject filter, .ok n⟩, es => ∃ rows : List MetadataRow,
      n = (rows.filter (filter.matches subject)).length ∧ es = [⟨.rows, rows⟩]
  | _, ⟨.insertMetadata .pool row, .ok ()⟩, es => ∃ now tid,
      es = [⟨.issue (row.stored now tid), ()⟩]
  | _, ⟨.insertDenylist .pool jti exp reason, .ok n⟩, es => ∃ now tid,
      es = [⟨.enter jti (.stored jti exp reason now tid), decide (n = 1)⟩]
  | h, ⟨.commit, .ok ()⟩, es => ∃ h₀ row jti exp reason n now tid,
      h = h₀ ++ [⟨Op.insertMetadata .tx row, Except.ok ()⟩]
          ++ [⟨Op.insertDenylist .tx jti exp reason, Except.ok n⟩]
        ∧ es = [⟨.replace (row.stored now tid) jti (.stored jti exp reason now tid),
          decide (n = 1)⟩]
  | _, _, es => es = []

/-! ### The rows of a transaction -/

/-- The denylist row that an insert asks for. -/
structure NewEntry where
  jti : Uuid
  exp : DateTime
  reason : Option String

/-- The row that the insert stores. -/
def NewEntry.stored (e : NewEntry) (now : DateTime) (tid : Nat) : DenylistRow :=
  .stored e.jti e.exp e.reason now tid

/-- What a task has inserted since it opened its last transaction. -/
structure Inserted where
  metadata : List NewMetadata := []
  denylist : List NewEntry := []

/-- The inserts after one more event. -/
def Inserted.add (i : Inserted) : Event (jwtSig K) → Inserted
  | ⟨.begin, .ok ()⟩ => {}
  | ⟨.insertMetadata .tx row, .ok ()⟩ => { i with metadata := i.metadata ++ [row] }
  | ⟨.insertDenylist .tx jti exp reason, .ok n⟩ =>
      if n = 1 then { i with denylist := i.denylist ++ [⟨jti, exp, reason⟩] } else i
  | _ => i

/-- The inserts of a list of events. -/
def inserted (h : List (Event (jwtSig K))) : Inserted := h.foldl Inserted.add {}

/-- What a task has inserted so far, one event later. -/
theorem inserted_snoc (h : List (Event (jwtSig K))) (e : Event (jwtSig K)) :
    inserted (h ++ [e]) = (inserted h).add e := by
  simp [inserted, List.foldl_append]

/-- The rows of a transaction are the inserts of its task, in their order. -/
structure Holds (tid : Nat) (tx : Tx) (i : Inserted) : Prop where
  metadata : tx.metadata = i.metadata.map fun row => row.stored tx.startedAt tid
  denylist : tx.denylist = i.denylist.map fun e => e.stored tx.startedAt tid

/-- Every open transaction has the rows that its task has inserted since it began. -/
def Pending (s : Store) (hist : List (Nat × Event (jwtSig K))) : Prop :=
  ∀ tid tx, s.txOf tid = some tx → Holds tid tx (inserted (eventsOf hist tid))

/-- A call that leaves the transaction of the task alone adds no insert to it. -/
theorem inserted_add_same {signer : JwtSigner K} {tid : Nat} {s s' : Store} {o : Op}
    {r : Resp K o} (he : Store.Effect signer tid s o r s') {tx : Tx}
    (htx : s'.txOf tid = some tx) {i : Inserted}
    (h : ∀ tx₀, s.txOf tid = some tx₀ → Holds tid tx₀ i) :
    Holds tid tx (i.add (⟨o, r⟩ : Event (jwtSig K))) := by
  cases he with
  | now => exact h tx htx
  | newUuid u hfresh => exact h tx htx
  | sign c => exact h tx htx
  | selectDenylist jti => exact h tx htx
  | selectChain jti => exact h tx htx
  | query o r hq =>
      cases o with
      | selectDenylistEntry | selectExpiresAt | selectTokens | countTokens => exact h tx htx
      | _ => exact hq.elim
  | failed o r hf =>
      cases o with
      | selectDenylist | selectChain =>
          exact h tx htx
      | begin =>
          obtain ⟨e, rfl⟩ := hf
          exact h tx htx
      | insertMetadata conn row =>
          obtain ⟨e, rfl⟩ := hf
          cases conn <;> exact h tx htx
      | insertDenylist conn jti exp reason =>
          obtain ⟨e, rfl⟩ := hf
          cases conn <;> exact h tx htx
      | _ => exact hf.elim
  | begin hnone =>
      rw [Store.txOf_setTx_self] at htx
      cases htx
      exact ⟨rfl, rfl⟩
  | insertMetadata conn row tx₀ hown =>
      cases conn with
      | pool => exact h tx htx
      | tx =>
          obtain ⟨hm, hd⟩ := h tx₀ hown
          simp only [Store.write, Store.txOf_setTx_self, Option.some.injEq] at htx
          subst htx
          refine ⟨?_, hd⟩
          show tx₀.metadata ++ _ = List.map _ (i.metadata ++ [row])
          rw [hm, List.map_append]
          rfl
  | conflict conn jti exp reason tx₀ hown =>
      cases conn <;> exact h tx htx
  | insertDenylist conn jti exp reason tx₀ hown =>
      cases conn with
      | pool => exact h tx htx
      | tx =>
          obtain ⟨hm, hd⟩ := h tx₀ hown
          simp only [Store.write, Store.txOf_setTx_self, Option.some.injEq] at htx
          subst htx
          refine ⟨hm, ?_⟩
          show tx₀.denylist ++ _ = List.map _ (i.denylist ++ [⟨jti, exp, reason⟩])
          rw [hd, List.map_append]
          rfl
  | commit tx₀ => rw [Store.txOf_setTx_self] at htx; cases htx
  | commitFailed e => rw [Store.txOf_setTx_self] at htx; cases htx
  | rollback => rw [Store.txOf_setTx_self] at htx; cases htx

section Runs

variable {svc : JwtService K}
  {P : JwtPool svc → Label (jwtMachine svc.signer) (Request K) → Prop} {s₀ : Store}
  {c : JwtPool svc}

/-- The run lemma: an open transaction holds what its task has inserted since it began. -/
theorem pending (h₀ : s₀.Idle) (h : JwtReach svc P s₀ c) : Pending c.shared c.history := by
  refine store_invariant svc.program_spec (I := Pending) h ?_ ?_ ?_ ?_
  · intro tid tx htx
    rw [h₀.txOf] at htx
    cases htx
  · intro s hist tid o r s' req _ heff hp tid₁ tx htx
    by_cases heq : tid = tid₁
    · subst heq
      rw [eventsOf_append_self, inserted_snoc]
      exact inserted_add_same heff htx fun tx₀ htx₀ => hp tid tx₀ htx₀
    · rw [eventsOf_append_ne _ _ heq]
      rw [heff.txOf_other (Ne.symm heq)] at htx
      exact hp tid₁ tx htx
  · intro s hist tid hp tid₁ tx htx
    exact hp tid₁ tx (Store.txOf_of_close htx).2
  · intro s hist t hp
    exact hp

end Runs

/-! ### One step -/

/-- A read of one id is one look. -/
theorem look_legal (s : Store) (jti : Uuid) :
    tokenLedger.Legal s.ledger [⟨.look jti, s.denied jti⟩] s.ledger := by
  refine Object.Legal.one ?_
  show (s.ledger.entries.lookup jti, s.ledger) = (s.denied jti, s.ledger)
  rw [s.lookup_ledger jti]

/-- A read of the metadata is one look at all rows. -/
theorem rows_legal (s : Store) :
    tokenLedger.Legal s.ledger [⟨.rows, s.metadata⟩] s.ledger :=
  Object.Legal.one rfl

/-- A metadata row that is stored is one issue. -/
theorem issue_legal (s : Store) (start : DateTime) (row : MetadataRow) :
    tokenLedger.Legal s.ledger [⟨.issue row, ()⟩] (s.apply ⟨start, [row], []⟩).ledger := by
  refine Object.Legal.one ?_
  show ((), s.ledger.issue row) = ((), (s.apply ⟨start, [row], []⟩).ledger)
  simp [Store.ledger, Ledger.issue]

/-- An insert of a new jti is one entry. -/
theorem enter_legal (s : Store) (start : DateTime) (row : DenylistRow)
    (hfree : s.denied row.jwtUuid = none) :
    tokenLedger.Legal s.ledger [⟨.enter row.jwtUuid row, true⟩]
      (s.apply ⟨start, [], [row]⟩).ledger := by
  refine Object.Legal.one ?_
  show s.ledger.enter row.jwtUuid row = (true, (s.apply ⟨start, [], [row]⟩).ledger)
  rw [Ledger.enter_new (by rw [s.lookup_ledger]; exact hfree)]
  simp [Store.ledger]

/-- An insert of a known jti is an entry that changes nothing. -/
theorem enter_old_legal (s : Store) {jti : Uuid} {old : DenylistRow}
    (hold : s.denied jti = some old) (row : DenylistRow) :
    tokenLedger.Legal s.ledger [⟨.enter jti row, false⟩] s.ledger := by
  refine Object.Legal.one ?_
  show s.ledger.enter jti row = (false, s.ledger)
  exact Ledger.enter_old (by rw [s.lookup_ledger]; exact hold) row

/-- The commit of a transaction with one row in each table is one replacement. -/
theorem replace_legal (s : Store) (start : DateTime) (row : MetadataRow) (entry : DenylistRow)
    (hfree : s.denied entry.jwtUuid = none) :
    tokenLedger.Legal s.ledger [⟨.replace row entry.jwtUuid entry, true⟩]
      (s.apply ⟨start, [row], [entry]⟩).ledger := by
  refine Object.Legal.one ?_
  show ((s.ledger.enter entry.jwtUuid entry).1, (s.ledger.enter entry.jwtUuid entry).2.issue row)
    = (true, (s.apply ⟨start, [row], [entry]⟩).ledger)
  rw [Ledger.enter_new (by rw [s.lookup_ledger]; exact hfree)]
  simp [Store.ledger, Ledger.issue]

/-- So is the commit of one whose jti was there before. It has no denylist row of its own. -/
theorem replace_old_legal (s : Store) (start : DateTime) (row : MetadataRow) {jti : Uuid}
    {old : DenylistRow} (hold : s.denied jti = some old) (entry : DenylistRow) :
    tokenLedger.Legal s.ledger [⟨.replace row jti entry, false⟩]
      (s.apply ⟨start, [row], []⟩).ledger := by
  refine Object.Legal.one ?_
  show ((s.ledger.enter jti entry).1, (s.ledger.enter jti entry).2.issue row)
    = (false, (s.apply ⟨start, [row], []⟩).ledger)
  rw [Ledger.enter_old (by rw [s.lookup_ledger]; exact hold)]
  simp [Store.ledger, Ledger.issue]

/-- The ledger does not depend on the open transactions. -/
@[simp] theorem ledger_setTx (s : Store) (tid : Nat) (tx : Option Tx) :
    (s.setTx tid tx).ledger = s.ledger := by
  simp [Store.ledger]

/-- What the runs keep, as far as one step needs it. -/
structure Bookkeeping (s : Store) (hist : List (Nat × Event (jwtSig K))) : Prop where
  keys : DenylistKeys s
  pending : Pending s hist
  landed : LandedAll s hist

/-- At its commit, the transaction of an extension has the row of the new token, and the row of
the old jti unless it was denylisted before. -/
theorem Bookkeeping.tx {s : Store} {hist : List (Nat × Event (jwtSig K))}
    (hb : Bookkeeping s hist) {tid : Nat} {tx : Tx} (htx : s.txOf tid = some tx)
    {svc : JwtService K} {x : JwtService.Extended K}
    (hevents : eventsOf hist tid = x.denylistEvents svc) :
    tx.metadata = [(x.row svc).stored tx.startedAt tid]
      ∧ (x.rows = 1 → tx.denylist
          = [.stored x.oldJti x.oldExp (some JwtService.supersededReason)
              tx.startedAt tid])
      ∧ (x.rows ≠ 1 → tx.denylist = [] ∧ ∃ old, s.denied x.oldJti = some old) := by
  obtain ⟨hm, hd⟩ := hb.pending tid tx htx
  have hbefore : inserted (x.metadataEvents svc) = ⟨[x.row svc], []⟩ := rfl
  have hall : inserted (eventsOf hist tid) = if x.rows = 1 then
      ⟨[x.row svc], [⟨x.oldJti, x.oldExp, some JwtService.supersededReason⟩]⟩
      else ⟨[x.row svc], []⟩ := by
    rw [hevents, JwtService.Extended.denylistEvents, inserted_snoc, hbefore]
    rfl
  rw [hall] at hm hd
  by_cases h1 : x.rows = 1
  · rw [if_pos h1] at hm hd
    exact ⟨hm, fun _ => hd, fun hne => absurd h1 hne⟩
  · rw [if_neg h1] at hm hd
    refine ⟨hm, fun heq => absurd heq h1, fun _ => ⟨hd, ?_⟩⟩
    -- The insert has met a committed row, and that is still there.
    have hmem : (⟨Op.insertDenylist .tx x.oldJti x.oldExp (some JwtService.supersededReason),
        Except.ok x.rows⟩ : Event (jwtSig K)) ∈ eventsOf hist tid := by
      rw [hevents, JwtService.Extended.denylistEvents]
      simp
    obtain ⟨old, hold, hkey, -⟩ := ((hb.landed tid _ hmem).2 rfl).1 tx htx
    rw [hd] at hold
    have hsome := Store.denied_isSome.mpr ⟨old, by simpa using hold, hkey⟩
    exact Option.isSome_iff_exists.mp hsome

/-- A statement on the pool commits by itself. -/
theorem insertMetadata_pool {signer : JwtSigner K} {tid : Nat} {s s' : Store} {row : NewMetadata}
    {h : List (Event (jwtSig K))} {r : Sql Unit}
    (he : Store.Effect signer tid s (.insertMetadata .pool row) r s') :
    ∃ es, ledgerPoint h (⟨.insertMetadata .pool row, r⟩ : Event (jwtSig K)) es
      ∧ tokenLedger.Legal s.ledger es s'.ledger := by
  rcases he.insertMetadata_inv with ⟨⟨e, rfl⟩, rfl⟩ | ⟨rfl, tx, hown, rfl⟩
  · exact ⟨[], rfl, .nil⟩
  · cases hown
    exact ⟨_, ⟨s.clock, tid, rfl⟩, issue_legal s s.clock _⟩

/-- So does an insert into the denylist. -/
theorem insertDenylist_pool {signer : JwtSigner K} {tid : Nat} {s s' : Store} {jti : Uuid}
    {exp : DateTime} {reason : Option String} {h : List (Event (jwtSig K))} {r : Sql Nat}
    (he : Store.Effect signer tid s (.insertDenylist .pool jti exp reason) r s') :
    ∃ es, ledgerPoint h (⟨.insertDenylist .pool jti exp reason, r⟩ : Event (jwtSig K)) es
      ∧ tokenLedger.Legal s.ledger es s'.ledger := by
  rcases he.insertDenylist_inv with
    ⟨⟨e, rfl⟩, rfl⟩ | ⟨rfl, rfl, tx, hown, q, hq, hkey⟩ | ⟨rfl, tx, hown, hfree, rfl⟩
  · exact ⟨[], rfl, .nil⟩
  · cases hown
    rw [List.append_nil] at hq
    obtain ⟨old, hold⟩ := Option.isSome_iff_exists.mp (Store.denied_isSome.mpr ⟨q, hq, hkey⟩)
    exact ⟨_, ⟨s'.clock, tid, rfl⟩, enter_old_legal s' hold _⟩
  · cases hown
    rw [List.append_nil] at hfree
    have hnone : s.denied jti = none := Store.denied_eq_none.mpr hfree
    exact ⟨_, ⟨s.clock, tid, rfl⟩, enter_legal s s.clock
      (.stored jti exp reason s.clock tid) hnone⟩

/-- A statement inside a transaction does not show in the ledger. -/
theorem tx_silent {signer : JwtSigner K} {tid : Nat} {s s' : Store} {o : Op} {r : Resp K o}
    (he : Store.Effect signer tid s o r s')
    (hconn : connOf (⟨o, r⟩ : Event (jwtSig K)) = some .tx) : s'.ledger = s.ledger := by
  cases he with
  | insertMetadata conn row tx =>
      cases conn with
      | pool => cases hconn
      | tx => exact ledger_setTx s tid _
  | insertDenylist conn jti exp reason tx =>
      cases conn with
      | pool => cases hconn
      | tx => exact ledger_setTx s tid _
  | conflict => rfl
  | failed => rfl
  | query => rfl
  | _ => cases hconn

/-- The commit of an extension. -/
theorem commit_explained {signer : JwtSigner K} {tid : Nat} {s s' : Store}
    {hist : List (Nat × Event (jwtSig K))} {r : Sql Unit} (hb : Bookkeeping s hist)
    {svc : JwtService K} {x : JwtService.Extended K}
    (hevents : eventsOf hist tid = x.denylistEvents svc)
    (he : Store.Effect signer tid s .commit r s') :
    ∃ es, ledgerPoint (eventsOf hist tid) (⟨.commit, r⟩ : Event (jwtSig K)) es
      ∧ tokenLedger.Legal s.ledger es s'.ledger := by
  cases he with
  | query o r hq => exact hq.elim
  | failed o r hf => exact hf.elim
  | commitFailed e =>
      refine ⟨[], rfl, ?_⟩
      rw [ledger_setTx]
      exact .nil
  | commit tx htx =>
      obtain ⟨hmeta, hnew, hold⟩ := hb.tx htx hevents
      have hpoint : ∀ es, es = [(⟨.replace ((x.row svc).stored tx.startedAt tid) x.oldJti
          (.stored x.oldJti x.oldExp (some JwtService.supersededReason) tx.startedAt tid),
          decide (x.rows = 1)⟩ : TokenCall)] →
          ledgerPoint (eventsOf hist tid) (⟨.commit, .ok ()⟩ : Event (jwtSig K)) es := by
        intro es hes
        refine ⟨x.beginEvents svc, x.row svc, x.oldJti, x.oldExp,
          some JwtService.supersededReason, x.rows, tx.startedAt, tid, ?_, hes⟩
        rw [hevents]
        rfl
      rw [ledger_setTx]
      have htx' : tx = ⟨tx.startedAt, tx.metadata, tx.denylist⟩ := rfl
      by_cases h1 : x.rows = 1
      · refine ⟨_, hpoint _ rfl, ?_⟩
        rw [htx', hmeta, hnew h1, h1]
        refine replace_legal s tx.startedAt _ (.stored x.oldJti x.oldExp
          (some JwtService.supersededReason) tx.startedAt tid) ?_
        -- The rows of a transaction are apart from the committed ones.
        refine Store.denied_eq_none.mpr fun q hq heq => ?_
        have hmem : DenylistRow.stored x.oldJti x.oldExp (some JwtService.supersededReason)
            tx.startedAt tid ∈ tx.denylist := by simp [hnew h1]
        exact hb.keys.apart tid tx htx _ hmem q hq heq.symm
      · obtain ⟨hnone, old, hdenied⟩ := hold h1
        refine ⟨_, hpoint _ rfl, ?_⟩
        rw [htx', hmeta, hnone, decide_eq_false h1]
        exact replace_old_legal s tx.startedAt _ hdenied _

/-- The rows that the list query returns are a page of the table. -/
theorem pageOf_selectTokens {s : Store} {subject : String} {filter : ListFilter}
    {limit offset : Int64} {order page : List MetadataRow}
    (h : s.selectTokens subject filter limit offset order = some (.ok page)) :
    PageOf s.metadata subject filter limit offset page := by
  unfold Store.selectTokens at h
  split at h
  · cases h
  · split at h
    · rename_i horder
      cases h
      exact ⟨order, List.isPerm_iff.mp horder.1, horder.2, rfl⟩
    · cases h

/-- One call of a request moves the ledger as the calls that it contributes do. -/
theorem step_explained {svc : JwtService K} {s s' : Store}
    {hist : List (Nat × Event (jwtSig K))} {tid : Nat} {req : Request K} {o : Op} {ch : Choice}
    {r : Resp K o} (hb : Bookkeeping s hist) (hcall : svc.Call req (eventsOf hist tid) o)
    (hexec : s.exec svc.signer tid o ch = some (r, s')) :
    ∃ es, ledgerPoint (eventsOf hist tid) (⟨o, r⟩ : Event (jwtSig K)) es
      ∧ tokenLedger.Legal s.ledger es s'.ledger := by
  have heff := Store.exec_effect hexec
  cases o with
  | now =>
      cases ch <;> cases hexec
      exact ⟨[], rfl, .nil⟩
  | newUuid =>
      have hsame : s'.ledger = s.ledger := by
        cases heff with
        | newUuid => rfl
        | query o r hq => rfl
        | failed o r hf => rfl
      exact ⟨[], rfl, by rw [hsame]; exact .nil⟩
  | sign c =>
      cases ch <;> cases hexec
      exact ⟨[], rfl, .nil⟩
  | selectDenylist jti =>
      obtain ⟨rfl, rfl | ⟨e, rfl⟩⟩ := Store.select_cases hexec
      · exact ⟨_, ⟨s'.denied jti, rfl, rfl⟩, look_legal s' jti⟩
      · exact ⟨[], rfl, .nil⟩
  | selectDenylistEntry jti =>
      obtain ⟨rfl, rfl | ⟨e, rfl⟩⟩ := Store.select_cases hexec
      · exact ⟨_, ⟨s'.denied jti, rfl, rfl⟩, look_legal s' jti⟩
      · exact ⟨[], rfl, .nil⟩
  | selectExpiresAt jti =>
      obtain ⟨rfl, rfl | ⟨e, rfl⟩⟩ := Store.select_cases hexec
      · exact ⟨_, ⟨s'.metadata, rfl, rfl⟩, rows_legal s'⟩
      · exact ⟨[], rfl, .nil⟩
  | selectChain jti =>
      obtain ⟨rfl, rfl | ⟨e, rfl⟩⟩ := Store.select_cases hexec
      · exact ⟨_, ⟨s'.metadata, rfl, rfl⟩, rows_legal s'⟩
      · exact ⟨[], rfl, .nil⟩
  | countTokens subject filter =>
      obtain ⟨rfl, rfl | ⟨e, rfl⟩⟩ := Store.select_cases hexec
      · exact ⟨_, ⟨s'.metadata, rfl, rfl⟩, rows_legal s'⟩
      · exact ⟨[], rfl, .nil⟩
  | selectTokens subject filter limit offset =>
      cases ch with
      | order rows =>
          obtain ⟨page, hsel, heq⟩ := Option.map_eq_some_iff.mp hexec
          cases heq
          cases r with
          | ok page => exact ⟨_, ⟨s.metadata, pageOf_selectTokens hsel, rfl⟩, rows_legal s⟩
          | error e => exact ⟨[], rfl, .nil⟩
      | fail e =>
          cases hexec
          exact ⟨[], rfl, .nil⟩
      | _ => cases hexec
  | begin =>
      have hsame : s'.ledger = s.ledger := by
        cases heff with
        | begin => exact ledger_setTx s tid _
        | query o r hq => rfl
        | failed o r hf => rfl
      exact ⟨[], rfl, by rw [hsame]; exact .nil⟩
  | insertMetadata conn row =>
      cases conn with
      | pool => exact insertMetadata_pool heff
      | tx => exact ⟨[], rfl, by rw [tx_silent heff rfl]; exact .nil⟩
  | insertDenylist conn jti exp reason =>
      cases conn with
      | pool => exact insertDenylist_pool heff
      | tx => exact ⟨[], rfl, by rw [tx_silent heff rfl]; exact .nil⟩
  | commit =>
      -- Only an extension commits, and its calls so far are known.
      cases req with
      | extend req =>
          obtain ⟨x, -, hevents⟩ := hcall
          exact commit_explained hb hevents heff
      | _ => exact hcall.elim
  | rollback =>
      cases ch <;> cases hexec
      exact ⟨[], rfl, by rw [ledger_setTx]; exact .nil⟩

section Runs

variable {svc : JwtService K}
  {P : JwtPool svc → Label (jwtMachine svc.signer) (Request K) → Prop} {s₀ : Store}
  {c : JwtPool svc}

/-- The run lemma for the whole store: its rows are those that the history accounts for. -/
theorem bookkeeping (h₀ : s₀.Idle) (h : JwtReach svc P s₀ c) :
    Bookkeeping c.shared c.history :=
  ⟨denylist_keys h₀ h, pending h₀ h, landed h⟩

/-- Every run is explained by the ledger. -/
theorem explained (h₀ : s₀.Idle) (h : JwtReach svc P s₀ c) :
    ∃ calls, Explains ledgerPoint c.history calls
      ∧ tokenLedger.Legal s₀.ledger (calls.map Prod.snd) c.shared.ledger := by
  refine h.explained (O := tokenLedger) Store.ledger Bookkeeping svc.program_spec
    (fun c hc => bookkeeping h₀ hc) ?_ ?_ ?_
  · intro s hist tid req o ch r s' hb hcall hexec
    exact step_explained hb hcall hexec
  · intro tid s
    exact ledger_setTx s tid none
  · intro s t s' henv
    simp only [jwtMachine, Store.tick] at henv
    split at henv
    · cases henv
      rfl
    · cases henv

end Runs

end Tim
