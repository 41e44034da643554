import Mathlib.Data.List.Nodup
import Tim.Proofs.Trace

/-!
# `Tim.Proofs.Runs`: invariants of every run of the token service

What holds of the store and the history after any interleaving of requests.

* `tables_grow`: rows are only ever added.
* `denylist_keys`: a jti has at most one denylist row, the rows of open transactions
  included.
* `landed`: an insert that was answered with success has its row in the table, at once on the
  pool and from the commit on in a transaction.
* `metadata_origin`, `denylist_origin`: every row comes from such an insert.
* `uuid_fresh`, `signed_origin`, `chain_read`: the same for the UUIDs, the signatures and the
  chain queries.

Each of them is proved by the cases of `Store.Effect`.
-/

set_option autoImplicit false

namespace Tim

open Tim.Lib

variable {K : Crates}

/-! ### Tables only grow -/

/-- What the committed tables have, they keep. -/
structure Store.Grows (s s' : Store) : Prop where
  metadata : s.metadata <+: s'.metadata
  denylist : s.denylist <+: s'.denylist

/-- A store grows into itself. -/
theorem Store.Grows.rfl {s : Store} : s.Grows s := ⟨List.prefix_rfl, List.prefix_rfl⟩

/-- Two steps of growth. -/
theorem Store.Grows.trans {s₁ s₂ s₃ : Store} (h₁ : s₁.Grows s₂) (h₂ : s₂.Grows s₃) :
    s₁.Grows s₃ :=
  ⟨h₁.metadata.trans h₂.metadata, h₁.denylist.trans h₂.denylist⟩

/-- The tables do not depend on the open transactions. -/
theorem Store.grows_setTx (s : Store) (tid : Nat) (tx : Option Tx) : s.Grows (s.setTx tid tx) :=
  ⟨by simp, by simp⟩

/-- A commit puts the rows of the transaction behind those of the tables. -/
theorem Store.grows_apply (s : Store) (tx : Tx) : s.Grows (s.apply tx) :=
  ⟨List.prefix_append _ _, List.prefix_append _ _⟩

/-- A statement outside a transaction puts its row behind those of the table, and one inside leaves
the tables as they are. -/
theorem Store.grows_write (s : Store) (tid : Nat) (tx : Tx) (conn : Conn) :
    s.Grows (s.write tid tx conn) := by
  cases conn with
  | pool => exact s.grows_apply tx
  | tx => exact s.grows_setTx tid (some tx)

/-- No call of the machine takes a row away. -/
theorem Store.Effect.grows {signer : JwtSigner K} {tid : Nat} {s s' : Store} {o : Op}
    {r : Resp K o} (h : Effect signer tid s o r s') : s.Grows s' := by
  cases h with
  | insertMetadata conn row tx => exact s.grows_write tid _ conn
  | insertDenylist conn jti exp reason tx => exact s.grows_write tid _ conn
  | begin => exact s.grows_setTx tid _
  | commit tx htx => exact (s.grows_apply tx).trans (Store.grows_setTx _ tid none)
  | commitFailed => exact s.grows_setTx tid none
  | rollback => exact s.grows_setTx tid none
  | newUuid | sign => exact ⟨List.prefix_rfl, List.prefix_rfl⟩
  | now | selectDenylist | selectChain | query | failed | conflict => exact Store.Grows.rfl

/-- One step only adds rows. -/
theorem grows_of_next {svc : JwtService K} {c c' : JwtPool svc}
    {l : Label (jwtMachine svc.signer) (Request K)} (hn : Pool.Next svc.program c l c') :
    Store.Grows c.shared c'.shared := by
  cases hn with
  | spawn req => exact Store.Grows.rfl
  | step tid ch req o k r s htask hexec => exact (Store.exec_effect hexec).grows
  | cancel tid req o k htask => exact Store.grows_setTx _ tid none
  | env t s henv =>
      simp only [jwtMachine, Store.tick] at henv
      split at henv
      · cases henv
        exact ⟨List.prefix_rfl, List.prefix_rfl⟩
      · cases henv

/-- Rows are only ever added. -/
theorem tables_grow {svc : JwtService K}
    {P : JwtPool svc → Label (jwtMachine svc.signer) (Request K) → Prop} {c c' : JwtPool svc}
    (h : Pool.Reach svc.program P c c') : Store.Grows c.shared c'.shared :=
  h.invariant (I := fun c' => Store.Grows c.shared c'.shared) Store.Grows.rfl
    fun _ _ _ _ _ hn hg => hg.trans (grows_of_next hn)

/-! ### Events -/

/-- A call leaves the transactions of the other tasks alone. -/
theorem Store.Effect.txOf_other {signer : JwtSigner K} {tid tid' : Nat} {s s' : Store} {o : Op}
    {r : Resp K o} (h : Effect signer tid s o r s') (hne : tid' ≠ tid) :
    s'.txOf tid' = s.txOf tid' := by
  have hset : ∀ (s₁ : Store) tx, (s₁.setTx tid tx).txOf tid' = s₁.txOf tid' :=
    fun s₁ tx => Store.txOf_setTx_ne s₁ tx (Ne.symm hne)
  cases h with
  | now | selectDenylist | selectChain | query | failed | conflict | newUuid | sign => rfl
  | begin | commitFailed | rollback => exact hset s _
  | commit tx htx => exact hset (s.apply tx) none
  | insertMetadata conn row tx | insertDenylist conn jti exp reason tx =>
      cases conn with
      | pool => rfl
      | tx => exact hset s _

/-- The open transaction of the calling task is new, or it has the rows it had before. -/
theorem Store.Effect.txOf_own {signer : JwtSigner K} {tid : Nat} {s s' : Store} {o : Op}
    {r : Resp K o} (h : Effect signer tid s o r s') {tx' : Tx} (htx' : s'.txOf tid = some tx') :
    o = .begin ∨ ∃ tx, s.txOf tid = some tx ∧ (∀ r ∈ tx.metadata, r ∈ tx'.metadata)
      ∧ ∀ r ∈ tx.denylist, r ∈ tx'.denylist := by
  have hsame : ∀ {s₁ : Store}, s₁.txOf tid = some tx' → s₁.txOf tid = s.txOf tid →
      ∃ tx, s.txOf tid = some tx ∧ (∀ r ∈ tx.metadata, r ∈ tx'.metadata)
        ∧ ∀ r ∈ tx.denylist, r ∈ tx'.denylist :=
    fun h₁ h₂ => ⟨tx', h₂ ▸ h₁, fun _ hr => hr, fun _ hr => hr⟩
  cases h with
  | now | selectDenylist | selectChain | query | failed | conflict | newUuid | sign =>
      exact .inr (hsame htx' rfl)
  | begin => exact .inl rfl
  | commitFailed | rollback | commit =>
      rw [Store.txOf_setTx_self] at htx'
      cases htx'
  | insertMetadata conn row tx hown =>
      cases conn with
      | pool => exact .inr (hsame htx' rfl)
      | tx =>
          right
          simp only [Store.write, Store.txOf_setTx_self, Option.some.injEq] at htx'
          subst htx'
          exact ⟨tx, hown, fun _ hr => List.mem_append_left _ hr, fun _ hr => hr⟩
  | insertDenylist conn jti exp reason tx hown =>
      cases conn with
      | pool => exact .inr (hsame htx' rfl)
      | tx =>
          right
          simp only [Store.write, Store.txOf_setTx_self, Option.some.injEq] at htx'
          subst htx'
          exact ⟨tx, hown, fun _ hr => hr, fun _ hr => List.mem_append_left _ hr⟩

/-- Where an insert ran. -/
def connOf : Event (jwtSig K) → Option Conn
  | ⟨.insertMetadata conn _, _⟩ => some conn
  | ⟨.insertDenylist conn .., _⟩ => some conn
  | _ => none

/-- The event is a successful commit. -/
def isCommit : Event (jwtSig K) → Bool
  | ⟨.commit, .ok ()⟩ => true
  | _ => false

/-- The transaction of the task is committed. -/
def Committed (hist : List (Nat × Event (jwtSig K))) (tid : Nat) : Prop :=
  ∃ e ∈ eventsOf hist tid, isCommit e = true

/-- A commit that is new in the history is the last event. -/
theorem committed_append {hist : List (Nat × Event (jwtSig K))} {tid tid' : Nat}
    {e : Event (jwtSig K)} (h : Committed (hist ++ [(tid', e)]) tid) :
    Committed hist tid ∨ tid = tid' ∧ isCommit e = true := by
  obtain ⟨e', he', hc⟩ := h
  by_cases heq : tid' = tid
  · subst heq
    rw [eventsOf_append_self] at he'
    rcases List.mem_append.mp he' with he' | he'
    · exact .inl ⟨e', he', hc⟩
    · rw [List.mem_singleton.mp he'] at hc
      exact .inr ⟨rfl, hc⟩
  · rw [eventsOf_append_ne _ _ heq] at he'
    exact .inl ⟨e', he', hc⟩

/-- A commit stays in the history. -/
theorem Committed.append {hist : List (Nat × Event (jwtSig K))} {tid : Nat}
    (h : Committed hist tid) (e : Nat × Event (jwtSig K)) : Committed (hist ++ [e]) tid := by
  obtain ⟨e', he', hc⟩ := h
  refine ⟨e', ?_, hc⟩
  rw [eventsOf_append]
  exact List.mem_append_left _ he'

namespace JwtService

variable {svc : JwtService K} {req : Request K} {h : List (Event (jwtSig K))}

/-- Before `begin` a task has inserted nothing. -/
theorem Call.begin (hc : svc.Call req h .begin) : ∀ e ∈ h, connOf e = none := by
  cases req with
  | extend req =>
      obtain ⟨x, -, rfl⟩ := hc
      intro e he
      simp only [Extended.signEvents, Source.events, Source.reads, List.cons_append,
        List.nil_append, List.mem_cons, List.not_mem_nil, or_false] at he
      rcases he with rfl | rfl | rfl | rfl | rfl | rfl <;> rfl
  | _ => exact hc.elim

/-- Before an insert in the transaction a task has not committed. -/
theorem Call.insert_tx {e : Event (jwtSig K)} (hc : svc.Call req h e.op)
    (he : connOf e = some .tx) : h.any isCommit = false := by
  obtain ⟨o, r⟩ := e
  cases req with
  | extend req =>
      cases o with
      | insertMetadata conn row =>
          obtain ⟨x, -, rfl, -⟩ := hc
          rfl
      | insertDenylist conn jti exp reason =>
          obtain ⟨x, -, rfl, -⟩ := hc
          rfl
      | _ => cases he
  | generate req =>
      cases o with
      | insertMetadata conn row =>
          obtain ⟨g, -, -, rfl, -⟩ := hc
          cases he
      | insertDenylist conn jti exp reason => exact hc.elim
      | _ => cases he
  | _ =>
      cases o with
      | insertMetadata conn row => exact hc.elim
      | insertDenylist conn jti exp reason =>
          cases hc <;> cases he
      | _ => cases he

end JwtService

/-! ### The denylist has unique keys -/

/-- The store with no open transaction and with the primary keys of its tables. -/
structure Store.Idle (s : Store) : Prop where
  noTx : s.txs = ∅
  denylist : (s.denylist.map DenylistRow.jwtUuid).Nodup
  metadata : (s.metadata.map fun r => r.id).Nodup

/-- An idle store has no transaction of any task. -/
theorem Store.Idle.txOf {s : Store} (h : s.Idle) (tid : Nat) : s.txOf tid = none := by
  rw [Store.txOf, h.noTx]
  rfl

/-- A jti has at most one row among the committed ones and those of all open transactions. -/
structure DenylistKeys (s : Store) : Prop where
  committed : (s.denylist.map DenylistRow.jwtUuid).Nodup
  inTx : ∀ tid tx, s.txOf tid = some tx → (tx.denylist.map DenylistRow.jwtUuid).Nodup
  apart : ∀ tid tx, s.txOf tid = some tx →
    ∀ r ∈ tx.denylist, ∀ q ∈ s.denylist, r.jwtUuid ≠ q.jwtUuid
  txApart : ∀ tid tid' tx tx', tid ≠ tid' → s.txOf tid = some tx → s.txOf tid' = some tx' →
    ∀ r ∈ tx.denylist, ∀ q ∈ tx'.denylist, r.jwtUuid ≠ q.jwtUuid

/-- Distinct keys stay distinct when two lists without a common key are joined. -/
theorem nodup_keys_append {α β : Type} {f : α → β} {l l' : List α} (hl : (l.map f).Nodup)
    (hl' : (l'.map f).Nodup) (hne : ∀ a ∈ l, ∀ b ∈ l', f a ≠ f b) :
    ((l ++ l').map f).Nodup := by
  rw [List.map_append, List.nodup_append]
  refine ⟨hl, hl', ?_⟩
  intro k hk k' hk'
  obtain ⟨a, ha, rfl⟩ := List.mem_map.mp hk
  obtain ⟨b, hb, rfl⟩ := List.mem_map.mp hk'
  exact hne a ha b hb

/-- The same for one element with a new key. -/
theorem nodup_keys_snoc {α β : Type} {f : α → β} {l : List α} {b : α} (hl : (l.map f).Nodup)
    (hne : ∀ a ∈ l, f a ≠ f b) : ((l ++ [b]).map f).Nodup := by
  refine nodup_keys_append hl (by simp) ?_
  intro a ha b' hb'
  rw [List.mem_singleton.mp hb']
  exact hne a ha

namespace DenylistKeys

variable {s : Store}

/-- Only the denylist rows and the open transactions matter. -/
theorem of_eq {s' : Store} (h : DenylistKeys s) (hd : s'.denylist = s.denylist)
    (ht : ∀ tid, s'.txOf tid = s.txOf tid) : DenylistKeys s' := by
  constructor
  · rw [hd]
    exact h.committed
  · intro tid tx htx
    rw [ht] at htx
    exact h.inTx tid tx htx
  · intro tid tx htx
    rw [ht] at htx
    rw [hd]
    exact h.apart tid tx htx
  · intro tid tid' tx tx' hne htx htx'
    rw [ht] at htx htx'
    exact h.txApart tid tid' tx tx' hne htx htx'

/-- The end of a transaction brings no jti twice. -/
theorem close (h : DenylistKeys s) (tid : Nat) : DenylistKeys (s.setTx tid none) := by
  constructor
  · simpa using h.committed
  · intro tid' tx htx
    exact h.inTx tid' tx (Store.txOf_of_close htx).2
  · intro tid' tx htx
    rw [Store.denylist_setTx]
    exact h.apart tid' tx (Store.txOf_of_close htx).2
  · intro tid₁ tid₂ tx₁ tx₂ hne h₁ h₂
    exact h.txApart tid₁ tid₂ tx₁ tx₂ hne (Store.txOf_of_close h₁).2 (Store.txOf_of_close h₂).2

/-- The open transaction of a task is replaced by one with rows of its own. -/
theorem setTx (h : DenylistKeys s) (tid : Nat) (tx : Tx)
    (hin : (tx.denylist.map DenylistRow.jwtUuid).Nodup)
    (hapart : ∀ r ∈ tx.denylist, ∀ q ∈ s.denylist, r.jwtUuid ≠ q.jwtUuid)
    (htx : ∀ tid' tx', tid' ≠ tid → s.txOf tid' = some tx' →
      ∀ r ∈ tx.denylist, ∀ q ∈ tx'.denylist, r.jwtUuid ≠ q.jwtUuid) :
    DenylistKeys (s.setTx tid (some tx)) := by
  -- A transaction is the new one, or it is one that another task had before.
  have hcases : ∀ tid' tx', (s.setTx tid (some tx)).txOf tid' = some tx' →
      tid' = tid ∧ tx' = tx ∨ tid' ≠ tid ∧ s.txOf tid' = some tx' := by
    intro tid' tx' hget
    by_cases heq : tid = tid'
    · subst heq
      rw [Store.txOf_setTx_self] at hget
      cases hget
      exact .inl ⟨rfl, rfl⟩
    · rw [Store.txOf_setTx_ne s _ heq] at hget
      exact .inr ⟨Ne.symm heq, hget⟩
  constructor
  · simpa using h.committed
  · intro tid' tx' hget
    rcases hcases tid' tx' hget with ⟨-, rfl⟩ | ⟨-, hold⟩
    · exact hin
    · exact h.inTx tid' tx' hold
  · intro tid' tx' hget
    rw [Store.denylist_setTx]
    rcases hcases tid' tx' hget with ⟨-, rfl⟩ | ⟨-, hold⟩
    · exact hapart
    · exact h.apart tid' tx' hold
  · intro tid₁ tid₂ tx₁ tx₂ hne h₁ h₂
    rcases hcases tid₁ tx₁ h₁ with ⟨rfl, rfl⟩ | ⟨hne₁, hold₁⟩
    · rcases hcases tid₂ tx₂ h₂ with ⟨rfl, rfl⟩ | ⟨hne₂, hold₂⟩
      · exact absurd rfl hne
      · exact htx tid₂ tx₂ hne₂ hold₂
    · rcases hcases tid₂ tx₂ h₂ with ⟨rfl, rfl⟩ | ⟨-, hold₂⟩
      · intro r hr q hq
        exact (htx tid₁ tx₁ hne₁ hold₁ q hq r hr).symm
      · exact h.txApart tid₁ tid₂ tx₁ tx₂ hne hold₁ hold₂

/-- The rows of a transaction are committed while no other transaction has one of their
keys. -/
theorem apply (h : DenylistKeys s) (tid : Nat) (tx : Tx)
    (hin : (tx.denylist.map DenylistRow.jwtUuid).Nodup)
    (hapart : ∀ r ∈ tx.denylist, ∀ q ∈ s.denylist, r.jwtUuid ≠ q.jwtUuid)
    (htx : ∀ tid' tx', tid' ≠ tid → s.txOf tid' = some tx' →
      ∀ r ∈ tx.denylist, ∀ q ∈ tx'.denylist, r.jwtUuid ≠ q.jwtUuid) :
    DenylistKeys ((s.apply tx).setTx tid none) := by
  constructor
  · rw [Store.denylist_setTx, Store.denylist_apply]
    exact nodup_keys_append h.committed hin fun q hq r hr => (hapart r hr q hq).symm
  · intro tid' tx' hget
    exact h.inTx tid' tx' (Store.txOf_of_close hget).2
  · intro tid' tx' hget
    obtain ⟨hne, hold⟩ := Store.txOf_of_close hget
    rw [Store.denylist_setTx, Store.denylist_apply]
    intro r hr q hq
    rcases List.mem_append.mp hq with hq | hq
    · exact h.apart tid' tx' hold r hr q hq
    · exact (htx tid' tx' (Ne.symm hne) hold q hq r hr).symm
  · intro tid₁ tid₂ tx₁ tx₂ hne h₁ h₂
    exact h.txApart tid₁ tid₂ tx₁ tx₂ hne (Store.txOf_of_close h₁).2 (Store.txOf_of_close h₂).2

/-- A row with a free key is added to the transaction of a task, or committed. -/
theorem write (h : DenylistKeys s) {tid : Nat} {conn : Conn} {tx : Tx} {new : DenylistRow}
    (hown : s.ownTx tid conn = some tx)
    (hfree : ∀ r ∈ s.denylist ++ tx.denylist, r.jwtUuid ≠ new.jwtUuid)
    (hother : ∀ tid' tx', conn = .pool ∨ tid' ≠ tid → s.txOf tid' = some tx' →
      ∀ r ∈ tx'.denylist, r.jwtUuid ≠ new.jwtUuid) :
    DenylistKeys (s.write tid { tx with denylist := tx.denylist ++ [new] } conn) := by
  have hcommitted : ∀ q ∈ s.denylist, new.jwtUuid ≠ q.jwtUuid :=
    fun q hq => (hfree q (List.mem_append_left _ hq)).symm
  cases conn with
  | tx =>
      have htx : s.txOf tid = some tx := hown
      refine h.setTx tid _ ?_ ?_ ?_
      · exact nodup_keys_snoc (h.inTx tid tx htx) fun r hr => hfree r (List.mem_append_right _ hr)
      · intro r hr q hq
        rcases List.mem_append.mp hr with hr | hr
        · exact h.apart tid tx htx r hr q hq
        · rw [List.mem_singleton.mp hr]
          exact hcommitted q hq
      · intro tid' tx' hne hold r hr q hq
        rcases List.mem_append.mp hr with hr | hr
        · exact h.txApart tid tid' tx tx' (Ne.symm hne) htx hold r hr q hq
        · rw [List.mem_singleton.mp hr]
          exact (hother tid' tx' (.inr hne) hold q hq).symm
  | pool =>
      cases hown
      constructor
      · show ((s.denylist ++ [new]).map DenylistRow.jwtUuid).Nodup
        exact nodup_keys_snoc h.committed fun q hq => (hcommitted q hq).symm
      · exact h.inTx
      · intro tid' tx' hold r hr q hq
        rcases List.mem_append.mp hq with hq | hq
        · exact h.apart tid' tx' hold r hr q hq
        · rw [List.mem_singleton.mp hq]
          exact hother tid' tx' (.inl rfl) hold r hr
      · exact h.txApart

/-- One call keeps the keys unique. -/
theorem step (h : DenylistKeys s) {signer : JwtSigner K} {tid : Nat} {o : Op} {r : Resp K o}
    {s' : Store} (he : Store.Effect signer tid s o r s') : DenylistKeys s' := by
  cases he with
  | now | selectDenylist | selectChain | query | failed | conflict => exact h
  | newUuid | sign => exact h.of_eq rfl fun _ => rfl
  | begin hnone => exact h.setTx tid _ (by simp) (by simp) (by simp)
  | insertMetadata conn row tx hown hfree hother =>
      cases conn with
      | pool =>
          cases hown
          refine h.of_eq ?_ fun _ => rfl
          simp [Store.write]
      | tx =>
          have htx : s.txOf tid = some tx := hown
          exact h.setTx tid _ (h.inTx tid tx htx) (h.apart tid tx htx)
            fun tid' tx' hne hold => h.txApart tid tid' tx tx' (Ne.symm hne) htx hold
  | insertDenylist conn jti exp reason tx hown hfree hother => exact h.write hown hfree hother
  | commit tx htx =>
      exact h.apply tid tx (h.inTx tid tx htx) (h.apart tid tx htx)
        fun tid' tx' hne hold => h.txApart tid tid' tx tx' (Ne.symm hne) htx hold
  | commitFailed => exact h.close tid
  | rollback => exact h.close tid

end DenylistKeys

section Invariants

variable {svc : JwtService K}
  {P : JwtPool svc → Label (jwtMachine svc.signer) (Request K) → Prop} {s₀ : Store}
  {c : JwtPool svc}

/-- The run lemma: every jti has one denylist row at most, committed or not. -/
theorem denylist_keys (h₀ : s₀.Idle) (h : JwtReach svc P s₀ c) : DenylistKeys c.shared := by
  refine store_invariant svc.program_spec (I := fun s _ => DenylistKeys s) h ?_ ?_ ?_ ?_
  · refine ⟨h₀.denylist, ?_, ?_, ?_⟩
    · intro tid tx htx
      rw [h₀.txOf] at htx
      cases htx
    · intro tid tx htx
      rw [h₀.txOf] at htx
      cases htx
    · intro tid tid' tx tx' _ htx
      rw [h₀.txOf] at htx
      cases htx
  · intro s hist tid o r s' req _ he hk
    exact hk.step he
  · intro s hist tid hk
    exact hk.close tid
  · intro s hist t hk
    exact hk.of_eq rfl fun _ => rfl

/-- Two committed rows of one jti are the same row. -/
theorem denylist_unique (h₀ : s₀.Idle) (h : JwtReach svc P s₀ c) {r r' : DenylistRow}
    (hr : r ∈ c.shared.denylist) (hr' : r' ∈ c.shared.denylist) (heq : r.jwtUuid = r'.jwtUuid) :
    r = r' :=
  List.inj_on_of_nodup_map (denylist_keys h₀ h).committed hr hr' heq

/-! ### Inserts and rows -/

/-- The row of a successful insert is among the given rows. An insert into the denylist that
counted one row has put its own row there. -/
def Landed (tid : Nat) (metadata : List MetadataRow) (denylist : List DenylistRow) :
    Event (jwtSig K) → Prop
  | ⟨.insertMetadata _ row, .ok ()⟩ => ∃ now, row.stored now tid ∈ metadata
  | ⟨.insertDenylist _ jti _ _, .ok n⟩ =>
      ∃ r ∈ denylist, r.jwtUuid = jti ∧ (n = 1 → r.xmin = tid)
  | _ => True

/-- A row that has landed stays in larger tables. -/
theorem Landed.mono {tid : Nat} {md md' : List MetadataRow} {dl dl' : List DenylistRow}
    {e : Event (jwtSig K)} (h : Landed tid md dl e) (hmd : ∀ r ∈ md, r ∈ md')
    (hdl : ∀ r ∈ dl, r ∈ dl') : Landed tid md' dl' e := by
  unfold Landed at h ⊢
  split at h
  · obtain ⟨now, hrow⟩ := h
    exact ⟨now, hmd _ hrow⟩
  · obtain ⟨r, hr, hkey, hxmin⟩ := h
    exact ⟨r, hdl _ hr, hkey, hxmin⟩
  · trivial

/-- Two parts of a table that both grow. -/
theorem mem_append_mono {α : Type} {l l' m m' : List α} (hl : ∀ r ∈ l, r ∈ l')
    (hm : ∀ r ∈ m, r ∈ m') : ∀ r ∈ l ++ m, r ∈ l' ++ m' := by
  intro r hr
  rcases List.mem_append.mp hr with hr | hr
  · exact List.mem_append_left _ (hl r hr)
  · exact List.mem_append_right _ (hm r hr)

/-- Where the rows of the successful inserts of a history are. -/
def LandedAll (s : Store) (hist : List (Nat × Event (jwtSig K))) : Prop :=
  ∀ tid, ∀ e ∈ eventsOf hist tid,
    (connOf e = some .pool → Landed tid s.metadata s.denylist e)
    ∧ (connOf e = some .tx →
        (∀ tx, s.txOf tid = some tx →
          Landed tid (s.metadata ++ tx.metadata) (s.denylist ++ tx.denylist) e)
        ∧ (Committed hist tid → Landed tid s.metadata s.denylist e))

/-- An old insert keeps its row: a call of its own task only adds to the transaction or ends
it, and a call of another task leaves the transaction alone. -/
theorem LandedAll.old {s s' : Store} {hist : List (Nat × Event (jwtSig K))} {tid : Nat}
    {e : Event (jwtSig K)} (h : LandedAll s hist) (hg : s.Grows s')
    (hother : ∀ tid', tid' ≠ tid → s'.txOf tid' = s.txOf tid')
    (hown : ∀ tx', s'.txOf tid = some tx' → (∀ e' ∈ eventsOf hist tid, connOf e' = none)
      ∨ ∃ tx, s.txOf tid = some tx ∧ (∀ r ∈ tx.metadata, r ∈ tx'.metadata)
        ∧ ∀ r ∈ tx.denylist, r ∈ tx'.denylist)
    (hcommit : isCommit e = true → ∃ tx, s.txOf tid = some tx
      ∧ (∀ r ∈ tx.metadata, r ∈ s'.metadata) ∧ ∀ r ∈ tx.denylist, r ∈ s'.denylist)
    (tid₁ : Nat) (e₁ : Event (jwtSig K)) (he₁ : e₁ ∈ eventsOf hist tid₁) :
    (connOf e₁ = some .pool → Landed tid₁ s'.metadata s'.denylist e₁)
    ∧ (connOf e₁ = some .tx →
        (∀ tx, s'.txOf tid₁ = some tx →
          Landed tid₁ (s'.metadata ++ tx.metadata) (s'.denylist ++ tx.denylist) e₁)
        ∧ (Committed (hist ++ [(tid, e)]) tid₁ → Landed tid₁ s'.metadata s'.denylist e₁)) := by
  have hmd : ∀ r ∈ s.metadata, r ∈ s'.metadata := fun r hr => hg.metadata.subset hr
  have hdl : ∀ r ∈ s.denylist, r ∈ s'.denylist := fun r hr => hg.denylist.subset hr
  obtain ⟨hpool, htx⟩ := h tid₁ e₁ he₁
  refine ⟨fun hc => (hpool hc).mono hmd hdl, fun hc => ⟨?_, ?_⟩⟩
  · intro tx' htx'
    by_cases heq : tid₁ = tid
    · subst heq
      rcases hown tx' htx' with hnone | ⟨tx, hold, hm, hd⟩
      -- The transaction has just begun, so the task has inserted nothing yet.
      · rw [hnone e₁ he₁] at hc
        cases hc
      · exact ((htx hc).1 tx hold).mono (mem_append_mono hmd hm) (mem_append_mono hdl hd)
    · rw [hother tid₁ heq] at htx'
      exact ((htx hc).1 tx' htx').mono (mem_append_mono hmd fun _ hr => hr)
        (mem_append_mono hdl fun _ hr => hr)
  · intro hcom
    rcases committed_append hcom with hcom | ⟨rfl, hnew⟩
    · exact ((htx hc).2 hcom).mono hmd hdl
    · obtain ⟨tx, hold, hm, hd⟩ := hcommit hnew
      -- The commit has moved the rows of the transaction to the tables.
      refine ((htx hc).1 tx hold).mono ?_ ?_
      · exact fun r hr => (List.mem_append.mp hr).elim (hmd r) (hm r)
      · exact fun r hr => (List.mem_append.mp hr).elim (hdl r) (hd r)

/-- A commit puts the rows of the transaction into the tables. -/
theorem effect_commit {signer : JwtSigner K} {tid : Nat} {s s' : Store} {o : Op}
    {r : Resp K o} (h : Store.Effect signer tid s o r s')
    (hc : isCommit (⟨o, r⟩ : Event (jwtSig K)) = true) :
    ∃ tx, s.txOf tid = some tx ∧ (∀ r ∈ tx.metadata, r ∈ s'.metadata)
      ∧ ∀ r ∈ tx.denylist, r ∈ s'.denylist := by
  cases h with
  | commit tx htx =>
      refine ⟨tx, htx, ?_, ?_⟩
      · intro r hr
        rw [Store.metadata_setTx, Store.metadata_apply]
        exact List.mem_append_right _ hr
      · intro r hr
        rw [Store.denylist_setTx, Store.denylist_apply]
        exact List.mem_append_right _ hr
  | query o r hq => cases o <;> first | cases hc | exact hq.elim
  | failed o r he => cases o <;> first | cases hc | exact he.elim
  | _ => cases hc

/-- A new insert has its row where it ran. -/
theorem effect_landed {signer : JwtSigner K} {tid : Nat} {s s' : Store} {o : Op}
    {r : Resp K o} (h : Store.Effect signer tid s o r s') :
    (connOf (⟨o, r⟩ : Event (jwtSig K)) = some .pool →
      Landed tid s'.metadata s'.denylist (⟨o, r⟩ : Event (jwtSig K)))
    ∧ (connOf (⟨o, r⟩ : Event (jwtSig K)) = some .tx → ∀ tx, s'.txOf tid = some tx →
      Landed tid (s'.metadata ++ tx.metadata) (s'.denylist ++ tx.denylist)
        (⟨o, r⟩ : Event (jwtSig K))) := by
  cases h with
  | insertMetadata conn row tx hown =>
      cases conn with
      | pool =>
          cases hown
          refine ⟨fun _ => ⟨s.clock, ?_⟩, nofun⟩
          simp [Store.write]
      | tx =>
          refine ⟨nofun, fun _ tx' htx' => ⟨tx.startedAt, ?_⟩⟩
          simp only [Store.write, Store.txOf_setTx_self, Option.some.injEq] at htx'
          subst htx'
          simp
  | insertDenylist conn jti exp reason tx hown =>
      cases conn with
      | pool =>
          cases hown
          refine ⟨fun _ => ⟨.stored jti exp reason s.clock tid, ?_, rfl, fun _ => rfl⟩, nofun⟩
          simp [Store.write]
      | tx =>
          refine ⟨nofun, fun _ tx' htx' =>
            ⟨.stored jti exp reason tx.startedAt tid, ?_, rfl, fun _ => rfl⟩⟩
          simp only [Store.write, Store.txOf_setTx_self, Option.some.injEq] at htx'
          subst htx'
          simp
  | conflict conn jti exp reason tx hown hmem =>
      obtain ⟨q, hq, hkey⟩ := hmem
      cases conn with
      | pool =>
          cases hown
          rw [List.append_nil] at hq
          -- The row is someone else's, and the insert has counted none.
          exact ⟨fun _ => ⟨q, hq, hkey, nofun⟩, nofun⟩
      | tx =>
          have htx : s.txOf tid = some tx := hown
          refine ⟨nofun, fun _ tx' htx' => ?_⟩
          rw [htx] at htx'
          cases htx'
          exact ⟨q, hq, hkey, nofun⟩
  | failed o r he =>
      cases o with
      | insertMetadata conn row =>
          obtain ⟨e, rfl⟩ := he
          exact ⟨fun _ => trivial, fun _ _ _ => trivial⟩
      | insertDenylist conn jti exp reason =>
          obtain ⟨e, rfl⟩ := he
          exact ⟨fun _ => trivial, fun _ _ _ => trivial⟩
      | _ => exact ⟨nofun, nofun⟩
  | query o r hq =>
      cases o with
      | insertMetadata conn row => exact hq.elim
      | insertDenylist conn jti exp reason => exact hq.elim
      | _ => exact ⟨nofun, nofun⟩
  | _ => exact ⟨nofun, nofun⟩

/-- The run lemma: every successful insert has landed, in the tables or in the open transaction of
its task. -/
theorem landed (h : JwtReach svc P s₀ c) : LandedAll c.shared c.history := by
  refine store_invariant svc.program_spec (I := LandedAll) h ?_ ?_ ?_ ?_
  · intro tid e he
    cases he
  · intro s hist tid o r s' req hcall heff hall tid₁ e₁ he₁
    have hold := hall.old (e := ⟨o, r⟩) heff.grows (fun tid' hne => heff.txOf_other hne)
      (fun tx' htx' => (heff.txOf_own htx').imp_left fun heq => by
        subst heq
        exact JwtService.Call.begin hcall)
      (effect_commit heff)
    by_cases heq : tid = tid₁
    · subst heq
      rw [eventsOf_append_self] at he₁
      rcases List.mem_append.mp he₁ with he₁ | he₁
      · exact hold tid e₁ he₁
      · rw [List.mem_singleton.mp he₁]
        have hnew := effect_landed heff
        refine ⟨hnew.1, fun hc => ⟨hnew.2 hc, fun hcom => ?_⟩⟩
        -- An insert in the transaction comes before the commit.
        have hany := JwtService.Call.insert_tx (e := ⟨o, r⟩) hcall hc
        rw [List.any_eq_false] at hany
        rcases committed_append hcom with ⟨e', he', hc'⟩ | ⟨-, hc'⟩
        · exact absurd hc' (hany e' he')
        · cases o <;> first | cases hc' | cases hc
    · rw [eventsOf_append_ne _ _ heq] at he₁
      exact hold tid₁ e₁ he₁
  · intro s hist tid hall tid₁ e he
    obtain ⟨hpool, htx⟩ := hall tid₁ e he
    rw [Store.metadata_setTx, Store.denylist_setTx]
    exact ⟨hpool, fun hc => ⟨fun tx hget => (htx hc).1 tx (Store.txOf_of_close hget).2,
      (htx hc).2⟩⟩
  · intro s hist t hall
    exact hall

/-! ### Rows and inserts -/

/-- The task has inserted the row, by a statement on `conn`. -/
def InsertedBy (hist : List (Nat × Event (jwtSig K))) (tid : Nat) (conn : Conn)
    (r : MetadataRow) : Prop :=
  ∃ row now, r = NewMetadata.stored row now tid
    ∧ (⟨Op.insertMetadata conn row, Except.ok ()⟩ : Event (jwtSig K)) ∈ eventsOf hist tid

/-- Who has inserted a row does not change later on. -/
theorem InsertedBy.append {hist : List (Nat × Event (jwtSig K))} {tid : Nat} {conn : Conn}
    {r : MetadataRow} (h : InsertedBy hist tid conn r) (e : Nat × Event (jwtSig K)) :
    InsertedBy (hist ++ [e]) tid conn r := by
  obtain ⟨row, now, hr, he⟩ := h
  refine ⟨row, now, hr, ?_⟩
  rw [eventsOf_append]
  exact List.mem_append_left _ he

/-- Every metadata row comes from an insert: a committed one from the pool or from a committed
transaction, an uncommitted one from the task of its transaction. -/
structure MetadataOrigin (s₀ s : Store) (hist : List (Nat × Event (jwtSig K))) : Prop where
  committed : ∀ r ∈ s.metadata, r ∈ s₀.metadata ∨ InsertedBy hist r.xmin .pool r
    ∨ InsertedBy hist r.xmin .tx r ∧ Committed hist r.xmin
  open_ : ∀ tid tx, s.txOf tid = some tx → ∀ r ∈ tx.metadata, InsertedBy hist tid .tx r

/-- A row has the number of its task. -/
theorem InsertedBy.xmin {hist : List (Nat × Event (jwtSig K))} {tid : Nat} {conn : Conn}
    {r : MetadataRow} (h : InsertedBy hist tid conn r) : r.xmin = tid := by
  obtain ⟨row, now, rfl, -⟩ := h
  rfl

/-- The step lemma of `metadata_origin`: an insert brings a row with its event, a commit moves rows
with theirs, and all other calls leave rows where they are. -/
theorem MetadataOrigin.step {s s' : Store} {hist : List (Nat × Event (jwtSig K))}
    {signer : JwtSigner K} {tid : Nat} {o : Op} {r : Resp K o} (h : MetadataOrigin s₀ s hist)
    (he : Store.Effect signer tid s o r s') :
    MetadataOrigin s₀ s' (hist ++ [(tid, ⟨o, r⟩)]) := by
  have hold : ∀ q ∈ s.metadata, q ∈ s₀.metadata
      ∨ InsertedBy (hist ++ [(tid, ⟨o, r⟩)]) q.xmin .pool q
      ∨ InsertedBy (hist ++ [(tid, ⟨o, r⟩)]) q.xmin .tx q
        ∧ Committed (hist ++ [(tid, ⟨o, r⟩)]) q.xmin := by
    intro q hq
    rcases h.committed q hq with h₀ | hpool | ⟨htx, hcom⟩
    · exact .inl h₀
    · exact .inr (.inl (hpool.append _))
    · exact .inr (.inr ⟨htx.append _, hcom.append _⟩)
  have hopen : ∀ tid' tx, s.txOf tid' = some tx → ∀ q ∈ tx.metadata,
      InsertedBy (hist ++ [(tid, ⟨o, r⟩)]) tid' .tx q :=
    fun tid' tx htx q hq => (h.open_ tid' tx htx q hq).append _
  -- The open transactions of the other tasks are as before in every case.
  have hrest : (∀ tx, s'.txOf tid = some tx → ∀ q ∈ tx.metadata,
        InsertedBy (hist ++ [(tid, ⟨o, r⟩)]) tid .tx q) →
      ∀ tid' tx, s'.txOf tid' = some tx → ∀ q ∈ tx.metadata,
        InsertedBy (hist ++ [(tid, ⟨o, r⟩)]) tid' .tx q := by
    intro hown tid' tx htx
    by_cases heq : tid' = tid
    · subst heq
      exact hown tx htx
    · rw [he.txOf_other heq] at htx
      exact hopen tid' tx htx
  cases he with
  | now | selectDenylist | selectChain | query | failed | conflict | newUuid | sign =>
      exact ⟨hold, hrest (hopen tid)⟩
  | begin =>
      refine ⟨by simpa using hold, hrest fun tx htx => ?_⟩
      rw [Store.txOf_setTx_self] at htx
      cases htx
      simp
  | commitFailed | rollback =>
      refine ⟨by simpa using hold, hrest fun tx htx => ?_⟩
      rw [Store.txOf_setTx_self] at htx
      cases htx
  | commit tx hget =>
      refine ⟨?_, hrest fun tx htx => ?_⟩
      · intro q hq
        rw [Store.metadata_setTx, Store.metadata_apply] at hq
        rcases List.mem_append.mp hq with hq | hq
        · exact hold q hq
        · have hins := hopen tid tx hget q hq
          rw [hins.xmin]
          refine .inr (.inr ⟨hins, ⟨⟨Op.commit, Except.ok ()⟩, ?_, rfl⟩⟩)
          rw [eventsOf_append_self]
          exact List.mem_append_right _ (List.mem_singleton_self _)
      · rw [Store.txOf_setTx_self] at htx
        cases htx
  | insertMetadata conn row tx hown =>
      have hnew : InsertedBy (hist ++ [(tid, ⟨Op.insertMetadata conn row, Except.ok ()⟩)]) tid conn
          (row.stored tx.startedAt tid) := by
        refine ⟨row, tx.startedAt, rfl, ?_⟩
        rw [eventsOf_append_self]
        exact List.mem_append_right _ (List.mem_singleton_self _)
      cases conn with
      | pool =>
          cases hown
          refine ⟨?_, hrest (hopen tid)⟩
          intro q hq
          rcases List.mem_append.mp hq with hq | hq
          · exact hold q hq
          · rw [List.nil_append, List.mem_singleton] at hq
            subst hq
            exact .inr (.inl hnew)
      | tx =>
          refine ⟨by simpa [Store.write] using hold, hrest fun tx' htx' => ?_⟩
          simp only [Store.write, Store.txOf_setTx_self, Option.some.injEq] at htx'
          subst htx'
          intro q hq
          rcases List.mem_append.mp hq with hq | hq
          · exact hopen tid tx hown q hq
          · rw [List.mem_singleton.mp hq]
            exact hnew
  | insertDenylist conn jti exp reason tx hown =>
      cases conn with
      | pool =>
          cases hown
          refine ⟨?_, hrest (hopen tid)⟩
          simpa [Store.write] using hold
      | tx =>
          refine ⟨by simpa [Store.write] using hold, hrest fun tx' htx' => ?_⟩
          simp only [Store.write, Store.txOf_setTx_self, Option.some.injEq] at htx'
          subst htx'
          exact hopen tid tx hown

/-- The run lemma: every row that was not there at the start comes from a successful insert of the
history. -/
theorem metadata_origin (h₀ : s₀.Idle) (h : JwtReach svc P s₀ c) :
    MetadataOrigin s₀ c.shared c.history := by
  refine store_invariant svc.program_spec (I := MetadataOrigin s₀) h ?_ ?_ ?_ ?_
  · refine ⟨fun r hr => .inl hr, fun tid tx htx => ?_⟩
    rw [h₀.txOf] at htx
    cases htx
  · intro s hist tid o r s' req _ he hk
    exact hk.step he
  · intro s hist tid hk
    refine ⟨by simpa using hk.committed, fun tid' tx htx => ?_⟩
    exact hk.open_ tid' tx (Store.txOf_of_close htx).2
  · intro s hist t hk
    exact ⟨hk.committed, hk.open_⟩

/-- The event is an insert into the denylist inside a transaction. -/
def isDenylistTx : Event (jwtSig K) → Bool
  | ⟨.insertDenylist .tx .., _⟩ => true
  | _ => false

/-- An uncommitted denylist row comes from an insert of the task of its transaction. -/
theorem denylist_origin (h₀ : s₀.Idle) (h : JwtReach svc P s₀ c) {tid : Nat} {tx : Tx}
    (htx : c.shared.txOf tid = some tx) {r : DenylistRow} (hr : r ∈ tx.denylist) :
    ∃ e ∈ eventsOf c.history tid, isDenylistTx e = true := by
  refine store_invariant svc.program_spec
    (I := fun s hist => ∀ tid tx, s.txOf tid = some tx → ∀ r ∈ tx.denylist,
      ∃ e ∈ eventsOf hist tid, isDenylistTx e = true) h ?_ ?_ ?_ ?_ tid tx htx r hr
  · intro tid tx htx
    rw [h₀.txOf] at htx
    cases htx
  · intro s hist tid o r s' req _ he hI tid' tx' htx' q hq
    have hmono : (∃ e ∈ eventsOf hist tid', isDenylistTx e = true) →
        ∃ e ∈ eventsOf (hist ++ [(tid, ⟨o, r⟩)]) tid', isDenylistTx e = true := by
      rintro ⟨e, he, hd⟩
      refine ⟨e, ?_, hd⟩
      rw [eventsOf_append]
      exact List.mem_append_left _ he
    by_cases heq : tid' = tid
    · subst heq
      cases he with
      | now | selectDenylist | selectChain | query | failed | conflict | newUuid | sign =>
          exact hmono (hI tid' tx' htx' q hq)
      -- After these the task has an empty transaction or none.
      | begin | commitFailed | rollback | commit =>
          rw [Store.txOf_setTx_self] at htx'
          cases htx' <;> cases hq
      | insertMetadata conn row tx hown =>
          cases conn with
          | pool => exact hmono (hI tid' tx' htx' q hq)
          | tx =>
              simp only [Store.write, Store.txOf_setTx_self, Option.some.injEq] at htx'
              subst htx'
              exact hmono (hI tid' tx hown q hq)
      | insertDenylist conn jti exp reason tx hown =>
          cases conn with
          | pool => exact hmono (hI tid' tx' htx' q hq)
          | tx =>
              refine ⟨⟨Op.insertDenylist .tx jti exp reason, Except.ok 1⟩, ?_, rfl⟩
              rw [eventsOf_append_self]
              exact List.mem_append_right _ (List.mem_singleton_self _)
    · rw [he.txOf_other heq] at htx'
      exact hmono (hI tid' tx' htx' q hq)
  · intro s hist tid hI tid' tx htx
    exact hI tid' tx (Store.txOf_of_close htx).2
  · intro s hist t hI
    exact hI

/-! ### UUIDs, signatures and chain queries -/

/-- The UUID that a call drew. -/
def asUuid : Event (jwtSig K) → Option Uuid
  | ⟨.newUuid, u⟩ => some u
  | _ => none

/-- The UUIDs drawn in a history, each with its task. -/
def drawn (hist : List (Nat × Event (jwtSig K))) : List (Nat × Uuid) :=
  hist.filterMap fun e => (asUuid e.2).map fun u => (e.1, u)

/-- A drawn UUID is the answer to a call of its task. -/
theorem mem_drawn {hist : List (Nat × Event (jwtSig K))} {tid : Nat} {u : Uuid} :
    (tid, u) ∈ drawn hist
      ↔ (⟨Op.newUuid, u⟩ : Event (jwtSig K)) ∈ eventsOf hist tid := by
  rw [mem_eventsOf]
  unfold drawn
  rw [List.mem_filterMap]
  constructor
  · rintro ⟨⟨tid', o, r⟩, he, hu⟩
    cases o <;> cases hu
    exact he
  · intro he
    exact ⟨_, he, rfl⟩

/-- No UUID is drawn twice, and none that was in use at the start. -/
theorem uuid_fresh (h : JwtReach svc P s₀ c) :
    ((drawn c.history).map Prod.snd).Nodup
      ∧ ∀ p ∈ drawn c.history, p.2 ∉ s₀.used := by
  -- A drawn UUID counts as used from then on, and a draw never gives a used one.
  have hall := store_invariant svc.program_spec
    (I := fun s hist => ((drawn hist).map Prod.snd).Nodup ∧ (∀ u ∈ s₀.used, u ∈ s.used)
      ∧ ∀ p ∈ drawn hist, p.2 ∈ s.used ∧ p.2 ∉ s₀.used) h ?_ ?_ ?_ ?_
  · exact ⟨hall.1, fun p hp => (hall.2.2 p hp).2⟩
  · exact ⟨by simp [drawn], fun _ hu => hu, by simp [drawn]⟩
  · rintro s hist tid o r s' req - he ⟨hnd, hsub, hused⟩
    have hkeep : asUuid (⟨o, r⟩ : Event (jwtSig K)) = none →
        drawn (hist ++ [(tid, ⟨o, r⟩)]) = drawn hist := by
      intro hnone
      simp [drawn, List.filterMap_append, hnone]
    cases he with
    | newUuid u hfresh =>
        have hd : drawn (hist ++ [(tid, ⟨Op.newUuid, u⟩)]) = drawn hist ++ [(tid, u)] := by
          simp [drawn, List.filterMap_append, asUuid]
        rw [hd]
        refine ⟨?_, fun u' hu' => List.mem_cons_of_mem _ (hsub u' hu'), ?_⟩
        · refine nodup_keys_snoc hnd fun p hp => ?_
          rintro rfl
          exact hfresh (hused p hp).1
        · intro p hp
          rcases List.mem_append.mp hp with hp | hp
          · exact ⟨List.mem_cons_of_mem _ (hused p hp).1, (hused p hp).2⟩
          · rw [List.mem_singleton.mp hp]
            exact ⟨List.mem_cons_self, fun hin => hfresh (hsub u hin)⟩
    | query o r hq =>
        cases o <;> first | exact hq.elim | (rw [hkeep rfl]; exact ⟨hnd, hsub, hused⟩)
    | failed o r he =>
        cases o <;> first | exact he.elim | (rw [hkeep rfl]; exact ⟨hnd, hsub, hused⟩)
    | now | selectDenylist | selectChain | conflict | sign =>
        rw [hkeep rfl]
        exact ⟨hnd, hsub, hused⟩
    | begin | commitFailed | rollback | commit =>
        rw [hkeep rfl]
        simp only [Store.used_setTx]
        exact ⟨hnd, hsub, hused⟩
    | insertMetadata conn row tx | insertDenylist conn jti exp reason tx =>
        rw [hkeep rfl]
        cases conn with
        | pool => exact ⟨hnd, hsub, hused⟩
        | tx =>
            simp only [Store.write, Store.used_setTx]
            exact ⟨hnd, hsub, hused⟩
  · intro s hist tid hI
    simpa using hI
  · intro s hist t hI
    exact hI

/-- A UUID was drawn by one task only. -/
theorem drawn_unique (h : JwtReach svc P s₀ c) {tid tid' : Nat} {u : Uuid}
    (hu : (⟨Op.newUuid, u⟩ : Event (jwtSig K)) ∈ eventsOf c.history tid)
    (hu' : (⟨Op.newUuid, u⟩ : Event (jwtSig K)) ∈ eventsOf c.history tid') : tid = tid' := by
  have := List.inj_on_of_nodup_map (uuid_fresh h).1 (mem_drawn.mpr hu) (mem_drawn.mpr hu') rfl
  exact congrArg Prod.fst this

/-- What the signing key has signed was signed before the run or by a call of the run. -/
theorem signed_origin (h : JwtReach svc P s₀ c) :
    ∀ cl ∈ c.shared.signed, cl ∈ s₀.signed
      ∨ ∃ tid r, (⟨Op.sign cl, r⟩ : Event (jwtSig K)) ∈ eventsOf c.history tid := by
  refine store_invariant svc.program_spec
    (I := fun s hist => ∀ cl ∈ s.signed, cl ∈ s₀.signed
      ∨ ∃ tid r, (⟨Op.sign cl, r⟩ : Event (jwtSig K)) ∈ eventsOf hist tid) h ?_ ?_ ?_ ?_
  · exact fun cl hcl => .inl hcl
  · intro s hist tid o r s' req _ he hI
    have hold : ∀ cl ∈ s.signed, cl ∈ s₀.signed ∨ ∃ tid' r',
        (⟨Op.sign cl, r'⟩ : Event (jwtSig K)) ∈ eventsOf (hist ++ [(tid, ⟨o, r⟩)]) tid' := by
      intro cl hcl
      rcases hI cl hcl with h₀ | ⟨tid', r', he'⟩
      · exact .inl h₀
      · refine .inr ⟨tid', r', ?_⟩
        rw [eventsOf_append]
        exact List.mem_append_left _ he'
    cases he with
    | sign cl₀ =>
        intro cl hcl
        rcases List.mem_cons.mp hcl with rfl | hcl
        · refine .inr ⟨tid, svc.signer.sign cl.serialize, ?_⟩
          rw [eventsOf_append_self]
          exact List.mem_append_right _ (List.mem_singleton_self _)
        · exact hold cl hcl
    | now | selectDenylist | selectChain | query | failed | conflict | newUuid => exact hold
    | begin | commitFailed | rollback | commit => simpa [Store.apply] using hold
    | insertMetadata conn row tx | insertDenylist conn jti exp reason tx =>
        cases conn with
        | pool => exact hold
        | tx => simpa [Store.write] using hold
  · intro s hist tid hI
    simpa using hI
  · intro s hist t hI
    exact hI

/-- A property of the events that every call has when it is made holds of the whole
history. -/
theorem event_invariant (Q : Store → Event (jwtSig K) → Prop) (h : JwtReach svc P s₀ c)
    (hnew : ∀ s tid (o : Op) (r : Resp K o) s', Store.Effect svc.signer tid s o r s' → Q s' ⟨o, r⟩)
    (hgrow : ∀ s s' e, s.Grows s' → Q s e → Q s' e) {tid : Nat} {e : Event (jwtSig K)}
    (he : e ∈ eventsOf c.history tid) : Q c.shared e := by
  have hall := store_invariant svc.program_spec
    (I := fun s hist => ∀ p ∈ hist, Q s p.2) h ?_ ?_ ?_ ?_
  · exact hall _ (mem_eventsOf.mp he)
  · exact fun p hp => by cases hp
  · intro s hist tid o r s' req _ he hI p hp
    rcases List.mem_append.mp hp with hp | hp
    · exact hgrow s s' p.2 he.grows (hI p hp)
    · rw [List.mem_singleton.mp hp]
      exact hnew s tid o r s' he
  · intro s hist tid hI p hp
    exact hgrow s _ p.2 (s.grows_setTx tid none) (hI p hp)
  · intro s hist t hI p hp
    exact hgrow s _ p.2 ⟨List.prefix_rfl, List.prefix_rfl⟩ (hI p hp)

/-- A signature in the history is the signer's. -/
theorem sign_read (h : JwtReach svc P s₀ c) {tid : Nat} {cl : StandardClaims}
    {r : Except TimError K.Token}
    (he : (⟨Op.sign cl, r⟩ : Event (jwtSig K)) ∈ eventsOf c.history tid) :
    r = svc.signer.sign cl.serialize := by
  refine event_invariant (fun _ e => ∀ cl (r : Except TimError K.Token),
      e = ⟨Op.sign cl, r⟩ → r = svc.signer.sign cl.serialize) h ?_ ?_ he cl r rfl
  · rintro s tid o r s' heff cl r' heq
    cases heq
    cases heff with
    | sign => rfl
    | query o r hq => exact hq.elim
    | failed o r hf => exact hf.elim
  · exact fun _ _ _ _ hq => hq

/-- A chain query that found a row found one that is in the table. -/
theorem chain_read (h : JwtReach svc P s₀ c) {tid : Nat} {jti orig id : Uuid}
    {name : Option String}
    (he : (⟨Op.selectChain jti, Except.ok (some (orig, id, name))⟩ : Event (jwtSig K))
      ∈ eventsOf c.history tid) :
    ∃ row ∈ c.shared.metadata, row.jwtUuid = jti ∧ row.originalJwtUuid = orig ∧ row.id = id
      ∧ row.jwtName = name := by
  refine event_invariant (fun s e => ∀ jti orig id name,
      e = ⟨Op.selectChain jti, Except.ok (some (orig, id, name))⟩ →
      ∃ row ∈ s.metadata, row.jwtUuid = jti ∧ row.originalJwtUuid = orig ∧ row.id = id
        ∧ row.jwtName = name) h ?_ ?_ he jti orig id name rfl
  · rintro s tid o r s' heff jti orig id name heq
    cases heq
    obtain ⟨rfl, hr | ⟨e, hr⟩⟩ := heff.selectChain_inv
    · obtain ⟨row, hrow, hfound⟩ := Option.map_eq_some_iff.mp (Except.ok.inj hr).symm
      cases hfound
      obtain ⟨hmem, hjti⟩ := Store.chainRow_mem hrow
      exact ⟨row, hmem, hjti, rfl, rfl, rfl⟩
    · cases hr
  · intro s s' e hg hq jti orig id name heq
    obtain ⟨row, hrow, hrest⟩ := hq jti orig id name heq
    exact ⟨row, hg.metadata.subset hrow, hrest⟩

end Invariants

end Tim
