import Mathlib.Algebra.Order.BigOperators.Group.List
import Mathlib.Algebra.Order.Ring.Nat
import Tim.Lib.Pages
import Tim.Lib.Progress
import Tim.Proofs.Ledger
import Tim.Proofs.Revocation

/-!
# `Tim.Proofs.Progress`: no request of the token service waits for ever

`INSERT .. ON CONFLICT DO NOTHING` waits while another open transaction has an uncommitted row with
the same key. So requests can wait for one another, and it has to be shown that this can always be
resolved.

`Phase` says where a task is with its transaction: it has none, it has one without a denylist row,
or it has sent the insert of the denylist row. `turn_spec` is the specification of every program in
these terms, and `phase_fits` the invariant of all runs that ties the phases to the open
transactions of the store. In the last phase the only calls are the commit and the rollback, and
neither waits.

`ready_or_behind` follows: a call can be answered, or it is an insert that waits for a task which
is about to end its transaction. So waiting never goes in a circle, and its depth is one.
`completes` is about whole runs: from every reachable state, whatever the requests and the failures
have been so far, all running requests can be brought to their results without a failure and
without dropping any of them.

* `waits_one_step`: whoever waits has to wait for one step of another task.
-/

set_option autoImplicit false

namespace Tim

open Tim.Lib Tim.Lib.Prog Tim.Lib.Pool Tim.Action

variable {K : Crates}

/-! ### The phases of a transaction -/

/-- Where a task is with its transaction. -/
inductive Phase where
  | closed
  | opened
  /-- The denylist row is inserted, or was there. -/
  | entered
  deriving DecidableEq

/-- The phase after one more event. -/
def Phase.next (p : Phase) : Event (jwtSig K) → Phase
  | ⟨.begin, .ok ()⟩ => .opened
  | ⟨.insertDenylist .tx .., .ok _⟩ => .entered
  | ⟨.commit, _⟩ => .closed
  | ⟨.rollback, _⟩ => .closed
  | _ => p

/-- The phase after a list of events. -/
def phase (h : List (Event (jwtSig K))) : Phase := h.foldl Phase.next .closed

/-- The event is a draw of a UUID. -/
def isDraw (e : Event (jwtSig K)) : Bool := (asUuid e).isSome

/-- The UUIDs that a list of events has drawn. -/
def draws (h : List (Event (jwtSig K))) : Nat := h.countP isDraw

/-- The phase of a task one event later. -/
theorem phase_snoc (h : List (Event (jwtSig K))) (e : Event (jwtSig K)) :
    phase (h ++ [e]) = (phase h).next e := by
  simp [phase, List.foldl_append]

/-- The number of drawn UUIDs one event later. -/
theorem draws_snoc (h : List (Event (jwtSig K))) (e : Event (jwtSig K)) :
    draws (h ++ [e]) = draws h + if isDraw e then 1 else 0 := by
  simp [draws, List.countP_append, List.countP_singleton]

/-- The calls by the phase. A program draws two UUIDs at most. -/
def Turn (h : List (Event (jwtSig K))) : Op → Prop
  | .newUuid => draws h < 2 ∧ phase h ≠ .entered
  | .insertMetadata .tx _ => phase h = .opened
  | .insertDenylist .tx .. => phase h = .opened
  | .commit => phase h = .entered
  | .rollback => phase h ≠ .closed
  | _ => phase h = .closed

/-- A program ends with its transaction closed. -/
def Ended {α : Type} (h : List (Event (jwtSig K))) (_ : Except Fault α) : Prop :=
  phase h = .closed

/-- The calls that neither draw a UUID nor touch a transaction. -/
def QuietCall (o : Op) : Prop := JwtService.Plain o ∨ JwtService.Check o

/-- A program of such calls is never inside a transaction. -/
theorem quiet_spec {α : Type} {p : Action K α}
    (hp : p.Meets (S := jwtSig K) QuietCall fun _ => True) {h : List (Event (jwtSig K))}
    (hh : phase h = .closed) : Spec Turn Ended h p := by
  induction p generalizing h with
  | ret a => exact hh
  | raise e => exact hh
  | op o k ih =>
      obtain ⟨ho, hrest⟩ := hp
      have hsame : ∀ r, phase (h ++ [⟨o, r⟩]) = .closed := by
        intro r
        rw [phase_snoc, hh]
        cases o with
        | insertDenylist conn jti exp reason =>
            rcases ho with ho | ho
            · cases (show conn = .pool from ho)
              rfl
            · exact ho.elim
        | now | selectDenylist | selectDenylistEntry | selectExpiresAt | selectTokens
        | countTokens => rfl
        | _ => rcases ho with ho | ho <;> exact ho.elim
      refine ⟨?_, fun r => ih r (hrest r) (hsame r)⟩
      cases o with
      | insertDenylist conn jti exp reason =>
          rcases ho with ho | ho
          · cases (show conn = .pool from ho)
            exact hh
          · exact ho.elim
      | now | selectDenylist | selectDenylistEntry | selectExpiresAt | selectTokens
      | countTokens => exact hh
      | _ => rcases ho with ho | ho <;> exact ho.elim

namespace JwtService

/-- A generation takes its turns in the order of the phases. -/
theorem generate_turns (svc : JwtService K) (req : GenerateRequest) :
    Spec Turn Ended [] (svc.generate req) := by
  unfold generate
  split
  · exact rfl
  · split
    · exact rfl
    · split
      · exact rfl
      · refine spec_call_bind.mpr ⟨⟨Nat.zero_lt_two, nofun⟩, fun jti => ?_⟩
        refine spec_call_bind.mpr ⟨rfl, fun now => ?_⟩
        refine spec_addMinutes_bind.mpr ⟨fun exp _ => ?_, fun _ => rfl⟩
        refine spec_call_bind.mpr ⟨rfl, fun signed => ?_⟩
        cases signed with
        | error e => exact rfl
        | ok token =>
            refine spec_call_bind.mpr ⟨⟨Nat.lt_add_one 1, nofun⟩, fun id => ?_⟩
            refine spec_call_bind.mpr ⟨rfl, fun inserted => ?_⟩
            exact spec_sql_bind.mpr ⟨fun _ _ => rfl, fun _ _ => rfl⟩

/-- Inside its transaction, `extend` ends with the denylist row inserted or has to roll back. -/
theorem extendTx_turns (svc : JwtService K) (old claims : StandardClaims) (anc : Ancestor)
    (oldJti newJti : Uuid) (now newExp : DateTime) {h : List (Event (jwtSig K))}
    (hphase : phase h = .opened) (hdraws : draws h < 2) :
    Spec Turn (fun h' x => (x = .ok () → phase h' = .entered) ∧ phase h' ≠ .closed) h
      (svc.extendTx old claims anc oldJti newJti now newExp) := by
  unfold extendTx
  have hid : ∀ id, phase (h ++ [(⟨Op.newUuid, id⟩ : Event (jwtSig K))]) = .opened := by
    intro id
    rw [phase_snoc]
    exact hphase
  have hne : ∀ {h' : List (Event (jwtSig K))}, phase h' = .opened → phase h' ≠ .closed := by
    intro h' heq hclosed
    rw [heq] at hclosed
    cases hclosed
  refine spec_call_bind.mpr ⟨⟨hdraws, by rw [hphase]; nofun⟩, fun id => ?_⟩
  refine spec_call_bind.mpr ⟨hid id, fun inserted => ?_⟩
  have hins : phase (h ++ [⟨Op.newUuid, id⟩]
      ++ [(⟨Op.insertMetadata .tx (svc.extendRow old claims anc id newJti now newExp), inserted⟩ :
        Event (jwtSig K))]) = .opened := by
    rw [phase_snoc]
    exact hid id
  refine spec_sql_bind.mpr ⟨fun _ hok => ?_, fun _ _ => ⟨nofun, hne hins⟩⟩
  cases DateTime.fromTimestamp old.exp with
  | none => exact ⟨nofun, hne hins⟩
  | some oldExp =>
      refine spec_call_bind.mpr ⟨hins, fun denied => ?_⟩
      refine spec_sql_bind.mpr ⟨fun rows hok => ?_, fun e herr => ?_⟩
      · subst hok
        have hentered := phase_snoc (h ++ [⟨Op.newUuid, id⟩]
          ++ [⟨Op.insertMetadata .tx (svc.extendRow old claims anc id newJti now newExp),
            inserted⟩])
          (⟨Op.insertDenylist .tx oldJti oldExp (some supersededReason), Except.ok rows⟩ :
            Event (jwtSig K))
        refine ⟨fun _ => hentered, ?_⟩
        rw [hentered]
        nofun
      · subst herr
        refine ⟨nofun, hne ?_⟩
        rw [phase_snoc]
        exact hins

/-- An extension takes its turns in the order of the phases, also when it has to roll back. -/
theorem extend_turns (svc : JwtService K) (req : ExtendRequest K) :
    Spec Turn Ended [] (svc.extend req) := by
  unfold extend
  refine spec_call_bind.mpr ⟨rfl, fun at_ => ?_⟩
  split
  · exact rfl
  · refine spec_call_bind.mpr ⟨rfl, fun now => ?_⟩
    split
    · exact rfl
    · split
      · exact rfl
      · refine spec_lookup_bind.mpr ⟨rfl, fun denied => ?_, fun _ => rfl⟩
        cases denied with
        | true => exact rfl
        | false =>
            refine spec_call_bind.mpr ⟨rfl, fun answer => ?_⟩
            refine spec_sql_bind.mpr ⟨fun found hok => ?_, fun _ _ => rfl⟩
            show Spec _ _ _ (ite _ _ _)
            split
            · exact rfl
            · refine spec_addMinutes_bind.mpr ⟨fun newExp _ => ?_, fun _ => rfl⟩
              refine spec_call_bind.mpr ⟨⟨Nat.zero_lt_two, nofun⟩, fun newJti => ?_⟩
              refine spec_call_bind.mpr ⟨rfl, fun signed => ?_⟩
              cases signed with
              | error e => exact rfl
              | ok token =>
                  refine spec_call_bind.mpr ⟨rfl, fun begun => ?_⟩
                  refine spec_sql_bind.mpr ⟨fun _ hok => ?_, fun e herr => ?_⟩
                  · subst hok
                    refine spec_orRollback_bind
                      (extendTx_turns svc _ _ _ _ _ _ _ rfl (Nat.lt_add_one 1)) ?_ ?_
                    · intro h' _ hdone
                      refine spec_call_bind.mpr ⟨hdone.1 rfl, fun committed => ?_⟩
                      exact spec_sql_bind.mpr ⟨fun _ _ => phase_snoc _ _, fun _ _ => phase_snoc _ _⟩
                    · intro h' e hdone
                      exact ⟨hdone.2, phase_snoc _ _⟩
                  · subst herr
                    exact rfl

/-- Every program keeps to the phases. -/
theorem turn_spec (svc : JwtService K) (req : Request K) :
    Spec Turn Ended [] (svc.program req) := by
  have hquiet : ∀ {ψ : List (Event (jwtSig K)) → Except Fault (Response K) → Prop},
      Spec (fun _ o => QuietCall o) ψ [] (svc.program req) → Spec Turn Ended [] (svc.program req) :=
    fun h => quiet_spec (h.meets (fun _ _ ho => ho) (fun _ _ _ => trivial)) rfl
  have hall := svc.program_spec req
  cases req with
  | generate req => exact spec_map (svc.generate_turns req) (fun _ _ h => h) (fun _ _ h => h)
  | extend req => exact spec_map (svc.extend_turns req) (fun _ _ h => h) (fun _ _ h => h)
  | validate req => exact hquiet (hall.mono (fun _ _ ho => Or.inr ho) fun _ _ h => h)
  | introspect req => exact hquiet (hall.mono (fun _ _ ho => Or.inr ho) fun _ _ h => h)
  | authenticateBearer req => exact hquiet (hall.mono (fun _ _ ho => Or.inr ho) fun _ _ h => h)
  | revoke token reason => exact hquiet (hall.mono (fun _ _ ho => Or.inl ho) fun _ _ h => h)
  | revokeByJti jti reason => exact hquiet (hall.mono (fun _ _ ho => Or.inl ho) fun _ _ h => h)
  | bulkRevoke req => exact hquiet (hall.mono (fun _ _ ho => Or.inl ho) fun _ _ h => h)
  | listForSubject subject req =>
      exact hquiet (hall.mono (fun _ _ ho => Or.inl ho) fun _ _ h => h)

end JwtService

/-! ### The phases and the open transactions -/

/-- The open transaction of a task by its phase. -/
def PhaseFits : Phase → Option Tx → Prop
  | .closed, tx => tx = none
  | .opened, tx => ∃ t, tx = some t ∧ t.denylist = []
  | .entered, tx => tx.isSome

/-- A call moves the transaction as it moves the phase. -/
theorem PhaseFits.step {signer : JwtSigner K} {tid : Nat} {s s' : Store} {o : Op} {r : Resp K o}
    (he : Store.Effect signer tid s o r s') {h : List (Event (jwtSig K))} (hturn : Turn h o)
    (hfits : PhaseFits (phase h) (s.txOf tid)) :
    PhaseFits (phase (h ++ [⟨o, r⟩])) (s'.txOf tid) := by
  rw [phase_snoc]
  cases he with
  | now | newUuid | sign | selectDenylist | selectChain => exact hfits
  | query o r hq =>
      cases o with
      | selectDenylistEntry | selectExpiresAt | selectTokens | countTokens => exact hfits
      | _ => exact hq.elim
  | failed o r hf =>
      cases o with
      | selectDenylist | selectChain => exact hfits
      | begin =>
          obtain ⟨e, rfl⟩ := hf
          exact hfits
      | insertMetadata conn row => exact hfits
      | insertDenylist conn jti exp reason =>
          obtain ⟨e, rfl⟩ := hf
          cases conn <;> exact hfits
      | _ => exact hf.elim
  | begin hnone =>
      rw [Store.txOf_setTx_self]
      exact ⟨_, rfl, rfl⟩
  | insertMetadata conn row tx hown =>
      cases conn with
      | pool => exact hfits
      | tx =>
          -- The row goes into the transaction, which has no denylist row in this phase.
          show PhaseFits (phase h) ((s.setTx tid _).txOf tid)
          have hopen : phase h = .opened := hturn
          rw [hopen] at hfits ⊢
          obtain ⟨t, ht, hempty⟩ := hfits
          have hsame : some tx = some t := hown.symm.trans ht
          cases hsame
          rw [Store.txOf_setTx_self]
          exact ⟨_, rfl, hempty⟩
  | conflict conn jti exp reason tx hown =>
      cases conn with
      | pool => exact hfits
      | tx =>
          show (s.txOf tid).isSome
          rw [show s.txOf tid = some tx from hown]
          rfl
  | insertDenylist conn jti exp reason tx hown =>
      cases conn with
      | pool => exact hfits
      | tx =>
          show ((s.setTx tid _).txOf tid).isSome
          rw [Store.txOf_setTx_self]
          rfl
  | commit tx htx =>
      rw [Store.txOf_setTx_self]
      rfl
  | commitFailed e =>
      rw [Store.txOf_setTx_self]
      rfl
  | rollback =>
      rw [Store.txOf_setTx_self]
      rfl

section Runs

variable {svc : JwtService K}
  {P : JwtPool svc → Label (jwtMachine svc.signer) (Request K) → Prop} {s₀ : Store}
  {c : JwtPool svc}

/-- The open transaction of each task is as its phase says, and a task that is not there or is
dropped has none. -/
theorem phase_fits (h₀ : s₀.Idle) (h : JwtReach svc P s₀ c) (tid : Nat) :
    ((c.rest tid).isSome → PhaseFits (phase (eventsOf c.history tid)) (c.shared.txOf tid))
      ∧ (c.rest tid = none → c.shared.txOf tid = none) := by
  refine h.invariant (I := fun c : JwtPool svc => ∀ tid,
    ((c.rest tid).isSome → PhaseFits (phase (eventsOf c.history tid)) (c.shared.txOf tid))
      ∧ (c.rest tid = none → c.shared.txOf tid = none)) ?_ ?_ tid
  · intro tid
    exact ⟨nofun, fun _ => h₀.txOf tid⟩
  intro c l c' hr _ hn ih tid
  cases hn with
  | spawn req =>
      rcases Nat.lt_trichotomy tid c.tasks.length with hlt | heq | hgt
      · rw [show Pool.rest _ tid = c.rest tid by
          simp only [Pool.rest]; rw [List.getElem?_append_left hlt]]
        exact ih tid
      · -- The new task has made no call, and nothing is open under its number.
        have hnone : c.rest tid = none := by simp [Pool.rest, heq]
        refine ⟨fun _ => ?_, fun _ => (ih tid).2 hnone⟩
        show PhaseFits (phase (eventsOf c.history tid)) (c.shared.txOf tid)
        rw [heq, eventsOf_eq_nil hr.history_lt, ← heq]
        exact (ih tid).2 hnone
      · rw [show Pool.rest _ tid = c.rest tid by
          simp only [Pool.rest]
          rw [List.getElem?_eq_none (by simp; omega), List.getElem?_eq_none (by omega)]]
        exact ih tid
  | step tid' ch req o k r s htask hexec =>
      have hlt := (List.getElem?_eq_some_iff.mp htask).1
      have heff := Store.exec_effect hexec
      by_cases heq : tid' = tid
      · subst heq
        have hsome : (c.rest tid').isSome := by simp [Pool.rest, htask]
        constructor
        · intro _
          rw [eventsOf_append_self]
          exact PhaseFits.step heff (hr.call_spec svc.turn_spec htask) ((ih tid').1 hsome)
        · intro hnone
          simp [Pool.rest, hlt] at hnone
      · rw [show Pool.rest _ tid = c.rest tid by
          simp only [Pool.rest]; rw [List.getElem?_set_ne heq]]
        rw [eventsOf_append_ne _ _ heq]
        show _ ∧ (_ → s.txOf tid = none)
        rw [heff.txOf_other (Ne.symm heq)]
        exact ih tid
  | cancel tid' req o k htask =>
      have hlt := (List.getElem?_eq_some_iff.mp htask).1
      by_cases heq : tid' = tid
      · subst heq
        constructor
        · intro hsome
          simp [Pool.rest, hlt] at hsome
        · intro _
          exact Store.txOf_setTx_self _ _ _
      · rw [show Pool.rest _ tid = c.rest tid by
          simp only [Pool.rest]; rw [List.getElem?_set_ne heq]]
        have hsame : Store.txOf (Store.setTx c.shared tid' none) tid = Store.txOf c.shared tid :=
          Store.txOf_setTx_ne _ none heq
        refine ⟨fun hsome => ?_, fun hnone => hsame.trans ((ih tid).2 hnone)⟩
        exact hsame.symm ▸ (ih tid).1 hsome
  | env t s henv =>
      simp only [jwtMachine, Store.tick] at henv
      split at henv
      · cases henv
        exact ih tid
      · cases henv

/-! ### Draws -/

/-- The UUIDs in use are those at the start and those drawn since. -/
theorem used_length (h : JwtReach svc P s₀ c) :
    c.shared.used.length = s₀.used.length + (c.history.map fun e => draws [e.2]).sum := by
  refine store_invariant svc.program_spec (I := fun s hist => s.used.length
    = s₀.used.length + (hist.map fun e => draws [e.2]).sum) h ?_ ?_ ?_ ?_
  · rfl
  · intro s hist tid o r s' req _ he hI
    rw [List.map_append, List.sum_append, List.map_singleton, List.sum_singleton, ← Nat.add_assoc,
      ← hI]
    cases he with
    | newUuid u hfresh => rfl
    | query o r hq => cases o <;> first | exact hq.elim | rfl
    | failed o r hf => cases o <;> first | exact hf.elim | rfl
    | now | selectDenylist | selectChain | conflict | sign => rfl
    | begin | commitFailed | rollback | commit =>
        rw [Store.used_setTx]
        rfl
    | insertMetadata conn row tx | insertDenylist conn jti exp reason tx =>
        cases conn with
        | pool => rfl
        | tx =>
            simp only [Store.write, Store.used_setTx]
            rfl
  · intro s hist tid hI
    rw [Store.used_setTx]
    exact hI
  · intro s hist t hI
    exact hI

/-- The drawn UUIDs of a history are those of its events together. -/
theorem sum_draws (h : List (Event (jwtSig K))) : (h.map fun e => draws [e]).sum = draws h := by
  induction h with
  | nil => rfl
  | cons e h ih =>
      have hcons : draws (e :: h) = draws h + draws [e] := by
        simp [draws, List.countP_cons]
      rw [List.map_cons, List.sum_cons, ih, hcons, Nat.add_comm]

/-- A program draws two UUIDs at most. -/
theorem draws_le (h : JwtReach svc P s₀ c) (tid : Nat) : draws (eventsOf c.history tid) ≤ 2 := by
  refine h.invariant (I := fun c : JwtPool svc => ∀ tid, draws (eventsOf c.history tid) ≤ 2)
    (fun _ => Nat.zero_le 2) ?_ tid
  intro c l c' hr _ hn ih tid
  cases hn with
  | step tid' ch req o k r s htask hexec =>
      by_cases heq : tid' = tid
      · subst heq
        rw [eventsOf_append_self, draws_snoc]
        have hturn : Turn (eventsOf c.history tid') o := hr.call_spec svc.turn_spec htask
        have hle := ih tid'
        cases o with
        | newUuid =>
            have hlt := hturn.1
            show _ + 1 ≤ 2
            omega
        | _ => exact hle
      · rw [eventsOf_append_ne _ _ heq]
        exact ih tid
  | spawn req => exact ih tid
  | cancel tid' req o k htask => exact ih tid
  | env t s henv => exact ih tid

/-- A task that is about to draw finds an unused UUID, while there is room for two per task. -/
theorem room_for_draw (h : JwtReach svc P s₀ c) {n : Nat}
    (hroom : s₀.used.length + 2 * c.tasks.length ≤ n) {tid : Nat} (htid : tid < c.tasks.length)
    (hdraws : draws (eventsOf c.history tid) < 2) : c.shared.used.length < n := by
  have hlt : ((List.range c.tasks.length).map fun i => draws (eventsOf c.history i)).sum
      < ((List.range c.tasks.length).map fun _ => 2).sum :=
    List.sum_lt_sum _ _ (fun i _ => draws_le h i) ⟨tid, List.mem_range.mpr htid, hdraws⟩
  rw [List.map_const', List.sum_replicate, List.length_range] at hlt
  change _ < c.tasks.length * 2 at hlt
  rw [used_length h, sum_tasks h.history_lt fun e => draws [e]]
  simp only [sum_draws]
  omega

/-- A list that is shorter than a family of different values misses one of them. -/
theorem exists_fresh {α : Type} {n : Nat} {f : Fin n → α} (hf : Function.Injective f)
    {l : List α} (h : l.length < n) : ∃ a, a ∉ l := by
  by_contra hall
  have hsub : (List.finRange n).map f ⊆ l := by
    intro a _
    by_contra ha
    exact hall ⟨a, ha⟩
  have hnodup : ((List.finRange n).map f).Nodup := (List.nodup_finRange n).map hf
  have hle := (List.subperm_of_subset hnodup hsub).length_le
  rw [List.length_map, List.length_finRange] at hle
  omega

/-- As long as not all UUIDs are used, there is another one. -/
theorem exists_fresh_uuid {used : List Uuid} (h : used.length < 2 ^ 128) : ∃ u, u ∉ used := by
  refine exists_fresh (f := fun i : Fin (2 ^ 128) => (⟨⟨i⟩⟩ : Uuid)) ?_ h
  intro i j hij
  exact BitVec.ofFin.inj (Uuid.mk.inj hij)

/-- The id of a metadata row is drawn by the task that inserts it. -/
theorem JwtService.Call.row_id {req : Request K} {hist : List (Event (jwtSig K))} {conn : Conn}
    {row : NewMetadata} (hc : svc.Call req hist (.insertMetadata conn row)) :
    (⟨Op.newUuid, row.id⟩ : Event (jwtSig K)) ∈ hist := by
  cases req with
  | generate req =>
      obtain ⟨g, -, rfl, -, rfl⟩ := hc
      exact List.mem_append_right _ (by simp [Generated.row, generateRow])
  | extend req =>
      obtain ⟨x, -, rfl, -, rfl⟩ := hc
      exact List.mem_append_right _ (by simp [Extended.row, extendRow])
  | _ => exact hc.elim

/-- So no two tasks insert rows with one id. -/
theorem row_ids (h₀ : s₀.Idle) (h : JwtReach svc P s₀ c) {tid tid' : Nat} {req : Request K}
    {conn : Conn} {row : NewMetadata} {k : Sql Unit → Action K (Response K)}
    (ht : c.tasks[tid]? = some ⟨req, some (.op (.insertMetadata conn row) k)⟩) {tx : Tx}
    (htx : c.shared.txOf tid' = some tx) {r : MetadataRow} (hr : r ∈ tx.metadata)
    (hid : r.id = row.id) : tid' = tid := by
  have hown : (⟨Op.newUuid, row.id⟩ : Event (jwtSig K)) ∈ eventsOf c.history tid :=
    JwtService.Call.row_id (h.call_spec svc.program_spec ht)
  obtain ⟨row', now, rfl, he⟩ := (metadata_origin h₀ h).open_ tid' tx htx r hr
  obtain ⟨t', ht'⟩ := h.task_of_event (mem_eventsOf.mp he)
  obtain ⟨h₁, h₂, hsplit⟩ := List.append_of_mem he
  have hmem : (⟨Op.newUuid, row'.id⟩ : Event (jwtSig K)) ∈ h₁ :=
    JwtService.Call.row_id (h.event_spec svc.program_spec ht' hsplit)
  refine drawn_unique h (u := row.id) ?_ hown
  rw [hsplit, ← hid]
  exact List.mem_append_left _ hmem

/-! ### Waiting -/

/-- The choice lets the call go on: it is no failure. -/
def Choice.goes : Choice → Prop
  | .fail _ => False
  | _ => True

/-- The call can be answered without a failure. -/
def Ready (c : JwtPool svc) (tid : Nat) (o : Op) : Prop :=
  ∃ ch r s, Choice.goes ch ∧ Store.exec svc.signer tid c.shared o ch = some (r, s)

/-- The call is an insert into the denylist, another task has a row with the same jti in its open
transaction, and the next call of that task ends the transaction and can be answered. -/
def Behind (c : JwtPool svc) (tid : Nat) : Op → Prop
  | .insertDenylist _ jti _ _ => ∃ tid' req o k, tid' ≠ tid
      ∧ (∃ tx, c.shared.txOf tid' = some tx ∧ ∃ r ∈ tx.denylist, r.jwtUuid = jti)
      ∧ c.tasks[tid']? = some ⟨req, some (.op o k)⟩ ∧ (o = .commit ∨ o = .rollback)
      ∧ Ready c tid' o
  | _ => False

/-- A task with a denylist row in its transaction is about to end it. -/
theorem about_to_end (h₀ : s₀.Idle) (h : JwtReach svc P s₀ c) {tid : Nat} {tx : Tx}
    (htx : c.shared.txOf tid = some tx) {r : DenylistRow} (hr : r ∈ tx.denylist) :
    ∃ req o k, c.tasks[tid]? = some ⟨req, some (.op o k)⟩ ∧ (o = .commit ∨ o = .rollback)
      ∧ Ready c tid o := by
  obtain ⟨hrun, hgone⟩ := phase_fits h₀ h tid
  cases hrest : c.rest tid with
  | none =>
      rw [hgone hrest] at htx
      cases htx
  | some p =>
      obtain ⟨⟨req, prog⟩, ht, hprog⟩ := Option.bind_eq_some_iff.mp hrest
      cases (show prog = some p from hprog)
      have hspec : p.Spec Turn Ended (eventsOf c.history tid) := h.spec svc.turn_spec ht rfl
      have hfits := hrun (by rw [hrest]; rfl)
      have hentered : phase (eventsOf c.history tid) = .entered := by
        cases hp : phase (eventsOf c.history tid) with
        | entered => rfl
        | closed =>
            rw [hp] at hfits
            cases htx.symm.trans hfits
        | opened =>
            rw [hp] at hfits
            obtain ⟨tx', htx', hempty⟩ := hfits
            cases htx.symm.trans htx'
            rw [hempty] at hr
            cases hr
      have hne : ∀ {q : Phase}, q ≠ .entered → phase (eventsOf c.history tid) ≠ q := by
        intro q hq heq
        exact hq (heq.symm.trans hentered)
      cases p with
      | ret a => exact absurd hspec (hne nofun)
      | raise e => exact absurd hspec (hne nofun)
      | op o k =>
          have hturn : Turn (eventsOf c.history tid) o := hspec.1
          refine ⟨req, o, k, ht, ?_⟩
          cases o with
          | commit =>
              refine ⟨.inl rfl, .go, .ok (), (Store.apply c.shared tx).setTx tid none, trivial, ?_⟩
              show Store.commit c.shared tid = _
              unfold Store.commit
              rw [htx]
              rfl
          | rollback => exact ⟨.inr rfl, .go, (), Store.setTx c.shared tid none, trivial, rfl⟩
          | newUuid => exact absurd hentered hturn.2
          | insertMetadata conn row =>
              cases conn <;> exact absurd hturn (hne nofun)
          | insertDenylist conn jti exp reason =>
              cases conn <;> exact absurd hturn (hne nofun)
          | _ => exact absurd hturn (hne nofun)

/-- The next call of a running task can be answered, or it waits for a task that is about to end
its transaction. -/
theorem ready_or_behind (h₀ : s₀.Idle) (h : JwtReach svc P s₀ c)
    (hroom : s₀.used.length + 2 * c.tasks.length ≤ 2 ^ 128) {tid : Nat} {req : Request K} {o : Op}
    {k : Resp K o → Action K (Response K)} (ht : c.tasks[tid]? = some ⟨req, some (.op o k)⟩) :
    Ready c tid o ∨ Behind c tid o := by
  have hturn : Turn (eventsOf c.history tid) o := h.call_spec svc.turn_spec ht
  have hfits := (phase_fits h₀ h tid).1 (by simp [Pool.rest, ht])
  have hlt := (List.getElem?_eq_some_iff.mp ht).1
  have hnone : phase (eventsOf c.history tid) = .closed → c.shared.txOf tid = none := by
    intro hp
    rw [hp] at hfits
    exact hfits
  have hown : ∀ conn, (conn = .tx → phase (eventsOf c.history tid) = .opened) →
      ∃ tx, Store.ownTx c.shared tid conn = some tx := by
    intro conn hopen
    cases conn with
    | pool => exact ⟨_, rfl⟩
    | tx =>
        rw [hopen rfl] at hfits
        obtain ⟨tx, htx, -⟩ := hfits
        exact ⟨tx, htx⟩
  cases o with
  | now | selectDenylist | selectDenylistEntry | selectExpiresAt | selectChain | countTokens
  | sign | rollback => exact .inl ⟨.go, _, _, trivial, rfl⟩
  | newUuid =>
      obtain ⟨u, hu⟩ := exists_fresh_uuid (room_for_draw h hroom hlt hturn.1)
      exact .inl ⟨.uuid u, u, _, trivial, if_neg hu⟩
  | selectTokens subject filter limit offset =>
      obtain ⟨order, horder⟩ := exists_descends (fun r : MetadataRow => r.issuedAt.ns)
        (c.shared.metadata.filter (filter.matches subject))
      have hsome : ∃ page, Store.selectTokens c.shared subject filter limit offset order
          = some page := by
        unfold Store.selectTokens
        split
        · exact ⟨_, rfl⟩
        · rw [if_pos ⟨List.isPerm_iff.mpr horder.perm, horder.sorted⟩]
          exact ⟨_, rfl⟩
      obtain ⟨page, hpage⟩ := hsome
      refine .inl ⟨.order order, page, c.shared, trivial, ?_⟩
      show (Store.selectTokens c.shared subject filter limit offset order).map _ = _
      rw [hpage]
      rfl
  | begin =>
      refine .inl ⟨.go, .ok (),
        Store.setTx c.shared tid (some ⟨Store.clock c.shared, [], []⟩), trivial, ?_⟩
      simp only [Store.exec, Store.statement]
      rw [hnone hturn]
      rfl
  | insertMetadata conn row =>
      obtain ⟨tx, htx⟩ := hown conn fun hc => by subst hc; exact hturn
      left
      have hother : Store.otherTx c.shared tid conn
          (fun t => t.metadata.any fun r => r.id = row.id) = false := by
        rw [← Bool.not_eq_true]
        intro hany
        obtain ⟨tid', tx', hne, htx', hp⟩ := Store.otherTx_cases hany fun hc => by
          subst hc; exact hnone hturn
        obtain ⟨r, hr, hid⟩ := List.any_eq_true.mp hp
        exact hne (row_ids h₀ h ht htx' hr (of_decide_eq_true hid))
      have hsome : ∃ x, Store.insertMetadata c.shared tid conn row = some x := by
        unfold Store.insertMetadata
        rw [htx]
        dsimp only
        split
        · exact ⟨_, rfl⟩
        · rw [hother]
          exact ⟨_, rfl⟩
      obtain ⟨⟨r, s⟩, hx⟩ := hsome
      exact ⟨.go, r, s, trivial, hx⟩
  | insertDenylist conn jti exp reason =>
      obtain ⟨tx, htx⟩ := hown conn fun hc => by subst hc; exact hturn
      cases hany : Store.otherTx c.shared tid conn
          (fun t => t.denylist.any fun r => r.jwtUuid = jti) with
      | true =>
          right
          obtain ⟨tid', tx', hne, htx', hp⟩ := Store.otherTx_cases hany fun hc => by
            subst hc; exact hnone hturn
          obtain ⟨r, hr, hkey⟩ := List.any_eq_true.mp hp
          obtain ⟨req', o', k', ht', hend⟩ := about_to_end h₀ h htx' hr
          exact ⟨tid', req', o', k', hne, ⟨tx', htx', r, hr, of_decide_eq_true hkey⟩, ht', hend⟩
      | false =>
          left
          have hsome : ∃ x, Store.insertDenylist c.shared tid conn jti exp reason = some x := by
            unfold Store.insertDenylist
            rw [htx]
            dsimp only
            split
            · exact ⟨_, rfl⟩
            · rw [hany]
              exact ⟨_, rfl⟩
          obtain ⟨⟨r, s⟩, hx⟩ := hsome
          exact ⟨.go, r, s, trivial, hx⟩
  | commit =>
      rw [show phase _ = .entered from hturn] at hfits
      obtain ⟨tx, htx⟩ := Option.isSome_iff_exists.mp hfits
      refine .inl ⟨.go, .ok (), (Store.apply c.shared tx).setTx tid none, trivial, ?_⟩
      show Store.commit c.shared tid = _
      unfold Store.commit
      rw [htx]
      rfl

/-! ### Running to the end -/

/-- The call that ends a transaction leaves none open. -/
theorem txOf_of_end {signer : JwtSigner K} {tid : Nat} {s s' : Store} {o : Op} {r : Resp K o}
    (he : Store.Effect signer tid s o r s') (ho : o = .commit ∨ o = .rollback) :
    s'.txOf tid = none := by
  rcases ho with rfl | rfl
  · cases he with
    | commit | commitFailed => exact Store.txOf_setTx_self _ _ _
    | query o r hq => exact hq.elim
    | failed o r hf => exact hf.elim
  · cases he with
    | rollback => exact Store.txOf_setTx_self _ _ _
    | query o r hq => exact hq.elim
    | failed o r hf => exact hf.elim

/-- One answer that does not fail, as a step of the pool. -/
theorem step_of_ready {tid : Nat} {req : Request K} {o : Op} {k : Resp K o → Action K (Response K)}
    (ht : c.tasks[tid]? = some ⟨req, some (.op o k)⟩) (hready : Ready c tid o) :
    ∃ (r : Resp K o) (s : Store) (c' : JwtPool svc),
      Pool.Reach svc.program (Answers Choice.goes) c c'
      ∧ Store.Effect svc.signer tid c.shared o r s ∧ c'.shared = s
      ∧ c'.tasks = c.tasks.set tid ⟨req, some (k r)⟩
      ∧ c'.history = c.history ++ [(tid, ⟨o, r⟩)] := by
  obtain ⟨ch, r, s, hgoes, hexec⟩ := hready
  refine ⟨r, s, ⟨s, c.tasks.set tid ⟨req, some (k r)⟩, c.history ++ [(tid, ⟨o, r⟩)]⟩,
    .tail (.step tid ch) .refl hgoes ?_, Store.exec_effect hexec, rfl, rfl, rfl⟩
  have hexec' : (jwtMachine svc.signer).exec tid c.shared o ch = some (r, s) := hexec
  simp [Pool.next, ht, hexec']

/-- The open transaction of the task has no denylist row. -/
def NoEntry (c : JwtPool svc) (tid : Nat) : Prop :=
  ∀ tx, Store.txOf c.shared tid = some tx → tx.denylist = []

/-- An answer that does not fail is a step of a run. -/
theorem reach_answers {c₁ c₂ : JwtPool svc} (h₁ : JwtReach svc Pool.Any s₀ c₁)
    (h₂ : Pool.Reach svc.program (Answers Choice.goes) c₁ c₂) : JwtReach svc Pool.Any s₀ c₂ :=
  h₁.trans (h₂.mono fun _ _ _ => trivial)

/-- The transaction of one task can be ended when it has a denylist row. -/
theorem end_transaction (h₀ : s₀.Idle) (h : JwtReach svc Pool.Any s₀ c) (tid : Nat) :
    ∃ c', Pool.Reach svc.program (Answers Choice.goes) c c' ∧ JwtReach svc Pool.Any s₀ c'
      ∧ NoEntry c' tid ∧ ∀ tid', NoEntry c tid' → NoEntry c' tid' := by
  by_cases hno : NoEntry c tid
  · exact ⟨c, .refl, h, hno, fun _ h => h⟩
  · -- The one call that the task has left in its transaction is made now.
    simp only [NoEntry, not_forall] at hno
    obtain ⟨tx, htx, hne⟩ := hno
    obtain ⟨r, hr⟩ := List.exists_mem_of_ne_nil tx.denylist hne
    obtain ⟨req, o, k, ht, hend, hready⟩ := about_to_end h₀ h htx hr
    obtain ⟨a, s, c', hstep, heff, hs, -, -⟩ := step_of_ready ht hready
    have hclosed : NoEntry c' tid := by
      intro tx' htx'
      rw [hs, txOf_of_end heff hend] at htx'
      cases htx'
    refine ⟨c', hstep, reach_answers h hstep, hclosed, fun tid' hno' => ?_⟩
    by_cases heq : tid' = tid
    · exact heq ▸ hclosed
    · intro tx' htx'
      rw [hs, heff.txOf_other heq] at htx'
      exact hno' tx' htx'

/-- The transactions that have a denylist row can all be ended. -/
theorem end_transactions (h₀ : s₀.Idle) (h : JwtReach svc Pool.Any s₀ c) :
    ∃ c', Pool.Reach svc.program (Answers Choice.goes) c c' ∧ ∀ tid, NoEntry c' tid := by
  obtain ⟨c', hreach, hJ, hQ⟩ := Pool.each (J := fun c => JwtReach svc Pool.Any s₀ c)
    (fun c₁ tid h₁ => end_transaction h₀ h₁ tid) c.tasks.length h
  refine ⟨c', hreach, fun tid => ?_⟩
  rcases Nat.lt_or_ge tid c.tasks.length with hlt | hge
  · exact hQ tid hlt
  · intro tx htx
    have hnone : c'.rest tid = none := by
      simp only [Pool.rest]
      rw [List.getElem?_eq_none (by rw [hreach.keeps_running.1]; exact hge)]
      rfl
    rw [(phase_fits h₀ hJ tid).2 hnone] at htx
    cases htx

/-- A task with a result has no open transaction. -/
theorem txOf_of_result (h₀ : s₀.Idle) (h : JwtReach svc P s₀ c) {tid : Nat}
    {t : Task (jwtSig K) Fault (Response K) (Request K)} (ht : c.tasks[tid]? = some t)
    (hres : t.result.isSome) : Store.txOf c.shared tid = none := by
  obtain ⟨x, hx⟩ := Option.isSome_iff_exists.mp hres
  have hclosed : phase (eventsOf c.history tid) = .closed := h.result_spec svc.turn_spec ht hx
  obtain ⟨p, hp⟩ : ∃ p, t.prog = some p := by
    cases hprog : t.prog with
    | none =>
        simp [Task.result, hprog] at hx
    | some p => exact ⟨p, rfl⟩
  have hfits := (phase_fits h₀ h tid).1 (by simp [Pool.rest, ht, hp])
  rw [hclosed] at hfits
  exact hfits

/-- What the last part of the run keeps: no transaction has a denylist row, and no task is
added. -/
structure Settling (svc : JwtService K) (s₀ : Store) (n : Nat) (c : JwtPool svc) : Prop where
  reach : JwtReach svc Pool.Any s₀ c
  noEntry : ∀ tid, NoEntry c tid
  length : c.tasks.length = n

/-- One task can be run to its result while no transaction has a denylist row. -/
theorem Settling.finish {n : Nat} (h₀ : s₀.Idle) (hroom : s₀.used.length + 2 * n ≤ 2 ^ 128)
    (h : Settling svc s₀ n c) (tid : Nat) :
    ∃ c', Pool.Reach svc.program (Answers Choice.goes) c c' ∧ Settling svc s₀ n c'
      ∧ c'.Finished tid ∧ ∀ tid', c.Finished tid' → c'.Finished tid' := by
  cases hrest : c.rest tid with
  | none =>
      refine ⟨c, .refl, h, fun t ht hrun => ?_, fun _ h => h⟩
      simp only [Pool.rest, ht, Option.bind_some] at hrest
      rw [hrest] at hrun
      cases hrun
  | some p =>
      obtain ⟨⟨req, prog⟩, ht, hprog⟩ := Option.bind_eq_some_iff.mp hrest
      cases (show prog = some p from hprog)
      -- While this task runs, no other transaction has a denylist row.
      let I : JwtPool svc → Prop := fun c => JwtReach svc Pool.Any s₀ c
        ∧ (∀ tid', tid' ≠ tid → NoEntry c tid') ∧ c.tasks.length = n
      have hready : ∀ (c₁ : JwtPool svc) (req : Request K) (o : Op)
          (k : Resp K o → Action K (Response K)), I c₁ →
          c₁.tasks[tid]? = some ⟨req, some (.op o k)⟩ → Ready c₁ tid o := by
        intro c₁ req o k hI ht₁
        obtain ⟨h₁, hothers, hlen⟩ := hI
        rcases ready_or_behind h₀ h₁ (by rw [hlen]; exact hroom) ht₁ with hready | hbehind
        · exact hready
        · cases o with
          | insertDenylist conn jti exp reason =>
              obtain ⟨tid', -, -, -, hne, ⟨tx, htx, r, hr, -⟩, -⟩ := hbehind
              rw [hothers tid' hne tx htx] at hr
              cases hr
          | _ => exact hbehind.elim
      have hstep : ∀ (c₁ : JwtPool svc) (ch : Choice) (c₂ : JwtPool svc), I c₁ → ch.goes →
          Pool.next svc.program c₁ (.step tid ch) = some c₂ → I c₂ := by
        intro c₁ ch c₂ hI hgoes hnext
        obtain ⟨h₁, hothers, hlen⟩ := hI
        have hone : Pool.Reach svc.program (Answers Choice.goes) c₁ c₂ :=
          .tail (.step tid ch) .refl hgoes hnext
        refine ⟨reach_answers h₁ hone, ?_, hone.keeps_running.1.trans hlen⟩
        intro tid' hne tx htx
        cases Pool.next_cases svc.program hnext with
        | step _ _ req o k r s htask hexec =>
            have heff := Store.exec_effect hexec
            exact hothers tid' hne tx ((heff.txOf_other hne).symm.trans htx)
      obtain ⟨c', t', hreach, ⟨h', hothers, hlen'⟩, htasks, hres⟩ :=
        Pool.finish_task hready hstep ⟨h.reach, fun tid' _ => h.noEntry tid', h.length⟩ ht
      have ht' : c'.tasks[tid]? = some t' := by
        rw [htasks]
        exact List.getElem?_set_self (List.getElem?_eq_some_iff.mp ht).1
      have hfin : c'.Finished tid := by
        intro t ht _
        cases ht'.symm.trans ht
        exact hres
      refine ⟨c', hreach, ⟨h', fun tid' => ?_, hlen'⟩, hfin, fun tid' hq => ?_⟩
      · by_cases heq : tid' = tid
        · intro tx htx
          rw [heq, txOf_of_result h₀ h' ht' hres] at htx
          cases htx
        · exact hothers tid' heq
      · by_cases heq : tid' = tid
        · exact heq ▸ hfin
        · intro t ht hrun
          rw [htasks, List.getElem?_set_ne (Ne.symm heq)] at ht
          exact hq t ht hrun

/-- From every reachable pool, whatever has happened before, the requests that run can all be
brought to their results by answers that do not fail. Two unused UUIDs for each request are
enough. -/
theorem completes (h₀ : s₀.Idle) (h : JwtReach svc P s₀ c)
    (hroom : s₀.used.length + 2 * c.tasks.length ≤ 2 ^ 128) :
    ∃ c' : JwtPool svc, Pool.Reach svc.program (Answers Choice.goes) c c'
      ∧ c'.tasks.length = c.tasks.length
      ∧ ∀ (tid : Nat) (t : Task (jwtSig K) Fault (Response K) (Request K)),
        c.tasks[tid]? = some t → t.prog.isSome →
        ∃ t', c'.tasks[tid]? = some t' ∧ t'.req = t.req ∧ t'.result.isSome := by
  have hany : JwtReach svc Pool.Any s₀ c := h.mono fun _ _ _ => trivial
  obtain ⟨c₁, hreach₁, hno⟩ := end_transactions h₀ hany
  have hlen := hreach₁.keeps_running.1
  obtain ⟨c₂, hreach₂, -, hfin⟩ := Pool.each (J := Settling svc s₀ c.tasks.length)
    (fun c₁ tid h₁ => Settling.finish h₀ hroom h₁ tid) c.tasks.length
    ⟨reach_answers hany hreach₁, hno, hlen⟩
  have hreach := hreach₁.trans hreach₂
  refine ⟨c₂, hreach, hreach.keeps_running.1, fun tid t ht hrun => ?_⟩
  obtain ⟨t', ht', hreq, -⟩ := hreach.task_persists ht
  refine ⟨t', ht', hreq, hfin tid (List.getElem?_eq_some_iff.mp ht).1 t' ht' ?_⟩
  have hkeep := hreach.keeps_running.2 tid
  simpa [Pool.rest, ht, ht', hrun] using hkeep

/-- A call that waits is an insert into the denylist, and one step of one other task is enough to
let it go on: the commit or the rollback that this task makes next. -/
theorem waits_one_step (h₀ : s₀.Idle) (h : JwtReach svc P s₀ c)
    (hroom : s₀.used.length + 2 * c.tasks.length ≤ 2 ^ 128) {tid : Nat} {req : Request K} {o : Op}
    {k : Resp K o → Action K (Response K)} (ht : c.tasks[tid]? = some ⟨req, some (.op o k)⟩)
    (hwait : ¬ Ready c tid o) :
    (∃ conn jti exp reason, o = .insertDenylist conn jti exp reason)
      ∧ ∃ (c' : JwtPool svc) (tid' : Nat) (e : Event (jwtSig K)), tid' ≠ tid
        ∧ Pool.Reach svc.program (Answers Choice.goes) c c'
        ∧ c'.history = c.history ++ [(tid', e)] ∧ (e.op = .commit ∨ e.op = .rollback)
        ∧ c'.tasks[tid]? = some ⟨req, some (.op o k)⟩ ∧ Ready c' tid o := by
  have hany : JwtReach svc Pool.Any s₀ c := h.mono fun _ _ _ => trivial
  cases o with
  | insertDenylist conn jti exp reason =>
      refine ⟨⟨conn, jti, exp, reason, rfl⟩, ?_⟩
      obtain ⟨tid', req', o', k', hne, ⟨tx, htx, r, hr, hkey⟩, ht', hend, hready⟩ :=
        (ready_or_behind h₀ h hroom ht).resolve_left hwait
      obtain ⟨a, s, c', hstep, heff, hs, htasks, hhist⟩ := step_of_ready ht' hready
      have hsame : c'.tasks[tid]?
          = some ⟨req, some (.op (.insertDenylist conn jti exp reason) k)⟩ := by
        rw [htasks, List.getElem?_set_ne hne]
        exact ht
      refine ⟨c', tid', ⟨o', a⟩, hne, hstep, hhist, hend, hsame, ?_⟩
      have hlen := hstep.keeps_running.1
      refine (ready_or_behind h₀ (reach_answers hany hstep) (by rw [hlen]; exact hroom)
        hsame).resolve_right ?_
      -- A second transaction with the key would have been open next to the first.
      intro ⟨tid'', _, _, _, _, ⟨tx', htx', r', hr', hkey'⟩, _⟩
      rw [hs] at htx'
      have hne' : tid'' ≠ tid' := by
        rintro rfl
        rw [txOf_of_end heff hend] at htx'
        cases htx'
      rw [heff.txOf_other hne'] at htx'
      exact (denylist_keys h₀ h).txApart tid'' tid' tx' tx hne' htx' htx r' hr' r hr
        (hkey'.trans hkey.symm)
  | _ => exact ((ready_or_behind h₀ h hroom ht).resolve_left hwait).elim

end Runs

/-! ### A revocation that waits for an extension -/

namespace Symbolic

/-- The extension of task 1 stops before its commit, and the revocation of task 2 comes to its
insert. -/
def waitingRun : List RunLabel :=
  generateRun ++ [.spawn (.extend ⟨token, none⟩), .spawn (.revoke token none)] ++ extendRead 1 ⟨3⟩
    ++ [.step 1 .go, .step 1 (.uuid ⟨5⟩), .step 1 .go, .step 1 .go, .step 2 .go]

/-- The next call of the task is an insert into the denylist that waits. -/
def insertWaits (c : JwtPool service) (tid : Nat) : Bool :=
  match c.tasks[tid]? with
  | some ⟨_, some (.op (.insertDenylist conn jti exp reason) _)⟩ =>
      (Store.insertDenylist c.shared tid conn jti exp reason).isNone
  | _ => false

/-- The test of a task whose insert has to wait. -/
theorem not_ready_of_insertWaits {c : JwtPool service} {tid : Nat} (h : insertWaits c tid = true) :
    ∃ req o k, c.tasks[tid]? = some ⟨req, some (.op o k)⟩ ∧ ¬ Ready c tid o := by
  unfold insertWaits at h
  split at h
  · rename_i req conn jti exp reason k ht
    refine ⟨req, _, k, ht, ?_⟩
    rintro ⟨ch, r, s, hgoes, hexec⟩
    cases ch with
    | go =>
        have hnone : Store.insertDenylist c.shared tid conn jti exp reason = none :=
          Option.isNone_iff_eq_none.mp h
        have hsome : Store.insertDenylist c.shared tid conn jti exp reason = some (r, s) := hexec
        cases hnone.symm.trans hsome
    | fail e => exact hgoes
    | uuid u => cases hexec
    | order rows => cases hexec
  · cases h

/-- Such a pool is reached, with three tasks. -/
theorem waiting_reached : ∃ c, JwtReach service Pool.Any store c
    ∧ store.used.length + 2 * c.tasks.length ≤ 2 ^ 128 ∧ insertWaits c 2 = true := by
  obtain ⟨c, hreach, hq⟩ := Pool.exists_reach service.program (fun _ _ => true)
    (fun c : JwtPool service => decide (c.tasks.length = 3) && insertWaits c 2)
    (Pool.init store) waitingRun (by decide +kernel)
  simp only [Bool.and_eq_true, decide_eq_true_eq] at hq
  refine ⟨c, hreach.mono fun _ _ _ => trivial, ?_, hq.2⟩
  rw [hq.1]
  decide

end Symbolic

open Symbolic in
/-- A pool in which one insert waits for another task comes to its end. -/
theorem completes_waiting : ∃ c c' : JwtPool service, insertWaits c 2 = true
    ∧ Pool.Reach service.program (Answers Choice.goes) c c'
    ∧ c'.tasks.length = c.tasks.length
    ∧ ∀ (tid : Nat) (t : Task (jwtSig symbolic) Fault (Response symbolic) (Request symbolic)),
      c.tasks[tid]? = some t → t.prog.isSome →
      ∃ t', c'.tasks[tid]? = some t' ∧ t'.req = t.req ∧ t'.result.isSome := by
  obtain ⟨c, hreach, hroom, hwaits⟩ := waiting_reached
  obtain ⟨c', hdone⟩ := completes store_idle hreach hroom
  exact ⟨c, c', hwaits, hdone⟩

open Symbolic in
/-- A pool in which a revocation waits, and the one step after which it does not. -/
theorem waits_one_step_revoke : ∃ (c c' : JwtPool service) (o : Op), ¬ Ready c 2 o ∧ Ready c' 2 o
    ∧ Pool.Reach service.program (Answers Choice.goes) c c' := by
  obtain ⟨c, hreach, hroom, hwaits⟩ := waiting_reached
  obtain ⟨req, o, k, ht, hno⟩ := not_ready_of_insertWaits hwaits
  obtain ⟨-, c', tid', e, -, hstep, -, -, -, hready⟩ :=
    waits_one_step store_idle hreach hroom ht hno
  exact ⟨c, c', o, hno, hready, hstep⟩

end Tim
