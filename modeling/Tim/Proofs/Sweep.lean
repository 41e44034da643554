import Tim.Lib.Shadow
import Tim.Proofs.Callback

/-!
# `Tim.Proofs.Sweep`: the sweeper of `auth.oauth_state` is not seen

The sweeper deletes the rows that are older than `state_max_age_seconds`, at any time and any
number of times. No login and no callback can tell: `sweep_unobservable` gives, for every run of
the flow, a run of the same requests in which no sweep goes through, and every request but those of
the sweeper has the same calls, the same answers and the same result.

The second run keeps rows that the first has lost. `Unswept` relates the two tables: a row that is
only in the second is older than the maximum age, and it stays so as time passes. A callback asks
for a row that is younger, so it does not find it, and a login draws a state that no row has.

* `statement`, `lookup`, `deleteState`, `insertState`: the calls of the flow with the swept rows and
  without.
* `sweep_task`: one step, with a sweep answered by nothing.
* `hides_sweep`: a whole run.
-/

set_option autoImplicit false

namespace Tim.OAuth

open Tim.Lib OAuthService

/-! ### The two tables -/

/-- A row that is older than the maximum age stays so. -/
theorem StateRow.olderThan_mono {r : StateRow} {maxAge : Int32} {t t' : DateTime}
    (h : r.olderThan maxAge t = true) (hle : t ≤ t') : r.olderThan maxAge t' = true := by
  have hns : t.ns ≤ t'.ns := hle
  have hold : r.createdAt.ns < t.ns / 1000 * 1000 - maxAge.toInt * nanosPerSecond :=
    of_decide_eq_true h
  refine decide_eq_true ?_
  show r.createdAt.ns < t'.ns / 1000 * 1000 - maxAge.toInt * nanosPerSecond
  omega

/-- It is not younger. -/
theorem StateRow.not_youngerThan {r : StateRow} {maxAge : Int32} {t : DateTime}
    (h : r.olderThan maxAge t = true) : r.youngerThan maxAge t = false := by
  have hold : r.createdAt.ns < t.toTimestamptz.ns - maxAge.toInt * nanosPerSecond :=
    of_decide_eq_true h
  refine decide_eq_false ?_
  omega

namespace State

variable {store : SessionStore}

/-- The state with another table of rows. -/
def withTable (s : State store) (states : Std.ExtTreeMap String StateRow)
    (removed : List Removal) : State store :=
  { s with states := states, removed := removed }

/-- The calls that do not touch the table. -/
def TableFree : Op → Prop
  | .insertState _ | .deleteState .. | .sweepState _ => False
  | _ => True

/-- The second state has all rows of the first. Its other rows are older than the maximum
age. -/
structure Unswept (maxAge : Int32) (s s' : State store) : Prop where
  table : ∃ states removed, s' = s.withTable states removed
  kept : ∀ (state : String) row, s.states[state]? = some row → s'.states[state]? = some row
  stale : ∀ (state : String) row, s'.states[state]? = some row →
    s.states[state]? = some row ∨ row.olderThan maxAge s.clock = true

variable {discoveryTtl jwksTtl tid : Nat} {maxAge : Int32} {s s' s₁ : State store}

/-- A call that does not touch the table does the same beside any table. -/
theorem exec_withTable {o : Op} (ho : TableFree o) (ch : Choice)
    (states : Std.ExtTreeMap String StateRow) (removed : List Removal) :
    (s.withTable states removed).exec discoveryTtl jwksTtl tid o ch
      = (s.exec discoveryTtl jwksTtl tid o ch).map fun x =>
          (x.1, x.2.withTable states removed) := by
  cases o with
  | insertState row => exact ho.elim
  | deleteState state providerId maxAge => exact ho.elim
  | sweepState maxAge => exact ho.elim
  | fillBytes n =>
      cases ch with
      | bytes b =>
          show (if b.length = n ∧ b ∉ s.used then _ else _)
            = (if b.length = n ∧ b ∉ s.used then _ else _ : Option _).map _
          split <;> rfl
      | _ => rfl
  | jwksGet uri =>
      cases ch with
      | go =>
          show some ((s.withTable states removed).jwksGet jwksTtl tid uri)
            = some ((s.jwksGet jwksTtl tid uri).1,
                (s.jwksGet jwksTtl tid uri).2.withTable states removed)
          unfold jwksGet
          cases h : (s.jwks[uri]?).filter fun e => e.live jwksTtl s.clock with
          | none =>
              rw [show ((s.withTable states removed).jwks[uri]?).filter
                (fun e => e.live jwksTtl (s.withTable states removed).clock) = none from h]
          | some e =>
              rw [show ((s.withTable states removed).jwks[uri]?).filter
                (fun e => e.live jwksTtl (s.withTable states removed).clock) = some e from h]
              rfl
      | _ => rfl
  | _ => cases ch <;> rfl

/-- And it leaves the table as it is. -/
theorem Effect.states_eq {o : Op} {r : Resp o} (ho : TableFree o)
    (h : Effect discoveryTtl jwksTtl tid s o r s₁) : s₁.states = s.states := by
  cases h with
  | inserted row hfree => exact ho.elim
  | insertFailed row e => exact ho.elim
  | consumed state providerId maxAge row hrow hprovider hyoung => exact ho.elim
  | swept maxAge => exact ho.elim
  | _ => rfl

namespace Unswept

/-- Nothing is swept between a state and itself. -/
theorem refl (maxAge : Int32) (s : State store) : Unswept maxAge s s :=
  ⟨⟨s.states, s.removed, rfl⟩, fun _ _ h => h, fun _ _ h => .inl h⟩

/-- The sweeper does not move the clock. -/
theorem clock_eq (h : Unswept maxAge s s') : s'.clock = s.clock := by
  obtain ⟨states, removed, rfl⟩ := h.table
  rfl

/-- Calls beside the table. -/
theorem beside (h : Unswept maxAge s s') {o : Op} {r : Resp o} (ho : TableFree o) {ch : Choice}
    (hexec : s.exec discoveryTtl jwksTtl tid o ch = some (r, s₁)) :
    ∃ s₁', s'.exec discoveryTtl jwksTtl tid o ch = some (r, s₁') ∧ Unswept maxAge s₁ s₁' := by
  have heff : Effect discoveryTtl jwksTtl tid s o r s₁ := exec_effect hexec
  obtain ⟨states, removed, rfl⟩ := h.table
  refine ⟨s₁.withTable states removed, ?_, ⟨states, removed, rfl⟩, ?_, ?_⟩
  · rw [exec_withTable ho, hexec]
    rfl
  · rw [heff.states_eq ho]
    exact h.kept
  · rw [heff.states_eq ho, heff.clock_eq]
    exact h.stale

/-- Statements with the same answer that leave related states. -/
theorem statement (h : Unswept maxAge s s') {α : Type} {f f' : Sql α × State store}
    (hanswer : f'.1 = f.1) (hstate : Unswept maxAge f.2 f'.2) {ch : Choice} {r : Sql α}
    (hexec : s.statement f ch = some (r, s₁)) :
    ∃ s₁', s'.statement f' ch = some (r, s₁') ∧ Unswept maxAge s₁ s₁' := by
  cases ch with
  | go =>
      have heq : f = (r, s₁) := Option.some.inj hexec
      refine ⟨f'.2, congrArg some (Prod.ext ?_ rfl), ?_⟩
      · rw [hanswer, heq]
      · rw [heq] at hstate
        exact hstate
  | fail e =>
      cases hexec
      exact ⟨s', rfl, h⟩
  | _ => cases hexec

/-- The `DELETE` of a callback finds a row in one table exactly when it does in the other. -/
theorem lookup (h : Unswept maxAge s s') (state providerId : String) :
    ((s'.states[state]?).filter fun r =>
        r.providerId == providerId && r.youngerThan maxAge s.clock)
      = (s.states[state]?).filter fun r =>
        r.providerId == providerId && r.youngerThan maxAge s.clock := by
  cases hrow' : s'.states[state]? with
  | none =>
      cases hrow : s.states[state]? with
      | none => rfl
      | some row =>
          have hkept := h.kept state row hrow
          rw [hrow'] at hkept
          cases hkept
  | some row =>
      rcases h.stale state row hrow' with hrow | hold
      · rw [hrow]
      · -- A row that is only in the second table is too old.
        cases hrow : s.states[state]? with
        | none => simp [Option.filter, StateRow.not_youngerThan hold]
        | some row' =>
            have hkept := h.kept state row' hrow
            cases hrow'.symm.trans hkept
            rfl

/-- The `DELETE` of a callback answers the same with the swept rows and without them: such a row is
too old for it anyway. -/
theorem deleteState (h : Unswept maxAge s s') (tid : Nat) (state providerId : String) :
    (s'.deleteState tid state providerId maxAge).1 = (s.deleteState tid state providerId maxAge).1
      ∧ Unswept maxAge (s.deleteState tid state providerId maxAge).2
          (s'.deleteState tid state providerId maxAge).2 := by
  have hlookup := h.lookup state providerId
  have hclock := h.clock_eq
  unfold State.deleteState
  rw [hclock, hlookup]
  split
  · exact ⟨rfl, h⟩
  · split
    · exact ⟨rfl, h⟩
    · obtain ⟨states, removed, htable⟩ := h.table
      refine ⟨rfl, ⟨_, _, by rw [htable]; rfl⟩, ?_, ?_⟩
      · intro state' row hrow
        show (s'.states.erase state)[state']? = some row
        have hrow : (s.states.erase state)[state']? = some row := hrow
        rw [Std.ExtTreeMap.getElem?_erase] at hrow ⊢
        split at hrow
        · cases hrow
        · rename_i hne
          rw [if_neg hne]
          exact h.kept state' row hrow
      · intro state' row hrow
        show (s.states.erase state)[state']? = some row ∨ _
        have hrow : (s'.states.erase state)[state']? = some row := hrow
        rw [Std.ExtTreeMap.getElem?_erase] at hrow ⊢
        split at hrow
        · cases hrow
        · rename_i hne
          rw [if_neg hne]
          exact h.stale state' row hrow

/-- The `INSERT` of a login answers the same, when its key is one that was never used. -/
theorem insertState (h : Unswept maxAge s s') {row : NewState}
    (hfree : s'.states[row.state]? = none) :
    (s'.insertState row).1 = (s.insertState row).1
      ∧ Unswept maxAge (s.insertState row).2 (s'.insertState row).2 := by
  have hfree₀ : s.states[row.state]? = none := by
    cases hrow : s.states[row.state]? with
    | none => rfl
    | some old =>
        have hkept := h.kept _ old hrow
        rw [hfree] at hkept
        cases hkept
  have hclock := h.clock_eq
  unfold State.insertState
  rw [hfree, hfree₀, hclock]
  split
  · exact ⟨rfl, h⟩
  · rw [if_neg (by simp), if_neg (by simp)]
    obtain ⟨states, removed, htable⟩ := h.table
    refine ⟨rfl, ⟨_, _, by rw [htable]; rfl⟩, ?_, ?_⟩
    · intro state row' hrow
      show (s'.states.insert row.state _)[state]? = some row'
      have hrow : (s.states.insert row.state ⟨row, s.clock.toTimestamptz⟩)[state]?
        = some row' := hrow
      rw [Std.ExtTreeMap.getElem?_insert] at hrow ⊢
      split at hrow
      · rename_i heq
        rw [if_pos heq]
        exact hrow
      · rename_i hne
        rw [if_neg hne]
        exact h.kept state row' hrow
    · intro state row' hrow
      show (s.states.insert row.state _)[state]? = some row' ∨ _
      have hrow : (s'.states.insert row.state ⟨row, s.clock.toTimestamptz⟩)[state]?
        = some row' := hrow
      rw [Std.ExtTreeMap.getElem?_insert] at hrow ⊢
      split at hrow
      · rename_i heq
        rw [if_pos heq]
        exact .inl hrow
      · rename_i hne
        rw [if_neg hne]
        exact h.stale state row' hrow

/-- A sweep that only the first state has made. -/
theorem sweepState (h : Unswept maxAge s s') (tid : Nat) :
    Unswept maxAge (s.sweepState tid maxAge).2 s' := by
  obtain ⟨states, removed, htable⟩ := h.table
  refine ⟨⟨states, removed, htable⟩, ?_, ?_⟩
  · intro state row hrow
    have hrow : (s.states.filter fun _ r => !r.olderThan maxAge s.clock)[state]? = some row := hrow
    rw [Std.ExtTreeMap.getElem?_filter', Option.filter_eq_some_iff] at hrow
    exact h.kept state row hrow.1
  · intro state row hrow
    show (s.states.filter fun _ r => !r.olderThan maxAge s.clock)[state]? = some row ∨ _
    rcases h.stale state row hrow with hrow | hold
    · by_cases hold : row.olderThan maxAge s.clock = true
      · exact .inr hold
      · refine .inl ?_
        rw [Std.ExtTreeMap.getElem?_filter', hrow]
        simp [Option.filter, hold]
    · exact .inr hold

/-- Time passes, or a cache drops an entry. -/
theorem env (h : Unswept maxAge s s') {e : Env} (henv : s.env e = some s₁) :
    ∃ s₁', s'.env e = some s₁' ∧ Unswept maxAge s₁ s₁' := by
  obtain ⟨states, removed, rfl⟩ := h.table
  cases e with
  | tick t =>
      simp only [State.env] at henv
      split at henv
      · rename_i hle
        cases henv
        refine ⟨{ s.withTable states removed with clock := t }, if_pos hle,
          ⟨states, removed, rfl⟩, h.kept, fun state row hrow => ?_⟩
        exact (h.stale state row hrow).imp_right fun hold => StateRow.olderThan_mono hold hle
      · cases henv
  | evictDiscovery url =>
      cases henv
      exact ⟨_, rfl, ⟨states, removed, rfl⟩, h.kept, h.stale⟩
  | evictJwks uri =>
      cases henv
      exact ⟨_, rfl, ⟨states, removed, rfl⟩, h.kept, h.stale⟩

end Unswept

end State

/-! ### The two runs -/

section Runs

variable {K : OAuthCrates} {store : SessionStore} {discoveryTtl jwksTtl : Nat}
  {svc : OAuthService K}
  {P : FlowPool store discoveryTtl jwksTtl → FlowLabel store discoveryTtl jwksTtl → Prop}
  {s₀ : State store} {c d : FlowPool store discoveryTtl jwksTtl}

/-- The request is one of the sweeper. -/
def IsSweep (req : Request) : Prop := req = .sweepOauthState

/-- No sweep goes through: its statement fails, as it can at any time. -/
def NoSweep (c : FlowPool store discoveryTtl jwksTtl) :
    FlowLabel store discoveryTtl jwksTtl → Prop
  | .step tid ch => ∀ req maxAge k,
      c.tasks[tid]? = some ⟨req, some (.op (.sweepState maxAge) k)⟩ → ∃ e, ch = .fail e
  | _ => True

/-- What is left of a sweep after its statement. -/
theorem sweep_rest (svc : OAuthService K) :
    ∃ k : Sql Nat → Flow Response, svc.program .sweepOauthState = .op (.sweepState svc.maxAge) k
      ∧ ∀ r, Task.Still
        (⟨.sweepOauthState, some (k r)⟩ : Task oauthSig Fault Response Request) := by
  refine ⟨_, rfl, fun r o k heq => ?_⟩
  cases r with
  | ok n => cases heq
  | error e => cases heq

/-- A task of the sweeper is at its statement, or it has made it. -/
theorem sweep_task (h : FlowReach svc P s₀ c) {tid : Nat}
    {t : Task oauthSig Fault Response Request} (ht : c.tasks[tid]? = some t)
    (hreq : IsSweep t.req) : t.prog = some (svc.program .sweepOauthState) ∨ t.Still := by
  obtain ⟨k, hprogram, hstill⟩ := sweep_rest svc
  have hinv := h.invariant
    (I := fun c => ∀ (tid : Nat) (t : Task oauthSig Fault Response Request),
      c.tasks[tid]? = some t → IsSweep t.req →
      t.prog = some (svc.program .sweepOauthState) ∨ t.Still) (by simp [Pool.init]) ?_
  · exact hinv tid t ht hreq
  intro c l c' _ _ hn hI tid t ht hreq
  have hset : ∀ (tid' : Nat) (u v : Task oauthSig Fault Response Request),
      c.tasks[tid']? = some u → (c.tasks.set tid' v)[tid]? = some t →
      (t = v ∨ t.prog = some (svc.program .sweepOauthState) ∨ t.Still) := by
    intro tid' u v hu ht
    by_cases heq : tid' = tid
    · subst heq
      rw [List.getElem?_set_self (List.getElem?_eq_some_iff.mp hu).1] at ht
      cases ht
      exact .inl rfl
    · rw [List.getElem?_set_ne heq] at ht
      exact .inr (hI tid t ht hreq)
  cases hn with
  | spawn req =>
      rcases Nat.lt_or_ge tid c.tasks.length with hlt | hge
      · rw [List.getElem?_append_left hlt] at ht
        exact hI tid t ht hreq
      · rw [List.getElem?_append_right hge, List.getElem?_singleton] at ht
        split at ht
        · cases ht
          cases hreq
          exact .inl rfl
        · cases ht
  | step tid' ch req o k' r s htask hexec =>
      rcases hset tid' _ _ htask ht with rfl | hold
      · cases hreq
        -- The statement was the next call, so nothing follows it.
        rcases hI tid' _ htask rfl with hprog | hgone
        · cases (Option.some.inj hprog).trans hprogram
          exact .inr (hstill r)
        · exact absurd rfl (hgone o k')
      · exact hold
  | cancel tid' req o k' htask =>
      rcases hset tid' _ _ htask ht with rfl | hold
      · exact .inr fun _ _ h => by cases h
      · exact hold
  | env e s henv => exact hI tid t ht hreq

/-- The row that a login is about to insert has a new state. -/
theorem state_free (h : FlowReach svc P s₀ c) (hstates : s₀.states = ∅)
    (hremoved : s₀.removed = []) {tid : Nat} {req : Request} {row : NewState}
    {k : Sql Unit → Flow Response}
    (ht : c.tasks[tid]? = some ⟨req, some (.op (.insertState row) k)⟩) :
    c.shared.states[row.state]? = none := by
  have hrows := state_rows h hstates hremoved
  obtain ⟨providerId, redirectUri, -, hins⟩ :=
    h.call_spec (o := Op.insertState row) svc.program_spec ht
  cases hrow : c.shared.states[row.state]? with
  | none => rfl
  | some old =>
      obtain ⟨hkey, tid', hmem⟩ := hrows.table _ old hrow
      exact absurd hkey (hrows.state_new hins hmem)

open Pool in
/-- The machine hides the sweeper. -/
theorem hides_sweep (hstates : s₀.states = ∅) (hremoved : s₀.removed = []) :
    Hides (M := oauthMachine store discoveryTtl jwksTtl) svc.program P NoSweep IsSweep
      (State.Unswept svc.maxAge) s₀ := by
  constructor
  case start => exact .refl svc.maxAge s₀
  case allowed =>
    intro d l hl
    cases l with
    | step tid ch => exact absurd rfl (hl tid ch)
    | _ => trivial
  case release => exact fun _ _ _ h => h
  case env => exact fun s s' e s₁ h henv => h.env henv
  case seen =>
    intro c d tid ch req o k r s hc hd hshadow hreq ht ht' hexec
    have hcall := hc.call_spec svc.program_spec ht
    have hguard : NoSweep d (.step tid ch) := by
      intro req' maxAge k' hat
      cases ht'.symm.trans hat
      exact absurd hcall.1 hreq
    have hexec : c.shared.exec discoveryTtl jwksTtl tid o ch = some (r, s) := hexec
    refine ⟨hguard, ?_⟩
    cases o with
    | sweepState maxAge => exact absurd hcall.1 hreq
    | deleteState state providerId maxAge =>
        obtain ⟨-, hage, -⟩ := hcall
        subst hage
        have hdelete := hshadow.shared.deleteState tid state providerId
        exact hshadow.shared.statement hdelete.1 hdelete.2 hexec
    | insertState row =>
        have hinsert := hshadow.shared.insertState (state_free hd hstates hremoved ht')
        exact hshadow.shared.statement hinsert.1 hinsert.2 hexec
    | _ =>
        refine hshadow.shared.beside ?_ hexec
        exact trivial
  case hid =>
    intro c d tid ch req o k r s hc hd hshadow hreq ht ht' hexec
    obtain ⟨k₀, hprogram, hstill⟩ := sweep_rest svc
    rcases sweep_task hc ht hreq with hprog | hgone
    · cases hreq
      cases (Option.some.inj hprog).trans hprogram
      have hR : State.Unswept svc.maxAge s d.shared := by
        cases ch with
        | go =>
            cases hexec
            exact hshadow.shared.sweepState tid
        | fail e =>
            cases hexec
            exact hshadow.shared
        | _ => cases hexec
      refine ⟨.fail "", .error "", d.shared, ?_, rfl, hR,
        .inr ⟨rfl, rfl, hstill r, hstill (.error "")⟩⟩
      exact fun _ _ _ _ => ⟨"", rfl⟩
    · exact absurd rfl (hgone o k)

/-- For every run of the flow there is a run of the same requests, in the same order and the sweeps
among them, in which no sweep goes through. Every request but those of the sweeper has the same
calls with the same answers and the same result, and the clock, the caches and the sessions are the
same. The rows of the table are those of the first run and rows that are too old for any callback.
-/
theorem sweep_unobservable (h : FlowReach svc P s₀ c) (hstates : s₀.states = ∅)
    (hremoved : s₀.removed = []) :
    ∃ d : FlowPool store discoveryTtl jwksTtl, FlowReach svc NoSweep s₀ d
      ∧ d.tasks.map (·.req) = c.tasks.map (·.req)
      ∧ (∀ (tid : Nat) (t : Task oauthSig Fault Response Request), c.tasks[tid]? = some t →
        t.req ≠ .sweepOauthState →
        d.tasks[tid]? = some t ∧ eventsOf d.history tid = eventsOf c.history tid)
      ∧ State.Unswept svc.maxAge c.shared d.shared := by
  obtain ⟨d, hd, hshadow⟩ := Pool.Reach.shadow (hides_sweep hstates hremoved) h
  refine ⟨d, hd, hshadow.reqs, fun tid t ht hreq => ⟨?_, hshadow.events tid t ht hreq⟩,
    hshadow.shared⟩
  have hrel := hshadow.tasks tid
  rw [ht] at hrel
  cases hu : d.tasks[tid]? with
  | none =>
      rw [hu] at hrel
      cases hrel
  | some u =>
      rw [hu] at hrel
      cases hrel with
      | some halike =>
          rcases halike with rfl | hhidden
          · rfl
          · exact absurd hhidden.1 hreq

end Runs

open Symbolic Sample in
/-- A login, a sweep 1000 seconds later that deletes its row, and a callback that comes too late:
the callback ends alike when the row is still there. -/
theorem sweep_unobservable_sample :
    ∃ (c d : SamplePool) (t : Task oauthSig Fault Response Request),
      FlowReach flow Pool.Any flowStart c ∧ c.shared.removed.length = 1
      ∧ FlowReach flow NoSweep flowStart d ∧ t.result.isSome = true
      ∧ c.tasks[2]? = some t ∧ d.tasks[2]? = some t := by
  obtain ⟨c, h, hq⟩ := Pool.exists_reach flow.program (fun _ _ => true)
    (fun c : SamplePool => decide (c.shared.removed.length = 1)
      && (c.tasks[2]?).any fun t => t.result.isSome && t.req.isCallback)
    (Pool.init flowStart)
    (loginRun ++ [.env (.tick (instant 2000)), .spawn .sweepOauthState, .step 1 .go,
      .spawn (.authCallback "idp" ⟨some "code", some (hexEncode (random 1)), none, none⟩),
      .step 2 .go]) (by decide +kernel)
  have h : FlowReach flow Pool.Any flowStart c := h.mono fun _ _ _ => trivial
  simp only [Bool.and_eq_true, decide_eq_true_eq] at hq
  obtain ⟨hremoved, htask⟩ := hq
  obtain ⟨t, ht, hres⟩ := (Option.any_eq_true _ _).mp htask
  simp only [Bool.and_eq_true] at hres
  obtain ⟨d, hd, -, hsame, -⟩ := sweep_unobservable h rfl rfl
  have hreq : t.req ≠ .sweepOauthState := by
    intro heq
    rw [heq] at hres
    cases hres.2
  exact ⟨c, d, t, h, hremoved, hd, hres.1, ht, (hsame 2 t ht hreq).1⟩

end Tim.OAuth
