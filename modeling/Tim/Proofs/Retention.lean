import Tim.Model.Sweeper
import Tim.Proofs.FlowRuns

/-!
# `Tim.Proofs.Retention`: how long a row of `auth.oauth_state` can stay

A login that is never completed leaves its row behind, and only the sweeper deletes it.
`rows_retained` bounds the age of every row in every run of the flow with its sweeper, while the
sweeper's statement does not fail and its next tick is not overdue: the maximum age and two
intervals, and one interval less between two rounds.

The bound is kept relative to the time at which the next tick is due. `Stage` names the places of
the loop, each with the number of intervals by which its bound lies behind that time: waiting for a
tick moves it one interval back, and the sweep at the end of the round moves it forward again.

* `Stage.step`: one call of the sweeper, from one place of its loop to the next.
* `retained`: the bound for every row of the table, as an invariant of the runs.
-/

set_option autoImplicit false

namespace Tim.OAuth

open Tim.Lib

/-! ### The places of the loop -/

/-- The loop among the calls of both. -/
def sweepLoop (maxAge : Int32) : Nat → Prog upkeepSig Fault (Option Response)
  | 0 => .ret none
  | rounds + 1 => .op (.sweep .tick) fun _ => .op (.sweep .sweepExpired) fun _ =>
      .op (.sweep (.sweepState maxAge)) fun _ => sweepLoop maxAge rounds

/-- The rounds of the sweeper are the loop, once its calls stand among those of both. -/
theorem embed_sweepRounds (maxAge : Int32) (rounds : Nat) :
    ((sweepRounds maxAge rounds).embed sweepCalls id >>= fun _ => pure none)
      = sweepLoop maxAge rounds := by
  induction rounds with
  | zero => rfl
  | succ rounds ih =>
      rw [sweepLoop, ← ih]
      rfl

/-- A program that the sweeper is left with, and how many intervals the bound on the rows lies
behind the next tick. -/
inductive Stage (maxAge : Int32) : Prog upkeepSig Fault (Option Response) → Nat → Prop
  | first (rounds : Nat) : Stage maxAge (.op (.sweep .tick) fun _ => sweepLoop maxAge rounds) 0
  | waiting (rounds : Nat) : Stage maxAge (sweepLoop maxAge rounds) 1
  | sessions (rounds : Nat) : Stage maxAge (.op (.sweep .sweepExpired) fun _ =>
      .op (.sweep (.sweepState maxAge)) fun _ => sweepLoop maxAge rounds) 2
  | states (rounds : Nat) : Stage maxAge
      (.op (.sweep (.sweepState maxAge)) fun _ => sweepLoop maxAge rounds) 2

section Runs

variable {K : OAuthCrates} {store : SessionStore} {discoveryTtl jwksTtl : Nat}
  {svc : OAuthService K} {interval : UInt64} {s₀ : State store}

/-- A pool of the flow and its sweeper. -/
abbrev UpkeepPool (store : SessionStore) (discoveryTtl jwksTtl : Nat) (interval : UInt64) :=
  Pool (upkeepMachine store discoveryTtl jwksTtl interval.toNat) UpkeepRequest Fault
    (Option Response)

variable {c : UpkeepPool store discoveryTtl jwksTtl interval}

/-- The task is the sweeper. -/
def IsSweeper (t : Task upkeepSig Fault (Option Response) UpkeepRequest) : Prop :=
  ∃ rounds, t.req = .sweeper rounds

/-- There is one sweeper, it is not dropped, and its statement on the rows does not fail. -/
def Upkept (c : UpkeepPool store discoveryTtl jwksTtl interval) :
    Label (upkeepMachine store discoveryTtl jwksTtl interval.toNat) UpkeepRequest → Prop
  | .spawn (.sweeper _) => ∀ t ∈ c.tasks, ¬ IsSweeper t
  | .step tid ch => ∀ req maxAge k,
      c.tasks[tid]? = some ⟨req, some (.op (.sweep (.sweepState maxAge)) k)⟩ → ch = .go
  | .cancel tid => ∀ t, c.tasks[tid]? = some t → ¬ IsSweeper t
  | _ => True

/-- The time for which the sweeper keeps a row, in nanoseconds. -/
def keepNanos (maxAge : Int32) : Int := max maxAge.toInt 0 * nanosPerSecond

/-- The rows are not older than the age that the sweeper keeps, `lag` intervals before the next
tick. That tick is at most one interval ahead. The last microsecond is the precision of the
column. -/
structure Fresh (maxAge : Int32) (interval : UInt64) (lag : Nat) (s : Upkeep store) : Prop where
  near : s.due - min lag 1 * (interval.toNat * nanosPerSecond) ≤ s.flow.clock.ns
  rows : ∀ (state : String) row, s.flow.states[state]? = some row →
    s.due - lag * (interval.toNat * nanosPerSecond) - keepNanos maxAge - 1000 < row.createdAt.ns

namespace Fresh

variable {maxAge : Int32} {lag : Nat} {s s' : Upkeep store}

/-- A row is kept for no negative time. -/
theorem keepNanos_nonneg (maxAge : Int32) : 0 ≤ keepNanos maxAge :=
  Int.mul_nonneg (Int.le_max_right _ _) (by decide)

/-- Later, with the same rows or fewer. -/
theorem later (h : Fresh maxAge interval lag s) (hdue : s'.due = s.due)
    (hclock : s.flow.clock ≤ s'.flow.clock)
    (hrows : ∀ (state : String) row, s'.flow.states[state]? = some row →
      s.flow.states[state]? = some row) : Fresh maxAge interval lag s' := by
  have hns : s.flow.clock.ns ≤ s'.flow.clock.ns := hclock
  refine ⟨?_, fun state row hrow => ?_⟩
  · rw [hdue]
    exact Int.le_trans h.near hns
  · rw [hdue]
    exact h.rows state row (hrows state row hrow)

/-- A row is as new as the clock. -/
theorem insert (h : Fresh maxAge interval lag s) {row : StateRow}
    (hrow : row.createdAt = s.flow.clock.toTimestamptz) :
    s.due - lag * (interval.toNat * nanosPerSecond) - keepNanos maxAge - 1000
      < row.createdAt.ns := by
  have hkeep := keepNanos_nonneg maxAge
  have hnear := h.near
  have hcreated : row.createdAt.ns = s.flow.clock.ns / 1000 * 1000 := congrArg DateTime.ns hrow
  have hperiod : (0 : Int) ≤ interval.toNat * nanosPerSecond :=
    Int.mul_nonneg (Int.natCast_nonneg _) (by decide)
  have hlag : ((min lag 1 : Nat) : Int) * (interval.toNat * nanosPerSecond)
      ≤ lag * (interval.toNat * nanosPerSecond) :=
    Int.mul_le_mul_of_nonneg_right (by omega) hperiod
  omega

/-- A call of the flow. -/
theorem flow (h : Fresh maxAge interval lag s) {dTtl jTtl tid : Nat} {o : Op} {r : Resp o}
    {flow : State store} (heff : State.Effect dTtl jTtl tid s.flow o r flow) :
    Fresh maxAge interval lag { s with flow := flow } := by
  have hclock := heff.clock_eq
  refine ⟨?_, fun state row hrow => ?_⟩
  · show s.due - _ ≤ flow.clock.ns
    rw [hclock]
    exact h.near
  · show s.due - _ - _ - _ < _
    have hrow : flow.states[state]? = some row := hrow
    cases heff with
    | inserted new hfree =>
        simp only [State.withRow] at hrow
        rw [Std.ExtTreeMap.getElem?_insert] at hrow
        split at hrow
        · cases hrow
          exact h.insert rfl
        · exact h.rows state row hrow
    | consumed state' providerId maxAge' old hold hprovider hyoung =>
        simp only [State.withoutRow] at hrow
        rw [Std.ExtTreeMap.getElem?_erase] at hrow
        split at hrow
        · cases hrow
        · exact h.rows state row hrow
    | swept maxAge' =>
        simp only [State.sweepState] at hrow
        rw [Std.ExtTreeMap.getElem?_filter', Option.filter_eq_some_iff] at hrow
        exact h.rows state row hrow.1
    | _ => exact h.rows state row hrow

/-- A tick of the loop. -/
theorem tick (h : Fresh maxAge interval lag s) (hlag : lag ≤ 1) (hdue : s.due ≤ s.flow.clock.ns) :
    Fresh maxAge interval (lag + 1)
      { s with due := s.due + interval.toNat * nanosPerSecond } := by
  refine ⟨?_, fun state row hrow => ?_⟩
  · show s.due + interval.toNat * nanosPerSecond
      - ((min (lag + 1) 1 : Nat) : Int) * (interval.toNat * nanosPerSecond) ≤ s.flow.clock.ns
    have hmin : min (lag + 1) 1 = 1 := by omega
    rw [hmin]
    omega
  · have hold := h.rows state row hrow
    show s.due + interval.toNat * nanosPerSecond
      - ((lag + 1 : Nat) : Int) * (interval.toNat * nanosPerSecond) - _ - _ < _
    rw [Int.natCast_add, Int.add_mul]
    omega

/-- The sweep at the end of a round. -/
theorem sweep (h : Fresh maxAge interval 2 s) (tid : Nat) :
    Fresh maxAge interval 1 { s with flow := (s.flow.sweepState tid maxAge).2 } := by
  have hnear := h.near
  refine ⟨hnear, fun state row hrow => ?_⟩
  have hrow : (s.flow.states.filter fun _ r => !r.olderThan maxAge s.flow.clock)[state]?
    = some row := hrow
  rw [Std.ExtTreeMap.getElem?_filter', Option.filter_eq_some_iff] at hrow
  have hyoung : ¬ row.createdAt.ns
      < s.flow.clock.ns / 1000 * 1000 - maxAge.toInt * nanosPerSecond := by
    have hkept : row.olderThan maxAge s.flow.clock = false := by simpa using hrow.2
    exact of_decide_eq_false hkept
  have hkeep : maxAge.toInt * nanosPerSecond ≤ keepNanos maxAge :=
    Int.mul_le_mul_of_nonneg_right (Int.le_max_left _ _) (by decide)
  show s.due - ((1 : Nat) : Int) * (interval.toNat * nanosPerSecond) - _ - _ < _
  have hmin : ((min 2 1 : Nat) : Int) = 1 := rfl
  rw [hmin] at hnear
  omega

end Fresh

/-! ### Every run -/

/-- The bound at every place of the loop, and before the sweeper has started. -/
structure Retained (svc : OAuthService K) (c : UpkeepPool store discoveryTtl jwksTtl interval) :
    Prop where
  one : ∀ (tid tid' : Nat) t t', c.tasks[tid]? = some t → c.tasks[tid']? = some t' →
    IsSweeper t → IsSweeper t' → tid = tid'
  before : (∀ t ∈ c.tasks, ¬ IsSweeper t) → Fresh svc.maxAge interval 0 c.shared
  during : ∀ (tid : Nat) (t : Task upkeepSig Fault (Option Response) UpkeepRequest),
    c.tasks[tid]? = some t → IsSweeper t →
    ∃ p lag, t.prog = some p ∧ Stage svc.maxAge p lag ∧ Fresh svc.maxAge interval lag c.shared

/-- A request of the flow makes calls of the flow. -/
theorem flow_calls (svc : OAuthService K) (interval : UInt64) (req : Request) :
    (svc.upkeep interval (.flow req)).Meets (fun o => ∃ o', o = UpkeepOp.flow o')
      (fun _ => True) := by
  have hembed : ((svc.program req).embed flowCalls (id : Fault → Fault)).Meets
      (fun o => ∃ o', o = UpkeepOp.flow o') (fun _ => True) :=
    (Prog.meets_any (svc.program req)).embed (fun o _ => ⟨o, rfl⟩) (fun _ _ => trivial)
  exact hembed.bind (fun _ _ => trivial) (fun _ _ => trivial)

/-- A task that is not the sweeper is about to make a call of the flow. -/
theorem flow_of_task
    {P : UpkeepPool store discoveryTtl jwksTtl interval →
      Label (upkeepMachine store discoveryTtl jwksTtl interval.toNat) UpkeepRequest → Prop}
    {s : Upkeep store} (h : Pool.Reach (svc.upkeep interval) P (Pool.init s) c) {tid : Nat}
    {req : UpkeepRequest} {o : UpkeepOp} {k : UpkeepResp o → Prog upkeepSig Fault (Option Response)}
    (ht : c.tasks[tid]? = some ⟨req, some (.op o k)⟩)
    (hreq : ¬ IsSweeper (⟨req, some (.op o k)⟩ :
      Task upkeepSig Fault (Option Response) UpkeepRequest)) : ∃ o', o = .flow o' := by
  have hspec := h.call_spec
    (φ := fun req _ o => (∃ rounds, req = .sweeper rounds) ∨ ∃ o', o = UpkeepOp.flow o')
    (ψ := fun _ _ _ => True) (fun req => ?_) ht
  · rcases hspec with hsweeper | hflow
    · exact absurd hsweeper hreq
    · exact hflow
  · cases req with
    | flow req =>
        exact ((flow_calls svc interval req).spec []).mono (fun _ _ hφ => .inr hφ)
          (fun _ _ _ => trivial)
    | sweeper rounds =>
        exact ((Prog.meets_any _).spec []).mono (fun _ _ _ => .inl ⟨rounds, rfl⟩)
          (fun _ _ _ => trivial)

/-- The sweeper starts at its first tick. -/
theorem upkeep_sweeper (hinterval : interval ≠ 0) (rounds : Nat) :
    svc.upkeep interval (.sweeper rounds)
      = .op (.sweep .tick) fun _ => sweepLoop svc.maxAge rounds := by
  have hspawn : spawnSweeper interval svc.maxAge rounds
      = .op SweepOp.tick fun _ => sweepRounds svc.maxAge rounds := if_neg hinterval
  rw [← embed_sweepRounds]
  show (spawnSweeper interval svc.maxAge rounds).embed sweepCalls id >>= _ = _
  rw [hspawn]
  rfl

/-- The tick of a stage that waits for one. -/
theorem tick_cases {s s' : Upkeep store} (tid : Nat) {ch : Choice} {r : Unit}
    (hexec : s.sweep interval.toNat tid .tick ch = some (r, s')) :
    s.due ≤ s.flow.clock.ns
      ∧ s' = { s with due := s.due + interval.toNat * nanosPerSecond } := by
  cases ch with
  | go =>
      simp only [Upkeep.sweep] at hexec
      split at hexec
      · rename_i hdue
        cases hexec
        exact ⟨hdue, rfl⟩
      · cases hexec
  | _ => cases hexec

/-- The call of a stage, and the stage after it. -/
theorem Stage.step {maxAge : Int32} {p : Prog upkeepSig Fault (Option Response)} {o : UpkeepOp}
    {k : UpkeepResp o → Prog upkeepSig Fault (Option Response)} {lag : Nat}
    (hstage : Stage maxAge p lag) (hp : p = .op o k) {s s' : Upkeep store} {tid : Nat}
    {ch : Choice} {r : UpkeepResp o} (hgo : ∀ m, o = .sweep (.sweepState m) → ch = .go)
    (hfresh : Fresh maxAge interval lag s)
    (hexec : s.exec discoveryTtl jwksTtl interval.toNat tid o ch = some (r, s')) :
    ∃ lag', Stage maxAge (k r) lag' ∧ Fresh maxAge interval lag' s' := by
  cases hstage with
  | first rounds =>
      cases hp
      obtain ⟨hdue, rfl⟩ := tick_cases tid hexec
      exact ⟨1, .waiting rounds, hfresh.tick (by omega) hdue⟩
  | waiting rounds =>
      cases rounds with
      | zero => cases hp
      | succ rounds =>
          cases hp
          obtain ⟨hdue, rfl⟩ := tick_cases tid hexec
          exact ⟨2, .sessions rounds, hfresh.tick (by omega) hdue⟩
  | sessions rounds =>
      cases hp
      refine ⟨2, .states rounds, ?_⟩
      -- The sweep of the sessions does not touch the rows, whether it fails or not.
      cases ch with
      | nonce n =>
          cases hexec
          exact hfresh.later rfl (Int.le_refl _) (fun _ _ h => h)
      | fail e =>
          cases hexec
          exact hfresh
      | _ => cases hexec
  | states rounds =>
      cases hp
      cases hgo maxAge rfl
      cases hexec
      exact ⟨1, .waiting rounds, hfresh.sweep tid⟩

/-- No sweeper before a task has moved, when there is none after it. -/
theorem no_sweeper_of_set
    {tasks : List (Task upkeepSig Fault (Option Response) UpkeepRequest)} {tid : Nat}
    {u v : Task upkeepSig Fault (Option Response) UpkeepRequest} (hu : tasks[tid]? = some u)
    (hreq : v.req = u.req) (hnone : ∀ t ∈ tasks.set tid v, ¬ IsSweeper t) :
    ∀ t ∈ tasks, ¬ IsSweeper t := by
  intro t ht hsweeper
  obtain ⟨n, hn⟩ := List.mem_iff_getElem?.mp ht
  by_cases heq : tid = n
  · subst heq
    cases hu.symm.trans hn
    refine hnone v (List.mem_of_getElem? (i := tid) ?_) ?_
    · exact List.getElem?_set_self (List.getElem?_eq_some_iff.mp hu).1
    · obtain ⟨rounds, hrounds⟩ := hsweeper
      exact ⟨rounds, hreq.trans hrounds⟩
  · refine hnone t (List.mem_of_getElem? (i := n) ?_) hsweeper
    rw [List.getElem?_set_ne heq]
    exact hn

namespace Retained

/-- Two sweepers after a step that starts none are two sweepers before it. -/
theorem one_of_next (hI : Retained svc c) {l : Label _ _}
    {c' : UpkeepPool store discoveryTtl jwksTtl interval}
    (hn : Pool.Next (svc.upkeep interval) c l c') (hl : ∀ rounds, l ≠ .spawn (.sweeper rounds))
    {tid tid' : Nat} {t t' : Task upkeepSig Fault (Option Response) UpkeepRequest}
    (ht : c'.tasks[tid]? = some t) (ht' : c'.tasks[tid']? = some t') (hs : IsSweeper t)
    (hs' : IsSweeper t') : tid = tid' := by
  have hback : ∀ {tid : Nat} {t : Task upkeepSig Fault (Option Response) UpkeepRequest},
      c'.tasks[tid]? = some t → IsSweeper t → ∃ u, c.tasks[tid]? = some u ∧ IsSweeper u := by
    intro tid t ht hs
    obtain ⟨rounds, hrounds⟩ := hs
    rcases hn.task_back ht with hback | hspawn
    · obtain ⟨u, hu, hreq⟩ := hback
      exact ⟨u, hu, rounds, hreq.trans hrounds⟩
    · rw [hrounds] at hspawn
      exact absurd hspawn (hl rounds)
  obtain ⟨u, hu, hsu⟩ := hback ht hs
  obtain ⟨u', hu', hsu'⟩ := hback ht' hs'
  exact hI.one tid tid' u u' hu hu' hsu hsu'

/-- A step of the surroundings or of another task, which keeps every bound. -/
theorem other (hI : Retained svc c) {s : Upkeep store} {hist : List (Nat × Event upkeepSig)}
    (hfresh : ∀ lag, Fresh svc.maxAge interval lag c.shared → Fresh svc.maxAge interval lag s) :
    Retained svc ({ c with shared := s, history := hist } :
      UpkeepPool store discoveryTtl jwksTtl interval) := by
  refine ⟨hI.one, fun hnone => hfresh 0 (hI.before hnone), fun tid t ht hs => ?_⟩
  obtain ⟨p, lag, hp, hstage, hbound⟩ := hI.during tid t ht hs
  exact ⟨p, lag, hp, hstage, hfresh lag hbound⟩

/-- A task that is not the sweeper moves or is dropped. -/
theorem set (hI : Retained svc c) {tid : Nat}
    {u v : Task upkeepSig Fault (Option Response) UpkeepRequest} (hu : c.tasks[tid]? = some u)
    (hreq : v.req = u.req) (hs : ¬ IsSweeper u) :
    Retained svc ({ c with tasks := c.tasks.set tid v } :
      UpkeepPool store discoveryTtl jwksTtl interval) := by
  -- A sweeper of the new list has its old place.
  have hback : ∀ {n : Nat} {t : Task upkeepSig Fault (Option Response) UpkeepRequest},
      (c.tasks.set tid v)[n]? = some t → IsSweeper t → c.tasks[n]? = some t := by
    intro n t ht hst
    by_cases heq : tid = n
    · subst heq
      rw [List.getElem?_set_self (List.getElem?_eq_some_iff.mp hu).1] at ht
      cases ht
      obtain ⟨rounds, hrounds⟩ := hst
      exact absurd ⟨rounds, hreq.symm.trans hrounds⟩ hs
    · rw [List.getElem?_set_ne heq] at ht
      exact ht
  refine ⟨?_, fun hnone => hI.before (no_sweeper_of_set hu hreq hnone), ?_⟩
  · intro n n' t t' ht ht' hst hst'
    exact hI.one n n' t t' (hback ht hst) (hback ht' hst') hst hst'
  · intro n t ht hst
    exact hI.during n t (hback ht hst) hst

end Retained

/-- Every reached pool keeps the bound. -/
theorem retained (h : Pool.Reach (svc.upkeep interval) Upkept (Pool.init ⟨s₀, s₀.clock.ns⟩) c)
    (hstates : s₀.states = ∅) (hinterval : interval ≠ 0) : Retained svc c := by
  refine h.invariant ?_ ?_
  · refine ⟨?_, fun _ => ⟨?_, ?_⟩, ?_⟩
    · intro tid tid' t t' ht
      simp [Pool.init] at ht
    · show s₀.clock.ns - ((min 0 1 : Nat) : Int) * _ ≤ s₀.clock.ns
      simp
    · intro state row hrow
      have hrow : s₀.states[state]? = some row := hrow
      rw [hstates] at hrow
      simp at hrow
    · intro tid t ht
      simp [Pool.init] at ht
  intro c l c' hr hP hn hI
  cases hn with
  | spawn req =>
      have hlast : ∀ {n : Nat} {t : Task upkeepSig Fault (Option Response) UpkeepRequest},
          (c.tasks ++ [⟨req, some (svc.upkeep interval req)⟩])[n]? = some t →
          c.tasks[n]? = some t
            ∨ n = c.tasks.length ∧ t = ⟨req, some (svc.upkeep interval req)⟩ := by
        intro n t ht
        rcases Nat.lt_or_ge n c.tasks.length with hlt | hge
        · rw [List.getElem?_append_left hlt] at ht
          exact .inl ht
        · rw [List.getElem?_append_right hge, List.getElem?_singleton] at ht
          split at ht
          · cases ht
            exact .inr ⟨by omega, rfl⟩
          · cases ht
      cases req with
      | flow req =>
          have hold : ∀ {n : Nat} {t : Task upkeepSig Fault (Option Response) UpkeepRequest},
              (c.tasks ++ [⟨.flow req, some (svc.upkeep interval (.flow req))⟩])[n]? = some t →
              IsSweeper t → c.tasks[n]? = some t := by
            intro n t ht hs
            rcases hlast ht with hold | hnew
            · exact hold
            · rw [hnew.2] at hs
              obtain ⟨rounds, hrounds⟩ := hs
              cases hrounds
          refine ⟨?_, fun hnone => hI.before fun t ht => hnone t (List.mem_append_left _ ht), ?_⟩
          · intro n n' t t' ht ht' hs hs'
            exact hI.one n n' t t' (hold ht hs) (hold ht' hs') hs hs'
          · exact fun n t ht hs => hI.during n t (hold ht hs) hs
      | sweeper rounds =>
          -- The one sweeper: it is at its first tick, and there was none before.
          have hnew : ∀ {n : Nat} {t : Task upkeepSig Fault (Option Response) UpkeepRequest},
              (c.tasks ++ [⟨.sweeper rounds, some (svc.upkeep interval (.sweeper rounds))⟩])[n]?
                = some t → IsSweeper t →
              n = c.tasks.length
                ∧ t = ⟨.sweeper rounds, some (svc.upkeep interval (.sweeper rounds))⟩ := by
            intro n t ht hs
            rcases hlast ht with hold | hnew
            · exact absurd hs (hP t (List.mem_of_getElem? hold))
            · exact hnew
          refine ⟨?_, fun hnone => ?_, ?_⟩
          · intro n n' t t' ht ht' hs hs'
            rw [(hnew ht hs).1, (hnew ht' hs').1]
          · exact absurd ⟨rounds, rfl⟩
              (hnone _ (List.mem_append_right _ List.mem_cons_self))
          · intro n t ht hs
            rw [(hnew ht hs).2]
            refine ⟨_, 0, rfl, ?_, hI.before hP⟩
            rw [upkeep_sweeper hinterval]
            exact .first rounds
  | step tid ch req o k r s htask hexec =>
      by_cases hs : IsSweeper (⟨req, some (.op o k)⟩ :
          Task upkeepSig Fault (Option Response) UpkeepRequest)
      · obtain ⟨p, lag, hp, hstage, hfresh⟩ := hI.during tid _ htask hs
        obtain ⟨lag', hstage', hfresh'⟩ := hstage.step (Option.some.inj hp).symm
          (fun m hm => by subst hm; exact hP req m k htask) hfresh hexec
        have hone : ∀ (n n' : Nat) (t t' : Task upkeepSig Fault (Option Response) UpkeepRequest),
            (c.tasks.set tid ⟨req, some (k r)⟩)[n]? = some t →
            (c.tasks.set tid ⟨req, some (k r)⟩)[n']? = some t' → IsSweeper t → IsSweeper t' →
            n = n' :=
          fun n n' t t' ht ht' => hI.one_of_next (.step tid ch req o k r s htask hexec)
            (fun _ h => by cases h) ht ht'
        refine ⟨hone, fun hnone => ?_, ?_⟩
        · exact absurd hs (no_sweeper_of_set (v := ⟨req, some (k r)⟩) htask rfl hnone _
            (List.mem_of_getElem? htask))
        · intro n t ht hst
          have hself := List.getElem?_set_self (a := (⟨req, some (k r)⟩ :
            Task upkeepSig Fault (Option Response) UpkeepRequest))
            (List.getElem?_eq_some_iff.mp htask).1
          have hn' : n = tid := hone n tid t _ ht hself hst hs
          subst hn'
          cases ht.symm.trans hself
          exact ⟨_, lag', rfl, hstage', hfresh'⟩
      · obtain ⟨o', rfl⟩ := flow_of_task hr htask hs
        have hset := hI.set (v := ⟨req, some (k r)⟩) htask rfl hs
        refine hset.other fun lag hfresh => ?_
        obtain ⟨x, hx, heq⟩ := Option.map_eq_some_iff.mp hexec
        cases heq
        exact hfresh.flow (State.exec_effect hx)
  | cancel tid req o k htask => exact hI.set htask rfl (hP _ htask)
  | env e s henv =>
      obtain ⟨flow, hflow, rfl⟩ := Option.map_eq_some_iff.mp henv
      have hstep := envStep_of_env hflow
      refine hI.other fun lag hfresh => hfresh.later rfl hstep.clock fun state row hrow => ?_
      show c.shared.flow.states[state]? = some row
      rw [← hstep.states]
      exact hrow

/-- In every run of the flow with its sweeper, while the next tick is not overdue: a row is not
older than the maximum age and two intervals, and when the sweeper waits for that tick, the maximum
age and one interval. -/
theorem rows_retained (h : Pool.Reach (svc.upkeep interval) Upkept (Pool.init ⟨s₀, s₀.clock.ns⟩) c)
    (hstates : s₀.states = ∅) (hinterval : interval ≠ 0) {tid : Nat}
    {t : Task upkeepSig Fault (Option Response) UpkeepRequest} (ht : c.tasks[tid]? = some t)
    (hs : IsSweeper t) (hdue : c.shared.flow.clock.ns < c.shared.due) {state : String}
    {row : StateRow} (hrow : c.shared.flow.states[state]? = some row) :
    c.shared.flow.clock.ns - row.createdAt.ns
        < keepNanos svc.maxAge + 2 * (interval.toNat * nanosPerSecond) + 1000
      ∧ ((∃ k, t.prog = some (.op (.sweep .tick) k)) → c.shared.flow.clock.ns - row.createdAt.ns
        < keepNanos svc.maxAge + interval.toNat * nanosPerSecond + 1000) := by
  obtain ⟨p, lag, hp, hstage, hfresh⟩ := (retained h hstates hinterval).during tid t ht hs
  rw [hp]
  have hbound := hfresh.rows state row hrow
  have hnear := hfresh.near
  have hperiod : (0 : Int) ≤ interval.toNat * nanosPerSecond :=
    Int.mul_nonneg (Int.natCast_nonneg _) (by decide)
  cases hstage with
  | first rounds' =>
      have hzero : ((min 0 1 : Nat) : Int) = 0 := rfl
      rw [hzero] at hnear
      omega
  | waiting rounds' =>
      have hone : ((1 : Nat) : Int) = 1 := rfl
      rw [hone] at hbound
      exact ⟨by omega, fun _ => by omega⟩
  | sessions rounds' =>
      have htwo : ((2 : Nat) : Int) = 2 := rfl
      rw [htwo] at hbound
      refine ⟨by omega, fun hk => ?_⟩
      obtain ⟨k, hk⟩ := hk
      cases hk
  | states rounds' =>
      have htwo : ((2 : Nat) : Int) = 2 := rfl
      rw [htwo] at hbound
      refine ⟨by omega, fun hk => ?_⟩
      obtain ⟨k, hk⟩ := hk
      cases hk

end Runs

/-! ### A sample run -/

namespace Sample

/-- The sweeper with an interval of 60 seconds. -/
abbrev SampleUpkeep := UpkeepPool memoryStore 3600 3600 60

/-- A login at second 1000, and the rounds of the sweeper at the seconds 1060 and 1120. -/
def upkeepRun : List (Label (upkeepMachine memoryStore 3600 3600 60) UpkeepRequest) :=
  [.spawn (.sweeper 5), .step 0 .go, .spawn (.flow (.authLogin "idp" none)), .step 1 .go,
   .step 1 (.response (.ok ⟨200, .ok "https-document"⟩)), .step 1 .go,
   .step 1 (.bytes (random 1)), .step 1 (.bytes (random 2)), .step 1 (.bytes (random 3)),
   .step 1 .go, .env (.tick (Symbolic.instant 1060)), .step 0 .go,
   .step 0 (.nonce (Vector.replicate 12 0)), .step 0 .go,
   .env (.tick (Symbolic.instant 1120)), .step 0 .go, .step 0 (.nonce (Vector.replicate 12 0)),
   .step 0 .go]

/-- The label is one of a sweeper that is kept up. -/
def upkeptLabel (c : SampleUpkeep) :
    Label (upkeepMachine memoryStore 3600 3600 60) UpkeepRequest → Bool
  | .spawn (.sweeper _) => c.tasks.isEmpty
  | .step tid ch => match c.tasks[tid]?, ch with
      | some ⟨_, some (.op (.sweep (.sweepState _)) _)⟩, .go => true
      | some ⟨_, some (.op (.sweep (.sweepState _)) _)⟩, _ => false
      | _, _ => true
  | .cancel _ => false
  | _ => true

/-- The test of a label in the sample run. -/
theorem upkept_of_label {c : SampleUpkeep}
    {l : Label (upkeepMachine memoryStore 3600 3600 60) UpkeepRequest}
    (h : upkeptLabel c l = true) : Upkept c l := by
  cases l with
  | spawn req =>
      cases req with
      | flow req => trivial
      | sweeper rounds =>
          have hempty : c.tasks = [] := by simpa [upkeptLabel] using h
          intro t ht
          rw [hempty] at ht
          cases ht
  | step tid ch =>
      intro req maxAge k ht
      cases ch with
      | go => rfl
      | _ => simp [upkeptLabel, ht] at h
  | cancel tid => cases h
  | env e => trivial

end Sample

open Symbolic Sample in
/-- After two rounds the row of the login is 120 seconds old, which is within the bound. -/
theorem rows_retained_sample :
    ∃ (c : SampleUpkeep) (state : String) (row : StateRow),
      c.shared.flow.states[state]? = some row
      ∧ c.shared.flow.clock.ns - row.createdAt.ns = 120 * nanosPerSecond
      ∧ c.shared.flow.clock.ns - row.createdAt.ns
        < keepNanos flow.maxAge + 2 * ((60 : UInt64).toNat * nanosPerSecond) + 1000 := by
  obtain ⟨c, h, hq⟩ := Pool.exists_reach (flow.upkeep 60) upkeptLabel
    (fun c : SampleUpkeep => decide (c.shared.flow.clock.ns < c.shared.due)
      && (c.shared.flow.states[hexEncode (random 1)]?).any (fun row =>
        decide (c.shared.flow.clock.ns - row.createdAt.ns = 120 * nanosPerSecond))
      && (c.tasks[0]?).any fun t => match t.req with
        | .sweeper _ => true
        | _ => false)
    (Pool.init ⟨flowStart, flowStart.clock.ns⟩) upkeepRun (by decide +kernel)
  simp only [Bool.and_eq_true, decide_eq_true_eq] at hq
  obtain ⟨⟨hdue, hstate⟩, htask⟩ := hq
  obtain ⟨row, hrow, hage⟩ := (Option.any_eq_true _ _).mp hstate
  obtain ⟨t, ht, hreq⟩ := (Option.any_eq_true _ _).mp htask
  have hs : IsSweeper t := by
    unfold IsSweeper
    split at hreq
    · rename_i rounds heq
      exact ⟨rounds, heq⟩
    · cases hreq
  have hbound := rows_retained (h.mono fun _ _ => upkept_of_label) rfl (by decide) ht hs hdue hrow
  exact ⟨c, _, row, hrow, of_decide_eq_true hage, hbound.1⟩

end Tim.OAuth
