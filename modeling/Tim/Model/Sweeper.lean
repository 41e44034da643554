import Tim.Lib.Twin
import Tim.Model.OAuth

/-!
# `Tim.Model.Sweeper`: the background sweeper (`src/oauth2/state_sweeper.rs`)

`spawn` starts one task that never ends: it waits for the ticks of an interval, and after each of
them it sweeps the sessions and then the rows of `auth.oauth_state`. The model follows the task
through any number of rounds. What the sweeps report is only logged, and the log is left out.

`upkeepMachine` is the OAuth2 flow with the sweeper next to it. The interval is that of `tokio`:
the first tick is due at once, and each later one a period after the one before it was due, however
late that one was taken.
-/

set_option autoImplicit false

namespace Tim.OAuth

open Tim.Lib

/-! ### The task -/

/-- The calls of the sweeper: a tick of its interval, and its two statements. -/
inductive SweepOp where
  | tick
  | sweepExpired
  | sweepState (maxAge : Int32)

/-- The answers. -/
def SweepResp : SweepOp → Type
  | .tick => Unit
  | .sweepExpired => Except TimError Nat
  | .sweepState _ => Sql Nat

/-- The signature of the sweeper. -/
def sweeperSig : Sig where
  Op := SweepOp
  Resp := SweepResp

/-- Code of the sweeper. It has no errors of its own. -/
abbrev Sweeping := Prog sweeperSig Fault Unit

/-- One round of the loop. Neither of the two results ends it. -/
def sweepRound (maxAge : Int32) : Sweeping := do
  let () ← Prog.call (S := sweeperSig) .tick
  let _ ← Prog.call (S := sweeperSig) .sweepExpired
  let _ ← Prog.call (S := sweeperSig) (.sweepState maxAge)
  return ()

/-- The loop, through a number of rounds. -/
def sweepRounds (maxAge : Int32) : Nat → Sweeping
  | 0 => return ()
  | rounds + 1 => do
      let () ← sweepRound maxAge
      sweepRounds maxAge rounds

/-- `state_sweeper::spawn`: the task that it starts. An interval of 0 starts none. -/
def spawnSweeper (intervalSeconds : UInt64) (maxAge : Int32) (rounds : Nat) : Sweeping :=
  if intervalSeconds = 0 then return ()
  else do
    -- The first tick comes at once, and no sweep follows it.
    let () ← Prog.call (S := sweeperSig) .tick
    sweepRounds maxAge rounds

/-! ### The flow and the sweeper on one state -/

/-- The calls of both. -/
inductive UpkeepOp where
  | flow (o : Op)
  | sweep (o : SweepOp)

/-- The answers. -/
def UpkeepResp : UpkeepOp → Type
  | .flow o => Resp o
  | .sweep o => SweepResp o

/-- The signature of both. -/
def upkeepSig : Sig where
  Op := UpkeepOp
  Resp := UpkeepResp

/-- The calls of the flow among those of both. -/
def flowCalls : Embedding oauthSig upkeepSig where
  op := .flow
  resp _ r := r

/-- The calls of the sweeper among those of both. -/
def sweepCalls : Embedding sweeperSig upkeepSig where
  op := .sweep
  resp _ r := r

/-- The state of the flow, and the time at which the next tick is due. -/
structure Upkeep (store : SessionStore) where
  flow : State store
  due : Int

namespace Upkeep

variable {store : SessionStore}

/-- The answer to a call of the sweeper, and the state after it. The period is in seconds. -/
def sweep (period tid : Nat) (s : Upkeep store) :
    (o : SweepOp) → Choice → Option (SweepResp o × Upkeep store)
  | .tick => fun
      | .go => if s.due ≤ s.flow.clock.ns then
          some ((), { s with due := s.due + period * nanosPerSecond })
        else none
      | _ => none
  | .sweepExpired => fun
      | .nonce n =>
          let r := store.sweepExpired ⟨s.flow.clock, n⟩ s.flow.sessions
          some (r.1, { s with flow := { s.flow with sessions := r.2 } })
      | .fail e => some (.error (.database e), s)
      | _ => none
  | .sweepState maxAge => fun ch =>
      (s.flow.statement (s.flow.sweepState tid maxAge) ch).map fun r =>
        (r.1, { s with flow := r.2 })

/-- The answer to a call of either. -/
def exec (discoveryTtl jwksTtl period tid : Nat) (s : Upkeep store) :
    (o : UpkeepOp) → Choice → Option (UpkeepResp o × Upkeep store)
  | .flow o => fun ch => (s.flow.exec discoveryTtl jwksTtl tid o ch).map fun r =>
      (r.1, { s with flow := r.2 })
  | .sweep o => s.sweep period tid o

end Upkeep

/-- The machine of the flow with its sweeper. -/
def upkeepMachine (store : SessionStore) (discoveryTtl jwksTtl period : Nat) :
    Machine upkeepSig where
  State := Upkeep store
  Choice := Choice
  Env := Env
  exec tid s o ch := s.exec discoveryTtl jwksTtl period tid o ch
  env s e := (s.flow.env e).map fun flow => { s with flow := flow }
  release _ s := s

/-- What the tasks serve: a request of the flow, or the sweeper through a number of rounds. -/
inductive UpkeepRequest where
  | flow (req : Request)
  | sweeper (rounds : Nat)

/-- The program of a task. The sweeper reads the same maximum age as the flow. -/
def OAuthService.upkeep {K : OAuthCrates} (svc : OAuthService K) (intervalSeconds : UInt64) :
    UpkeepRequest → Prog upkeepSig Fault (Option Response)
  | .flow req => (svc.program req).embed flowCalls id >>= fun r => pure (some r)
  | .sweeper rounds =>
      (spawnSweeper intervalSeconds svc.maxAge rounds).embed sweepCalls id >>= fun _ => pure none

end Tim.OAuth
