import Tim.Model.OAuth

/-!
# `Tim.Model.Retry`: the loop of `fetch_with` (`src/oauth2/discovery.rs`)

`OAuthService.fetchWith` has the retries as a recursion. Here the function is written statement by
statement, with the loop over the attempts, its two mutable variables and the code behind it, over a
signature in which `fetch_once` is one call.
-/

set_option autoImplicit false

namespace Tim.OAuth

open Tim.Lib

/-- The calls of `fetch_with`. -/
inductive FetchOp where
  | cacheGet
  | fetchOnce
  | sleep (ms : Nat)
  | cacheInsert (doc : Discovery)
  deriving DecidableEq

/-- The answers. -/
def FetchResp : FetchOp → Type
  | .cacheGet => Option Discovery
  | .fetchOnce => Except TimError Discovery
  | .sleep _ => Unit
  | .cacheInsert _ => Unit

/-- The signature of `fetch_with`. -/
def fetchSig : Sig where
  Op := FetchOp
  Resp := FetchResp

abbrev Fetch := Prog fetchSig TimError

namespace Fetch

/-- One call. -/
def call (o : FetchOp) : Fetch (FetchResp o) := Prog.call (S := fetchSig) o

/-- `DiscoveryCache::max_retries`. -/
def maxRetries : Nat := 3

/-- The arm of the loop for a fetched document. -/
def accept (allowHttp : Bool) (doc : Discovery) : Fetch Discovery :=
  match doc.validateWith allowHttp with
  | .error e => .raise e
  | .ok () => do
      let () ← call (.cacheInsert doc)
      return doc

/-- The loop over the attempts that are left, with `last_err` and `delay_ms`. `after` is the code
behind the loop. -/
def retryLoop (allowHttp : Bool) (after : Option TimError → Fetch Discovery) :
    List Nat → Option TimError → Nat → Fetch Discovery
  | [], lastErr, _ => after lastErr
  | attempt :: rest, _, delayMs => do
      match ← call .fetchOnce with
      | .ok doc => accept allowHttp doc
      | .error e =>
          -- The arms in their order: the last attempt returns its error, retryable or not.
          if attempt = maxRetries then .raise e
          else if retryable e then
            let () ← call (.sleep delayMs)
            retryLoop allowHttp after rest (some e) (min (delayMs * 2) 4000)
          else .raise e

/-- The code behind the loop. -/
def retriesExhausted (lastErr : Option TimError) : Fetch Discovery :=
  .raise (lastErr.getD (.badGateway "discovery: retries exhausted"))

/-- `fetch_with` with some code behind its loop. -/
def fetchWithAfter (after : Option TimError → Fetch Discovery) (allowHttp : Bool) :
    Fetch Discovery := do
  match ← call .cacheGet with
  | some cached => return cached
  | none => retryLoop allowHttp after (List.range (maxRetries + 1)) none 500

/-- `DiscoveryCache::fetch_with`. -/
def fetchWith (allowHttp : Bool) : Fetch Discovery := fetchWithAfter retriesExhausted allowHttp

end Fetch

end Tim.OAuth
