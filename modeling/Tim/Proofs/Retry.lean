import Tim.Model.Retry
import Tim.Model.Symbolic
import Tim.Proofs.Flow
import Tim.Proofs.Text

/-!
# `Tim.Proofs.Retry`: the attempts of `fetch_with`

The loop is run against any sequence of outcomes of `fetch_once`. `lastAttempt` is the attempt it
ends at, and `run_retryLoop` says what it has called by then and what it returns. The code behind
the loop is a parameter there and has no part in the result.

* `fetchWith_eq_expand`: the flow's `fetch_with` is this loop with `fetch_once` put in.
* `retryable_of_clientError`: an answer of the 4xx is a failure that is not tried again.
* `fetch_with_attempts`: the number of fetches, the delays, the result and the cache.
-/

set_option autoImplicit false

namespace Tim.OAuth

open Tim.Lib Tim.Lib.Prog Tim.OAuth.Flow OAuthService

/-! ### The loop in the flow -/

/-- What the calls of the loop are in the flow. -/
def OAuthService.fetchCalls {K : OAuthCrates} (svc : OAuthService K) (url : String) :
    (o : FetchOp) → Flow (FetchResp o)
  | .cacheGet => Flow.call (.discoveryGet url)
  | .fetchOnce => attempt (svc.fetchOnce url)
  | .sleep ms => Flow.call (.sleep ms)
  | .cacheInsert doc => Flow.call (.discoveryInsert url doc)

section Expand

variable {K : OAuthCrates} (svc : OAuthService K) (url : String) (allowHttp : Bool)
  (after : Option TimError → Fetch Discovery)

/-- A call of the loop that comes first is made first. -/
theorem expand_fetch (o : FetchOp) (f : FetchResp o → Fetch Discovery) :
    (Fetch.call o >>= f).expand (S := fetchSig) (T := oauthSig) (svc.fetchCalls url) .err
      = svc.fetchCalls url o >>= fun r =>
          (f r).expand (S := fetchSig) (T := oauthSig) (svc.fetchCalls url) .err :=
  expand_call_bind (S := fetchSig) (svc.fetchCalls url) .err o f

/-- Accepting a document makes the calls that the fetch has for it. -/
theorem expand_accept (doc : Discovery) :
    (Fetch.accept allowHttp doc).expand (S := fetchSig) (T := oauthSig) (svc.fetchCalls url) .err
      = acceptDocument url allowHttp doc := by
  unfold Fetch.accept acceptDocument
  cases doc.validateWith allowHttp with
  | error e => rfl
  | ok u => rfl

/-- With as many attempts left as there are retries and one more, the list of attempts does not
run out. -/
theorem expand_retryLoop (retries : Nat) {first : Nat} (h : first + retries = Fetch.maxRetries)
    (lastErr : Option TimError) (delayMs : Nat) :
    (Fetch.retryLoop allowHttp after (List.range' first (retries + 1)) lastErr delayMs).expand
        (S := fetchSig) (T := oauthSig) (svc.fetchCalls url) .err
      = svc.fetchAttempts url allowHttp retries delayMs := by
  induction retries generalizing first lastErr delayMs with
  | zero =>
      rw [List.range'_succ, Fetch.retryLoop, fetchAttempts, expand_fetch]
      refine congrArg (attempt (svc.fetchOnce url) >>= ·) (funext fun x => ?_)
      cases x with
      | ok doc => exact expand_accept svc url allowHttp doc
      | error e =>
          show expand _ _ (ite _ _ _) = _
          rw [if_pos (show first = Fetch.maxRetries from h)]
          rfl
  | succ retries ih =>
      rw [List.range'_succ, Fetch.retryLoop, fetchAttempts, expand_fetch]
      refine congrArg (attempt (svc.fetchOnce url) >>= ·) (funext fun x => ?_)
      cases x with
      | ok doc => exact expand_accept svc url allowHttp doc
      | error e =>
          show expand _ _ (ite _ _ _) = ite _ _ _
          rw [if_neg (by omega)]
          split
          · rw [expand_fetch]
            exact congrArg (Flow.call (.sleep delayMs) >>= ·)
              (funext fun _ => ih (by omega) (some e) _)
          · rfl

/-- The `fetch_with` of the flow is the loop, whatever stands behind it. -/
theorem fetchWith_eq_expand :
    (Fetch.fetchWithAfter after allowHttp).expand (S := fetchSig) (T := oauthSig)
        (svc.fetchCalls url) .err
      = svc.fetchWith url allowHttp := by
  unfold Fetch.fetchWithAfter OAuthService.fetchWith
  rw [expand_fetch]
  refine congrArg (Flow.call (.discoveryGet url) >>= ·) (funext fun cached => ?_)
  cases cached with
  | some doc => rfl
  | none =>
      rw [List.range_eq_range']
      exact expand_retryLoop svc url allowHttp after 3 rfl none 500

end Expand

/-! ### Runs -/

/-- The outcomes of `fetch_once`, one for each call of it. -/
abbrev Outcomes := Nat → Except TimError Discovery

/-- The number of fetches among the calls. -/
def fetches (calls : List FetchOp) : Nat := calls.count .fetchOnce

/-- The answers to the loop, with the calls that it has made. The cache has no entry. -/
def answerFetch (out : Outcomes) : (o : FetchOp) → List FetchOp → FetchResp o × List FetchOp
  | .cacheGet, calls => (none, calls ++ [.cacheGet])
  | .fetchOnce, calls => (out (fetches calls), calls ++ [.fetchOnce])
  | .sleep ms, calls => ((), calls ++ [.sleep ms])
  | .cacheInsert doc, calls => ((), calls ++ [.cacheInsert doc])

/-- The result of a run, and its calls. -/
def runFetch (out : Outcomes) (p : Fetch Discovery) (calls : List FetchOp) :
    Except TimError Discovery × List FetchOp :=
  p.interp (S := fetchSig) (answerFetch out) calls

/-- The outcome is a failure that can be tried again. -/
def isRetryable : Except TimError Discovery → Bool
  | .ok _ => false
  | .error e => retryable e

/-- The attempt that the loop ends at, from an attempt on and with some retries left. -/
def lastAttempt (out : Outcomes) : Nat → Nat → Nat
  | attempt, 0 => attempt
  | attempt, retries + 1 =>
      if isRetryable (out attempt) then lastAttempt out (attempt + 1) retries else attempt

/-- What `fetch_with` returns after this outcome of its last attempt. -/
def finish (allowHttp : Bool) : Except TimError Discovery → Except TimError Discovery
  | .error e => .error e
  | .ok doc => (doc.validateWith allowHttp).map fun _ => doc

/-- What it writes to the cache then. -/
def stores (allowHttp : Bool) : Except TimError Discovery → List FetchOp
  | .error _ => []
  | .ok doc => if doc.validateWith allowHttp = .ok () then [.cacheInsert doc] else []

/-- The calls of some attempts, with the delays between them. -/
def tries (delays : List Nat) : List FetchOp :=
  .fetchOnce :: delays.flatMap fun ms => [.sleep ms, .fetchOnce]

/-- An attempt with a document ends the loop, and stores the document if it is accepted. -/
theorem run_accept (out : Outcomes) (allowHttp : Bool) (doc : Discovery) (calls : List FetchOp) :
    runFetch out (Fetch.accept allowHttp doc) calls
      = (finish allowHttp (.ok doc), calls ++ stores allowHttp (.ok doc)) := by
  simp only [runFetch, Fetch.accept, finish, stores]
  cases doc.validateWith allowHttp with
  | error e => simp [Prog.interp, Except.map]
  | ok u => rfl

/-- An attempt takes the next outcome. -/
theorem run_fetchOnce (out : Outcomes) (f : FetchResp .fetchOnce → Fetch Discovery)
    (calls : List FetchOp) :
    runFetch out (Fetch.call .fetchOnce >>= f) calls
      = runFetch out (f (out (fetches calls))) (calls ++ [.fetchOnce]) := rfl

/-- A pause is noted and changes nothing else. -/
theorem run_sleep (out : Outcomes) (ms : Nat) (f : FetchResp (.sleep ms) → Fetch Discovery)
    (calls : List FetchOp) :
    runFetch out (Fetch.call (.sleep ms) >>= f) calls
      = runFetch out (f ()) (calls ++ [.sleep ms]) := rfl

/-- An error that is not retried ends the loop. -/
theorem run_raise (out : Outcomes) (allowHttp : Bool) (e : TimError) (calls : List FetchOp) :
    runFetch out (.raise e) calls
      = (finish allowHttp (.error e), calls ++ stores allowHttp (.error e)) := by
  rw [stores, List.append_nil]
  rfl

/-- The delay before each attempt but the first, from some delay on. -/
def delaysFrom (delayMs : Nat) : Nat → List Nat
  | 0 => []
  | n + 1 => delayMs :: delaysFrom (min (delayMs * 2) 4000) n

/-- The loop ends at the attempt it is at, or later. -/
theorem lastAttempt_ge (out : Outcomes) (attempt retries : Nat) :
    attempt ≤ lastAttempt out attempt retries := by
  induction retries generalizing attempt with
  | zero => exact Nat.le_refl _
  | succ retries ih =>
      unfold lastAttempt
      split
      · have := ih (attempt + 1)
        omega
      · exact Nat.le_refl _

/-- The run of the loop from an attempt on: fetches and delays in turn up to the last attempt, and
then what its outcome asks for. The code behind the loop is not reached. -/
theorem run_retryLoop (out : Outcomes) (allowHttp : Bool)
    (after : Option TimError → Fetch Discovery) (retries first : Nat)
    (h : first + retries = Fetch.maxRetries) (lastErr : Option TimError) (delayMs : Nat)
    (calls : List FetchOp) (hcalls : fetches calls = first) :
    runFetch out (Fetch.retryLoop allowHttp after (List.range' first (retries + 1)) lastErr delayMs)
        calls
      = (finish allowHttp (out (lastAttempt out first retries)),
        calls ++ tries (delaysFrom delayMs (lastAttempt out first retries - first))
          ++ stores allowHttp (out (lastAttempt out first retries))) := by
  -- Induction on the retries that are left.
  induction retries generalizing first lastErr delayMs calls with
  | zero =>
      rw [List.range'_succ, Fetch.retryLoop, run_fetchOnce, hcalls, lastAttempt, Nat.sub_self]
      cases out first with
      | ok doc => exact run_accept out allowHttp doc _
      | error e =>
          show runFetch out (ite _ _ _) _ = _
          rw [if_pos (show first = Fetch.maxRetries from h)]
          exact run_raise out allowHttp e _
  | succ retries ih =>
      have hstep := ih (first + 1) (by omega)
      rw [List.range'_succ, Fetch.retryLoop, run_fetchOnce, hcalls, lastAttempt]
      cases hout : out first with
      | ok doc =>
          rw [if_neg (by simp [isRetryable]), Nat.sub_self, hout]
          exact run_accept out allowHttp doc _
      | error e =>
          show runFetch out (ite _ _ _) _ = _
          rw [if_neg (by omega)]
          by_cases hretry : retryable e = true
          · rw [if_pos hretry, if_pos (by simpa [isRetryable] using hretry), run_sleep,
              hstep (some e) _ _ (by simp [fetches, ← hcalls])]
            -- One more delay and one more fetch in front of those of the rest.
            have hge := lastAttempt_ge out (first + 1) retries
            have hsub : lastAttempt out (first + 1) retries - first
                = lastAttempt out (first + 1) retries - (first + 1) + 1 := by omega
            rw [hsub, delaysFrom, tries, tries, List.flatMap_cons]
            simp
          · rw [if_neg hretry, if_neg (by simpa [isRetryable] using hretry), Nat.sub_self, hout]
            exact run_raise out allowHttp e _

/-! ### The number of fetches -/

/-- The first `k` outcomes can be tried again, and the one after them not. -/
def Leading (out : Outcomes) (k : Nat) : Prop :=
  (∀ i < k, isRetryable (out i) = true) ∧ isRetryable (out k) = false

/-- After a number of retryable outcomes the loop ends at the first other one, unless the retries
are used up before. -/
theorem lastAttempt_of_leading {out : Outcomes} {k : Nat} (h : Leading out k) {attempt : Nat}
    (hle : attempt ≤ k) (retries : Nat) :
    lastAttempt out attempt retries = min (attempt + retries) k := by
  induction retries generalizing attempt with
  | zero =>
      rw [lastAttempt]
      omega
  | succ retries ih =>
      rw [lastAttempt]
      rcases Nat.lt_or_eq_of_le hle with hlt | rfl
      · rw [if_pos (h.1 attempt hlt), ih hlt]
        omega
      · rw [if_neg (by simp [h.2])]
        omega

/-- If every outcome is retryable, the loop ends when the retries are used up. -/
theorem lastAttempt_of_forall {out : Outcomes} (h : ∀ i, isRetryable (out i) = true)
    (attempt retries : Nat) : lastAttempt out attempt retries = attempt + retries := by
  induction retries generalizing attempt with
  | zero => rfl
  | succ retries ih =>
      rw [lastAttempt, if_pos (h attempt), ih]
      omega

/-- The loop never makes more retries than it has. -/
theorem lastAttempt_le (out : Outcomes) (attempt retries : Nat) :
    lastAttempt out attempt retries ≤ attempt + retries := by
  induction retries generalizing attempt with
  | zero => exact Nat.le_refl _
  | succ retries ih =>
      rw [lastAttempt]
      split
      · have := ih (attempt + 1)
        omega
      · omega

/-- The delays of the loop. -/
theorem delaysFrom_eq {n : Nat} (h : n ≤ 3) : delaysFrom 500 n = [500, 1000, 2000].take n := by
  have hall : ∀ i : Fin 4, delaysFrom 500 i = [500, 1000, 2000].take i := by decide
  exact hall ⟨n, by omega⟩

/-- Every pause is followed by one more attempt. -/
theorem fetches_tries (delays : List Nat) : fetches (tries delays) = delays.length + 1 := by
  induction delays with
  | nil => rfl
  | cons ms delays ih =>
      simp only [fetches, tries, List.flatMap_cons] at ih ⊢
      simp_all

/-- Storing a document is no attempt. -/
theorem fetches_stores (allowHttp : Bool) (x : Except TimError Discovery) :
    fetches (stores allowHttp x) = 0 := by
  cases x with
  | error e => rfl
  | ok doc =>
      unfold stores
      dsimp only
      split
      · rfl
      · rfl

/-! ### Answers of the 4xx -/

/-- `Display for StatusCode`: the three digits, then the reason. -/
def OAuthCrates.StatusLaws (K : OAuthCrates) : Prop :=
  ∀ s, 100 ≤ s → s < 1000 → ∃ reason, K.statusText s = toString s ++ reason

/-- The text of a status of the 4xx starts with a four. -/
theorem toString_clientError {s : Nat} (h : 400 ≤ s) (hlt : s < 500) :
    ∃ rest, (toString s).toList = '4' :: rest := by
  have hall : ∀ i : Fin 100, (toString (400 + i.val)).toList.head? = some '4' := by decide +kernel
  have hs := hall ⟨s - 400, by omega⟩
  rw [show 400 + (s - 400) = s by omega] at hs
  exact List.head?_eq_some_iff.mp hs

/-- The test on the text of the error finds every answer of the 4xx. -/
theorem retryable_of_clientError {K : OAuthCrates} (hK : K.StatusLaws) {s : Nat} (h : 400 ≤ s)
    (hlt : s < 500) :
    retryable (.badGateway ("discovery returned " ++ K.statusText s)) = false := by
  obtain ⟨reason, hreason⟩ := hK s (by omega) (by omega)
  obtain ⟨rest, hrest⟩ := toString_clientError h hlt
  have hfound : containsText ("discovery returned " ++ K.statusText s) "returned 4" = true := by
    unfold containsText
    rw [decide_eq_true_eq, hreason, String.toList_append, String.toList_append, hrest]
    exact ⟨"discovery ".toList, rest ++ reason.toList, rfl⟩
  simp only [retryable, hfound, Bool.not_true]

/-- An answer of the 4xx is a failure that is not tried again. -/
theorem fetchOnce_clientError {K : OAuthCrates} (hK : K.StatusLaws) (svc : OAuthService K)
    {url : String} {f : (o : Op) → Resp o} {resp : HttpResponse} (honline : svc.offline = false)
    (hresp : f (.httpGet url) = .ok resp) (h : 400 ≤ resp.status) (hlt : resp.status < 500) :
    ∃ e, (svc.fetchOnce url).answer (S := oauthSig) f = .error (.err e)
      ∧ retryable e = false := by
  refine ⟨_, ?_, retryable_of_clientError hK h hlt⟩
  have hfail : resp.isSuccess = false := by
    simp only [HttpResponse.isSuccess, Bool.and_eq_false_imp, decide_eq_true_eq,
      decide_eq_false_iff_not]
    omega
  have hblock : svc.blockIfOffline url = none := by
    unfold blockIfOffline
    rw [honline]
    rfl
  unfold fetchOnce
  rw [hblock]
  show Prog.answer _ (Prog.handle (.ret (f (.httpGet url))) _ _) = _
  rw [hresp]
  show Prog.answer _ (ite _ _ _) = _
  rw [hfail]
  rfl

/-! ### The whole function -/

/-- The number of fetches: one more than the leading outcomes that can be tried again, and at most
four. -/
def IsFetchCount (out : Outcomes) (n : Nat) : Prop :=
  (∀ k, Leading out k → n = min 4 (1 + k)) ∧ ((∀ i, isRetryable (out i) = true) → n = 4)

/-- The run of `fetch_with` on an empty cache entry. -/
theorem run_fetchWith (out : Outcomes) (allowHttp : Bool)
    (after : Option TimError → Fetch Discovery) :
    ∃ n, IsFetchCount out n ∧ 1 ≤ n ∧ n ≤ 4
      ∧ runFetch out (Fetch.fetchWithAfter after allowHttp) []
        = (finish allowHttp (out (n - 1)), .cacheGet
          :: (tries ([500, 1000, 2000].take (n - 1)) ++ stores allowHttp (out (n - 1)))) := by
  have hle := lastAttempt_le out 0 3
  refine ⟨lastAttempt out 0 3 + 1, ⟨fun k hk => ?_, fun hall => ?_⟩, by omega, by omega, ?_⟩
  · rw [lastAttempt_of_leading hk (Nat.zero_le k)]
    omega
  · rw [lastAttempt_of_forall hall]
  · have hloop := run_retryLoop out allowHttp after 3 0 rfl none 500 [.cacheGet] rfl
    rw [Nat.sub_zero, delaysFrom_eq (by omega), ← List.range_eq_range'] at hloop
    exact hloop

/-- `fetch_with` on an empty cache entry, for every sequence of outcomes and whatever code stands
behind the loop. -/
theorem fetch_with_attempts {K : OAuthCrates} (hK : K.StatusLaws) (svc : OAuthService K)
    (url : String) (allowHttp : Bool) (after : Option TimError → Fetch Discovery) :
    (Fetch.fetchWithAfter after allowHttp).expand (S := fetchSig) (T := oauthSig)
        (svc.fetchCalls url) .err = svc.fetchWith url allowHttp
    ∧ (∀ out : Outcomes, ∃ n calls, IsFetchCount out n
      ∧ runFetch out (Fetch.fetchWithAfter after allowHttp) []
        = (finish allowHttp (out (n - 1)), calls)
      ∧ fetches calls = n
      ∧ calls = .cacheGet
        :: (tries ([500, 1000, 2000].take (n - 1)) ++ stores allowHttp (out (n - 1))))
    ∧ ∀ (f : (o : Op) → Resp o) (resp : HttpResponse), svc.offline = false →
      f (.httpGet url) = .ok resp → 400 ≤ resp.status → resp.status < 500 →
      ∃ e, (svc.fetchOnce url).answer (S := oauthSig) f = .error (.err e)
        ∧ retryable e = false := by
  refine ⟨fetchWith_eq_expand svc url allowHttp after, fun out => ?_, ?_⟩
  · obtain ⟨n, hn, hge, hle, hrun⟩ := run_fetchWith out allowHttp after
    refine ⟨n, _, hn, hrun, ?_, rfl⟩
    have htries := fetches_tries ([500, 1000, 2000].take (n - 1))
    have hstores := fetches_stores allowHttp (out (n - 1))
    unfold fetches at htries hstores ⊢
    rw [List.count_cons_of_ne (by decide), List.count_append, htries, hstores, List.length_take]
    simp only [List.length_cons, List.length_nil]
    omega
  · intro f resp honline hresp h hlt
    exact fetchOnce_clientError hK svc honline hresp h hlt

namespace Sample

/-- The reasons of the two statuses that the samples answer with. -/
def reason (s : Nat) : String := if s = 404 then "Not Found" else "Service Unavailable"

/-- The crates with a status written as `http` does. -/
def statusCrates : OAuthCrates :=
  { Symbolic.oauth [] [] with statusText := fun s => toString s ++ " " ++ reason s }

/-- The sample client meets the laws of statuses. -/
theorem statusCrates_laws : statusCrates.StatusLaws := by
  intro s _ _
  exact ⟨" " ++ reason s, String.append_assoc ..⟩

/-- A service without providers. -/
def bareFlow : OAuthService statusCrates := ⟨∅, 600, 3600, "https://tim.test", false⟩

/-- The failure of a provider that is down. -/
def down : TimError := .badGateway "discovery returned 503 Service Unavailable"

end Sample

open Sample in
/-- A provider that stays down is asked four times, with a longer delay each time. -/
theorem fetch_with_attempts_down :
    ∃ calls, runFetch (fun _ => .error down) (Fetch.fetchWith false) [] = (.error down, calls)
      ∧ fetches calls = 4
      ∧ calls = [.cacheGet, .fetchOnce, .sleep 500, .fetchOnce, .sleep 1000, .fetchOnce,
        .sleep 2000, .fetchOnce] := by
  have hdown : retryable down = true := by decide +kernel
  obtain ⟨-, hrun, -⟩ := fetch_with_attempts statusCrates_laws bareFlow
    "https://idp.test/.well-known/openid-configuration" false Fetch.retriesExhausted
  obtain ⟨n, calls, hcount, hrun, hfetches, rfl⟩ := hrun fun _ => .error down
  have hn : n = 4 := hcount.2 fun _ => hdown
  subst hn
  exact ⟨_, hrun, hfetches, rfl⟩

end Tim.OAuth
