import Mathlib.Data.List.Nodup
import Tim.Model.Symbolic
import Tim.Proofs.Flow

/-!
# `Tim.Proofs.FlowRuns`: invariants of every run of the OAuth2 flow

`State.Effect` lists the outcomes of one call, and `exec_effect` is the inversion of
`State.exec`. `flow_invariant` is the invariant rule of `Tim.Lib.Pool` at this machine.

* `state_rows`: no two tasks draw the same bytes, every row of `auth.oauth_state` and every
  deleted row comes from the `INSERT` of a login, and no state is deleted twice.
* `consumed`: a callback that was given a row has deleted it, while it was young enough.
* `keys_loaded` and `keys_fresh`: every key set that a task was handed was loaded from its URI,
  and is not older than the time-to-live of the cache.
-/

set_option autoImplicit false

namespace Tim.OAuth

open Tim.Lib

/-! ### The outcomes of a call -/

namespace State

variable {store : SessionStore}

/-- The call answered with a row that was inserted. -/
def withRow (s : State store) (row : NewState) : State store :=
  { s with states := s.states.insert row.state ⟨row, s.clock.toTimestamptz⟩ }

/-- The call has deleted the row of a state. -/
def withoutRow (s : State store) (tid : Nat) (row : StateRow) (state : String) : State store :=
  { s with
    states := s.states.erase state
    removed := s.removed ++ [⟨tid, row, s.clock⟩] }

/-- The outcomes of a call: its answer, the state after it, and what it found. -/
inductive Effect (discoveryTtl jwksTtl : Nat) (tid : Nat) (s : State store) :
    (o : Op) → Resp o → State store → Prop
  | now : Effect discoveryTtl jwksTtl tid s .now s.clock s
  | drawn (n : Nat) (b : Bytes) (hlen : b.length = n) (hfresh : b ∉ s.used) :
      Effect discoveryTtl jwksTtl tid s (.fillBytes n) b { s with used := b :: s.used }
  | slept (ms : Nat) : Effect discoveryTtl jwksTtl tid s (.sleep ms) () s
  | client (r : Except String Unit) : Effect discoveryTtl jwksTtl tid s .buildClient r s
  | found (url : String) (e : Cached Discovery) (he : s.discovery[url]? = some e)
      (hlive : e.live discoveryTtl s.clock = true) :
      Effect discoveryTtl jwksTtl tid s (.discoveryGet url) (some e.value) s
  | missed (url : String)
      (hmiss : ((s.discovery[url]?).filter fun e => e.live discoveryTtl s.clock) = none) :
      Effect discoveryTtl jwksTtl tid s (.discoveryGet url) none s
  | cached (url : String) (doc : Discovery) :
      Effect discoveryTtl jwksTtl tid s (.discoveryInsert url doc) ()
        { s with discovery := s.discovery.insert url ⟨doc, s.clock⟩ }
  | keysFound (uri : String) (e : Cached JwkSet) (he : s.jwks[uri]? = some e)
      (hlive : e.live jwksTtl s.clock = true) :
      Effect discoveryTtl jwksTtl tid s (.jwksGet uri) (some e.value)
        { s with keyUses := s.keyUses ++ [⟨tid, uri, e.value, e.insertedAt, s.clock⟩] }
  | keysMissed (uri : String) : Effect discoveryTtl jwksTtl tid s (.jwksGet uri) none s
  | keysCached (uri : String) (set : JwkSet) :
      Effect discoveryTtl jwksTtl tid s (.jwksInsert uri set) () (s.jwksInsert tid uri set)
  | got (url : String) (r : Except SendError HttpResponse) :
      Effect discoveryTtl jwksTtl tid s (.httpGet url) r s
  | posted (url clientId clientSecret : String) (form : List (String × String))
      (r : Except SendError HttpResponse) :
      Effect discoveryTtl jwksTtl tid s (.httpPost url clientId clientSecret form) r s
  | inserted (row : NewState) (hfree : s.states[row.state]? = none) :
      Effect discoveryTtl jwksTtl tid s (.insertState row) (.ok ()) (s.withRow row)
  | insertFailed (row : NewState) (e : String) :
      Effect discoveryTtl jwksTtl tid s (.insertState row) (.error e) s
  | consumed (state providerId : String) (maxAge : Int32) (row : StateRow)
      (hrow : s.states[state]? = some row) (hprovider : row.providerId = providerId)
      (hyoung : row.youngerThan maxAge s.clock = true) :
      Effect discoveryTtl jwksTtl tid s (.deleteState state providerId maxAge)
        (.ok (some ⟨row.nonce, row.providerId, row.redirectUri, row.pkceVerifier⟩))
        (s.withoutRow tid row state)
  | notFound (state providerId : String) (maxAge : Int32) :
      Effect discoveryTtl jwksTtl tid s (.deleteState state providerId maxAge) (.ok none) s
  | deleteFailed (state providerId : String) (maxAge : Int32) (e : String) :
      Effect discoveryTtl jwksTtl tid s (.deleteState state providerId maxAge) (.error e) s
  | swept (maxAge : Int32) :
      Effect discoveryTtl jwksTtl tid s (.sweepState maxAge) (s.sweepState tid maxAge).1
        (s.sweepState tid maxAge).2
  | sweepFailed (maxAge : Int32) (e : String) :
      Effect discoveryTtl jwksTtl tid s (.sweepState maxAge) (.error e) s
  | created (session : Session) (nonce : Nonce) :
      Effect discoveryTtl jwksTtl tid s (.createSession session)
        (store.create ⟨s.clock, nonce⟩ session s.sessions).1
        { s with sessions := (store.create ⟨s.clock, nonce⟩ session s.sessions).2 }
  | createFailed (session : Session) (e : String) :
      Effect discoveryTtl jwksTtl tid s (.createSession session) (.error (.database e)) s

variable {discoveryTtl jwksTtl tid : Nat} {s s' : State store}

/-- A statement has its effect, or it fails and the state is as before. -/
theorem statement_cases {α : Type} {f : Sql α × State store} {ch : Choice} {r : Sql α}
    (h : s.statement f ch = some (r, s')) : (r, s') = f ∨ (∃ e, r = .error e) ∧ s' = s := by
  cases ch with
  | go =>
      cases h
      exact .inl rfl
  | fail e =>
      cases h
      exact .inr ⟨⟨e, rfl⟩, rfl⟩
  | _ => cases h

/-- The `DELETE` takes the row that matches, or nothing. -/
theorem deleteState_effect {state providerId : String} {maxAge : Int32}
    {r : Sql (Option Returned)} (h : (r, s') = s.deleteState tid state providerId maxAge) :
    Effect discoveryTtl jwksTtl tid s (.deleteState state providerId maxAge) r s' := by
  unfold deleteState at h
  split at h
  · cases h
    exact .deleteFailed _ _ _ _
  · split at h
    · cases h
      exact .notFound _ _ _
    · rename_i row hrow
      obtain ⟨hget, hcond⟩ := Option.filter_eq_some_iff.mp hrow
      rw [Bool.and_eq_true] at hcond
      cases h
      exact .consumed _ _ _ row hget (beq_iff_eq.mp hcond.1) hcond.2

/-- The `INSERT` adds a row under a free key, or fails. -/
theorem insertState_effect {row : NewState} {r : Sql Unit} (h : (r, s') = s.insertState row) :
    Effect discoveryTtl jwksTtl tid s (.insertState row) r s' := by
  unfold insertState at h
  split at h
  · cases h
    exact .insertFailed _ _
  · split at h
    · cases h
      exact .insertFailed _ _
    · rename_i hfree
      cases h
      exact .inserted row (by simpa using hfree)

/-- A read of the key cache hands out an entry that is not too old, and notes the use. -/
theorem jwksGet_effect {uri : String} {r : Option JwkSet}
    (h : (r, s') = s.jwksGet jwksTtl tid uri) :
    Effect discoveryTtl jwksTtl tid s (.jwksGet uri) r s' := by
  unfold jwksGet at h
  split at h
  · cases h
    exact .keysMissed uri
  · rename_i e he
    obtain ⟨hget, hlive⟩ := Option.filter_eq_some_iff.mp he
    cases h
    exact .keysFound uri e hget hlive

/-- Every answered call is one of the outcomes. -/
theorem exec_effect {o : Op} {ch : Choice} {r : Resp o}
    (h : s.exec discoveryTtl jwksTtl tid o ch = some (r, s')) :
    Effect discoveryTtl jwksTtl tid s o r s' := by
  cases o with
  | now =>
      cases ch <;> cases h
      exact .now
  | fillBytes n =>
      cases ch with
      | bytes b =>
          simp only [exec] at h
          split at h
          · rename_i hcond
            cases h
            exact .drawn _ _ hcond.1 hcond.2
          · cases h
      | _ => cases h
  | sleep ms =>
      cases ch <;> cases h
      exact .slept ms
  | buildClient =>
      cases ch with
      | go =>
          cases h
          exact .client _
      | fail e =>
          cases h
          exact .client _
      | _ => cases h
  | discoveryGet url =>
      cases ch with
      | go =>
          cases hfilter : (s.discovery[url]?).filter fun e => e.live discoveryTtl s.clock with
          | none =>
              simp only [exec, hfilter] at h
              cases h
              exact .missed url hfilter
          | some e =>
              obtain ⟨hget, hlive⟩ := Option.filter_eq_some_iff.mp hfilter
              simp only [exec, hfilter] at h
              cases h
              exact .found url e hget hlive
      | _ => cases h
  | discoveryInsert url doc =>
      cases ch <;> cases h
      exact .cached url doc
  | jwksGet uri =>
      cases ch with
      | go => exact jwksGet_effect (Option.some.inj h).symm
      | _ => cases h
  | jwksInsert uri set =>
      cases ch <;> cases h
      exact .keysCached uri set
  | httpGet url =>
      cases ch <;> cases h
      exact .got url _
  | httpPost url clientId clientSecret form =>
      cases ch <;> cases h
      exact .posted url clientId clientSecret form _
  | insertState row =>
      rcases statement_cases h with hgo | ⟨⟨e, rfl⟩, rfl⟩
      · exact insertState_effect hgo
      · exact .insertFailed row e
  | deleteState state providerId maxAge =>
      rcases statement_cases h with hgo | ⟨⟨e, rfl⟩, rfl⟩
      · exact deleteState_effect hgo
      · exact .deleteFailed state providerId maxAge e
  | sweepState maxAge =>
      rcases statement_cases h with hgo | ⟨⟨e, rfl⟩, rfl⟩
      · cases hgo
        exact .swept maxAge
      · exact .sweepFailed maxAge e
  | createSession session =>
      cases ch with
      | nonce n =>
          cases h
          exact .created session n
      | fail e =>
          cases h
          exact .createFailed session e
      | _ => cases h

/-- Calls take no time. -/
theorem Effect.clock_eq {o : Op} {r : Resp o} (h : Effect discoveryTtl jwksTtl tid s o r s') :
    s'.clock = s.clock := by
  cases h <;> rfl

/-- No call forgets a deleted row. -/
theorem Effect.removed_mono {o : Op} {r : Resp o}
    (h : Effect discoveryTtl jwksTtl tid s o r s') {x : Removal} (hx : x ∈ s.removed) :
    x ∈ s'.removed := by
  cases h with
  | consumed _ _ _ row => exact List.mem_append_left _ hx
  | swept maxAge => exact List.mem_append_left _ hx
  | _ => exact hx

end State

/-! ### Runs of the flow -/

section Runs

variable {K : OAuthCrates} {store : SessionStore} {discoveryTtl jwksTtl : Nat}

/-- A pool of requests to the OAuth2 flow. -/
abbrev FlowPool (store : SessionStore) (discoveryTtl jwksTtl : Nat) :=
  Pool (oauthMachine store discoveryTtl jwksTtl) Request Fault Response

/-- A step of such a pool. -/
abbrev FlowLabel (store : SessionStore) (discoveryTtl jwksTtl : Nat) :=
  Label (oauthMachine store discoveryTtl jwksTtl) Request

/-- A run of the flow from the state `s₀`, each step allowed by `P`. -/
abbrev FlowReach (svc : OAuthService K)
    (P : FlowPool store discoveryTtl jwksTtl → FlowLabel store discoveryTtl jwksTtl → Prop)
    (s₀ : State store) (c : FlowPool store discoveryTtl jwksTtl) : Prop :=
  Pool.Reach svc.program P (Pool.init s₀) c

variable {svc : OAuthService K}
  {P : FlowPool store discoveryTtl jwksTtl → FlowLabel store discoveryTtl jwksTtl → Prop}
  {s₀ : State store} {c : FlowPool store discoveryTtl jwksTtl}

/-- What happens outside the requests changes nothing but the clock and the caches, which
only lose entries. -/
structure EnvStep (s s' : State store) : Prop where
  clock : s.clock ≤ s'.clock
  states : s'.states = s.states
  sessions : s'.sessions = s.sessions
  used : s'.used = s.used
  removed : s'.removed = s.removed
  keyUses : s'.keyUses = s.keyUses
  discovery : ∀ (url : String) e, s'.discovery[url]? = some e → s.discovery[url]? = some e
  jwks : ∀ (uri : String) e, s'.jwks[uri]? = some e → s.jwks[uri]? = some e

/-- Outside the program only the clock moves and cache entries go. -/
theorem envStep_of_env {s s' : State store} {e : Env} (h : s.env e = some s') : EnvStep s s' := by
  have hrefl : s.clock ≤ s.clock := Int.le_refl _
  cases e with
  | tick t =>
      simp only [State.env] at h
      split at h
      · rename_i hle
        cases h
        exact ⟨hle, rfl, rfl, rfl, rfl, rfl, fun _ _ h => h, fun _ _ h => h⟩
      · cases h
  | evictDiscovery url =>
      cases h
      refine ⟨hrefl, rfl, rfl, rfl, rfl, rfl, fun url' e he => ?_, fun _ _ h => h⟩
      rw [Std.ExtTreeMap.getElem?_erase] at he
      split at he
      · cases he
      · exact he
  | evictJwks uri =>
      cases h
      refine ⟨hrefl, rfl, rfl, rfl, rfl, rfl, fun _ _ h => h, fun uri' e he => ?_⟩
      rw [Std.ExtTreeMap.getElem?_erase] at he
      split at he
      · cases he
      · exact he

/-- The invariant rule for properties of the state and the history. -/
theorem flow_invariant {I : State store → List (Nat × Event oauthSig) → Prop}
    (h : FlowReach svc P s₀ c) (h₀ : I s₀ [])
    (hcall : ∀ s hist tid (o : Op) (r : Resp o) s' req, svc.Call req (eventsOf hist tid) o →
      State.Effect discoveryTtl jwksTtl tid s o r s' → I s hist →
      I s' (hist ++ [(tid, ⟨o, r⟩)]))
    (henv : ∀ s hist s', EnvStep s s' → I s hist → I s' hist) : I c.shared c.history := by
  refine h.invariant (I := fun c => I c.shared c.history) h₀ ?_
  intro c l c' hr _ hn hI
  cases hn with
  | spawn req => exact hI
  | step tid ch req o k r s htask hexec =>
      exact hcall _ _ tid o r s req (hr.call_spec svc.program_spec htask)
        (State.exec_effect hexec) hI
  | cancel tid req o k htask => exact hI
  | env e s hs => exact henv _ _ s (envStep_of_env hs) hI

/-! ### Rows of `auth.oauth_state` -/

/-- What every reached state says about random bytes and rows. -/
structure StateRows (s : State store) (hist : List (Nat × Event oauthSig)) : Prop where
  used : ∀ tid n (b : Bytes), (tid, (⟨Op.fillBytes n, b⟩ : Event oauthSig)) ∈ hist → b ∈ s.used
  drawnOnce : ∀ tid tid' n n' (b : Bytes), (tid, (⟨Op.fillBytes n, b⟩ : Event oauthSig)) ∈ hist →
    (tid', (⟨Op.fillBytes n', b⟩ : Event oauthSig)) ∈ hist → tid = tid'
  drawn : ∀ tid row (r : Sql Unit), (tid, (⟨Op.insertState row, r⟩ : Event oauthSig)) ∈ hist →
    ∃ b : Bytes, (tid, (⟨Op.fillBytes 32, b⟩ : Event oauthSig)) ∈ hist ∧ row.state = hexEncode b
  table : ∀ (state : String) row, s.states[state]? = some row → row.state = state
    ∧ ∃ tid, (tid, (⟨Op.insertState row.toNewState, Except.ok ()⟩ : Event oauthSig)) ∈ hist
  deleted : ∀ x ∈ s.removed, ∃ tid,
    (tid, (⟨Op.insertState x.row.toNewState, Except.ok ()⟩ : Event oauthSig)) ∈ hist
  deletedOnce : (s.removed.map (·.row.state)).Nodup
  gone : ∀ x ∈ s.removed, s.states[x.row.state]? = none

namespace StateRows

variable {s s' : State store} {hist : List (Nat × Event oauthSig)}

/-- A call that draws nothing and leaves the table as it is keeps all of it. -/
theorem frame (h : StateRows s hist) (hused : s'.used = s.used) (hstates : s'.states = s.states)
    (hremoved : s'.removed = s.removed) {tid : Nat} {e : Event oauthSig}
    (hdraw : ∀ n, e.op ≠ .fillBytes n)
    (hinsert : ∀ row, e.op = .insertState row → ∃ b : Bytes,
      (tid, (⟨Op.fillBytes 32, b⟩ : Event oauthSig)) ∈ hist ∧ row.state = hexEncode b) :
    StateRows s' (hist ++ [(tid, e)]) := by
  -- The new event is no draw, so the draws are those of the old history.
  have hback : ∀ {tid' n : Nat} {b : Bytes},
      (tid', (⟨Op.fillBytes n, b⟩ : Event oauthSig)) ∈ hist ++ [(tid, e)] →
      (tid', (⟨Op.fillBytes n, b⟩ : Event oauthSig)) ∈ hist := by
    intro tid' n b hmem
    rcases List.mem_append.mp hmem with hmem | hmem
    · exact hmem
    · cases List.mem_singleton.mp hmem
      exact absurd rfl (hdraw n)
  constructor
  · intro tid' n b hmem
    rw [hused]
    exact h.used tid' n b (hback hmem)
  · intro tid₁ tid₂ n n' b h₁ h₂
    exact h.drawnOnce tid₁ tid₂ n n' b (hback h₁) (hback h₂)
  · intro tid' row r hmem
    rcases List.mem_append.mp hmem with hmem | hmem
    · obtain ⟨b, hb, heq⟩ := h.drawn tid' row r hmem
      exact ⟨b, List.mem_append_left _ hb, heq⟩
    · cases List.mem_singleton.mp hmem
      obtain ⟨b, hb, heq⟩ := hinsert row rfl
      exact ⟨b, List.mem_append_left _ hb, heq⟩
  · intro state row hrow
    rw [hstates] at hrow
    obtain ⟨heq, tid', hmem⟩ := h.table state row hrow
    exact ⟨heq, tid', List.mem_append_left _ hmem⟩
  · intro x hx
    rw [hremoved] at hx
    obtain ⟨tid', hmem⟩ := h.deleted x hx
    exact ⟨tid', List.mem_append_left _ hmem⟩
  · rw [hremoved]
    exact h.deletedOnce
  · rw [hremoved, hstates]
    exact h.gone

/-- A draw gives bytes that no task has drawn before. -/
theorem draw (h : StateRows s hist) {tid n : Nat} {b : Bytes} (hfresh : b ∉ s.used) :
    StateRows { s with used := b :: s.used } (hist ++ [(tid, ⟨Op.fillBytes n, b⟩)]) := by
  -- A draw of the new history is an old one with other bytes, or it is this one.
  have hcases : ∀ {tid' n' : Nat} {b' : Bytes},
      (tid', (⟨Op.fillBytes n', b'⟩ : Event oauthSig)) ∈ hist ++ [(tid, ⟨Op.fillBytes n, b⟩)] →
      (tid', (⟨Op.fillBytes n', b'⟩ : Event oauthSig)) ∈ hist ∧ b' ≠ b ∨ tid' = tid ∧ b' = b := by
    intro tid' n' b' hmem
    rcases List.mem_append.mp hmem with hmem | hmem
    · refine .inl ⟨hmem, fun heq => hfresh ?_⟩
      rw [← heq]
      exact h.used tid' n' b' hmem
    · cases List.mem_singleton.mp hmem
      exact .inr ⟨rfl, rfl⟩
  constructor
  · intro tid' n' b' hmem
    rcases hcases hmem with ⟨hold, -⟩ | ⟨-, rfl⟩
    · exact List.mem_cons_of_mem _ (h.used tid' n' b' hold)
    · exact List.mem_cons_self
  · intro tid₁ tid₂ n₁ n₂ b' h₁ h₂
    rcases hcases h₁ with ⟨hold₁, hne₁⟩ | ⟨rfl, rfl⟩
    · rcases hcases h₂ with ⟨hold₂, -⟩ | ⟨-, heq⟩
      · exact h.drawnOnce tid₁ tid₂ n₁ n₂ b' hold₁ hold₂
      · exact absurd heq hne₁
    · rcases hcases h₂ with ⟨-, hne₂⟩ | ⟨rfl, -⟩
      · exact absurd rfl hne₂
      · rfl
  · intro tid' row r hmem
    rcases List.mem_append.mp hmem with hmem | hmem
    · obtain ⟨b', hb', heq⟩ := h.drawn tid' row r hmem
      exact ⟨b', List.mem_append_left _ hb', heq⟩
    · cases List.mem_singleton.mp hmem
  · intro state row hrow
    obtain ⟨heq, tid', hmem⟩ := h.table state row hrow
    exact ⟨heq, tid', List.mem_append_left _ hmem⟩
  · intro x hx
    obtain ⟨tid', hmem⟩ := h.deleted x hx
    exact ⟨tid', List.mem_append_left _ hmem⟩
  · exact h.deletedOnce
  · exact h.gone

/-- The state that a login inserts is one that no other task has inserted. -/
theorem state_new (h : StateRows s hist) {providerId redirectUri : String} {tid : Nat}
    {row : NewState}
    (hins : OAuthService.Inserting K providerId redirectUri (eventsOf hist tid) row)
    {tid' : Nat} {row' : NewState} {r : Sql Unit}
    (hmem : (tid', (⟨Op.insertState row', r⟩ : Event oauthSig)) ∈ hist) :
    row'.state ≠ row.state := by
  intro heq
  obtain ⟨b, hb, hstate⟩ := hins.state
  obtain ⟨b', hb', hstate'⟩ := h.drawn tid' row' r hmem
  -- Equal states are equal bytes, drawn by one task, and that task inserts only once.
  have hbytes : b' = b := hexEncode_injective (by rw [← hstate', heq, hstate])
  subst hbytes
  have htid := h.drawnOnce tid' tid 32 32 b' hb' (mem_eventsOf.mp hb)
  subst htid
  exact hins.first row' r (mem_eventsOf.mpr hmem)

/-- A new row has an event of its own, and its state was not deleted before. -/
theorem insert (h : StateRows s hist) {tid : Nat} {row : NewState}
    (hmem : (tid, (⟨Op.insertState row, Except.ok ()⟩ : Event oauthSig)) ∈ hist)
    (hne : ∀ x ∈ s.removed, x.row.state ≠ row.state) : StateRows (s.withRow row) hist := by
  refine ⟨h.used, h.drawnOnce, h.drawn, ?_, h.deleted, h.deletedOnce, ?_⟩
  · intro state row' hrow
    simp only [State.withRow] at hrow
    rw [Std.ExtTreeMap.getElem?_insert] at hrow
    split at hrow
    · rename_i heq
      cases hrow
      exact ⟨Std.LawfulEqCmp.eq_of_compare heq, tid, hmem⟩
    · exact h.table state row' hrow
  · intro x hx
    simp only [State.withRow]
    rw [Std.ExtTreeMap.getElem?_insert, if_neg]
    · exact h.gone x hx
    · exact fun heq => hne x hx (Std.LawfulEqCmp.eq_of_compare heq).symm

/-- Rows that leave the table are deleted for the first time. -/
theorem remove (h : StateRows s hist) {old : List StateRow} {tid : Nat} {at_ : DateTime}
    (hold : ∀ r ∈ old, s.states[r.state]? = some r) (hnodup : (old.map (·.state)).Nodup)
    (hused : s'.used = s.used)
    (hremoved : s'.removed = s.removed ++ old.map fun r => ⟨tid, r, at_⟩)
    (hleft : ∀ (state : String) row, s'.states[state]? = some row → s.states[state]? = some row)
    (hgone : ∀ r ∈ old, s'.states[r.state]? = none) : StateRows s' hist := by
  have hmem : ∀ x ∈ s'.removed, x ∈ s.removed ∨ ∃ r ∈ old, x.row = r := by
    intro x hx
    rw [hremoved, List.mem_append] at hx
    rcases hx with hx | hx
    · exact .inl hx
    · obtain ⟨r, hr, rfl⟩ := List.mem_map.mp hx
      exact .inr ⟨r, hr, rfl⟩
  refine ⟨?_, h.drawnOnce, h.drawn, ?_, ?_, ?_, ?_⟩
  · rw [hused]
    exact h.used
  · exact fun state row hrow => h.table state row (hleft state row hrow)
  · intro x hx
    rcases hmem x hx with hx | ⟨r, hr, rfl⟩
    · exact h.deleted x hx
    · exact (h.table _ _ (hold _ hr)).2
  · have hmap : s'.removed.map (·.row.state)
        = s.removed.map (·.row.state) ++ old.map (·.state) := by
      rw [hremoved]
      simp
    rw [hmap, List.nodup_append]
    refine ⟨h.deletedOnce, hnodup, ?_⟩
    -- The old rows were in the table, and no deleted state is.
    intro a ha b hb heq
    obtain ⟨x, hx, rfl⟩ := List.mem_map.mp ha
    obtain ⟨r, hr, rfl⟩ := List.mem_map.mp hb
    have hnone := h.gone x hx
    rw [heq, hold r hr] at hnone
    cases hnone
  · intro x hx
    rcases hmem x hx with hx | ⟨r, hr, rfl⟩
    · cases hrow : s'.states[x.row.state]? with
      | none => rfl
      | some row =>
          have hsome := hleft _ _ hrow
          rw [h.gone x hx] at hsome
          cases hsome
    · exact hgone _ hr

/-- The `DELETE` of a callback. -/
theorem consume (h : StateRows s hist) {tid : Nat} {state : String} {row : StateRow}
    (hrow : s.states[state]? = some row) : StateRows (s.withoutRow tid row state) hist := by
  have hkey : row.state = state := (h.table state row hrow).1
  have hremoved : (s.withoutRow tid row state).removed
      = s.removed ++ [row].map fun r => ⟨tid, r, s.clock⟩ := rfl
  refine h.remove ?_ (by simp) rfl hremoved ?_ ?_
  · intro r hr
    cases List.mem_singleton.mp hr
    rw [hkey]
    exact hrow
  · intro state' row' hrow'
    simp only [State.withoutRow] at hrow'
    rw [Std.ExtTreeMap.getElem?_erase] at hrow'
    split at hrow'
    · cases hrow'
    · exact hrow'
  · intro r hr
    cases List.mem_singleton.mp hr
    simp only [State.withoutRow]
    rw [hkey, Std.ExtTreeMap.getElem?_erase, if_pos (by simp)]

/-- The `DELETE` of the sweeper. -/
theorem sweep (h : StateRows s hist) (tid : Nat) (maxAge : Int32) :
    StateRows (s.sweepState tid maxAge).2 hist := by
  have hmem : ∀ r, r ∈ (s.states.toList.map (·.2)).filter (fun r => r.olderThan maxAge s.clock) →
      s.states[r.state]? = some r ∧ r.olderThan maxAge s.clock = true := by
    intro r hr
    obtain ⟨hr, hold⟩ := List.mem_filter.mp hr
    obtain ⟨⟨state, r'⟩, hr', rfl⟩ := List.mem_map.mp hr
    have hget : s.states[state]? = some r' :=
      Std.ExtTreeMap.mem_toList_iff_getElem?_eq_some.mp hr'
    refine ⟨?_, hold⟩
    rw [(h.table state r' hget).1]
    exact hget
  -- Each row is under its own state, so the states of the rows are distinct as the keys are.
  have hkeys : (s.states.toList.map (·.2.state)).Nodup := by
    refine List.Nodup.of_map id ?_
    rw [List.map_id, List.Nodup, List.pairwise_map]
    refine s.states.distinct_keys_toList.imp_of_mem ?_
    intro a b ha hb hne heq
    have hga : s.states[a.1]? = some a.2 := Std.ExtTreeMap.mem_toList_iff_getElem?_eq_some.mp ha
    have hgb : s.states[b.1]? = some b.2 := Std.ExtTreeMap.mem_toList_iff_getElem?_eq_some.mp hb
    rw [(h.table _ _ hga).1, (h.table _ _ hgb).1] at heq
    exact hne (by rw [heq]; exact Std.ReflCmp.compare_self)
  refine h.remove (fun r hr => (hmem r hr).1) ?_ rfl rfl ?_ ?_
  · refine List.Nodup.sublist ?_ hkeys
    have := (List.filter_sublist (p := fun r : StateRow => r.olderThan maxAge s.clock)
      (l := s.states.toList.map (·.2))).map (·.state)
    rw [List.map_map] at this
    exact this
  · intro state row hrow
    simp only [State.sweepState] at hrow
    rw [Std.ExtTreeMap.getElem?_filter', Option.filter_eq_some_iff] at hrow
    exact hrow.1
  · intro r hr
    obtain ⟨hget, hold⟩ := hmem r hr
    simp only [State.sweepState]
    rw [Std.ExtTreeMap.getElem?_filter', hget]
    simp [hold]

end StateRows

/-- Every reached state has these properties. -/
theorem state_rows (h : FlowReach svc P s₀ c) (hstates : s₀.states = ∅)
    (hremoved : s₀.removed = []) : StateRows c.shared c.history := by
  refine flow_invariant h ?_ ?_ ?_
  · refine ⟨by simp, by simp, by simp, ?_, ?_, ?_, ?_⟩
    · rw [hstates]
      simp
    · rw [hremoved]
      simp
    · rw [hremoved]
      exact List.nodup_nil
    · rw [hremoved]
      simp
  · intro s hist tid o r s' req hcall heff hI
    cases heff with
    | drawn n b hlen hfresh => exact hI.draw hfresh
    | inserted row hfree =>
        obtain ⟨providerId, redirectUri, -, hins⟩ := hcall
        have hdrawn : ∃ b : Bytes, (tid, (⟨Op.fillBytes 32, b⟩ : Event oauthSig)) ∈ hist
            ∧ row.state = hexEncode b := by
          obtain ⟨b, hb, heq⟩ := hins.state
          exact ⟨b, mem_eventsOf.mp hb, heq⟩
        -- A deleted row came from another `INSERT`, so its state is another one.
        have hne : ∀ x ∈ s.removed, x.row.state ≠ row.state := by
          intro x hx
          obtain ⟨tid', hmem⟩ := hI.deleted x hx
          exact hI.state_new hins hmem
        have hframe : StateRows s (hist ++ [(tid, ⟨Op.insertState row, Except.ok ()⟩)]) := by
          refine hI.frame rfl rfl rfl (fun _ => nofun) ?_
          rintro _ ⟨⟩
          exact hdrawn
        exact hframe.insert (List.mem_append_right _ List.mem_cons_self) hne
    | insertFailed row e =>
        obtain ⟨providerId, redirectUri, -, hins⟩ := hcall
        refine hI.frame rfl rfl rfl (fun _ => nofun) ?_
        rintro _ ⟨⟩
        obtain ⟨b, hb, heq⟩ := hins.state
        exact ⟨b, mem_eventsOf.mp hb, heq⟩
    | consumed state providerId maxAge row hrow hprovider hyoung =>
        refine StateRows.consume ?_ hrow
        exact hI.frame rfl rfl rfl (fun _ => nofun) (fun _ => nofun)
    | swept maxAge =>
        refine StateRows.sweep ?_ tid maxAge
        exact hI.frame rfl rfl rfl (fun _ => nofun) (fun _ => nofun)
    | _ =>
        refine hI.frame ?_ ?_ ?_ (fun _ => nofun) (fun _ => nofun)
        · rfl
        · rfl
        · rfl
  · intro s hist s' henv hI
    refine ⟨?_, hI.drawnOnce, hI.drawn, ?_, ?_, ?_, ?_⟩
    · rw [henv.used]
      exact hI.used
    · rw [henv.states]
      exact hI.table
    · rw [henv.removed]
      exact hI.deleted
    · rw [henv.removed]
      exact hI.deletedOnce
    · rw [henv.removed, henv.states]
      exact hI.gone

/-- A draw has the length that was asked for. -/
theorem drawn_length (h : FlowReach svc P s₀ c) {tid n : Nat} {b : Bytes}
    (hmem : (tid, (⟨Op.fillBytes n, b⟩ : Event oauthSig)) ∈ c.history) : b.length = n := by
  have hinv : ∀ tid n (b : Bytes), (tid, (⟨Op.fillBytes n, b⟩ : Event oauthSig)) ∈ c.history →
      b.length = n := by
    refine flow_invariant (I := fun _ hist => ∀ tid n (b : Bytes),
      (tid, (⟨Op.fillBytes n, b⟩ : Event oauthSig)) ∈ hist → b.length = n) h (by simp) ?_ ?_
    · intro s hist tid o r s' req _ heff hI tid' n b hmem
      rcases List.mem_append.mp hmem with hmem | hmem
      · exact hI tid' n b hmem
      · cases List.mem_singleton.mp hmem
        cases heff with
        | drawn _ _ hlen _ => exact hlen
    · exact fun s hist s' _ hI => hI
  exact hinv tid n b hmem

/-- What `RETURNING` gives of a row. -/
def StateRow.returned (r : StateRow) : Returned :=
  ⟨r.nonce, r.providerId, r.redirectUri, r.pkceVerifier⟩

/-- A callback that was given a row has deleted it, while it was young enough. A login had
inserted it before. -/
def Consumed (s : State store) (hist : List (Nat × Event oauthSig)) : Prop :=
  ∀ tid state providerId maxAge (row : Returned) g₁ g₂,
    hist = g₁ ++ (tid, (⟨Op.deleteState state providerId maxAge, Except.ok (some row)⟩ :
      Event oauthSig)) :: g₂ →
    ∃ x ∈ s.removed, x.tid = tid ∧ x.row.state = state ∧ x.row.providerId = providerId
      ∧ row = x.row.returned ∧ x.row.youngerThan maxAge x.at_ = true
      ∧ ∃ login, (login, (⟨Op.insertState x.row.toNewState, Except.ok ()⟩ : Event oauthSig)) ∈ g₁

/-- The run lemma: a row that was removed is noted as such, from a table that was empty at the
start. -/
theorem consumed (h : FlowReach svc P s₀ c) (hstates : s₀.states = ∅) (hremoved : s₀.removed = []) :
    Consumed c.shared c.history := by
  refine h.invariant (I := fun c => Consumed c.shared c.history) ?_ ?_
  · intro tid state providerId maxAge row g₁ g₂ hsplit
    simp [Pool.init] at hsplit
  intro c l c' hr _ hn ih tid state providerId maxAge row g₁ g₂ hsplit
  cases hn with
  | spawn req => exact ih tid state providerId maxAge row g₁ g₂ hsplit
  | cancel tid' req o k htask => exact ih tid state providerId maxAge row g₁ g₂ hsplit
  | env e s henv =>
      obtain ⟨x, hx, hrest⟩ := ih tid state providerId maxAge row g₁ g₂ hsplit
      have hsame : s.removed = c.shared.removed := (envStep_of_env henv).removed
      exact ⟨x, by rw [hsame]; exact hx, hrest⟩
  | step tid' ch req o k r s htask hexec =>
      have heff : State.Effect discoveryTtl jwksTtl tid' c.shared o r s := State.exec_effect hexec
      rcases snoc_eq_split hsplit with ⟨-, rfl, hlast⟩ | ⟨g, -, hold⟩
      · -- The new call is the `DELETE`. The row was in the table.
        cases hlast
        cases heff with
        | consumed _ _ _ x hx hprovider hyoung =>
            have hrows := state_rows hr hstates hremoved
            obtain ⟨hkey, login, hlogin⟩ := hrows.table state x hx
            refine ⟨⟨tid, x, c.shared.clock⟩, ?_, rfl, hkey, hprovider, rfl, hyoung, login, hlogin⟩
            exact List.mem_append_right _ List.mem_cons_self
      · obtain ⟨x, hx, hrest⟩ := ih tid state providerId maxAge row g₁ g hold
        exact ⟨x, heff.removed_mono hx, hrest⟩

/-! ### Key sets -/

/-- Some task has loaded the key set from the URI. -/
def Loaded (K : OAuthCrates) (uri : String) (set : JwkSet) (hist : List (Nat × Event oauthSig)) :
    Prop :=
  ∃ tid resp, (tid, (⟨Op.httpGet uri, Except.ok resp⟩ : Event oauthSig)) ∈ hist
    ∧ OAuthService.IsKeySet K resp set

/-- The end of a load, at the time that the record says. The task has put the set into the cache,
and the call that it made right before was the request that the set comes from. -/
def Load (K : OAuthCrates) (v : KeyUse) (hist : List (Nat × Event oauthSig)) : Prop :=
  v.loadedAt = v.at_ ∧ ∃ before after, OAuthService.JustLoaded K v.uri v.set before
    ∧ eventsOf hist v.tid = before ++ ⟨Op.jwksInsert v.uri v.set, ()⟩ :: after

/-- What every reached state says about the key sets of the cache and of the tasks. -/
structure KeySets (K : OAuthCrates) (jwksTtl : Nat) (s : State store)
    (hist : List (Nat × Event oauthSig)) : Prop where
  cache : ∀ (uri : String) e, s.jwks[uri]? = some e →
    ∃ v ∈ s.keyUses, v.uri = uri ∧ v.set = e.value ∧ v.at_ = e.insertedAt ∧ Load K v hist
  uses : ∀ u ∈ s.keyUses, u.at_.ns - u.loadedAt.ns ≤ jwksTtl * nanosPerSecond
    ∧ ∃ v ∈ s.keyUses, v.uri = u.uri ∧ v.set = u.set ∧ v.at_ = u.loadedAt ∧ Load K v hist
  handed : ∀ tid uri set, OAuthService.GotKeys uri set (eventsOf hist tid) →
    ∃ u ∈ s.keyUses, u.tid = tid ∧ u.uri = uri ∧ u.set = set

/-- The load behind a use stays where it is in the history. -/
theorem Load.append {v : KeyUse} {hist : List (Nat × Event oauthSig)} (h : Load K v hist)
    (later : List (Nat × Event oauthSig)) : Load K v (hist ++ later) := by
  obtain ⟨hat, before, after, hload, hevents⟩ := h
  refine ⟨hat, before, after ++ eventsOf later v.tid, hload, ?_⟩
  rw [eventsOf_append, hevents, List.append_assoc, List.cons_append]

/-- A load is one from the URI. -/
theorem Load.loaded {v : KeyUse} {hist : List (Nat × Event oauthSig)} (h : Load K v hist) :
    Loaded K v.uri v.set hist := by
  obtain ⟨-, before, after, ⟨start, resp, rfl, hset⟩, hevents⟩ := h
  refine ⟨v.tid, resp, mem_eventsOf.mp ?_, hset⟩
  rw [hevents]
  exact List.mem_append_left _ (List.mem_append_right _ List.mem_cons_self)

namespace KeySets

variable {s s' : State store} {hist : List (Nat × Event oauthSig)}

/-- Key sets can leave the cache at any time. -/
theorem evict (h : KeySets K jwksTtl s hist)
    (hjwks : ∀ (uri : String) e, s'.jwks[uri]? = some e → s.jwks[uri]? = some e)
    (huses : s'.keyUses = s.keyUses) : KeySets K jwksTtl s' hist := by
  constructor
  · intro uri e he
    rw [huses]
    exact h.cache uri e (hjwks uri e he)
  · rw [huses]
    exact h.uses
  · rw [huses]
    exact h.handed

/-- A call that hands out no key set. -/
theorem frame (h : KeySets K jwksTtl s hist) (hjwks : s'.jwks = s.jwks)
    (huses : s'.keyUses = s.keyUses) {tid : Nat} {e : Event oauthSig}
    (hget : ∀ uri set, e ≠ ⟨Op.jwksGet uri, some set⟩)
    (hins : ∀ uri set, e.op ≠ .jwksInsert uri set) :
    KeySets K jwksTtl s' (hist ++ [(tid, e)]) := by
  constructor
  · intro uri e' he
    rw [hjwks] at he
    rw [huses]
    obtain ⟨v, hv, huri, hset, hat, hload⟩ := h.cache uri e' he
    exact ⟨v, hv, huri, hset, hat, hload.append _⟩
  · rw [huses]
    intro u hu
    obtain ⟨hage, v, hv, huri, hset, hat, hload⟩ := h.uses u hu
    exact ⟨hage, v, hv, huri, hset, hat, hload.append _⟩
  · rw [huses]
    intro tid' uri set hgot
    refine h.handed tid' uri set ?_
    by_cases heq : tid = tid'
    · subst heq
      rw [eventsOf_append_self] at hgot
      rcases hgot with hmem | hmem
      · rcases List.mem_append.mp hmem with hmem | hmem
        · exact .inl hmem
        · exact absurd (List.mem_singleton.mp hmem).symm (hget uri set)
      · rcases List.mem_append.mp hmem with hmem | hmem
        · exact .inr hmem
        · exact absurd (by rw [← List.mem_singleton.mp hmem]) (hins uri set)
    · rw [eventsOf_append_ne _ _ heq] at hgot
      exact hgot

/-- A call that hands out the key set of the record `u`. -/
theorem hand (h : KeySets K jwksTtl s hist) {u : KeyUse} {e : Event oauthSig}
    (he : e = ⟨Op.jwksGet u.uri, some u.set⟩ ∨ e = ⟨Op.jwksInsert u.uri u.set, ()⟩)
    (huses : s'.keyUses = s.keyUses ++ [u])
    (hjwks : ∀ (uri : String) e', s'.jwks[uri]? = some e' → s.jwks[uri]? = some e'
      ∨ u.uri = uri ∧ u.set = e'.value ∧ u.at_ = e'.insertedAt ∧ Load K u (hist ++ [(u.tid, e)]))
    (hage : u.at_.ns - u.loadedAt.ns ≤ jwksTtl * nanosPerSecond)
    (hload : ∃ v ∈ s'.keyUses, v.uri = u.uri ∧ v.set = u.set ∧ v.at_ = u.loadedAt
      ∧ Load K v (hist ++ [(u.tid, e)])) :
    KeySets K jwksTtl s' (hist ++ [(u.tid, e)]) := by
  have hold : ∀ v ∈ s.keyUses, v ∈ s'.keyUses := by
    intro v hv
    rw [huses]
    exact List.mem_append_left _ hv
  have hnew : u ∈ s'.keyUses := by
    rw [huses]
    exact List.mem_append_right _ List.mem_cons_self
  constructor
  · intro uri e' he'
    rcases hjwks uri e' he' with he' | ⟨huri, hset, hat, hload'⟩
    · obtain ⟨v, hv, huri, hset, hat, hload'⟩ := h.cache uri e' he'
      exact ⟨v, hold v hv, huri, hset, hat, hload'.append _⟩
    · exact ⟨u, hnew, huri, hset, hat, hload'⟩
  · intro u' hu'
    rw [huses, List.mem_append, List.mem_singleton] at hu'
    rcases hu' with hu' | rfl
    · obtain ⟨hage', v, hv, huri, hset, hat, hload'⟩ := h.uses u' hu'
      exact ⟨hage', v, hold v hv, huri, hset, hat, hload'.append _⟩
    · exact ⟨hage, hload⟩
  · intro tid uri set hgot
    -- The task was handed the set before, or now, and then the record is `u`.
    have hcases : OAuthService.GotKeys uri set (eventsOf hist tid)
        ∨ u.tid = tid ∧ u.uri = uri ∧ u.set = set := by
      by_cases heq : u.tid = tid
      · subst heq
        rw [eventsOf_append_self] at hgot
        have hlast : ∀ {e' : Event oauthSig}, e' ∈ eventsOf hist u.tid ++ [e] →
            e' ∈ eventsOf hist u.tid ∨ e' = e := by
          intro e' hmem
          rw [List.mem_append, List.mem_singleton] at hmem
          exact hmem
        rcases hgot with hmem | hmem
        · rcases hlast hmem with hmem | hsame
          · exact .inl (.inl hmem)
          · rcases he with rfl | rfl
            · cases hsame
              exact .inr ⟨rfl, rfl, rfl⟩
            · cases hsame
        · rcases hlast hmem with hmem | hsame
          · exact .inl (.inr hmem)
          · rcases he with rfl | rfl
            · cases hsame
            · cases hsame
              exact .inr ⟨rfl, rfl, rfl⟩
      · rw [eventsOf_append_ne _ _ heq] at hgot
        exact .inl hgot
    rcases hcases with hgot | hu
    · obtain ⟨v, hv, hrest⟩ := h.handed tid uri set hgot
      exact ⟨v, hold v hv, hrest⟩
    · exact ⟨u, hnew, hu⟩

end KeySets

/-- Every reached state has these properties. -/
theorem key_sets (h : FlowReach svc P s₀ c) (hjwks : s₀.jwks = ∅) (huses : s₀.keyUses = []) :
    KeySets K jwksTtl c.shared c.history := by
  refine flow_invariant h ?_ ?_ ?_
  · refine ⟨?_, ?_, ?_⟩
    · rw [hjwks]
      simp
    · rw [huses]
      simp
    · intro tid uri set hgot
      rcases hgot with hmem | hmem <;> cases hmem
  · intro s hist tid o r s' req hcall heff hI
    cases heff with
    -- A hit: the entry was loaded by an earlier call, and it is not older than the lifetime.
    | keysFound uri e he hlive =>
        have hage : s.clock.ns < e.insertedAt.ns + jwksTtl * nanosPerSecond := by
          simpa [Cached.live] using hlive
        obtain ⟨v, hv, huri, hset, hat, hload⟩ := hI.cache uri e he
        refine hI.hand (u := ⟨tid, uri, e.value, e.insertedAt, s.clock⟩) (.inl rfl) rfl ?_ ?_ ?_
        · exact fun uri' e' he' => .inl he'
        · show s.clock.ns - e.insertedAt.ns ≤ _
          omega
        · exact ⟨v, List.mem_append_left _ hv, huri, hset, hat, hload.append _⟩
    -- A load: the task has just received the response that the set was read from.
    | keysCached uri set =>
        have hload : Load K ⟨tid, uri, set, s.clock, s.clock⟩
            (hist ++ [(tid, ⟨Op.jwksInsert uri set, ()⟩)]) :=
          ⟨rfl, eventsOf hist tid, [], hcall, eventsOf_append_self _ _ _⟩
        refine hI.hand (u := ⟨tid, uri, set, s.clock, s.clock⟩) (.inr rfl) rfl ?_ ?_ ?_
        · intro uri' e' he'
          simp only [State.jwksInsert] at he'
          rw [Std.ExtTreeMap.getElem?_insert] at he'
          split at he'
          · rename_i heq
            cases he'
            exact .inr ⟨Std.LawfulEqCmp.eq_of_compare heq, rfl, rfl, hload⟩
          · exact .inl he'
        · have hpos : (0 : Int) ≤ jwksTtl * nanosPerSecond :=
            Int.mul_nonneg (Int.natCast_nonneg _) (by decide)
          show s.clock.ns - s.clock.ns ≤ _
          omega
        · exact ⟨_, List.mem_append_right _ List.mem_cons_self, rfl, rfl, rfl, hload⟩
    | _ =>
        refine hI.frame ?_ ?_ (fun _ _ => nofun) (fun _ _ => nofun)
        · rfl
        · rfl
  · intro s hist s' henv hI
    exact hI.evict henv.jwks henv.keyUses

/-- Every key set that a task was handed was loaded from its URI. -/
theorem keys_loaded (h : FlowReach svc P s₀ c) (hjwks : s₀.jwks = ∅) (huses : s₀.keyUses = [])
    {tid : Nat} {uri : String} {set : JwkSet}
    (hgot : OAuthService.GotKeys uri set (eventsOf c.history tid)) :
    Loaded K uri set c.history := by
  have hkeys := key_sets h hjwks huses
  obtain ⟨u, hu, -, rfl, rfl⟩ := hkeys.handed tid uri set hgot
  obtain ⟨-, v, -, huri, hset, -, hload⟩ := hkeys.uses u hu
  have hloaded := hload.loaded
  rw [huri, hset] at hloaded
  exact hloaded

end Runs

end Tim.OAuth

/-! ### Sample runs -/

namespace Tim.OAuth.Sample

open Tim.Lib Symbolic

/-- The JSON of a discovery document, with its endpoints under the given scheme. -/
def discoveryBody (scheme : String) : Payload :=
  [("issuer", .string "https://idp.test"),
   ("authorization_endpoint", .string (scheme ++ "idp.test/authorize")),
   ("token_endpoint", .string (scheme ++ "idp.test/token")),
   ("jwks_uri", .string (scheme ++ "idp.test/jwks"))]

/-- 32 drawn bytes. -/
def random (b : UInt8) : Bytes := List.replicate 32 b

/-- The ID token of the sample login. Its nonce is the second draw of the login. -/
def idToken : Token where
  header := ⟨.rs256, some "k1"⟩
  payload := [("iss", .string "https://idp.test"), ("sub", .string "alice"),
    ("aud", .string "client"), ("exp", .number (.int 2000)), ("iat", .number (.int 1000)),
    ("nonce", .string (hexEncode (random 2)))]
  key := "idp-key"

/-- The texts that `idp.test` sends. -/
def idp : OAuthCrates := oauth [("id-token", idToken)]
  [("https-document", discoveryBody "https://"), ("http-document", discoveryBody "http://"),
   ("keys", [("keys", .array [.object [("kty", .string "RSA"), ("kid", .string "k1"),
      ("n", .string "idp-key"), ("e", .string "AQAB")]])]),
   ("tokens", [("access_token", .string "access"), ("id_token", .string "id-token"),
      ("expires_in", .number (.int 300))])]

/-- The discovery URL of `idp.test`. -/
def documentUrl : String := "https://idp.test/.well-known/openid-configuration"

/-- A provider at `idp.test`, with its `cache_ttl_seconds`. -/
def provider (cacheTtlSeconds : UInt64) : Provider where
  id := "idp"
  config := {
    name := "idp"
    discoveryUrl := documentUrl
    clientIdEnv := "IDP_ID"
    clientSecretEnv := "IDP_SECRET"
    scopes := ["openid"]
    claimMappings := ∅
    tokenValidation := ⟨60, cacheTtlSeconds⟩
    allowedRedirectUris := ["https://app.test/cb"]
    allowHttpDiscovery := false
    jwksUri := none }
  clientId := "client"
  clientSecret := "secret"

/-- A service with two providers. -/
def flow : OAuthService idp where
  providers := .ofList [("idp", provider 100), ("slow", provider 3600)]
  stateMaxAgeSeconds := 300
  sessionTtlSeconds := 3600
  publicBaseUrl := ""
  offline := false

/-- The empty state at second 1000. -/
def flowStart : State memoryStore where
  clock := instant 1000
  states := ∅
  discovery := ∅
  jwks := ∅
  sessions := memoryStore.empty
  used := []
  removed := []
  keyUses := []

abbrev SamplePool := FlowPool memoryStore 3600 3600

abbrev SampleLabel := FlowLabel memoryStore 3600 3600

/-- `idp.test` answers a request with one of its texts. -/
def answers (tid : Nat) (text : String) : SampleLabel :=
  .step tid (.response (.ok ⟨200, .ok text⟩))

/-- The login `0` is served. -/
def loginRun : List SampleLabel :=
  [.spawn (.authLogin "idp" none), .step 0 .go, answers 0 "https-document", .step 0 .go,
   .step 0 (.bytes (random 1)), .step 0 (.bytes (random 2)), .step 0 (.bytes (random 3)),
   .step 0 .go]

/-- The callback `1` of that login is served. -/
def callbackRun : List SampleLabel :=
  [.spawn (.authCallback "idp" ⟨some "code", some (hexEncode (random 1)), none, none⟩),
   .step 1 .go, .step 1 .go, .step 1 .go, answers 1 "tokens", .step 1 .go, answers 1 "keys",
   .step 1 .go, .step 1 .go, .step 1 .go, .step 1 .go,
   .step 1 (.bytes (List.replicate 24 4)), .step 1 (.nonce (Vector.replicate 12 0))]

/-- The session that an event has created. -/
def sessionOf : Event oauthSig → Option Session
  | ⟨.createSession s, .ok ()⟩ => some s
  | _ => none

/-- The event of a session is the call that has created it. -/
theorem eq_of_sessionOf {e : Event oauthSig} {s : Session} (h : sessionOf e = some s) :
    e = ⟨Op.createSession s, Except.ok ()⟩ := by
  unfold sessionOf at h
  split at h
  · cases h
    rfl
  · cases h

/-- A login, and the callback that completes it with a session. -/
theorem sample_session :
    ∃ (c : SamplePool) (session : Session), FlowReach flow Pool.Any flowStart c
      ∧ c.history[18]? = some (1, (⟨Op.createSession session, Except.ok ()⟩ : Event oauthSig)) := by
  obtain ⟨c, h, hq⟩ := Pool.exists_reach flow.program (fun _ _ => true)
    (fun c : SamplePool => (c.history[18]?).any fun e => e.1 == 1 && (sessionOf e.2).isSome)
    (Pool.init flowStart) (loginRun ++ callbackRun) (by decide +kernel)
  obtain ⟨⟨tid, e⟩, he, hcreated⟩ := (Option.any_eq_true _ _).mp hq
  simp only [Bool.and_eq_true, beq_iff_eq] at hcreated
  obtain ⟨rfl, hsome⟩ := hcreated
  obtain ⟨session, hsession⟩ := Option.isSome_iff_exists.mp hsome
  rw [eq_of_sessionOf hsession] at he
  exact ⟨c, session, h.mono fun _ _ _ => trivial, he⟩

end Tim.OAuth.Sample
