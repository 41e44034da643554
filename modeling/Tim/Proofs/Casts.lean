import Tim.Proofs.Login

/-!
# `Tim.Proofs.Casts`: settings that are cast to a signed type

Two settings of the OAuth2 flow are `u64` in the configuration and signed where they are used.

* `session_ttl_seconds as i64` caps the lifetime of a session, which is then added to the clock. A
  session gets the capped lifetime exactly when the sum is a `DateTime` and the cast has not made
  the cap negative (`lifetimeKept_iff`).
* `state_max_age_seconds as i32` is the age that the `DELETE` of a callback and that of the sweeper
  compare with. Both honour the setting for all rows but those with an age between the cast and the
  setting (`ageHonoured_iff`).
* `expiry_eq`: the expiry of a session as the code computes it.
* `accepts_iff`, `sweeps_iff`: the two comparisons with the age of a row.
* `long_cap_ends_sessions`, `long_limit_refuses_fresh`: settings above the range of the casts.
-/

set_option autoImplicit false

namespace Tim.OAuth

open Tim.Lib Tim.Lib.Prog

variable {K : OAuthCrates}

namespace OAuthService

/-! ### The lifetime of a session -/

/-- The lifetime that a session should get, in seconds: what the provider says, at most the cap and
at least one. -/
def lifetime (ttl : UInt64) (expiresIn : Option Int64) : Int :=
  max 1 (min ((expiresIn.map Int64.toInt).getD ttl.toNat) ttl.toNat)

/-- When the clock reads `now`, the callback does not panic over the expiry, and the session that
it creates has the lifetime. -/
def LifetimeKept (svc : OAuthService K) (providerId : String) (provider : Provider)
    (tokens : TokenResponse) (claims : IdTokenClaims) (now : DateTime) : Prop :=
  (svc.openSession providerId provider tokens claims).Spec (S := oauthSig)
    (fun h o => ⟨Op.now, now⟩ ∈ h → ∀ session, o = .createSession session →
      session.expiresAt.ns - session.createdAt.ns
        = lifetime svc.sessionTtlSeconds tokens.expiresIn * nanosPerSecond)
    (fun h x => ⟨Op.now, now⟩ ∈ h → x ≠ .error .panic) []

/-- The lifetime ends at an instant that `DateTime` has, and a cap of 2^63 seconds or more is not
needed. -/
def LifetimeFits (ttl : UInt64) (expiresIn : Option Int64) (now : DateTime) : Prop :=
  now.ns + lifetime ttl expiresIn * nanosPerSecond < (maxTimestamp + 1) * nanosPerSecond
  ∧ (2 ^ 63 ≤ ttl.toNat → ∃ e, expiresIn = some e ∧ e.toInt ≤ 1)

/-- A `u64` as an `i64`: from 2^63 on it is negative. -/
theorem toInt64_toInt (n : UInt64) : n.toInt64.toInt
    = if n.toNat < 2 ^ 63 then (n.toNat : Int) else (n.toNat : Int) - 2 ^ 64 := by
  have hcast : n.toInt64.toInt = (n.toNat : Int).bmod (2 ^ 64) := BitVec.toInt_eq_toNat_bmod _
  have hlt := n.toNat_lt
  -- `bmod` cuts at half of the modulus, which is where the cast turns negative.
  rw [hcast, Int.bmod_def]
  split <;> split <;> omega

/-- What the code computes: the lifetime, or one second when the cast cap is negative. -/
theorem effectiveSeconds_toInt (svc : OAuthService K) (expiresIn : Option Int64) :
    (svc.effectiveSeconds expiresIn).toInt
      = if svc.sessionTtlSeconds.toNat < 2 ^ 63 then lifetime svc.sessionTtlSeconds expiresIn
        else 1 := by
  have hcap := toInt64_toInt svc.sessionTtlSeconds
  -- `max` and `min` of `Int64` are by its order, which is that of the integers.
  have hmax : ∀ a b : Int64, (max a b).toInt = max a.toInt b.toInt := by
    intro a b
    show (if a ≤ b then b else a).toInt = _
    split
    · rename_i h
      rw [Int64.le_iff_toInt_le] at h
      omega
    · rename_i h
      rw [Int64.le_iff_toInt_le] at h
      omega
  have hmin : ∀ a b : Int64, (min a b).toInt = min a.toInt b.toInt := by
    intro a b
    show (if a ≤ b then a else b).toInt = _
    split
    · rename_i h
      rw [Int64.le_iff_toInt_le] at h
      omega
    · rename_i h
      rw [Int64.le_iff_toInt_le] at h
      omega
  have hone : (1 : Int64).toInt = 1 := rfl
  have hlt := svc.sessionTtlSeconds.toNat_lt
  unfold effectiveSeconds lifetime
  dsimp only
  rw [hmax, hmin, hone]
  cases expiresIn with
  | none =>
      -- Without `expires_in` the cap stands on both sides.
      simp only [Option.getD_none, Option.map_none]
      split at hcap <;> rename_i h <;> simp only [h, if_true, if_false] <;> omega
  | some e =>
      simp only [Option.getD_some, Option.map_some]
      split at hcap <;> rename_i h <;> simp only [h, if_true, if_false] <;> omega

/-- A `Duration` holds every positive distance between two instants, so the sum decides. -/
theorem expiry_eq {secs : Int} (hpos : 1 ≤ secs) (now : DateTime) :
    (Duration.trySeconds secs).bind now.checkedAdd
      = DateTime.ofNanos (now.ns + secs * nanosPerSecond) := by
  unfold Duration.trySeconds
  split
  · rfl
  · rename_i hrange
    have hlo := now.lo
    have hmin : minTimestamp * nanosPerSecond = -8334601228800000000000 := rfl
    have hmax : (maxTimestamp + 1) * nanosPerSecond = 8210266876800000000000 := rfl
    have hnanos : nanosPerSecond = 1000000000 := rfl
    have hbound : Duration.maxSeconds = 9223372036854775 := rfl
    -- A duration that is out of range leaves the calendar as well.
    have hlate : ¬ (minTimestamp * nanosPerSecond ≤ now.ns + secs * nanosPerSecond
        ∧ now.ns + secs * nanosPerSecond < (maxTimestamp + 1) * nanosPerSecond) := by
      rw [hmin] at hlo ⊢
      rw [hmax, hnanos]
      omega
    rw [DateTime.ofNanos, dif_neg hlate]
    rfl

/-- A positive number of seconds ahead is inside the calendar exactly when it does not pass its end.
Its start is no bound here. -/
theorem ofNanos_isSome {now : DateTime} {secs : Int} (hpos : 1 ≤ secs) :
    (DateTime.ofNanos (now.ns + secs * nanosPerSecond)).isSome
      ↔ now.ns + secs * nanosPerSecond < (maxTimestamp + 1) * nanosPerSecond := by
  have hlo := now.lo
  have hnanos : nanosPerSecond = 1000000000 := rfl
  unfold DateTime.ofNanos
  split
  · rename_i h
    simp [h.2]
  · rename_i h
    simp only [Option.isSome_none, Bool.false_eq_true, false_iff]
    exact fun hlt => h ⟨by rw [hnanos] at hlo ⊢; omega, hlt⟩

variable {svc : OAuthService K} {providerId : String} {provider : Provider}
  {tokens : TokenResponse} {claims : IdTokenClaims} {now : DateTime}

/-- A session lasts at least one second, the smallest lifetime that the code takes. -/
theorem one_le_lifetime (ttl : UInt64) (expiresIn : Option Int64) : 1 ≤ lifetime ttl expiresIn :=
  Int.le_max_left ..

/-- So does the lifetime that the code computes with. -/
theorem one_le_effectiveSeconds (svc : OAuthService K) (expiresIn : Option Int64) :
    1 ≤ (svc.effectiveSeconds expiresIn).toInt := by
  rw [effectiveSeconds_toInt]
  split
  · exact one_le_lifetime ..
  · exact Int.le_refl 1

/-- The end of the callback, after the clock was read. -/
theorem lifetimeKept_eq : svc.LifetimeKept providerId provider tokens claims now
    ↔ ∃ expiresAt, DateTime.ofNanos (now.ns
        + (svc.effectiveSeconds tokens.expiresIn).toInt * nanosPerSecond) = some expiresAt
      ∧ expiresAt.ns - now.ns
        = lifetime svc.sessionTtlSeconds tokens.expiresIn * nanosPerSecond := by
  rw [← expiry_eq (one_le_effectiveSeconds ..)]
  unfold LifetimeKept
  rw [openSession_eq]
  constructor
  · rintro ⟨-, hspec⟩
    have hrest := hspec now
    dsimp only at hrest
    split at hrest
    · exact absurd rfl (hrest (by simp))
    · rename_i expiresAt hexp
      obtain ⟨-, hdraw⟩ := hrest
      obtain ⟨hcreate, -⟩ := hdraw []
      exact ⟨expiresAt, hexp, hcreate (by simp) _ rfl⟩
  · rintro ⟨expiresAt, hexp, hlasts⟩
    refine ⟨fun h => absurd h List.not_mem_nil, fun now' => ?_⟩
    by_cases hnow : now' = now
    · subst hnow
      dsimp only
      rw [hexp]
      refine ⟨fun _ session hsession => (by cases hsession),
        fun bytes => ⟨fun _ session hsession => ?_, fun r => ?_⟩⟩
      · cases hsession
        exact hlasts
      · cases r with
        | error e => exact fun _ hpanic => by cases hpanic
        | ok _ => exact fun _ hpanic => by cases hpanic
    · -- The clock reads something else, and nothing is asked.
      have hread : ∀ l : List (Event oauthSig), (∀ e ∈ l, e.op ≠ Op.now) →
          (⟨Op.now, now⟩ : Event oauthSig) ∉ [⟨Op.now, now'⟩] ++ l := by
        intro l hl hmem
        rcases List.mem_append.mp hmem with hmem | hmem
        · cases List.mem_singleton.mp hmem
          exact hnow rfl
        · exact hl _ hmem rfl
      have hfirst := hread [] (by simp)
      dsimp only
      split
      · exact fun hmem => absurd hmem hfirst
      · refine ⟨fun hmem => absurd hmem hfirst, fun bytes => ⟨fun hmem => ?_, fun r => ?_⟩⟩
        · refine absurd hmem (hread [⟨.fillBytes 24, bytes⟩] fun e he => ?_)
          cases List.mem_singleton.mp he
          exact Op.noConfusion
        · have hno := hread [⟨.fillBytes 24, bytes⟩, ⟨.createSession _, r⟩] fun e he => by
            rcases List.mem_pair.mp he with rfl | rfl
            · exact Op.noConfusion
            · exact Op.noConfusion
          cases r with
          | error e => exact fun hmem => absurd hmem hno
          | ok _ => exact fun hmem => absurd hmem hno

/-- An instant of so many nanoseconds has that many. -/
theorem ofNanos_ns {ns : Int} {t : DateTime} (h : DateTime.ofNanos ns = some t) : t.ns = ns := by
  unfold DateTime.ofNanos at h
  split at h
  · cases h
    rfl
  · cases h

/-- The code computes the lifetime, unless the cast has made the cap negative. -/
theorem effectiveSeconds_eq_iff (svc : OAuthService K) (expiresIn : Option Int64) :
    (svc.effectiveSeconds expiresIn).toInt = lifetime svc.sessionTtlSeconds expiresIn
      ↔ (2 ^ 63 ≤ svc.sessionTtlSeconds.toNat → ∃ e, expiresIn = some e ∧ e.toInt ≤ 1) := by
  rw [effectiveSeconds_toInt]
  split
  · rename_i hsmall
    exact iff_of_true rfl fun h => absurd hsmall (Nat.not_lt.mpr h)
  · rename_i hlarge
    have hcap : 2 ^ 63 ≤ svc.sessionTtlSeconds.toNat := Nat.le_of_not_lt hlarge
    unfold lifetime
    cases expiresIn with
    | none =>
        simp only [Option.map_none, Option.getD_none]
        -- The lifetime would be the cap of 2^63 seconds, the code takes one second.
        refine iff_of_false (by omega) fun h => ?_
        obtain ⟨e, he, -⟩ := h hcap
        cases he
    | some e =>
        simp only [Option.map_some, Option.getD_some, Option.some.injEq]
        constructor
        -- One second is right exactly when the provider does not ask for more.
        · exact fun h _ => ⟨e, rfl, by omega⟩
        · intro h
          obtain ⟨e', rfl, he⟩ := h hcap
          omega

/-- A lifetime that is kept is one that fits. The other direction is the calculation above. -/
theorem LifetimeKept.fits (h : svc.LifetimeKept providerId provider tokens claims now) :
    LifetimeFits svc.sessionTtlSeconds tokens.expiresIn now := by
  obtain ⟨expiresAt, hexp, hlasts⟩ := lifetimeKept_eq.mp h
  have hsame : (svc.effectiveSeconds tokens.expiresIn).toInt
      = lifetime svc.sessionTtlSeconds tokens.expiresIn := by
    -- The distance to the expiry is what the code has added.
    rw [ofNanos_ns hexp] at hlasts
    have hnanos : nanosPerSecond = 1000000000 := rfl
    rw [hnanos] at hlasts
    omega
  refine ⟨?_, (effectiveSeconds_eq_iff svc tokens.expiresIn).mp hsame⟩
  rw [← hsame, ← ofNanos_isSome (one_le_effectiveSeconds ..), hexp]
  rfl

/-- Opening a session keeps the capped lifetime and does not panic over it, exactly when the
lifetime fits. -/
theorem lifetimeKept_iff (svc : OAuthService K) (providerId : String) (provider : Provider)
    (tokens : TokenResponse) (claims : IdTokenClaims) (now : DateTime) :
    svc.LifetimeKept providerId provider tokens claims now
      ↔ LifetimeFits svc.sessionTtlSeconds tokens.expiresIn now := by
  refine ⟨LifetimeKept.fits, fun ⟨hrange, hcap⟩ => lifetimeKept_eq.mpr ?_⟩
  rw [(effectiveSeconds_eq_iff svc tokens.expiresIn).mpr hcap]
  obtain ⟨expiresAt, hexp⟩ :=
    Option.isSome_iff_exists.mp ((ofNanos_isSome (one_le_lifetime ..)).mpr hrange)
  refine ⟨expiresAt, hexp, ?_⟩
  rw [ofNanos_ns hexp]
  omega

/-! ### The age of a state row -/

/-- The row is in the table, with keys that the database can hold. -/
structure Stored {store : SessionStore} (s : State store) (state : String) (row : StateRow) :
    Prop where
  found : s.states[state]? = some row
  state_text : isText state = true
  provider_text : isText row.providerId = true

/-- The `DELETE` of a callback takes the row. -/
def Accepts {store : SessionStore} (svc : OAuthService K) (s : State store) (tid : Nat)
    (state : String) (row : StateRow) : Prop :=
  ∃ returned, (s.deleteState tid state row.providerId svc.maxAge).1 = .ok (some returned)

/-- The sweeper deletes the row. -/
def Sweeps {store : SessionStore} (svc : OAuthService K) (s : State store) (tid : Nat)
    (state : String) : Prop :=
  (s.sweepState tid svc.maxAge).2.states[state]? = none

/-- The age of a row by the clock of the database, in nanoseconds. -/
def age {store : SessionStore} (s : State store) (row : StateRow) : Int :=
  s.clock.toTimestamptz.ns - row.createdAt.ns

/-- The row is accepted while it is younger than the setting, swept once it is older, and never
both. -/
structure AgeHonoured {store : SessionStore} (svc : OAuthService K) (s : State store) (tid : Nat)
    (state : String) (row : StateRow) : Prop where
  accepts : svc.Accepts s tid state row
    ↔ age s row < svc.stateMaxAgeSeconds.toNat * nanosPerSecond
  sweeps : svc.Sweeps s tid state
    ↔ svc.stateMaxAgeSeconds.toNat * nanosPerSecond < age s row
  apart : ¬ (svc.Accepts s tid state row ∧ svc.Sweeps s tid state)

variable {store : SessionStore} {s : State store} {tid : Nat} {state : String} {row : StateRow}

/-- A stored row is accepted exactly while it is younger than the cast limit. -/
theorem accepts_iff (h : Stored s state row) :
    svc.Accepts s tid state row ↔ age s row < svc.maxAge.toInt * nanosPerSecond := by
  have hyoung : row.youngerThan svc.maxAge s.clock = true
      ↔ age s row < svc.maxAge.toInt * nanosPerSecond := by
    unfold StateRow.youngerThan age
    rw [decide_eq_true_iff]
    omega
  unfold Accepts State.deleteState
  rw [h.found, h.state_text, h.provider_text, ← hyoung]
  cases hy : row.youngerThan svc.maxAge s.clock with
  | false => simp [Option.filter, hy]
  | true => simp [Option.filter, hy]

/-- A stored row is swept exactly when it is older than the cast limit. -/
theorem sweeps_iff (h : Stored s state row) :
    svc.Sweeps s tid state ↔ svc.maxAge.toInt * nanosPerSecond < age s row := by
  have hold : row.olderThan svc.maxAge s.clock = true
      ↔ svc.maxAge.toInt * nanosPerSecond < age s row := by
    unfold StateRow.olderThan age
    rw [decide_eq_true_iff]
    omega
  unfold Sweeps State.sweepState
  rw [← hold]
  cases ho : row.olderThan svc.maxAge s.clock with
  | false => simp [Std.ExtTreeMap.getElem?_filter, h.found, ho]
  | true => simp [Std.ExtTreeMap.getElem?_filter, h.found, ho]

/-- The setting as the statements see it is the setting, or below it. -/
theorem maxAge_eq_or_lt (svc : OAuthService K) :
    svc.stateMaxAgeSeconds.toNat < 2 ^ 31 ∧ svc.maxAge.toInt = svc.stateMaxAgeSeconds.toNat
      ∨ 2 ^ 31 ≤ svc.stateMaxAgeSeconds.toNat
        ∧ svc.maxAge.toInt < svc.stateMaxAgeSeconds.toNat := by
  rw [maxAge_toInt, Int.bmod_def]
  split <;> omega

/-- The rows about which the cast does not matter. -/
def AgeClear (svc : OAuthService K) (s : State store) (row : StateRow) : Prop :=
  svc.stateMaxAgeSeconds.toNat < 2 ^ 31
  ∨ age s row < (svc.stateMaxAgeSeconds.toNat : Int).bmod (2 ^ 32) * nanosPerSecond
  ∨ svc.stateMaxAgeSeconds.toNat * nanosPerSecond < age s row

/-- Where the limit is honoured, the row is on the same side of the setting and of its cast. -/
theorem AgeHonoured.clear (hstored : Stored s state row) (h : svc.AgeHonoured s tid state row) :
    svc.AgeClear s row := by
  have haccepts := h.accepts
  have hsweeps := h.sweeps
  rw [accepts_iff hstored] at haccepts
  rw [sweeps_iff hstored] at hsweeps
  unfold AgeClear
  rw [← maxAge_toInt]
  simp only [nanosPerSecond] at haccepts hsweeps ⊢
  rcases maxAge_eq_or_lt svc with ⟨hsmall, -⟩ | ⟨-, hlt⟩
  -- At the ages in between the `DELETE` refuses a row that is below the setting.
  · exact .inl hsmall
  · omega

/-- The two statements honour the age limit for exactly the rows that the cast does not matter
about: all rows, if the setting is below 2^31. -/
theorem ageHonoured_iff (svc : OAuthService K) (tid : Nat) (h : Stored s state row) :
    svc.AgeHonoured s tid state row ↔ svc.AgeClear s row := by
  refine ⟨AgeHonoured.clear h, fun hclear => ?_⟩
  unfold AgeClear at hclear
  rw [← maxAge_toInt] at hclear
  have hcast := maxAge_eq_or_lt svc
  simp only [nanosPerSecond] at hclear
  constructor
  · rw [accepts_iff h]
    simp only [nanosPerSecond]
    omega
  · rw [sweeps_iff h]
    simp only [nanosPerSecond]
    omega
  · rw [accepts_iff h, sweeps_iff h]
    omega

end OAuthService

/-! ### Sample settings -/

namespace Sample

open Symbolic

/-- The claims of the sample token. -/
def sampleClaims : IdTokenClaims where
  iss := "https://idp.test"
  sub := "alice"
  aud := .single "client"
  exp := 2000
  nbf := none
  iat := 1000
  nonce := none
  extra := ∅

/-- A cap of 2^63 seconds, which `as i64` makes negative. -/
def longSessions : OAuthService idp := { flow with sessionTtlSeconds := 9223372036854775808 }

/-- An age limit of 2^31 seconds, which `as i32` makes negative. -/
def longStates : OAuthService idp := { flow with stateMaxAgeSeconds := 2147483648 }

def sampleRow : StateRow := ⟨⟨"state", "idp", "nonce", none, none⟩, instant 1000⟩

/-- A row that was just inserted. -/
def fresh : State memoryStore := { flowStart with states := .ofList [("state", sampleRow)] }

/-- The sample row is stored, and nobody holds it. -/
theorem fresh_stored : OAuthService.Stored fresh "state" sampleRow where
  found := by
    show (Std.ExtTreeMap.ofList [("state", sampleRow)] : Std.ExtTreeMap String StateRow)["state"]?
      = _
    simp [Std.ExtTreeMap.ofList_singleton]
  state_text := by decide
  provider_text := by decide

end Sample

open Sample Symbolic OAuthService in
/-- The provider allows an hour and the cap is above that, but the session lasts one second. -/
theorem long_cap_ends_sessions :
    ¬ longSessions.LifetimeKept "idp" (provider 100) ⟨"access", some "id-token", some 3600⟩
      sampleClaims (instant 1000) := by
  intro h
  obtain ⟨e, he, hle⟩ := h.fits.2 (by decide)
  cases he
  exact absurd hle (by decide)

open Sample OAuthService in
/-- A row below the age limit, on a service with the usual setting. -/
theorem ageHonoured_iff_fresh :
    Stored fresh "state" sampleRow ∧ flow.AgeHonoured fresh 0 "state" sampleRow :=
  ⟨fresh_stored, (ageHonoured_iff flow 0 fresh_stored).mpr (.inl (by decide))⟩

open Sample OAuthService in
/-- With an age limit of 2^31 seconds, a row that was just inserted is not honoured. -/
theorem long_limit_refuses_fresh :
    Stored fresh "state" sampleRow ∧ ¬ longStates.AgeHonoured fresh 0 "state" sampleRow := by
  refine ⟨fresh_stored, fun h => ?_⟩
  rcases h.clear fresh_stored with hsmall | hyoung | hold
  · exact absurd hsmall (by decide)
  · exact absurd hyoung (by decide)
  · exact absurd hold (by decide)

end Tim.OAuth
