import Tim.Proofs.Revive

/-!
# `Tim.Proofs.Lifetime`: the lifetimes that a token can have

`generate` and `extend` add a number of minutes to the clock. The only guard is that the number is
positive. `Duration::minutes` panics past `i64::MAX` milliseconds, and the addition panics past the
end of the calendar. The second bound is the smaller one at every instant (`plusMinutes_isSome`).

`lifetimes_exact` says for which requests and instants neither operation panics in any store, with
the returned `expires_at` exactly that many minutes ahead: a check before the addition refuses the
request, or the sum is inside the calendar.

* `generate_lasts`, `extend_lasts`: nothing panics when it is, and `expires_at` is exact.
* `generate_panics`, `extend_panics`: where it is not, a run panics.
-/

set_option autoImplicit false

namespace Tim

open Tim.Lib Tim.Action
open Tim.Lib.Prog (ensures_ret ensures_raise ensures_op Solo Meets)
open Store

/-! ### Adding minutes -/

/-- The instant and the minutes after it are inside the calendar. -/
def Fits (now : DateTime) (minutes : Int64) : Prop :=
  now.ns + minutes.toInt * 60 * nanosPerSecond < (maxTimestamp + 1) * nanosPerSecond

/-- For positive minutes the end of the calendar is the only bound that counts. -/
theorem plusMinutes_isSome {now : DateTime} {m : Int64} (hpos : 0 < m.toInt) :
    (plusMinutes now m).isSome = true ↔ Fits now m := by
  have hlo := now.lo
  have hn : nanosPerSecond = 1000000000 := rfl
  have hmin : minTimestamp = -8334601228800 := rfl
  have hmax : maxTimestamp = 8210266876799 := rfl
  unfold Fits plusMinutes
  rw [hn, hmin] at hlo
  rw [hn, hmax]
  constructor
  · intro h
    obtain ⟨exp, hexp⟩ := Option.isSome_iff_exists.mp h
    have hns := plusMinutes_ns (m := m) hexp
    have hhi := exp.hi
    rw [hn] at hns
    rw [hn, hmax] at hhi
    omega
  · intro h
    have hd : Duration.tryMinutes m = some ⟨m.toInt * 60 * nanosPerSecond⟩ := by
      have hbound : Duration.maxSeconds = 9223372036854775 := rfl
      unfold Duration.tryMinutes Duration.trySeconds
      rw [if_pos (by omega), if_pos (by omega)]
    rw [hd, Option.bind_some]
    unfold DateTime.checkedAdd DateTime.ofNanos
    rw [dif_pos]
    · rfl
    · simp only [hn, hmin, hmax]
      omega

/-! ### The rules -/

section Rules

variable {K : Crates} {signer : JwtSigner K} {tid : Nat} {s : Store} {α : Type}
  {Q : Except Fault α → Store → Prop}

/-- One call of which only the clock is kept in mind. -/
theorem still_step {o : Op} {f : Resp K o → Action K α}
    (h : ∀ r s₁, s₁.clock = s.clock → Still signer tid (f r) s₁ Q) :
    Still signer tid (call o >>= f) s Q :=
  still_call fun r s₁ heff => h r s₁ heff.clock

end Rules

namespace JwtService

variable {K : Crates}

/-- No panic, and the expiry of a token is the given minutes after the instant. -/
def Exact (now : DateTime) (minutes : Int64) (x : Except Fault (TokenResponse K)) : Prop :=
  x ≠ .error .panic
    ∧ ∀ resp, x = .ok resp → resp.expiresAt.ns = now.ns + minutes.toInt * 60 * nanosPerSecond

/-- An error has no `expires_at` that could be wrong. -/
theorem exact_error (now : DateTime) (m : Int64) (e : TimError) :
    Exact (K := K) now m (.error (.err e)) := by
  refine ⟨fun heq => ?_, fun resp heq => ?_⟩
  · cases heq
  · cases heq

/-- A reply with the sum as its `expires_at` is exact. -/
theorem exact_ok {now exp : DateTime} {m : Int64} (h : plusMinutes now m = some exp)
    {resp : TokenResponse K} (hresp : resp.expiresAt = exp) : Exact now m (.ok resp) := by
  refine ⟨fun heq => ?_, fun resp' heq => ?_⟩
  · cases heq
  · rw [← Except.ok.inj heq, hresp, plusMinutes_ns h]

/-- Every run of the operation at the instant, in whatever store, ends as `Exact` says. -/
def Lasts (svc : JwtService K) (now : DateTime) (minutes : Int64)
    (p : Action K (TokenResponse K)) : Prop :=
  ∀ tid s, s.clock = now → Still svc.signer tid p s fun x _ => Exact now minutes x

/-- Empty tables at an instant. -/
def emptyAt (now : DateTime) : Store where
  metadata := []
  denylist := []
  txs := ∅
  clock := now
  used := []
  signed := []

variable (svc : JwtService K)

/-- A statement that fails ends in an error of the database. -/
theorem meets_sql {α β : Type} {r : Sql α} {f : α → Action K β} {ψ : Except Fault β → Prop}
    (hok : ∀ a, (f a).Meets (fun _ => True) ψ)
    (herr : ∀ e, ψ (.error (.err (.database e)))) : (sql r >>= f).Meets (fun _ => True) ψ := by
  cases r with
  | ok a => exact hok a
  | error e => exact herr e

/-! ### `generate` -/

/-- A generation does not panic, and its `expires_at` is exact, if the sum fits whenever it is
reached. -/
theorem generate_lasts {now : DateTime} {req : GenerateRequest}
    (h : ∀ aud, 0 < req.expirationInMinutes →
      ¬ svc.cfg.maxClaimsBytes < K.jsonLen req.content →
      svc.resolveAudience req.audience = .ok aud → Fits now req.expirationInMinutes) :
    svc.Lasts now req.expirationInMinutes (svc.generate req) := by
  rintro tid s rfl
  unfold generate
  split
  · exact still_fail (exact_error _ _ _)
  rename_i hpos
  split
  · exact still_fail (exact_error _ _ _)
  rename_i hsize
  split
  · exact still_fail (exact_error _ _ _)
  rename_i aud haud
  have hpos : 0 < req.expirationInMinutes := Int64.not_le.mp hpos
  have hfits := h aud hpos hsize haud
  obtain ⟨exp, hexp⟩ := Option.isSome_iff_exists.mp
    ((plusMinutes_isSome (Int64.lt_iff_toInt_lt.mp hpos)).mpr hfits)
  refine still_step fun jti s₁ h₁ => still_now ?_
  rw [h₁, addMinutes_eq, hexp]
  refine Meets.ensures (φ := fun _ => True) ⟨trivial, fun r => ?_⟩
  cases r with
  | error e => exact exact_error _ _ _
  | ok token =>
      refine ⟨trivial, fun id => ⟨trivial, fun r => ?_⟩⟩
      exact meets_sql (fun _ => exact_ok hexp rfl) fun e => exact_error _ _ _

/-- The addition of `generate` is reached, with a sum that does not fit. -/
theorem generate_panics {now : DateTime} {req : GenerateRequest} {aud : List String}
    (hpos : 0 < req.expirationInMinutes)
    (hsize : ¬ svc.cfg.maxClaimsBytes < K.jsonLen req.content)
    (haud : svc.resolveAudience req.audience = .ok aud)
    (hfits : ¬ Fits now req.expirationInMinutes) :
    ∃ s', (svc.generate req).Solo (frozen svc.signer) 0 (emptyAt now) (.error .panic) s' := by
  have hnone : plusMinutes now req.expirationInMinutes = none := by
    rw [← plusMinutes_isSome (Int64.lt_iff_toInt_lt.mp hpos)] at hfits
    exact Option.not_isSome_iff_eq_none.mp hfits
  refine ⟨{ emptyAt now with used := [⟨0⟩] }, ?_⟩
  unfold generate
  rw [if_neg (Int64.not_le.mpr hpos), if_neg hsize, haud]
  refine solo_call (.uuid ⟨0⟩) rfl (solo_call .go rfl ?_)
  show Solo _ _ (addMinutes now req.expirationInMinutes >>= _) _ _ _
  rw [addMinutes_eq, hnone]
  exact ⟨rfl, rfl⟩

/-! ### `extend` -/

/-- The token gets past the checks of `extend` that read no table. -/
def Extendable (now : DateTime) (token : K.Token) : Prop :=
  ∃ claims jti, svc.signer.verify now StandardClaims.deserialize token permissiveValidation
      = .ok claims ∧ ¬ claims.exp < now.timestamp ∧ K.parseUuid claims.jti = some jti

/-- The transaction of `extend` never panics. -/
theorem extendTx_noPanic (old claims : StandardClaims) (anc : Ancestor) (oldJti newJti : Uuid)
    (now newExp : DateTime) :
    (svc.extendTx old claims anc oldJti newJti now newExp).Meets (fun _ => True)
      fun x => x ≠ .error .panic := by
  unfold extendTx
  refine ⟨trivial, fun id => ⟨trivial, fun r => meets_sql (fun _ => ?_) fun e => nofun⟩⟩
  cases DateTime.fromTimestamp old.exp with
  | none => exact nofun
  | some oldExp => exact ⟨trivial, fun r => meets_sql (fun _ => nofun) fun e => nofun⟩

/-- Dropping the transaction keeps the fault. -/
theorem orRollback_noPanic {α : Type} {p : Action K α}
    (h : p.Meets (fun _ => True) fun x => x ≠ .error .panic) :
    (orRollback p).Meets (fun _ => True) fun x => x ≠ .error .panic := by
  refine h.handle fun x hx => ?_
  cases x with
  | ok a => exact nofun
  | error e =>
      refine ⟨trivial, fun _ heq => hx ?_⟩
      rw [Except.error.inj heq]

/-- The same for an extension. -/
theorem extend_lasts {now : DateTime} {req : ExtendRequest K}
    (h : svc.Extendable now req.token → 0 < req.expirationInMinutes.getD 60 →
      Fits now (req.expirationInMinutes.getD 60)) :
    svc.Lasts now (req.expirationInMinutes.getD 60) (svc.extend req) := by
  rintro tid s rfl
  unfold extend
  refine still_now ?_
  split
  · exact still_fail (exact_error _ _ _)
  rename_i old hold
  refine still_now ?_
  split
  · exact still_fail (exact_error _ _ _)
  rename_i halive
  split
  · exact still_fail (exact_error _ _ _)
  rename_i oldJti hjti
  have hextendable : svc.Extendable s.clock req.token := ⟨old, oldJti, hold, halive, hjti⟩
  -- No call after this one reads the clock.
  refine Meets.ensures (φ := fun _ => True) ⟨trivial, fun r => meets_sql (fun denied => ?_) fun e =>
    exact_error _ _ _⟩
  show Meets _ _ (ite _ _ _)
  split
  · exact exact_error _ _ _
  refine ⟨trivial, fun r => meets_sql (fun row => ?_) fun e => exact_error _ _ _⟩
  show Meets _ _ (ite _ _ _)
  split
  · exact exact_error _ _ _
  rename_i hpos
  have hpos : 0 < req.expirationInMinutes.getD 60 := Int64.not_le.mp hpos
  obtain ⟨exp, hexp⟩ := Option.isSome_iff_exists.mp
    ((plusMinutes_isSome (Int64.lt_iff_toInt_lt.mp hpos)).mpr (h hextendable hpos))
  rw [addMinutes_eq, hexp]
  refine ⟨trivial, fun newJti => ⟨trivial, fun r => ?_⟩⟩
  cases r with
  | error e => exact exact_error _ _ _
  | ok token =>
      refine ⟨trivial, fun r => meets_sql (fun _ => ?_) fun e => exact_error _ _ _⟩
      refine (orRollback_noPanic (svc.extendTx_noPanic old _ _ oldJti newJti s.clock exp)).bind
        (fun _ _ => ?_) fun e he => ?_
      · exact ⟨trivial, fun r => meets_sql (fun _ => exact_ok hexp rfl) fun e =>
          exact_error _ _ _⟩
      · cases e with
        | panic => exact absurd rfl he
        | err e => exact exact_error _ _ _

/-- The addition of `extend` is reached, with a sum that does not fit. -/
theorem extend_panics {now : DateTime} {req : ExtendRequest K}
    (hextendable : svc.Extendable now req.token) (hpos : 0 < req.expirationInMinutes.getD 60)
    (hfits : ¬ Fits now (req.expirationInMinutes.getD 60)) :
    (svc.extend req).Solo (frozen svc.signer) 0 (emptyAt now) (.error .panic) (emptyAt now) := by
  have hnone : plusMinutes now (req.expirationInMinutes.getD 60) = none := by
    rw [← plusMinutes_isSome (Int64.lt_iff_toInt_lt.mp hpos)] at hfits
    exact Option.not_isSome_iff_eq_none.mp hfits
  obtain ⟨claims, jti, hverified, halive, hparsed⟩ := hextendable
  unfold extend
  refine solo_call .go rfl ?_
  simp only [show (emptyAt now).clock = now from rfl, hverified]
  refine solo_call .go rfl ?_
  simp only [show (emptyAt now).clock = now from rfl, halive, ↓reduceIte, hparsed]
  refine solo_call .go (r := .ok false) (t := emptyAt now) rfl ?_
  refine solo_call .go (t := emptyAt now) rfl (solo_sql ?_)
  rw [if_neg (Int64.not_le.mpr hpos), addMinutes_eq, hnone]
  exact ⟨rfl, rfl⟩

/-! ### Both -/

/-- At an instant, neither operation panics in any store, and an `expires_at` it returns is exactly
the minutes ahead, if and only if the operation refuses the request before the addition, or the
sum is inside the calendar. -/
theorem lifetimes_exact (now : DateTime) :
    (∀ req, svc.Lasts now req.expirationInMinutes (svc.generate req)
        ↔ req.expirationInMinutes ≤ 0 ∨ svc.cfg.maxClaimsBytes < K.jsonLen req.content
          ∨ (∃ e, svc.resolveAudience req.audience = .error e)
          ∨ Fits now req.expirationInMinutes)
      ∧ ∀ req, svc.Lasts now (req.expirationInMinutes.getD 60) (svc.extend req)
        ↔ ¬ svc.Extendable now req.token ∨ req.expirationInMinutes.getD 60 ≤ 0
          ∨ Fits now (req.expirationInMinutes.getD 60) := by
  constructor
  · intro req
    constructor
    · intro h
      by_contra hcond
      simp only [not_or, not_exists] at hcond
      obtain ⟨hpos, hsize, haud, hfits⟩ := hcond
      cases hres : svc.resolveAudience req.audience with
      | error e => exact haud e hres
      | ok aud =>
          obtain ⟨s', hrun⟩ := svc.generate_panics (Int64.not_le.mp hpos) hsize hres hfits
          exact (h 0 (emptyAt now) rfl _ _ hrun).1 rfl
    · intro hcond
      refine svc.generate_lasts fun aud hpos hsize haud => ?_
      rcases hcond with hle | hlarge | ⟨e, he⟩ | hfits
      · exact absurd hle (Int64.not_le.mpr hpos)
      · exact absurd hlarge hsize
      -- The audience was resolved, so this exit is not the one taken.
      · rw [haud] at he
        cases he
      · exact hfits
  · intro req
    constructor
    · intro h
      by_contra hcond
      simp only [not_or, not_not] at hcond
      obtain ⟨hextendable, hpos, hfits⟩ := hcond
      have hrun := svc.extend_panics hextendable (Int64.not_le.mp hpos) hfits
      exact (h 0 (emptyAt now) rfl _ _ hrun).1 rfl
    · intro hcond
      refine svc.extend_lasts fun hextendable hpos => ?_
      rcases hcond with hnot | hle | hfits
      · exact absurd hextendable hnot
      · exact absurd hle (Int64.not_le.mpr hpos)
      · exact hfits

end JwtService

/-- The result is a panic. -/
def panics {α : Type} : Except Fault α → Bool
  | .error .panic => true
  | _ => false

/-- The test of a panic. -/
theorem eq_panic {α : Type} {x : Except Fault α} (h : panics x = true) : x = .error .panic := by
  unfold panics at h
  split at h
  · rfl
  · cases h

open Symbolic in
/-- A request for `i64::MAX` minutes crashes the sample service. -/
theorem generate_crashes :
    ∃ s', (service.generate { request with expirationInMinutes := Int64.maxValue }).Solo
      (frozen service.signer) 0 store (.error .panic) s' := by
  obtain ⟨x, s', hrun, htest⟩ := exists_frozen service.signer
    (service.generate { request with expirationInMinutes := Int64.maxValue }) 0 store
    (fun x _ => panics x) [.uuid ⟨1⟩, .go] (by decide +kernel)
  rw [eq_panic htest] at hrun
  exact ⟨s', hrun⟩

end Tim
