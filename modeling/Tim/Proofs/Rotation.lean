import Tim.Proofs.Doctor
import Tim.Proofs.Signer

/-!
# `Tim.Proofs.Rotation`: what the diagnostics say about the previous key

The doctor and the boot log count the days up to `retires_at`, rounded towards zero. The signer
compares the two instants. `diagnosticsAgree_iff` says at which instants they agree. They do not on
the first day after the retirement, which counts as zero days and is reported as still ahead, and in
the last day before the warning is due, which is rounded down into the window.

* `row_retired_iff`, `line_retired_iff`: when the two diagnostics call the key retired.
* `row_warn_iff`, `line_warn_iff`: when they warn.
* `inactive_iff`: when the signer has retired it.
-/

set_option autoImplicit false

namespace Tim.Boot

open Tim.OAuth Tim.Web Doctor

/-! ### Days -/

/-- Nanoseconds in a day. -/
def nanosPerDay : Int := 86400 * nanosPerSecond

/-- The time left up to the retirement, in nanoseconds. -/
def timeLeft (now : DateTime) (prev : PreviousKeyConfig) : Int := prev.retiresAt.ns - now.ns

/-- Time that is left is counted in days begun and ended. -/
theorem numDays_of_nonneg {now : DateTime} {prev : PreviousKeyConfig} (h : 0 ≤ timeLeft now prev) :
    numDays now prev.retiresAt = timeLeft now prev / 86400000000000 := by
  show ((timeLeft now prev).tdiv 1000000000).tdiv 86400 = _
  have hsecs : (timeLeft now prev).tdiv 1000000000 = timeLeft now prev / 1000000000 :=
    Int.tdiv_eq_ediv_of_nonneg h
  rw [hsecs, Int.tdiv_eq_ediv_of_nonneg (by omega)]
  omega

/-- Time that has passed is counted in the same way, with the sign in front. -/
theorem numDays_of_neg {now : DateTime} {prev : PreviousKeyConfig} (h : timeLeft now prev < 0) :
    numDays now prev.retiresAt = -(-timeLeft now prev / 86400000000000) := by
  show ((timeLeft now prev).tdiv 1000000000).tdiv 86400 = _
  have hsecs : (timeLeft now prev).tdiv 1000000000 = -(-timeLeft now prev / 1000000000) := by
    have hneg := Int.neg_tdiv (-timeLeft now prev) 1000000000
    rw [Int.neg_neg] at hneg
    rw [hneg, Int.tdiv_eq_ediv_of_nonneg (by omega)]
  rw [hsecs, Int.neg_tdiv, Int.tdiv_eq_ediv_of_nonneg (by omega)]
  omega

/-- Less than no day is left from one day after the retirement on. -/
theorem numDays_neg_iff {now : DateTime} {prev : PreviousKeyConfig} :
    numDays now prev.retiresAt < 0 ↔ timeLeft now prev ≤ -nanosPerDay := by
  have hday : nanosPerDay = 86400000000000 := rfl
  rw [hday]
  by_cases h : 0 ≤ timeLeft now prev
  · rw [numDays_of_nonneg h]
    omega
  · rw [numDays_of_neg (by omega)]
    omega

/-- The time that is left fits into the day counter of the warning. -/
theorem timeLeft_lt (now : DateTime) (prev : PreviousKeyConfig) :
    timeLeft now prev < 86400000000000 * 2 ^ 32 := by
  have hhi := prev.retiresAt.hi
  have hlo := now.lo
  unfold minTimestamp nanosPerSecond at hlo
  unfold maxTimestamp nanosPerSecond at hhi
  unfold timeLeft
  omega

/-- The count of days fits an unsigned integer of 32 bits, so the cast keeps it. It is within the
window until one day more than its length is left. -/
theorem ofInt_numDays_le {now : DateTime} {prev : PreviousKeyConfig} {w : UInt32}
    (h : 0 ≤ timeLeft now prev) :
    UInt32.ofInt (numDays now prev.retiresAt) ≤ w
      ↔ timeLeft now prev < (w.toNat + 1) * nanosPerDay := by
  have hday : nanosPerDay = 86400000000000 := rfl
  have hlt := timeLeft_lt now prev
  rw [hday, numDays_of_nonneg h, UInt32.le_iff_toNat_le]
  show (UInt32.ofNat (timeLeft now prev / 86400000000000 % 2 ^ 32).toNat).toNat ≤ w.toNat ↔ _
  rw [UInt32.toNat_ofNat']
  omega

/-! ### What the diagnostics report -/

/-- The row of the doctor says that the key is retired. -/
def Doctor.Check.ReportsRetired (row : Check) (prev : PreviousKeyConfig) : Prop :=
  row.severity = .warn ∧ ∃ rest, row.message = "kid=" ++ prev.keyId ++ " retired " ++ rest

/-- The line of the boot log says that the key is retired. -/
def LogLine.ReportsRetired (line : LogLine) : Prop :=
  line.level = .warn ∧ ∃ rest, line.message = "previous JWT signing key retired " ++ rest

/-- The key is retired as far as the signer is concerned: no function treats it as active, it is not
in the JWKS, and tokens are verified with the current key only. -/
structure Inactive {K : Crates} (signer : JwtSigner K) (now : DateTime) (kid : String) : Prop where
  active : signer.activePrevious now = none
  kidActive : signer.previousKidActive now = none
  jwks : ∀ jwk ∈ signer.jwks now, jwk.kid ≠ kid
  verify : ∀ {C : Type} (de : Payload → Option C) (token : K.Token) (v : Validation),
    signer.verifyRaw now de token v = K.decode de token signer.current.decoding v now.timestamp

/-- The row and the line say that the key is retired exactly when it is inactive, and else they warn
exactly when it retires within the days of the window. -/
structure DiagnosticsAgree {K : Crates} (signer : JwtSigner K) (now : DateTime)
    (prev : PreviousKeyConfig) (rotationWarnDays : UInt32) (row : Check) (line : LogLine) :
    Prop where
  row_retired : row.ReportsRetired prev ↔ Inactive signer now prev.keyId
  row_warns : ¬ Inactive signer now prev.keyId →
    (row.severity = .warn ↔ timeLeft now prev ≤ rotationWarnDays.toNat * nanosPerDay)
  line_retired : line.ReportsRetired ↔ Inactive signer now prev.keyId
  line_warns : ¬ Inactive signer now prev.keyId →
    (line.level = .warn ↔ timeLeft now prev ≤ rotationWarnDays.toNat * nanosPerDay)

section Reports

variable {K : BootCrates} {now : DateTime} {prev : PreviousKeyConfig} {w : UInt32}

/-- Two texts that go on differently after the same start. -/
theorem retires_ne_retired {front x y : List Char} :
    front ++ (" retires in ".toList ++ x) ≠ front ++ (" retired ".toList ++ y) := by
  intro h
  have hrest := List.append_cancel_left h
  have hchar := congrArg (·[7]?) hrest
  simp at hchar

/-- The row reports the retirement from one day after it on. -/
theorem row_retired_iff :
    (checkRetirement K now prev w).ReportsRetired prev ↔ timeLeft now prev ≤ -nanosPerDay := by
  rw [← numDays_neg_iff]
  unfold checkRetirement
  dsimp only
  split
  · rename_i hneg
    refine iff_of_true ⟨rfl, ?_⟩ hneg
    simp only [Check.warn, String.append_assoc]
    exact ⟨_, rfl⟩
  · rename_i hpos
    refine iff_of_false ?_ hpos
    split
    · rintro ⟨-, rest, hmsg⟩
      have hlist := congrArg String.toList hmsg
      simp only [Check.warn, String.toList_append, List.append_assoc] at hlist
      rw [← List.append_assoc, ← List.append_assoc "kid=".toList] at hlist
      exact retires_ne_retired hlist
    · rintro ⟨hsev, -⟩
      cases hsev

/-- The line reports the retirement from one day after it on. -/
theorem line_retired_iff :
    (rotationLog now prev w).ReportsRetired ↔ timeLeft now prev ≤ -nanosPerDay := by
  have hretires : "previous JWT signing key retires in ".toList
      = "previous JWT signing key".toList ++ " retires in ".toList := by decide +kernel
  have hretired : "previous JWT signing key retired ".toList
      = "previous JWT signing key".toList ++ " retired ".toList := by decide +kernel
  rw [← numDays_neg_iff]
  unfold rotationLog
  dsimp only
  split
  · rename_i hneg
    refine iff_of_true ⟨rfl, ?_⟩ hneg
    simp only [String.append_assoc]
    exact ⟨_, rfl⟩
  · rename_i hpos
    refine iff_of_false ?_ hpos
    split
    · rintro ⟨-, rest, hmsg⟩
      have hlist := congrArg String.toList hmsg
      simp only [String.toList_append, List.append_assoc] at hlist
      rw [hretires, hretired, List.append_assoc, List.append_assoc] at hlist
      exact retires_ne_retired hlist
    · rintro ⟨hlevel, -⟩
      cases hlevel

/-- The row of a key that is not retired warns within one day more than the window. -/
theorem row_warn_iff (h : 0 ≤ timeLeft now prev) :
    (checkRetirement K now prev w).severity = .warn
      ↔ timeLeft now prev < (w.toNat + 1) * nanosPerDay := by
  have hday : nanosPerDay = 86400000000000 := rfl
  rw [← ofInt_numDays_le h]
  unfold checkRetirement
  dsimp only
  rw [if_neg (by rw [numDays_neg_iff]; omega)]
  split
  · rename_i hle
    exact iff_of_true rfl hle
  · rename_i hle
    exact iff_of_false (fun hsev => by cases hsev) hle

/-- While the key is not retired, the log warns in the last days before. -/
theorem line_warn_iff (h : 0 ≤ timeLeft now prev) :
    (rotationLog now prev w).level = .warn ↔ timeLeft now prev < (w.toNat + 1) * nanosPerDay := by
  have hday : nanosPerDay = 86400000000000 := rfl
  rw [← ofInt_numDays_le h]
  unfold rotationLog
  dsimp only
  rw [if_neg (by rw [numDays_neg_iff]; omega)]
  split
  · rename_i hle
    exact iff_of_true rfl hle
  · rename_i hle
    exact iff_of_false (fun hlevel => by cases hlevel) hle

end Reports

/-! ### What the signer does -/

/-- The previous key of the configuration, loaded as `serve` loads it. -/
structure RotationLoaded {K : BootCrates} (files : Files) (config : AppConfig)
    (prev : PreviousKeyConfig) (base signer : JwtSigner K.toCrates) : Prop where
  configured : config.jwt.previousKey = some prev
  file : files.exists_ prev.privateKeyPath = true
  current : loadFromPem K files config.jwt.privateKeyPath config.jwt.keyId = .ok base
  previous : loadPreviousFromPem files base prev = .ok signer

section Loaded

variable {K : BootCrates} {files : Files} {config : AppConfig} {prev : PreviousKeyConfig}
  {base signer : JwtSigner K.toCrates} {now : DateTime}

/-- What a signer with a previous key holds. -/
theorem loadPrevious_spec (h : loadPreviousFromPem files base prev = .ok signer) :
    ∃ pem key, files.readToString prev.privateKeyPath = .ok pem
      ∧ KeyPair.fromPkcs8Pem K.toCrates pem prev.keyId = .ok key
      ∧ prev.keyId ≠ base.current.kid ∧ signer.current = base.current
      ∧ signer.previous = some key ∧ signer.previousRetiresAt = some prev.retiresAt := by
  unfold loadPreviousFromPem at h
  split at h
  · cases h
  · rename_i pem hpem
    unfold JwtSigner.withPrevious at h
    split at h
    · cases h
    · rename_i hkid
      split at h
      · cases h
      · rename_i key hkey
        cases h
        exact ⟨pem, key, hpem, hkey, hkid, rfl, rfl, rfl⟩

/-- The row that the doctor has for a key that `serve` loads. -/
theorem checkPreviousKey_of_loaded (h : RotationLoaded files config prev base signer) :
    checkPreviousKey K files config now
      = [checkRetirement K now prev config.jwt.rotationWarnDays] := by
  obtain ⟨pem, key, hpem, hkey, hkid, -, -, -⟩ := loadPrevious_spec h.previous
  rw [loadFromPem_kid h.current] at hkid
  have hload : ∃ s, loadFromPem K files prev.privateKeyPath prev.keyId = .ok s := by
    simp only [loadFromPem, hpem, JwtSigner.fromPkcs8Pem, hkey]
    exact ⟨_, rfl⟩
  obtain ⟨s, hs⟩ := hload
  simp only [checkPreviousKey, h.configured, h.file, hs, if_neg hkid, Bool.not_true,
    Bool.false_eq_true, if_false]

/-- The signer treats the key as inactive from its retirement on. -/
theorem inactive_iff (h : RotationLoaded files config prev base signer) :
    Inactive signer now prev.keyId ↔ timeLeft now prev ≤ 0 := by
  obtain ⟨pem, key, -, hkey, hkid, hcurrent, hprevious, hretires⟩ := loadPrevious_spec h.previous
  have hle : timeLeft now prev ≤ 0 ↔ prev.retiresAt ≤ now := by
    show prev.retiresAt.ns - now.ns ≤ 0 ↔ prev.retiresAt.ns ≤ now.ns
    omega
  rw [hle]
  constructor
  · intro hinactive
    have hactive := hinactive.active
    by_contra hlater
    simp only [JwtSigner.activePrevious, hretires, hprevious, if_neg hlater] at hactive
    cases hactive
  · intro hretired
    have hactive := JwtSigner.activePrevious_retired hretires hretired
    constructor
    case active => exact hactive
    case kidActive => simp only [JwtSigner.previousKidActive, hretires, if_pos hretired]
    case jwks =>
      intro jwk hjwk
      simp only [JwtSigner.jwks, hactive, List.mem_singleton] at hjwk
      rw [hjwk, hcurrent]
      exact fun heq => hkid heq.symm
    case verify =>
      intro C de token v
      exact JwtSigner.verifyRaw_of_inactive hactive de token v

/-! ### When they agree -/

/-- The key has been retired for less than a day. -/
def JustRetired (now : DateTime) (prev : PreviousKeyConfig) : Prop :=
  -nanosPerDay < timeLeft now prev ∧ timeLeft now prev ≤ 0

/-- The key retires after the days of the window, but less than a day later. -/
def RoundedIn (now : DateTime) (prev : PreviousKeyConfig) (rotationWarnDays : UInt32) : Prop :=
  rotationWarnDays.toNat * nanosPerDay < timeLeft now prev
    ∧ timeLeft now prev < (rotationWarnDays.toNat + 1) * nanosPerDay

/-- The doctor's row and the boot log agree with the signer at all instants but those of two days:
the first one after the retirement, and the one before the window of the warning. -/
theorem diagnosticsAgree_iff (h : RotationLoaded files config prev base signer) (now : DateTime) :
    (∃ row, checkPreviousKey K files config now = [row]
      ∧ DiagnosticsAgree signer now prev config.jwt.rotationWarnDays row
        (rotationLog now prev config.jwt.rotationWarnDays))
      ↔ ¬ JustRetired now prev ∧ ¬ RoundedIn now prev config.jwt.rotationWarnDays := by
  have hday : nanosPerDay = 86400000000000 := rfl
  have hnonneg : 0 ≤ (config.jwt.rotationWarnDays.toNat : Int) * nanosPerDay :=
    Int.mul_nonneg (Int.natCast_nonneg _) (by decide)
  have hnext : ((config.jwt.rotationWarnDays.toNat : Int) + 1) * nanosPerDay
      = config.jwt.rotationWarnDays.toNat * nanosPerDay + nanosPerDay := by
    rw [Int.add_mul, Int.one_mul]
  unfold JustRetired RoundedIn
  constructor
  · rintro ⟨row, hrow, hagree⟩
    rw [checkPreviousKey_of_loaded h, List.singleton_inj] at hrow
    subst hrow
    have hretired := hagree.row_retired
    have hwarns := hagree.row_warns
    rw [row_retired_iff, inactive_iff h] at hretired
    rw [inactive_iff h] at hwarns
    refine ⟨by omega, fun hin => ?_⟩
    rw [row_warn_iff (by omega)] at hwarns
    have := (hwarns (by omega)).mp hin.2
    omega
  · rintro ⟨hjust, hrounded⟩
    refine ⟨_, checkPreviousKey_of_loaded h, ?_⟩
    -- Outside of the two days the rounded count and the exact time fall on the same side.
    have hside : timeLeft now prev ≤ -nanosPerDay ↔ timeLeft now prev ≤ 0 := by omega
    have hwindow : timeLeft now prev < (config.jwt.rotationWarnDays.toNat + 1) * nanosPerDay
        ↔ timeLeft now prev ≤ config.jwt.rotationWarnDays.toNat * nanosPerDay := by omega
    constructor
    case row_retired => rw [row_retired_iff, inactive_iff h, hside]
    case row_warns =>
      intro hactive
      rw [inactive_iff h] at hactive
      rw [row_warn_iff (by omega), hwindow]
    case line_retired => rw [line_retired_iff, inactive_iff h, hside]
    case line_warns =>
      intro hactive
      rw [inactive_iff h] at hactive
      rw [line_warn_iff (by omega), hwindow]

end Loaded

namespace Sample

/-- A previous key that retires at this second. -/
def oldKey (secs : UInt16) : PreviousKeyConfig :=
  ⟨"/opt/tim/keys/jwt-previous.pem", "tim-old", Symbolic.instant secs⟩

/-- The sample configuration with the previous key. -/
def rotating (secs : UInt16) : AppConfig where
  server := { bind := "127.0.0.1" }
  jwt := { previousKey := some (oldKey secs) }

/-- The two key files. -/
def keyFiles : Files where
  exists_ path :=
    path = "/opt/tim/keys/jwt-private.pem" || path = "/opt/tim/keys/jwt-previous.pem"
  readToString path :=
    if path = "/opt/tim/keys/jwt-private.pem" then .ok "pem"
    else if path = "/opt/tim/keys/jwt-previous.pem" then .ok "old-pem"
    else .error "No such file or directory (os error 2)"

/-- The sample deployment loads its previous key. -/
theorem exists_loaded (secs : UInt16) : ∃ base signer : JwtSigner crates.toCrates,
    RotationLoaded keyFiles (rotating secs) (oldKey secs) base signer :=
  ⟨_, _, ⟨rfl, rfl, rfl, rfl⟩⟩

end Sample

open Tim.Boot.Sample in
/-- A key that retires in sixteen hours, within the seven days of the default. -/
theorem diagnosticsAgree_ahead : ∃ base signer : JwtSigner crates.toCrates,
    RotationLoaded keyFiles (rotating 60000) (oldKey 60000) base signer
      ∧ ∃ row, checkPreviousKey crates keyFiles (rotating 60000) (Symbolic.instant 0) = [row]
        ∧ DiagnosticsAgree signer (Symbolic.instant 0) (oldKey 60000) 7 row
          (rotationLog (Symbolic.instant 0) (oldKey 60000) 7) := by
  obtain ⟨base, signer, h⟩ := exists_loaded 60000
  refine ⟨base, signer, h, (diagnosticsAgree_iff h (Symbolic.instant 0)).mpr ⟨?_, ?_⟩⟩
  · rintro ⟨-, hle⟩
    exact absurd hle (by decide)
  · rintro ⟨hlt, -⟩
    exact absurd hlt (by decide)

open Tim.Boot.Sample in
/-- An hour after its retirement the key is inactive, and both reports say that it is still
ahead. -/
theorem just_retired_not_reported : ∃ base signer : JwtSigner crates.toCrates,
    RotationLoaded keyFiles (rotating 1000) (oldKey 1000) base signer
      ∧ Inactive signer (Symbolic.instant 4600) "tim-old"
      ∧ checkPreviousKey crates keyFiles (rotating 1000) (Symbolic.instant 4600)
        = [.warn "jwt.previous_key" ("kid=tim-old retires in 0 day(s) (retires_at="
          ++ crates.showDateTime (Symbolic.instant 1000) ++ ") — plan the next rotation.")]
      ∧ ¬ ∃ row, checkPreviousKey crates keyFiles (rotating 1000) (Symbolic.instant 4600) = [row]
        ∧ DiagnosticsAgree signer (Symbolic.instant 4600) (oldKey 1000) 7 row
          (rotationLog (Symbolic.instant 4600) (oldKey 1000) 7) := by
  obtain ⟨base, signer, h⟩ := exists_loaded 1000
  have hinactive : Inactive signer (Symbolic.instant 4600) (oldKey 1000).keyId :=
    (inactive_iff h).mpr (by decide)
  refine ⟨base, signer, h, hinactive, by decide +kernel, ?_⟩
  rintro ⟨row, hrow, hagree⟩
  rw [checkPreviousKey_of_loaded h, List.singleton_inj] at hrow
  subst hrow
  have hreport := hagree.row_retired.mpr hinactive
  exact absurd (row_retired_iff.mp hreport) (by decide)

end Tim.Boot
