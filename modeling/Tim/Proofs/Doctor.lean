import Tim.Model.Doctor
import Tim.Proofs.Gates
import Tim.Proofs.Net
import Tim.Proofs.Text

/-!
# `Tim.Proofs.Doctor`: what the doctor's verdict says about the start

A report without a failure promises a clean start. `doctor_sound` says exactly when that promise is
kept. The doctor repeats the steps of `serve` by hand, and some of them only in part: it does not
look at the scheme of a discovery URL, it measures the session key and does not decode it, it looks
at one of the three axes of the introspection gate, and it reads neither the bind address nor the
lifetimes of the caches nor the CORS rules. `Bootable` collects what it leaves out.

`Passed` is what a report without a failure says about the inputs, one field for each section of the
doctor. Each step of `serve` then has one lemma that compares the two.

* `passed_of_noFail`: a report without a failure, read as facts about the inputs.
* `exists_prepare`, `exists_assemble`: the steps of `serve` before and after the database.
* `boots_iff_serve`: these steps are all of `serve`.
* `doctor_misses_host`: a deployment that the doctor passes and that does not start.
-/

set_option autoImplicit false

namespace Tim.Boot

open Tim.OAuth Tim.Web Tim.Net Doctor

/-! ### Results of a composition -/

/-- A step of a composition that ends well has ended well. -/
theorem bind_eq_ok {ε α β : Type} {x : Except ε α} {f : α → Except ε β} {b : β} :
    (x >>= f) = .ok b ↔ ∃ a, x = .ok a ∧ f a = .ok b := by
  cases x with
  | ok a =>
      constructor
      · intro h
        exact ⟨a, rfl, h⟩
      · rintro ⟨_, ha, h⟩
        cases ha
        exact h
  | error e =>
      constructor
      · intro h
        cases h
      · rintro ⟨_, ha, -⟩
        cases ha

/-- Two steps in a row pass when the first does, and then the second does with its result. -/
theorem exists_bind {ε α β : Type} {x : Except ε α} {f : α → Except ε β} :
    (∃ b, (x >>= f) = .ok b) ↔ ∃ a, x = .ok a ∧ ∃ b, f a = .ok b := by
  simp only [bind_eq_ok]
  constructor
  · rintro ⟨b, a, ha, hb⟩
    exact ⟨a, ha, b, hb⟩
  · rintro ⟨a, ha, b, hb⟩
    exact ⟨b, a, ha, hb⟩

/-- The context of an error changes nothing about success. -/
theorem orStop_eq_ok {α : Type} {context : Option String} {x : Except TimError α} {a : α} :
    orStop context x = .ok a ↔ x = .ok a := by
  cases x with
  | ok b => simp [orStop]
  | error e => simp [orStop]

/-- A constructor that can panic passes when it returns. -/
theorem orPanic_eq_ok {returns : Bool} {u : Unit} : orPanic returns = .ok u ↔ returns = true := by
  cases returns with
  | true => simp [orPanic]
  | false => simp [orPanic]

/-- A traversal ends well when each of its rounds does. -/
theorem exists_mapM {ε α β : Type} {f : α → Except ε β} (l : List α) :
    (∃ ys, l.mapM f = .ok ys) ↔ ∀ x ∈ l, ∃ y, f x = .ok y := by
  induction l with
  | nil =>
      constructor
      · intro _ x hx
        cases hx
      · intro _
        exact ⟨[], rfl⟩
  | cons x l ih =>
      simp only [List.mapM_cons, bind_eq_ok, List.forall_mem_cons, ← ih]
      constructor
      · rintro ⟨_, y, hy, ys, hys, -⟩
        exact ⟨⟨y, hy⟩, ys, hys⟩
      · rintro ⟨⟨y, hy⟩, ys, hys⟩
        exact ⟨y :: ys, y, hy, ys, hys, rfl⟩

/-! ### The session key -/

/-- A byte that writes a hexadecimal digit. -/
def isHexDigit (b : UInt8) : Bool :=
  (48 ≤ b && b ≤ 57) || (97 ≤ b && b ≤ 102) || (65 ≤ b && b ≤ 70)

/-- The bytes that are read as a digit are the hexadecimal digits. -/
theorem exists_fromHexDigit (b : UInt8) : (∃ d, fromHexDigit b = .ok d) ↔ isHexDigit b = true := by
  unfold fromHexDigit isHexDigit
  split
  · simp [*]
  split
  · simp [*]
  split
  · simp [*]
  · rename_i h₁ h₂ h₃
    simp only [Bool.or_eq_true, Bool.and_eq_true, decide_eq_true_eq, h₁, h₂, h₃, or_self,
      iff_false]
    rintro ⟨d, hd⟩
    cases hd

/-- Decoded bytes come from twice as many digits, and every one of them is one. -/
theorem decodeHex_inv {l bytes : List UInt8} (h : decodeHex l = .ok bytes) :
    l.length = 2 * bytes.length ∧ ∀ b ∈ l, isHexDigit b = true := by
  induction l using decodeHex.induct generalizing bytes with
  | case1 =>
      cases h
      exact ⟨rfl, nofun⟩
  | case2 b => cases h
  | case3 hi lo rest ih =>
      simp only [decodeHex, bind_eq_ok] at h
      obtain ⟨x, hx, y, hy, tail, htail, heq⟩ := h
      cases heq
      obtain ⟨hlen, hall⟩ := ih htail
      refine ⟨by simp [hlen, Nat.mul_add], ?_⟩
      intro b hb
      rcases List.mem_cons.mp hb with rfl | hb
      · exact (exists_fromHexDigit _).mp ⟨x, hx⟩
      rcases List.mem_cons.mp hb with rfl | hb
      · exact (exists_fromHexDigit _).mp ⟨y, hy⟩
      · exact hall b hb

/-- An even number of hexadecimal digits is decoded. -/
theorem exists_decodeHex {l : List UInt8} (heven : l.length % 2 = 0)
    (hall : ∀ b ∈ l, isHexDigit b = true) : ∃ bytes, decodeHex l = .ok bytes := by
  induction l using decodeHex.induct with
  | case1 => exact ⟨[], rfl⟩
  | case2 b => simp at heven
  | case3 hi lo rest ih =>
      have hrest : rest.length % 2 = 0 := by
        simp only [List.length_cons] at heven
        omega
      obtain ⟨tail, htail⟩ := ih hrest fun b hb => hall b (by simp [hb])
      obtain ⟨x, hx⟩ := (exists_fromHexDigit hi).mpr (hall hi (by simp))
      obtain ⟨y, hy⟩ := (exists_fromHexDigit lo).mpr (hall lo (by simp))
      refine ⟨(x <<< 4 ||| y) :: tail, ?_⟩
      simp only [decodeHex, bind_eq_ok]
      exact ⟨x, hx, y, hy, tail, htail, rfl⟩

/-- The hexadecimal digits by their codes. -/
theorem isHexDigit_ofNat (n : Nat) : isHexDigit (UInt8.ofNat n) = true
    ↔ 48 ≤ n % 256 ∧ n % 256 ≤ 57 ∨ 97 ≤ n % 256 ∧ n % 256 ≤ 102 ∨ 65 ≤ n % 256 ∧ n % 256 ≤ 70 := by
  simp [isHexDigit, UInt8.le_iff_toNat_le, or_assoc]

/-- White space is not written with hexadecimal digits. -/
theorem not_hex_of_whitespace {c : Char} (h : isWhitespace c = true) :
    ∃ b ∈ String.utf8EncodeChar c, isHexDigit b ≠ true := by
  have hspace : c.toNat < 48 ∨ 128 ≤ c.toNat := by
    simp only [isWhitespace, Bool.or_eq_true, Bool.and_eq_true, decide_eq_true_eq,
      List.contains_eq_mem, List.mem_cons, List.not_mem_nil, or_false] at h
    omega
  rcases hspace with hlow | hhigh
  · refine ⟨UInt8.ofNat c.toNat, ?_, fun hhex => ?_⟩
    · rw [utf8EncodeChar_of_ascii (by omega)]
      exact List.mem_singleton_self _
    · rw [isHexDigit_ofNat] at hhex
      omega
  · obtain ⟨b, hb⟩ := List.exists_mem_of_ne_nil _ (String.utf8EncodeChar_ne_nil (c := c))
    refine ⟨b, hb, fun hhex => ?_⟩
    have hle := le_of_mem_utf8EncodeChar hhigh hb
    have hlt := b.toNat_lt
    rw [← UInt8.ofNat_toNat (x := b), isHexDigit_ofNat] at hhex
    omega

/-- What is trimmed is a part of the text, without a gap. -/
theorem trim_sub (s : String) : (trim s).toList <:+: s.toList := by
  unfold trim
  rw [String.toList_ofList]
  have hback : ((s.toList.dropWhile isWhitespace).reverse.dropWhile isWhitespace).reverse
      <+: s.toList.dropWhile isWhitespace := by
    rw [← List.reverse_suffix, List.reverse_reverse]
    exact List.dropWhile_suffix _
  exact hback.isInfix.trans (List.dropWhile_suffix _).isInfix

/-- A part of a text with as many bytes is the whole text. -/
theorem eq_of_within {l l' : List Char} (h : l <:+: l')
    (hlen : (l.flatMap String.utf8EncodeChar).length = (l'.flatMap String.utf8EncodeChar).length) :
    l = l' := by
  obtain ⟨front, back, rfl⟩ := h
  have hnil : ∀ part : List Char, (part.flatMap String.utf8EncodeChar).length = 0 → part = [] := by
    intro part hpart
    cases part with
    | nil => rfl
    | cons c part =>
        have hpos : 0 < (String.utf8EncodeChar c).length :=
          List.length_pos_iff.mpr String.utf8EncodeChar_ne_nil
        simp only [List.flatMap_cons, List.length_append] at hpart
        omega
  simp only [List.flatMap_append, List.length_append] at hlen
  rw [hnil front (by omega), hnil back (by omega)]
  simp

/-- A key of 64 bytes is taken when it has hexadecimal digits only. -/
theorem exists_fromHexKey {v : String} (hlen : (asBytes v).length = 64) :
    (∃ key, fromHexKey v = .ok key) ↔ ∀ b ∈ asBytes v, isHexDigit b = true := by
  constructor
  · rintro ⟨key, hkey⟩
    unfold fromHexKey hexDecode at hkey
    split at hkey
    · cases hkey
    · rename_i bytes hbytes
      split at hkey
      · cases hkey
      · rename_i hcount
        dsimp only at hbytes
        split at hbytes
        · cases hbytes
        obtain ⟨hdouble, hall⟩ := decodeHex_inv hbytes
        -- The trimmed key has 64 bytes too, so nothing was trimmed.
        have hsub := (trim_sub (trim v)).trans (trim_sub v)
        have hsame : (trim (trim v)).toList = v.toList := by
          apply eq_of_within hsub
          rw [← asBytes_eq, ← asBytes_eq, hlen, hdouble, not_not.mp hcount]
        rwa [String.toList_injective hsame] at hall
  · intro hall
    have htrim : trim v = v := by
      apply trim_eq_self
      intro c hc
      by_contra hspace
      obtain ⟨b, hb, hnot⟩ := not_hex_of_whitespace (Bool.not_eq_false _ ▸ hspace)
      have hmem : b ∈ asBytes v := by
        rw [asBytes_eq]
        exact List.mem_flatMap.mpr ⟨c, hc, hb⟩
      exact hnot (hall b hmem)
    obtain ⟨key, hkey⟩ := exists_decodeHex (l := asBytes v) (by rw [hlen]) hall
    have hcount : key.length = 32 := by
      have hdouble := (decodeHex_inv hkey).1
      omega
    refine ⟨key, ?_⟩
    unfold fromHexKey hexDecode
    simp [htrim, hlen, hkey, hcount]

/-! ### What a report says -/

/-- The exit code tells whether a check has failed. -/
theorem exitCode_eq_zero (r : Report) : r.exitCode false = 0 ↔ r.NoFail := by
  simp [Report.exitCode, Report.counts, Report.NoFail]

section Compare

variable {K : BootCrates} {env : Environment} {files : Files} {now : DateTime}
  {configPath : Option String} {config : AppConfig}

/-- The check of a variable does not fail exactly when the variable is set and not empty. -/
theorem checkSet_passes {category name pass fail : String} :
    (checkSet env category name pass fail).severity ≠ .fail ↔ ∃ v, resolved env name = some v := by
  unfold checkSet
  cases resolved env name with
  | none => simp [Check.fail]
  | some v => simp [Check.pass]

/-- What a report without a failure says about the inputs. -/
structure Passed (K : BootCrates) (env : Environment) (files : Files) (config : AppConfig) :
    Prop where
  validate : config.validate = .ok ()
  key : ∃ signer, loadFromPem K files config.jwt.privateKeyPath config.jwt.keyId = .ok signer
  previousKey : ∀ prev, config.jwt.previousKey = some prev → prev.keyId ≠ config.jwt.keyId
    ∧ ∃ signer, loadFromPem K files prev.privateKeyPath prev.keyId = .ok signer
  database : ∃ v, resolved env config.database.urlEnv = some v
  admin : config.security.requireAdminToken = true →
    ∃ v, resolved env config.security.adminTokenEnv = some v
  sessionKey : config.oauth2.sessionStore = "postgres" →
    ∃ v, env.var config.oauth2.sessionEncryptionKeyEnv = some v ∧ (asBytes v).length = 64
  providers : ∀ e ∈ config.oauth2.providers.toList, (∃ v, resolved env e.2.clientIdEnv = some v)
    ∧ ∃ v, resolved env e.2.clientSecretEnv = some v
  clients : config.introspection.requiredClientAuth = true →
    ∀ c ∈ config.introspection.clients, ∃ v, resolved env c.clientSecretEnv = some v

/-- What the doctor has looked at is as it should be, one field of `Passed` for each of its checks.
-/
theorem passed_of_noFail (h : (run K env files now configPath).NoFail)
    (hload : AppConfig.load K files configPath = .ok config) : Passed K env files config := by
  simp only [run, hload, Report.NoFail, List.forall_mem_append, List.forall_mem_cons,
    List.mem_flatMap, forall_exists_index, and_imp] at h
  obtain ⟨⟨⟨⟨⟨⟨⟨-, hvalidate, hkey, -⟩, hprevious⟩, hdatabase, hadmin, -⟩, hsession⟩, hproviders⟩,
    hclients⟩, -⟩ := h
  constructor
  case validate =>
    unfold checkValidate at hvalidate
    split at hvalidate
    · exact absurd rfl hvalidate
    · assumption
  case key =>
    simp only [checkKey] at hkey
    split at hkey
    · exact absurd rfl hkey
    split at hkey
    · exact ⟨_, by assumption⟩
    · exact absurd rfl hkey
  case previousKey =>
    intro prev hprev
    simp only [checkPreviousKey, hprev] at hprevious
    split at hprevious
    · exact absurd rfl (hprevious _ List.mem_cons_self)
    -- The key ids differ. What remains is the PEM file.
    rename_i hdiffer
    split at hprevious
    · exact absurd rfl (hprevious _ List.mem_cons_self)
    split at hprevious
    · exact ⟨hdiffer, _, by assumption⟩
    · exact absurd rfl (hprevious _ List.mem_cons_self)
  case database => exact checkSet_passes.mp hdatabase
  case admin =>
    intro hon
    simp only [checkAdmin, hon, if_true] at hadmin
    exact checkSet_passes.mp hadmin
  case sessionKey =>
    intro hpostgres
    simp only [checkSessionKey, hpostgres, if_true, List.mem_singleton, forall_eq] at hsession
    split at hsession
    · exact absurd rfl hsession
    · rename_i v hv
      refine ⟨v, hv, ?_⟩
      -- `doctor` only looks at the length, not at the digits.
      by_contra hlen
      rw [if_neg hlen] at hsession
      exact hsession rfl
  case providers =>
    rintro ⟨id, p⟩ he
    have hchecks : ∀ c ∈ checkProvider env id p, c.severity ≠ .fail := fun c hc =>
      hproviders c (id, p) he hc
    simp only [checkProvider, List.map_cons, List.map_nil, List.forall_mem_cons] at hchecks
    exact ⟨checkSet_passes.mp hchecks.1, checkSet_passes.mp hchecks.2.1⟩
  case clients =>
    intro hon c hc
    simp only [checkIntrospection, hon, if_true] at hclients
    have hcheck := hclients _ (List.mem_append_right _ (List.mem_map_of_mem hc))
    exact checkSet_passes.mp hcheck

/-! ### The steps of `serve` -/

/-- A resolved variable has the value that was found. -/
theorem resolved_some {name v : String} (h : resolved env name = some v) :
    env.var name = some v :=
  (Option.filter_eq_some_iff.mp h).1

/-- A key that loads also loads as a predecessor of a key with another `kid`. -/
theorem exists_loadPrevious {signer signer' : JwtSigner K.toCrates} {prev : PreviousKeyConfig}
    (hkid : prev.keyId ≠ signer.current.kid)
    (hprev : loadFromPem K files prev.privateKeyPath prev.keyId = .ok signer') :
    ∃ s, loadPreviousFromPem files signer prev = .ok s := by
  unfold loadFromPem at hprev
  unfold loadPreviousFromPem
  cases hread : files.readToString prev.privateKeyPath with
  | error e =>
      rw [hread] at hprev
      cases hprev
  | ok pem =>
      rw [hread] at hprev
      show ∃ s, signer.withPrevious pem prev.keyId prev.retiresAt = .ok s
      unfold JwtSigner.withPrevious
      rw [dif_neg hkid]
      split
      · rename_i e he
        simp only [JwtSigner.fromPkcs8Pem, he] at hprev
        cases hprev
      · exact ⟨_, rfl⟩

/-- A loaded signer has the key id that it was given. -/
theorem loadFromPem_kid {path kid : String} {signer : JwtSigner K.toCrates}
    (h : loadFromPem K files path kid = .ok signer) : signer.current.kid = kid := by
  unfold loadFromPem at h
  split at h
  · cases h
  · unfold JwtSigner.fromPkcs8Pem at h
    split at h
    · cases h
    · rename_i current hcurrent
      cases h
      exact KeyPair.fromPkcs8Pem_kid hcurrent

/-- The steps before the database pass. -/
theorem exists_prepare (hpass : Passed K env files config)
    (hload : AppConfig.load K files configPath = .ok config) :
    ∃ p, prepare K env files configPath = .ok p ∧ p.config = config := by
  obtain ⟨signer, hsigner⟩ := hpass.key
  obtain ⟨dbUrl, hurl⟩ := hpass.database
  have hvar := resolved_some hurl
  cases hprev : config.jwt.previousKey with
  | none =>
      refine ⟨⟨config, signer, dbUrl⟩, ?_, rfl⟩
      simp only [prepare, bind_eq_ok]
      refine ⟨config, orStop_eq_ok.mpr hload, (), orStop_eq_ok.mpr hpass.validate, signer,
        orStop_eq_ok.mpr hsigner, ?_⟩
      simp only [hprev, hvar]
      rfl
  | some prev =>
      obtain ⟨hdiffer, other, hother⟩ := hpass.previousKey prev hprev
      rw [← loadFromPem_kid hsigner] at hdiffer
      obtain ⟨signer', hsigner'⟩ := exists_loadPrevious hdiffer hother
      refine ⟨⟨config, signer', dbUrl⟩, ?_, rfl⟩
      simp only [prepare, bind_eq_ok]
      refine ⟨config, orStop_eq_ok.mpr hload, (), orStop_eq_ok.mpr hpass.validate, signer,
        orStop_eq_ok.mpr hsigner, ?_⟩
      simp only [hprev, hvar, bind_eq_ok]
      exact ⟨signer', orStop_eq_ok.mpr hsigner', rfl⟩

/-- What the doctor does not look at. -/
structure Bootable (K : BootCrates) (env : Environment) (config : AppConfig) : Prop where
  https : ∀ e ∈ config.oauth2.providers.toList,
    startsWith e.2.discoveryUrl "https://" = true ∨ e.2.allowHttpDiscovery = true
  caches : K.cacheBuilds config.oauth2.discoveryCacheTtlSeconds.toNat = true
    ∧ K.cacheBuilds (max (jwksTtl (config.oauth2.providers.toList.map (·.2))) 1).toNat = true
  client : K.clientBuilds = true
  sessionKey : config.oauth2.sessionStore = "postgres" →
    ∀ v, env.var config.oauth2.sessionEncryptionKeyEnv = some v →
      ∀ b ∈ asBytes v, isHexDigit b = true
  secrets : config.introspection.gateValidationEndpoints = true
      ∨ config.introspection.gateJvmCompatEndpoints = true →
    ∀ c ∈ config.introspection.clients, ∃ v, resolved env c.clientSecretEnv = some v
  host : IsHost config.server.bind
  cors : ∀ rules, corsRules config.security = some rules → K.corsUsable rules = true

/-- A provider is resolved when its discovery URL is admitted and both variables of its credentials
are set. -/
theorem exists_resolveProvider (env : Environment) (id : String) (pc : ProviderConfig) :
    (∃ p, resolveProvider env id pc = .ok p)
      ↔ (startsWith pc.discoveryUrl "https://" = true ∨ pc.allowHttpDiscovery = true)
        ∧ (∃ v, env.var pc.clientIdEnv = some v) ∧ ∃ v, env.var pc.clientSecretEnv = some v := by
  unfold resolveProvider
  cases startsWith pc.discoveryUrl "https://" <;> cases pc.allowHttpDiscovery
    <;> cases env.var pc.clientIdEnv <;> cases env.var pc.clientSecretEnv <;> simp

/-- Of the registry, the doctor has checked the variables only. The URLs, the two caches and the
client are left. -/
theorem exists_providerRegistry (hpass : Passed K env files config) :
    (∃ providers, providerRegistry K env config.oauth2 = .ok providers)
      ↔ (∀ e ∈ config.oauth2.providers.toList,
          startsWith e.2.discoveryUrl "https://" = true ∨ e.2.allowHttpDiscovery = true)
        ∧ (K.cacheBuilds config.oauth2.discoveryCacheTtlSeconds.toNat = true
          ∧ K.cacheBuilds (max (jwksTtl (config.oauth2.providers.toList.map (·.2))) 1).toNat = true)
        ∧ K.clientBuilds = true := by
  have hproviders : (∃ ys, config.oauth2.providers.toList.mapM (fun e =>
        (resolveProvider env e.1 e.2).map fun p => (e.1, p)) = .ok ys)
      ↔ ∀ e ∈ config.oauth2.providers.toList,
        startsWith e.2.discoveryUrl "https://" = true ∨ e.2.allowHttpDiscovery = true := by
    rw [exists_mapM]
    refine forall₂_congr fun e he => ?_
    obtain ⟨⟨clientId, hid⟩, secret, hsecret⟩ := hpass.providers e he
    have hround := exists_resolveProvider env e.1 e.2
    rw [resolved_some hid, resolved_some hsecret] at hround
    cases hresolve : resolveProvider env e.1 e.2 with
    | error e' => simpa [hresolve, Except.map] using hround
    | ok p => simpa [hresolve, Except.map] using hround
  rw [← hproviders]
  simp only [providerRegistry, bind_eq_ok, orStop_eq_ok, orPanic_eq_ok, Bool.and_eq_true]
  constructor
  · rintro ⟨_, ys, hys, _, ⟨hdiscovery, hclient⟩, _, ⟨hjwks, -⟩, -⟩
    exact ⟨⟨ys, hys⟩, ⟨hdiscovery, hjwks⟩, hclient⟩
  · rintro ⟨⟨ys, hys⟩, ⟨hdiscovery, hjwks⟩, hclient⟩
    exact ⟨_, ys, hys, (), ⟨hdiscovery, hclient⟩, (), ⟨hjwks, hclient⟩, rfl⟩

/-- Of the session key, the doctor has checked the length only. The digits are left. -/
theorem exists_buildSessions (hpass : Passed K env files config) :
    (∃ sessions, buildSessions env config.oauth2 = .ok sessions)
      ↔ (config.oauth2.sessionStore = "postgres" →
        ∀ v, env.var config.oauth2.sessionEncryptionKeyEnv = some v →
          ∀ b ∈ asBytes v, isHexDigit b = true) := by
  -- The validation admits no third kind of store.
  have hknown : config.oauth2.sessionStore = "memory"
      ∨ config.oauth2.sessionStore = "postgres" := by
    have hvalid := hpass.validate
    unfold AppConfig.validate at hvalid
    split at hvalid
    · cases hvalid
    · rename_i hstore
      by_contra hother
      exact hstore (not_or.mp hother)
  unfold buildSessions
  rcases hknown with hstore | hstore
  · simp [hstore]
  · obtain ⟨v, hv, hlen⟩ := hpass.sessionKey hstore
    have hkey := exists_fromHexKey hlen
    rw [if_neg (by simp [hstore]), if_pos hstore, hv]
    dsimp only
    cases hfrom : fromHexKey v with
    | error e =>
        constructor
        · rintro ⟨_, h⟩
          cases h
        · intro hall
          obtain ⟨key, hok⟩ := hkey.mpr (hall hstore v rfl)
          rw [hfrom] at hok
          cases hok
    | ok key =>
        constructor
        · rintro - - v' hv'
          cases hv'
          exact hkey.mp ⟨key, hfrom⟩
        · intro _
          exact ⟨_, rfl⟩

/-- The gate of the administrator is built whenever the doctor has not failed. -/
theorem exists_adminGate (hpass : Passed K env files config) :
    ∃ gate, adminGate env config.security = .ok gate := by
  unfold adminGate
  split
  · rename_i hempty
    split
    · rename_i hrequired
      obtain ⟨v, hv⟩ := hpass.admin hrequired
      -- No variable has an empty name, so the doctor has failed here.
      rw [String.isEmpty_iff.mp hempty] at hv
      have hvar := resolved_some hv
      rw [env.var_empty] at hvar
      cases hvar
    · exact ⟨_, rfl⟩
  · split
    · exact ⟨_, rfl⟩
    · rename_i hunset
      split
      · rename_i hrequired
        obtain ⟨v, hv⟩ := hpass.admin hrequired
        rw [resolved, hunset] at hv
        cases hv
      · exact ⟨_, rfl⟩

/-- The clients are resolved if no axis needs their secrets, or all of the secrets are set. The
induction is on the list, as the loop goes. -/
theorem exists_resolveClients (env : Environment) (anyRequired : Bool)
    (clients : List IntrospectionClient) :
    (∃ r, resolveClients env anyRequired clients = .ok r)
      ↔ (anyRequired = true → ∀ c ∈ clients, ∃ v, resolved env c.clientSecretEnv = some v) := by
  induction clients with
  | nil => simp [resolveClients]
  | cons c clients ih =>
      rw [resolveClients, List.forall_mem_cons]
      cases hsecret : resolved env c.clientSecretEnv with
      | some v =>
          unfold resolved at hsecret
          rw [hsecret]
          cases hrest : resolveClients env anyRequired clients with
          | ok r => simpa [hrest] using ih
          | error e => simpa [hrest] using ih
      | none =>
          unfold resolved at hsecret
          rw [hsecret]
          cases anyRequired with
          | true => simp
          | false => simpa using ih

/-- The gate is built when the secrets of the clients are there, if an axis needs them. -/
theorem exists_introspectionGate (hpass : Passed K env files config) :
    (∃ gate, introspectionGate env config.introspection = .ok gate)
      ↔ (config.introspection.gateValidationEndpoints = true
          ∨ config.introspection.gateJvmCompatEndpoints = true →
        ∀ c ∈ config.introspection.clients, ∃ v, resolved env c.clientSecretEnv = some v) := by
  have hclients := exists_resolveClients env (config.introspection.requiredClientAuth
    || config.introspection.gateValidationEndpoints
    || config.introspection.gateJvmCompatEndpoints) config.introspection.clients
  have hgate : (∃ gate, introspectionGate env config.introspection = .ok gate)
      ↔ ∃ r, resolveClients env (config.introspection.requiredClientAuth
        || config.introspection.gateValidationEndpoints
        || config.introspection.gateJvmCompatEndpoints) config.introspection.clients = .ok r := by
    unfold introspectionGate
    dsimp only
    split
    · rename_i e he
      simp [he]
    · rename_i r hr
      simp [hr]
  rw [hgate, hclients]
  cases hrequired : config.introspection.requiredClientAuth with
  | true =>
      have hset := hpass.clients hrequired
      exact ⟨fun _ _ => hset, fun _ _ => hset⟩
  | false => simp only [Bool.false_or, Bool.or_eq_true]

/-- The router is built when its CORS rules are ones that the layer takes. -/
theorem exists_buildRouter (K : BootCrates) (config : AppConfig) :
    (∃ u, buildRouter K config.security = .ok u)
    ↔ ∀ rules, corsRules config.security = some rules → K.corsUsable rules = true := by
  unfold buildRouter
  cases hrules : corsRules config.security with
  | none => simp
  | some rules => simp [orPanic_eq_ok]

/-- The steps after the database pass one by one. -/
theorem exists_assemble {p : Prepared K} (hpass : Passed K env files p.config) :
    (∃ started, assemble K env p = .ok started) ↔ Bootable K env p.config := by
  obtain ⟨gate, hgate⟩ := exists_adminGate hpass
  have hproviders := exists_providerRegistry hpass
  have hsessions := exists_buildSessions hpass
  have hclients := exists_introspectionGate hpass
  have hrouter := exists_buildRouter K p.config
  have haddr := parseSocketAddr_isSome p.config.server.bind p.config.server.port
  simp only [assemble, exists_bind, orStop_eq_ok]
  constructor
  · rintro ⟨providers, hp, sessions, hs, _, -, clients, hc, hrest⟩
    obtain ⟨hhttps, hcaches, hclient⟩ := hproviders.mp ⟨providers, hp⟩
    split at hrest
    · rename_i addr ha
      simp only [exists_bind] at hrest
      obtain ⟨_, -, u, hu, -⟩ := hrest
      exact ⟨hhttps, hcaches, hclient, hsessions.mp ⟨sessions, hs⟩, hclients.mp ⟨clients, hc⟩,
        haddr.mp (by rw [ha]; rfl), hrouter.mp ⟨u, hu⟩⟩
    · obtain ⟨_, h, -⟩ := exists_bind.mp hrest
      cases h
  · intro h
    obtain ⟨providers, hp⟩ := hproviders.mpr ⟨h.https, h.caches, h.client⟩
    obtain ⟨sessions, hs⟩ := hsessions.mpr h.sessionKey
    obtain ⟨clients, hc⟩ := hclients.mpr h.secrets
    obtain ⟨u, hu⟩ := hrouter.mpr h.cors
    obtain ⟨addr, ha⟩ := Option.isSome_iff_exists.mp (haddr.mpr h.host)
    refine ⟨providers, hp, sessions, hs, gate, hgate, clients, hc, ?_⟩
    simp only [ha, exists_bind]
    exact ⟨addr, rfl, u, hu, _, rfl⟩

end Compare

/-- Every step of `serve` passes that does not ask the database or the operating system. -/
def Boots (K : BootCrates) (env : Environment) (files : Files) (configPath : Option String) :
    Prop :=
  ∃ p started, prepare K env files configPath = .ok p ∧ assemble K env p = .ok started

/-- The database is there and the port is free. -/
def willing : Externals := ⟨fun _ _ => .ok (), .ok (), fun _ => .ok ()⟩

/-- These steps are all of `serve` when nothing fails outside. -/
theorem boots_iff_serve {K : BootCrates} {env : Environment} {files : Files}
    {configPath : Option String} :
    Boots K env files configPath
      ↔ ∃ started, serve K env files willing configPath = .ok started := by
  have hrest : ∀ p : Prepared K, (do
      answered (willing.connect p.dbUrl p.config.database)
      if p.config.database.autoMigrate then answered willing.runMigrations else pure ()
      let started ← assemble K env p
      answered (willing.listen started.addr)
      pure started : Boot (Started K)) = assemble K env p := by
    intro p
    cases assemble K env p with
    | error e => cases p.config.database.autoMigrate <;> rfl
    | ok started => cases p.config.database.autoMigrate <;> rfl
  have hserve : serve K env files willing configPath
      = prepare K env files configPath >>= assemble K env :=
    congrArg (prepare K env files configPath >>= ·) (funext hrest)
  rw [hserve, exists_bind]
  constructor
  · rintro ⟨p, started, hp, hstarted⟩
    exact ⟨p, hp, started, hstarted⟩
  · rintro ⟨p, hp, started, hstarted⟩
    exact ⟨p, started, hp, hstarted⟩

/-- The start succeeds exactly when the steps pass that the doctor does not look at. -/
theorem boots_iff {K : BootCrates} {env : Environment} {files : Files}
    {configPath : Option String} {config : AppConfig} (hpass : Passed K env files config)
    (hload : AppConfig.load K files configPath = .ok config) :
    Boots K env files configPath ↔ Bootable K env config := by
  obtain ⟨p, hp, rfl⟩ := exists_prepare hpass hload
  rw [← exists_assemble hpass]
  constructor
  · rintro ⟨p', started, hp', hstarted⟩
    rw [hp] at hp'
    cases hp'
    exact ⟨started, hstarted⟩
  · rintro ⟨started, hstarted⟩
    exact ⟨p, started, hp, hstarted⟩

/-- A report without a failure is one about a configuration that loads: of one that does not, `run`
reports nothing but the failure to load it. -/
theorem exists_load {K : BootCrates} {env : Environment} {files : Files} {now : DateTime}
    {configPath : Option String} (hpass : (run K env files now configPath).NoFail) :
    ∃ config, AppConfig.load K files configPath = .ok config := by
  cases hload : AppConfig.load K files configPath with
  | ok config => exact ⟨config, rfl⟩
  | error e =>
      rw [run, hload] at hpass
      exact absurd rfl (hpass _ (List.mem_singleton_self _))

/-- On inputs that the doctor does not fail, the configuration loads, and the start succeeds exactly
when the steps pass that the doctor does not look at. -/
theorem doctor_sound {K : BootCrates} {env : Environment} {files : Files} {now : DateTime}
    {configPath : Option String} (hpass : (run K env files now configPath).NoFail) :
    ∃ config, AppConfig.load K files configPath = .ok config
      ∧ (Boots K env files configPath ↔ Bootable K env config) := by
  obtain ⟨config, hload⟩ := exists_load hpass
  exact ⟨config, hload, boots_iff (passed_of_noFail hpass hload) hload⟩

/-! ### A sample deployment -/

namespace Sample

/-- A development configuration with a bind address. -/
def yaml (bind : String) : String :=
  "server:\n  bind: " ++ bind ++ "\nsecurity:\n  require_admin_token: false\n"
    ++ "introspection:\n  required_client_auth: false\n"

/-- What `yaml` says. Everything else is the default. -/
def config (bind : String) : AppConfig where
  server := { bind }
  security := { requireAdminToken := false }
  introspection := { requiredClientAuth := false }

/-- The third-party functions. The YAML parser knows the files of two hosts. -/
def crates : BootCrates where
  toWebCrates := Web.Sample.crates
  parseYaml text :=
    if text = yaml "127.0.0.1" then .ok (config "127.0.0.1")
    else if text = yaml "localhost" then .ok (config "localhost")
    else .error "unexpected text"
  showDateTime t := toString t.ns
  cacheBuilds ttl := ttl ≤ 1000 * 365 * 86400
  clientBuilds := true
  corsUsable rules :=
    !(rules.allowCredentials && (rules.anyOrigin || rules.anyMethods || rules.anyHeaders))

/-- Only the URL of the database is set. -/
def env : Environment where
  var name := if name = "TIM_DATABASE_URL" then some "postgres://db/tim" else none
  var_empty := rfl

/-- A configuration file and a key file. -/
def files (bind : String) : Files where
  exists_ path := path = "tim.yaml" || path = "/opt/tim/keys/jwt-private.pem"
  readToString path :=
    if path = "tim.yaml" then .ok (yaml bind)
    else if path = "/opt/tim/keys/jwt-private.pem" then .ok "pem"
    else .error "No such file or directory (os error 2)"

end Sample

open Sample in
/-- A deployment on the loopback address. -/
theorem doctor_sound_loopback :
    (run crates env (files "127.0.0.1") (Symbolic.instant 1000) none).NoFail
      ∧ Boots crates env (files "127.0.0.1") none := by
  have hpass : (run crates env (files "127.0.0.1") (Symbolic.instant 1000) none).NoFail := by
    decide +kernel
  have hload : AppConfig.load crates (files "127.0.0.1") none = .ok (config "127.0.0.1") := rfl
  obtain ⟨config, hconfig, hboots⟩ := doctor_sound hpass
  obtain rfl : Sample.config "127.0.0.1" = config := Except.ok.inj (hload.symm.trans hconfig)
  refine ⟨hpass, hboots.mpr ?_⟩
  constructor
  case https => exact fun e he => nomatch he
  case caches => exact ⟨by decide, by decide⟩
  case client => rfl
  case sessionKey => exact fun h => absurd h (by decide)
  case secrets => exact fun _ c hc => nomatch hc
  case host => exact .inl ⟨[127, 0, 0, 1], by decide +kernel⟩
  case cors => exact fun rules h => nomatch h

open Sample in
/-- The doctor finds nothing wrong with a host name, and the server does not start with it. -/
theorem doctor_misses_host :
    (run crates env (files "localhost") (Symbolic.instant 1000) none).NoFail
      ∧ ¬ Boots crates env (files "localhost") none := by
  have hpass : (run crates env (files "localhost") (Symbolic.instant 1000) none).NoFail := by
    decide +kernel
  have hload : AppConfig.load crates (files "localhost") none = .ok (config "localhost") := rfl
  refine ⟨hpass, fun hboots => ?_⟩
  have hhost := ((boots_iff (passed_of_noFail hpass hload) hload).mp hboots).host
  have haddr := (parseSocketAddr_isSome "localhost" 8085).mpr hhost
  exact absurd haddr (by decide +kernel)

end Tim.Boot
