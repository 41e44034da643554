import Tim.Model.Provider
import Tim.Model.Signer

/-!
# `Tim.Model.Symbolic`: the third-party functions with symbolic keys

An instance of `Crates` that can be run. A key is the text of its PEM file, and a token is
its header, its payload and the key that signed it, so a signature verifies under exactly
one key. The algorithm, signature and claim checks of `decode` come in the order of the
crate. `Uuid::to_string` and `Uuid::parse_str` are the real ones: the hyphenated form is
written, and the simple and the hyphenated form are read, the second also in braces or as a
URN, with digits in either case.

`symbolic_decode`, `symbolic_encode` and `symbolic_uuid` say that the laws of
`Tim.Model.Crates` hold here.

`Symbolic.sealing` does the same for the session cipher. A ciphertext is the plaintext with a
tag of 16 bytes that only its key gives. The JSON codec is a table of three profiles: the empty
one, one with a string, and one with a float that `serde_json` reads back one bit off.

`Symbolic.oauth` has the functions of the OAuth2 flow. JSON bodies and compact tokens are read
from two tables, a JWK is the text of its RSA key, and a digest is the text itself. Query pairs
and base64 are written as the crates write them.
-/

set_option autoImplicit false

namespace Tim

/-! ### UUID text -/

namespace Uuid

/-- The lower-case hexadecimal digit of a number below 16. -/
def hexDigit (n : Nat) : Char := "0123456789abcdef".toList.getD n '0'

/-- The value of a hexadecimal digit. -/
def hexValue (c : Char) : Option Nat :=
  if '0' ≤ c ∧ c ≤ '9' then some (c.toNat - '0'.toNat)
  else if 'a' ≤ c ∧ c ≤ 'f' then some (c.toNat - 'a'.toNat + 10)
  else if 'A' ≤ c ∧ c ≤ 'F' then some (c.toNat - 'A'.toNat + 10)
  else none

/-- The `k` low hexadecimal digits of `n`, the highest first. -/
def hexDigits : Nat → Nat → List Char
  | 0, _ => []
  | k + 1, n => hexDigits k (n / 16) ++ [hexDigit (n % 16)]

/-- The number written by hexadecimal digits. -/
def ofHexDigits (cs : List Char) : Option Nat :=
  cs.foldlM (fun acc c => (hexValue c).map fun d => acc * 16 + d) 0

/-- The five groups of 32 digits, with hyphens between them. -/
def hyphenate (cs : List Char) : List Char :=
  cs.take 8 ++ '-' :: ((cs.drop 8).take 4 ++ '-' :: ((cs.drop 12).take 4 ++
    '-' :: ((cs.drop 16).take 4 ++ '-' :: cs.drop 20)))

/-- The 32 digits of the hyphenated form. -/
def dehyphenate (cs : List Char) : Option (List Char) :=
  if cs.length = 36 ∧ cs[8]? = some '-' ∧ cs[13]? = some '-' ∧ cs[18]? = some '-'
      ∧ cs[23]? = some '-' then
    some (cs.take 8 ++ (cs.drop 9).take 4 ++ (cs.drop 14).take 4 ++ (cs.drop 19).take 4
      ++ cs.drop 24)
  else none

/-- The hyphenated form inside braces or behind `urn:uuid:`, or the text itself. -/
def unwrap (cs : List Char) : List Char :=
  if cs.length = 38 ∧ cs.head? = some '\x7b' ∧ cs.getLast? = some '\x7d' then (cs.drop 1).dropLast
  else if "urn:uuid:".toList.isPrefixOf cs then cs.drop 9
  else cs

/-- `Uuid::to_string`. -/
def text (u : Uuid) : String := String.ofList (hyphenate (hexDigits 32 u.bits.toNat))

/-- The digits of a UUID text. The simple form has no hyphens, and stands on its own only. -/
def digits (cs : List Char) : Option (List Char) :=
  if cs.length = 32 then some cs else dehyphenate (unwrap cs)

/-- `Uuid::parse_str`. -/
def parse (s : String) : Option Uuid := do
  let n ← ofHexDigits (← digits s.toList)
  return ⟨BitVec.ofNat 128 n⟩

/-- Each of the sixteen digits is read back as its number. -/
theorem hexValue_hexDigit {n : Nat} (h : n < 16) : hexValue (hexDigit n) = some n := by
  have hall : ∀ m : Fin 16, hexValue (hexDigit m) = some m.val := by decide
  exact hall ⟨n, h⟩

/-- A number is written with as many digits as were asked for. -/
theorem length_hexDigits (k n : Nat) : (hexDigits k n).length = k := by
  induction k generalizing n with
  | zero => rfl
  | succ k ih => simp [hexDigits, ih]

/-- Digits are read back as the number modulo what fits into so many of them. -/
theorem ofHexDigits_hexDigits (k n : Nat) : ofHexDigits (hexDigits k n) = some (n % 16 ^ k) := by
  induction k generalizing n with
  | zero => simp [hexDigits, ofHexDigits, Nat.mod_one]
  | succ k ih =>
      have hmod : n % 16 < 16 := Nat.mod_lt _ (by decide)
      have ih' := ih (n / 16)
      unfold ofHexDigits at ih' ⊢
      rw [hexDigits, List.foldlM_append, ih']
      simp only [Option.bind_eq_bind, Option.bind_some, List.foldlM_cons, List.foldlM_nil,
        hexValue_hexDigit hmod, Option.map_some, Option.pure_def, Option.some.injEq]
      rw [Nat.pow_succ, Nat.mul_comm (16 ^ k) 16, Nat.mod_mul]
      omega

/-- The hyphens are put in and taken out at the same places. -/
theorem dehyphenate_hyphenate {cs : List Char} (h : cs.length = 32) :
    dehyphenate (hyphenate cs) = some cs := by
  match cs, h with
  | [c0, c1, c2, c3, c4, c5, c6, c7, c8, c9, c10, c11, c12, c13, c14, c15, c16, c17, c18, c19,
      c20, c21, c22, c23, c24, c25, c26, c27, c28, c29, c30, c31], _ => rfl

/-- The hyphenated form is neither braced nor a URN. -/
theorem unwrap_hyphenate {cs : List Char} (h : cs.length = 32)
    (hu : cs.head? ≠ some 'u') : unwrap (hyphenate cs) = hyphenate cs := by
  have hlen : (hyphenate cs).length = 36 := by
    simp [hyphenate, h]
  have hpre : "urn:uuid:".toList.isPrefixOf (hyphenate cs) = false := by
    cases cs with
    | nil => cases h
    | cons c cs =>
        have hc : c ≠ 'u' := by simpa using hu
        show (['u', 'r', 'n', ':', 'u', 'u', 'i', 'd', ':']).isPrefixOf (c :: _) = false
        simp [List.isPrefixOf, Ne.symm hc]
  unfold unwrap
  rw [if_neg (by omega), hpre]
  rfl

/-- No hexadecimal text starts like `urn:uuid:`. -/
theorem head_hexDigits (k n : Nat) : (hexDigits k n).head? ≠ some 'u' := by
  have hdigit : ∀ m : Fin 16, hexDigit m ≠ 'u' := by decide
  induction k generalizing n with
  | zero => simp [hexDigits]
  | succ k ih =>
      rw [hexDigits, List.head?_append]
      cases hd : (hexDigits k (n / 16)).head? with
      | none =>
          intro h
          exact hdigit ⟨n % 16, Nat.mod_lt _ (by decide)⟩ (by simpa using h)
      | some c =>
          have := ih (n / 16)
          rw [hd] at this
          simpa using this

/-- A UUID is read back from its hyphenated text, the law that the model asks of the library. -/
theorem parse_text (u : Uuid) : parse u.text = some u := by
  have hlen := length_hexDigits 32 u.bits.toNat
  have hbits : u.bits.toNat % 16 ^ 32 = u.bits.toNat := by
    have hlt : u.bits.toNat < 2 ^ 128 := u.bits.isLt
    rw [Nat.mod_eq_of_lt]
    exact hlt
  have hdigits : digits (hyphenate (hexDigits 32 u.bits.toNat))
      = some (hexDigits 32 u.bits.toNat) := by
    have hhyphens : (hyphenate (hexDigits 32 u.bits.toNat)).length ≠ 32 := by
      simp [hyphenate, hlen]
    rw [digits, if_neg hhyphens, unwrap_hyphenate hlen (head_hexDigits _ _),
      dehyphenate_hyphenate hlen]
  unfold parse text
  rw [String.toList_ofList, hdigits]
  simp only [Option.bind_eq_bind, Option.bind_some, ofHexDigits_hexDigits, hbits, Option.pure_def]
  simp

end Uuid

/-! ### The instance -/

namespace Symbolic

/-- The instant at a whole second. -/
def instant (secs : UInt16) : DateTime where
  ns := secs.toNat * nanosPerSecond
  lo := by
    show -8334601228800000000000 ≤ (secs.toNat : Int) * 1000000000
    omega
  hi := by
    show (secs.toNat : Int) * 1000000000 < 8210266876800000000000
    have := secs.toNat_lt
    omega

/-- A token by its parts. `key` is the PEM text of the key that signed it. -/
structure Token where
  header : Header
  payload : Payload
  key : String

/-- The algorithms of the RSA family. -/
def isRsa : Algorithm → Bool
  | .rs256 | .rs384 | .rs512 | .ps256 | .ps384 | .ps512 => true
  | _ => false

/-- The algorithm check of `decode` under an RSA key. -/
def allowed (t : Token) (v : Validation) : Bool :=
  v.algorithms.all isRsa && v.algorithms.contains t.header.alg

/-- The first claim check that fails, as an error: the required claims, `exp`, `nbf`, and
then the issuer. -/
def claimError (v : Validation) (p : Payload) (now : Int64) : JwtErrorKind :=
  match v.requiredSpecClaims.find? fun k => !Validation.hasRequired p k with
  | some k => .missingRequiredClaim k
  | none =>
      if !{ v with validateNbf := false, iss := none }.passes p now then .expiredSignature
      else if !{ v with iss := none }.passes p now then .immatureSignature
      else .invalidIssuer

/-- The signature check of `decode`. -/
def verifies (t : Token) (k : String) : Bool := t.key == k

/-- `jsonwebtoken::decode` under an RSA key. -/
def decode {C : Type} (de : Payload → Option C) (t : Token) (k : String) (v : Validation)
    (now : Int64) : Except JwtErrorKind C :=
  if !allowed t v then .error .invalidAlgorithm
  else if !verifies t k then .error .invalidSignature
  else
    match de t.payload with
    | none => .error (.other "JSON error")
    | some c =>
        if !v.passes t.payload now then .error (claimError v t.payload now)
        else if v.validateAud then
          match t.payload.field "aud" with
          | .missing => .ok c
          | _ => .error .invalidAudience
        else .ok c

/-- The length of the JSON text of a string. The quote, the backslash and the control
characters are escaped. -/
def stringLen (s : String) : Nat :=
  2 + (s.toList.map fun c =>
    if c = '"' ∨ c = '\\' ∨ c = '\n' ∨ c = '\r' ∨ c = '\t' ∨ c.toNat = 8 ∨ c.toNat = 12 then 2
    else if c.toNat < 32 then 6
    else c.utf8Size).sum

mutual

/-- The length of the JSON text of a value. A float is counted as its shortest texts are. -/
def valueLen : Value → Nat
  | .null => 4
  | .bool true => 4
  | .bool false => 5
  | .number (.int i) => (toString i).length
  | .number (.float _) => 3
  | .string s => stringLen s
  | .array xs => 1 + max 1 (valuesLen xs)
  | .object es => 1 + max 1 (entriesLen es)

/-- The elements of an array, each with the comma or bracket after it. -/
def valuesLen : List Value → Nat
  | [] => 0
  | v :: vs => valueLen v + 1 + valuesLen vs

/-- The entries of an object, each with its colon and the comma or brace after it. -/
def entriesLen : List (String × Value) → Nat
  | [] => 0
  | (k, v) :: es => stringLen k + 1 + valueLen v + 1 + entriesLen es

end

end Symbolic

/-- The third-party functions with symbolic keys. -/
def symbolic : Crates where
  Token := Symbolic.Token
  EncodingKey := String
  DecodingKey := String
  RsaPrivateKey := String
  RsaPublicKey := String
  encode h p k := .ok ⟨h, p, k⟩
  decodeHeader t := .ok t.header
  decode de t k v now := Symbolic.decode de t k v now
  errorText _ := "jwt error"
  privateFromPkcs8Pem pem := if pem.isEmpty then .error "missing PEM label" else .ok pem
  publicOf priv := priv
  encodingFromRsaPem pem := if pem.isEmpty then .error .invalidKeyFormat else .ok pem
  toPkcs1Pem pub := .ok pub
  decodingFromRsaPem pem := if pem.isEmpty then .error .invalidKeyFormat else .ok pem
  modulusText pub := pub
  exponentText _ := "AQAB"
  parseUuid := Uuid.parse
  uuidText := Uuid.text
  jsonLen m := 1 + max 1 (Symbolic.entriesLen m.toList)
  verifies t k := Symbolic.verifies t k
  allowed t _ v := Symbolic.allowed t v
  payload t := some t.payload

namespace Symbolic

/-- A claim that fails is not reported as a bad signature. -/
theorem claimError_ne (v : Validation) (p : Payload) (now : Int64) :
    claimError v p now ≠ .invalidSignature := by
  unfold claimError
  split
  · simp
  · split
    · simp
    · split <;> simp

/-- The sample library reports a bad signature for exactly the tokens of an allowed algorithm that
another key has signed. -/
theorem decode_invalidSignature {C : Type} (de : Payload → Option C) (t : Token) (k : String)
    (v : Validation) (now : Int64) : decode de t k v now = .error .invalidSignature
      ↔ allowed t v = true ∧ verifies t k = false := by
  have hne := claimError_ne v t.payload now
  unfold decode
  cases ha : allowed t v with
  | false => simp
  | true =>
      cases hk : verifies t k with
      | false => simp
      | true =>
          simp only [Bool.not_true, Bool.false_eq_true, if_false, Bool.true_eq_false, and_false,
            iff_false]
          split
          · simp
          · split
            · simpa using hne
            · split
              · split <;> simp
              · simp

/-- The sample library accepts a token of an allowed algorithm and a good signature whose payload
deserializes and passes the checks of its claims. -/
theorem decode_ok {C : Type} (de : Payload → Option C) (t : Token) (k : String)
    (v : Validation) (now : Int64) (c : C) (haud : v.validateAud = false) :
    decode de t k v now = .ok c
      ↔ allowed t v = true ∧ verifies t k = true
        ∧ ∃ p, some t.payload = some p ∧ de p = some c ∧ v.passes p now = true := by
  unfold decode
  cases allowed t v with
  | false => simp
  | true =>
      cases verifies t k with
      | false => simp
      | true =>
          cases hde : de t.payload with
          | none => simp [hde]
          | some d => cases hp : v.passes t.payload now <;> simp [haud, hde, hp]

/-- An accepted token has an allowed algorithm and the signature of the key. -/
theorem verifies_of_decode {C : Type} {de : Payload → Option C} {t : Token} {k : String}
    {v : Validation} {now : Int64} {c : C} (h : decode de t k v now = .ok c) :
    allowed t v = true ∧ verifies t k = true := by
  unfold decode at h
  cases ha : allowed t v with
  | false => simp [ha] at h
  | true =>
      cases hk : verifies t k with
      | false => simp [ha, hk] at h
      | true => exact ⟨rfl, rfl⟩

/-- The key enters `decode` through the signature check only. -/
theorem decode_key {C : Type} (de : Payload → Option C) (t : Token) (k k' : String)
    (v : Validation) (now : Int64)
    (h : allowed t v = true → verifies t k = verifies t k') :
    decode de t k v now = decode de t k' v now := by
  unfold decode
  cases ha : allowed t v with
  | false => rfl
  | true => rw [h ha]

end Symbolic

/-- The sample library meets the laws of `decode`. -/
theorem symbolic_decode : DecodeLaws symbolic where
  invalidSignature_iff de t k v now := Symbolic.decode_invalidSignature de t k v now
  verifies_of_ok _ _ _ _ _ _ h := Symbolic.verifies_of_decode h
  key_irrelevant de t k k' v now _ h := Symbolic.decode_key de t k k' v now h
  ok_iff de t k v now c haud := Symbolic.decode_ok de t k v now c haud
  allowed_rsa _ _ _ _ _ _ _ _ := rfl
  allowed_algorithms t _ v v' h := by
    show Symbolic.allowed t v = Symbolic.allowed t v'
    unfold Symbolic.allowed
    rw [h]
  allowed_rs256 t h v pem k _ hh halg hv := by
    cases hh
    show Symbolic.allowed t v = true
    simp [Symbolic.allowed, hv, halg, Symbolic.isRsa]

/-- The sample library meets the laws of `encode`. -/
theorem symbolic_encode : EncodeLaws symbolic where
  header_of_encode h p ek t ht := by
    cases ht
    rfl
  payload_of_encode h c ek t ht := by
    cases ht
    exact ⟨c, ⟨c.extra, ⟨fun _ => Iff.rfl, fun _ _ => Iff.rfl⟩, rfl⟩, rfl⟩
  verifies_of_encode pem priv ek pubPem dk h p t hpriv henc hpub hdec _ ht := by
    simp only [symbolic] at hpriv henc hpub hdec ht ⊢
    cases ht
    split at hpriv
    · cases hpriv
    · cases hpriv
      split at henc
      · cases henc
      · cases henc
        cases hpub
        split at hdec
        · cases hdec
        · cases hdec
          simp [Symbolic.verifies]

namespace Symbolic

/-- The key pair of a PEM text. -/
def keyPair (pem kid : String) (h : pem.isEmpty = false := by decide) : KeyPair symbolic where
  kid := kid
  encoding := pem
  decoding := pem
  pub := pem
  fromPem := ⟨pem, pem, pem, by simp [symbolic, h]⟩

/-- A signer with one key. -/
def signer (pem kid : String) (h : pem.isEmpty = false := by decide) : JwtSigner symbolic where
  current := keyPair pem kid h
  previous := none
  previousRetiresAt := none
  kids_differ := by simp

end Symbolic

/-- The sample library reads back every JSON value exactly as it was written. -/
theorem symbolic_exact : symbolic.JsonExact := by
  intro h p ek t ht
  cases ht
  rfl

/-- The sample library meets the laws of UUID texts. -/
theorem symbolic_uuid : UuidLaws symbolic where
  parse_text u := by
    simp only [symbolic]
    exact Uuid.parse_text u

/-! ### The session cipher -/

namespace Symbolic

/-- The length of an authentication tag. -/
def tagLen : Nat := 16

/-- The tag of a key given by its bytes. -/
def tag (key : Bytes) : Bytes := key.take tagLen

/-- The JSON text of the empty profile. -/
def emptyJson : Bytes := [0x7b, 0x7d]

/-- A profile with its JSON text, and the profile that is read from this text. -/
structure ProfileText where
  text : Bytes
  written : ClaimMap
  read : ClaimMap

/-- The profile of an e-mail address. -/
def emailProfile : ClaimMap := (∅ : ClaimMap).insert "email" (.string "alice@idp.test")

/-- A profile with a score, given by its bits. -/
def scoreProfile (bits : UInt64) : ClaimMap := (∅ : ClaimMap).insert "score" (.number (.float bits))

/-- The profiles that the codec knows. `serde_json` reads the score 95.48681957017631 as the next
float. -/
def profileTexts : List ProfileText :=
  [⟨emptyJson, ∅, ∅⟩,
   ⟨asBytes "\x7b\"email\":\"alice@idp.test\"\x7d", emailProfile, emailProfile⟩,
   ⟨asBytes "\x7b\"score\":95.48681957017631\x7d", scoreProfile 4636419704515542385,
    scoreProfile 4636419704515542386⟩]

/-- Whether two values are the same string or number. -/
def sameScalar : Value → Value → Bool
  | .number n, .number n' => decide (n = n')
  | .string s, .string s' => decide (s = s')
  | _, _ => false

/-- Whether two objects have the same entries, all of them strings or numbers. -/
def sameEntries : Payload → Payload → Bool
  | [], [] => true
  | (k, v) :: p, (k', v') :: p' => decide (k = k') && (sameScalar v v' && sameEntries p p')
  | _, _ => false

/-- The session cipher and the profile codec. -/
def sealing : SealCrates where
  Key := Bytes
  encrypt key _ plaintext := .ok (plaintext ++ tag key)
  decrypt key _ ct :=
    let pt := ct.take (ct.length - (tag key).length)
    if pt ++ tag key = ct then .ok pt else .error "aead::Error"
  toVec m := match profileTexts.find? fun t => sameEntries m.toList t.written.toList with
    | some t => .ok t.text
    | none => .error "not supported"
  fromSlice b := match profileTexts.find? fun t => decide (t.text = b) with
    | some t => .ok t.read
    | none => .error "not supported"

/-- The test of two scalars by their constructors is sound. It stands in for a decision procedure
that values do not have, since objects are maps. -/
theorem sameScalar_eq {v v' : Value} (h : sameScalar v v' = true) : v = v' := by
  unfold sameScalar at h
  split at h
  · exact congrArg Value.number (of_decide_eq_true h)
  · exact congrArg Value.string (of_decide_eq_true h)
  · cases h

/-- The test of two payloads without nested values is sound. -/
theorem sameEntries_eq {p p' : Payload} (h : sameEntries p p' = true) : p = p' := by
  induction p generalizing p' with
  | nil =>
      cases p' with
      | nil => rfl
      | cons e p' => cases h
  | cons e p ih =>
      cases p' with
      | nil => cases h
      | cons e' p' =>
          simp only [sameEntries, Bool.and_eq_true, decide_eq_true_eq] at h
          obtain ⟨hk, hv, hp⟩ := h
          rw [Prod.ext hk (sameScalar_eq hv), ih hp]

/-- Maps with the same entries are the same. -/
theorem eq_of_toList_eq {m m' : ClaimMap} (h : m.toList = m'.toList) : m = m' := by
  refine Std.ExtTreeMap.ext_getElem? fun k => Option.ext fun v => ?_
  rw [← Std.ExtTreeMap.mem_toList_iff_getElem?_eq_some, h,
    Std.ExtTreeMap.mem_toList_iff_getElem?_eq_some]

/-- A text belongs to one profile only. -/
theorem find_text {t : ProfileText} (ht : t ∈ profileTexts) :
    profileTexts.find? (fun t' => decide (t'.text = t.text)) = some t := by
  simp only [profileTexts, List.mem_cons, List.not_mem_nil, or_false] at ht
  rcases ht with rfl | rfl | rfl <;> rfl

/-- A score has no string, whatever its bits are. -/
theorem sameStrings_score (bits bits' : UInt64) :
    SameStrings (scoreProfile bits) (scoreProfile bits') := by
  constructor
  · intro k
    unfold scoreProfile
    rw [Std.ExtTreeMap.getElem?_insert, Std.ExtTreeMap.getElem?_insert]
    split <;> simp
  · intro k s
    unfold scoreProfile
    rw [Std.ExtTreeMap.getElem?_insert, Std.ExtTreeMap.getElem?_insert]
    split <;> simp

/-- Every profile of the table is read back with the strings that it was written with. -/
theorem sameStrings_read {t : ProfileText} (ht : t ∈ profileTexts) :
    SameStrings t.written t.read := by
  simp only [profileTexts, List.mem_cons, List.not_mem_nil, or_false] at ht
  rcases ht with rfl | rfl | rfl
  · exact ⟨fun _ => Iff.rfl, fun _ _ => Iff.rfl⟩
  · exact ⟨fun _ => Iff.rfl, fun _ _ => Iff.rfl⟩
  · exact sameStrings_score _ _

/-- The sample cipher opens what it has sealed under the same key and nonce. -/
theorem sealing_decrypts : sealing.Decrypts := by
  intro key n p c h
  cases h
  have htake : (p ++ tag key).take ((p ++ tag key).length - (tag key).length) = p := by
    rw [List.length_append, Nat.add_sub_cancel, List.take_left]
  show (if _ ++ tag key = p ++ tag key then Except.ok _ else _) = _
  rw [htake, if_pos rfl]

/-- The sample cipher and its table of profiles meet the laws of `SealCrates`. -/
theorem sealing_laws : SealLaws sealing where
  decrypts := sealing_decrypts
  fromSlice_toVec m b m' hto hfrom := by
    simp only [sealing] at hto hfrom
    split at hto
    · rename_i t hfind
      cases hto
      have ht := List.mem_of_find?_eq_some hfind
      have hsame : sameEntries m.toList t.written.toList = true :=
        List.find?_some (p := fun t : ProfileText => sameEntries m.toList t.written.toList)
          hfind
      have hm : m = t.written := eq_of_toList_eq (sameEntries_eq hsame)
      rw [find_text ht] at hfrom
      cases hfrom
      rw [hm]
      exact sameStrings_read ht
    · cases hto

/-- The codec writes and reads back the e-mail address. -/
theorem email_roundTrips : sealing.RoundTrips emailProfile := ⟨_, rfl, rfl⟩

/-! ### The OAuth2 flow -/

/-- The digit of a number below 64 in the URL-safe alphabet. -/
def base64Digit (n : Nat) : Char :=
  "ABCDEFGHIJKLMNOPQRSTUVWXYZabcdefghijklmnopqrstuvwxyz0123456789-_".toList.getD n 'A'

/-- The base64 digits of some bytes, without padding. -/
def base64Digits : Bytes → List Char
  | [] => []
  | [a] => [base64Digit (a.toNat / 4), base64Digit (a.toNat % 4 * 16)]
  | [a, b] => [base64Digit (a.toNat / 4), base64Digit (a.toNat % 4 * 16 + b.toNat / 16),
      base64Digit (b.toNat % 16 * 4)]
  | a :: b :: c :: rest => base64Digit (a.toNat / 4)
      :: base64Digit (a.toNat % 4 * 16 + b.toNat / 16)
      :: base64Digit (b.toNat % 16 * 4 + c.toNat / 64) :: base64Digit (c.toNat % 64)
      :: base64Digits rest

/-- A byte of a form-urlencoded text. -/
def urlencodeByte (b : UInt8) : List Char :=
  let c := Char.ofNat b.toNat
  if c.isAlphanum || ['*', '-', '.', '_'].contains c then [c]
  else if c = ' ' then ['+']
  else ['%', (Nat.digitChar (b.toNat / 16)).toUpper, (Nat.digitChar (b.toNat % 16)).toUpper]

/-- A form-urlencoded text. -/
def urlencode (s : String) : String := String.ofList ((asBytes s).flatMap urlencodeByte)

/-- A URL with pairs appended to its query. -/
def appendPairs (url : String) (pairs : List (String × String)) : String :=
  url ++ (if url.toList.contains '?' then "&" else "?")
    ++ "&".intercalate (pairs.map fun p => urlencode p.1 ++ "=" ++ urlencode p.2)

/-- A JWK of an RSA key. -/
def rsaJwk : Value → Option OAuth.Jwk
  | .object p => do
      let kty ← (Payload.field p "kty").required Value.asStr
      let kid ← (Payload.field p "kid").optional Value.asStr
      let alg ← (Payload.field p "alg").optional Value.asStr
      let n ← (Payload.field p "n").required Value.asStr
      let e ← (Payload.field p "e").required Value.asStr
      if kty = "RSA" then return ⟨kid, alg, .rsa n e⟩ else none
  | _ => none

/-- The functions of the OAuth2 flow, with the tokens and the JSON bodies of two tables. -/
def oauth (tokens : List (String × Token)) (bodies : List (String × Payload)) :
    OAuth.OAuthCrates where
  toCrates := symbolic
  compact text := (tokens.lookup text).getD ⟨⟨.hs256, none⟩, [], ""⟩
  fromRsaComponents n _ := if n.isEmpty then .error .invalidKeyFormat else .ok n
  fromEcComponents _ _ := .error .invalidKeyFormat
  jwkSetFromValue values := values.mapM rsaJwk
  fromJson de text := match bodies.lookup text with
    | none => .error "expected value at line 1 column 1"
    | some p => match de p with
        | none => .error "invalid type or missing field"
        | some c => .ok c
  statusText n := toString n
  appendPairs url pairs := .ok (appendPairs url pairs)
  base64Url b := String.ofList (base64Digits b)
  sha256 b := b.take 32

/-- The sample encoding of random bytes meets the laws that the flow relies on. -/
theorem oauth_base64 (tokens : List (String × Token)) (bodies : List (String × Payload)) :
    OAuth.Base64Laws (oauth tokens bodies) where
  base64Url_ne_empty b hb hempty := by
    have hnil : base64Digits b = [] := String.ofList_eq_empty_iff.mp hempty
    unfold base64Digits at hnil
    split at hnil
    · exact hb rfl
    · cases hnil
    · cases hnil
    · cases hnil

end Symbolic

end Tim
