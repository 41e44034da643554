import Tim.Proofs.Session

/-!
# `Tim.Proofs.Seal`: what the session cipher opens

A sealed blob is a nonce and a ciphertext. `seal` joins the two and `open` cuts them apart again, so
a blob opens exactly when some `seal` under the same key makes it (`open_eq_ok_iff_seal`). Blobs
that are too short for a nonce and a tag, that were cut, or that come from another key and are not
among these give an error. The two calls of `open` that can panic never do (`openOrPanic_eq`).

* `exists_error_iff`: the blobs that give an error.
* `sealed_profiles`: the round trip, and what becomes of the other blobs.
-/

set_option autoImplicit false

namespace Tim

/-- The length of an authentication tag. -/
def tagLen : Nat := 16

/-- What is assumed of the AEAD: it takes every message under a nonce of the right length and adds
a tag to it, decrypting gives the message back (correctness), and only what encrypting makes under
this key and nonce decrypts (authenticity). -/
structure AeadLaws (A : SealCrates) : Prop where
  encrypt_ok : ∀ k (n : Nonce) p, ∃ c, A.encrypt k n.toList p = .ok c
  length_encrypt : ∀ k n p c, A.encrypt k n p = .ok c → c.length = p.length + tagLen
  decrypt_encrypt : ∀ k n p c, A.encrypt k n p = .ok c → A.decrypt k n c = .ok p
  encrypt_decrypt : ∀ k n p c, A.decrypt k n c = .ok p → A.encrypt k n p = .ok c

namespace SessionCipher

variable {A : SealCrates} {cipher : SessionCipher A} {blob pt : Bytes}

/-- The length check comes first, so neither call panics. -/
theorem openOrPanic_eq (cipher : SessionCipher A) (blob : Bytes) :
    cipher.openOrPanic blob = some (cipher.open_ blob) := by
  unfold openOrPanic open_
  by_cases hshort : blob.length < nonceLen
  · rw [if_pos hshort, if_pos hshort]
  · have hlong : nonceLen ≤ blob.length := Nat.not_lt.mp hshort
    have htake : (blob.take nonceLen).length = nonceLen := by
      rw [List.length_take, Nat.min_eq_left hlong]
    rw [if_neg hshort, if_neg hshort, splitAt, if_pos hlong]
    simp only [Option.bind_eq_bind, Option.bind_some, nonceFromSlice, htake, if_true]
    cases A.decrypt cipher.inner (blob.take nonceLen) (blob.drop nonceLen) with
    | error e => rfl
    | ok pt => rfl

/-- What opens is at least as long as a nonce, and the cipher decrypts the rest under it. -/
theorem open_eq_ok :
    cipher.open_ blob = .ok pt ↔ nonceLen ≤ blob.length
      ∧ A.decrypt cipher.inner (blob.take nonceLen) (blob.drop nonceLen) = .ok pt := by
  unfold open_
  by_cases hshort : blob.length < nonceLen
  · simp [hshort, Nat.not_le.mpr hshort]
  · rw [if_neg hshort]
    cases A.decrypt cipher.inner (blob.take nonceLen) (blob.drop nonceLen) with
    | error e => simp
    | ok p => simp [Nat.not_lt.mp hshort]

/-- A sealed blob is the nonce and then the ciphertext. -/
theorem seal_eq_ok {nonce : Nonce} :
    cipher.seal_ nonce pt = .ok blob
      ↔ ∃ ct, A.encrypt cipher.inner nonce.toList pt = .ok ct ∧ blob = nonce.toList ++ ct := by
  unfold seal_
  cases A.encrypt cipher.inner nonce.toList pt with
  | error e => simp
  | ok ct => simp [eq_comm]

/-- The nonce that a blob starts with. -/
theorem exists_nonce (h : nonceLen ≤ blob.length) :
    ∃ nonce : Nonce, nonce.toList = blob.take nonceLen := by
  have htake : (blob.take nonceLen).length = 12 := by
    rw [List.length_take, Nat.min_eq_left h]
    rfl
  exact ⟨⟨(blob.take nonceLen).toArray, htake⟩, rfl⟩

variable (hlaws : AeadLaws A)

include hlaws

/-- A blob opens when its tail is the ciphertext of the plaintext under its first twelve bytes. -/
theorem open_eq_ok_iff :
    cipher.open_ blob = .ok pt ↔ nonceLen ≤ blob.length
      ∧ A.encrypt cipher.inner (blob.take nonceLen) pt = .ok (blob.drop nonceLen) := by
  rw [open_eq_ok]
  exact and_congr_right fun _ =>
    ⟨hlaws.encrypt_decrypt _ _ _ _, hlaws.decrypt_encrypt _ _ _ _⟩

/-- A blob opens to what was sealed, and only if it was. -/
theorem open_eq_ok_iff_seal :
    cipher.open_ blob = .ok pt ↔ ∃ nonce, cipher.seal_ nonce pt = .ok blob := by
  rw [open_eq_ok_iff hlaws]
  constructor
  · rintro ⟨hlong, hct⟩
    obtain ⟨nonce, hnonce⟩ := exists_nonce hlong
    rw [← hnonce] at hct
    refine ⟨nonce, seal_eq_ok.mpr ⟨_, hct, ?_⟩⟩
    rw [hnonce, List.take_append_drop]
  · rintro ⟨nonce, h⟩
    obtain ⟨ct, hct, rfl⟩ := seal_eq_ok.mp h
    have hlen : nonce.toList.length = nonceLen := nonce.length_toList
    rw [List.take_left' hlen, List.drop_left' hlen, List.length_append]
    exact ⟨by omega, hct⟩

/-- A blob without room for a nonce and a tag does not open. -/
theorem open_ne_ok_of_short (h : blob.length < nonceLen + tagLen) : cipher.open_ blob ≠ .ok pt := by
  intro hopen
  obtain ⟨hlong, hct⟩ := (open_eq_ok_iff hlaws).mp hopen
  have htail := hlaws.length_encrypt _ _ _ _ hct
  rw [List.length_drop] at htail
  omega

end SessionCipher

/-- What is no plaintext is an error. -/
theorem exists_error_iff {α : Type} {x : Except TimError α} :
    (∃ e, x = .error e) ↔ ∀ a, x ≠ .ok a := by
  cases x with
  | error e => simp
  | ok a => simp

open SessionCipher PostgresStore

/-- Sealed profiles open to themselves, and nothing opens that was not sealed under the same key.
A blob opens when its tail is the ciphertext of the plaintext under its first twelve bytes. All
others give an error: those without room for a nonce and a tag, and all that no `seal` under this
key makes, which is what authenticity says of a truncated blob and of one from another key. -/
theorem sealed_profiles {A : SealCrates} (hlaws : AeadLaws A) (cipher : SessionCipher A) :
    (∀ nonce profile, A.RoundTrips profile → ∃ sealed,
      sealProfile cipher nonce profile = .ok sealed ∧ openProfile cipher sealed = .ok profile)
    ∧ (∀ blob pt, cipher.open_ blob = .ok pt ↔ nonceLen ≤ blob.length
      ∧ A.encrypt cipher.inner (blob.take nonceLen) pt = .ok (blob.drop nonceLen))
    ∧ (∀ blob, cipher.openOrPanic blob = some (cipher.open_ blob))
    ∧ (∀ blob : Bytes, blob.length < nonceLen + tagLen → ∃ e, cipher.open_ blob = .error e)
    ∧ (∀ blob, (∃ e, cipher.open_ blob = .error e)
      ↔ ∀ nonce pt, cipher.seal_ nonce pt ≠ .ok blob) := by
  refine ⟨?_, fun blob pt => open_eq_ok_iff hlaws, openOrPanic_eq cipher, ?_, ?_⟩
  · rintro nonce profile ⟨json, hto, hfrom⟩
    obtain ⟨ct, hct⟩ := hlaws.encrypt_ok cipher.inner nonce json
    have hseal : cipher.seal_ nonce json = .ok (nonce.toList ++ ct) := seal_eq_ok.mpr ⟨ct, hct, rfl⟩
    have hopen : cipher.open_ (nonce.toList ++ ct) = .ok json :=
      (open_eq_ok_iff_seal hlaws).mpr ⟨nonce, hseal⟩
    refine ⟨nonce.toList ++ ct, ?_, ?_⟩
    · simp only [sealProfile, hto, hseal]
    · simp only [openProfile, hopen, hfrom]
  · intro blob hshort
    exact exists_error_iff.mpr fun pt => open_ne_ok_of_short hlaws hshort
  · intro blob
    rw [exists_error_iff, forall_comm]
    refine forall_congr' fun pt => ?_
    rw [ne_eq, open_eq_ok_iff_seal hlaws, not_exists]

namespace Symbolic

/-- The session cipher over keys of 32 bytes. -/
def envelope : SealCrates where
  Key := Vector UInt8 32
  encrypt key nonce plaintext := sealing.encrypt key.toList nonce plaintext
  decrypt key nonce ct := sealing.decrypt key.toList nonce ct
  toVec := sealing.toVec
  fromSlice := sealing.fromSlice

/-- The tag of the sample cipher has sixteen bytes. -/
theorem length_tag (key : Vector UInt8 32) : (tag key.toList).length = 16 := by
  simp [tag, tagLen]

/-- The sample cipher meets the laws of an AEAD. -/
theorem envelope_laws : AeadLaws envelope where
  encrypt_ok k n p := ⟨_, rfl⟩
  length_encrypt k n p c h := by
    cases h
    exact List.length_append.trans (congrArg (p.length + ·) (length_tag k))
  decrypt_encrypt k n p c h := sealing_decrypts k.toList n p c h
  encrypt_decrypt k n p c h := by
    simp only [envelope, sealing] at h ⊢
    split at h
    · rename_i hjoin
      cases h
      rw [hjoin]
    · cases h

/-- The cipher with the same byte all over its key. -/
def envelopeCipher (b : UInt8) : SessionCipher envelope := ⟨Vector.replicate 32 b⟩

end Symbolic

open Symbolic in
/-- The profile of an e-mail address, sealed under one key and opened under two. -/
theorem sealed_profiles_email :
    ∃ sealed, sealProfile (envelopeCipher 0xaa) (Vector.replicate 12 7) emailProfile = .ok sealed
      ∧ openProfile (envelopeCipher 0xaa) sealed = .ok emailProfile
      ∧ (∃ e, (envelopeCipher 0xbb).open_ sealed = .error e)
      ∧ ∃ e, (envelopeCipher 0xaa).open_ (sealed.take 20) = .error e := by
  obtain ⟨hround, -, -, hshort, -⟩ := sealed_profiles envelope_laws (envelopeCipher 0xaa)
  obtain ⟨sealed, hseal, hopen⟩ := hround (Vector.replicate 12 7) emailProfile email_roundTrips
  refine ⟨sealed, hseal, hopen, ?_, hshort _ ?_⟩
  · cases hseal
    exact ⟨_, rfl⟩
  · rw [List.length_take]
    exact Nat.lt_of_le_of_lt (Nat.min_le_left _ _) (by decide)

end Tim
