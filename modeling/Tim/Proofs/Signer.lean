import Tim.Model.Symbolic

/-!
# `Tim.Proofs.Signer`: verification and JWKS describe the same keys

`Publishes s now key` says that `key` is one of the signer's keys and that `jwks` lists it at
`now`. `verifyRaw` is compared with it in both directions.

* `verifies_of_verifyRaw`: what `verifyRaw` accepts verifies under a published key.
* `verifyRaw_of_kid` and `verifyRaw_of_no_kid`: a token that a published key verifies, and
  that names this key or no key, gets the answer of `decode` under this key.

The one place where the order of the two keys could show is a token without `kid` that
verifies under the predecessor. The current key is tried first there. `decode_of_published`
says why it cannot decide anything: under another RSA key, `decode` either reports
`InvalidSignature` or answers the same.
-/

set_option autoImplicit false

namespace Tim

namespace JwtSigner

variable {K : Crates}

/-- `jwks` lists the key at `now`, and the key is one of the signer's own. -/
def Publishes (s : JwtSigner K) (now : DateTime) (key : KeyPair K) : Prop :=
  (key = s.current ∨ s.previous = some key) ∧ key.jwkJson ∈ s.jwks now

/-! ### The published keys -/

/-- The active predecessor is the predecessor. -/
theorem previous_of_activePrevious {s : JwtSigner K} {now : DateTime} {prev : KeyPair K}
    (h : s.activePrevious now = some prev) : s.previous = some prev := by
  unfold activePrevious at h
  split at h
  · cases h
  · split at h
    · cases h
    · exact h

/-- From `retires_at` on there is no active predecessor. -/
theorem activePrevious_retired {s : JwtSigner K} {now retires : DateTime}
    (hr : s.previousRetiresAt = some retires) (hle : retires ≤ now) :
    s.activePrevious now = none := by
  unfold activePrevious
  rw [hr]
  exact if_pos hle

/-- The current key is published at all times. -/
theorem publishes_current (s : JwtSigner K) (now : DateTime) : s.Publishes now s.current := by
  refine ⟨.inl rfl, ?_⟩
  unfold jwks
  split <;> simp

/-- The predecessor is published while it is active. -/
theorem publishes_activePrevious {s : JwtSigner K} {now : DateTime} {prev : KeyPair K}
    (h : s.activePrevious now = some prev) : s.Publishes now prev := by
  refine ⟨.inr (previous_of_activePrevious h), ?_⟩
  unfold jwks
  rw [h]
  simp

/-- A published key is the current one or the active predecessor. The kids tell the two
apart, so a JWKS entry cannot stand for the other key. -/
theorem Publishes.cases {s : JwtSigner K} {now : DateTime} {key : KeyPair K}
    (h : s.Publishes now key) : key = s.current ∨ s.activePrevious now = some key := by
  obtain ⟨hown | hown, hmem⟩ := h
  · exact .inl hown
  · right
    have hne : key.kid ≠ s.current.kid := s.kids_differ key hown
    have hcur : key.jwkJson ≠ s.current.jwkJson := fun heq => hne (congrArg Jwk.kid heq)
    unfold jwks at hmem
    split at hmem
    · rename_i prev hact
      have := previous_of_activePrevious hact
      rw [hown] at this
      rw [hact, this]
    · simp [hcur] at hmem

/-- The kids of `jwks` are pairwise distinct. -/
theorem nodup_kids (s : JwtSigner K) (now : DateTime) :
    ((s.jwks now).map Jwk.kid).Nodup := by
  unfold jwks
  split
  · rename_i prev hact
    have hne : prev.kid ≠ s.current.kid := s.kids_differ prev (previous_of_activePrevious hact)
    simp [KeyPair.jwkJson, Ne.symm hne]
  · simp

/-! ### Routing by `kid` -/

/-- A token without a key id is not routed to the predecessor. -/
theorem routed_none_of_no_kid {s : JwtSigner K} {now : DateTime} {token : K.Token} {hd : Header}
    (hhd : K.decodeHeader token = .ok hd) (hkid : hd.kid = none) :
    s.routed now token = none := by
  unfold routed
  rw [hhd]
  simp only [hkid]

/-- A token that names the current key is not routed to the predecessor. -/
theorem routed_none_of_current {s : JwtSigner K} {now : DateTime} {token : K.Token} {hd : Header}
    (hhd : K.decodeHeader token = .ok hd) (hkid : hd.kid = some s.current.kid) :
    s.routed now token = none := by
  unfold routed
  rw [hhd]
  simp only [hkid]
  unfold activePreviousMatching
  split
  · rfl
  · rename_i prev hact
    exact if_neg (s.kids_differ prev (previous_of_activePrevious hact))

/-- A token with the key id of the active predecessor is routed to it. -/
theorem routed_of_activePrevious {s : JwtSigner K} {now : DateTime} {token : K.Token}
    {hd : Header} {prev : KeyPair K} (hhd : K.decodeHeader token = .ok hd)
    (hkid : hd.kid = some prev.kid) (hact : s.activePrevious now = some prev) :
    s.routed now token = some prev := by
  unfold routed
  rw [hhd]
  simp only [hkid]
  unfold activePreviousMatching
  rw [hact]
  exact if_pos rfl

/-- A token is routed to the active predecessor only. -/
theorem activePrevious_of_routed {s : JwtSigner K} {now : DateTime} {token : K.Token}
    {prev : KeyPair K} (h : s.routed now token = some prev) :
    s.activePrevious now = some prev := by
  unfold routed at h
  split at h
  · cases h
  · split at h
    · cases h
    · unfold activePreviousMatching at h
      split at h
      · cases h
      · rename_i p hact
        split at h
        · cases h
          exact hact
        · cases h

/-! ### `verifyRaw` -/

/-- Without an active predecessor the current key decides alone. -/
theorem verifyRaw_of_inactive {C : Type} {s : JwtSigner K} {now : DateTime}
    (h : s.activePrevious now = none) (de : Payload → Option C) (token : K.Token)
    (v : Validation) :
    s.verifyRaw now de token v = K.decode de token s.current.decoding v now.timestamp := by
  have hrt : s.routed now token = none := by
    cases hrouted : s.routed now token with
    | none => rfl
    | some prev =>
        rw [activePrevious_of_routed hrouted] at h
        cases h
  unfold verifyRaw
  rw [hrt, h]
  cases K.decode de token s.current.decoding v now.timestamp with
  | ok d => rfl
  | error e => cases e <;> rfl

/-- Without routing, a token that the current key verifies gets `decode`'s answer under it. -/
theorem verifyRaw_current (laws : DecodeLaws K) {C : Type} {s : JwtSigner K} {now : DateTime}
    {de : Payload → Option C} {token : K.Token} {v : Validation}
    (hrt : s.routed now token = none) (hver : K.verifies token s.current.decoding = true) :
    s.verifyRaw now de token v = K.decode de token s.current.decoding v now.timestamp := by
  have hsig : K.decode de token s.current.decoding v now.timestamp ≠ .error .invalidSignature := by
    intro h
    have := ((laws.invalidSignature_iff de token _ v _).mp h).2
    rw [hver] at this
    cases this
  unfold verifyRaw
  rw [hrt]
  simp only
  split
  · rename_i d hd
    rw [hd]
  · rename_i e he
    rw [he] at hsig ⊢
    cases e with
    | invalidSignature => exact absurd rfl hsig
    | _ => rfl

/-- `decode` under another RSA key reports `InvalidSignature`, or it answers as under a key
that verifies the token. -/
theorem decode_of_published (laws : DecodeLaws K) {C : Type} (de : Payload → Option C)
    (token : K.Token) (v : Validation) (now : Int64) (k k' : KeyPair K)
    (hver : K.verifies token k.decoding = true) :
    K.decode de token k'.decoding v now = .error .invalidSignature
      ∨ K.decode de token k'.decoding v now = K.decode de token k.decoding v now := by
  obtain ⟨_, _, pem, _, _, _, _, hdec⟩ := k.fromPem
  obtain ⟨_, _, pem', _, _, _, _, hdec'⟩ := k'.fromPem
  have hallow : K.allowed token k'.decoding v = K.allowed token k.decoding v :=
    laws.allowed_rsa token v pem' _ pem _ hdec' hdec
  by_cases hbad : K.allowed token k'.decoding v = true ∧ K.verifies token k'.decoding = false
  · exact .inl ((laws.invalidSignature_iff de token _ v now).mpr hbad)
  · right
    apply laws.key_irrelevant de token _ _ v now hallow
    intro ha
    have : K.verifies token k'.decoding ≠ false := fun hf => hbad ⟨ha, hf⟩
    rw [hver]
    simpa using this

/-- Only a token that a published key verifies is accepted. -/
theorem verifies_of_verifyRaw (laws : DecodeLaws K) {C : Type} {s : JwtSigner K}
    {now : DateTime} {de : Payload → Option C} {token : K.Token} {v : Validation} {c : C}
    (h : s.verifyRaw now de token v = .ok c) :
    ∃ key, s.Publishes now key ∧ K.verifies token key.decoding = true
      ∧ K.decode de token key.decoding v now.timestamp = .ok c := by
  have hkey : ∀ key : KeyPair K, s.Publishes now key →
      K.decode de token key.decoding v now.timestamp = .ok c →
      ∃ key, s.Publishes now key ∧ K.verifies token key.decoding = true
        ∧ K.decode de token key.decoding v now.timestamp = .ok c :=
    fun key hpub hok => ⟨key, hpub, (laws.verifies_of_ok de token _ v _ c hok).2, hok⟩
  unfold verifyRaw at h
  split at h
  · rename_i prev hrt
    exact hkey prev (publishes_activePrevious (activePrevious_of_routed hrt)) h
  · split at h
    · rename_i d hd
      cases h
      exact hkey s.current (publishes_current s now) hd
    · split at h
      · split at h
        · rename_i prev hact
          exact hkey prev (publishes_activePrevious hact) h
        · cases h
      · cases h

/-- A token that names a published key, and verifies under it, is decided by this key. -/
theorem verifyRaw_of_kid (laws : DecodeLaws K) {C : Type} {s : JwtSigner K} {now : DateTime}
    {de : Payload → Option C} {token : K.Token} {v : Validation} {hd : Header} {key : KeyPair K}
    (hpub : s.Publishes now key) (hhd : K.decodeHeader token = .ok hd)
    (hkid : hd.kid = some key.kid) (hver : K.verifies token key.decoding = true) :
    s.verifyRaw now de token v = K.decode de token key.decoding v now.timestamp := by
  rcases hpub.cases with rfl | hact
  · exact verifyRaw_current laws (routed_none_of_current hhd hkid) hver
  · unfold verifyRaw
    rw [routed_of_activePrevious hhd hkid hact]

/-- A token that is not routed is decided by any published key that verifies it. -/
theorem verifyRaw_of_unrouted (laws : DecodeLaws K) {C : Type} {s : JwtSigner K} {now : DateTime}
    {de : Payload → Option C} {token : K.Token} {v : Validation} {key : KeyPair K}
    (hpub : s.Publishes now key) (hrt : s.routed now token = none)
    (hver : K.verifies token key.decoding = true) :
    s.verifyRaw now de token v = K.decode de token key.decoding v now.timestamp := by
  rcases hpub.cases with rfl | hact
  · exact verifyRaw_current laws hrt hver
  · -- The current key is tried first. It says `InvalidSignature` or answers the same.
    rcases decode_of_published laws de token v now.timestamp key s.current hver with hbad | hsame
    · unfold verifyRaw
      rw [hrt]
      simp only [hbad, hact]
    · cases hcur : K.verifies token s.current.decoding with
      | true => rw [verifyRaw_current laws hrt hcur, hsame]
      | false =>
          unfold verifyRaw
          rw [hrt]
          simp only [hact, hsame]
          split
          · rename_i d hd'
            rw [hd']
          · rename_i e he
            rw [he]
            split <;> rfl

/-- A token without `kid` is decided by any published key that verifies it. -/
theorem verifyRaw_of_no_kid (laws : DecodeLaws K) {C : Type} {s : JwtSigner K} {now : DateTime}
    {de : Payload → Option C} {token : K.Token} {v : Validation} {hd : Header} {key : KeyPair K}
    (hpub : s.Publishes now key) (hhd : K.decodeHeader token = .ok hd)
    (hkid : hd.kid = none) (hver : K.verifies token key.decoding = true) :
    s.verifyRaw now de token v = K.decode de token key.decoding v now.timestamp :=
  verifyRaw_of_unrouted laws hpub (routed_none_of_no_kid hhd hkid) hver

/-! ### Tokens of `sign` -/

/-- A signed token is one that the library has encoded with the current key. -/
theorem encode_of_sign {s : JwtSigner K} {claims : Payload} {token : K.Token}
    (h : s.sign claims = .ok token) :
    K.encode { alg := .rs256, kid := some s.current.kid } claims s.current.encoding
      = .ok token := by
  unfold sign at h
  split at h
  · rename_i t ht
    cases h
    exact ht
  · cases h

/-- A signed token names the current key and verifies under it. -/
theorem sign_spec (enc : EncodeLaws K) {s : JwtSigner K} {claims : Payload} {token : K.Token}
    (h : s.sign claims = .ok token) :
    K.decodeHeader token = .ok { alg := .rs256, kid := some s.current.kid }
      ∧ K.verifies token s.current.decoding = true := by
  have henc := encode_of_sign h
  obtain ⟨pem, priv, pubPem, hpriv, hpub, hek, hpem, hdk⟩ := s.current.fromPem
  rw [hpub] at hpem
  exact ⟨enc.header_of_encode _ _ _ _ henc,
    enc.verifies_of_encode _ _ _ _ _ _ _ _ hpriv hek hpem hdk rfl henc⟩

/-- A signed token is decided by the current key, whatever the predecessor is. -/
theorem verifyRaw_of_sign (laws : DecodeLaws K) (enc : EncodeLaws K) {C : Type}
    {s s' : JwtSigner K} {claims : Payload} {token : K.Token} (h : s.sign claims = .ok token)
    (hcur : s'.current = s.current) (now : DateTime) (de : Payload → Option C) (v : Validation) :
    s'.verifyRaw now de token v = K.decode de token s.current.decoding v now.timestamp := by
  obtain ⟨hhd, hver⟩ := sign_spec enc h
  rw [← hcur] at hhd hver ⊢
  exact verifyRaw_of_kid laws (publishes_current s' now) hhd rfl hver

/-! ### Signers built by a sequence of calls -/

/-- A predecessor does not change the current key, and it comes with its own end. -/
theorem withPrevious_spec {s s' : JwtSigner K} {pem kid : String} {retires : DateTime}
    (h : s.withPrevious pem kid retires = .ok s') :
    s'.current = s.current ∧ s'.previousRetiresAt = some retires := by
  unfold withPrevious at h
  split at h
  · cases h
  · split at h
    · cases h
    · cases h
      exact ⟨rfl, rfl⟩

/-- A sequence of `with_previous` calls keeps the current key, and the last call sets the
instant of retirement. -/
theorem withPrevious_seq {prevs : List (String × String × DateTime)} {s s' : JwtSigner K}
    (h : prevs.foldlM (fun s p => s.withPrevious p.1 p.2.1 p.2.2) s = .ok s') :
    s'.current = s.current
      ∧ ∀ p, prevs.getLast? = some p → s'.previousRetiresAt = some p.2.2 := by
  induction prevs generalizing s with
  | nil =>
      cases h
      exact ⟨rfl, by simp⟩
  | cons q qs ih =>
      rw [List.foldlM_cons] at h
      cases hq : s.withPrevious q.1 q.2.1 q.2.2 with
      | error e =>
          rw [hq] at h
          cases h
      | ok s₁ =>
          rw [hq] at h
          obtain ⟨hcur, hret⟩ := withPrevious_spec hq
          obtain ⟨hcur', hlast⟩ := ih h
          refine ⟨hcur'.trans hcur, fun p hp => ?_⟩
          cases qs with
          | nil =>
              cases h
              cases hp
              exact hret
          | cons q' qs =>
              rw [List.getLast?_cons_cons] at hp
              exact hlast p hp

/-- Of several predecessors the last one stays, with its end. -/
theorem build_retires {pem kid : String} {prevs : List (String × String × DateTime)}
    {s : JwtSigner K} (h : build K pem kid prevs = .ok s) :
    ∀ p, prevs.getLast? = some p → s.previousRetiresAt = some p.2.2 := by
  unfold build at h
  cases h₀ : fromPkcs8Pem K pem kid with
  | error e =>
      rw [h₀] at h
      cases h
  | ok s₀ =>
      rw [h₀] at h
      exact (withPrevious_seq h).2

end JwtSigner

end Tim
