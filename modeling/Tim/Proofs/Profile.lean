import Tim.Proofs.Keys
import Tim.Proofs.Text
import Mathlib.Data.String.Basic

/-!
# `Tim.Proofs.Profile`: which claims of an ID token reach the profile

`serde` splits the payload of an ID token into seven named fields and the map of the rest.
`profile_from_claims` looks a mapped claim up in the rest, and knows three of the named fields by
name: `sub`, `iss` and `aud`. The other four are in neither place.

`mapped_claim_kept` compares the profile with the payload for a mapping to a top-level claim. They
agree unless the claim is `exp`, `iat` or `nonce`, or an `nbf` that is there.

* `profile_getElem?`: the profile at a mapped name.
* `unnamed_lastValue`: a claim that no field takes is in the rest.
* `lastValue_of_audField`: the audience as it was sent.
* `mapped_claim_lost`: a mapping to a claim that is in neither place.
-/

set_option autoImplicit false

namespace Tim.OAuth

open Tim.Lib Tim.Lib.Prog OAuthService

/-! ### Maps from lists -/

/-- The value that a key has in a JSON object: the last one written. -/
def Payload.lastValue (p : Payload) (k : String) : Option Value := (Payload.values p k).getLast?

/-- Inserted entries hide the earlier ones, and the last one by a name counts. -/
theorem insertMany_getElem? (m : ClaimMap) (p : Payload) (k : String) :
    (m.insertMany p)[k]? = (Payload.lastValue p k).or m[k]? := by
  induction p generalizing m with
  | nil => rfl
  | cons e p ih =>
      obtain ⟨k', v⟩ := e
      rw [Std.ExtTreeMap.insertMany_cons, ih, Std.ExtTreeMap.getElem?_insert]
      unfold Payload.lastValue Payload.values
      by_cases hk : k' = k
      · simp only [hk, Std.ReflCmp.compare_self, ↓reduceIte, List.filterMap_cons,
          List.getLast?_cons]
        cases (List.filterMap _ p).getLast? <;> rfl
      · simp [hk]

/-- A map of a list has the last entry by each name. -/
theorem ofList_getElem? (p : Payload) (k : String) :
    (Std.ExtTreeMap.ofList p : ClaimMap)[k]? = Payload.lastValue p k := by
  have h := insertMany_getElem? ∅ p k
  rw [Std.ExtTreeMap.getElem?_empty, Option.or_none] at h
  rw [← h, Std.ExtTreeMap.ofList_eq_insertMany_empty]

/-! ### A claim without a dot -/

/-- The segment that the loop of `splitOn` is in, cut out of the text. -/
theorem extract_part (done part rest : List Char) :
    String.Pos.Raw.extract (String.ofList (done ++ part ++ rest)) ⟨String.utf8Len done⟩
      ⟨String.utf8Len (done ++ part)⟩ = String.ofList part := by
  simpa [String.utf8Len_append] using String.extract_of_valid done part rest

/-- The loop of `splitOn` between two dots: `done` is behind it, `part` is the segment it is in. -/
theorem splitOnAux_dot (done part rest : List Char) (acc : List String) (h : '.' ∉ part) :
    String.splitOnAux (String.ofList (done ++ part ++ rest)) "." ⟨String.utf8Len done⟩
        ⟨String.utf8Len (done ++ part)⟩ 0 acc
      = acc.reverse ++ ((part ++ rest).splitOn '.').map String.ofList := by
  induction rest generalizing done part acc with
  | nil =>
      have hcut := extract_part done part []
      rw [List.append_nil] at hcut ⊢
      rw [List.append_nil, List.splitOn_eq_singleton h]
      have hend : String.Pos.Raw.atEnd (String.ofList (done ++ part))
          ⟨String.utf8Len (done ++ part)⟩ = true := by
        simpa using String.atEnd_of_valid (done ++ part) []
      unfold String.splitOnAux
      rw [if_pos hend, hcut]
      simp
  | cons c rest ih =>
      have hmore : ¬ String.Pos.Raw.atEnd (String.ofList (done ++ part ++ c :: rest))
          ⟨String.utf8Len (done ++ part)⟩ = true := by
        rw [String.atEnd_of_valid]
        simp
      have hget : String.Pos.Raw.get (String.ofList (done ++ part ++ c :: rest))
          ⟨String.utf8Len (done ++ part)⟩ = c := String.get_of_valid (done ++ part) (c :: rest)
      have hnext := String.next_of_valid (done ++ part) c rest
      have hdot : String.Pos.Raw.get "." 0 = '.' := rfl
      have hlen : String.utf8Len (done ++ part) + c.utf8Size
          = String.utf8Len (done ++ part ++ [c]) := by
        simp [String.utf8Len_append, Nat.add_assoc]
      unfold String.splitOnAux
      rw [if_neg hmore, hget, hdot]
      by_cases hc : c = '.'
      -- A dot ends the segment, and the next one starts behind it.
      · have hrest := ih (done ++ part ++ [c]) [] (String.ofList part :: acc) (by simp)
        have hback : (⟨String.utf8Len (done ++ part ++ [c])⟩ : String.Pos.Raw).unoffsetBy
            (String.Pos.Raw.next "." 0) = ⟨String.utf8Len (done ++ part)⟩ := by
          rw [← hlen, hc]
          rfl
        rw [if_pos (by simp [hc])]
        dsimp only
        rw [if_pos (by rfl), hnext, hlen, hback, extract_part, hc,
          List.splitOn_append_cons_self_of_not_mem h]
        simpa [hc] using hrest
      · have hback : (⟨String.utf8Len (done ++ part)⟩ : String.Pos.Raw).unoffsetBy 0
            = ⟨String.utf8Len (done ++ part)⟩ := rfl
        have hrest := ih done (part ++ [c]) acc (by simp [h, Ne.symm hc])
        rw [if_neg (by simpa using hc), hback, hnext, hlen]
        simpa using hrest

/-- The library's `splitOn` at a dot is the split at that character. -/
theorem splitOn_dot (s : String) : s.splitOn "." = splitChar s '.' := by
  have h := splitOnAux_dot [] [] s.toList [] (by simp)
  unfold splitChar
  simpa [String.splitOn] using h

/-- A name without a dot is a plain lookup. -/
theorem resolveClaimPath_of_noDot (extra : ClaimMap) {k : String} (h : '.' ∉ k.toList) :
    resolveClaimPath extra k = extra[k]? := by
  rw [resolveClaimPath, splitOn_dot, splitChar_single h]
  rfl

/-! ### The profile -/

section Fold

variable {β : Type} {f : β → Option Value} {l : List (String × β)} {c : String}

/-- The profile that a loop of inserts builds over the mappings. -/
abbrev profileOf (f : β → Option Value) (l : List (String × β)) (m : ClaimMap) : ClaimMap :=
  l.foldl (fun profile e => match f e.2 with
    | some v => profile.insert e.1 v
    | none => profile) m

/-- A name without a mapping is not touched. -/
theorem profileOf_of_notMem (hc : ∀ k, (c, k) ∉ l) (m : ClaimMap) :
    (profileOf f l m)[c]? = m[c]? := by
  induction l generalizing m with
  | nil => rfl
  | cons e l ih =>
      have hne : e.1 ≠ c := by
        rintro rfl
        exact hc e.2 List.mem_cons_self
      rw [profileOf, List.foldl_cons, ih fun k hk => hc k (List.mem_cons_of_mem _ hk)]
      split
      · simp [Std.ExtTreeMap.getElem?_insert, hne]
      · rfl

/-- A name with one mapping gets the claim that it names, or stays as it was. -/
theorem profileOf_of_mem {k : β} (hk : (c, k) ∈ l)
    (hdistinct : l.Pairwise fun a b => a.1 ≠ b.1) (m : ClaimMap) :
    (profileOf f l m)[c]? = (f k).or m[c]? := by
  induction l generalizing m with
  | nil => cases hk
  | cons e l ih =>
      rw [List.pairwise_cons] at hdistinct
      rw [profileOf, List.foldl_cons]
      rcases List.mem_cons.mp hk with rfl | hk
      · have hrest : ∀ k', (c, k') ∉ l := fun k' hk' => hdistinct.1 _ hk' rfl
        rw [profileOf_of_notMem hrest]
        cases f k with
        | none => rfl
        | some v => simp
      · have hne : e.1 ≠ c := fun heq => hdistinct.1 _ hk heq
        refine (ih hk hdistinct.2 _).trans ?_
        split
        · simp [Std.ExtTreeMap.getElem?_insert, hne]
        · rfl

/-- A map lists each name once. -/
theorem distinct_toList (m : Std.ExtTreeMap String β) :
    m.toList.Pairwise fun a b => a.1 ≠ b.1 :=
  Std.ExtTreeMap.distinct_keys_toList.imp fun hne heq => hne (by rw [heq]; simp)

end Fold

/-- The profile has under a canonical name what the mapping of that name finds. -/
theorem profile_getElem? {provider : Provider} {canonical k : String}
    (hmap : provider.config.claimMappings[canonical]? = some k) (claims : IdTokenClaims) :
    (profileFromClaims provider claims).2[canonical]? = mappedClaim claims k := by
  refine (profileOf_of_mem (f := mappedClaim claims)
    (Std.ExtTreeMap.mem_toList_iff_getElem?_eq_some.mpr hmap) (distinct_toList _) ∅).trans ?_
  simp

/-- The profile has nothing under a name without a mapping. -/
theorem profile_getElem?_of_none {provider : Provider} {canonical : String}
    (hmap : provider.config.claimMappings[canonical]? = none) (claims : IdTokenClaims) :
    (profileFromClaims provider claims).2[canonical]? = none := by
  refine (profileOf_of_notMem (f := mappedClaim claims) (fun k hk => ?_) ∅).trans (by simp)
  rw [Std.ExtTreeMap.mem_toList_iff_getElem?_eq_some, hmap] at hk
  cases hk

/-! ### The payload and the claims -/

/-- A value of the payload as the profile presents it: a string `aud` is a list of one. -/
def presented (k : String) (v : Value) : Value :=
  match v with
  | .string s => if k = "aud" then .array [.string s] else v
  | _ => v

/-- Only the audience is presented in another form than it was sent. -/
theorem presented_of_ne {k : String} (h : k ≠ "aud") (v : Value) : presented k v = v := by
  cases v <;> simp [presented, h]

/-- The value of a field that is there once is the last one. -/
theorem lastValue_of_field {p : Payload} {k : String} {v : Value}
    (h : p.field k = .present v) : Payload.lastValue p k = some v := by
  unfold Payload.field at h
  unfold Payload.lastValue
  split at h
  · cases h
  · rename_i w hvalues
    cases h
    rw [hvalues]
    rfl
  · cases h

/-- A name without values. -/
theorem lastValue_eq_none {p : Payload} {k : String} :
    Payload.lastValue p k = none ↔ Payload.values p k = [] :=
  List.getLast?_eq_none_iff

/-- A required field is there. -/
theorem present_of_required {α : Type} {f : Value → Option α} {p : Payload} {k : String} {a : α}
    (h : (p.field k).required f = some a) : ∃ v, p.field k = .present v ∧ f v = some a := by
  cases hfield : p.field k with
  | present v => exact ⟨v, rfl, by rwa [hfield] at h⟩
  | missing => rw [hfield] at h; cases h
  | duplicate => rw [hfield] at h; cases h

/-- A key that is no named field is looked up in the rest of the payload. -/
theorem unnamed_lastValue {p : Payload} {k : String} (h : k ∉ IdTokenClaims.named) :
    Payload.lastValue (p.filter fun e => !IdTokenClaims.named.contains e.1) k
      = Payload.lastValue p k := by
  unfold Payload.lastValue Payload.values
  rw [List.filterMap_filter]
  congr 2
  funext e
  by_cases hk : e.1 = k
  · simp [hk, h]
  · simp [hk]

/-- A value that is read as a string is that string. -/
theorem asStr_eq_some {v : Value} {s : String} (h : v.asStr = some s) : v = .string s := by
  cases v with
  | string t => cases h; rfl
  | _ => cases h

/-- A list of strings is read back from its values. -/
theorem array_of_asStrings {v : Value} {l : List String} (h : v.asStrings = some l) :
    v = .array (l.map .string) := by
  cases v with
  | array xs =>
      have hmap : ∀ (xs : List Value) (l : List String), xs.mapM Value.asStr = some l →
          xs = l.map .string := by
        intro xs
        induction xs with
        | nil =>
            intro l hl
            cases hl
            rfl
        | cons x xs ih =>
            intro l hl
            rw [List.mapM_cons, Option.bind_eq_bind, Option.bind_eq_some_iff] at hl
            obtain ⟨s, hs, hl⟩ := hl
            rw [Option.bind_eq_bind, Option.bind_eq_some_iff] at hl
            obtain ⟨ss, hss, hl⟩ := hl
            cases hl
            rw [List.map_cons, ← asStr_eq_some hs, ← ih ss hss]
      rw [hmap xs l h]
  | _ => cases h

/-- A string field that is there has its value in the payload. -/
theorem lastValue_of_stringField {p : Payload} {k s : String}
    (h : stringField (p.field k) = some s) (hthere : p.field k ≠ .missing) :
    Payload.lastValue p k = some (.string s) := by
  cases hfield : p.field k with
  | missing => exact absurd hfield hthere
  | duplicate => rw [hfield] at h; cases h
  | present v =>
      rw [hfield] at h
      rw [lastValue_of_field hfield, asStr_eq_some h]

/-- The `aud` of the profile is the one of the payload, once the claims name an audience. -/
theorem lastValue_of_audField {p : Payload} {claims : IdTokenClaims} {want : String}
    (h : IdTokenClaims.audField (p.field "aud") = some claims.aud)
    (hwant : claims.aud.contains want = true) :
    (Payload.lastValue p "aud").map (presented "aud") = mappedClaim claims "aud" := by
  rw [mappedClaim, if_neg (by decide), if_neg (by decide), if_pos rfl]
  cases hfield : p.field "aud" with
  | missing =>
      rw [hfield] at h
      rw [← Option.some.inj h] at hwant
      cases hwant
  | duplicate => rw [hfield] at h; cases h
  | present v =>
      rw [hfield] at h
      rw [lastValue_of_field hfield]
      cases v with
      | string s =>
          rw [← Option.some.inj h]
          rfl
      | array xs =>
          obtain ⟨l, hl, haud⟩ := Option.map_eq_some_iff.mp h
          rw [array_of_asStrings hl, ← haud]
          rfl
      | _ => cases h

/-- The claims of an accepted token and its payload. -/
structure Accepted (p : Payload) (claims : IdTokenClaims) : Prop where
  iss : Payload.lastValue p "iss" = some (.string claims.iss)
  sub : Payload.lastValue p "sub" = some (.string claims.sub)
  aud : (Payload.lastValue p "aud").map (presented "aud") = mappedClaim claims "aud"
  always : ∀ k ∈ ["exp", "iat", "nonce"], Payload.lastValue p k ≠ none
  extra : ∀ k ∉ IdTokenClaims.named, claims.extra[k]? = Payload.lastValue p k
  named : ∀ k ∈ IdTokenClaims.named, claims.extra[k]? = none

section Accepted

variable {K : OAuthCrates} {svc : OAuthService K} {discovery : Discovery} {provider : Provider}
  {idToken expectedNonce : String} {env : Nat → (o : Op) → Resp o} {claims : IdTokenClaims}
  {p : Payload}

/-- What an accepted payload is: read without an error, with the standard claims where they belong.
-/
theorem accepted_of_verify (laws : DecodeLaws K.toCrates)
    (hp : K.payload (K.compact idToken) = some p)
    (hok : (svc.verify discovery provider idToken expectedNonce).run (S := oauthSig) env
      = .ok claims) : Accepted p claims := by
  obtain ⟨header, set, -, -, ⟨key, decoding, at_, -, -, hdecode⟩, haud, hnonce⟩ :=
    verify_decodes hok
  obtain ⟨-, -, p', hp', hclaims, hpass⟩ := (laws.ok_iff _ _ _ _ _ _ rfl).mp hdecode
  obtain rfl : p = p' := Option.some.inj (hp.symm.trans hp')
  simp only [Validation.passes, idTokenValidation, Bool.and_eq_true] at hpass
  have hrequired := List.all_eq_true.mp hpass.1.1.1
  -- The decoder asks for these two. The struct asks for `exp` and `iat`, the flow for the nonce.
  have hthere : ∀ k ∈ ["iss", "sub"], p.field k ≠ .missing := by
    intro k hk hmissing
    have hthere := hrequired k (by
      simp only [List.mem_cons, List.not_mem_nil, or_false] at hk ⊢
      tauto)
    rw [Validation.hasRequired, if_pos (by
      simp only [List.mem_cons, List.not_mem_nil, or_false] at hk ⊢
      tauto), hmissing] at hthere
    cases hthere
  -- One equation for each field that the struct names.
  simp only [IdTokenClaims.deserialize, Option.bind_eq_bind, Option.bind_eq_some_iff,
    Option.pure_def, Option.some.injEq] at hclaims
  obtain ⟨iss, hiss, sub, hsub, aud, haudField, exp, hexp, nbf, hnbf, iat, hiat, nonce, hnonceField,
    rfl⟩ := hclaims
  exact {
    iss := lastValue_of_stringField hiss (hthere "iss" (by simp))
    sub := lastValue_of_stringField hsub (hthere "sub" (by simp))
    aud := lastValue_of_audField haudField haud
    always := by
      intro k hk
      simp only [List.mem_cons, List.not_mem_nil, or_false] at hk
      rcases hk with rfl | rfl | rfl
      · obtain ⟨v, hfield, -⟩ := present_of_required hexp
        simp [lastValue_of_field hfield]
      · obtain ⟨v, hfield, -⟩ := present_of_required hiat
        simp [lastValue_of_field hfield]
      · cases hfield : p.field "nonce" with
        | present v => simp [lastValue_of_field hfield]
        -- Without a nonce in the payload the comparison with the expected one had failed.
        | missing =>
            rw [hfield] at hnonceField
            exact absurd (Option.some.inj hnonceField).symm hnonce
        | duplicate => rw [hfield] at hnonceField; cases hnonceField
    extra := fun k hk => by rw [ofList_getElem?, unnamed_lastValue hk]
    named := fun k hk => by
      rw [ofList_getElem?, lastValue_eq_none]
      unfold Payload.values
      rw [List.filterMap_filter, List.filterMap_eq_nil_iff]
      intro e _
      by_cases hke : e.1 = k
      · simp [hke, hk]
      · simp [hke] }

/-- The profile of an accepted token has under a canonical name what the payload has under the
mapped claim, exactly when the claim is none of `exp`, `iat` and `nonce` and is not an `nbf` that
the payload holds. -/
theorem mapped_claim_kept (laws : DecodeLaws K.toCrates) {canonical k : String}
    (hmap : provider.config.claimMappings[canonical]? = some k) (hdot : '.' ∉ k.toList)
    (hp : K.payload (K.compact idToken) = some p)
    (hok : (svc.verify discovery provider idToken expectedNonce).run (S := oauthSig) env
      = .ok claims) :
    (profileFromClaims provider claims).2[canonical]?
        = (Payload.lastValue p k).map (presented k)
      ↔ k ∉ ["exp", "iat", "nonce"] ∧ (k = "nbf" → Payload.values p "nbf" = []) := by
  have h := accepted_of_verify laws hp hok
  rw [profile_getElem? hmap]
  by_cases haud : k = "aud"
  · subst haud
    rw [h.aud]
    simp
  rw [mappedClaim]
  by_cases hsub : k = "sub"
  · subst hsub
    rw [if_pos rfl, h.sub]
    simp [presented]
  rw [if_neg hsub]
  by_cases hiss : k = "iss"
  · subst hiss
    rw [if_pos rfl, h.iss]
    simp [presented]
  rw [if_neg hiss, if_neg haud, resolveClaimPath_of_noDot _ hdot]
  have hpresented : (Payload.lastValue p k).map (presented k) = Payload.lastValue p k := by
    cases Payload.lastValue p k with
    | none => rfl
    | some v => rw [Option.map_some, presented_of_ne haud]
  rw [hpresented]
  by_cases hnamed : k ∈ IdTokenClaims.named
  · -- What is left of the named fields is in the payload but not in the rest.
    rw [h.named k hnamed]
    by_cases halways : k ∈ ["exp", "iat", "nonce"]
    · refine iff_of_false (fun hnone => h.always k halways hnone.symm) fun hcond => ?_
      exact hcond.1 halways
    · obtain rfl : k = "nbf" := by
        simp only [IdTokenClaims.named, List.mem_cons, List.not_mem_nil, or_false] at hnamed halways
        tauto
      rw [eq_comm, lastValue_eq_none]
      simp
  · rw [h.extra k hnamed]
    refine iff_of_true rfl ⟨fun hmem => hnamed ?_, fun hnbf => absurd ?_ hnamed⟩
    · simp only [IdTokenClaims.named, List.mem_cons, List.not_mem_nil, or_false] at hmem ⊢
      tauto
    · rw [hnbf]
      decide

end Accepted

namespace Sample

open Symbolic

/-- The provider at `idp.test` with one mapping. -/
def mapping (canonical k : String) : Provider :=
  { provider 100 with
    config := { (provider 100).config with claimMappings := .ofList [(canonical, k)] } }

/-- The sample mapping. -/
theorem mapping_getElem? (canonical k : String) :
    (mapping canonical k).config.claimMappings[canonical]? = some k := by
  show (Std.ExtTreeMap.ofList [(canonical, k)] : Std.ExtTreeMap String String)[canonical]? = _
  simp [Std.ExtTreeMap.ofList_singleton]

/-- The verification of the sample token for a provider with one mapping. -/
def mappedVerification (canonical k : String) : Except Fault IdTokenClaims :=
  (keysFlow.verify document (mapping canonical k) "id-token" (hexEncode (random 2))).run
    (S := oauthSig) (serving "one")

end Sample

open Sample Symbolic in
/-- A mapping to `sub` finds the subject of the token. -/
theorem mapped_claim_kept_sample :
    ∃ claims, mappedVerification "personal_code" "sub" = .ok claims
      ∧ (profileFromClaims (mapping "personal_code" "sub") claims).2["personal_code"]?
        = (Payload.lastValue idToken.payload "sub").map (presented "sub") := by
  obtain ⟨claims, hok⟩ := exists_claims (x := mappedVerification "personal_code" "sub")
    (by decide +kernel)
  refine ⟨claims, hok, ?_⟩
  exact (mapped_claim_kept symbolic_decode (mapping_getElem? _ _) (by decide) rfl hok).mpr
    ⟨by decide, by decide⟩

open Sample Symbolic in
/-- A mapping to `exp` finds nothing, although the token has the claim. -/
theorem mapped_claim_lost :
    ∃ claims, mappedVerification "valid_until" "exp" = .ok claims
      ∧ Payload.lastValue idToken.payload "exp" = some (.number (.int 2000))
      ∧ (profileFromClaims (mapping "valid_until" "exp") claims).2["valid_until"]? = none := by
  obtain ⟨claims, hok⟩ := exists_claims (x := mappedVerification "valid_until" "exp")
    (by decide +kernel)
  refine ⟨claims, hok, rfl, ?_⟩
  rw [profile_getElem? (mapping_getElem? _ _)]
  show resolveClaimPath claims.extra "exp" = none
  rw [resolveClaimPath_of_noDot _ (by decide)]
  exact (accepted_of_verify symbolic_decode rfl hok).named "exp" (by decide)

end Tim.OAuth
