import Tim.Model.Json

/-!
# `Tim.Proofs.Claims`: the claim object round trip

`StandardClaims.serialize` writes a free map next to six named fields. Reading the object
back gives the same claims exactly when the free map has none of the six names, since a
second entry under a named field is refused. `WellFormed` is that condition.

* `deserialize_serialize`: the round trip, under `WellFormed`.
* `wellFormed_of_deserialize`: what was read back is well formed, so it can be written again.

The two together carry the claims through any number of decode and re-encode steps.
-/

set_option autoImplicit false

namespace Tim

/-- The free map has no named field. -/
def StandardClaims.WellFormed (c : StandardClaims) : Prop :=
  ∀ k ∈ StandardClaims.named, k ∉ c.extra

/-- A text keeps the keys, so what is read from it is well formed, too. -/
theorem StandardClaims.RereadAs.wellFormed {c c' : StandardClaims} (h : c.RereadAs c')
    (hc : c.WellFormed) : c'.WellFormed := by
  obtain ⟨extra, hsame, rfl⟩ := h
  intro k hk hmem
  have hnone : c.extra[k]? = none := Std.ExtTreeMap.getElem?_eq_none (hc k hk)
  rw [← hsame.none_iff] at hnone
  rw [Std.ExtTreeMap.mem_iff_isSome_getElem?, hnone] at hmem
  cases hmem

namespace Payload

/-- The values of a key in two payloads in a row. -/
theorem values_append (p q : Payload) (k : String) :
    Payload.values (p ++ q) k = Payload.values p k ++ Payload.values q k := by
  simp [Payload.values, List.filterMap_append]

/-- A key that a map does not have is written nowhere in its entries. -/
theorem values_toList_of_not_mem (m : ClaimMap) (k : String) (h : k ∉ m) :
    Payload.values m.toList k = [] := by
  rw [Payload.values, List.filterMap_eq_nil_iff]
  rintro ⟨k', v⟩ he
  have hne : k' ≠ k := by
    rintro rfl
    have hsome := Std.ExtTreeMap.mem_toList_iff_getElem?_eq_some.mp he
    rw [Std.ExtTreeMap.getElem?_eq_none h] at hsome
    cases hsome
  simp [hne]

end Payload

namespace Value

/-- A list of strings is read back from the values that it was written as. -/
theorem mapM_asStr (l : List String) : (l.map Value.string).mapM asStr = some l := by
  induction l with
  | nil => rfl
  | cons s l ih => simp [List.mapM_cons, ih, asStr]

/-- An `i64` is read back from the number that it was written as. -/
theorem asI64_toInt (i : Int64) : asI64 (.number (.int i.toInt)) = some i := by
  have hlo := Int64.le_toInt i
  have hhi := Int64.toInt_lt i
  rw [asI64, if_pos ⟨hlo, hhi⟩, Int64.ofInt_toInt]

end Value

namespace StandardClaims

/-- Each named field of a well-formed object is read from the place it was written to. -/
theorem field_serialize (c : StandardClaims) (h : c.WellFormed) (k : String) (hk : k ∈ named) :
    c.serialize.field k = c.namedEntries.field k := by
  have hextra := Payload.values_toList_of_not_mem c.extra k (h k hk)
  unfold Payload.field serialize
  rw [Payload.values_append, hextra, List.append_nil]

/-- The flattened part of a well-formed object is the free map itself. -/
theorem flatten_serialize (c : StandardClaims) (h : c.WellFormed) :
    flatten c.serialize = c.extra := by
  have hfilter : c.serialize.filter (fun e => !named.contains e.1) = c.extra.toList := by
    unfold serialize
    rw [List.filter_append]
    have hhead : c.namedEntries.filter (fun e => !named.contains e.1) = [] := by
      simp [namedEntries, named]
    rw [hhead, List.nil_append, List.filter_eq_self]
    rintro ⟨k, v⟩ he
    have hmem : k ∈ c.extra := by
      have hsome := Std.ExtTreeMap.mem_toList_iff_getElem?_eq_some.mp he
      by_contra hnot
      rw [Std.ExtTreeMap.getElem?_eq_none hnot] at hsome
      cases hsome
    have hnot : k ∉ named := fun hk => h k hk hmem
    simpa using hnot
  rw [flatten, hfilter]
  -- A map is what its own entries insert: its keys are distinct, so no entry is lost.
  refine Std.ExtTreeMap.ext_getElem? fun k => ?_
  cases hk : c.extra[k]? with
  | some v =>
      exact Std.ExtTreeMap.getElem?_ofList_of_mem (Std.ReflCmp.compare_self)
        Std.ExtTreeMap.distinct_keys_toList
        (Std.ExtTreeMap.mem_toList_iff_getElem?_eq_some.mpr hk)
  | none =>
      apply Std.ExtTreeMap.getElem?_ofList_of_contains_eq_false
      rw [Std.ExtTreeMap.map_fst_toList_eq_keys]
      have hnot : k ∉ c.extra := by
        intro hmem
        rw [Std.ExtTreeMap.mem_iff_isSome_getElem?, hk] at hmem
        cases hmem
      simpa using hnot

/-- Writing well-formed claims and reading them back gives the same claims. -/
theorem deserialize_serialize (c : StandardClaims) (h : c.WellFormed) :
    deserialize c.serialize = some c := by
  have hfield := field_serialize c h
  have hsub : Field.optional Value.asStr (.present (optionValue .string c.sub)) = some c.sub := by
    cases c.sub <;> rfl
  have haud : Field.optional Value.asStrings
      (.present (optionValue (fun l => .array (l.map .string)) c.aud)) = some c.aud := by
    cases c.aud with
    | none => rfl
    | some l =>
        show (((l.map Value.string).mapM Value.asStr).map some : Option (Option (List String))) = _
        rw [Value.mapM_asStr]
        rfl
  unfold deserialize
  rw [hfield "iss" (by simp [named]), hfield "sub" (by simp [named]),
    hfield "aud" (by simp [named]), hfield "exp" (by simp [named]),
    hfield "iat" (by simp [named]), hfield "jti" (by simp [named]), flatten_serialize c h]
  -- The six names differ, so each lookup finds its own entry and no other.
  show (do
    let sub ← Field.optional Value.asStr (.present (optionValue .string c.sub))
    let aud ← Field.optional Value.asStrings
      (.present (optionValue (fun l => .array (l.map .string)) c.aud))
    let exp ← Value.asI64 (.number (.int c.exp.toInt))
    let iat ← Value.asI64 (.number (.int c.iat.toInt))
    return { c with sub := sub, aud := aud, exp := exp, iat := iat }) = some c
  rw [hsub, haud, Value.asI64_toInt, Value.asI64_toInt]
  rfl

/-- Claims that were read from an object are well formed. -/
theorem wellFormed_of_deserialize {p : Payload} {c : StandardClaims}
    (h : deserialize p = some c) : c.WellFormed := by
  have hextra : c.extra = flatten p := by
    simp only [deserialize, Option.bind_eq_bind, Option.bind_eq_some_iff] at h
    obtain ⟨iss, -, sub, -, aud, -, exp, -, iat, -, jti, -, hc⟩ := h
    cases hc
    rfl
  intro k hk
  rw [hextra, flatten, Std.ExtTreeMap.mem_ofList]
  have hnot : k ∉ (p.filter fun e => !named.contains e.1).map Prod.fst := by
    intro hmem
    obtain ⟨e, he, rfl⟩ := List.mem_map.mp hmem
    have hf := (List.mem_filter.mp he).2
    simp at hf
    exact hf hk
  simpa using hnot

end StandardClaims

end Tim
