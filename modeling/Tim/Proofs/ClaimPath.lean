import Tim.Proofs.Profile

/-!
# `Tim.Proofs.ClaimPath`: where a dotted claim path leads

`resolve_claim_path` splits a path at its dots and walks into nested objects. `Leads` is the walk
that a list of keys describes, one object after the other.

* `resolveClaimPath_append`: a path with a dot in it is its two sides, one after the other.
* `resolveClaimPath_iff_leads`: the function finds what the keys lead to, and nothing else.
-/

set_option autoImplicit false

namespace Tim.OAuth

/-- `Value::as_object`, with the entries as a map. -/
def asObject : Value → Option ClaimMap
  | .object es => some (.ofList es)
  | _ => none

/-- The keys lead from an object to a value. All values on the way are objects. -/
inductive Leads : ClaimMap → List String → Value → Prop where
  | last {m : ClaimMap} {k : String} {v : Value} : m[k]? = some v → Leads m [k] v
  | into {m inner : ClaimMap} {k : String} {w v : Value} {ks : List String} : m[k]? = some w →
      asObject w = some inner → Leads inner ks v → Leads m (k :: ks) v

/-! ### The loop -/

/-- One round of the loop: `current.as_object()?.get(segment)?`. -/
def enter (current : Option Value) (segment : String) : Option Value :=
  current.bind fun v => (asObject v).bind fun m => m[segment]?

/-- The last entry of a key is the first one from the end. -/
theorem find?_reverse (es : Payload) (k : String) :
    (es.reverse.find? fun e => e.1 = k).map (·.2) = Payload.lastValue es k := by
  induction es with
  | nil => rfl
  | cons e es ih =>
      rw [List.reverse_cons, List.find?_append, Option.map_or, ih]
      unfold Payload.lastValue Payload.values
      by_cases hk : e.1 = k
      · simp only [List.filterMap_cons, hk, if_true, List.getLast?_cons, List.find?_cons,
          decide_true, Option.map_some]
        cases (List.filterMap _ es).getLast? with
        | none => rfl
        | some v => rfl
      · simp [hk]

/-- The function over the segments of its path. -/
theorem resolveClaimPath_eq (extra : ClaimMap) {path first : String} {segments : List String}
    (h : splitChar path '.' = first :: segments) :
    resolveClaimPath extra path = segments.foldl enter extra[first]? := by
  rw [resolveClaimPath, splitOn_dot, h]
  dsimp only
  congr 1
  funext current segment
  unfold enter
  congr 1
  funext v
  cases v with
  | object es => exact (find?_reverse es segment).trans (ofList_getElem? es segment).symm
  | null => rfl
  | bool b => rfl
  | number n => rfl
  | string s => rfl
  | array xs => rfl

/-- A walk from a value that may be missing. -/
theorem foldl_enter_bind {α : Type} (o : Option α) (f : α → Option Value)
    (segments : List String) :
    segments.foldl enter (o.bind f) = o.bind fun a => segments.foldl enter (f a) := by
  cases o with
  | some a => rfl
  | none =>
      induction segments with
      | nil => rfl
      | cons s segments ih => exact ih

/-! ### Paths -/

/-- A text is split at a dot inside it. -/
theorem splitChar_dot (a b : String) :
    splitChar (a ++ "." ++ b) '.' = splitChar a '.' ++ splitChar b '.' := by
  unfold splitChar
  rw [← List.map_append, ← List.splitOn_append_cons_self]
  simp

/-- Splitting gives at least one part, also for the empty text. -/
theorem exists_splitChar (s : String) (c : Char) : ∃ first rest, splitChar s c = first :: rest := by
  cases h : splitChar s c with
  | cons first rest => exact ⟨first, rest, rfl⟩
  | nil =>
      unfold splitChar at h
      simp at h

/-- A path with a dot in it is its two sides: the second starts at the object that the first leads
to, if it does. -/
theorem resolveClaimPath_append (extra : ClaimMap) (a b : String) :
    resolveClaimPath extra (a ++ "." ++ b) = (resolveClaimPath extra a).bind fun v =>
      (asObject v).bind fun m => resolveClaimPath m b := by
  obtain ⟨first, segments, ha⟩ := exists_splitChar a '.'
  obtain ⟨next, rest, hb⟩ := exists_splitChar b '.'
  have hab : splitChar (a ++ "." ++ b) '.' = first :: (segments ++ next :: rest) := by
    rw [splitChar_dot, ha, hb, List.cons_append]
  rw [resolveClaimPath_eq extra hab, resolveClaimPath_eq extra ha, List.foldl_append,
    List.foldl_cons]
  simp only [resolveClaimPath_eq _ hb]
  -- The round for the first segment of `b` is the one that needs an object.
  rw [enter, foldl_enter_bind]
  simp only [foldl_enter_bind]

/-- What the keys lead to is what their path resolves to. -/
theorem resolveClaimPath_iff_leads {extra : ClaimMap} {ks : List String} {v : Value} (hks : ks ≠ [])
    (hdots : ∀ k ∈ ks, '.' ∉ k.toList) :
    resolveClaimPath extra (".".intercalate ks) = some v ↔ Leads extra ks v := by
  induction ks generalizing extra with
  | nil => exact absurd rfl hks
  | cons k ks ih =>
      have hk := resolveClaimPath_of_noDot extra (hdots k List.mem_cons_self)
      cases ks with
      | nil =>
          rw [String.intercalate_singleton, hk]
          constructor
          · exact Leads.last
          · intro h
            cases h with
            | last h => exact h
            | into _ _ h => cases h
      | cons k' ks =>
          have ih := fun m : ClaimMap => @ih m (List.cons_ne_nil _ _)
            fun k hk => hdots k (List.mem_cons_of_mem _ hk)
          rw [String.intercalate_cons_cons, resolveClaimPath_append, hk]
          simp only [Option.bind_eq_some_iff, ih]
          constructor
          · rintro ⟨w, hw, m, hm, h⟩
            exact .into hw hm h
          · intro h
            cases h with
            | into hw hm h => exact ⟨_, hw, _, hm, h⟩

/-- A dotted path resolves to a value exactly when its keys lead there through nested objects, and
a longer path continues where a shorter one has led. -/
theorem claim_path (extra : ClaimMap) :
    (∀ ks : List String, ks ≠ [] → (∀ k ∈ ks, '.' ∉ k.toList) → ∀ v,
      (resolveClaimPath extra (".".intercalate ks) = some v ↔ Leads extra ks v))
    ∧ ∀ a b : String, resolveClaimPath extra (a ++ "." ++ b)
      = (resolveClaimPath extra a).bind fun v => (asObject v).bind fun m => resolveClaimPath m b :=
  ⟨fun _ hks hdots _ => resolveClaimPath_iff_leads hks hdots, resolveClaimPath_append extra⟩

end Tim.OAuth
