import Mathlib.Data.List.Nodup
import Mathlib.Logic.Function.Basic

/-!
# `Tim.Lib.Document`: reading records out of a tree of scalars, sequences and maps

A document is a tree (`Node`) over some type of scalars. A record is read from a map whose keys are
names of its fields, each at most once (`Node.record`), and a dictionary from a map with any keys
(`Node.dict`). A reader of a record sees the map as a function from names to nodes.

`Omits path d d'` says that `d` has an empty map at the end of `path` and that `d'` is the same
document without that entry. The rules say what a reader makes of the two documents. They are
stated for a relation between the two results that holds when both documents are refused.

* `Omits.record_here`: the entry is one of the record itself.
* `Omits.record_inside`: it is somewhere inside one of the record's fields.
* `Omits.dict_inside`: it is somewhere inside one of a dictionary's values.
-/

set_option autoImplicit false

namespace Tim.Lib

/-- A document over scalars of type `S`. -/
inductive Node (S : Type) where
  | scalar (s : S)
  | seq (xs : List (Node S))
  | map (es : List (Node S × Node S))

/-- The scalars that a parser gives, as far as keys and maps depend on them. -/
structure Scalars where
  Scalar : Type
  /-- The text of a scalar that is read as one. -/
  text : Scalar → Option String
  /-- The scalar is read as a map without entries, where a map is expected. -/
  isEmptyMap : Scalar → Bool

variable {Y : Scalars} {α β : Type}

namespace Node

/-- The name that a key is read as. -/
def keyText (Y : Scalars) : Node Y.Scalar → Option String
  | .scalar s => Y.text s
  | _ => none

/-- The entries of a node that is read as a map. -/
def entries (Y : Scalars) : Node Y.Scalar → Option (List (Node Y.Scalar × Node Y.Scalar))
  | .map es => some es
  | .scalar s => if Y.isEmptyMap s then some [] else none
  | .seq _ => none

/-- The entries with their keys read as names of fields. Other keys are refused. -/
def named (Y : Scalars) (names : List String) (es : List (Node Y.Scalar × Node Y.Scalar)) :
    Option (List (String × Node Y.Scalar)) :=
  es.mapM fun e => do
    let name ← keyText Y e.1
    if name ∈ names then some (name, e.2) else none

/-- A record with the given field names, by the reader `f` of its fields. An unknown name and one
that occurs twice are refused. -/
def record (Y : Scalars) (names : List String) (f : (String → Option (Node Y.Scalar)) → Option α)
    (n : Node Y.Scalar) : Option α := do
  let es ← n.entries Y
  let fields ← named Y names es
  if (fields.map (·.1)).Nodup then f fun name => fields.lookup name else none

/-- A dictionary, by the reader `f` of its values. -/
def dict (Y : Scalars) (f : Node Y.Scalar → Option α) (n : Node Y.Scalar) :
    Option (List (String × α)) := do
  let es ← n.entries Y
  es.mapM fun e => do
    let name ← keyText Y e.1
    let value ← f e.2
    return (name, value)

end Node

/-- The first document has an empty map at the end of the path, and the second one is the same
without that entry. -/
inductive Omits (Y : Scalars) : List String → Node Y.Scalar → Node Y.Scalar → Prop where
  | here {name : String} {k : Node Y.Scalar} {es₁ es₂ : List (Node Y.Scalar × Node Y.Scalar)} :
      k.keyText Y = some name → (∀ e ∈ es₁ ++ es₂, e.1.keyText Y ≠ some name) →
      Omits Y [name] (.map (es₁ ++ (k, .map []) :: es₂)) (.map (es₁ ++ es₂))
  | inside {name : String} {path : List String} {k n n' : Node Y.Scalar}
      {es₁ es₂ : List (Node Y.Scalar × Node Y.Scalar)} :
      k.keyText Y = some name → Omits Y path n n' →
      Omits Y (name :: path) (.map (es₁ ++ (k, n) :: es₂)) (.map (es₁ ++ (k, n') :: es₂))

/-! ### What is read -/

/-- Two readers that go on after related values. -/
theorem rel_bind {R : α → α → Prop} {S : β → β → Prop} {x y : Option α} {f g : α → Option β}
    (h : Option.Rel R x y) (hf : ∀ a b, R a b → Option.Rel S (f a) (g b)) :
    Option.Rel S (x.bind f) (y.bind g) := by
  cases h with
  | none => exact .none
  | some hab => exact hf _ _ hab

/-- Related options are both missing or both there. -/
theorem rel_none_iff {R : α → β → Prop} {x : Option α} {y : Option β} (h : Option.Rel R x y) :
    x = none ↔ y = none := by
  cases h with
  | none => simp
  | some hab => simp

/-- Two readers that go on after one value. -/
theorem rel_bind_same {S : β → β → Prop} {x : Option α} {f g : α → Option β}
    (hf : ∀ a, Option.Rel S (f a) (g a)) : Option.Rel S (x.bind f) (x.bind g) := by
  cases x with
  | none => exact .none
  | some a => exact hf a

namespace Node

variable {names : List String} {name : String} {k n : Node Y.Scalar}
  {e : Node Y.Scalar × Node Y.Scalar} {es es₁ es₂ : List (Node Y.Scalar × Node Y.Scalar)}
  {fs : List (String × Node Y.Scalar)}

/-- The named entries of a list, by the key of its first entry: one that has no text as its key, or
a key that is not among the names, refuses the whole list. -/
theorem named_cons : named Y names (e :: es) = (e.1.keyText Y).bind fun key =>
    if key ∈ names then (named Y names es).bind fun fs => some ((key, e.2) :: fs) else none := by
  cases hkey : e.1.keyText Y with
  | none => simp [named, hkey]
  | some key =>
      by_cases h : key ∈ names
      · simp [named, hkey, h]
      · simp [named, hkey, h]

/-- The named entries of two lists in a row are those of the first and then those of the second, if
both have any. -/
theorem named_append : named Y names (es₁ ++ es₂) = (named Y names es₁).bind fun fs₁ =>
    (named Y names es₂).bind fun fs₂ => some (fs₁ ++ fs₂) := by
  simp [named]

/-- A name that no key has is not among those that are read. -/
theorem not_mem_of_named (h : named Y names es = some fs)
    (hes : ∀ e ∈ es, e.1.keyText Y ≠ some name) : name ∉ fs.map (·.1) := by
  induction es generalizing fs with
  | nil =>
      obtain rfl : [] = fs := by simpa [named] using h
      simp
  | cons e es ih =>
      rw [named_cons] at h
      obtain ⟨key, hkey, h⟩ := Option.bind_eq_some_iff.mp h
      have hne : name ≠ key := fun heq => hes e (List.mem_cons_self ..) (by rw [hkey, heq])
      split at h
      · obtain ⟨fs', hfs', h⟩ := Option.bind_eq_some_iff.mp h
        obtain rfl := Option.some.inj h
        have := ih hfs' fun e' he' => hes e' (List.mem_cons_of_mem _ he')
        simp only [List.map_cons, List.mem_cons, not_or]
        exact ⟨hne, this⟩
      · exact absurd h (by simp)

/-- A name that is no key of the list is not found in it. -/
theorem lookup_eq_none (h : name ∉ fs.map (·.1)) : fs.lookup name = none := by
  rw [List.lookup_eq_none_iff]
  intro f hf
  rw [bne_iff_ne]
  intro heq
  exact h (heq ▸ List.mem_map_of_mem hf)

/-- A field that is nowhere else, seen by the lookup of a name. -/
theorem lookup_around {fs₁ fs₂ : List (String × Node Y.Scalar)} (h : name ∉ fs₁.map (·.1)) :
    (fun key => (fs₁ ++ (name, n) :: fs₂).lookup key)
      = Function.update (fun key => (fs₁ ++ fs₂).lookup key) name (some n) := by
  funext key
  by_cases hkey : key = name
  · subst hkey
    simp [List.lookup_append, lookup_eq_none h]
  · have hbeq : (key == name) = false := beq_false_of_ne hkey
    rw [Function.update_of_ne hkey, List.lookup_append, List.lookup_append, List.lookup_cons, hbeq]

/-- A record around one of its entries: the other entries are read alone, and must not have its
name. -/
theorem record_around (hk : k.keyText Y = some name) (hname : name ∈ names)
    (f : (String → Option (Node Y.Scalar)) → Option α) :
    (Node.map (es₁ ++ (k, n) :: es₂)).record Y names f
      = (named Y names (es₁ ++ es₂)).bind fun fs =>
          if name ∉ fs.map (·.1) ∧ (fs.map (·.1)).Nodup then
            f (Function.update (fun key => fs.lookup key) name (some n))
          else none := by
  show (named Y names (es₁ ++ (k, n) :: es₂)).bind _ = _
  rw [named_append, named_append, named_cons]
  cases named Y names es₁ with
  | none => rfl
  | some fs₁ =>
      cases named Y names es₂ with
      | none => simp [hk]
      | some fs₂ =>
          simp only [hk, hname, Option.bind_some, if_true]
          have hnodup : ((fs₁ ++ (name, n) :: fs₂).map (·.1)).Nodup
              ↔ name ∉ (fs₁ ++ fs₂).map (·.1) ∧ ((fs₁ ++ fs₂).map (·.1)).Nodup := by
            rw [List.map_append, List.map_cons, List.nodup_middle, List.nodup_cons,
              List.map_append]
          by_cases h : name ∉ (fs₁ ++ fs₂).map (·.1) ∧ ((fs₁ ++ fs₂).map (·.1)).Nodup
          · have hleft : name ∉ fs₁.map (·.1) := fun hmem =>
              h.1 (by rw [List.map_append]; exact List.mem_append_left _ hmem)
            rw [if_pos (hnodup.mpr h), if_pos h, lookup_around hleft]
          · rw [if_neg (mt hnodup.mp h), if_neg h]

end Node

namespace Omits

variable {R : Option α → Option α → Prop} {names : List String} {name entry : String}
  {path : List String} {d d' : Node Y.Scalar} {f : (String → Option (Node Y.Scalar)) → Option α}

/-- The entry is one of the record: its reader sees an empty map, and then nothing. -/
theorem record_here (h : Omits Y [name] d d') (hname : name ∈ names) (hnone : R none none)
    (hf : ∀ get, get name = some (.map []) → R (f get) (f (Function.update get name none))) :
    R (d.record Y names f) (d'.record Y names f) := by
  cases h with
  | inside _ hn => cases hn
  | @here _ k es₁ es₂ hk hes =>
      rw [Node.record_around hk hname]
      show R _ ((Node.named Y names (es₁ ++ es₂)).bind _)
      cases hfs : Node.named Y names (es₁ ++ es₂) with
      | none => exact hnone
      | some fs =>
          have hmem := Node.not_mem_of_named hfs hes
          simp only [Option.bind_some, hmem, not_false_eq_true, true_and]
          by_cases hnodup : (fs.map (·.1)).Nodup
          · have hrest : Function.update (fun key => fs.lookup key) name none
                = fun key => fs.lookup key := by
              rw [Function.update_eq_self_iff, Node.lookup_eq_none hmem]
            have := hf _ (Function.update_self name (some (.map [])) fun key => fs.lookup key)
            rw [Function.update_idem, hrest] at this
            rw [if_pos hnodup, if_pos hnodup]
            exact this
          · rw [if_neg hnodup, if_neg hnodup]
            exact hnone

/-- The entry is inside one of the fields, and the reader of that field sees the two forms. -/
theorem record_inside (h : Omits Y (name :: entry :: path) d d') (hname : name ∈ names)
    (hnone : R none none)
    (hf : ∀ get n n', Omits Y (entry :: path) n n' → get name = some n →
      R (f get) (f (Function.update get name (some n')))) :
    R (d.record Y names f) (d'.record Y names f) := by
  cases h with
  | @inside _ _ k n n' es₁ es₂ hk hn =>
      rw [Node.record_around hk hname, Node.record_around hk hname]
      cases Node.named Y names (es₁ ++ es₂) with
      | none => exact hnone
      | some fs =>
          simp only [Option.bind_some]
          split
          · have := hf _ n n' hn (Function.update_self name (some n) fun key => fs.lookup key)
            rw [Function.update_idem] at this
            exact this
          · exact hnone

/-- The entry is inside one of the values of a dictionary, and is read the same way. -/
theorem dict_inside {f : Node Y.Scalar → Option α} (h : Omits Y (name :: entry :: path) d d')
    (hf : ∀ n n', Omits Y (entry :: path) n n' → f n' = f n) :
    d'.dict Y f = d.dict Y f := by
  cases h with
  | inside hk hn => simp [Node.dict, Node.entries, hk, hf _ _ hn]

end Omits

end Tim.Lib
