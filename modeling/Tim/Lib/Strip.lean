import Mathlib.Data.List.TakeWhile

/-!
# `Tim.Lib.Strip`: cutting a list at an element and stripping its ends

Two operations that parsers of header lines are made of. A list is cut at the first occurrence of
an element, with `takeWhile` and `dropWhile`, and the elements of a class are stripped off both
of its ends. `Firm` is the shape of a list that has nothing to strip.

* `cut_eq_some` / `cut_eq_none`: the cut in both directions, as an equation on the list.
* `strip_front`: elements of the class at the front do not matter.
* `exists_strip`: what was stripped is of the class, and what is left is firm.
* `strip_map`: a map that keeps the class keeps what is stripped.
-/

set_option autoImplicit false

namespace Tim.Lib

variable {α : Type}

/-! ### Cutting -/

section Cut

variable [DecidableEq α]

/-- What stands before the first `c` and what stands after it. -/
def cut (c : α) (l : List α) : Option (List α × List α) :=
  match l.dropWhile (· != c) with
  | [] => none
  | _ :: rest => some (l.takeWhile (· != c), rest)

/-- A list is cut at the first `c`: nothing before it is one. -/
theorem cut_append {c : α} {a : List α} (h : c ∉ a) (b : List α) :
    cut c (a ++ c :: b) = some (a, b) := by
  have hall : ∀ x ∈ a, (x != c) = true := fun x hx => bne_iff_ne.mpr fun heq => h (heq ▸ hx)
  simp [cut, List.dropWhile_append_of_pos hall, List.takeWhile_append_of_pos hall]

/-- A list without `c` is not cut. -/
theorem cut_eq_none {c : α} {l : List α} : cut c l = none ↔ c ∉ l := by
  constructor
  · intro h hmem
    obtain ⟨a, b, rfl, hnot⟩ := List.eq_append_cons_of_mem hmem
    rw [cut_append hnot] at h
    cases h
  · intro h
    have hall : ∀ x ∈ l, (x != c) = true := fun x hx => bne_iff_ne.mpr fun heq => h (heq ▸ hx)
    simp [cut, List.dropWhile_eq_nil_iff.mpr hall]

/-- What is in front of the cut has no `c`, and the rest is behind it. -/
theorem cut_eq_some {c : α} {l a b : List α} :
    cut c l = some (a, b) ↔ l = a ++ c :: b ∧ c ∉ a := by
  constructor
  · intro h
    have hmem : c ∈ l := by
      by_contra hnot
      rw [cut_eq_none.mpr hnot] at h
      cases h
    obtain ⟨a', b', rfl, hnot⟩ := List.eq_append_cons_of_mem hmem
    rw [cut_append hnot] at h
    cases h
    exact ⟨rfl, hnot⟩
  · rintro ⟨rfl, hnot⟩
    exact cut_append hnot b

end Cut

/-! ### Stripping -/

/-- The list without the elements of the class `p` at its ends. -/
def strip (p : α → Bool) (l : List α) : List α :=
  ((l.dropWhile p).reverse.dropWhile p).reverse

/-- Neither end of the list is of the class `p`. -/
def Firm (p : α → Bool) (l : List α) : Prop :=
  (∀ x ∈ l.head?, p x = false) ∧ ∀ x ∈ l.getLast?, p x = false

variable {p : α → Bool} {l : List α}

/-- A list with no element of the class has nothing to strip. -/
theorem Firm.of_forall (h : ∀ x ∈ l, p x = false) : Firm p l :=
  ⟨fun x hx => h x (List.mem_of_mem_head? hx), fun x hx => h x (List.mem_of_mem_getLast? hx)⟩

/-- Nothing is dropped from a list whose head does not pass the test. -/
theorem dropWhile_of_head (h : ∀ x ∈ l.head?, p x = false) : l.dropWhile p = l := by
  cases l with
  | nil => rfl
  | cons x l => simp [h x rfl]

/-- The head of what is left does not pass the test. -/
theorem head_dropWhile (p : α → Bool) (l : List α) :
    ∀ x ∈ (l.dropWhile p).head?, p x = false := by
  induction l with
  | nil => exact nofun
  | cons y l ih =>
      cases hy : p y with
      | true => simpa [hy] using ih
      | false =>
          intro x hx
          simp only [List.dropWhile_cons, hy, Bool.false_eq_true, if_false, List.head?_cons,
            Option.mem_def, Option.some.injEq] at hx
          rwa [← hx]

/-- A list that is firm at both ends stays as it is. -/
theorem strip_of_firm (h : Firm p l) : strip p l = l := by
  have hback : ∀ x ∈ l.reverse.head?, p x = false := by simpa using h.2
  rw [strip, dropWhile_of_head h.1, dropWhile_of_head hback, List.reverse_reverse]

/-- Elements of the class at the front do not matter. -/
theorem strip_front {front : List α} (hfront : ∀ x ∈ front, p x = true) (l : List α) :
    strip p (front ++ l) = strip p l := by
  unfold strip
  rw [List.dropWhile_append_of_pos hfront]

/-- What was stripped is of the class, and what is left is firm. -/
theorem exists_strip (p : α → Bool) (l : List α) :
    ∃ front back, l = front ++ (strip p l ++ back) ∧ (∀ x ∈ front, p x = true)
      ∧ (∀ x ∈ back, p x = true) ∧ Firm p (strip p l) := by
  have hl := List.takeWhile_append_dropWhile (p := p) (l := l)
  have hm := List.takeWhile_append_dropWhile (p := p) (l := (l.dropWhile p).reverse)
  have hsplit : l.dropWhile p = strip p l ++ ((l.dropWhile p).reverse.takeWhile p).reverse := by
    have h := congrArg List.reverse hm
    rw [List.reverse_append, List.reverse_reverse] at h
    exact h.symm
  refine ⟨l.takeWhile p, ((l.dropWhile p).reverse.takeWhile p).reverse, ?_, ?_, ?_, ?_, ?_⟩
  · rw [← hsplit, hl]
  · exact fun x hx => List.mem_takeWhile_imp hx
  · exact fun x hx => List.mem_takeWhile_imp (List.mem_reverse.mp hx)
  · -- The first element that is left is the first one after the front.
    intro x hx
    refine head_dropWhile p l x ?_
    rw [hsplit, List.head?_append]
    simp [Option.mem_def.mp hx]
  · intro x hx
    have hx' : x ∈ ((l.dropWhile p).reverse.dropWhile p).head? := by simpa [strip] using hx
    exact head_dropWhile p _ x hx'

/-- A stripped list is firm at both ends. -/
theorem firm_strip (p : α → Bool) (l : List α) : Firm p (strip p l) := by
  obtain ⟨_, _, -, -, -, h⟩ := exists_strip p l
  exact h

/-- A map that keeps the class keeps what is stripped. -/
theorem strip_map {β : Type} {p : β → Bool} {q : α → Bool} {f : α → β} (h : ∀ x, p (f x) = q x)
    (l : List α) : strip p (l.map f) = (strip q l).map f := by
  have hcomp : p ∘ f = q := funext h
  unfold strip
  rw [List.dropWhile_map, hcomp, ← List.map_reverse, List.dropWhile_map, hcomp,
    ← List.map_reverse]

/-- Stripping twice is stripping once. -/
theorem strip_strip (p : α → Bool) (l : List α) : strip p (strip p l) = strip p l :=
  strip_of_firm (firm_strip p l)

end Tim.Lib
