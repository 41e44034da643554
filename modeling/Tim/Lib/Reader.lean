import Mathlib.Algebra.Group.Nat.Defs
import Mathlib.Data.List.Basic
import Mathlib.Data.List.TakeWhile
import Mathlib.Tactic.Common

/-!
# `Tim.Lib.Reader`: readers of a list of tokens

A reader takes tokens from the front of its input and gives a value and the rest, or fails. It
is state over `Option`, so a failed reader has consumed nothing.

Two properties are closed under the ways readers are put together. A reader `Consumes` when the
rest is a tail of the input. It is `Blind` to a token when that token is, for the reader, the end
of the input: what comes after it never matters. From both, `Blind.split`: a reader that has
stopped in front of such a token would have read all of the input that ends there.
-/

set_option autoImplicit false

namespace Tim.Lib

/-- A reader of tokens `τ`. -/
abbrev Reader (τ α : Type) := StateT (List τ) Option α

namespace Reader

variable {τ α β : Type}

/-- The next token, if it passes. -/
def token (p : τ → Bool) : Reader τ τ
  | [] => none
  | t :: rest => if p t then some (t, rest) else none

/-- A reader of one token takes the first, if it passes the test. -/
theorem token_eq_some {p : τ → Bool} {s rest : List τ} {t : τ} :
    token p s = some (t, rest) ↔ s = t :: rest ∧ p t = true := by
  cases s with
  | nil => simp [token]
  | cons u s =>
      simp only [token, Option.ite_none_right_eq_some, Option.some.injEq, Prod.mk.injEq,
        List.cons.injEq]
      constructor
      · rintro ⟨hp, rfl, rfl⟩
        exact ⟨⟨rfl, rfl⟩, hp⟩
      · rintro ⟨⟨rfl, rfl⟩, hp⟩
        exact ⟨hp, rfl, rfl⟩

/-- The longest run of tokens that pass. -/
def run (p : τ → Bool) : Reader τ (List τ) := fun s => some (s.takeWhile p, s.dropWhile p)

/-- The value of the reader, or `none` where it fails. -/
def optional (r : Reader τ α) : Reader τ (Option α) := fun s =>
  match r s with
  | some (a, rest) => some (some a, rest)
  | none => some (none, s)

/-- The value of the reader on an input that it reads to the end. -/
def parse (r : Reader τ α) (s : List τ) : Option α :=
  match r s with
  | some (a, []) => some a
  | _ => none

/-- A text parses when a reader takes it to its end. -/
theorem parse_isSome {r : Reader τ α} {s : List τ} :
    (r.parse s).isSome = true ↔ ∃ a, r s = some (a, []) := by
  unfold parse
  constructor
  · intro h
    split at h
    · rename_i a hr
      exact ⟨a, hr⟩
    · cases h
  · rintro ⟨a, hr⟩
    rw [hr]
    rfl

/-! ### What a reader leaves -/

/-- What the reader leaves is a tail of its input. -/
def Consumes (r : Reader τ α) : Prop := ∀ s a rest, r s = some (a, rest) → ∃ x, s = x ++ rest

/-- The reader does not look past the token. -/
def Blind (c : τ) (r : Reader τ α) : Prop :=
  ∀ s rest, r (s ++ c :: rest) = (r s).map fun x => (x.1, x.2 ++ c :: rest)

/-- A reader that has stopped in front of a token it is blind to has read the input up to
there. -/
theorem Blind.split {c : τ} {r : Reader τ α} (hb : Blind c r) (hc : Consumes r) {s rest : List τ}
    {a : α} (h : r s = some (a, c :: rest)) : ∃ x, s = x ++ c :: rest ∧ r x = some (a, []) := by
  obtain ⟨x, rfl⟩ := hc s a _ h
  refine ⟨x, rfl, ?_⟩
  rw [hb, Option.map_eq_some_iff] at h
  obtain ⟨⟨b, y⟩, hx, hy⟩ := h
  simp only [Prod.mk.injEq, List.append_left_eq_self] at hy
  obtain ⟨rfl, rfl⟩ := hy
  exact hx

/-- What the reader reads to the end, it reads as well in front of the token. -/
theorem Blind.append {c : τ} {r : Reader τ α} (hb : Blind c r) {x : List τ} {a : α}
    (h : r x = some (a, [])) (rest : List τ) : r (x ++ c :: rest) = some (a, c :: rest) := by
  rw [hb, h]
  rfl

/-! ### How the properties go through the combinators -/

/-- Two readers in a row: the second takes what the first has left. -/
theorem bind_eq (r : Reader τ α) (f : α → Reader τ β) (s : List τ) :
    (r >>= f) s = (r s).bind fun x => f x.1 x.2 := rfl

/-- The second reader starts where the first one did. -/
theorem orElse_eq (r r' : Reader τ α) (s : List τ) : (r <|> r') s = (r s <|> r' s) := rfl

section Consumes

/-- A reader that takes nothing leaves the whole text. -/
theorem consumes_pure (a : α) : Consumes (pure a : Reader τ α) := by
  intro s b rest h
  cases h
  exact ⟨[], rfl⟩

/-- A reader that always fails never leaves more than there was. -/
theorem consumes_failure : Consumes (failure : Reader τ α) := by
  intro s b rest h
  cases h

/-- What is left after a token is a part of the text. -/
theorem consumes_token (p : τ → Bool) : Consumes (token p) := by
  intro s b rest h
  exact ⟨[b], (token_eq_some.mp h).1⟩

/-- What is left after a run of tokens is a part of the text. -/
theorem consumes_run (p : τ → Bool) : Consumes (run p) := by
  intro s b rest h
  cases h
  exact ⟨s.takeWhile p, List.takeWhile_append_dropWhile.symm⟩

/-- Two readers in a row leave a part of what the first has left. -/
theorem consumes_bind {r : Reader τ α} {f : α → Reader τ β} (hr : Consumes r)
    (hf : ∀ a, Consumes (f a)) : Consumes (r >>= f) := by
  intro s b rest h
  rw [bind_eq, Option.bind_eq_some_iff] at h
  obtain ⟨⟨a, t⟩, hs, ht⟩ := h
  obtain ⟨x, rfl⟩ := hr s a t hs
  obtain ⟨y, rfl⟩ := hf a t b rest ht
  exact ⟨x ++ y, by simp⟩

/-- An optional part leaves the text as it is when it is not there. -/
theorem consumes_optional {r : Reader τ α} (hr : Consumes r) : Consumes r.optional := by
  intro s b rest h
  unfold optional at h
  split at h
  · rename_i a t hs
    cases h
    exact hr s a _ hs
  · cases h
    exact ⟨[], rfl⟩

/-- A list of readers, one after the other. -/
theorem consumes_mapM {f : α → Reader τ β} (hf : ∀ a, Consumes (f a)) (l : List α) :
    Consumes (l.mapM f) := by
  induction l with
  | nil => exact consumes_pure _
  | cons a l ih =>
      rw [List.mapM_cons]
      exact consumes_bind (hf a) fun b => consumes_bind ih fun bs => consumes_pure _

end Consumes

section Blind

variable {c : τ}

/-- A reader that takes nothing cannot tell what follows. -/
theorem blind_pure (a : α) : Blind c (pure a : Reader τ α) := fun _ _ => rfl

/-- A reader that always fails cannot tell what follows. -/
theorem blind_failure : Blind c (failure : Reader τ α) := fun _ _ => rfl

/-- A token that differs from `c` is read the same with `c` and anything after it. -/
theorem blind_token {p : τ → Bool} (hp : p c = false) : Blind c (token p) := by
  intro s rest
  cases s with
  | nil => simp [token, hp]
  | cons t s =>
      simp only [token, List.cons_append]
      split <;> rfl

/-- A run of tokens ends before `c`, if `c` does not pass its test. -/
theorem blind_run {p : τ → Bool} (hp : p c = false) : Blind c (run p) := by
  intro s rest
  simp only [run, Option.map_some, Option.some.injEq, Prod.mk.injEq]
  induction s with
  | nil => simp [hp]
  | cons t s ih =>
      by_cases ht : p t = true
      · simp only [List.cons_append, List.takeWhile_cons_of_pos ht, List.dropWhile_cons_of_pos ht]
        exact ⟨congrArg (t :: ·) ih.1, ih.2⟩
      · simp [List.takeWhile_cons_of_neg ht, List.dropWhile_cons_of_neg ht]

/-- A list splits in one way at the first occurrence of a token. -/
theorem eq_of_append_cons_eq [DecidableEq τ] {l l' r r' : List τ} (hl : c ∉ l) (hl' : c ∉ l')
    (h : l ++ c :: r = l' ++ c :: r') : r = r' := by
  have hstop : Blind c (run (· != c)) := blind_run (by simp)
  have hrun : ∀ {l : List τ}, c ∉ l → run (· != c) l = some (l, []) := by
    intro l hl
    have hall : ∀ t ∈ l, (t != c) = true := fun t ht => by
      rw [bne_iff_ne]
      rintro rfl
      exact hl ht
    rw [run, List.takeWhile_eq_self_iff.mpr hall, List.dropWhile_eq_nil_iff.mpr hall]
  have hboth := hstop.append (hrun hl) r
  rw [h, hstop.append (hrun hl') r'] at hboth
  exact (List.cons.inj (Prod.mk.inj (Option.some.inj hboth)).2).2.symm

/-- Two readers that both stop before `c`. -/
theorem blind_bind {r : Reader τ α} {f : α → Reader τ β} (hr : Blind c r)
    (hf : ∀ a, Blind c (f a)) : Blind c (r >>= f) := by
  intro s rest
  rw [bind_eq, bind_eq, hr]
  cases r s with
  | none => rfl
  | some x => exact hf x.1 x.2 rest

/-- An optional part that stops before `c`. -/
theorem blind_optional {r : Reader τ α} (hr : Blind c r) : Blind c r.optional := by
  intro s rest
  unfold optional
  rw [hr]
  cases r s <;> rfl

/-- A list of readers that all stop before `c`. -/
theorem blind_mapM {f : α → Reader τ β} (hf : ∀ a, Blind c (f a)) (l : List α) :
    Blind c (l.mapM f) := by
  induction l with
  | nil => exact blind_pure _
  | cons a l ih =>
      rw [List.mapM_cons]
      exact blind_bind (hf a) fun b => blind_bind ih fun bs => blind_pure _

end Blind

end Reader

end Tim.Lib
