import Mathlib.Logic.Relation
import Mathlib.Tactic.Common

/-!
# `Tim.Lib.Parent`: following a parent pointer

A partial map `parent : α → Option α` on a set where a rank goes down at every step. Then no
element is its own ancestor, and following the pointer ends at an element without a parent.
-/

set_option autoImplicit false

namespace Tim.Lib

open Relation

variable {α : Type} {parent : α → Option α} {S : α → Prop} {rank : α → Nat}

/-- `b` is the parent of `a`. -/
def ParentOf (parent : α → Option α) (a b : α) : Prop := parent a = some b

/-- The rank of a proper ancestor is smaller. -/
theorem rank_lt_of_transGen (hstep : ∀ a b, S a → parent a = some b → S b ∧ rank b < rank a)
    {a b : α} (ha : S a) (h : TransGen (ParentOf parent) a b) : S b ∧ rank b < rank a := by
  induction h with
  | single hab => exact hstep _ _ ha hab
  | tail _ hbc ih =>
      obtain ⟨hb, hlt⟩ := ih
      obtain ⟨hc, hlt'⟩ := hstep _ _ hb hbc
      exact ⟨hc, Nat.lt_trans hlt' hlt⟩

/-- No element is its own ancestor. -/
theorem not_transGen_self (hstep : ∀ a b, S a → parent a = some b → S b ∧ rank b < rank a)
    {a : α} (ha : S a) : ¬ TransGen (ParentOf parent) a a :=
  fun h => Nat.lt_irrefl _ (rank_lt_of_transGen hstep ha h).2

/-- Following the pointer ends at an element without a parent. -/
theorem exists_root (hstep : ∀ a b, S a → parent a = some b → S b ∧ rank b < rank a)
    {a : α} (ha : S a) :
    ∃ b, S b ∧ ReflTransGen (ParentOf parent) a b ∧ parent b = none := by
  -- The induction is on the rank.
  generalize hn : rank a = n
  induction n using Nat.strongRecOn generalizing a with
  | _ n ih =>
      cases hp : parent a with
      | none => exact ⟨a, ha, .refl, hp⟩
      | some b =>
          obtain ⟨hb, hlt⟩ := hstep a b ha hp
          obtain ⟨root, hroot, hpath, hnone⟩ := ih (rank b) (by omega) hb rfl
          exact ⟨root, hroot, .head hp hpath, hnone⟩

end Tim.Lib
