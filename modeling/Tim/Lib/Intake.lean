import Mathlib.Data.Finset.Card
import Mathlib.Data.Finset.Dedup
import Mathlib.Data.List.ReduceOption

/-!
# `Tim.Lib.Intake`: taking in a batch of keys, each key once

A batch of inputs is taken in one after the other. An input has a key, or it has none and fails. A
key that is not there yet is new and is added. A key that is there already, from before the batch or
from an earlier input of it, is known. `outcomes` lists what becomes of each input and `taken` is
the list of keys afterwards.

The counts and the set of keys do not depend on the order of the batch: `count_added` and
`mem_taken` give them from the batch as a set.
-/

set_option autoImplicit false

namespace Tim.Lib

/-- What becomes of one input. -/
inductive Outcome where
  | added
  | known
  | failed
  deriving DecidableEq

variable {κ : Type} [DecidableEq κ]

/-- The outcome of an input with its key. -/
def outcome (seen : List κ) : Option κ → Outcome
  | none => .failed
  | some k => if k ∈ seen then .known else .added

/-- The keys after an input. -/
def takeIn (seen : List κ) : Option κ → List κ
  | none => seen
  | some k => if k ∈ seen then seen else seen ++ [k]

/-- The outcomes of a batch. -/
def outcomes (seen : List κ) : List (Option κ) → List Outcome
  | [] => []
  | k :: ks => outcome seen k :: outcomes (takeIn seen k) ks

/-- The keys after a batch. -/
def taken (seen : List κ) : List (Option κ) → List κ
  | [] => seen
  | k :: ks => taken (takeIn seen k) ks

variable {seen : List κ} {ks : List (Option κ)} {u : κ}

/-- After a key was taken in, the seen ones are those from before and that key, if there was one. -/
theorem mem_takeIn {k : Option κ} : u ∈ takeIn seen k ↔ u ∈ seen ∨ k = some u := by
  cases k with
  | none => simp [takeIn]
  | some k =>
      by_cases hk : k ∈ seen
      · simp only [takeIn, hk, if_true, Option.some.injEq]
        constructor
        · exact .inl
        · rintro (h | rfl)
          · exact h
          · exact hk
      · simp [takeIn, hk, eq_comm]

/-- The keys after a batch are those from before and those of the batch. -/
theorem mem_taken : u ∈ taken seen ks ↔ u ∈ seen ∨ some u ∈ ks := by
  induction ks generalizing seen with
  | nil => simp [taken]
  | cons k ks ih =>
      rw [taken, ih, mem_takeIn, List.mem_cons, or_assoc]
      exact or_congr_right (or_congr_left eq_comm)

/-- Every key of a batch has one outcome. -/
theorem length_outcomes (seen : List κ) (ks : List (Option κ)) :
    (outcomes seen ks).length = ks.length := by
  induction ks generalizing seen with
  | nil => rfl
  | cons k ks ih => rw [outcomes, List.length_cons, List.length_cons, ih]

/-- Every input has one of the three outcomes. -/
theorem count_outcomes (os : List Outcome) :
    os.count .added + os.count .known + os.count .failed = os.length := by
  induction os with
  | nil => rfl
  | cons o os ih =>
      cases o <;> simp only [List.count_cons, List.length_cons] <;> simp <;> omega

/-- The number of new keys is the number of distinct keys of the batch that were not there. -/
theorem count_added (seen : List κ) (ks : List (Option κ)) :
    (outcomes seen ks).count .added = (ks.reduceOption.toFinset \ seen.toFinset).card := by
  induction ks generalizing seen with
  | nil => simp [outcomes]
  | cons k ks ih =>
      rw [outcomes, List.count_cons, ih]
      cases k with
      | none => simp [outcome, takeIn]
      | some k =>
          rw [List.reduceOption_cons_of_some, List.toFinset_cons]
          by_cases hk : k ∈ seen
          · simp [outcome, takeIn, hk, Finset.insert_sdiff_of_mem]
          · -- The new key leaves the rest of the batch, so it counts once.
            have hnot : k ∉ ks.reduceOption.toFinset \ (seen ++ [k]).toFinset := by simp
            have hsplit : insert k ks.reduceOption.toFinset \ seen.toFinset
                = insert k (ks.reduceOption.toFinset \ (seen ++ [k]).toFinset) := by
              ext u
              by_cases hu : u = k
              · simp [hu, hk]
              · simp [hu]
            rw [hsplit, Finset.card_insert_of_notMem hnot]
            simp [outcome, takeIn, hk]

end Tim.Lib
