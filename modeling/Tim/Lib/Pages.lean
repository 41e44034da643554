import Mathlib.Data.List.Sort
import Mathlib.Data.List.Perm.Basic

/-!
# `Tim.Lib.Pages`: reading a sorted table page by page

A client reads a table in pages of `size` rows, each by a query of its own with `ORDER BY key DESC`,
a `LIMIT` and an `OFFSET`. Rows with the same key come in an order that can differ from query to
query. `Descends key rows order` is what a query promises of the order it uses, and `pages` puts the
pages together, each cut from the order of its own query.

`pages_perm_iff` says when the pages always give the table back, as far as a view `f` of the rows
can tell: no page ends inside a group of rows with one key that `f` tells apart.
-/

set_option autoImplicit false

namespace Tim.Lib

variable {α β κ : Type} [LinearOrder κ] {key : α → κ}

/-- The order is one of the rows by descending keys. -/
structure Descends (key : α → κ) (rows order : List α) : Prop where
  perm : order.Perm rows
  sorted : order.Pairwise fun a b => key b ≤ key a

/-- Page number `k` of an order. -/
def page (size k : Nat) (order : List α) : List α := (order.drop (k * size)).take size

/-- The first `n` pages, the page number `k` from its own order. -/
def pages (size n : Nat) (order : Nat → List α) : List α :=
  (List.range n).flatMap fun k => page size k (order k)

/-- The rows with a larger key than `t`. -/
def above (key : α → κ) (t : κ) (rows : List α) : List α := rows.filter fun a => t < key a

/-- The rows with the key `t`. -/
def level (key : α → κ) (t : κ) (rows : List α) : List α := rows.filter fun a => key a = t

/-- The rows with a smaller key than `t`. -/
def below (key : α → κ) (t : κ) (rows : List α) : List α := rows.filter fun a => key a < t

/-- Some page ends inside the group of the rows with the key `t`. -/
def Cuts (key : α → κ) (size : Nat) (rows : List α) (t : κ) : Prop :=
  ∃ k, (above key t rows).length < k * size
    ∧ k * size < (above key t rows).length + (level key t rows).length

/-! ### Groups of a sorted list -/

/-- A descending list is the three groups of any key. -/
theorem groups_of_sorted {l : List α} (h : l.Pairwise fun a b => key b ≤ key a) (t : κ) :
    l = above key t l ++ (level key t l ++ below key t l) := by
  induction l with
  | nil => rfl
  | cons a l ih =>
      rw [List.pairwise_cons] at h
      have ih := ih h.2
      rcases lt_trichotomy t (key a) with hlt | heq | hgt
      · simp only [above, level, below, List.filter_cons, hlt, hlt.ne', hlt.not_gt,
          decide_true, decide_false, ↓reduceIte, Bool.false_eq_true, List.cons_append,
          List.cons.injEq, true_and]
        exact ih
      · -- Nothing after `a` is above its key.
        have hnone : above key t l = [] := by
          rw [above, List.filter_eq_nil_iff]
          intro b hb
          simpa [heq] using h.1 b hb
        rw [hnone, List.nil_append] at ih
        simp only [above, level, below, List.filter_cons, heq, lt_irrefl, decide_false,
          decide_true, ↓reduceIte, Bool.false_eq_true]
        rw [← heq]
        simp only [above] at hnone
        rw [hnone, List.nil_append, List.cons_append]
        exact congrArg (a :: ·) ih
      · have hnone : above key t l = [] ∧ level key t l = [] := by
          simp only [above, level, List.filter_eq_nil_iff, decide_eq_true_eq]
          exact ⟨fun b hb => not_lt.mpr ((h.1 b hb).trans hgt.le),
            fun b hb => ((h.1 b hb).trans_lt hgt).ne⟩
        rw [hnone.1, hnone.2, List.nil_append, List.nil_append] at ih
        simp only [above, level] at hnone
        simp only [above, level, below, List.filter_cons, hgt, hgt.ne, hgt.not_gt, decide_false,
          decide_true, ↓reduceIte, Bool.false_eq_true, hnone.1, hnone.2, List.nil_append]
        exact congrArg (a :: ·) ih

/-- A permutation of the rows permutes the rows above a key and the rows at a key, each among
themselves. -/
theorem perm_groups (key : α → κ) {l rows : List α} (h : l.Perm rows) (t : κ) :
    (above key t l).Perm (above key t rows) ∧ (level key t l).Perm (level key t rows) :=
  ⟨h.filter _, h.filter _⟩

/-- The first rows of a descending list, up to a place inside the group of `t`. -/
theorem take_of_level {l : List α} (h : l.Pairwise fun a b => key b ≤ key a) {t : κ} {b : Nat}
    (hlo : (above key t l).length ≤ b)
    (hhi : b ≤ (above key t l).length + (level key t l).length) :
    l.take b = above key t l ++ (level key t l).take (b - (above key t l).length) := by
  conv_lhs => rw [groups_of_sorted h t]
  rw [List.take_append, List.take_of_length_le hlo, List.take_append_of_le_length (by omega)]

/-- A row of a descending list stands in the group of its key. -/
theorem level_of_getElem? {l : List α} (h : l.Pairwise fun a b => key b ≤ key a) {i : Nat} {x : α}
    (hx : l[i]? = some x) :
    (above key (key x) l).length ≤ i
      ∧ i < (above key (key x) l).length + (level key (key x) l).length := by
  rw [groups_of_sorted h (key x)] at hx
  constructor
  · by_contra hlt
    rw [List.getElem?_append_left (by omega)] at hx
    have hmem := (List.mem_filter.mp (List.mem_of_getElem? hx)).2
    exact lt_irrefl _ (of_decide_eq_true hmem)
  · by_contra hge
    rw [List.getElem?_append_right (by omega), List.getElem?_append_right (by omega)] at hx
    have hmem := (List.mem_filter.mp (List.mem_of_getElem? hx)).2
    exact lt_irrefl _ (of_decide_eq_true hmem)

/-! ### One boundary -/

/-- A row of a group with one view has that view. -/
theorem map_take_const {f : α → β} {w : β} {l : List α} (h : ∀ a ∈ l, f a = w) {n : Nat}
    (hn : n ≤ l.length) : (l.take n).map f = List.replicate n w := by
  rw [List.eq_replicate_iff]
  constructor
  · simpa using hn
  · intro b hb
    obtain ⟨a, ha, rfl⟩ := List.mem_map.mp hb
    exact h a (List.mem_of_mem_take ha)

/-- Two orders of the same rows have the same rows before a boundary that cuts no group, as far as
the view can tell. -/
theorem take_perm {rows l l' : List α} {f : α → β} {b : Nat} (hl : Descends key rows l)
    (hl' : Descends key rows l')
    (hcut : ∀ t, (above key t rows).length < b →
      b < (above key t rows).length + (level key t rows).length →
      ∀ x ∈ rows, ∀ y ∈ rows, key x = t → key y = t → f x = f y) :
    ((l.take b).map f).Perm ((l'.take b).map f) := by
  have hlen : l.length = l'.length := hl.perm.length_eq.trans hl'.perm.length_eq.symm
  by_cases hall : l.length ≤ b
  · rw [List.take_of_length_le hall, List.take_of_length_le (hlen ▸ hall)]
    exact (hl.perm.trans hl'.perm.symm).map f
  by_cases hnone : b = 0
  · simp [hnone]
  -- The last row before the boundary decides which group the boundary is at.
  obtain ⟨x, hx⟩ : ∃ x, l[b - 1]? = some x :=
    ⟨_, List.getElem?_eq_getElem (show b - 1 < l.length by omega)⟩
  obtain ⟨hlo, hhi⟩ := level_of_getElem? hl.sorted hx
  have habove := (perm_groups key (hl.perm.trans hl'.perm.symm) (key x)).1
  have hlevel := (perm_groups key (hl.perm.trans hl'.perm.symm) (key x)).2
  have hrows := perm_groups key hl.perm (key x)
  rw [take_of_level hl.sorted (show (above key (key x) l).length ≤ b by omega) (by omega),
    take_of_level hl'.sorted (t := key x) (by rw [← habove.length_eq]; omega)
      (by rw [← habove.length_eq, ← hlevel.length_eq]; omega),
    List.map_append, List.map_append, ← habove.length_eq]
  refine (habove.map f).append ?_
  by_cases hend : b = (above key (key x) l).length + (level key (key x) l).length
  · -- The group ends here.
    rw [hend, Nat.add_sub_cancel_left, List.take_length, hlevel.length_eq, List.take_length]
    exact hlevel.map f
  · -- The boundary cuts the group, and the view does not tell its rows apart.
    have hsame := hcut (key x) (by rw [← hrows.1.length_eq]; omega)
      (by rw [← hrows.1.length_eq, ← hrows.2.length_eq]; omega)
    have hmem : x ∈ rows := hl.perm.subset (List.mem_of_getElem? hx)
    have hconst : ∀ order, Descends key rows order →
        ∀ a ∈ level key (key x) order, f a = f x := by
      intro order horder a ha
      obtain ⟨ha, hkey⟩ := List.mem_filter.mp ha
      exact hsame a (horder.perm.subset ha) x hmem (of_decide_eq_true hkey) rfl
    rw [map_take_const (hconst l hl) (by omega),
      map_take_const (hconst l' hl') (by rw [← hlevel.length_eq]; omega)]

/-! ### Pages -/

/-- The first pages and the next one are one page more. -/
theorem take_page (size k : Nat) (l : List α) :
    l.take ((k + 1) * size) = l.take (k * size) ++ page size k l := by
  rw [Nat.succ_mul, List.take_add]
  rfl

/-- One order for all pages gives its first rows. -/
theorem pages_const (size n : Nat) (l : List α) :
    pages size n (fun _ => l) = l.take (n * size) := by
  induction n with
  | zero => simp [pages]
  | succ n ih =>
      rw [pages, List.range_succ, List.flatMap_append, take_page, ← ih]
      simp [pages]

/-- A page has the same rows in two orders, when none of its two ends cuts a group. -/
theorem page_perm {rows l l' : List α} {f : α → β} {size k : Nat} (hl : Descends key rows l)
    (hl' : Descends key rows l')
    (hcut : ∀ t, Cuts key size rows t →
      ∀ x ∈ rows, ∀ y ∈ rows, key x = t → key y = t → f x = f y) :
    ((page size k l).map f).Perm ((page size k l').map f) := by
  have hstart := take_perm (f := f) (b := k * size) hl hl' fun t hlo hhi => hcut t ⟨k, hlo, hhi⟩
  have hend := take_perm (f := f) (b := (k + 1) * size) hl hl' fun t hlo hhi =>
    hcut t ⟨k + 1, hlo, hhi⟩
  rw [take_page, take_page, List.map_append, List.map_append] at hend
  exact (List.perm_append_left_iff _).mp ((hstart.symm.append_right _).trans hend)

/-- Every table has an order. -/
theorem exists_descends (key : α → κ) (rows : List α) : ∃ order, Descends key rows order := by
  refine ⟨rows.mergeSort fun a b => decide (key b ≤ key a), List.mergeSort_perm _ _, ?_⟩
  have hsorted := @List.pairwise_mergeSort _ (fun a b => decide (key b ≤ key a))
    (fun a b c hab hbc => by
      simp only [decide_eq_true_eq] at hab hbc ⊢
      exact hbc.trans hab)
    (fun a b => by simpa using le_total (key b) (key a)) rows
  exact hsorted.imp fun h => of_decide_eq_true h

/-! ### A group that is cut -/

/-- The group of one key can stand in any order of its own. -/
theorem descends_regroup {rows l group : List α} {t : κ} (hl : Descends key rows l)
    (hgroup : group.Perm (level key t l)) :
    Descends key rows (above key t l ++ (group ++ below key t l)) := by
  constructor
  · have hperm : (above key t l ++ (group ++ below key t l)).Perm
        (above key t l ++ (level key t l ++ below key t l)) :=
      (hgroup.append_right _).append_left _
    rw [← groups_of_sorted hl.sorted t] at hperm
    exact hperm.trans hl.perm
  · have hin : ∀ a ∈ group, key a = t := by
      intro a ha
      exact of_decide_eq_true (List.mem_filter.mp (hgroup.subset ha)).2
    have hup : ∀ a ∈ above key t l, t < key a := fun a ha =>
      of_decide_eq_true (List.mem_filter.mp ha).2
    have hdown : ∀ a ∈ below key t l, key a < t := fun a ha =>
      of_decide_eq_true (List.mem_filter.mp ha).2
    rw [List.pairwise_append, List.pairwise_append]
    refine ⟨hl.sorted.filter _, ⟨?_, hl.sorted.filter _, ?_⟩, ?_⟩
    · exact List.pairwise_of_forall_mem_list fun a ha b hb => by rw [hin a ha, hin b hb]
    · intro a ha b hb
      rw [hin a ha]
      exact (hdown b hb).le
    · intro a ha b hb
      rcases List.mem_append.mp hb with hb | hb
      · rw [hin b hb]
        exact (hup a ha).le
      · exact ((hdown b hb).trans (hup a ha)).le

/-- Two rows of a group that is cut stand on both sides of the cut in some order, and the other
way round in another. -/
theorem exists_swap {rows : List α} {size k : Nat} {x y : α} (hne : x ≠ y) (hx : x ∈ rows)
    (hy : y ∈ rows) (hkey : key y = key x) (hlo : (above key (key x) rows).length < k * size)
    (hhi : k * size < (above key (key x) rows).length + (level key (key x) rows).length) :
    ∃ front back, front.length + 1 = k * size
      ∧ Descends key rows (front ++ x :: y :: back)
      ∧ Descends key rows (front ++ y :: x :: back) := by
  classical
  obtain ⟨l, hl⟩ := exists_descends key rows
  have hgroups := perm_groups key hl.perm (key x)
  have hxl : x ∈ level key (key x) l :=
    List.mem_filter.mpr ⟨hl.perm.symm.subset hx, by simp⟩
  have hyl : y ∈ (level key (key x) l).erase x := by
    rw [List.mem_erase_of_ne hne.symm]
    exact List.mem_filter.mpr ⟨hl.perm.symm.subset hy, by simpa using hkey⟩
  let rest := ((level key (key x) l).erase x).erase y
  have hrest : (x :: y :: rest).Perm (level key (key x) l) :=
    ((List.perm_cons_erase hyl).symm.cons x).trans (List.perm_cons_erase hxl).symm
  have hlen : rest.length + 2 = (level key (key x) rows).length := by
    rw [← hgroups.2.length_eq, ← hrest.length_eq]
    rfl
  -- The number of rows of the group that stand before the two.
  let j := k * size - 1 - (above key (key x) l).length
  have hj : j ≤ rest.length := by
    have := hgroups.1.length_eq
    omega
  have hsplit : ∀ a b, [a, b].Perm [x, y] →
      (rest.take j ++ a :: b :: rest.drop j).Perm (level key (key x) l) := by
    intro a b hab
    refine List.Perm.trans ?_ hrest
    have h₁ : (rest.take j ++ ([a, b] ++ rest.drop j)).Perm
        ([a, b] ++ (rest.take j ++ rest.drop j)) :=
      List.perm_append_comm_assoc _ _ _
    rw [List.take_append_drop] at h₁
    exact h₁.trans (hab.append_right rest)
  refine ⟨above key (key x) l ++ rest.take j, rest.drop j ++ below key (key x) l, ?_, ?_, ?_⟩
  · rw [List.length_append, List.length_take, Nat.min_eq_left hj, hgroups.1.length_eq]
    have := hgroups.1.length_eq
    omega
  · simpa using descends_regroup hl (hsplit x y (.refl _))
  · simpa using descends_regroup hl (hsplit y x (.swap x y []))

/-- A change of one page is seen in that page. -/
theorem page_of_pages {size n k : Nat} (hk : k < n) {f : α → β} {order order' : Nat → List α}
    (hsame : ∀ i, i ≠ k → order' i = order i)
    (h : ((pages size n order).map f).Perm ((pages size n order').map f)) :
    ((page size k (order k)).map f).Perm ((page size k (order' k)).map f) := by
  obtain ⟨a, b, hab⟩ := List.append_of_mem (List.mem_range.mpr hk)
  have hnodup := List.nodup_range (n := n)
  rw [hab] at hnodup
  have hnotin : ∀ i, i ∈ a ∨ i ∈ b → i ≠ k := by
    rintro i hi rfl
    rw [List.nodup_append, List.nodup_cons] at hnodup
    rcases hi with hi | hi
    · exact hnodup.2.2 i hi i List.mem_cons_self rfl
    · exact hnodup.2.1.1 hi
  have hrest : ∀ is : List Nat, (∀ i ∈ is, i ≠ k) →
      (is.flatMap fun i => page size i (order' i)) = is.flatMap fun i => page size i (order i) := by
    intro is his
    exact List.flatMap_congr fun i hi => by rw [hsame i (his i hi)]
  unfold pages at h
  rw [hab, List.flatMap_append, List.flatMap_append, List.flatMap_cons, List.flatMap_cons,
    hrest a fun i hi => hnotin i (.inl hi), hrest b fun i hi => hnotin i (.inr hi)] at h
  simp only [List.map_append] at h
  exact (List.perm_append_right_iff _).mp ((List.perm_append_left_iff _).mp h)

/-- The rows above a key and those of the key are among the rows. -/
theorem groups_length_le (key : α → κ) (rows : List α) (t : κ) :
    (above key t rows).length + (level key t rows).length ≤ rows.length := by
  obtain ⟨l, hl⟩ := exists_descends key rows
  have hgroups := groups_of_sorted hl.sorted t
  have hperm := perm_groups key hl.perm t
  have hlen := hl.perm.length_eq
  rw [hgroups] at hlen
  simp only [List.length_append] at hlen
  have habove := hperm.1.length_eq
  have hlevel := hperm.2.length_eq
  omega

/-- A page that starts at the second of two neighbours. -/
theorem page_second {front back : List α} {a b : α} {k m : Nat}
    (hlen : front.length + 1 = k * (m + 1)) :
    page (m + 1) k (front ++ a :: b :: back) = b :: back.take m := by
  unfold page
  rw [← hlen, List.drop_append, List.drop_of_length_le (by omega)]
  simp

/-- Enough pages give the rows back in every order of the queries, as far as the view can tell,
exactly when no page ends inside a group of one key that the view tells apart. -/
theorem pages_perm_iff {rows : List α} {f : α → β} {size n : Nat} (hsize : 0 < size)
    (hn : rows.length ≤ n * size) :
    (∀ order : Nat → List α, (∀ k, Descends key rows (order k)) →
        ((pages size n order).map f).Perm (rows.map f))
      ↔ ∀ t, Cuts key size rows t →
        ∀ x ∈ rows, ∀ y ∈ rows, key x = t → key y = t → f x = f y := by
  constructor
  · rintro h t ⟨k, hlo, hhi⟩ x hx y hy rfl hkey
    by_contra hf
    have hne : x ≠ y := fun heq => hf (by rw [heq])
    obtain ⟨front, back, hlen, horder, hswap⟩ := exists_swap hne hx hy hkey hlo hhi
    have hk : k < n := by
      have hle := groups_length_le key rows (key x)
      exact Nat.lt_of_mul_lt_mul_right (hhi.trans_le (hle.trans hn))
    -- Only the query for page `k` returns the two rows the other way round.
    have hpages := (h (fun _ => front ++ x :: y :: back) fun _ => horder).trans
      (h (fun i => if i = k then front ++ y :: x :: back else front ++ x :: y :: back)
        fun i => by
          split
          · exact hswap
          · exact horder).symm
    have hpage := page_of_pages hk (fun i hi => if_neg hi) hpages
    rw [if_pos rfl] at hpage
    obtain ⟨m, rfl⟩ : ∃ m, size = m + 1 := ⟨size - 1, by omega⟩
    rw [page_second hlen, page_second hlen, List.map_cons, List.map_cons] at hpage
    have hsingle : [f y].Perm [f x] :=
      (List.perm_append_right_iff ((back.take m).map f)).mp hpage
    exact hf (by simpa using hsingle.symm)
  · intro hcut order horder
    obtain ⟨l, hl⟩ := exists_descends key rows
    -- Each page shows what it would show if all queries used one order.
    have hconst : ((pages size n order).map f).Perm ((pages size n fun _ => l).map f) := by
      unfold pages
      rw [List.map_flatMap, List.map_flatMap]
      exact List.Perm.flatMap_left _ fun k _ => page_perm (horder k) hl hcut
    rw [pages_const, List.take_of_length_le (hl.perm.length_eq ▸ hn)] at hconst
    exact hconst.trans (hl.perm.map f)

end Tim.Lib
