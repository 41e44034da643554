import Mathlib.Order.Bounds.Basic
import Tim.Proofs.Listing

/-!
# `Tim.Proofs.Paging`: the numbers of a page, and all pages together

`list_for_subject` computes its `OFFSET` and the number of pages in `i64`. `paging_exact` says when
these numbers are the exact ones: a page number times the page size has to fit in the type, and so
has the number of rows with the last page filled up.

A client that reads all pages of a list sends one query for each, and learns from the responses how
many there are. The order of the query is by `issued_at` alone, so rows that were issued at the same
instant can change places between two queries. `pages_complete` says when the pages give every
matching row exactly once: no page ends between two rows of the same `issued_at`.

* `window_page`: the rows of a page are a window of the matching rows.
* `count_of_readsPages`, `tokens_of_readsPages`: what a client reads that follows the page count of
  the replies.
-/

set_option autoImplicit false

namespace Tim

open Tim.Lib Tim.Action
open Tim.Lib.Prog (Meets Solo)
open Store

/-! ### `i64` -/

/-- A negative number is raised to zero. -/
theorem toInt_max_zero (a : Int64) : (max a 0).toInt = max a.toInt 0 := by
  have h : max a 0 = if a ≤ 0 then 0 else a := rfl
  have hzero : (0 : Int64).toInt = 0 := rfl
  rw [h]
  split
  · rename_i hle
    rw [Int64.le_iff_toInt_le, hzero] at hle
    rw [hzero, Int.max_eq_right hle]
  · rename_i hle
    rw [Int64.le_iff_toInt_le, hzero] at hle
    rw [Int.max_eq_left (by omega)]

/-- A product of two numbers that are not negative wraps exactly when it leaves the type. -/
theorem toInt_mul_eq {a b : Int64} (ha : 0 ≤ a.toInt) (hb : 0 ≤ b.toInt) :
    (a * b).toInt = a.toInt * b.toInt ↔ a.toInt * b.toInt < 2 ^ 63 := by
  have hnonneg : 0 ≤ a.toInt * b.toInt := Int.mul_nonneg ha hb
  constructor
  · intro h
    rw [← h]
    exact (a * b).toInt_lt
  · intro h
    rw [Int64.toInt_mul, Int.bmod_eq_of_le]
    · omega
    · omega

/-- The division rounds towards zero, so a dividend that is not positive gives no positive quotient.
-/
theorem tdiv_nonpos {w s : Int} (hw : w ≤ 0) (hs : 0 < s) : w.tdiv s ≤ 0 := by
  have h := Int.tdiv_le_tdiv hs hw
  rwa [Int.zero_tdiv] at h

namespace ListRequest

variable (req : ListRequest)

/-- The limit is clamped, so a page has one to two hundred rows. -/
theorem size_bounds : 1 ≤ req.size.toInt ∧ req.size.toInt ≤ 200 := by
  have hone : (1 : Int64).toInt = 1 := rfl
  have htop : (200 : Int64).toInt = 200 := rfl
  unfold size JwtService.clamp
  split
  · decide
  · split
    · decide
    · rename_i hlo hhi
      rw [Int64.lt_iff_toInt_lt] at hlo hhi
      omega

/-- The page number, or the row offset, that a request asks for. -/
def asked : Int := max (req.offset.getD 0).toInt 0

/-- A negative offset is raised, so what is asked for is not negative. -/
theorem asked_nonneg : 0 ≤ req.asked := Int.le_max_right _ _

/-- With `byRow` the offset is a number of rows, and no product is taken. -/
theorem offset_byRow (h : req.byRow = true) (total : Int64) :
    (req.pagination total).offset.toInt = req.asked
      ∧ (req.pagination total).page.toInt = req.asked / req.size.toInt := by
  obtain ⟨hlo, hhi⟩ := req.size_bounds
  have hoff : (max (req.offset.getD 0) 0).toInt = req.asked := toInt_max_zero _
  have hpage : JwtService.pageOf req req.size
      = (max (req.offset.getD 0) 0 / req.size, max (req.offset.getD 0) 0) := by
    simp [JwtService.pageOf, h]
  have hne : max (req.offset.getD 0) 0 ≠ Int64.minValue := by
    intro heq
    have hneg := req.asked_nonneg
    rw [← hoff, heq] at hneg
    exact absurd hneg (by decide)
  unfold pagination
  dsimp only
  rw [hpage]
  dsimp only
  rw [Int64.toInt_div_of_ne_left _ _ hne, hoff, Int.tdiv_eq_ediv_of_nonneg req.asked_nonneg]
  exact ⟨rfl, rfl⟩

/-- Otherwise it is a number of pages. The product with the size is exact below 2^63 only. -/
theorem offset_byPage (h : req.byRow = false) (total : Int64) :
    (req.pagination total).page.toInt = req.asked
      ∧ ((req.pagination total).offset.toInt = req.asked * req.size.toInt
        ↔ req.asked * req.size.toInt < 2 ^ 63) := by
  obtain ⟨hlo, hhi⟩ := req.size_bounds
  have hoff : (max (req.offset.getD 0) 0).toInt = req.asked := toInt_max_zero _
  have hpage : JwtService.pageOf req req.size
      = (max (req.offset.getD 0) 0, max (req.offset.getD 0) 0 * req.size) := by
    simp [JwtService.pageOf, h]
  have hmul := toInt_mul_eq (a := max (req.offset.getD 0) 0) (b := req.size)
    (by rw [hoff]; exact req.asked_nonneg) (by omega)
  unfold pagination
  dsimp only
  rw [hpage]
  dsimp only
  rw [← hoff]
  exact ⟨rfl, hmul⟩

/-! ### The number of pages -/

/-- The number of pages of a list with `n` matching rows, as the service computes it. -/
def pageCount (n : Nat) : Int := (req.pagination (Int64.ofNat n)).totalPages.toInt

/-- The number of pages as the code computes it. The sum wraps. -/
theorem pageCount_eq (n : Nat) :
    req.pageCount n = (((n : Int) + req.size.toInt - 1).bmod (2 ^ 64)).tdiv req.size.toInt := by
  obtain ⟨hlo, hhi⟩ := req.size_bounds
  have hne : req.size ≠ 0 := by
    intro heq
    rw [heq] at hlo
    exact absurd hlo (by decide)
  have hsum : (Int64.ofNat n + req.size - 1).toInt
      = ((n : Int) + req.size.toInt - 1).bmod (2 ^ 64) := by
    rw [Int64.toInt_sub, Int64.toInt_add, Int64.toInt_ofNat']
    simp [Int64.size]
  have hquot : req.pageCount n = ((Int64.ofNat n + req.size - 1) / req.size).toInt := by
    unfold pageCount pagination
    rw [if_neg hne]
  rw [hquot, Int64.toInt_div, hsum]
  have hmin := Int.le_bmod (x := (n : Int) + req.size.toInt - 1) (m := 2 ^ 64) (by decide)
  have hmax := Int.bmod_lt (x := (n : Int) + req.size.toInt - 1) (m := 2 ^ 64) (by decide)
  generalize ((n : Int) + req.size.toInt - 1).bmod (2 ^ 64) = w at *
  have habs := Int.natAbs_tdiv_le_natAbs w req.size.toInt
  have hle : w.tdiv req.size.toInt ≤ max w 0 := by
    by_cases hw : 0 ≤ w
    · rw [Int.max_eq_left hw]
      exact Int.tdiv_le_self _ hw
    · rw [Int.max_eq_right (by omega)]
      exact tdiv_nonpos (by omega) (by omega)
  rw [Int.bmod_eq_of_le]
  · omega
  · omega

/-- The pages never reach past the range of the type. They cover all rows exactly when the rows
with the last page filled up fit in the type, and then one page less would not. -/
theorem pageCount_bounds (n : Nat) :
    req.pageCount n * req.size.toInt < 2 ^ 63
      ∧ ((n : Int) ≤ req.pageCount n * req.size.toInt ↔ (n : Int) + req.size.toInt - 1 < 2 ^ 63)
      ∧ ((n : Int) + req.size.toInt - 1 < 2 ^ 63 →
        req.pageCount n * req.size.toInt < n + req.size.toInt) := by
  obtain ⟨hlo, hhi⟩ := req.size_bounds
  rw [req.pageCount_eq n]
  generalize req.size.toInt = s at *
  have hmod := Int.tdiv_mul_add_tmod (((n : Int) + s - 1).bmod (2 ^ 64)) s
  by_cases hfit : (n : Int) + s - 1 < 2 ^ 63
  · have hw : ((n : Int) + s - 1).bmod (2 ^ 64) = n + s - 1 :=
      Int.bmod_eq_of_le (by omega) (by omega)
    rw [hw] at hmod ⊢
    have h₁ := Int.tmod_nonneg (a := (n : Int) + s - 1) s (by omega)
    have h₂ := Int.tmod_lt_of_pos ((n : Int) + s - 1) (show 0 < s by omega)
    exact ⟨by omega, iff_of_true (by omega) hfit, fun _ => by omega⟩
  · -- The sum wraps to something below all the rows.
    have hmax := Int.bmod_lt (x := (n : Int) + s - 1) (m := 2 ^ 64) (by decide)
    have hlow : ((n : Int) + s - 1).bmod (2 ^ 64) ≤ n + s - 1 - 2 ^ 64 := by
      rw [Int.bmod_def]
      split <;> omega
    generalize ((n : Int) + s - 1).bmod (2 ^ 64) = w at *
    have hsmall : w.tdiv s * s ≤ max w 0 := by
      by_cases hw : 0 ≤ w
      · have h₁ := Int.tmod_nonneg (a := w) s hw
        omega
      · have h₁ := tdiv_nonpos (show w ≤ 0 by omega) (show 0 < s by omega)
        have h₂ := Int.mul_le_mul_of_nonneg_right h₁ (show 0 ≤ s by omega)
        omega
    exact ⟨by omega, iff_of_false (by omega) hfit, fun h => absurd h hfit⟩

end ListRequest

/-! ### The numbers of one page -/

/-- The `LIMIT` and the `OFFSET` of the query are the exact ones. -/
structure QueryExact (req : ListRequest) (limit offset : Int64) : Prop where
  limit_pos : 1 ≤ limit.toInt
  limit_le : limit.toInt ≤ 200
  offset_nonneg : 0 ≤ offset.toInt
  byPage : req.byRow = false → offset.toInt = req.asked * limit.toInt
  byRow : req.byRow = true → offset.toInt = req.asked

/-- The numbers of the response are the exact ones: the page number, and the least number of pages
that holds all rows. -/
structure NumbersExact (req : ListRequest) (total : Nat) (p : Pagination) : Prop where
  byPage : req.byRow = false → p.page.toInt = req.asked
    ∧ p.offset.toInt = p.page.toInt * p.size.toInt
  byRow : req.byRow = true → p.page.toInt = p.offset.toInt / p.size.toInt
  totalPages : IsLeast {k : Int | (total : Int) ≤ k * p.size.toInt} p.totalPages.toInt

namespace JwtService

variable {K : Crates} {subject : String} {req : ListRequest}

/-- Whatever it is answered, a list request queries with exact numbers, and a response that counts
`total` rows has exact numbers. -/
def PagingExact (K : Crates) (subject : String) (req : ListRequest) (total : Nat) : Prop :=
  (listForSubject (K := K) subject req).Meets
    (fun o => ∀ sub filter limit offset, o = Op.selectTokens sub filter limit offset →
      QueryExact req limit offset)
    fun x => ∀ resp, x = .ok resp → resp.pagination.total.toInt = (total : Int) →
      NumbersExact req total resp.pagination

/-- The loop of a listing makes no call that the argument does not allow. -/
theorem listLoop_meets (now : DateTime) (rows : List MetadataRow) (acc : List TokenSummary) :
    (listLoop (K := K) now rows acc).Meets
      (fun o => ∀ sub filter limit offset, o ≠ Op.selectTokens sub filter limit offset)
      fun _ => True := by
  induction rows generalizing acc with
  | nil => exact trivial
  | cons row rows ih =>
      refine ⟨fun _ _ _ _ => nofun, fun r => ?_⟩
      cases r with
      | error e => exact trivial
      | ok found =>
          cases found with
          | none => exact ih _
          | some d => exact ih _

/-- The query and the response of a list request. -/
theorem listForSubject_meets {φ : Op → Prop} {ψ : Except Fault ListResponse → Prop}
    (hquery : φ (.selectTokens subject req.filter req.size (req.pagination 0).offset))
    (hother : ∀ o, (∀ sub filter limit offset, o ≠ Op.selectTokens sub filter limit offset) → φ o)
    (herr : ∀ e, ψ (.error e))
    (hok : ∀ toks n, ψ (.ok ⟨toks, req.pagination (Int64.ofNat n)⟩)) :
    (listForSubject (K := K) subject req).Meets φ ψ := by
  refine ⟨hquery, fun r => ?_⟩
  cases r with
  | error e => exact herr _
  | ok rows =>
      refine ⟨hother _ fun _ _ _ _ => nofun, fun r => ?_⟩
      cases r with
      | error e => exact herr _
      | ok n =>
          refine ⟨hother _ fun _ _ _ _ => nofun, fun now => ?_⟩
          refine ((listLoop_meets now rows []).mono hother fun x _ => trivial).bind
            (fun toks _ => ?_) fun e _ => herr e
          exact hok toks n

/-- The numbers of the query of a request. -/
theorem queryExact_iff :
    QueryExact req req.size (req.pagination 0).offset
      ↔ req.byRow = true ∨ req.asked * req.size.toInt < 2 ^ 63 := by
  obtain ⟨hlo, hhi⟩ := req.size_bounds
  have hasked := req.asked_nonneg
  cases hmode : req.byRow with
  | true =>
      have hoff := (req.offset_byRow hmode 0).1
      refine iff_of_true ⟨hlo, hhi, by omega, fun h => ?_, fun _ => hoff⟩ (.inl rfl)
      rw [hmode] at h
      cases h
  | false =>
      have hoff := (req.offset_byPage hmode 0).2
      constructor
      · intro h
        exact .inr (hoff.mp (h.byPage hmode))
      · rintro (h | h)
        · cases h
        · have heq := hoff.mpr h
          have hnonneg := Int.mul_nonneg hasked (show 0 ≤ req.size.toInt by omega)
          refine ⟨hlo, hhi, by omega, fun _ => heq, fun hrow => ?_⟩
          rw [hmode] at hrow
          cases hrow

/-- The numbers of the response to a request. -/
theorem numbersExact_of_fits {total : Nat}
    (hoffset : req.byRow = true ∨ req.asked * req.size.toInt < 2 ^ 63)
    (hfit : (total : Int) + req.size.toInt - 1 < 2 ^ 63) :
    NumbersExact req total (req.pagination (Int64.ofNat total)) where
  byPage hmode := by
    obtain ⟨hpage, hoff⟩ := req.offset_byPage hmode (Int64.ofNat total)
    refine ⟨hpage, ?_⟩
    rcases hoffset with hrow | hlt
    · rw [hmode] at hrow
      cases hrow
    · rw [hoff.mpr hlt, hpage]
      rfl
  byRow hmode := by
    obtain ⟨hoff, hpage⟩ := req.offset_byRow hmode (Int64.ofNat total)
    rw [hoff, hpage]
    rfl
  totalPages := by
    obtain ⟨-, hcover, hleast⟩ := req.pageCount_bounds total
    have hlo := req.size_bounds.1
    refine ⟨hcover.mpr hfit, fun k hk => ?_⟩
    -- One page less does not reach the total.
    have hlt := hleast hfit
    have hk : (total : Int) ≤ k * req.size.toInt := hk
    have hmul : (req.pageCount total - 1) * req.size.toInt < k * req.size.toInt := by
      rw [Int.sub_mul, Int.one_mul]
      omega
    have hlt' := Int.lt_of_mul_lt_mul_right hmul (show 0 ≤ req.size.toInt by omega)
    show req.pageCount total ≤ k
    omega

end JwtService

/-- A summary without the state of its revocation: the columns of the row. -/
def TokenSummary.columns (t : TokenSummary) : TokenSummary :=
  { t with status := "", revokedAt := none, revocationReason := none }

/-- The columns of a row as a list shows them. -/
def MetadataRow.columns (K : Crates) (row : MetadataRow) : TokenSummary where
  jti := K.uuidText row.jwtUuid
  subject := row.subject
  jwtName := row.jwtName
  issuedAt := row.issuedAt
  expiresAt := row.expiresAt
  issuer := row.issuer
  audience := row.audience
  status := ""
  revokedAt := none
  revocationReason := none

/-- The request for page number `k`. -/
def ListRequest.page (req : ListRequest) (k : Nat) : ListRequest :=
  { req with offset := some (Int64.ofNat k), byRow := false }

namespace JwtService

variable {K : Crates} {signer : JwtSigner K} {table : List MetadataRow} {subject : String}
  {req : ListRequest}

/-- The rows of a table that a list request is about. -/
def rowsOf (table : List MetadataRow) (subject : String) (req : ListRequest) :
    List MetadataRow :=
  table.filter (req.filter.matches subject)

/-- The `total_pages` of a response, as a count of requests. -/
def pagesReported (resp : ListResponse) : Nat := resp.pagination.totalPages.toInt.toNat

/-- The pages that a client asks for when it takes their number to be `n`. It asks for the first
one in any case, because it has no number before. -/
def Asked (n k : Nat) : Prop := k = 0 ∨ k < n

/-- A client reads all pages while the table stays as it is: `resp k` answers the request for
page number `k`, and the number of pages `n` is what one of the responses has reported. -/
structure ReadsPages (signer : JwtSigner K) (table : List MetadataRow) (subject : String)
    (req : ListRequest) (n : Nat) (resp : Nat → ListResponse) : Prop where
  answered : ∀ k, Asked n k → ∃ tid s s', s.metadata = table
    ∧ (listForSubject (K := K) subject (req.page k)).Solo (passing signer) tid s (.ok (resp k)) s'
  reported : ∃ k, Asked n k ∧ n = pagesReported (resp k)

/-- However the pages are read, together they are the matching rows, each one once. -/
def PagesComplete (signer : JwtSigner K) (table : List MetadataRow) (subject : String)
    (req : ListRequest) : Prop :=
  ∀ n resp, ReadsPages signer table subject req n resp →
    ((List.range n).flatMap fun k => (resp k).tokens.map TokenSummary.columns).Perm
      ((rowsOf table subject req).map (MetadataRow.columns K))

/-- The number of pages that every response about this table reports. -/
def pagesOf (table : List MetadataRow) (subject : String) (req : ListRequest) : Nat :=
  (req.pageCount (rowsOf table subject req).length).toNat

/-- The page size as a count of rows. -/
def rowsPerPage (req : ListRequest) : Nat := req.size.toInt.toNat

/-- The size of a page as a natural number. -/
theorem rowsPerPage_cast (req : ListRequest) : (rowsPerPage req : Int) = req.size.toInt := by
  have hlo := req.size_bounds.1
  unfold rowsPerPage
  omega

/-- The rows that the pages can hold are counted in the range of the type. -/
theorem pagesOf_mul_lt (table : List MetadataRow) (subject : String) (req : ListRequest) :
    pagesOf table subject req * rowsPerPage req < 2 ^ 63 := by
  have hlt := (req.pageCount_bounds (rowsOf table subject req).length).1
  unfold pagesOf
  rw [← rowsPerPage_cast] at hlt
  by_cases hneg : req.pageCount (rowsOf table subject req).length ≤ 0
  · rw [Int.toNat_of_nonpos hneg]
    omega
  · have hcast : ((req.pageCount (rowsOf table subject req).length).toNat : Int)
        = req.pageCount (rowsOf table subject req).length := by omega
    rw [← hcast] at hlt
    exact_mod_cast hlt

/-- The pages hold all rows exactly when the rows with the last page filled up fit in the type. -/
theorem length_le_pages_iff :
    (rowsOf table subject req).length ≤ pagesOf table subject req * rowsPerPage req
      ↔ ((rowsOf table subject req).length : Int) + req.size.toInt - 1 < 2 ^ 63 := by
  have hcover := (req.pageCount_bounds (rowsOf table subject req).length).2.1
  rw [← hcover, ← rowsPerPage_cast]
  unfold pagesOf
  generalize (rowsOf table subject req).length = n
  by_cases hneg : req.pageCount n ≤ 0
  · -- No page at all, which is enough for no rows only.
    rw [Int.toNat_of_nonpos hneg, Nat.zero_mul]
    have hsmall := Int.mul_le_mul_of_nonneg_right hneg (Int.natCast_nonneg (rowsPerPage req))
    have hhi := req.size_bounds.2
    constructor
    · intro hzero
      obtain rfl : n = 0 := by omega
      have hnone := (req.pageCount_bounds 0).2.1.mpr (by omega)
      rwa [← rowsPerPage_cast] at hnone
    · intro hle
      omega
  · have hcast : ((req.pageCount n).toNat : Int) = req.pageCount n := by omega
    rw [← hcast]
    exact_mod_cast Iff.rfl

/-- The offset of a page that is read. -/
theorem page_offset {k : Nat} (hk : Asked (pagesOf table subject req) k) :
    ((req.page k).pagination 0).offset.toInt = (k * rowsPerPage req : Nat) := by
  have hlt := pagesOf_mul_lt table subject req
  have hlo := req.size_bounds.1
  have hsize := rowsPerPage_cast req
  have hmul : k * rowsPerPage req < 2 ^ 63 := by
    rcases hk with rfl | hk
    · rw [Nat.zero_mul]
      decide
    · exact (Nat.mul_le_mul_right _ hk.le).trans_lt hlt
  have hkle : k ≤ k * rowsPerPage req := Nat.le_mul_of_pos_right _ (by omega)
  have hasked : (req.page k).asked = k := by
    show max (Int64.ofNat k).toInt 0 = k
    rw [Int64.toInt_ofNat', Int.bmod_eq_of_le (by omega) (by simp [Int64.size]; omega)]
    omega
  have hprod : (req.page k).asked * (req.page k).size.toInt = (k * rowsPerPage req : Nat) := by
    rw [hasked, show (req.page k).size = req.size from rfl, ← hsize]
    push_cast
    rfl
  rw [((req.page k).offset_byPage rfl 0).2.mpr (by rw [hprod]; exact_mod_cast hmul), hprod]

/-- The window of such a page is the page of the order. -/
theorem window_page {k : Nat} (hk : Asked (pagesOf table subject req) k)
    (order : List MetadataRow) :
    window (req.page k) order = page (rowsPerPage req) k order := by
  unfold window page
  rw [page_offset hk, Int.toNat_natCast]
  rfl

/-- Every response to a request for a page reports this number of pages. -/
theorem pagesReported_eq {k tid : Nat} {s s' : Store} {resp : ListResponse}
    (htable : s.metadata = table)
    (hrun : (listForSubject (K := K) subject (req.page k)).Solo (passing signer) tid s (.ok resp)
      s') : pagesReported resp = pagesOf table subject req := by
  obtain ⟨now, order, -, hlisted⟩ :=
    listForSubject_ensures (calm_passing signer) subject (req.page k) _ _ hrun resp rfl
  unfold pagesReported
  rw [hlisted.pagination]
  subst htable
  rfl

/-- So a client that reads all pages reads this many. -/
theorem count_of_readsPages {n : Nat} {resp : Nat → ListResponse}
    (h : ReadsPages signer table subject req n resp) : n = pagesOf table subject req := by
  obtain ⟨k, hk, hn⟩ := h.reported
  obtain ⟨tid, s, s', htable, hrun⟩ := h.answered k hk
  exact hn.trans (pagesReported_eq htable hrun)

/-- Every page of a client is one of an order by `issued_at`. -/
theorem tokens_of_readsPages {resp : Nat → ListResponse}
    (h : ReadsPages signer table subject req (pagesOf table subject req) resp) :
    ∃ order : Nat → List MetadataRow, (∀ k, Descends issued (rowsOf table subject req) (order k))
      ∧ ∀ k < pagesOf table subject req, (resp k).tokens.map TokenSummary.columns
        = (page (rowsPerPage req) k (order k)).map (MetadataRow.columns K) := by
  have hpage : ∀ k, ∃ order, Descends issued (rowsOf table subject req) order
      ∧ (k < pagesOf table subject req → (resp k).tokens.map TokenSummary.columns
        = (page (rowsPerPage req) k order).map (MetadataRow.columns K)) := by
    intro k
    by_cases hk : k < pagesOf table subject req
    · obtain ⟨tid, s, s', rfl, hrun⟩ := h.answered k (.inr hk)
      obtain ⟨now, order, -, hlisted⟩ :=
        listForSubject_ensures (calm_passing signer) subject (req.page k) _ _ hrun (resp k) rfl
      refine ⟨order, hlisted.descends, fun _ => ?_⟩
      rw [hlisted.tokens, window_page (.inr hk), List.map_map]
      rfl
    · obtain ⟨order, horder⟩ := exists_descends issued (rowsOf table subject req)
      exact ⟨order, horder, fun h => absurd h hk⟩
  choose order horder using hpage
  exact ⟨order, fun k => (horder k).1, fun k hk => (horder k).2 hk⟩

/-- Every family of such orders is read by some client. -/
theorem exists_readsPages (signer : JwtSigner K) {order : Nat → List MetadataRow}
    (horder : ∀ k, Descends issued (rowsOf table subject req) (order k)) :
    ∃ resp, ReadsPages signer table subject req (pagesOf table subject req) resp
      ∧ ∀ k < pagesOf table subject req, (resp k).tokens.map TokenSummary.columns
        = (page (rowsPerPage req) k (order k)).map (MetadataRow.columns K) := by
  let s : Store := { Symbolic.store with metadata := table }
  have hpage : ∀ k, ∃ resp, Asked (pagesOf table subject req) k →
      (listForSubject (K := K) subject (req.page k)).Solo (passing signer) 0 s (.ok resp) s
      ∧ resp.tokens.map TokenSummary.columns
        = (page (rowsPerPage req) k (order k)).map (MetadataRow.columns K) := by
    intro k
    by_cases hk : Asked (pagesOf table subject req) k
    · have hoffset : 0 ≤ ((req.page k).pagination 0).offset.toInt := by
        rw [page_offset hk]
        exact Int.natCast_nonneg _
      have horder' : Descends issued (s.matching subject (req.page k)) (order k) := horder k
      obtain ⟨resp, hrun, hlisted⟩ := listForSubject_run signer 0 horder' hoffset
      refine ⟨resp, fun _ => ⟨?_, ?_⟩⟩
      · refine hrun.mono ?_ fun _ h => h
        rintro s₁ _ rfl
        exact ⟨s₁.clock, if_pos (Int.le_refl _)⟩
      · rw [hlisted.tokens, window_page hk, List.map_map]
        rfl
    · exact ⟨⟨[], req.pagination 0⟩, fun h => absurd h hk⟩
  choose resp hresp using hpage
  have hreads : ReadsPages signer table subject req (pagesOf table subject req) resp := {
    answered := fun k hk => ⟨0, s, s, rfl, (hresp k hk).1⟩
    reported := ⟨0, .inl rfl, (pagesReported_eq rfl (hresp 0 (.inl rfl)).1).symm⟩ }
  exact ⟨resp, hreads, fun k hk => (hresp k (.inr hk)).2⟩

/-- Reading pages is putting them together from orders by `issued_at`. -/
theorem pagesComplete_iff :
    PagesComplete signer table subject req
      ↔ ∀ order : Nat → List MetadataRow,
        (∀ k, Descends issued (rowsOf table subject req) (order k)) →
        ((pages (rowsPerPage req) (pagesOf table subject req) order).map
          (MetadataRow.columns K)).Perm
          ((rowsOf table subject req).map (MetadataRow.columns K)) := by
  have hpages : ∀ (resp : Nat → ListResponse) (order : Nat → List MetadataRow),
      (∀ k < pagesOf table subject req, (resp k).tokens.map TokenSummary.columns
        = (page (rowsPerPage req) k (order k)).map (MetadataRow.columns K)) →
      (List.range (pagesOf table subject req)).flatMap
          (fun k => (resp k).tokens.map TokenSummary.columns)
        = (pages (rowsPerPage req) (pagesOf table subject req) order).map
          (MetadataRow.columns K) := by
    intro resp order heq
    unfold pages
    rw [List.map_flatMap]
    exact List.flatMap_congr fun k hk => heq k (List.mem_range.mp hk)
  constructor
  · intro h order horder
    obtain ⟨resp, hreads, heq⟩ := exists_readsPages signer horder
    rw [← hpages resp order heq]
    exact h _ resp hreads
  · intro h n resp hreads
    obtain rfl := count_of_readsPages hreads
    obtain ⟨order, horder, heq⟩ := tokens_of_readsPages hreads
    rw [hpages resp order heq]
    exact h order horder

/-- A client that reads all pages of a table, as many as the responses report, gets every matching
row exactly once, however the queries order rows of the same `issued_at`, if and only if the number
of rows fits in the type and no page ends between two rows of the same `issued_at` that differ in
some listed column. -/
theorem pages_complete :
    PagesComplete signer table subject req
      ↔ ((rowsOf table subject req).length : Int) + req.size.toInt - 1 < 2 ^ 63
        ∧ ∀ t, Cuts issued (rowsPerPage req) (rowsOf table subject req) t →
          ∀ x ∈ rowsOf table subject req, ∀ y ∈ rowsOf table subject req,
            issued x = t → issued y = t → x.columns K = y.columns K := by
  rw [pagesComplete_iff]
  have hpos : 0 < rowsPerPage req := by
    have hlo := req.size_bounds.1
    have hsize := rowsPerPage_cast req
    omega
  by_cases hfit : ((rowsOf table subject req).length : Int) + req.size.toInt - 1 < 2 ^ 63
  · rw [pages_perm_iff hpos (length_le_pages_iff.mpr hfit)]
    exact ⟨fun h => ⟨hfit, h⟩, fun h => h.2⟩
  · -- The pages hold fewer rows than there are.
    refine iff_of_false (fun h => hfit ?_) fun h => hfit h.1
    obtain ⟨order, horder⟩ := exists_descends issued (rowsOf table subject req)
    have hlen := (h (fun _ => order) fun _ => horder).length_eq
    rw [pages_const, List.length_map, List.length_map, List.length_take,
      horder.perm.length_eq] at hlen
    exact length_le_pages_iff.mp (by omega)

end JwtService

namespace Symbolic

/-- The row of a token that was issued at second 1000. -/
def twin (id jti : Uuid) : MetadataRow :=
  (service.generateRow request (service.generateClaims request ["tim-service"] jti (instant 1000)
    (instant 1600)) ["tim-service"] id jti (instant 1000) (instant 1600)).stored (instant 1000) 0

/-- Two tokens of one instant. -/
def twins : List MetadataRow := [twin ⟨2⟩ ⟨1⟩, twin ⟨4⟩ ⟨3⟩]

/-- Pages of one token. -/
def onePerPage : ListRequest := { listing with limit := some 1 }

end Symbolic

open Symbolic in
/-- Two tokens of one instant, read one by one: the client can get the first of them twice and the
second never. -/
theorem pages_repeat : ¬ JwtService.PagesComplete service.signer twins "alice" onePerPage := by
  intro h
  have horder : ∀ k, Descends issued (JwtService.rowsOf twins "alice" onePerPage)
      (if k = 0 then twins else twins.reverse) := by
    intro k
    have hrows : JwtService.rowsOf twins "alice" onePerPage = twins := by decide +kernel
    rw [hrows]
    split
    · exact ⟨.refl _, by decide +kernel⟩
    · exact ⟨List.reverse_perm _, by decide +kernel⟩
  have hperm := JwtService.pagesComplete_iff.mp h _ horder
  exact absurd hperm (by decide +kernel)

end Tim
