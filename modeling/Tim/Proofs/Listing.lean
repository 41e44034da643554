import Tim.Lib.Pages
import Tim.Proofs.Revive

/-!
# `Tim.Proofs.Listing`: what `list_for_subject` returns

`listForSubject_ensures` says what every successful run returns: a window of the matching rows in an
order by `issued_at`, each with the state of its jti in the denylist, and the numbers of the page.
`listForSubject_run` says that every such order has a run.

Both hold while time passes. `Calm` is what they need of the surroundings: the tables stay, and the
clock moves along a relation.
-/

set_option autoImplicit false

namespace Tim

open Tim.Lib Tim.Action
open Tim.Lib.Prog (ensures_ret ensures_raise ensures_op ensures_handle Ensures Solo)
open Store

/-! ### Rows, windows and pages -/

/-- The summary of a row at an instant. -/
def Store.summary (K : Crates) (s : Store) (now : DateTime) (row : MetadataRow) :
    TokenSummary where
  jti := K.uuidText row.jwtUuid
  subject := row.subject
  jwtName := row.jwtName
  issuedAt := row.issuedAt
  expiresAt := row.expiresAt
  issuer := row.issuer
  audience := row.audience
  status :=
    if (s.denied row.jwtUuid).isSome then "revoked"
    else if row.expiresAt < now then "expired"
    else "active"
  revokedAt := (s.denied row.jwtUuid).map (·.denylistedAt)
  revocationReason := (s.denied row.jwtUuid).bind (·.reason)

namespace ListRequest

/-- The filter of a list request. -/
def filter (req : ListRequest) : ListFilter where
  issuedAfter := req.issuedAfter
  issuedBefore := req.issuedBefore
  expiresAfter := req.expiresAfter
  expiresBefore := req.expiresBefore
  jwtName := req.jwtName

/-- The page size of a list request. -/
def size (req : ListRequest) : Int64 := JwtService.clamp (req.limit.getD 20) 1 200

/-- The numbers that come with a page. -/
def pagination (req : ListRequest) (total : Int64) : Pagination where
  total := total
  offset := (JwtService.pageOf req req.size).2
  limit := req.size
  page := (JwtService.pageOf req req.size).1
  size := req.size
  totalPages := if req.size = 0 then 0 else (total + req.size - 1) / req.size

end ListRequest

/-- The rows that a list request is about. -/
def Store.matching (s : Store) (subject : String) (req : ListRequest) : List MetadataRow :=
  s.metadata.filter (req.filter.matches subject)

/-- The column that the list is ordered by. -/
def issued (row : MetadataRow) : Int := row.issuedAt.ns

/-- The window of an order that a list request asks for. -/
def window (req : ListRequest) (order : List MetadataRow) : List MetadataRow :=
  (order.drop (req.pagination 0).offset.toInt.toNat).take req.size.toInt.toNat

/-! ### Surroundings -/

/-- The surroundings leave the tables alone, and move the clock along `R`. -/
structure Calm {K : Crates} {signer : JwtSigner K} (R : DateTime → DateTime → Prop)
    (E : Surroundings (jwtMachine signer)) : Prop where
  same : ∀ s s', E.moves s s' → SameTables s s'
  clock : ∀ s s', E.moves s s' → R s.clock s'.clock
  trans : ∀ a b c, R a b → R b c → R a c

/-- While other tasks have their turn, a single statement sees one state of the tables. -/
theorem calm_passing {K : Crates} (signer : JwtSigner K) : Calm (· ≤ ·) (passing signer) where
  same _ _ h := (show Passing _ _ from h).inv.1
  clock s s' h := by
    obtain ⟨t, h⟩ := h
    unfold tick at h
    split at h
    · rename_i hle
      cases h
      exact hle
    · cases h
  trans _ _ _ h h' := Int.le_trans h h'

/-- When nothing moves, it does so all the more. -/
theorem calm_frozen {K : Crates} (signer : JwtSigner K) : Calm (· = ·) (frozen signer) where
  same s s' h := by
    obtain rfl : s = s' := h
    exact .refl s
  clock s s' h := by
    obtain rfl : s = s' := h
    rfl
  trans _ _ _ h h' := h.trans h'

/-! ### The run -/

namespace JwtService

section Spec

variable {K : Crates} {signer : JwtSigner K} {E : Surroundings (jwtMachine signer)} {tid : Nat}
  {R : DateTime → DateTime → Prop} {s₀ s : Store}

/-- The rows of a page are summarized one after the other. -/
theorem listLoop_ensures (hE : Calm R E) (now : DateTime) (rows : List MetadataRow)
    (acc : List TokenSummary) (hs : SameTables s₀ s) :
    Ensures E tid (listLoop (K := K) now rows acc) s fun x _ =>
      ∀ toks, x = .ok toks → toks = acc ++ rows.map (s₀.summary K now) := by
  induction rows generalizing acc s with
  | nil =>
      refine ensures_ret.mpr fun toks heq => ?_
      rw [← Except.ok.inj heq, List.map_nil, List.append_nil]
  | cons row rows ih =>
      refine ensures_call fun s₁ ch r s₂ hmove _ hexec => ?_
      have h₁ := hs.trans (hE.same _ _ hmove)
      obtain ⟨rfl, hr⟩ := select_cases hexec
      rcases hr with rfl | ⟨e, rfl⟩
      · have hrest := ih (acc ++ [s₀.summary K now row]) h₁
        rw [List.append_assoc, List.singleton_append, ← List.map_cons] at hrest
        unfold Store.summary at hrest
        rw [← h₁.denied row.jwtUuid] at hrest
        cases hdenied : Store.denied s₂ row.jwtUuid with
        | none =>
            rw [hdenied] at hrest
            exact hrest
        | some d =>
            rw [hdenied] at hrest
            exact hrest
      · exact ensures_raise.mpr nofun

/-- What a page holds: the numbers of the request, and the summaries of a window of the matching
rows, in an order by `issued_at`. -/
structure Listed (K : Crates) (s : Store) (subject : String) (req : ListRequest) (now : DateTime)
    (order : List MetadataRow) (resp : ListResponse) : Prop where
  descends : Descends issued (s.matching subject req) order
  offset : 0 ≤ (req.pagination 0).offset.toInt
  tokens : resp.tokens = (window req order).map (s.summary K now)
  pagination : resp.pagination = req.pagination (Int64.ofNat (s.matching subject req).length)

/-- The order of a list query that answers. -/
theorem selectTokens_inv (subject : String) (req : ListRequest) {rows order : List MetadataRow}
    (h : s.selectTokens subject req.filter req.size (req.pagination 0).offset order
      = some (.ok rows)) :
    Descends issued (s.matching subject req) order ∧ 0 ≤ (req.pagination 0).offset.toInt
      ∧ rows = window req order := by
  unfold Store.selectTokens at h
  split at h
  · cases h
  · rename_i hoffset
    split at h
    · rename_i hvalid
      cases h
      refine ⟨⟨List.isPerm_iff.mp hvalid.1, hvalid.2⟩, ?_, rfl⟩
      rw [Int64.lt_iff_toInt_lt] at hoffset
      exact not_lt.mp hoffset
    · cases h

/-- Every page that a run returns is such a page of the store. -/
theorem listForSubject_ensures (hE : Calm R E) (subject : String) (req : ListRequest) :
    Ensures E tid (listForSubject (K := K) subject req) s fun x _ => ∀ resp, x = .ok resp →
      ∃ now order, R s.clock now ∧ Listed K s subject req now order resp := by
  refine ensures_call fun s₁ ch r s₂ hmove _ hexec => ?_
  have h₁ := hE.same _ _ hmove
  -- The rows of the page.
  obtain ⟨hs₂, hrows⟩ : s₂ = s₁ ∧ ∀ rows, r = .ok rows → ∃ order,
      Descends issued (s.matching subject req) order ∧ 0 ≤ (req.pagination 0).offset.toInt
      ∧ rows = window req order := by
    cases ch with
    | order order =>
        obtain ⟨r', hr', heq⟩ := Option.map_eq_some_iff.mp hexec
        cases heq
        refine ⟨rfl, ?_⟩
        rintro rows rfl
        have hinv := selectTokens_inv subject req hr'
        unfold Store.matching at hinv ⊢
        rw [h₁.metadata] at hinv
        exact ⟨order, hinv⟩
    | fail e =>
        cases hexec
        exact ⟨rfl, nofun⟩
    | _ => cases hexec
  subst hs₂
  cases r with
  | error e => exact ensures_raise.mpr nofun
  | ok rows =>
      obtain ⟨order, horder, hoffset, rfl⟩ := hrows rows rfl
      refine ensures_call fun s₃ ch r s₄ hmove' _ hexec' => ?_
      have h₃ := h₁.trans (hE.same _ _ hmove')
      obtain ⟨rfl, hr⟩ := select_cases hexec'
      rcases hr with rfl | ⟨e, rfl⟩
      · refine ensures_call fun s₅ ch r s₆ hmove'' _ hexec'' => ?_
        have h₅ := h₃.trans (hE.same _ _ hmove'')
        obtain ⟨rfl, rfl⟩ : r = s₅.clock ∧ s₆ = s₅ := by
          cases ch <;> cases hexec''
          exact ⟨rfl, rfl⟩
        have hclock := hE.trans _ _ _ (hE.trans _ _ _ (hE.clock _ _ hmove) (hE.clock _ _ hmove'))
          (hE.clock _ _ hmove'')
        refine ensures_handle.mpr ?_
        refine (listLoop_ensures hE s₆.clock (window req order) [] h₅).mono ?_
        intro x s₇ htoks
        cases x with
        | error e => exact ensures_raise.mpr nofun
        | ok toks =>
            refine ensures_ret.mpr fun resp heq =>
              ⟨s₆.clock, order, hclock, horder, hoffset, ?_, ?_⟩
            · rw [← Except.ok.inj heq]
              simpa using htoks toks rfl
            · rw [← Except.ok.inj heq]
              unfold Store.matching
              rw [← h₃.metadata]
              rfl
      · exact ensures_raise.mpr nofun

/-! ### Every order has a run -/

/-- A run of the loop in a store at rest, by induction on the rows. -/
theorem listLoop_run (now : DateTime) (rows : List MetadataRow) (acc : List TokenSummary) :
    Solo (frozen signer) tid (listLoop (K := K) now rows acc) s
      (.ok (acc ++ rows.map (s.summary K now))) s := by
  induction rows generalizing acc with
  | nil => exact ⟨by rw [List.map_nil, List.append_nil], rfl⟩
  | cons row rows ih =>
      have hrest := ih (acc ++ [s.summary K now row])
      rw [List.append_assoc, List.singleton_append, ← List.map_cons] at hrest
      refine solo_call .go (t := s)
        (r := .ok ((s.denied row.jwtUuid).map fun r => (r.denylistedAt, r.reason))) rfl ?_
      unfold Store.summary at hrest ⊢
      cases hdenied : s.denied row.jwtUuid with
      | none =>
          rw [hdenied] at hrest
          exact hrest
      | some d =>
          rw [hdenied] at hrest
          exact hrest

/-- A listing in a store at rest has a reply, for every order of the rows that the database may
choose. -/
theorem listForSubject_run (signer : JwtSigner K) (tid : Nat) {subject : String}
    {req : ListRequest} {order : List MetadataRow}
    (horder : Descends issued (s.matching subject req) order)
    (hoffset : 0 ≤ (req.pagination 0).offset.toInt) :
    ∃ resp, Solo (frozen signer) tid (listForSubject (K := K) subject req) s (.ok resp) s
      ∧ Listed K s subject req s.clock order resp := by
  let toks := (window req order).map (s.summary K s.clock)
  let resp : ListResponse :=
    ⟨toks, req.pagination (Int64.ofNat (s.matching subject req).length)⟩
  refine ⟨resp, ?_, horder, hoffset, rfl, rfl⟩
  have hselect : s.selectTokens subject req.filter req.size (req.pagination 0).offset order
      = some (.ok (window req order)) := by
    unfold Store.selectTokens
    rw [if_neg, if_pos]
    · rfl
    · exact ⟨List.isPerm_iff.mpr horder.perm, horder.sorted⟩
    · rw [Int64.lt_iff_toInt_lt]
      exact not_lt.mpr hoffset
  refine solo_call (.order order) (r := .ok (window req order)) (t := s) ?_ ?_
  · show (s.selectTokens subject req.filter req.size (req.pagination 0).offset order).map _ = _
    rw [hselect]
    rfl
  · refine solo_call .go (r := .ok (s.matching subject req).length) (t := s) rfl ?_
    refine solo_call .go (r := s.clock) (t := s) rfl ?_
    refine Prog.solo_bind.mpr ⟨.ok toks, s, ?_, rfl, rfl⟩
    exact listLoop_run s.clock (window req order) []

end Spec

end JwtService

/-- The first page of a list, as a request without parameters asks for it. -/
def Symbolic.listing : ListRequest where
  offset := none
  limit := none
  byRow := false
  issuedAfter := none
  issuedBefore := none
  expiresAfter := none
  expiresBefore := none
  jwtName := none

end Tim
