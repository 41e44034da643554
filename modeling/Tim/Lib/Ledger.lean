import Tim.Lib.Object

/-!
# `Tim.Lib.Ledger`: a ledger of issued rows and entered ids

The sequential object behind a store of rows with a list of ids that are no longer good. A row is
issued, an id is entered by the first call that asks for it, and a row can be issued in the place
of an id: both at once. The other two calls read.

Two laws of a legal list of calls are used: the ledger grows by exactly what the calls report
(`Legal.issued`, `Legal.entries`), so none of them is lost and none counts twice.
-/

set_option autoImplicit false

namespace Tim.Lib

/-- The calls of a ledger. -/
inductive LedgerOp (Id Row Entry : Type) where
  | issue (row : Row)
  | enter (id : Id) (entry : Entry)
  | replace (row : Row) (id : Id) (entry : Entry)
  | look (id : Id)
  | rows

/-- The answers. `enter` and `replace` answer whether the id was new. -/
def LedgerResp (Id Row Entry : Type) : LedgerOp Id Row Entry → Type
  | .issue _ => Unit
  | .enter .. => Bool
  | .replace .. => Bool
  | .look _ => Option Entry
  | .rows => List Row

/-- The signature of a ledger. -/
def ledgerSig (Id Row Entry : Type) : Sig where
  Op := LedgerOp Id Row Entry
  Resp := LedgerResp Id Row Entry

/-- The rows in the order of their issue, and the entered ids with what is kept of each. -/
structure Ledger (Id Row Entry : Type) where
  issued : List Row
  entries : List (Id × Entry)

namespace Ledger

variable {Id Row Entry : Type} [DecidableEq Id]

/-- The first entry of an id stays the only one. -/
def enter (l : Ledger Id Row Entry) (id : Id) (entry : Entry) : Bool × Ledger Id Row Entry :=
  match l.entries.lookup id with
  | some _ => (false, l)
  | none => (true, { l with entries := l.entries ++ [(id, entry)] })

/-- The ledger with one more row. -/
def issue (l : Ledger Id Row Entry) (row : Row) : Ledger Id Row Entry :=
  { l with issued := l.issued ++ [row] }

variable (Id Row Entry) in
/-- The ledger as a sequential object. -/
def object : Object (ledgerSig Id Row Entry) where
  State := Ledger Id Row Entry
  act l
    | .issue row => ((), l.issue row)
    | .enter id entry => l.enter id entry
    | .replace row id entry => ((l.enter id entry).1, (l.enter id entry).2.issue row)
    | .look id => (l.entries.lookup id, l)
    | .rows => (l.issued, l)

/-- An id that has an entry keeps it, and the ledger stays as it is. -/
theorem enter_old {l : Ledger Id Row Entry} {id : Id} {old : Entry}
    (h : l.entries.lookup id = some old) (entry : Entry) : l.enter id entry = (false, l) := by
  unfold enter
  rw [h]

/-- An id without an entry gets the one that is entered, at the end. -/
theorem enter_new {l : Ledger Id Row Entry} {id : Id} (h : l.entries.lookup id = none)
    (entry : Entry) :
    l.enter id entry = (true, { l with entries := l.entries ++ [(id, entry)] }) := by
  unfold enter
  rw [h]

/-! ### What a list of calls comes to -/

/-- The rows that a call issues. -/
def rowsOf : Event (ledgerSig Id Row Entry) → List Row
  | ⟨.issue row, _⟩ => [row]
  | ⟨.replace row _ _, _⟩ => [row]
  | _ => []

/-- The entry that a call makes, when it answers that the id was new. -/
def entryOf : Event (ledgerSig Id Row Entry) → List (Id × Entry)
  | ⟨.enter id entry, true⟩ => [(id, entry)]
  | ⟨.replace _ id entry, true⟩ => [(id, entry)]
  | _ => []

/-- A call that changes nothing. -/
def isRead : Event (ledgerSig Id Row Entry) → Bool
  | ⟨.look _, _⟩ => true
  | ⟨.rows, _⟩ => true
  | _ => false

omit [DecidableEq Id] in
/-- A read adds neither a row nor an entry. -/
theorem rowsOf_read {e : Event (ledgerSig Id Row Entry)} (h : isRead e = true) :
    rowsOf e = [] ∧ entryOf e = [] := by
  obtain ⟨o, r⟩ := e
  cases o with
  | look id => exact ⟨rfl, rfl⟩
  | rows => exact ⟨rfl, rfl⟩
  | _ => cases h

/-- One call adds to the ledger what it reports. -/
theorem act_adds (l : Ledger Id Row Entry) {e : Event (ledgerSig Id Row Entry)}
    (h : ((object Id Row Entry).act l e.op).1 = e.resp) :
    ((object Id Row Entry).act l e.op).2
      = ⟨l.issued ++ rowsOf e, l.entries ++ entryOf e⟩ := by
  obtain ⟨o, r⟩ := e
  cases o with
  | issue row => simp [object, issue, rowsOf, entryOf]
  | enter id entry =>
      change (l.enter id entry).1 = r at h
      subst h
      change (l.enter id entry).2 = _
      cases hl : l.entries.lookup id with
      | none => simp [enter_new hl, rowsOf, entryOf]
      | some old => simp [enter_old hl, rowsOf, entryOf]
  | replace row id entry =>
      change (l.enter id entry).1 = r at h
      subst h
      change (l.enter id entry).2.issue row = _
      cases hl : l.entries.lookup id with
      | none => simp [enter_new hl, issue, rowsOf, entryOf]
      | some old => simp [enter_old hl, issue, rowsOf, entryOf]
  | look id => simp [object, rowsOf, entryOf]
  | rows => simp [object, rowsOf, entryOf]

/-- A ledger grows by exactly what the calls report, in their order. -/
theorem legal_adds {l l' : Ledger Id Row Entry} {es : List (Event (ledgerSig Id Row Entry))}
    (h : (object Id Row Entry).Legal l es l') :
    l'.issued = l.issued ++ es.flatMap rowsOf ∧ l'.entries = l.entries ++ es.flatMap entryOf := by
  refine h.invariant (I := fun l' es => l'.issued = l.issued ++ es.flatMap rowsOf
    ∧ l'.entries = l.entries ++ es.flatMap entryOf) (by simp) ?_
  intro l₁ es e ih hanswer
  rw [act_adds l₁ hanswer]
  simp [ih]

end Ledger

end Tim.Lib
