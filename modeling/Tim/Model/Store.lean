import Tim.Lib.Pool
import Tim.Model.Signer

/-!
# `Tim.Model.Store`: the `custom_jwt` tables and the calls of the token service

The two tables are those of `migrations/0001_init.sql`. `Op` lists every call that
`src/jwt/service.rs` makes to the outside: the clock, `Uuid::new_v4`, the signing key, and
one constructor for each SQL statement. A statement runs on the pool, where it commits by
itself, or inside the transaction that the task has open.

`Store` is the state these calls act on, and `Store.exec` what each of them does there, under
the `READ COMMITTED` isolation that the code runs with:

* a `SELECT` on the pool sees the committed rows only;
* the rows of an open transaction become visible at its `COMMIT`, all at once;
* `INSERT .. ON CONFLICT DO NOTHING` counts one row when the key is free and none when a
  committed row or a row of the same transaction has it. While another open transaction has
  an uncommitted row with the key, the statement waits: `exec` has no result;
* every statement can fail, and then it changes nothing. A failed `COMMIT` ends the
  transaction without effect. One reason to fail is a `text` parameter with a NUL character,
  which PostgreSQL refuses. `exec` does not look for it, and leaves this error to the
  surroundings with all others.

`xmin` is the system column in which Postgres keeps the inserting transaction of a row. Here
it is the number of the task. `signed` records which claims the signing key has signed. No
function of the model reads either of them.
-/

set_option autoImplicit false

namespace Tim

open Tim.Lib

/-! ### The tables -/

/-- The columns of `custom_jwt.jwt_metadata` that an `INSERT` binds. -/
structure NewMetadata where
  id : Uuid
  jwtUuid : Uuid
  claimKeys : String
  issuedAt : DateTime
  expiresAt : DateTime
  subject : Option String
  jwtName : Option String
  audience : Option String
  issuer : Option String
  supersedes : Option Uuid
  originalJwtUuid : Uuid
  deriving DecidableEq

/-- A row of `custom_jwt.jwt_metadata`. -/
structure MetadataRow extends NewMetadata where
  createdAt : DateTime
  xmin : Nat
  deriving DecidableEq

/-- A row of `custom_jwt.denylist`. -/
structure DenylistRow where
  jwtUuid : Uuid
  createdAt : DateTime
  denylistedAt : DateTime
  expiresAt : DateTime
  reason : Option String
  xmin : Nat
  deriving DecidableEq

/-- The row that an `INSERT` of task `tid` stores in a transaction that began at `now`. -/
def NewMetadata.stored (row : NewMetadata) (now : DateTime) (tid : Nat) : MetadataRow where
  toNewMetadata := { row with
    issuedAt := row.issuedAt.toTimestamptz
    expiresAt := row.expiresAt.toTimestamptz }
  createdAt := now.toTimestamptz
  xmin := tid

/-- The denylist row that an `INSERT` of task `tid` stores in a transaction that began at
`now`. -/
def DenylistRow.stored (jti : Uuid) (expiresAt : DateTime) (reason : Option String)
    (now : DateTime) (tid : Nat) : DenylistRow where
  jwtUuid := jti
  createdAt := now.toTimestamptz
  denylistedAt := now.toTimestamptz
  expiresAt := expiresAt.toTimestamptz
  reason := reason
  xmin := tid

/-- The uncommitted rows of an open transaction. `now()` is the instant it began. -/
structure Tx where
  startedAt : DateTime
  metadata : List MetadataRow
  denylist : List DenylistRow
  deriving DecidableEq

/-- The `WHERE` clause of the list query, past the subject. -/
structure ListFilter where
  issuedAfter : Option DateTime
  issuedBefore : Option DateTime
  expiresAfter : Option DateTime
  expiresBefore : Option DateTime
  jwtName : Option String
  deriving DecidableEq

/-- Whether the `WHERE` clause of the list query holds of a row. -/
def ListFilter.matches (f : ListFilter) (subject : String) (r : MetadataRow) : Bool :=
  (r.subject == some subject)
    && f.issuedAfter.all (fun t => decide (t ≤ r.issuedAt))
    && f.issuedBefore.all (fun t => decide (r.issuedAt ≤ t))
    && f.expiresAfter.all (fun t => decide (t ≤ r.expiresAt))
    && f.expiresBefore.all (fun t => decide (r.expiresAt ≤ t))
    && f.jwtName.all (fun n => r.jwtName == some n)

/-! ### The calls -/

/-- Where a statement runs: on the pool or in the open transaction. -/
inductive Conn where
  | pool
  | tx
  deriving DecidableEq

/-- The calls of the token service. -/
inductive Op where
  | now
  | newUuid
  | sign (claims : StandardClaims)
  /-- `SELECT jwt_uuid FROM denylist`. -/
  | selectDenylist (jti : Uuid)
  /-- `SELECT denylisted_at, reason FROM denylist`. -/
  | selectDenylistEntry (jti : Uuid)
  /-- `SELECT expires_at FROM jwt_metadata`, the latest row of the jti. -/
  | selectExpiresAt (jti : Uuid)
  /-- `SELECT original_jwt_uuid, id, jwt_name FROM jwt_metadata`, the latest row of the jti. -/
  | selectChain (jti : Uuid)
  | selectTokens (subject : String) (filter : ListFilter) (limit offset : Int64)
  | countTokens (subject : String) (filter : ListFilter)
  | begin
  | insertMetadata (conn : Conn) (row : NewMetadata)
  /-- `INSERT INTO denylist .. ON CONFLICT (jwt_uuid) DO NOTHING`. -/
  | insertDenylist (conn : Conn) (jti : Uuid) (expiresAt : DateTime) (reason : Option String)
  | commit
  /-- The drop of an open transaction. -/
  | rollback

/-- The answer to a statement: a `sqlx` error by its text, or a value. -/
abbrev Sql (α : Type) := Except String α

/-- The answers. An `INSERT` into the denylist answers with `rows_affected`. -/
def Resp (K : Crates) : Op → Type
  | .now => DateTime
  | .newUuid => Uuid
  | .sign _ => Except TimError K.Token
  | .selectDenylist _ => Sql Bool
  | .selectDenylistEntry _ => Sql (Option (DateTime × Option String))
  | .selectExpiresAt _ => Sql (Option DateTime)
  | .selectChain _ => Sql (Option (Uuid × Uuid × Option String))
  | .selectTokens .. => Sql (List MetadataRow)
  | .countTokens .. => Sql Nat
  | .begin => Sql Unit
  | .insertMetadata .. => Sql Unit
  | .insertDenylist .. => Sql Nat
  | .commit => Sql Unit
  | .rollback => Unit

/-- The signature of the token service. -/
def jwtSig (K : Crates) : Sig where
  Op := Op
  Resp := Resp K

/-! ### The state -/

/-- The database, the clock and the identifiers handed out so far. -/
structure Store where
  metadata : List MetadataRow
  denylist : List DenylistRow
  txs : Std.ExtTreeMap Nat Tx
  clock : DateTime
  used : List Uuid
  signed : List StandardClaims

namespace Store

/-- The denylist row of a jti. -/
def denied (s : Store) (jti : Uuid) : Option DenylistRow :=
  s.denylist.find? fun r => r.jwtUuid = jti

/-- The open transaction of a task. -/
def txOf (s : Store) (tid : Nat) : Option Tx := s.txs[tid]?

/-- Some open transaction other than the one a statement of the task on `conn` runs in has
`p`. -/
def otherTx (s : Store) (tid : Nat) (conn : Conn) (p : Tx → Bool) : Bool :=
  s.txs.toList.any fun e => (conn = .pool || e.1 ≠ tid) && p e.2

/-- `ORDER BY created_at DESC LIMIT 1`. -/
def latest : List MetadataRow → Option MetadataRow
  | [] => none
  | r :: rs => match latest rs with
      | none => some r
      | some r' => if r.createdAt < r'.createdAt then some r' else some r

/-- The latest metadata row of a jti. -/
def chainRow (s : Store) (jti : Uuid) : Option MetadataRow :=
  latest (s.metadata.filter fun r => r.jwtUuid = jti)

/-- The store with the open transaction of the task replaced, or closed. -/
def setTx (s : Store) (tid : Nat) : Option Tx → Store
  | some tx => { s with txs := s.txs.insert tid tx }
  | none => { s with txs := s.txs.erase tid }

/-- The store with the rows of a transaction committed. -/
def apply (s : Store) (tx : Tx) : Store :=
  { s with metadata := s.metadata ++ tx.metadata, denylist := s.denylist ++ tx.denylist }

/-- The transaction that the task's next statement on `conn` runs in. On the pool it is a new
one. -/
def ownTx (s : Store) (tid : Nat) : Conn → Option Tx
  | .pool => some ⟨s.clock, [], []⟩
  | .tx => s.txOf tid

/-- The store after a statement on `conn` left its transaction as `tx`: committed at once on
the pool, kept open otherwise. -/
def write (s : Store) (tid : Nat) (tx : Tx) : Conn → Store
  | .pool => s.apply tx
  | .tx => s.setTx tid (some tx)

/-- `INSERT INTO jwt_metadata`. A row with the same `id` is a unique violation. -/
def insertMetadata (s : Store) (tid : Nat) (conn : Conn) (row : NewMetadata) :
    Option (Sql Unit × Store) :=
  match s.ownTx tid conn with
  | none => none
  | some tx =>
      if (s.metadata ++ tx.metadata).any (fun r => r.id = row.id) then
        some (.error "duplicate key value violates unique constraint", s)
      else if s.otherTx tid conn (fun t => t.metadata.any fun r => r.id = row.id) then none
      else
        let new := row.stored tx.startedAt tid
        some (.ok (), s.write tid { tx with metadata := tx.metadata ++ [new] } conn)

/-- `INSERT INTO denylist .. ON CONFLICT (jwt_uuid) DO NOTHING`. -/
def insertDenylist (s : Store) (tid : Nat) (conn : Conn) (jti : Uuid) (expiresAt : DateTime)
    (reason : Option String) : Option (Sql Nat × Store) :=
  match s.ownTx tid conn with
  | none => none
  | some tx =>
      if (s.denylist ++ tx.denylist).any (fun r => r.jwtUuid = jti) then some (.ok 0, s)
      else if s.otherTx tid conn (fun t => t.denylist.any fun r => r.jwtUuid = jti) then none
      else
        let new := DenylistRow.stored jti expiresAt reason tx.startedAt tid
        some (.ok 1, s.write tid { tx with denylist := tx.denylist ++ [new] } conn)

/-- `COMMIT`. -/
def commit (s : Store) (tid : Nat) : Option (Sql Unit × Store) :=
  match s.txOf tid with
  | none => none
  | some tx => some (.ok (), (s.apply tx).setTx tid none)

/-- The rows of the list query in the order `order`, which has to be the matching rows by
`issued_at` descending. Rows with the same `issued_at` come in any order. -/
def selectTokens (s : Store) (subject : String) (filter : ListFilter) (limit offset : Int64)
    (order : List MetadataRow) : Option (Sql (List MetadataRow)) :=
  if offset < 0 then some (.error "OFFSET must not be negative")
  else if order.isPerm (s.metadata.filter (filter.matches subject))
      ∧ order.Pairwise (fun a b => b.issuedAt ≤ a.issuedAt) then
    some (.ok ((order.drop offset.toInt.toNat).take limit.toInt.toNat))
  else none

end Store

/-- What the surroundings decide about one call: that it goes on, the UUID it draws, the order
of the rows it returns, or the error of the database. -/
inductive Choice where
  | go
  | uuid (u : Uuid)
  | order (rows : List MetadataRow)
  | fail (e : String)

namespace Store

/-- A statement that goes on as `f` says, or fails and changes nothing. -/
def statement {α : Type} (s : Store) (f : Option (Sql α × Store)) :
    Choice → Option (Sql α × Store)
  | .go => f
  | .fail e => some (.error e, s)
  | _ => none

/-- A statement that only reads. -/
def select {α : Type} (s : Store) (a : α) : Choice → Option (Sql α × Store) :=
  s.statement (some (.ok a, s))

/-- The answer to a call, and the state after it. -/
def exec {K : Crates} (signer : JwtSigner K) (tid : Nat) (s : Store) :
    (o : Op) → Choice → Option (Resp K o × Store)
  | .now => fun
      | .go => some (s.clock, s)
      | _ => none
  | .newUuid => fun
      | .uuid u => if u ∈ s.used then none else some (u, { s with used := u :: s.used })
      | _ => none
  | .sign c => fun
      | .go => some (signer.sign c.serialize, { s with signed := c :: s.signed })
      | _ => none
  | .selectDenylist jti => s.select (s.denied jti).isSome
  | .selectDenylistEntry jti => s.select ((s.denied jti).map fun r => (r.denylistedAt, r.reason))
  | .selectExpiresAt jti => s.select ((s.chainRow jti).map fun r => r.expiresAt)
  | .selectChain jti =>
      s.select ((s.chainRow jti).map fun r => (r.originalJwtUuid, r.id, r.jwtName))
  | .selectTokens subject filter limit offset => fun
      | .order rows => (s.selectTokens subject filter limit offset rows).map fun r => (r, s)
      | .fail e => some (.error e, s)
      | _ => none
  | .countTokens subject filter => s.select (s.metadata.filter (filter.matches subject)).length
  | .begin => s.statement (match s.txOf tid with
      | some _ => none
      | none => some (.ok (), s.setTx tid (some ⟨s.clock, [], []⟩)))
  | .insertMetadata conn row => s.statement (s.insertMetadata tid conn row)
  | .insertDenylist conn jti expiresAt reason =>
      s.statement (s.insertDenylist tid conn jti expiresAt reason)
  | .commit => fun
      | .go => s.commit tid
      | .fail e => some (.error e, s.setTx tid none)
      | _ => none
  | .rollback => fun
      | .go => some ((), s.setTx tid none)
      | _ => none

/-- Time passes: the clock moves to a later instant. -/
def tick (s : Store) (t : DateTime) : Option Store :=
  if s.clock ≤ t then some { s with clock := t } else none

end Store

/-- The machine of the token service. Dropping a task drops its open transaction. -/
def jwtMachine {K : Crates} (signer : JwtSigner K) : Machine (jwtSig K) where
  State := Store
  Choice := Choice
  Env := DateTime
  exec tid s o ch := s.exec signer tid o ch
  env := Store.tick
  release tid s := s.setTx tid none

end Tim
