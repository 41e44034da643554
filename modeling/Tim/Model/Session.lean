import Tim.Model.Json

/-!
# `Tim.Model.Session`: the two session stores (`src/oauth2/session`)

`SessionStore` is the trait of `store.rs`. Each method takes the clock of its call as an
argument, and `create` also the nonce that the cipher draws. `MemoryStore` is the map of
`memory.rs`. `PostgresStore` is the table `auth.session` of
`migrations/0002_session_store.sql` with the statements of `postgres.rs`. Its primary key is
the key of the map, instants are kept in whole microseconds, and a `text` value with a NUL
character is refused.

The profile is stored sealed: the nonce and then the ciphertext of its JSON text
(`crypto.rs`). The AEAD and the JSON codec are not part of the repository. `SealCrates` has
them as parameters. Decrypting inverts encrypting (`Decrypts`). The codec is another matter:
`serde_json` reads some floats back one bit off, so a profile comes back as it was written
only where `RoundTrips` says so. What holds of every profile is in `SealLaws`: the keys and the
strings survive.
-/

set_option autoImplicit false

namespace Tim

/-- `Vec<u8>`. -/
abbrev Bytes := List UInt8

/-! ### `store.rs` -/

structure Session where
  id : String
  providerId : String
  userId : String
  createdAt : DateTime
  lastActivity : DateTime
  expiresAt : DateTime
  profile : ClaimMap

/-- `Session::is_expired`. -/
def Session.isExpired (s : Session) (now : DateTime) : Bool := decide (s.expiresAt ≤ now)

/-- The nonce that `SessionCipher::seal` draws, `NONCE_LEN` bytes. -/
abbrev Nonce := Vector UInt8 12

/-- What one call of a store reads from the surroundings. -/
structure Moment where
  now : DateTime
  nonce : Nonce

/-- The trait `SessionStore`. A method gives its result and the state after it. -/
structure SessionStore where
  State : Type
  empty : State
  create : Moment → Session → State → Except TimError Unit × State
  get : Moment → String → State → Except TimError (Option Session) × State
  touch : Moment → String → State → Except TimError Unit × State
  revoke : Moment → String → State → Except TimError Bool × State
  sweepExpired : Moment → State → Except TimError Nat × State

/-! ### `memory.rs` -/

/-- The sessions of a `MemoryStore` by id. -/
abbrev SessionMap := Std.ExtTreeMap String Session

namespace MemoryStore

/-- `MemoryStore::create`. -/
def create (_ : Moment) (session : Session) (map : SessionMap) :
    Except TimError Unit × SessionMap :=
  (.ok (), map.insert session.id session)

/-- `MemoryStore::get`: an expired entry is removed. -/
def get (m : Moment) (id : String) (map : SessionMap) :
    Except TimError (Option Session) × SessionMap :=
  match map[id]? with
  | none => (.ok none, map)
  | some entry =>
      -- Only a read of an expired entry changes the map.
      if entry.isExpired m.now then (.ok none, map.erase id) else (.ok (some entry), map)

/-- `MemoryStore::touch`. An expired entry is touched like any other. -/
def touch (m : Moment) (id : String) (map : SessionMap) : Except TimError Unit × SessionMap :=
  match map[id]? with
  | some entry => (.ok (), map.insert id { entry with lastActivity := m.now })
  | none => (.ok (), map)

/-- `MemoryStore::revoke`. -/
def revoke (_ : Moment) (id : String) (map : SessionMap) : Except TimError Bool × SessionMap :=
  -- An expired entry that is still there counts as a session that existed.
  (.ok (map[id]?).isSome, map.erase id)

/-- `MemoryStore::sweep_expired`: the expired ids are collected and then removed. -/
def sweepExpired (m : Moment) (map : SessionMap) : Except TimError Nat × SessionMap :=
  let expired := (map.toList.filter fun e => e.2.isExpired m.now).map (·.1)
  (.ok expired.length, expired.foldl (fun map id => map.erase id) map)

end MemoryStore

/-- `MemoryStore`. -/
def memoryStore : SessionStore where
  State := SessionMap
  empty := ∅
  create := MemoryStore.create
  get := MemoryStore.get
  touch := MemoryStore.touch
  revoke := MemoryStore.revoke
  sweepExpired := MemoryStore.sweepExpired

/-! ### `crypto.rs` -/

/-- The AEAD and the JSON codec of the profile, with errors by their text. -/
structure SealCrates where
  Key : Type
  /-- `ChaCha20Poly1305::encrypt` under a key and a nonce. -/
  encrypt : Key → Bytes → Bytes → Except String Bytes
  /-- `ChaCha20Poly1305::decrypt` under a key and a nonce. -/
  decrypt : Key → Bytes → Bytes → Except String Bytes
  /-- `serde_json::to_vec` of a profile. -/
  toVec : ClaimMap → Except String Bytes
  /-- `serde_json::from_slice` of a profile. -/
  fromSlice : Bytes → Except String ClaimMap

/-- Decrypting gives back what was encrypted under the same key and nonce. -/
def SealCrates.Decrypts (A : SealCrates) : Prop :=
  ∀ k n p c, A.encrypt k n p = .ok c → A.decrypt k n c = .ok p

/-- `serde_json` writes the profile and reads the same profile back. Without its feature
`float_roundtrip`, which `Cargo.toml` does not ask for, this fails for some floats. -/
def SealCrates.RoundTrips (A : SealCrates) (profile : ClaimMap) : Prop :=
  ∃ json, A.toVec profile = .ok json ∧ A.fromSlice json = .ok profile

/-- What holds of the AEAD and of the codec for every profile: a profile that is read back has
the keys and the strings of the one that was written. -/
structure SealLaws (A : SealCrates) : Prop where
  decrypts : A.Decrypts
  fromSlice_toVec : ∀ m b m', A.toVec m = .ok b → A.fromSlice b = .ok m' → SameStrings m m'

structure SessionCipher (A : SealCrates) where
  inner : A.Key

namespace SessionCipher

variable {A : SealCrates} (cipher : SessionCipher A)

/-- `NONCE_LEN`. -/
def nonceLen : Nat := 12

/-- `SessionCipher::seal`: the nonce, then the ciphertext and its tag. -/
def seal_ (nonce : Nonce) (plaintext : Bytes) : Except TimError Bytes :=
  match A.encrypt cipher.inner nonce.toList plaintext with
  | .error e => .error (.crypto ("session AEAD encrypt: " ++ e))
  | .ok ct => .ok (nonce.toList ++ ct)

/-- `SessionCipher::open`. -/
def open_ (sealed : Bytes) : Except TimError Bytes :=
  -- A blob that ends within the nonce. One without a tag is left to the cipher.
  if sealed.length < nonceLen then .error (.crypto "session AEAD blob too short")
  else
    match A.decrypt cipher.inner (sealed.take nonceLen) (sealed.drop nonceLen) with
    | .error e => .error (.crypto ("session AEAD decrypt: " ++ e))
    | .ok pt => .ok pt

/-- `slice::split_at`, which panics when the position is behind the end. -/
def splitAt (bytes : Bytes) (mid : Nat) : Option (Bytes × Bytes) :=
  if mid ≤ bytes.length then some (bytes.take mid, bytes.drop mid) else none

/-- `Nonce::from_slice`, which panics when the slice has another length. -/
def nonceFromSlice (bytes : Bytes) : Option Bytes :=
  if bytes.length = nonceLen then some bytes else none

/-- `SessionCipher::open` with its two calls that can panic. `none` is a panic. -/
def openOrPanic (sealed : Bytes) : Option (Except TimError Bytes) :=
  if sealed.length < nonceLen then some (.error (.crypto "session AEAD blob too short"))
  else do
    let (nonceBytes, ct) ← splitAt sealed nonceLen
    let nonce ← nonceFromSlice nonceBytes
    match A.decrypt cipher.inner nonce ct with
    | .error e => some (.error (.crypto ("session AEAD decrypt: " ++ e)))
    | .ok pt => some (.ok pt)

end SessionCipher

/-! ### `postgres.rs` -/

/-- A row of `auth.session`. -/
structure SessionRow where
  id : String
  providerId : String
  userId : String
  createdAt : DateTime
  lastActivity : DateTime
  expiresAt : DateTime
  profileEncrypted : Bytes

/-- The table `auth.session` by its primary key. -/
abbrev SessionTable := Std.ExtTreeMap String SessionRow

/-- A string that a `text` parameter can carry. -/
def isText (s : String) : Bool := !s.toList.contains '\x00'

namespace PostgresStore

variable {A : SealCrates} (cipher : SessionCipher A)

/-- `PostgresStore::seal_profile`. -/
def sealProfile (nonce : Nonce) (profile : ClaimMap) : Except TimError Bytes :=
  match A.toVec profile with
  | .error e => .error (.crypto ("profile serialise: " ++ e))
  | .ok json => cipher.seal_ nonce json

/-- `PostgresStore::open_profile`. -/
def openProfile (sealed : Bytes) : Except TimError ClaimMap :=
  match cipher.open_ sealed with
  | .error e => .error e
  | .ok pt =>
      match A.fromSlice pt with
      | .error e => .error (.crypto ("profile deserialise: " ++ e))
      | .ok profile => .ok profile

/-- The row that the `INSERT` of `create` stores. -/
def row (session : Session) (sealed : Bytes) : SessionRow where
  id := session.id
  providerId := session.providerId
  userId := session.userId
  createdAt := session.createdAt.toTimestamptz
  lastActivity := session.lastActivity.toTimestamptz
  expiresAt := session.expiresAt.toTimestamptz
  profileEncrypted := sealed

/-- The error of a statement with a `text` parameter that is none. -/
def notText : TimError := .database "invalid byte sequence for encoding \"UTF8\": 0x00"

/-- `PostgresStore::create`. A row with the same id is a unique violation. -/
def create (m : Moment) (session : Session) (table : SessionTable) :
    Except TimError Unit × SessionTable :=
  match sealProfile cipher m.nonce session.profile with
  | .error e => (.error e, table)
  | .ok sealed =>
      if !(isText session.id && isText session.providerId && isText session.userId) then
        (.error notText, table)
      -- Expired rows are in the table until they are swept, so their ids are taken.
      else if (table[session.id]?).isSome then
        (.error (.database "duplicate key value violates unique constraint"), table)
      else (.ok (), table.insert session.id (row session sealed))

/-- `PostgresStore::get`: `WHERE id = $1 AND expires_at > now()`. -/
def get (m : Moment) (id : String) (table : SessionTable) :
    Except TimError (Option Session) × SessionTable :=
  if !isText id then (.error notText, table)
  else
    -- An expired row is hidden and stays.
    match (table[id]?).filter fun r => decide (m.now.toTimestamptz < r.expiresAt) with
    | none => (.ok none, table)
    | some r =>
        match openProfile cipher r.profileEncrypted with
        | .error e => (.error e, table)
        | .ok profile => (.ok (some {
            id := r.id
            providerId := r.providerId
            userId := r.userId
            createdAt := r.createdAt
            lastActivity := r.lastActivity
            expiresAt := r.expiresAt
            profile }), table)

/-- `PostgresStore::touch`: `WHERE id = $1 AND expires_at > now()`. -/
def touch (m : Moment) (id : String) (table : SessionTable) :
    Except TimError Unit × SessionTable :=
  if !isText id then (.error notText, table)
  else
    match (table[id]?).filter fun r => decide (m.now.toTimestamptz < r.expiresAt) with
    | none => (.ok (), table)
    | some r => (.ok (), table.insert id { r with lastActivity := m.now.toTimestamptz })

/-- `PostgresStore::revoke`. -/
def revoke (_ : Moment) (id : String) (table : SessionTable) :
    Except TimError Bool × SessionTable :=
  if !isText id then (.error notText, table)
  else (.ok (table[id]?).isSome, table.erase id)

/-- `PostgresStore::sweep_expired`: `WHERE expires_at <= now()`. -/
def sweepExpired (m : Moment) (table : SessionTable) : Except TimError Nat × SessionTable :=
  -- `now()` is cut to microseconds, as the column is.
  let left := table.filter fun _ r => decide (m.now.toTimestamptz < r.expiresAt)
  (.ok (table.size - left.size), left)

end PostgresStore

/-- `PostgresStore`. -/
def postgresStore {A : SealCrates} (cipher : SessionCipher A) : SessionStore where
  State := SessionTable
  empty := ∅
  create := PostgresStore.create cipher
  get := PostgresStore.get cipher
  touch := PostgresStore.touch
  revoke := PostgresStore.revoke
  sweepExpired := PostgresStore.sweepExpired

/-- The store that `oauth2.session_store` selects. -/
inductive SessionBackend where
  | memory
  | postgres
  deriving DecidableEq

/-- The store behind `SharedSessionStore`. -/
def SessionBackend.store {A : SealCrates} (cipher : SessionCipher A) :
    SessionBackend → SessionStore
  | .memory => memoryStore
  | .postgres => postgresStore cipher

/-! ### Sequences of calls -/

/-- The calls of a `SessionStore`. -/
inductive SessionOp where
  | create (session : Session)
  | get (id : String)
  | touch (id : String)
  | revoke (id : String)
  | sweepExpired

/-- A call with the moment it is made at. -/
structure SessionCall where
  moment : Moment
  op : SessionOp

namespace SessionStore

variable (store : SessionStore)

/-- Whether a call succeeds, and the state after it. -/
def step (st : store.State) (c : SessionCall) : Bool × store.State :=
  match c.op with
  | .create session =>
      let r := store.create c.moment session st
      (r.1.isOk, r.2)
  | .get id =>
      let r := store.get c.moment id st
      (r.1.isOk, r.2)
  | .touch id =>
      let r := store.touch c.moment id st
      (r.1.isOk, r.2)
  | .revoke id =>
      let r := store.revoke c.moment id st
      (r.1.isOk, r.2)
  | .sweepExpired =>
      let r := store.sweepExpired c.moment st
      (r.1.isOk, r.2)

/-- The state after a sequence of calls. -/
def run (st : store.State) (calls : List SessionCall) : store.State :=
  calls.foldl (fun st c => (store.step st c).2) st

end SessionStore

end Tim
