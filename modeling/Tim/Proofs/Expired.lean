import Tim.Proofs.InternalErrors
import Tim.Proofs.Presence

/-!
# `Tim.Proofs.Expired`: what the stores answer about an expired session

An expired session is hidden from `get`, and `touch` reports nothing. `revoke` says whether there
was a row, and an expired row is there until something removes it. `removed` is that condition, on
the calls since the create. The stores differ in it: a read of an expired session removes it from
`MemoryStore` only, so a logout after such a read is answered differently.

* `memory_answers`, `postgres_answers`: what `revoke` answers in each store, as the history of the
  session.
* `expired_session_answers`: when an expired session is told from an absent one.
* `revokeReply_eq_iff`: when the two stores answer alike.
-/

set_option autoImplicit false

namespace Tim

open Tim.Lib Tim.Lib.Prog

/-- The session has expired as the store sees it. The database compares whole microseconds. -/
def SessionBackend.expired (s : Session) : SessionBackend → DateTime → Bool
  | .memory, now => s.isExpired now
  | .postgres, now => decide (s.expiresAt.toTimestamptz ≤ now.toTimestamptz)

/-- A call since the create of the session has removed it. -/
def SessionBackend.removed (backend : SessionBackend) (s : Session) (calls : List SessionCall) :
    Bool :=
  calls.any fun c => c.removes backend s.id (backend.expired s)

/-- The state of a store after a sequence of calls. -/
abbrev SessionBackend.after {A : SealCrates} (backend : SessionBackend) (cipher : SessionCipher A)
    (calls : List SessionCall) : (backend.store cipher).State :=
  (backend.store cipher).run (backend.store cipher).empty calls

/-- The call succeeds after those before it. -/
def SessionBackend.Takes {A : SealCrates} (backend : SessionBackend) (cipher : SessionCipher A)
    (before : List SessionCall) (c : SessionCall) : Prop :=
  ((backend.store cipher).step (backend.after cipher before) c).1 = true

/-- The call creates the session, the id is not used again, and at `m` the session has expired. -/
structure Lapsed (s : Session) (c : SessionCall) (after : List SessionCall) (m : Moment) :
    Prop where
  op : c.op = .create s
  once : NoCreate s.id after
  expired : s.expiresAt ≤ m.now

/-- The store answers as it does about an id that was never created. -/
structure LikeAbsent (store : SessionStore) (st : store.State) (m : Moment) (id : String) :
    Prop where
  get : (store.get m id st).1 = .ok none
  touch : store.touch m id st = (.ok (), st)
  revoke : (store.revoke m id st).1 = .ok false

/-- That is what both stores answer about an id that no call has created. -/
theorem likeAbsent_of_noCreate {A : SealCrates} (cipher : SessionCipher A)
    (backend : SessionBackend) {id : String} (htext : isText id = true) {calls : List SessionCall}
    (hc : NoCreate id calls) (m : Moment) :
    LikeAbsent (backend.store cipher) (backend.after cipher calls) m id := by
  cases backend with
  | memory =>
      have hview := MemoryStore.view_run hc (∅ : SessionMap)
      have hempty : MemoryStore.view (∅ : SessionMap) id = none := by simp [MemoryStore.view]
      rw [hempty] at hview
      show LikeAbsent memoryStore (memoryStore.run (∅ : SessionMap) calls) m id
      generalize memoryStore.run (∅ : SessionMap) calls = st at hview ⊢
      change SessionMap at st
      have hnone : st[id]? = none := Option.map_eq_none_iff.mp hview
      refine ⟨?_, ?_, ?_⟩
      · show (MemoryStore.get m id st).1 = _
        rw [MemoryStore.get, hnone]
      · show MemoryStore.touch m id st = _
        rw [MemoryStore.touch, hnone]
        rfl
      · show (MemoryStore.revoke m id st).1 = _
        rw [MemoryStore.revoke, hnone]
        rfl
  | postgres =>
      have hrow : PostgresStore.rowAt ((postgresStore cipher).run (∅ : SessionTable) calls) id
          = none := by
        rw [PostgresStore.rowAt_run htext hc]
        simp [PostgresStore.rowAt]
      show LikeAbsent (postgresStore cipher) ((postgresStore cipher).run (∅ : SessionTable) calls)
        m id
      generalize (postgresStore cipher).run (∅ : SessionTable) calls = st at hrow ⊢
      change SessionTable at st
      have hnone : st[id]? = none := Option.map_eq_none_iff.mp hrow
      refine ⟨?_, ?_, ?_⟩
      · show (PostgresStore.get cipher m id st).1 = _
        rw [PostgresStore.get, htext, hnone]
        rfl
      · show PostgresStore.touch m id st = _
        rw [PostgresStore.touch, htext, hnone]
        rfl
      · show (PostgresStore.revoke m id st).1 = _
        rw [PostgresStore.revoke, htext, hnone]
        rfl

/-- What the store answers about an expired session. -/
structure ExpiredAnswers {A : SealCrates} (cipher : SessionCipher A) (backend : SessionBackend)
    (s : Session) (after : List SessionCall) (m : Moment) (st : (backend.store cipher).State) :
    Prop where
  get : ((backend.store cipher).get m s.id st).1 = .ok none
  touch : ((backend.store cipher).touch m s.id st).1 = .ok ()
  touch_idle : backend = .postgres → ((backend.store cipher).touch m s.id st).2 = st
  revoke : ((backend.store cipher).revoke m s.id st).1 = .ok (!backend.removed s after)

namespace Lapsed

variable {A : SealCrates} {cipher : SessionCipher A} {s : Session} {before after : List SessionCall}
  {c : SessionCall} {m : Moment}

/-- Calls in a row are those of the first history and then those of the second. -/
theorem run_append (store : SessionStore) (st : store.State) (calls calls' : List SessionCall) :
    store.run st (calls ++ calls') = store.run (store.run st calls) calls' :=
  List.foldl_append ..

/-- What `MemoryStore` answers about the session. -/
theorem memory_answers (map : SessionMap) (m₀ : Moment) (hc : NoCreate s.id after)
    (hexp : s.expiresAt ≤ m.now) :
    let st := memoryStore.run map (⟨m₀, .create s⟩ :: after)
    (memoryStore.get m s.id st).1 = .ok none ∧ (memoryStore.touch m s.id st).1 = .ok ()
      ∧ (memoryStore.revoke m s.id st).1 = .ok (!SessionBackend.memory.removed s after) := by
  have hview := MemoryStore.view_created (m := m₀) hc map
  change MemoryStore.view _ s.id = if SessionBackend.memory.removed s after then _ else _ at hview
  generalize memoryStore.run map (⟨m₀, .create s⟩ :: after) = st at hview ⊢
  change SessionMap at st
  dsimp only
  refine ⟨?_, ?_, ?_⟩
  · show (MemoryStore.get m s.id st).1 = _
    unfold MemoryStore.get
    split
    · rfl
    · rename_i e he
      -- The entry is that of the session, which has expired.
      have hsame : e.still = s.still := by
        rw [MemoryStore.view, he] at hview
        split at hview
        · cases hview
        · exact Option.some.inj hview
      have hlapsed : e.isExpired m.now = true := by
        rw [← Session.still_isExpired, hsame, Session.still_isExpired]
        exact decide_eq_true hexp
      rw [if_pos hlapsed]
  · show (MemoryStore.touch m s.id st).1 = _
    unfold MemoryStore.touch
    split <;> rfl
  · show Except.ok (st[s.id]?).isSome = _
    rw [← Option.isSome_map (f := Session.still)]
    change Except.ok (MemoryStore.view st s.id).isSome = _
    rw [hview]
    cases SessionBackend.memory.removed s after <;> rfl

/-- What `PostgresStore` answers about the session. -/
theorem postgres_answers {table : SessionTable} {m₀ : Moment}
    (hok : ((postgresStore cipher).step table ⟨m₀, .create s⟩).1 = true)
    (hc : NoCreate s.id after) (hexp : s.expiresAt ≤ m.now) :
    let st := (postgresStore cipher).run table (⟨m₀, .create s⟩ :: after)
    ((postgresStore cipher).get m s.id st).1 = .ok none
      ∧ (postgresStore cipher).touch m s.id st = (.ok (), st)
      ∧ ((postgresStore cipher).revoke m s.id st).1
        = .ok (!SessionBackend.postgres.removed s after) := by
  obtain ⟨htext, sealed, -, hrow⟩ := PostgresStore.rowAt_created hok hc
  change PostgresStore.rowAt _ s.id
    = if SessionBackend.postgres.removed s after then _ else _ at hrow
  generalize (postgresStore cipher).run table (⟨m₀, .create s⟩ :: after) = st at hrow ⊢
  change SessionTable at st
  dsimp only
  -- The row is that of the session, which no statement for live rows finds.
  have hhidden : (st[s.id]?).filter (fun r => decide (m.now.toTimestamptz < r.expiresAt))
      = none := by
    rw [Option.filter_eq_none_iff]
    intro r hr
    have hsame : r.still = (PostgresStore.row s sealed).still := by
      rw [PostgresStore.rowAt, hr] at hrow
      split at hrow
      · cases hrow
      · exact Option.some.inj hrow
    have hexpires : r.expiresAt = s.expiresAt.toTimestamptz := congrArg SessionRow.expiresAt hsame
    have hle : s.expiresAt.ns ≤ m.now.ns := hexp
    rw [hexpires, decide_eq_true_iff]
    show ¬ m.now.ns / 1000 * 1000 < s.expiresAt.ns / 1000 * 1000
    omega
  refine ⟨?_, ?_, ?_⟩
  · show (PostgresStore.get cipher m s.id st).1 = _
    unfold PostgresStore.get
    rw [htext, hhidden]
    rfl
  · show PostgresStore.touch m s.id st = _
    unfold PostgresStore.touch
    rw [htext, hhidden]
    rfl
  · show (PostgresStore.revoke m s.id st).1 = _
    unfold PostgresStore.revoke
    rw [htext]
    show Except.ok (st[s.id]?).isSome = _
    rw [← Option.isSome_map (f := SessionRow.still)]
    change Except.ok (PostgresStore.rowAt st s.id).isSome = _
    rw [hrow]
    cases SessionBackend.postgres.removed s after <;> rfl

/-- What a store answers about an expired session, after the calls since its create. -/
theorem answers (h : Lapsed s c after m) {backend : SessionBackend}
    (htakes : backend.Takes cipher before c) :
    ExpiredAnswers cipher backend s after m (backend.after cipher (before ++ c :: after)) := by
  obtain ⟨m₀, op⟩ := c
  cases h.op
  -- The calls before the creation do not matter, only the state they have left.
  have hrun : backend.after cipher (before ++ ⟨m₀, .create s⟩ :: after)
      = (backend.store cipher).run (backend.after cipher before) (⟨m₀, .create s⟩ :: after) :=
    run_append ..
  rw [hrun]
  cases backend with
  | memory =>
      obtain ⟨hget, htouch, hrevoke⟩ :=
        memory_answers (SessionBackend.memory.after cipher before) m₀ h.once h.expired
      exact ⟨hget, htouch, nofun, hrevoke⟩
  | postgres =>
      obtain ⟨hget, htouch, hrevoke⟩ := postgres_answers htakes h.once h.expired
      exact ⟨hget, congrArg Prod.fst htouch, fun _ => congrArg Prod.snd htouch, hrevoke⟩

end Lapsed

end Tim

namespace Tim.Web

open Tim.Lib Tim.Lib.Prog

variable {K : WebCrates}

namespace AppState

/-- The request asks to revoke the session, by a logout or by its id in the query of the legacy
route. -/
inductive AsksRevoke (app : AppState K) (req : HttpRequest) (id : String) : Endpoint → Prop
  | logout (h : sessionAuth K req = .ok id) : AsksRevoke app req id .authLogout
  | blacklist {q : LegacyBlacklistQuery} (hadmin : app.admin.adminAuth req = .ok ())
      (hquery : queryOf K legacyBlacklistQuery req = .ok q)
      (hcookie : req.cookieValue app.cookieName = none) (hjwt : q.jwt = none)
      (hid : q.sessionId = some id) : AsksRevoke app req id .jwtBlacklist

/-- The answers of a store to `revoke`. The two routes make no other call. -/
def revokeAnswers (K : WebCrates) (store : SessionStore) (m : Moment) (st : store.State) :
    (o : WebOp) → WebResp K o
  | .sessionRevoke id => (store.revoke m id st).1
  | o => outage K m.now "" o

/-- The two routes answer with what `revoke` says, and a reply shows what that was. -/
theorem AsksRevoke.reply {app : AppState K} {req : HttpRequest} {id : String} {e : Endpoint}
    (h : app.AsksRevoke req id e) : ∃ reply : Bool → Reply K, reply true ≠ reply false
      ∧ ∀ f existed, f (.sessionRevoke id) = Except.ok existed →
        (app.handler req e).answer (S := webSig K) f = .ok (reply existed) := by
  cases h with
  | logout hid =>
      -- The reason comes from the body, whatever the store answers.
      obtain ⟨reason, hreply⟩ : ∃ reason : Scalar, ∀ (f : (o : WebOp) → WebResp K o) existed,
          f (.sessionRevoke id) = Except.ok existed →
          (app.authLogout req).answer (S := webSig K) f = .ok ⟨200, .object
            [("status", .str (if existed then "logged_out" else "not_found_ok")),
              ("reason", reason)], none⟩ := by
        apply Exists.intro
        intro f existed hf
        unfold authLogout
        rw [hid]
        show ((Handler.try_ (f (.sessionRevoke id)) : Handler K Bool) >>= _).answer
          (S := webSig K) f = _
        rw [hf]
        rfl
      exact ⟨fun existed => ⟨200, .object
        [("status", .str (if existed then "logged_out" else "not_found_ok")),
          ("reason", reason)], none⟩, by simp, hreply⟩
  | @blacklist q hadmin hquery hcookie hjwt hid =>
      obtain ⟨jwt, sessionId, reason⟩ := q
      cases hjwt
      cases hid
      refine ⟨fun existed => statusBody (if existed then 200 else 404)
        (if existed then "logged_out" else "not_found") none, by simp [statusBody],
        fun f existed hf => ?_⟩
      show (app.jwtBlacklistCompat req).answer (S := webSig K) f = _
      unfold jwtBlacklistCompat adminAuth
      rw [hadmin, hquery, hcookie]
      show ((Handler.try_ (f (.sessionRevoke id)) : Handler K Bool) >>= _).answer (S := webSig K) f
        = _
      rw [hf]
      rfl

end AppState

variable {A : SealCrates} {cipher : SessionCipher A} {s : Session}
  {before after : List SessionCall} {c : SessionCall} {m : Moment}

/-- `MemoryStore` takes every session. -/
theorem memory_takes (cipher : SessionCipher A) (before : List SessionCall)
    (h : c.op = .create s) : SessionBackend.memory.Takes cipher before c := by
  obtain ⟨m₀, op⟩ := c
  cases h
  rfl

/-- The reply to the request, from a store after a sequence of calls. -/
def AppState.revokeReply (app : AppState K) (req : HttpRequest) (e : Endpoint)
    (cipher : SessionCipher A) (m : Moment) (calls : List SessionCall) (backend : SessionBackend) :
    Except Halt (Reply K) :=
  (app.handler req e).answer (S := webSig K)
    (AppState.revokeAnswers K (backend.store cipher) m (backend.after cipher calls))

/-- For a lapsed session, the two stores answer the request alike exactly when they agree on whether
the row was removed since. -/
theorem revokeReply_eq_iff (h : Lapsed s c after m)
    (htakes : SessionBackend.postgres.Takes cipher before c) {app : AppState K}
    {req : HttpRequest} {e : Endpoint} (hreq : app.AsksRevoke req s.id e) :
    app.revokeReply req e cipher m (before ++ c :: after) .memory
        = app.revokeReply req e cipher m (before ++ c :: after) .postgres
      ↔ SessionBackend.memory.removed s after = SessionBackend.postgres.removed s after := by
  obtain ⟨reply, hne, hreply⟩ := hreq.reply
  have hmemory := (h.answers (memory_takes cipher before h.op)).revoke
  refine (Eq.congr (hreply _ _ hmemory) (hreply _ _ (h.answers htakes).revoke)).trans ?_
  cases SessionBackend.memory.removed s after <;>
    cases SessionBackend.postgres.removed s after <;> simp [hne, hne.symm]

/-- After every history, about a session that has expired: `get` finds nothing, `touch` reports
nothing and changes nothing in the database, and `revoke` says that there was a session unless a
call has removed it. A logout, or the legacy route, gets the same answer from both stores exactly
when it was removed from both or from neither. -/
theorem expired_session_answers (cipher : SessionCipher A) (before : List SessionCall)
    (h : Lapsed s c after m) :
    (∀ backend : SessionBackend, backend.Takes cipher before c →
      ExpiredAnswers cipher backend s after m (backend.after cipher (before ++ c :: after)))
    ∧ (SessionBackend.postgres.Takes cipher before c →
      ∀ (app : AppState K) (req : HttpRequest) (e : Endpoint), app.AsksRevoke req s.id e →
        (app.revokeReply req e cipher m (before ++ c :: after) .memory
            = app.revokeReply req e cipher m (before ++ c :: after) .postgres
          ↔ SessionBackend.memory.removed s after = SessionBackend.postgres.removed s after)) :=
  ⟨fun _ htakes => h.answers htakes, fun htakes _ _ _ hreq => revokeReply_eq_iff h htakes hreq⟩

/-! ### A sample session -/

namespace Sample

open Symbolic

/-- The call that creates the sample session. It lasts a minute. -/
def created : SessionCall := ⟨moment (instant 0), .create Symbolic.session⟩

/-- A read of the session after its expiry. -/
def lateRead : SessionCall := ⟨moment (instant 61), .get "s1"⟩

/-- A logout with the id of the session. -/
def logout : HttpRequest := request .post ["auth", "logout"] [("x-tim-session", "s1")] ""

/-- The sample logout asks to revoke the session. -/
theorem logout_asks : app.AsksRevoke logout "s1" .authLogout := .logout (by decide +kernel)

/-- The sample session can be created in both stores. -/
theorem created_takes (backend : SessionBackend) :
    backend.Takes Symbolic.cipher [] created := by
  cases backend with
  | memory => rfl
  | postgres => exact (by decide +kernel : (PostgresStore.create Symbolic.cipher
      (moment (instant 0)) Symbolic.session ∅).1.isOk = true)

/-- The session has lapsed at second 62, with or without the read. -/
theorem lapsed (after : List SessionCall) (hafter : NoCreate "s1" after) :
    Lapsed Symbolic.session created after (moment (instant 62)) where
  op := rfl
  once := hafter
  expired := by decide

/-- The sample session has lapsed, and one read has met it since. -/
theorem lapsed_read : Lapsed Symbolic.session created [lateRead] (moment (instant 62)) :=
  lapsed [lateRead] fun c hc s hs => by
    cases List.mem_singleton.mp hc
    cases hs

end Sample

open Sample Symbolic in
/-- The expired session was read once, so it is gone from `MemoryStore` and not from the
database. -/
theorem expired_session_answers_read :
    Lapsed Symbolic.session created [lateRead] (moment (instant 62))
      ∧ (∀ backend : SessionBackend, ExpiredAnswers Symbolic.cipher backend Symbolic.session
        [lateRead] (moment (instant 62)) (backend.after Symbolic.cipher [created, lateRead]))
      ∧ (app.revokeReply logout .authLogout Symbolic.cipher (moment (instant 62))
          [created, lateRead] .memory
          = app.revokeReply logout .authLogout Symbolic.cipher (moment (instant 62))
            [created, lateRead] .postgres
        ↔ SessionBackend.memory.removed Symbolic.session [lateRead]
          = SessionBackend.postgres.removed Symbolic.session [lateRead]) := by
  obtain ⟨hanswers, hreplies⟩ :=
    expired_session_answers (K := crates) Symbolic.cipher [] lapsed_read
  exact ⟨lapsed_read, fun backend => hanswers backend (created_takes backend),
    hreplies (created_takes .postgres) app logout .authLogout logout_asks⟩

open Sample Symbolic in
/-- An expired session that nothing has removed is revoked like a live one, and after a read the
two stores answer a logout differently. -/
theorem expired_session_logged_out :
    (∀ backend : SessionBackend, ¬ LikeAbsent (backend.store Symbolic.cipher)
      (backend.after Symbolic.cipher [created]) (moment (instant 62)) "s1")
    ∧ app.revokeReply logout .authLogout Symbolic.cipher (moment (instant 62))
        [created, lateRead] .memory
      ≠ app.revokeReply logout .authLogout Symbolic.cipher (moment (instant 62))
        [created, lateRead] .postgres := by
  refine ⟨fun backend habsent => ?_, fun hsame => ?_⟩
  · have hlapsed := lapsed [] fun c hc => absurd hc List.not_mem_nil
    have htrue := (hlapsed.answers (created_takes backend)).revoke
    cases backend with
    | memory => cases habsent.revoke.symm.trans htrue
    | postgres => cases habsent.revoke.symm.trans htrue
  · have hremoved := (revokeReply_eq_iff lapsed_read (created_takes .postgres) logout_asks).mp hsame
    revert hremoved
    decide +kernel

end Tim.Web
