import Tim.Proofs.Session

/-!
# `Tim.Proofs.Presence`: which entries a session store still holds

`get` hides an expired session, but the entry can still be in the store. What is there under an id
after a sequence of calls is what a create has put there, unless a call has removed it since:
a revoke, a sweep after the expiry or, in `MemoryStore` only, a read after the expiry. A touch
changes the last activity and nothing else, so the entries are compared without it (`still`).

`view_run` and `rowAt_run` say this for the two stores in one equation each.

* `view_created`, `rowAt_created`: the entry of a created session after any calls that do not create
  it again.
-/

set_option autoImplicit false

namespace Tim

/-- The entry without its last activity. -/
def Session.still (e : Session) : Session := e.touchedAt e.createdAt

/-- The row without its last activity. -/
def SessionRow.still (r : SessionRow) : SessionRow := { r with lastActivity := r.createdAt }

/-- The last activity of a session does not decide when it expires. -/
@[simp] theorem Session.still_isExpired (e : Session) : e.still.isExpired = e.isExpired := rfl

/-- The row has expired by the clock of the database. -/
def SessionRow.isExpired (r : SessionRow) (now : DateTime) : Bool :=
  decide (r.expiresAt ≤ now.toTimestamptz)

/-- The same for a row. -/
@[simp] theorem SessionRow.still_isExpired (r : SessionRow) : r.still.isExpired = r.isExpired := rfl

/-- The call removes an entry under the id. -/
def SessionCall.removes (backend : SessionBackend) (id : String) (expired : DateTime → Bool)
    (c : SessionCall) : Bool :=
  match c.op with
  | .revoke id' => id' == id
  | .sweepExpired => expired c.moment.now
  | .get id' => backend == .memory && id' == id && expired c.moment.now
  | _ => false

variable {id : String} {c : SessionCall} {calls : List SessionCall}

/-- The first of the calls creates no session of the id. -/
theorem NoCreate.head (h : NoCreate id (c :: calls)) : ∀ s, c.op = .create s → s.id ≠ id :=
  h c List.mem_cons_self

/-- Neither do the calls after it. -/
theorem NoCreate.tail (h : NoCreate id (c :: calls)) : NoCreate id calls :=
  fun c' hc' => h c' (List.mem_cons_of_mem _ hc')

/-- Filters by two calls in turn are one by both. -/
theorem filter_removes {α : Type} (x : Option α) (p q : α → Bool) :
    (x.filter fun a => !p a).filter (fun a => !q a) = x.filter fun a => !(p a || q a) := by
  cases x with
  | none => rfl
  | some a => cases hp : p a <;> simp [Option.filter, hp]

/-- A filter that drops nothing. -/
theorem filter_keep {α : Type} (x : Option α) : (x.filter fun _ => !false) = x := by
  cases x with
  | none => rfl
  | some a => rfl

namespace MemoryStore

/-- The entry under an id, without its last activity. -/
def view (map : SessionMap) (id : String) : Option Session := map[id]?.map Session.still

/-- A call keeps the entry unless it removes it. Touches are left out of the view. -/
theorem view_step (hc : ∀ s, c.op = .create s → s.id ≠ id) (map : SessionMap) :
    view (memoryStore.step map c).2 id
      = (view map id).filter fun e => !c.removes .memory id e.isExpired := by
  obtain ⟨m, op⟩ := c
  cases op with
  | create s =>
      show (create m s map).2[id]?.map _ = _
      rw [getElem?_create, if_neg fun h => hc s rfl h.2]
      exact (filter_keep _).symm
  -- A touch writes the entry back with a new activity, which `still` forgets.
  | touch id' =>
      show (touch m id' map).2[id]?.map _ = _
      rw [getElem?_touch]
      refine Eq.trans ?_ (filter_keep _).symm
      unfold view
      split
      · rw [Option.map_map]
        rfl
      · rfl
  | revoke id' =>
      show (revoke m id' map).2[id]?.map _ = _
      rw [getElem?_revoke]
      unfold view SessionCall.removes
      by_cases hid : id' = id
      · cases map[id]? <;> simp [hid, Option.filter]
      · cases map[id]? <;> simp [hid, Option.filter]
  | get id' =>
      show (get m id' map).2[id]?.map _ = _
      unfold get view
      -- Only a read of this id finds its entry, and removes it when it has expired.
      cases hid : map[id']? with
      | none =>
          by_cases heq : id' = id
          · subst heq
            simp [hid]
          · cases map[id]? <;> simp [SessionCall.removes, heq, Option.filter]
      | some e =>
          by_cases heq : id' = id
          · subst heq
            dsimp only
            cases hexp : e.isExpired m.now with
            | true => simp [SessionCall.removes, hid, hexp, Option.filter]
            | false => simp [SessionCall.removes, hid, hexp, Option.filter]
          · dsimp only
            split
            · cases hother : map[id]? <;>
                simp [SessionCall.removes, heq, Option.filter, Std.ExtTreeMap.getElem?_erase,
                  hother]
            · cases map[id]? <;> simp [SessionCall.removes, heq, Option.filter]
  | sweepExpired =>
      show (List.foldl _ _ _)[id]?.map _ = _
      -- The ids that are erased are those of the expired entries.
      rw [getElem?_foldl_erase]
      unfold view
      cases hid : map[id]? with
      | none => simp
      | some e =>
          have hmem : id ∈ (map.toList.filter fun e => e.2.isExpired m.now).map (·.1)
              ↔ e.isExpired m.now = true := by
            simp [Std.ExtTreeMap.mem_toList_iff_getElem?_eq_some, hid]
          cases hexp : e.isExpired m.now with
          | true =>
              rw [if_pos (hmem.mpr hexp)]
              simp [SessionCall.removes, hexp, Option.filter]
          | false =>
              rw [if_neg fun h => by rw [hmem.mp h] at hexp; cases hexp]
              simp [SessionCall.removes, hexp, Option.filter]

/-- The same for calls in a row, by induction on them. -/
theorem view_run (hc : NoCreate id calls) (map : SessionMap) :
    view (memoryStore.run map calls) id
      = (view map id).filter fun e => !calls.any fun c => c.removes .memory id e.isExpired := by
  induction calls generalizing map with
  | nil => exact (filter_keep _).symm
  | cons c calls ih =>
      -- The filter of the first call, then that of the others.
      refine (ih hc.tail (memoryStore.step map c).2).trans ?_
      rw [view_step hc.head, filter_removes]
      rfl

/-- What is under the id of a session that was created. -/
theorem view_created {m : Moment} {s : Session} (hc : NoCreate s.id calls) (map : SessionMap) :
    view (memoryStore.run map (⟨m, .create s⟩ :: calls)) s.id
      = if calls.any fun c => c.removes .memory s.id s.isExpired then none else some s.still := by
  have hcreate : view (memoryStore.step map ⟨m, .create s⟩).2 s.id = some s.still := by
    show (create m s map).2[s.id]?.map _ = _
    rw [getElem?_create, if_pos ⟨rfl, rfl⟩]
    rfl
  refine (view_run hc (memoryStore.step map ⟨m, .create s⟩).2).trans ?_
  rw [hcreate, Option.filter_some, Session.still_isExpired]
  cases calls.any fun c => c.removes .memory s.id s.isExpired <;> rfl

end MemoryStore

namespace PostgresStore

variable {A : SealCrates} {cipher : SessionCipher A}

/-- The row under an id, without its last activity. -/
def rowAt (table : SessionTable) (id : String) : Option SessionRow :=
  table[id]?.map SessionRow.still

/-- The comparison of the query is the test of the memory store, at the precision of the database.
-/
theorem live_eq_not_isExpired (r : SessionRow) (now : DateTime) :
    decide (now.toTimestamptz < r.expiresAt) = !r.isExpired now := by
  unfold SessionRow.isExpired
  rw [← decide_not]
  exact decide_eq_decide.mpr Int.not_le.symm

/-- A call keeps the row unless it removes it. -/
theorem rowAt_step (htext : isText id = true) (hc : ∀ s, c.op = .create s → s.id ≠ id)
    (table : SessionTable) :
    rowAt ((postgresStore cipher).step table c).2 id
      = (rowAt table id).filter fun r => !c.removes .postgres id r.isExpired := by
  obtain ⟨m, op⟩ := c
  cases op with
  | create s =>
      refine Eq.trans ?_ (filter_keep _).symm
      show (create cipher m s table).2[id]?.map _ = _
      have hother : s.id ≠ id := hc s rfl
      -- Of the four ends of `create` three leave the table alone, the last writes another id.
      unfold create
      repeat' split
      all_goals try rfl
      rw [Std.ExtTreeMap.getElem?_insert, if_neg (by simpa using hother)]
      rfl
  | get id' =>
      refine Eq.trans ?_ (filter_keep _).symm
      show (get cipher m id' table).2[id]?.map _ = _
      -- A read of the database changes nothing, expired or not.
      rw [get_snd]
      rfl
  | touch id' =>
      refine Eq.trans ?_ (filter_keep _).symm
      show (touch m id' table).2[id]?.map _ = _
      unfold touch
      split
      · rfl
      · split
        · rfl
        · rename_i r hr
          obtain ⟨hfound, -⟩ := Option.filter_eq_some_iff.mp hr
          unfold rowAt
          rw [Std.ExtTreeMap.getElem?_insert]
          by_cases hid : id' = id
          · subst hid
            simp [hfound, SessionRow.still]
          · rw [if_neg (by simpa using hid)]
  | revoke id' =>
      show (revoke m id' table).2[id]?.map _ = _
      unfold revoke rowAt
      by_cases hid : id' = id
      -- The statement runs, because the id is a text.
      · subst hid
        rw [htext]
        cases table[id']? <;> simp [SessionCall.removes, Option.filter]
      · have hno : ∀ r : SessionRow,
            SessionCall.removes .postgres id r.isExpired ⟨m, .revoke id'⟩ = false :=
          fun r => by simp [SessionCall.removes, hid]
        simp only [hno]
        rw [filter_keep]
        split
        · rfl
        · rw [Std.ExtTreeMap.getElem?_erase, if_neg (by simpa using hid)]
  | sweepExpired =>
      show (table.filter _)[id]?.map _ = _
      rw [Std.ExtTreeMap.getElem?_filter']
      unfold rowAt
      cases table[id]? with
      | none => rfl
      | some r =>
          rw [Option.filter_some, live_eq_not_isExpired]
          cases hexp : r.isExpired m.now <;> simp [SessionCall.removes, hexp, Option.filter]

/-- The same for calls in a row, by induction on them. -/
theorem rowAt_run (htext : isText id = true) (hc : NoCreate id calls) (table : SessionTable) :
    rowAt ((postgresStore cipher).run table calls) id
      = (rowAt table id).filter fun r =>
        !calls.any fun c => c.removes .postgres id r.isExpired := by
  induction calls generalizing table with
  | nil => exact (filter_keep _).symm
  | cons c calls ih =>
      refine (ih hc.tail ((postgresStore cipher).step table c).2).trans ?_
      rw [rowAt_step htext hc.head, filter_removes]
      rfl

/-- What is under the id of a session that was created. -/
theorem rowAt_created {m : Moment} {s : Session} {table : SessionTable}
    (hok : ((postgresStore cipher).step table ⟨m, .create s⟩).1 = true)
    (hc : NoCreate s.id calls) :
    isText s.id = true ∧ ∃ sealed, sealProfile cipher m.nonce s.profile = .ok sealed
      ∧ rowAt ((postgresStore cipher).run table (⟨m, .create s⟩ :: calls)) s.id
        = if calls.any fun c => c.removes .postgres s.id (row s sealed).isExpired then none
          else some (row s sealed).still := by
  have hstep : (create cipher m s table).1.isOk = true := hok
  unfold create at hstep
  split at hstep
  · cases hstep
  · rename_i sealed hsealed
    split at hstep
    · cases hstep
    · rename_i htexts
      split at hstep
      · cases hstep
      · rename_i hfree
        -- A call that succeeded has passed all three tests of `create`.
        simp only [Bool.not_eq_true, Bool.not_eq_false', Bool.and_eq_true] at htexts
        refine ⟨htexts.1.1, sealed, hsealed, ?_⟩
        have hcreate : rowAt ((postgresStore cipher).step table ⟨m, .create s⟩).2 s.id
            = some (row s sealed).still := by
          show (create cipher m s table).2[s.id]?.map _ = _
          unfold create
          rw [hsealed]
          dsimp only
          rw [if_neg (by simp [htexts]), if_neg hfree]
          simp
        refine (rowAt_run htexts.1.1 hc
          ((postgresStore cipher).step table ⟨m, .create s⟩).2).trans ?_
        rw [hcreate, Option.filter_some, SessionRow.still_isExpired]
        cases calls.any fun c => c.removes .postgres s.id (row s sealed).isExpired <;> rfl

end PostgresStore

end Tim
