import Tim.Model.Symbolic

/-!
# `Tim.Proofs.Session`: what a session read returns

Both session stores answer `get` from the history of calls alone. The abstract side is one
optional session per id, `recordStep`: a create that succeeded sets it, a touch moves its
`lastActivity`, a revoke clears it, and reads and sweeps leave it alone. It never looks at an
expiry. What a create sets is a parameter, `kept`: `MemoryStore` keeps the session itself, and a
row of `auth.session` gives back the session with its profile read from JSON (`reread`), or none
if the codec refuses it.

The stores do look at expiries, each at other places. `MemoryStore` removes an expired entry
when it is read and touches it otherwise, `PostgresStore` leaves it for the sweeper and does
not touch it. So the two sides agree only up to expired sessions. `Fades t a b` is that
relation at time `t`: the sessions are the same, or neither of them is live any more.

`ReadsAs` is what a store has to show: an invariant and a view of its state as sessions by
id, such that each call moves the view as `recordStep` does up to `Fades`, and `get` returns
the view when it is live. `memory_readsAs` and `postgres_readsAs` are the two instances.
`fades_recorded` carries the relation over a whole sequence of calls, and `recorded_iff`
reads the abstract side back as a statement about the sequence.

So `get` answers with the created session exactly when the store keeps it as it was
(`get_session_iff`). That is every session in memory, and in the database those whose profile the
codec reads back. `serde_json` reads 95.48681957017631 back as 95.48681957017632, so a profile with
this score is not one of them (`score_read_back_changed`).

* `get_eq_ok_iff`: what `get` answers.
-/

set_option autoImplicit false

namespace Tim

/-! ### The record of a history -/

/-- The session with its last activity at `t`. -/
def Session.touchedAt (s : Session) (t : DateTime) : Session := { s with lastActivity := t }

/-- What a call does to the session on record under `id`. `ok` says whether it succeeded, and
`kept` what the store keeps of a session that it is given. -/
def recordStep (kept : Session → Option Session) (id : String) (rec : Option Session)
    (c : SessionCall) (ok : Bool) : Option Session :=
  match c.op with
  | .create s => if ok ∧ s.id = id then kept s else rec
  | .get _ => rec
  | .touch id' => if id' = id then rec.map (·.touchedAt c.moment.now) else rec
  | .revoke id' => if id' = id then none else rec
  | .sweepExpired => rec

/-- The session on record under `id` after a sequence of calls on a store. -/
def recorded (store : SessionStore) (kept : Session → Option Session) (id : String) :
    store.State → Option Session → List SessionCall → Option Session
  | _, rec, [] => rec
  | st, rec, c :: calls =>
      recorded store kept id (store.step st c).2
        (recordStep kept id rec c (store.step st c).1) calls

/-- The time of the last touch of `id`. -/
def lastTouch (id : String) (calls : List SessionCall) : Option DateTime :=
  (calls.filterMap fun c => match c.op with
    | .touch id' => if id' = id then some c.moment.now else none
    | _ => none).getLast?

/-- The session after the touches of its id in a sequence of calls. -/
def Session.touchedBy (s : Session) (id : String) (calls : List SessionCall) : Session :=
  { s with lastActivity := (lastTouch id calls).getD s.lastActivity }

/-- No call of the sequence creates a session with the id. -/
def NoCreate (id : String) (calls : List SessionCall) : Prop :=
  ∀ c ∈ calls, ∀ s, c.op = .create s → s.id ≠ id

/-- No call of the sequence revokes the id. -/
def NoRevoke (id : String) (calls : List SessionCall) : Prop :=
  ∀ c ∈ calls, c.op ≠ .revoke id

/-- The id that a call creates a session with. -/
def SessionCall.createdId (c : SessionCall) : Option String :=
  match c.op with
  | .create s => some s.id
  | _ => none

section Record
variable {store : SessionStore} {kept : Session → Option Session} {id : String}

/-- A call that creates no session of the id begins no record of it. -/
theorem recordStep_none {c : SessionCall} {ok : Bool}
    (hc : ∀ s, c.op = .create s → ok = true → s.id ≠ id) :
    recordStep kept id none c ok = none := by
  unfold recordStep
  split
  · rename_i s hop
    rw [if_neg]
    rintro ⟨hok, hid⟩
    exact hc s hop hok hid
  · rfl
  · split <;> rfl
  · split <;> rfl
  · rfl

/-- Neither do calls in a row, by induction on them. -/
theorem recorded_none {calls : List SessionCall} (hc : NoCreate id calls) (st : store.State) :
    recorded store kept id st none calls = none := by
  induction calls generalizing st with
  | nil => rfl
  | cons c calls ih =>
      rw [recorded, recordStep_none fun s hs _ => hc c List.mem_cons_self s hs]
      exact ih (fun c' hc' => hc c' (List.mem_cons_of_mem _ hc')) _

/-- The last touch of calls in a row is the last of the later ones, if any, or that of the first. -/
theorem lastTouch_cons (c : SessionCall) (calls : List SessionCall) :
    lastTouch id (c :: calls) = (lastTouch id calls).or (lastTouch id [c]) := by
  have happ : c :: calls = [c] ++ calls := rfl
  unfold lastTouch
  rw [happ, List.filterMap_append, List.getLast?_append]

/-- A session is touched by the first call and then by the later ones. -/
theorem touchedBy_cons (s : Session) (c : SessionCall) (calls : List SessionCall) :
    s.touchedBy id (c :: calls) = (s.touchedBy id [c]).touchedBy id calls := by
  unfold Session.touchedBy
  rw [lastTouch_cons c calls]
  cases lastTouch id calls <;> rfl

/-- A call that neither creates nor revokes the id leaves it on record, touched if it is a
touch of it. -/
theorem recordStep_some {c : SessionCall} {ok : Bool} (s : Session)
    (hc : ∀ s', c.op = .create s' → s'.id ≠ id) (hr : c.op ≠ .revoke id) :
    recordStep kept id (some s) c ok = some (s.touchedBy id [c]) := by
  obtain ⟨m, op⟩ := c
  cases op with
  | create s' =>
      show (if ok ∧ s'.id = id then kept s' else some s) = some s
      rw [if_neg fun h => hc s' rfl h.2]
  | get id' => rfl
  | touch id' =>
      by_cases hid : id' = id
      · simp [recordStep, Session.touchedBy, lastTouch, Session.touchedAt, hid]
      · simp [recordStep, Session.touchedBy, lastTouch, hid]
  | revoke id' =>
      have hne : id' ≠ id := fun h => hr (by rw [h])
      show (if id' = id then none else some s) = some s
      rw [if_neg hne]
  | sweepExpired => rfl

/-- From a session on record, with no further create of its id: it stays on record exactly
as long as it is not revoked. -/
theorem recorded_some {calls : List SessionCall} (hc : NoCreate id calls) (st : store.State)
    (s a : Session) :
    recorded store kept id st (some s) calls = some a
      ↔ NoRevoke id calls ∧ a = s.touchedBy id calls := by
  induction calls generalizing st s with
  | nil =>
      have hnil : s.touchedBy id [] = s := rfl
      simp only [recorded, Option.some.injEq, hnil]
      refine ⟨fun h => ⟨by simp [NoRevoke], h.symm⟩, fun h => h.2.symm⟩
  | cons c calls ih =>
      have hcs : NoCreate id calls := fun c' hc' => hc c' (List.mem_cons_of_mem _ hc')
      have hcc := hc c List.mem_cons_self
      rw [recorded]
      by_cases hr : c.op = .revoke id
      · -- Nothing comes back after a revoke.
        have hnone : recordStep kept id (some s) c (store.step st c).1 = none := by
          unfold recordStep
          rw [hr]
          simp
        rw [hnone, recorded_none hcs]
        simp only [reduceCtorEq, false_iff, not_and]
        intro hno
        exact absurd hr (hno c List.mem_cons_self)
      · rw [recordStep_some s hcc hr, ih hcs, touchedBy_cons s c calls]
        simp only [NoRevoke, List.mem_cons, forall_eq_or_imp, ne_eq, hr, not_false_eq_true,
          true_and]

/-- The calls of the sequence create no id twice. -/
def IdsNeverReused (calls : List SessionCall) : Prop :=
  (calls.filterMap SessionCall.createdId).Nodup

instance (calls : List SessionCall) : Decidable (IdsNeverReused calls) :=
  inferInstanceAs (Decidable (List.Nodup _))

/-- In a history without reused ids, a created id is created by none of the later calls. -/
theorem IdsNeverReused.cons {c : SessionCall} {calls : List SessionCall}
    (h : IdsNeverReused (c :: calls)) :
    IdsNeverReused calls ∧ ∀ s, c.op = .create s → NoCreate s.id calls := by
  unfold IdsNeverReused at h ⊢
  rw [List.filterMap_cons] at h
  split at h
  · rename_i hnone
    refine ⟨h, fun s hs => ?_⟩
    rw [SessionCall.createdId, hs] at hnone
    cases hnone
  · rename_i id' hsome
    obtain ⟨hnot, hnodup⟩ := List.nodup_cons.mp h
    refine ⟨hnodup, fun s hs c' hc' s' hs' heq => hnot ?_⟩
    rw [SessionCall.createdId, hs] at hsome
    cases hsome
    exact List.mem_filterMap.mpr ⟨c', hc', by simp [SessionCall.createdId, hs', heq]⟩

/-- The session on record after a sequence of calls is what the store has kept of one that some
call of it has created, that no later call has revoked, and that the later touches have touched. -/
theorem recorded_iff {calls : List SessionCall} (hids : IdsNeverReused calls)
    (st : store.State) (a : Session) :
    recorded store kept id st none calls = some a
      ↔ ∃ before c after s s', calls = before ++ c :: after ∧ c.op = .create s ∧ s.id = id
        ∧ (store.step (store.run st before) c).1 = true ∧ NoRevoke id after
        ∧ kept s = some s' ∧ a = s'.touchedBy id after := by
  induction calls generalizing st with
  | nil => simp [recorded]
  | cons c calls ih =>
      obtain ⟨hids', hcreate⟩ := hids.cons
      have hrest := ih hids' (store.step st c).2
      rw [recorded]
      by_cases hthis : ∃ s, c.op = .create s ∧ s.id = id ∧ (store.step st c).1 = true
      · -- The first call creates the session. No later call creates the id again.
        obtain ⟨s, hop, hid, hok⟩ := hthis
        have hno : NoCreate id calls := hid ▸ hcreate s hop
        have hrec : recordStep kept id none c (store.step st c).1 = kept s := by
          unfold recordStep
          rw [hop]
          simp [hok, hid]
        rw [hrec]
        constructor
        · intro h
          cases hkept : kept s with
          | none =>
              rw [hkept, recorded_none hno] at h
              cases h
          | some s' =>
              rw [hkept, recorded_some hno] at h
              exact ⟨[], c, calls, s, s', rfl, hop, hid, hok, h.1, hkept, h.2⟩
        · rintro ⟨before, c', after, s₁, s', hsplit, hop', hid', -, hrev, hkept, ha⟩
          cases before with
          | nil =>
              cases hsplit
              rw [hop] at hop'
              cases hop'
              rw [hkept, recorded_some hno]
              exact ⟨hrev, ha⟩
          | cons b before =>
              cases hsplit
              exact absurd hid' (hno c' (by simp) s₁ hop')
      · have hrec : recordStep kept id none c (store.step st c).1 = none :=
          recordStep_none fun s hs hok hid => hthis ⟨s, hs, hid, hok⟩
        rw [hrec, hrest]
        constructor
        · rintro ⟨before, c', after, s, s', rfl, hop, hid, hok, hrest'⟩
          exact ⟨c :: before, c', after, s, s', rfl, hop, hid, hok, hrest'⟩
        · rintro ⟨before, c', after, s, s', hsplit, hop, hid, hok, hrest'⟩
          cases before with
          | nil =>
              cases hsplit
              exact absurd ⟨s, hop, hid, hok⟩ hthis
          | cons b before =>
              cases hsplit
              exact ⟨before, c', after, s, s', rfl, hop, hid, hok, hrest'⟩

end Record

/-! ### Agreement up to expired sessions -/

/-- At time `t` the two sessions are the same, or neither of them is live. -/
def Fades (t : DateTime) (a b : Option Session) : Prop :=
  a = b ∨ (∀ s, a = some s → s.expiresAt ≤ t) ∧ ∀ s, b = some s → s.expiresAt ≤ t

namespace Fades

variable {t t' : DateTime} {a b c : Option Session}

/-- Nothing has faded between a view and itself. -/
theorem refl (t : DateTime) (a : Option Session) : Fades t a a := .inl rfl

/-- Two times of fading in a row. -/
theorem trans (hab : Fades t a b) (hbc : Fades t b c) : Fades t a c := by
  rcases hab with rfl | ⟨ha, hb⟩
  · exact hbc
  · rcases hbc with rfl | ⟨_, hc⟩
    · exact .inr ⟨ha, hb⟩
    · exact .inr ⟨ha, hc⟩

/-- What has expired stays expired. -/
theorem mono (h : Fades t a b) (ht : t ≤ t') : Fades t' a b := by
  rcases h with rfl | ⟨ha, hb⟩
  · exact .inl rfl
  · exact .inr ⟨fun s hs => Int.le_trans (ha s hs) ht, fun s hs => Int.le_trans (hb s hs) ht⟩

/-- A live session on one side is there on the other side. -/
theorem live (h : Fades t a b) {s : Session} (hs : t < s.expiresAt) : a = some s ↔ b = some s := by
  rcases h with rfl | ⟨ha, hb⟩
  · exact Iff.rfl
  · have hn : ¬ s.expiresAt ≤ t := Int.not_le.mpr hs
    exact ⟨fun h => absurd (ha s h) hn, fun h => absurd (hb s h) hn⟩

/-- A session that has expired by then may be gone. -/
theorem of_none (h : ∀ s, a = some s → s.expiresAt ≤ t) : Fades t a none :=
  .inr ⟨h, fun s hs => by cases hs⟩

/-- Both sides take part in a call in the same way. A touch keeps the expiry. -/
theorem recordStep (h : Fades t a b) (kept : Session → Option Session) (id : String)
    (c : SessionCall) (ok : Bool) :
    Fades t (recordStep kept id a c ok) (recordStep kept id b c ok) := by
  have htouch : ∀ (now : DateTime) (x : Option Session),
      (∀ s, x = some s → s.expiresAt ≤ t) →
      ∀ s, x.map (·.touchedAt now) = some s → s.expiresAt ≤ t := by
    intro now x hx s hs
    obtain ⟨s', hs', rfl⟩ := Option.map_eq_some_iff.mp hs
    exact hx s' hs'
  rcases h with rfl | ⟨ha, hb⟩
  · exact .inl rfl
  · unfold Tim.recordStep
    split
    · split
      · exact .inl rfl
      · exact .inr ⟨ha, hb⟩
    · exact .inr ⟨ha, hb⟩
    · split
      · exact .inr ⟨htouch _ a ha, htouch _ b hb⟩
      · exact .inr ⟨ha, hb⟩
    · split
      · exact .inl rfl
      · exact .inr ⟨ha, hb⟩
    · exact .inr ⟨ha, hb⟩

end Fades

/-! ### What a store has to show -/

/-- An instant in whole microseconds, as the database keeps it. -/
def DateTime.IsMicro (t : DateTime) : Prop := t.toTimestamptz = t

instance (t : DateTime) : Decidable t.IsMicro := inferInstanceAs (Decidable (_ = _))

/-- All times of a call are in whole microseconds. -/
structure SessionCall.IsMicro (c : SessionCall) : Prop where
  now : c.moment.now.IsMicro
  session : ∀ s, c.op = .create s →
    s.createdAt.IsMicro ∧ s.lastActivity.IsMicro ∧ s.expiresAt.IsMicro

/-- The store keeps a session per id, up to expired ones, and `get` returns it while it is
live. What it keeps of a created session has the expiry of that session. -/
structure ReadsAs (store : SessionStore) (kept : Session → Option Session)
    (Inv : store.State → Prop) (view : store.State → String → Option Session) : Prop where
  expiresAt_kept : ∀ s s', kept s = some s' → s'.expiresAt = s.expiresAt
  inv_empty : Inv store.empty
  view_empty : ∀ id, view store.empty id = none
  inv_step : ∀ st c, Inv st → Inv (store.step st c).2
  view_step : ∀ st c id, Inv st → c.IsMicro →
    Fades c.moment.now (recordStep kept id (view st id) c (store.step st c).1)
      (view (store.step st c).2 id)
  get_iff : ∀ st m id s, Inv st → m.now.IsMicro →
    ((store.get m id st).1 = .ok (some s) ↔ view st id = some s ∧ m.now < s.expiresAt)

section Run
variable {store : SessionStore} {kept : Session → Option Session} {Inv : store.State → Prop}
  {view : store.State → String → Option Session}

/-- The view after a sequence of calls is the session on record, up to expired ones. -/
theorem fades_recorded (hreads : ReadsAs store kept Inv view) (id : String)
    {calls : List SessionCall} {t : DateTime}
    (hclock : calls.Pairwise fun c c' => c.moment.now ≤ c'.moment.now)
    (hlast : ∀ c ∈ calls, c.moment.now ≤ t) (hmicro : ∀ c ∈ calls, c.IsMicro)
    {st : store.State} {rec : Option Session} (hinv : Inv st)
    (hrec : Fades t rec (view st id))
    (hfirst : ∀ c ∈ calls, Fades c.moment.now rec (view st id)) :
    Inv (store.run st calls) ∧
      Fades t (recorded store kept id st rec calls) (view (store.run st calls) id) := by
  induction calls generalizing st rec with
  | nil => exact ⟨hinv, hrec⟩
  | cons c calls ih =>
      obtain ⟨hle, hclock'⟩ := List.pairwise_cons.mp hclock
      -- The two sides agree at the time of the call, so they agree at every later time.
      have hnow : Fades c.moment.now (recordStep kept id rec c (store.step st c).1)
          (view (store.step st c).2 id) :=
        ((hfirst c List.mem_cons_self).recordStep kept id c _).trans
          (hreads.view_step st c id hinv (hmicro c List.mem_cons_self))
      exact ih hclock' (fun c' hc' => hlast c' (List.mem_cons_of_mem _ hc'))
        (fun c' hc' => hmicro c' (List.mem_cons_of_mem _ hc'))
        (hreads.inv_step st c hinv) (hnow.mono (hlast c List.mem_cons_self))
        (fun c' hc' => hnow.mono (hle c' hc'))

/-- What `get` returns after a sequence of calls, for a store that reads as it should. -/
theorem ReadsAs.get_run (hreads : ReadsAs store kept Inv view) {calls : List SessionCall}
    {m : Moment} (hids : IdsNeverReused calls)
    (hclock : calls.Pairwise fun c c' => c.moment.now ≤ c'.moment.now)
    (hlast : ∀ c ∈ calls, c.moment.now ≤ m.now) (hmicro : ∀ c ∈ calls, c.IsMicro)
    (hm : m.now.IsMicro) (id : String) (s : Session) :
    (store.get m id (store.run store.empty calls)).1 = .ok (some s)
      ↔ ∃ before c after s₀ s', calls = before ++ c :: after ∧ c.op = .create s₀ ∧ s₀.id = id
        ∧ (store.step (store.run store.empty before) c).1 = true ∧ NoRevoke id after
        ∧ m.now < s₀.expiresAt ∧ kept s₀ = some s' ∧ s = s'.touchedBy id after := by
  have hempty : ∀ t, Fades t none (view store.empty id) := fun t => by
    rw [hreads.view_empty id]
    exact Fades.refl t none
  obtain ⟨hinv, hfades⟩ := fades_recorded hreads id hclock hlast hmicro hreads.inv_empty
    (hempty m.now) (fun c _ => hempty c.moment.now)
  rw [hreads.get_iff _ m id s hinv hm]
  constructor
  · rintro ⟨hview, hlive⟩
    obtain ⟨before, c, after, s₀, s', h₁, h₂, h₃, h₄, h₅, hkept, rfl⟩ :=
      (recorded_iff hids store.empty s).mp ((hfades.live hlive).mpr hview)
    have hexp : (s'.touchedBy id after).expiresAt = s₀.expiresAt :=
      hreads.expiresAt_kept s₀ s' hkept
    exact ⟨before, c, after, s₀, s', h₁, h₂, h₃, h₄, h₅, hexp ▸ hlive, hkept, rfl⟩
  · rintro ⟨before, c, after, s₀, s', h₁, h₂, h₃, h₄, h₅, hlive, hkept, rfl⟩
    have hrec := (recorded_iff hids store.empty (s'.touchedBy id after)).mpr
      ⟨before, c, after, s₀, s', h₁, h₂, h₃, h₄, h₅, hkept, rfl⟩
    have hexp : (s'.touchedBy id after).expiresAt = s₀.expiresAt :=
      hreads.expiresAt_kept s₀ s' hkept
    rw [← hexp] at hlive
    exact ⟨(hfades.live hlive).mp hrec, hlive⟩

end Run

/-! ### `MemoryStore` -/

namespace MemoryStore

/-- After ids were erased from a map, none of them is there and the rest is as before. -/
theorem getElem?_foldl_erase (ids : List String) (map : SessionMap) (id : String) :
    (ids.foldl (fun map id => map.erase id) map)[id]? = if id ∈ ids then none else map[id]? := by
  induction ids generalizing map with
  | nil => simp
  | cons k ids ih =>
      rw [List.foldl_cons, ih]
      by_cases hk : k = id
      · simp [hk]
      · simp [Std.ExtTreeMap.getElem?_erase, hk, Ne.symm hk]

/-- A sweep removes what has expired and nothing else. -/
theorem fades_sweepExpired (m : Moment) (map : SessionMap) (id : String) :
    Fades m.now map[id]? (sweepExpired m map).2[id]? := by
  show Fades m.now map[id]? (List.foldl _ _ _)[id]?
  rw [getElem?_foldl_erase]
  split
  · rename_i hmem
    refine Fades.of_none fun s hs => ?_
    obtain ⟨⟨k, s'⟩, he, rfl⟩ := List.mem_map.mp hmem
    obtain ⟨he, hexp⟩ := List.mem_filter.mp he
    rw [Std.ExtTreeMap.mem_toList_iff_getElem?_eq_some] at he
    cases he.symm.trans hs
    exact of_decide_eq_true hexp
  · exact Fades.refl _ _

/-- A read removes the session it finds expired and nothing else. -/
theorem fades_get (m : Moment) (map : SessionMap) (id id' : String) :
    Fades m.now map[id]? (get m id' map).2[id]? := by
  unfold get
  split
  · exact Fades.refl _ _
  · rename_i s hs
    split
    · rename_i hexp
      show Fades m.now map[id]? (map.erase id')[id]?
      rw [Std.ExtTreeMap.getElem?_erase]
      by_cases hid : id' = id
      · subst hid
        rw [if_pos (by simp)]
        refine Fades.of_none fun s' hs' => ?_
        cases hs.symm.trans hs'
        exact of_decide_eq_true hexp
      · rw [if_neg (by simpa using hid)]
        exact Fades.refl _ _
    · exact Fades.refl _ _

/-- A created session is there under its id, over an earlier one. -/
theorem getElem?_create (m : Moment) (map : SessionMap) (id : String) (s : Session) :
    (create m s map).2[id]? = if true ∧ s.id = id then some s else map[id]? := by
  show (map.insert s.id s)[id]? = _
  rw [Std.ExtTreeMap.getElem?_insert]
  simp

/-- A revoked session is gone, and the others stay. -/
theorem getElem?_revoke (m : Moment) (map : SessionMap) (id id' : String) :
    (revoke m id' map).2[id]? = if id' = id then none else map[id]? := by
  show (map.erase id')[id]? = _
  rw [Std.ExtTreeMap.getElem?_erase]
  simp

/-- A touched session has a new activity, and the others stay. -/
theorem getElem?_touch (m : Moment) (map : SessionMap) (id id' : String) :
    (touch m id' map).2[id]?
      = if id' = id then map[id]?.map (·.touchedAt m.now) else map[id]? := by
  unfold touch
  by_cases hid : id' = id
  · subst hid
    split
    · rename_i s hs
      simp [hs, Session.touchedAt]
    · rename_i hs
      simp [hs]
  · split
    · show (map.insert id' _)[id]? = _
      rw [Std.ExtTreeMap.getElem?_insert]
      simp [hid]
    · simp [hid]

/-- `get` returns the entry exactly while it is live. -/
theorem get_ok_iff (m : Moment) (map : SessionMap) (id : String) (s : Session) :
    (get m id map).1 = .ok (some s) ↔ map[id]? = some s ∧ m.now < s.expiresAt := by
  unfold get
  split
  · rename_i hnone
    simp [hnone]
  · rename_i s' hs'
    rw [hs']
    split
    · rename_i hexp
      have hle : s'.expiresAt ≤ m.now := of_decide_eq_true hexp
      simp only [Except.ok.injEq, reduceCtorEq, Option.some.injEq, false_iff, not_and]
      rintro rfl
      exact Int.not_lt.mpr hle
    · rename_i hexp
      have hlt : m.now < s'.expiresAt := Int.not_le.mp fun h => hexp (decide_eq_true h)
      simp only [Except.ok.injEq, Option.some.injEq]
      exact ⟨fun h => ⟨h, h ▸ hlt⟩, fun h => h.1⟩

end MemoryStore

/-- The memory store hands out what it was given. -/
theorem memory_readsAs :
    ReadsAs memoryStore some (fun _ => True) fun (map : SessionMap) id => map[id]? where
  expiresAt_kept s s' h := by
    cases h
    rfl
  inv_empty := trivial
  view_empty id := by
    show (∅ : SessionMap)[id]? = none
    simp
  inv_step _ _ _ := trivial
  view_step map c id _ _ := by
    obtain ⟨m, op⟩ := c
    cases op with
    | create s => exact .inl (MemoryStore.getElem?_create m map id s).symm
    | get id' => exact MemoryStore.fades_get m map id id'
    | touch id' => exact .inl (MemoryStore.getElem?_touch m map id id').symm
    | revoke id' => exact .inl (MemoryStore.getElem?_revoke m map id id').symm
    | sweepExpired => exact MemoryStore.fades_sweepExpired m map id
  get_iff map m id s _ _ := MemoryStore.get_ok_iff m map id s

/-! ### `PostgresStore` -/

namespace PostgresStore

variable {A : SealCrates} (cipher : SessionCipher A)

/-- The session that a row stands for, if its profile opens. -/
def rowSession (r : SessionRow) : Option Session :=
  match openProfile cipher r.profileEncrypted with
  | .error _ => none
  | .ok profile => some {
      id := r.id
      providerId := r.providerId
      userId := r.userId
      createdAt := r.createdAt
      lastActivity := r.lastActivity
      expiresAt := r.expiresAt
      profile }

/-- What the JSON codec makes of a session that a row is written for. -/
def reread (A : SealCrates) (s : Session) : Option Session :=
  match A.toVec s.profile with
  | .error _ => none
  | .ok json =>
      match A.fromSlice json with
      | .error _ => none
      | .ok profile => some { s with profile }

/-- The session under an id. -/
def view (table : SessionTable) (id : String) : Option Session :=
  table[id]?.bind (rowSession cipher)

/-- Every id in the table is a text. -/
def TextIds (table : SessionTable) : Prop := ∀ id r, table[id]? = some r → isText id = true

variable {cipher}

/-- A sealed profile opens to what the codec reads from the JSON that it wrote. -/
theorem openProfile_sealProfile (haead : A.Decrypts) {nonce : Nonce} {profile : ClaimMap}
    {sealed : Bytes} (h : sealProfile cipher nonce profile = .ok sealed) :
    ∃ json, A.toVec profile = .ok json
      ∧ (openProfile cipher sealed).toOption = (A.fromSlice json).toOption := by
  unfold sealProfile at h
  split at h
  · cases h
  · rename_i json hjson
    unfold SessionCipher.seal_ at h
    split at h
    · cases h
    · rename_i ct hct
      cases h
      have hlen : nonce.toList.length = SessionCipher.nonceLen := nonce.length_toList
      have hopen : cipher.open_ (nonce.toList ++ ct) = .ok json := by
        unfold SessionCipher.open_
        rw [if_neg (by rw [List.length_append]; omega), List.take_left' hlen,
          List.drop_left' hlen, haead _ _ _ _ hct]
      refine ⟨json, hjson, ?_⟩
      unfold openProfile
      simp only [hopen]
      cases A.fromSlice json <;> rfl

/-- The codec does not touch when the session expires. -/
theorem reread_expiresAt {s s' : Session} (h : reread A s = some s') :
    s'.expiresAt = s.expiresAt := by
  unfold reread at h
  split at h
  · cases h
  · split at h
    · cases h
    · cases h
      rfl

/-- The codec gives a session back as it is exactly when its profile round-trips. -/
theorem reread_eq_some_self {s : Session} : reread A s = some s ↔ A.RoundTrips s.profile := by
  unfold reread SealCrates.RoundTrips
  cases hto : A.toVec s.profile with
  | error e => simp
  | ok json =>
      cases hfrom : A.fromSlice json with
      | error e => simp [hfrom]
      | ok profile =>
          have hself : ({ s with profile } : Session) = s ↔ profile = s.profile := by
            refine ⟨fun h => congrArg Session.profile h, ?_⟩
            rintro rfl
            rfl
          simp [hfrom, hself]

/-- A row is read as a session that expires when the row does. -/
theorem rowSession_expiresAt {r : SessionRow} {s : Session} (h : rowSession cipher r = some s) :
    s.expiresAt = r.expiresAt := by
  unfold rowSession at h
  split at h
  · cases h
  · cases h
    rfl

/-- The row of a created session stands for the session with its profile read from JSON. -/
theorem rowSession_row (haead : A.Decrypts) {nonce : Nonce} {s : Session} {sealed : Bytes}
    (h : sealProfile cipher nonce s.profile = .ok sealed)
    (hmicro : s.createdAt.IsMicro ∧ s.lastActivity.IsMicro ∧ s.expiresAt.IsMicro) :
    rowSession cipher (row s sealed) = reread A s := by
  obtain ⟨hcreated, hactive, hexpires⟩ := hmicro
  obtain ⟨json, hto, hopen⟩ := openProfile_sealProfile haead h
  unfold DateTime.IsMicro at hcreated hactive hexpires
  unfold rowSession reread
  rw [show (row s sealed).profileEncrypted = sealed from rfl]
  simp only [hto]
  -- Both sides open the same profile, or none.
  cases hp : openProfile cipher sealed with
  | error e =>
      cases hf : A.fromSlice json with
      | error e' => rfl
      | ok profile => simp [hp, hf, Except.toOption] at hopen
  | ok profile' =>
      cases hf : A.fromSlice json with
      | error e' => simp [hp, hf, Except.toOption] at hopen
      | ok profile =>
          rw [hp, hf] at hopen
          cases hopen
          simp only [row, hcreated, hactive, hexpires]

/-- A touched row is read as the touched session. -/
theorem rowSession_touch (r : SessionRow) (t : DateTime) :
    rowSession cipher { r with lastActivity := t }
      = (rowSession cipher r).map (·.touchedAt t) := by
  unfold rowSession
  show (match openProfile cipher r.profileEncrypted with
    | .error _ => _
    | .ok profile => _) = _
  cases openProfile cipher r.profileEncrypted <;> rfl

/-- Only rows past their expiry are missing from a `WHERE expires_at > now()`. -/
theorem expired_of_filter {table : SessionTable} {id : String} {now : DateTime}
    (hnow : now.IsMicro)
    (h : (table[id]?.filter fun r => decide (now.toTimestamptz < r.expiresAt)) = none) :
    ∀ s, view cipher table id = some s → s.expiresAt ≤ now := by
  intro s hs
  obtain ⟨r, hr, hrs⟩ := Option.bind_eq_some_iff.mp hs
  rw [hr, Option.filter_some, hnow] at h
  rw [rowSession_expiresAt hrs]
  split at h
  · cases h
  · rename_i hlt
    exact Int.not_lt.mp fun h => hlt (decide_eq_true h)

/-- A row with a text as its id keeps the table in order. -/
theorem textIds_insert {table : SessionTable} (h : TextIds table) {id : String}
    (hid : isText id = true) (r : SessionRow) : TextIds (table.insert id r) := by
  intro id' r' hr'
  rw [Std.ExtTreeMap.getElem?_insert] at hr'
  split at hr'
  · rename_i heq
    rw [← Std.LawfulEqCmp.eq_of_compare heq]
    exact hid
  · exact h id' r' hr'

/-- Statements that only drop rows leave text ids. -/
theorem TextIds.mono {table table' : SessionTable} (h : TextIds table)
    (hsub : ∀ (id : String) (r : SessionRow), table'[id]? = some r → table[id]? = some r) :
    TextIds table' :=
  fun id r hr => h id r (hsub id r hr)

/-- An insert is refused where the id is no text. -/
theorem textIds_create (m : Moment) (s : Session) {table : SessionTable}
    (h : TextIds table) : TextIds (create cipher m s table).2 := by
  unfold create
  split
  · exact h
  · split
    · exact h
    · rename_i hnot
      split
      · exact h
      · refine textIds_insert h ?_ _
        simp only [Bool.not_eq_true', Bool.not_eq_false, Bool.and_eq_true] at hnot
        exact hnot.1.1

/-- A read changes nothing. -/
theorem get_snd (m : Moment) (id : String) (table : SessionTable) :
    (get cipher m id table).2 = table := by
  unfold get
  split
  · rfl
  · split
    · rfl
    · split <;> rfl

/-- A touch brings no new id. -/
theorem textIds_touch (m : Moment) (id : String) {table : SessionTable} (h : TextIds table) :
    TextIds (touch m id table).2 := by
  unfold touch
  split
  · exact h
  · rename_i hid
    split
    · exact h
    · exact textIds_insert h (by simpa using hid) _

/-- Neither does a revocation. -/
theorem textIds_revoke (m : Moment) (id : String) {table : SessionTable} (h : TextIds table) :
    TextIds (revoke m id table).2 := by
  unfold revoke
  split
  · exact h
  · refine TextIds.mono h fun id' r hr => ?_
    rw [Std.ExtTreeMap.getElem?_erase] at hr
    split at hr
    · cases hr
    · exact hr

/-- Neither does the sweeper. -/
theorem textIds_sweepExpired (m : Moment) {table : SessionTable} (h : TextIds table) :
    TextIds (sweepExpired m table).2 := by
  refine TextIds.mono h fun id r hr => ?_
  have hr' : (table.filter _)[id]? = some r := hr
  rw [Std.ExtTreeMap.getElem?_filter'] at hr'
  exact (Option.filter_eq_some_iff.mp hr').1

/-- After an insert, the id is seen as the new row, and the others as before. -/
theorem view_insert (table : SessionTable) (id id' : String) (r : SessionRow) :
    view cipher (table.insert id' r) id
      = if id' = id then rowSession cipher r else view cipher table id := by
  unfold view
  rw [Std.ExtTreeMap.getElem?_insert]
  by_cases hid : id' = id <;> simp [hid]

/-- A create that succeeds sets the session under its id, as the codec gives it back, and one that
fails changes nothing. -/
theorem view_create (haead : A.Decrypts) (m : Moment) (s : Session) (table : SessionTable)
    (hmicro : s.createdAt.IsMicro ∧ s.lastActivity.IsMicro ∧ s.expiresAt.IsMicro) (id : String) :
    view cipher (create cipher m s table).2 id
      = if (create cipher m s table).1.isOk = true ∧ s.id = id then reread A s
        else view cipher table id := by
  unfold create
  split
  · simp [Except.isOk, Except.toBool]
  · rename_i sealed hsealed
    split
    · simp [Except.isOk, Except.toBool]
    · split
      · simp [Except.isOk, Except.toBool]
      · rw [view_insert, rowSession_row haead hsealed hmicro]
        simp [Except.isOk, Except.toBool]

/-- A touch moves the activity of a live session. It leaves an expired one. -/
theorem fades_touch (m : Moment) (hm : m.now.IsMicro) (table : SessionTable)
    (htext : TextIds table) (id id' : String) :
    Fades m.now
      (if id' = id then (view cipher table id).map (·.touchedAt m.now) else view cipher table id)
      (view cipher (touch m id' table).2 id) := by
  unfold touch
  by_cases hid : id' = id
  · subst hid
    rw [if_pos rfl]
    split
    · -- No session can be under an id that is no text.
      rename_i hnot
      have hnone : table[id']? = none := by
        cases hr : table[id']? with
        | none => rfl
        | some r => simp [htext id' r hr] at hnot
      refine .inl ?_
      show (view cipher table id').map _ = view cipher table id'
      simp [view, hnone]
    · split
      · rename_i hfilter
        have hexp : ∀ s, view cipher table id' = some s → s.expiresAt ≤ m.now :=
          expired_of_filter hm hfilter
        refine .inr ⟨fun s hs => ?_, hexp⟩
        obtain ⟨s', hs', rfl⟩ := Option.map_eq_some_iff.mp hs
        exact hexp s' hs'
      · rename_i r hfilter
        obtain ⟨hr, -⟩ := Option.filter_eq_some_iff.mp hfilter
        refine .inl ?_
        have hnow : m.now.toTimestamptz = m.now := hm
        rw [view_insert, if_pos rfl, rowSession_touch, hnow]
        simp [view, hr]
  · rw [if_neg hid]
    split
    · exact Fades.refl _ _
    · split
      · exact Fades.refl _ _
      · rw [view_insert, if_neg hid]
        exact Fades.refl _ _

/-- A revoked row is gone, and the others stay. -/
theorem view_revoke (m : Moment) (table : SessionTable) (htext : TextIds table)
    (id id' : String) :
    view cipher (revoke m id' table).2 id = if id' = id then none else view cipher table id := by
  unfold revoke
  split
  · rename_i hnot
    split
    · rename_i hid
      subst hid
      cases hr : table[id']? with
      | none => simp [view, hr]
      | some r => simp [htext id' r hr] at hnot
    · rfl
  · unfold view
    rw [Std.ExtTreeMap.getElem?_erase]
    by_cases hid : id' = id <;> simp [hid]

/-- A sweep deletes what has expired and nothing else. -/
theorem fades_sweepExpired (m : Moment) (hm : m.now.IsMicro) (table : SessionTable)
    (id : String) :
    Fades m.now (view cipher table id) (view cipher (sweepExpired m table).2 id) := by
  have hget : (sweepExpired m table).2[id]?
      = table[id]?.filter fun r => decide (m.now.toTimestamptz < r.expiresAt) := by
    show (table.filter _)[id]? = _
    rw [Std.ExtTreeMap.getElem?_filter']
  cases hfilter : table[id]?.filter fun r => decide (m.now.toTimestamptz < r.expiresAt) with
  | none =>
      have hnone : view cipher (sweepExpired m table).2 id = none := by
        unfold view
        rw [hget, hfilter]
        rfl
      rw [hnone]
      exact Fades.of_none (expired_of_filter hm hfilter)
  | some r =>
      obtain ⟨hr, -⟩ := Option.filter_eq_some_iff.mp hfilter
      refine .inl ?_
      unfold view
      rw [hget, hfilter, hr]

/-- `get` returns the session of the row exactly while it is live. -/
theorem get_ok_iff (m : Moment) (hm : m.now.IsMicro) (table : SessionTable)
    (htext : TextIds table) (id : String) (s : Session) :
    (get cipher m id table).1 = .ok (some s)
      ↔ view cipher table id = some s ∧ m.now < s.expiresAt := by
  unfold get
  split
  · rename_i hnot
    simp only [reduceCtorEq, false_iff, not_and]
    intro hs
    obtain ⟨r, hr, -⟩ := Option.bind_eq_some_iff.mp hs
    simp [htext id r hr] at hnot
  · split
    · rename_i hfilter
      simp only [Except.ok.injEq, reduceCtorEq, false_iff, not_and]
      intro hs
      exact Int.not_lt.mpr (expired_of_filter hm hfilter s hs)
    · rename_i r hfilter
      obtain ⟨hr, hlive⟩ := Option.filter_eq_some_iff.mp hfilter
      have hlt : m.now.toTimestamptz < r.expiresAt := of_decide_eq_true hlive
      rw [show m.now.toTimestamptz = m.now from hm] at hlt
      unfold view
      rw [hr, Option.bind_some]
      unfold rowSession
      split
      · rename_i e hopen
        simp [hopen]
      · rename_i profile hopen
        simp only [Except.ok.injEq, Option.some.injEq, hopen]
        refine ⟨fun h => ⟨h, ?_⟩, fun h => h.1⟩
        rw [← h]
        exact hlt

end PostgresStore

/-- The table hands out what the codec makes of what it was given. -/
theorem postgres_readsAs {A : SealCrates} (haead : A.Decrypts) (cipher : SessionCipher A) :
    ReadsAs (postgresStore cipher) (PostgresStore.reread A) PostgresStore.TextIds
      (PostgresStore.view cipher) where
  expiresAt_kept _ _ h := PostgresStore.reread_expiresAt h
  inv_empty id r hr := by
    have hempty : (∅ : SessionTable)[id]? = none := by simp
    exact absurd (hempty.symm.trans hr) (by simp)
  view_empty id := by
    show (∅ : SessionTable)[id]?.bind _ = none
    simp
  inv_step table c htext := by
    obtain ⟨m, op⟩ := c
    cases op with
    | create s => exact PostgresStore.textIds_create m s htext
    | get id => exact (PostgresStore.get_snd m id table).symm ▸ htext
    | touch id => exact PostgresStore.textIds_touch m id htext
    | revoke id => exact PostgresStore.textIds_revoke m id htext
    | sweepExpired => exact PostgresStore.textIds_sweepExpired m htext
  view_step table c id htext hmicro := by
    obtain ⟨m, op⟩ := c
    cases op with
    | create s =>
        exact .inl (PostgresStore.view_create haead m s table (hmicro.session s rfl) id).symm
    | get id' =>
        exact .inl (congrArg (PostgresStore.view cipher · id)
          (PostgresStore.get_snd m id' table).symm)
    | touch id' => exact PostgresStore.fades_touch m hmicro.now table htext id id'
    | revoke id' => exact .inl (PostgresStore.view_revoke m table htext id id').symm
    | sweepExpired => exact PostgresStore.fades_sweepExpired m hmicro.now table id
  get_iff table m id s htext hm := PostgresStore.get_ok_iff m hm table htext id s

/-! ### Both stores -/

/-- A sequence of calls under one clock that never goes back, followed by a read at `m`: no
id is created twice, and all times are in whole microseconds. -/
structure SessionHistory (calls : List SessionCall) (m : Moment) : Prop where
  ids : IdsNeverReused calls
  clock : calls.Pairwise fun c c' => c.moment.now ≤ c'.moment.now
  last : ∀ c ∈ calls, c.moment.now ≤ m.now
  micro : ∀ c ∈ calls, c.IsMicro
  now_micro : m.now.IsMicro

/-- Whether the store can take the session of a create. `MemoryStore` takes any. A row of
`auth.session` needs a profile that seals and texts. -/
def SessionBackend.accepts {A : SealCrates} (cipher : SessionCipher A) (nonce : Nonce)
    (s : Session) : SessionBackend → Bool
  | .memory => true
  | .postgres => (PostgresStore.sealProfile cipher nonce s.profile).isOk
      && (isText s.id && isText s.providerId && isText s.userId)

namespace PostgresStore

variable {A : SealCrates} {cipher : SessionCipher A}

/-- No row is under the id. -/
def Absent (id : String) (table : SessionTable) : Prop := table[id]? = none

/-- A call puts a row under an id only if it creates that id. -/
theorem absent_step {id : String} {table : SessionTable} (h : Absent id table) {c : SessionCall}
    (hc : ∀ s, c.op = .create s → s.id ≠ id) :
    Absent id ((postgresStore cipher).step table c).2 := by
  -- `create` and `touch` insert, the second only where a row was.
  have hinsert : ∀ (id' : String) (r : SessionRow), id' ≠ id → Absent id (table.insert id' r) := by
    intro id' r hid
    unfold Absent
    rw [Std.ExtTreeMap.getElem?_insert, if_neg (by simpa using hid)]
    exact h
  obtain ⟨m, op⟩ := c
  cases op with
  | create s =>
      show Absent id (create cipher m s table).2
      unfold create
      split
      · exact h
      · split
        · exact h
        · split
          · exact h
          · exact hinsert s.id _ (hc s rfl)
  | get id' =>
      show Absent id (get cipher m id' table).2
      rw [get_snd]
      exact h
  | touch id' =>
      show Absent id (touch m id' table).2
      unfold touch
      split
      · exact h
      · split
        · exact h
        · rename_i r hfilter
          obtain ⟨hr, -⟩ := Option.filter_eq_some_iff.mp hfilter
          refine hinsert id' _ ?_
          rintro rfl
          cases h.symm.trans hr
  | revoke id' =>
      show Absent id (revoke m id' table).2
      unfold revoke
      split
      · exact h
      · unfold Absent
        rw [Std.ExtTreeMap.getElem?_erase, h]
        split <;> rfl
  | sweepExpired =>
      show (table.filter _)[id]? = none
      rw [Std.ExtTreeMap.getElem?_filter', h]
      rfl

/-- An id that was never there is not there after calls that do not create it. -/
theorem absent_run {id : String} {calls : List SessionCall} (hc : NoCreate id calls)
    {table : SessionTable} (h : Absent id table) :
    Absent id ((postgresStore cipher).run table calls) := by
  induction calls generalizing table with
  | nil => exact h
  | cons c calls ih =>
      exact ih (fun c' hc' => hc c' (List.mem_cons_of_mem _ hc'))
        (absent_step h (hc c List.mem_cons_self))

/-- A create of an id that is free succeeds exactly when the row can be written. -/
theorem create_isOk {m : Moment} {s : Session} {table : SessionTable}
    (h : Absent s.id table) :
    (create cipher m s table).1.isOk = SessionBackend.postgres.accepts cipher m.nonce s := by
  have hfree : (table[s.id]?).isSome = false := by
    rw [show table[s.id]? = none from h]
    rfl
  unfold create SessionBackend.accepts
  split
  · rename_i e he
    rw [he]
    rfl
  · rename_i sealed hsealed
    rw [hsealed, hfree]
    cases isText s.id && isText s.providerId && isText s.userId <;> rfl

end PostgresStore

/-- With ids that are never reused, a create succeeds exactly when the store can take its
session. -/
theorem create_succeeds_iff {A : SealCrates} (cipher : SessionCipher A)
    (backend : SessionBackend) {before after : List SessionCall} {c : SessionCall} {s : Session}
    (hids : IdsNeverReused (before ++ c :: after)) (hop : c.op = .create s) :
    ((backend.store cipher).step
        ((backend.store cipher).run (backend.store cipher).empty before) c).1
      = backend.accepts cipher c.moment.nonce s := by
  obtain ⟨m, op⟩ := c
  cases hop
  cases backend with
  | memory => rfl
  | postgres =>
      have hno : NoCreate s.id before := by
        intro c' hc' s' hs' heq
        unfold IdsNeverReused at hids
        rw [List.filterMap_append, List.nodup_append] at hids
        refine hids.2.2 s.id (List.mem_filterMap.mpr ⟨c', hc', ?_⟩) s.id
          (List.mem_filterMap.mpr ⟨⟨m, .create s⟩, List.mem_cons_self, rfl⟩) rfl
        simp [SessionCall.createdId, hs', heq]
      have hempty : PostgresStore.Absent s.id (∅ : SessionTable) := by
        simp [PostgresStore.Absent]
      exact PostgresStore.create_isOk (PostgresStore.absent_run hno hempty)

/-- What the store keeps of a session. -/
def SessionBackend.kept (A : SealCrates) : SessionBackend → Session → Option Session
  | .memory => some
  | .postgres => PostgresStore.reread A

/-- The store gives a profile back as it was. `MemoryStore` has the map itself, a row of
`auth.session` its JSON text. -/
def SessionBackend.ReadsBack (A : SealCrates) (profile : ClaimMap) : SessionBackend → Prop
  | .memory => True
  | .postgres => A.RoundTrips profile

/-- A store keeps a session as it is exactly when its profile is read back. -/
theorem SessionBackend.kept_eq_some_self {A : SealCrates} (backend : SessionBackend)
    {s : Session} : backend.kept A s = some s ↔ backend.ReadsBack A s.profile := by
  cases backend with
  | memory => simp [SessionBackend.kept, SessionBackend.ReadsBack]
  | postgres => exact PostgresStore.reread_eq_some_self

/-- A create whose session a read at `m` is to find: the store has taken it under the id, no later
call has revoked the id, and it has not expired. `after` are the later calls. -/
structure LiveCreate {A : SealCrates} (cipher : SessionCipher A) (backend : SessionBackend)
    (calls : List SessionCall) (m : Moment) (id : String) (s₀ : Session)
    (after : List SessionCall) : Prop where
  created : ∃ before c, calls = before ++ c :: after ∧ c.op = .create s₀
    ∧ backend.accepts cipher c.moment.nonce s₀ = true
  id_eq : s₀.id = id
  unrevoked : NoRevoke id after
  unexpired : m.now < s₀.expiresAt

/-- After the calls, `get` of the id at `m` returns a session exactly when some create of it is
live. It returns the session of that create with its activity at the last touch since. -/
def ReadsCreated {A : SealCrates} (cipher : SessionCipher A) (backend : SessionBackend)
    (calls : List SessionCall) (m : Moment) (id : String) : Prop :=
  ∀ s, ((backend.store cipher).get m id
      ((backend.store cipher).run (backend.store cipher).empty calls)).1 = .ok (some s)
    ↔ ∃ s₀ after, LiveCreate cipher backend calls m id s₀ after ∧ s = s₀.touchedBy id after

section Both

variable {A : SealCrates} {cipher : SessionCipher A} {backend : SessionBackend}
  {calls after after' : List SessionCall} {m : Moment} {id : String} {s₀ s₁ : Session}

/-- What `get` returns is what the store has kept of a live create. -/
theorem get_eq_ok_iff (haead : A.Decrypts) (hist : SessionHistory calls m) (s : Session) :
    ((backend.store cipher).get m id
        ((backend.store cipher).run (backend.store cipher).empty calls)).1 = .ok (some s)
      ↔ ∃ s₀ after s', LiveCreate cipher backend calls m id s₀ after
        ∧ backend.kept A s₀ = some s' ∧ s = s'.touchedBy id after := by
  have hget : ((backend.store cipher).get m id
        ((backend.store cipher).run (backend.store cipher).empty calls)).1 = .ok (some s)
      ↔ ∃ before c after s₀ s', calls = before ++ c :: after ∧ c.op = .create s₀ ∧ s₀.id = id
        ∧ ((backend.store cipher).step
            ((backend.store cipher).run (backend.store cipher).empty before) c).1 = true
        ∧ NoRevoke id after ∧ m.now < s₀.expiresAt ∧ backend.kept A s₀ = some s'
        ∧ s = s'.touchedBy id after := by
    cases backend with
    | memory =>
        exact memory_readsAs.get_run hist.ids hist.clock hist.last hist.micro hist.now_micro id s
    | postgres =>
        exact (postgres_readsAs haead cipher).get_run hist.ids hist.clock hist.last hist.micro
          hist.now_micro id s
  rw [hget]
  constructor
  · rintro ⟨before, c, after, s₀, s', rfl, hop, hid, hok, hrev, hlive, hkept, hs⟩
    rw [create_succeeds_iff cipher backend hist.ids hop] at hok
    exact ⟨s₀, after, s', ⟨⟨before, c, rfl, hop, hok⟩, hid, hrev, hlive⟩, hkept, hs⟩
  · rintro ⟨s₀, after, s', ⟨⟨before, c, rfl, hop, hok⟩, hid, hrev, hlive⟩, hkept, hs⟩
    rw [← create_succeeds_iff cipher backend hist.ids hop] at hok
    exact ⟨before, c, after, s₀, s', rfl, hop, hid, hok, hrev, hlive, hkept, hs⟩

/-- A sequence that creates an id once cuts at one place only. -/
theorem create_unique {before before' : List SessionCall} {c c' : SessionCall}
    (hids : IdsNeverReused (before ++ c :: after))
    (hcut : before ++ c :: after = before' ++ c' :: after') (hop : c.op = .create s₀)
    (hop' : c'.op = .create s₁) (hid : s₀.id = s₁.id) : s₀ = s₁ ∧ after = after' := by
  induction before generalizing before' with
  | nil =>
      cases before' with
      | nil =>
          cases hcut
          rw [hop] at hop'
          cases hop'
          exact ⟨rfl, rfl⟩
      | cons b before' =>
          cases hcut
          exact absurd hid.symm (hids.cons.2 s₀ hop c' (by simp) s₁ hop')
  | cons b before ih =>
      cases before' with
      | nil =>
          cases hcut
          exact absurd hid (hids.cons.2 s₁ hop' c (by simp) s₀ hop)
      | cons b' before' =>
          obtain ⟨rfl, hrest⟩ := List.cons.inj hcut
          exact ih hids.cons.1 hrest

/-- There is one live create of an id at most. -/
theorem LiveCreate.unique (hist : SessionHistory calls m)
    (h : LiveCreate cipher backend calls m id s₀ after)
    (h' : LiveCreate cipher backend calls m id s₁ after') : s₀ = s₁ ∧ after = after' := by
  obtain ⟨before, c, rfl, hop, -⟩ := h.created
  obtain ⟨before', c', hcut, hop', -⟩ := h'.created
  exact create_unique hist.ids hcut hop hop' (h.id_eq.trans h'.id_eq.symm)

/-- Touches leave the profile and everything else but the last activity alone. -/
theorem touchedBy_inj (h : s₀.touchedBy id after = s₁.touchedBy id after)
    (hactive : s₀.lastActivity = s₁.lastActivity) : s₀ = s₁ := by
  obtain ⟨_, _, _, _, _, _, _⟩ := s₀
  obtain ⟨_, _, _, _, _, _, _⟩ := s₁
  simp only [Session.touchedBy, Session.mk.injEq] at h ⊢
  exact ⟨h.1, h.2.1, h.2.2.1, h.2.2.2.1, hactive, h.2.2.2.2.2⟩

/-- What a store keeps has the same last activity. -/
theorem SessionBackend.kept_lastActivity (h : backend.kept A s₀ = some s₁) :
    s₁.lastActivity = s₀.lastActivity := by
  cases backend with
  | memory =>
      cases h
      rfl
  | postgres =>
      simp only [SessionBackend.kept, PostgresStore.reread] at h
      split at h
      · cases h
      · split at h
        · cases h
        · cases h
          rfl

/-- A store that keeps the sessions of all live creates reads as it should. -/
theorem readsCreated_of_readsBack (haead : A.Decrypts) (hist : SessionHistory calls m)
    (h : ∀ s₀ after, LiveCreate cipher backend calls m id s₀ after →
      backend.ReadsBack A s₀.profile) :
    ReadsCreated cipher backend calls m id := by
  intro s
  rw [get_eq_ok_iff haead hist]
  constructor
  · rintro ⟨s₀, after, s', hlive, hkept, hs⟩
    rw [backend.kept_eq_some_self.mpr (h s₀ after hlive)] at hkept
    cases hkept
    exact ⟨s₀, after, hlive, hs⟩
  · rintro ⟨s₀, after, hlive, hs⟩
    exact ⟨s₀, after, s₀, hlive, backend.kept_eq_some_self.mpr (h s₀ after hlive), hs⟩

/-- A store that reads as it should has kept the session of a live create. -/
theorem readsBack_of_readsCreated (haead : A.Decrypts) (hist : SessionHistory calls m)
    (h : ReadsCreated cipher backend calls m id)
    (hlive : LiveCreate cipher backend calls m id s₀ after) :
    backend.ReadsBack A s₀.profile := by
  have hread := (h (s₀.touchedBy id after)).mpr ⟨s₀, after, hlive, rfl⟩
  obtain ⟨s₁, after', s', hlive', hkept, hs⟩ := (get_eq_ok_iff haead hist _).mp hread
  obtain ⟨rfl, rfl⟩ := hlive.unique hist hlive'
  -- What was kept differs from the session in nothing: not in its activity, nor elsewhere.
  have hsame := touchedBy_inj hs (SessionBackend.kept_lastActivity hkept).symm
  rw [← hsame] at hkept
  exact backend.kept_eq_some_self.mp hkept

end Both

/-- After any sequence of calls, `get` of an id returns the created session exactly when the store
gives the profile of its live create back as it was. `MemoryStore` always does, `PostgresStore` when
`serde_json` reads the profile from its own text. -/
theorem get_session_iff {A : SealCrates} (haead : A.Decrypts) (cipher : SessionCipher A)
    (backend : SessionBackend) {calls : List SessionCall} {m : Moment}
    (hist : SessionHistory calls m) (id : String) :
    ReadsCreated cipher backend calls m id
      ↔ ∀ s₀ after, LiveCreate cipher backend calls m id s₀ after →
        backend.ReadsBack A s₀.profile :=
  ⟨fun h _ _ hlive => readsBack_of_readsCreated haead hist h hlive,
    readsCreated_of_readsBack haead hist⟩

namespace Symbolic

/-- A call at a whole second, with a fixed nonce. -/
def moment (now : DateTime) : Moment := ⟨now, Vector.replicate 12 0⟩

/-- A session that lasts a minute, with a profile. -/
def sessionOf (profile : ClaimMap) : Session where
  id := "s1"
  providerId := "tara"
  userId := "u"
  createdAt := instant 0
  lastActivity := instant 0
  expiresAt := instant 60
  profile := profile

/-- The session without a profile. -/
def session : Session := sessionOf ∅

/-- A session is created and touched while another id is revoked and the sweeper runs. -/
def sessionCalls (s : Session) : List SessionCall :=
  [⟨moment (instant 0), .create s⟩, ⟨moment (instant 10), .touch "s1"⟩,
   ⟨moment (instant 20), .revoke "s2"⟩, ⟨moment (instant 30), .sweepExpired⟩]

/-- The session cipher of a key of 32 bytes. -/
def cipher : SessionCipher sealing := ⟨List.replicate 32 0xaa⟩

/-- The sample calls are a history. -/
theorem sessionCalls_history (profile : ClaimMap) :
    SessionHistory (sessionCalls (sessionOf profile)) (moment (instant 40)) where
  ids := (by decide : ["s1"].Nodup)
  clock := List.pairwise_map.mp
    (by decide : [instant 0, instant 10, instant 20, instant 30].Pairwise (· ≤ ·))
  last := by
    intro c hc
    simp only [sessionCalls, List.mem_cons, List.not_mem_nil, or_false] at hc
    rcases hc with rfl | rfl | rfl | rfl
    · exact (by decide : instant 0 ≤ instant 40)
    · exact (by decide : instant 10 ≤ instant 40)
    · exact (by decide : instant 20 ≤ instant 40)
    · exact (by decide : instant 30 ≤ instant 40)
  micro := by
    intro c hc
    simp only [sessionCalls, List.mem_cons, List.not_mem_nil, or_false] at hc
    rcases hc with rfl | rfl | rfl | rfl
    · refine ⟨(by decide : (instant 0).IsMicro), fun s hs => ?_⟩
      cases hs
      exact ⟨(by decide : (instant 0).IsMicro), (by decide : (instant 0).IsMicro),
        (by decide : (instant 60).IsMicro)⟩
    · exact ⟨by decide, fun s hs => by cases hs⟩
    · exact ⟨by decide, fun s hs => by cases hs⟩
    · exact ⟨by decide, fun s hs => by cases hs⟩
  now_micro := by decide

/-- The only create of the sequence. -/
theorem sessionCalls_create {backend : SessionBackend} {s s₀ : Session} {m : Moment}
    {after : List SessionCall} (h : LiveCreate cipher backend (sessionCalls s) m "s1" s₀ after) :
    s₀ = s := by
  obtain ⟨before, c, hcut, hop, -⟩ := h.created
  have hmem : c ∈ sessionCalls s := by
    rw [hcut]
    simp
  simp only [sessionCalls, List.mem_cons, List.not_mem_nil, or_false] at hmem
  rcases hmem with rfl | rfl | rfl | rfl
  · cases hop
    rfl
  · cases hop
  · cases hop
  · cases hop

end Symbolic

open Symbolic in
/-- The e-mail address of a profile is read back from both stores. -/
theorem get_session_sample :
    ReadsCreated cipher .memory (sessionCalls (sessionOf emailProfile)) (moment (instant 40)) "s1"
      ∧ ReadsCreated cipher .postgres (sessionCalls (sessionOf emailProfile))
        (moment (instant 40)) "s1" := by
  refine ⟨(get_session_iff sealing_decrypts cipher .memory (sessionCalls_history _) "s1").mpr
      fun _ _ _ => trivial,
    (get_session_iff sealing_decrypts cipher .postgres (sessionCalls_history _) "s1").mpr
      fun s₀ after hlive => ?_⟩
  rw [sessionCalls_create hlive]
  exact email_roundTrips

open Symbolic in
/-- The score 95.48681957017631 is another one when the session is read from the database. In
memory it is the same. -/
theorem score_read_back_changed :
    sealing.Decrypts
      ∧ SessionHistory (sessionCalls (sessionOf (scoreProfile 4636419704515542385)))
        (moment (instant 40))
      ∧ ReadsCreated cipher .memory (sessionCalls (sessionOf (scoreProfile 4636419704515542385)))
        (moment (instant 40)) "s1"
      ∧ ¬ ReadsCreated cipher .postgres
        (sessionCalls (sessionOf (scoreProfile 4636419704515542385))) (moment (instant 40))
        "s1" := by
  have hist := sessionCalls_history (scoreProfile 4636419704515542385)
  refine ⟨sealing_decrypts, hist,
    readsCreated_of_readsBack sealing_decrypts hist fun _ _ _ => trivial, fun h => ?_⟩
  have hlive : LiveCreate cipher .postgres
      (sessionCalls (sessionOf (scoreProfile 4636419704515542385))) (moment (instant 40)) "s1"
      (sessionOf (scoreProfile 4636419704515542385))
      [⟨moment (instant 10), .touch "s1"⟩, ⟨moment (instant 20), .revoke "s2"⟩,
        ⟨moment (instant 30), .sweepExpired⟩] :=
    ⟨⟨[], _, rfl, rfl, by decide +kernel⟩, rfl, by simp [NoRevoke],
      (by decide : instant 40 < instant 60)⟩
  obtain ⟨json, hto, hfrom⟩ := readsBack_of_readsCreated sealing_decrypts hist h hlive
  cases hto
  -- The text is read as the next float.
  have hread : scoreProfile 4636419704515542386 = scoreProfile 4636419704515542385 :=
    Except.ok.inj hfrom
  have hscore := congrArg (fun p : ClaimMap => p["score"]?) hread
  simp [scoreProfile] at hscore

end Tim
