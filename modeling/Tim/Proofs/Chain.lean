import Tim.Lib.Parent
import Tim.Proofs.Issued

/-!
# `Tim.Proofs.Chain`: extension chains in the metadata

Every row of `jwt_metadata` was written by a `generate` or by an `extend`, and the calls of
its task say everything about it. `RowOrigin` is this fact. The columns `supersedes` and
`original_jwt_uuid` are then read off the calls.

A parent is committed before its child is inserted. So parents come earlier in the table,
which is the rank that makes following `supersedes` end (`Tim.Lib.Parent`).

* `row_origin`: every row with the calls that have written it.
* `RowOrigin.unique`: the calls of a task determine its row.
* `ordered`: every row comes after its parent, in every run.
* `chains_well_formed`: the parent of a row, its columns, its denylist row, and that the chain ends.
-/

set_option autoImplicit false

namespace Tim

open Tim.Lib Tim.Lib.Prog

variable {K : Crates}

/-! ### Where a row comes from -/

/-- The calls that wrote a row: a whole `generate`, or an `extend` up to its commit. -/
inductive RowOrigin (svc : JwtService K) (events : List (Event (jwtSig K))) (tid : Nat) :
    Request K → MetadataRow → Prop
  | generate (req : GenerateRequest) (g : JwtService.Generated K) (now : DateTime)
      (hvalid : g.Valid svc req) (hevents : g.events svc req <+: events) :
      RowOrigin svc events tid (.generate req) ((g.row svc req).stored now tid)
  | extend (req : ExtendRequest K) (x : JwtService.Extended K) (now : DateTime)
      (hvalid : x.Valid svc req) (hevents : x.events svc <+: events) :
      RowOrigin svc events tid (.extend req) ((x.row svc).stored now tid)

section Origin

variable {svc : JwtService K}
  {P : JwtPool svc → Label (jwtMachine svc.signer) (Request K) → Prop} {s₀ : Store}
  {c : JwtPool svc} {tid : Nat}

/-- A row inserted on the pool is the row of a `generate`. -/
theorem origin_of_pool (h : JwtReach svc P s₀ c) {r : MetadataRow}
    (hins : InsertedBy c.history tid .pool r) :
    ∃ t, c.tasks[tid]? = some t ∧ RowOrigin svc (eventsOf c.history tid) tid t.req r := by
  obtain ⟨row, now, rfl, hmem⟩ := hins
  obtain ⟨t, ht⟩ := h.task_of_event (mem_eventsOf.mp hmem)
  refine ⟨t, ht, ?_⟩
  obtain ⟨h₁, h₂, hsplit⟩ := List.append_of_mem hmem
  have hcall := h.event_spec svc.program_spec ht hsplit
  cases hreq : t.req with
  | generate req =>
      rw [hreq] at hcall
      obtain ⟨g, hvalid, rfl, -, rfl⟩ := hcall
      refine .generate req g now hvalid ?_
      rw [hsplit]
      exact ⟨h₂, by simp [JwtService.Generated.events]⟩
  | extend req =>
      rw [hreq] at hcall
      obtain ⟨x, -, -, hconn, -⟩ := hcall
      cases hconn
  | _ =>
      rw [hreq] at hcall
      exact hcall.elim

/-- A row inserted in a transaction that was committed is the row of an `extend`. -/
theorem origin_of_tx (h : JwtReach svc P s₀ c) {r : MetadataRow}
    (hins : InsertedBy c.history tid .tx r) (hcom : Committed c.history tid) :
    ∃ t, c.tasks[tid]? = some t ∧ RowOrigin svc (eventsOf c.history tid) tid t.req r := by
  obtain ⟨row, now, rfl, hmem⟩ := hins
  obtain ⟨⟨o, a⟩, hcmem, hcommit⟩ := hcom
  obtain ⟨t, ht⟩ := h.task_of_event (mem_eventsOf.mp hmem)
  refine ⟨t, ht, ?_⟩
  obtain ⟨h₁, h₂, hsplit⟩ := List.append_of_mem hmem
  obtain ⟨h₃, h₄, hsplit'⟩ := List.append_of_mem hcmem
  have hcall := h.event_spec svc.program_spec ht hsplit
  have hcall' := h.event_spec svc.program_spec ht hsplit'
  cases o with
  | commit =>
      cases a with
      | error e => cases hcommit
      | ok u =>
          cases hreq : t.req with
          | extend req =>
              rw [hreq] at hcall hcall'
              obtain ⟨x, hvalid, rfl⟩ := hcall'
              obtain ⟨x', -, rfl, -, rfl⟩ := hcall
              -- Both lists are prefixes of the events, so the ninth event is the same.
              have hrow : (x'.row svc) = x.row svc := by
                have hnth := hsplit'.symm.trans hsplit
                have hget := congrArg (fun l => l[8]?) hnth
                have hevent : (⟨Op.insertMetadata .tx (x.row svc), Except.ok ()⟩ :
                    Event (jwtSig K)) = ⟨Op.insertMetadata .tx (x'.row svc), Except.ok ()⟩ :=
                  Option.some.inj hget
                exact (Op.insertMetadata.inj (congrArg Event.op hevent)).2.symm
              rw [hrow]
              refine .extend req x now hvalid ?_
              rw [hsplit']
              exact ⟨h₄, by simp [JwtService.Extended.events]⟩
          | _ =>
              rw [hreq] at hcall'
              exact hcall'.elim
  | _ => cases hcommit

/-- Every row that was not there at the start has an origin. -/
theorem row_origin (h₀ : s₀.Idle) (hempty : s₀.metadata = []) (h : JwtReach svc P s₀ c)
    {r : MetadataRow} (hr : r ∈ c.shared.metadata) :
    ∃ t, c.tasks[r.xmin]? = some t
      ∧ RowOrigin svc (eventsOf c.history r.xmin) r.xmin t.req r := by
  rcases (metadata_origin h₀ h).committed r hr with hold | hpool | ⟨htx, hcom⟩
  · rw [hempty] at hold
    cases hold
  · exact origin_of_pool h hpool
  · exact origin_of_tx h htx hcom

/-- The signature of a task stands at one place in its calls. -/
def signPlace : Request K → Nat
  | .generate _ => 2
  | _ => 5

/-- A request signs at one place of its trace, if it signs at all. So two signatures of one task are
one. -/
theorem sign_place (h : JwtReach svc P s₀ c) {t : Task (jwtSig K) Fault (Response K) (Request K)}
    (ht : c.tasks[tid]? = some t) {cl : StandardClaims} {a : Except TimError K.Token}
    (hmem : (⟨Op.sign cl, a⟩ : Event (jwtSig K)) ∈ eventsOf c.history tid) :
    (eventsOf c.history tid)[signPlace t.req]? = some ⟨Op.sign cl, a⟩ := by
  obtain ⟨h₁, h₂, hsplit⟩ := List.append_of_mem hmem
  have hcall := h.event_spec svc.program_spec ht hsplit
  rw [hsplit]
  cases hreq : t.req with
  | generate req =>
      rw [hreq] at hcall
      obtain ⟨d, -, rfl, -⟩ := hcall
      rfl
  | extend req =>
      rw [hreq] at hcall
      obtain ⟨x, -, rfl, -⟩ := hcall
      rfl
  | _ =>
      rw [hreq] at hcall
      exact hcall.elim

/-- A place of a list stays where it is when the list grows at its end. -/
theorem getElem?_of_prefix {α : Type} {l l' : List α} (h : l <+: l') {i : Nat} {a : α}
    (ha : l[i]? = some a) : l'[i]? = some a := by
  obtain ⟨rest, rfl⟩ := h
  rw [List.getElem?_append_left (List.getElem?_eq_some_iff.mp ha).1]
  exact ha

/-- What the signed claims and the row of one task share. -/
structure SignedRow (svc : JwtService K) (events : List (Event (jwtSig K))) (req : Request K)
    (r : MetadataRow) (cl : StandardClaims) (token : K.Token) : Prop where
  sign : events[signPlace req]? = some ⟨Op.sign cl, Except.ok token⟩
  drawn : (⟨Op.newUuid, r.jwtUuid⟩ : Event (jwtSig K)) ∈ events
  jti : cl.jti = K.uuidText r.jwtUuid
  subject : r.subject = cl.sub
  keys : r.claimKeys = claimKeys cl.extra
  audience : r.audience = some ((cl.aud.map ",".intercalate).getD "")

/-- A row that an operation has made is one for a token that the same operation has signed. -/
theorem RowOrigin.signed {events : List (Event (jwtSig K))} {req : Request K} {r : MetadataRow}
    (ho : RowOrigin svc events tid req r) : ∃ cl token, SignedRow svc events req r cl token := by
  cases ho with
  | generate req g now hvalid hevents =>
      refine ⟨g.claims svc req, g.token, ?_, ?_, rfl, rfl, rfl, rfl⟩
      · exact getElem?_of_prefix hevents rfl
      · exact hevents.subset List.mem_cons_self
  | extend req x now hvalid hevents =>
      refine ⟨x.claims svc, x.token, ?_, ?_, rfl, rfl, rfl, rfl⟩
      · exact getElem?_of_prefix hevents rfl
      · refine hevents.subset (List.mem_of_getElem? (i := 4) ?_)
        rfl

/-- The claims that a task signed are those of its row. -/
theorem SignedRow.unique (h : JwtReach svc P s₀ c)
    {t : Task (jwtSig K) Fault (Response K) (Request K)} (ht : c.tasks[tid]? = some t)
    {r : MetadataRow} {cl cl' : StandardClaims} {token : K.Token} {a : Except TimError K.Token}
    (hs : SignedRow svc (eventsOf c.history tid) t.req r cl token)
    (hmem : (⟨Op.sign cl', a⟩ : Event (jwtSig K)) ∈ eventsOf c.history tid) : cl' = cl := by
  have hplace := sign_place h ht hmem
  rw [hs.sign] at hplace
  exact Op.sign.inj (congrArg Event.op (Option.some.inj hplace)).symm

/-- The insert of a metadata row stands at one place in the calls of its task. -/
def insertPlace : Request K → Nat
  | .generate _ => 4
  | _ => 8

/-- A row comes from the insert at the place that the request has for it. -/
theorem RowOrigin.inserted {events : List (Event (jwtSig K))} {req : Request K} {r : MetadataRow}
    (ho : RowOrigin svc events tid req r) :
    ∃ conn row now, r = NewMetadata.stored row now tid
      ∧ events[insertPlace req]? = some ⟨Op.insertMetadata conn row, Except.ok ()⟩ := by
  cases ho with
  | generate req g now hvalid hevents =>
      exact ⟨.pool, g.row svc req, now, rfl, getElem?_of_prefix hevents rfl⟩
  | extend req x now hvalid hevents =>
      exact ⟨.tx, x.row svc, now, rfl, getElem?_of_prefix hevents rfl⟩

/-- The calls of a task determine the row it inserts. -/
theorem RowOrigin.unique {events : List (Event (jwtSig K))} {req : Request K}
    {r r' : MetadataRow} (ho : RowOrigin svc events tid req r)
    (ho' : RowOrigin svc events tid req r') : r.toNewMetadata = r'.toNewMetadata := by
  obtain ⟨conn, row, now, rfl, hrow⟩ := ho.inserted
  obtain ⟨conn', row', now', rfl, hrow'⟩ := ho'.inserted
  rw [hrow] at hrow'
  have hop := congrArg Event.op (Option.some.inj hrow')
  rw [(Op.insertMetadata.inj hop).2]
  rfl

/-- The row id of a row was drawn by its task. -/
theorem RowOrigin.id_drawn {events : List (Event (jwtSig K))} {req : Request K} {r : MetadataRow}
    (ho : RowOrigin svc events tid req r) : (⟨Op.newUuid, r.id⟩ : Event (jwtSig K)) ∈ events := by
  cases ho with
  | generate req g now hvalid hevents =>
      exact hevents.subset (List.mem_of_getElem? (i := 3) rfl)
  | extend req x now hvalid hevents =>
      exact hevents.subset (List.mem_of_getElem? (i := 7) rfl)

/-- The rows of one task have the same columns. -/
theorem rows_of_task (h₀ : s₀.Idle) (hempty : s₀.metadata = []) (h : JwtReach svc P s₀ c)
    {r r' : MetadataRow} (hr : r ∈ c.shared.metadata) (hr' : r' ∈ c.shared.metadata)
    (htid : r.xmin = r'.xmin) : r.toNewMetadata = r'.toNewMetadata := by
  obtain ⟨t, ht, ho⟩ := row_origin h₀ hempty h hr
  obtain ⟨t', ht', ho'⟩ := row_origin h₀ hempty h hr'
  rw [htid] at ht ho
  rw [ht] at ht'
  cases ht'
  exact ho.unique ho'

/-- Rows with the same id have the same columns. -/
theorem row_of_id (h₀ : s₀.Idle) (hempty : s₀.metadata = []) (h : JwtReach svc P s₀ c)
    {r r' : MetadataRow} (hr : r ∈ c.shared.metadata) (hr' : r' ∈ c.shared.metadata)
    (hid : r.id = r'.id) : r.toNewMetadata = r'.toNewMetadata := by
  obtain ⟨t, ht, ho⟩ := row_origin h₀ hempty h hr
  obtain ⟨t', ht', ho'⟩ := row_origin h₀ hempty h hr'
  exact rows_of_task h₀ hempty h hr hr' (drawn_unique h (hid ▸ ho.id_drawn) ho'.id_drawn)

end Origin

/-! ### Only signed tokens verify -/

/-- The tokens of a request. -/
def presented : Request K → List K.Token
  | .validate req => [req.token]
  | .introspect req => [req.token]
  | .authenticateBearer token => [token]
  | .revoke token _ => [token]
  | .bulkRevoke req => req.tokens
  | .extend req => [req.token]
  | _ => []

/-- A request is started only with tokens that do not verify or carry signed claims, as their text
is read. -/
def OnlySigned {svc : JwtService K} (c : JwtPool svc) :
    Label (jwtMachine svc.signer) (Request K) → Prop
  | .spawn req => ∀ token ∈ presented req, ∀ at_ cl,
      svc.signer.verifyRaw at_ StandardClaims.deserialize token permissiveValidation = .ok cl →
      ∃ signed ∈ c.shared.signed, signed.RereadAs cl
  | _ => True

/-- Empty tables. A token that was signed before has a jti that counts as used. -/
structure Store.Fresh (K : Crates) (s : Store) : Prop where
  noTx : s.txs = ∅
  metadata : s.metadata = []
  denylist : s.denylist = []
  foreign : ∀ cl ∈ s.signed, ∀ u, K.parseUuid cl.jti = some u → u ∈ s.used

/-- A fresh store has no open transaction. -/
theorem Store.Fresh.idle {s : Store} (h : s.Fresh K) : s.Idle :=
  ⟨h.noTx, by simp [h.denylist], by simp [h.metadata]⟩

/-- What has been signed stays signed. -/
theorem Store.Effect.signed_mono {signer : JwtSigner K} {tid : Nat} {s s' : Store} {o : Op}
    {r : Resp K o} (h : Effect signer tid s o r s') {cl : StandardClaims} (hcl : cl ∈ s.signed) :
    cl ∈ s'.signed := by
  cases h with
  | sign => exact List.mem_cons_of_mem _ hcl
  | now | selectDenylist | selectChain | query | failed | conflict | newUuid => exact hcl
  | begin | commitFailed | rollback | commit => simpa [Store.apply] using hcl
  | insertMetadata conn row tx | insertDenylist conn jti exp reason tx =>
      cases conn with
      | pool => exact hcl
      | tx => simpa [Store.write] using hcl

section Signed

variable {svc : JwtService K} {s₀ : Store} {c : JwtPool svc} {tid : Nat}

/-- The same for a step of the pool, whatever the step is. -/
theorem signed_grow {c c' : JwtPool svc} {l : Label (jwtMachine svc.signer) (Request K)}
    (hn : Pool.Next svc.program c l c') {cl : StandardClaims} (hcl : cl ∈ c.shared.signed) :
    cl ∈ c'.shared.signed := by
  cases hn with
  | spawn req => exact hcl
  | step tid ch req o k a s htask hexec => exact (Store.exec_effect hexec).signed_mono hcl
  | cancel tid req o k htask =>
      have heq := Store.signed_setTx c.shared tid none
      exact heq.symm ▸ hcl
  | env e s henv =>
      simp only [jwtMachine, Store.tick] at henv
      split at henv
      · cases henv
        exact hcl
      · cases henv

/-- The claims of a call to the signing key are signed. -/
theorem signed_of_event {P : JwtPool svc → Label (jwtMachine svc.signer) (Request K) → Prop}
    (h : JwtReach svc P s₀ c) {cl : StandardClaims} {a : Except TimError K.Token}
    (hmem : (⟨Op.sign cl, a⟩ : Event (jwtSig K)) ∈ eventsOf c.history tid) :
    cl ∈ c.shared.signed := by
  refine h.invariant (I := fun c : JwtPool svc => ∀ tid cl (a : Except TimError K.Token),
    (tid, (⟨Op.sign cl, a⟩ : Event (jwtSig K))) ∈ c.history → cl ∈ c.shared.signed)
    (by simp [Pool.init]) ?_ tid cl a (mem_eventsOf.mp hmem)
  intro c l c' _ _ hn hI tid cl a hmem
  have hgrow := fun hcl : cl ∈ c.shared.signed => signed_grow hn hcl
  cases hn with
  | spawn req => exact hgrow (hI tid cl a hmem)
  | cancel tid' req o k htask => exact hgrow (hI tid cl a hmem)
  | env e s henv => exact hgrow (hI tid cl a hmem)
  | step tid' ch req o k a' s htask hexec =>
      rcases List.mem_append.mp hmem with hold | hnew
      · exact hgrow (hI tid cl a hold)
      · have heq := congrArg Prod.snd (List.mem_singleton.mp hnew)
        have hop : o = .sign cl := (congrArg Event.op heq).symm
        subst hop
        have heff : Store.Effect svc.signer tid' c.shared (.sign cl) a' s :=
          Store.exec_effect hexec
        cases heff with
        | sign => exact List.mem_cons_self
        | query _ _ hq => exact hq.elim
        | failed _ _ he => exact he.elim

/-- The claims of a token that a running request holds are signed. -/
theorem presented_signed (h : JwtReach svc OnlySigned s₀ c)
    {t : Task (jwtSig K) Fault (Response K) (Request K)} (ht : c.tasks[tid]? = some t)
    {token : K.Token} (htok : token ∈ presented t.req) {at_ : DateTime} {cl : StandardClaims}
    (hv : svc.signer.verifyRaw at_ StandardClaims.deserialize token permissiveValidation
      = .ok cl) : ∃ signed ∈ c.shared.signed, signed.RereadAs cl := by
  refine h.invariant (I := fun c : JwtPool svc => ∀ tid t, c.tasks[tid]? = some t →
    ∀ token ∈ presented t.req, ∀ at_ cl,
      svc.signer.verifyRaw at_ StandardClaims.deserialize token permissiveValidation = .ok cl →
      ∃ signed ∈ c.shared.signed, signed.RereadAs cl)
    (by simp [Pool.init]) ?_ tid t ht token htok at_ cl hv
  intro c l c' hr hP hn hI tid t ht token htok at_ cl hv
  rcases hn.task_back ht with ⟨t', ht', hreq⟩ | rfl
  · obtain ⟨signed, hsigned, hreread⟩ := hI tid t' ht' token (hreq ▸ htok) at_ cl hv
    exact ⟨signed, signed_grow hn hsigned, hreread⟩
  · obtain ⟨signed, hsigned, hreread⟩ := hP token htok at_ cl hv
    exact ⟨signed, signed_grow hn hsigned, hreread⟩

/-- The claims that were signed with the jti of a row are those of the row's task. -/
theorem signed_claims_of_row (uuid : UuidLaws K) (h₀ : s₀.Fresh K)
    (h : JwtReach svc OnlySigned s₀ c) {q : MetadataRow} (hq : q ∈ c.shared.metadata)
    {cl : StandardClaims} (hcl : cl ∈ c.shared.signed)
    (hjti : K.parseUuid cl.jti = some q.jwtUuid) :
    ∃ t token, c.tasks[q.xmin]? = some t
      ∧ SignedRow svc (eventsOf c.history q.xmin) t.req q cl token := by
  obtain ⟨t, ht, ho⟩ := row_origin h₀.idle h₀.metadata h hq
  obtain ⟨cl', token, hs⟩ := ho.signed
  rcases signed_origin h cl hcl with hold | ⟨tid, a, hmem⟩
  · -- A jti from before the run is not drawn again.
    have hused := h₀.foreign cl hold _ hjti
    exact absurd hused ((uuid_fresh h).2 _ (mem_drawn.mpr hs.drawn))
  · obtain ⟨t', ht'⟩ := h.task_of_event (mem_eventsOf.mp hmem)
    obtain ⟨h₁, h₂, hsplit⟩ := List.append_of_mem hmem
    have hcall := h.event_spec svc.program_spec ht' hsplit
    -- The signing task drew the jti, so it is the task of the row.
    have hdrawn : ∃ u : Uuid, (⟨Op.newUuid, u⟩ : Event (jwtSig K)) ∈ eventsOf c.history tid
        ∧ cl.jti = K.uuidText u := by
      cases hreq : t'.req with
      | generate req =>
          rw [hreq] at hcall
          obtain ⟨d, -, rfl, rfl⟩ := hcall
          refine ⟨d.jti, ?_, rfl⟩
          rw [hsplit]
          exact List.mem_append_left _ List.mem_cons_self
      | extend req =>
          rw [hreq] at hcall
          obtain ⟨x, -, rfl, rfl⟩ := hcall
          refine ⟨x.newJti, ?_, rfl⟩
          rw [hsplit]
          exact List.mem_append_left _ (List.mem_append_right _ (List.mem_singleton_self _))
      | _ =>
          rw [hreq] at hcall
          exact hcall.elim
    obtain ⟨u, hu, hcj⟩ := hdrawn
    have huq : u = q.jwtUuid := by
      rw [hcj, uuid.parse_text] at hjti
      exact Option.some.inj hjti
    subst huq
    have htid : tid = q.xmin := drawn_unique h hu hs.drawn
    subst htid
    have hsame : cl = cl' := hs.unique h ht hmem
    subst hsame
    exact ⟨t, token, ht, hs⟩

end Signed

/-! ### Parents come first -/

/-- The row with the id that `supersedes` names. -/
def Store.parent (s : Store) (r : MetadataRow) : Option MetadataRow :=
  r.supersedes.bind fun p => s.metadata.find? fun q => q.id = p

/-- Every row has its parent at an earlier place of the list. -/
def ParentsFirst (rows : List MetadataRow) : Prop :=
  ∀ (i : Nat) (r : MetadataRow) (p : Uuid), rows[i]? = some r → r.supersedes = some p →
    ∃ (j : Nat) (q : MetadataRow), j < i ∧ rows[j]? = some q ∧ q.id = p

/-- The parents of the given rows are in the list. -/
def ParentsIn (rows new : List MetadataRow) : Prop :=
  ∀ r ∈ new, ∀ p, r.supersedes = some p → ∃ q ∈ rows, q.id = p

/-- Rows whose parents are there already can be appended. -/
theorem ParentsFirst.append {rows new : List MetadataRow} (h : ParentsFirst rows)
    (hnew : ParentsIn rows new) : ParentsFirst (rows ++ new) := by
  intro i r p hr hp
  rcases Nat.lt_or_ge i rows.length with hlt | hge
  · rw [List.getElem?_append_left hlt] at hr
    obtain ⟨j, q, hj, hq, hid⟩ := h i r p hr hp
    refine ⟨j, q, hj, ?_, hid⟩
    rw [List.getElem?_append_left (by omega)]
    exact hq
  · rw [List.getElem?_append_right hge] at hr
    obtain ⟨q, hq, hid⟩ := hnew r (List.mem_of_getElem? hr) p hp
    obtain ⟨j, hj⟩ := List.mem_iff_getElem?.mp hq
    have hlt := (List.getElem?_eq_some_iff.mp hj).1
    refine ⟨j, q, by omega, ?_, hid⟩
    rw [List.getElem?_append_left hlt]
    exact hj

/-- More rows before them do no harm. -/
theorem ParentsIn.mono {rows rows' new : List MetadataRow} (h : ParentsIn rows new)
    (hsub : ∀ q ∈ rows, q ∈ rows') : ParentsIn rows' new := by
  intro r hr p hp
  obtain ⟨q, hq, hid⟩ := h r hr p hp
  exact ⟨q, hsub q hq, hid⟩

/-- Parents come first in the table, and the parents of uncommitted rows are committed. -/
structure Ordered (s : Store) : Prop where
  table : ParentsFirst s.metadata
  open_ : ∀ tid tx, s.txOf tid = some tx → ParentsIn s.metadata tx.metadata

namespace Ordered

variable {s : Store}

/-- A transaction that ends leaves the rows in order, whether it was committed or not. -/
theorem close (h : Ordered s) (tid : Nat) : Ordered (s.setTx tid none) := by
  refine ⟨by simpa using h.table, fun tid' tx htx => ?_⟩
  rw [Store.metadata_setTx]
  exact h.open_ tid' tx (Store.txOf_of_close htx).2

/-- One call keeps the order, when the row it may insert has its parent in the table. -/
theorem step (h : Ordered s) {signer : JwtSigner K} {tid : Nat} {o : Op} {r : Resp K o}
    {s' : Store} (he : Store.Effect signer tid s o r s')
    (hrow : ∀ conn row, o = .insertMetadata conn row →
      ∀ p, row.supersedes = some p → ∃ q ∈ s.metadata, q.id = p) : Ordered s' := by
  -- The transactions of the other tasks are as before, and the table has only grown.
  have hrest : (∀ tx, s'.txOf tid = some tx → ParentsIn s'.metadata tx.metadata) →
      ∀ tid' tx, s'.txOf tid' = some tx → ParentsIn s'.metadata tx.metadata := by
    intro hown tid' tx htx
    by_cases heq : tid' = tid
    · subst heq
      exact hown tx htx
    · rw [he.txOf_other heq] at htx
      exact (h.open_ tid' tx htx).mono fun q hq => he.grows.metadata.subset hq
  have hkeep : ∀ tx, s.txOf tid = some tx → ParentsIn s'.metadata tx.metadata :=
    fun tx htx => (h.open_ tid tx htx).mono fun q hq => he.grows.metadata.subset hq
  cases he with
  | now | selectDenylist | selectChain | query | failed | conflict | newUuid | sign =>
      exact ⟨h.table, h.open_⟩
  -- A new transaction has no rows.
  | begin =>
      refine ⟨by simpa using h.table, hrest fun tx htx => ?_⟩
      rw [Store.txOf_setTx_self] at htx
      cases htx
      intro q hq
      cases hq
  | commitFailed | rollback => exact h.close tid
  | commit tx htx =>
      refine ⟨?_, hrest fun tx' htx' => ?_⟩
      -- The parents of the committed rows are in the table already, so they come first.
      · rw [Store.metadata_setTx, Store.metadata_apply]
        exact h.table.append (h.open_ tid tx htx)
      · rw [Store.txOf_setTx_self] at htx'
        cases htx'
  | insertMetadata conn row tx hown =>
      have hin : ParentsIn s.metadata [row.stored tx.startedAt tid] := by
        intro q hq p hp
        rw [List.mem_singleton.mp hq] at hp
        exact hrow conn row rfl p hp
      cases conn with
      | pool =>
          cases hown
          exact ⟨h.table.append hin, hrest hkeep⟩
      | tx =>
          refine ⟨by simpa [Store.write] using h.table, hrest fun tx' htx' => ?_⟩
          simp only [Store.write, Store.txOf_setTx_self, Option.some.injEq] at htx'
          subst htx'
          have htx : s.txOf tid = some tx := hown
          rw [Store.write, Store.metadata_setTx]
          intro q hq
          rcases List.mem_append.mp hq with hq | hq
          · exact h.open_ tid tx htx q hq
          · exact hin q hq
  | insertDenylist conn jti exp reason tx hown =>
      cases conn with
      | pool =>
          cases hown
          refine ⟨?_, hrest hkeep⟩
          simpa [Store.write] using h.table
      | tx =>
          refine ⟨by simpa [Store.write] using h.table, hrest fun tx' htx' => ?_⟩
          simp only [Store.write, Store.txOf_setTx_self, Option.some.injEq] at htx'
          subst htx'
          exact hkeep tx hown

end Ordered

section Order

variable {svc : JwtService K}
  {P : JwtPool svc → Label (jwtMachine svc.signer) (Request K) → Prop} {s₀ : Store}
  {c : JwtPool svc}

/-- A row is inserted after its parent was read from the table. -/
theorem insert_parent (h : JwtReach svc P s₀ c) {tid : Nat} {req : Request K} {conn : Conn}
    {row : NewMetadata} (hcall : svc.Call req (eventsOf c.history tid) (.insertMetadata conn row))
    {p : Uuid} (hp : row.supersedes = some p) : ∃ q ∈ c.shared.metadata, q.id = p := by
  cases req with
  | generate req =>
      obtain ⟨g, -, -, -, rfl⟩ := hcall
      cases hp
  | extend req =>
      obtain ⟨x, -, hevents, -, rfl⟩ := hcall
      have hfound : x.anc.prevRowId = some p := hp
      cases hf : x.found with
      | none =>
          rw [JwtService.Source.anc, hf] at hfound
          cases hfound
      | some f =>
          obtain ⟨orig, rowId, name⟩ := f
          rw [JwtService.Source.anc, hf] at hfound
          cases hfound
          have hmem : (⟨Op.selectChain x.oldJti, Except.ok (some (orig, p, name))⟩ :
              Event (jwtSig K)) ∈ eventsOf c.history tid := by
            rw [hevents, ← hf]
            exact List.mem_of_getElem? (i := 3) rfl
          obtain ⟨q, hq, -, -, hid, -⟩ := chain_read h hmem
          exact ⟨q, hq, hid⟩
  | _ => exact hcall.elim

/-- In every run from a store without rows, every row comes after its parent. -/
theorem ordered (h₀ : s₀.Idle) (hempty : s₀.metadata = []) (h : JwtReach svc P s₀ c) :
    Ordered c.shared := by
  refine h.invariant (I := fun c : JwtPool svc => Ordered c.shared) ?_ ?_
  · refine ⟨?_, fun tid tx htx => ?_⟩
    · intro i r p hr
      simp [Pool.init, hempty] at hr
    · have hnone := h₀.txOf tid
      rw [show (Pool.init s₀ : JwtPool svc).shared = s₀ from rfl, hnone] at htx
      cases htx
  · intro c l c' hr _ hn hI
    cases hn with
    | spawn req => exact hI
    | step tid ch req o k a s htask hexec =>
        refine hI.step (Store.exec_effect hexec) ?_
        rintro conn row rfl p hp
        exact insert_parent hr (hr.call_spec svc.program_spec htask) hp
    | cancel tid req o k htask => exact hI.close tid
    | env e s henv =>
        simp only [jwtMachine, Store.tick] at henv
        split at henv
        · cases henv
          exact ⟨hI.table, hI.open_⟩
        · cases henv

/-- The parent of a row is at an earlier place of the table. -/
theorem parent_idxOf_lt {rows : List MetadataRow} (h : ParentsFirst rows) {r q : MetadataRow}
    {p : Uuid} (hr : r ∈ rows) (hp : r.supersedes = some p)
    (hq : rows.find? (fun q => q.id = p) = some q) : rows.idxOf q < rows.idxOf r := by
  have hget : rows[rows.idxOf r]? = some r := List.getElem?_idxOf hr
  obtain ⟨j, q', hj, hq', hid⟩ := h _ r p hget hp
  -- The first row with the id is at the place `j` or before it.
  obtain ⟨-, as, bs, hrows, hbefore⟩ := List.find?_eq_some_iff_append.mp hq
  have hle : rows.idxOf q ≤ as.length := by
    rw [hrows, List.idxOf_append]
    split
    · exact Nat.le_of_lt (List.idxOf_lt_length_of_mem ‹q ∈ as›)
    · simp
  have hlt : ¬ j < as.length := by
    intro hlt
    rw [hrows, List.getElem?_append_left hlt] at hq'
    have hne := hbefore q' (List.mem_of_getElem? hq')
    simp [hid] at hne
  omega

end Order

/-! ### Chains are well formed -/

/-- What the calls of its task say about the chain columns of a row. -/
def Created {svc : JwtService K} (c : JwtPool svc) (r : MetadataRow) : Request K → Prop
  | .generate _ => r.originalJwtUuid = r.jwtUuid ∧ r.supersedes = none
  | .extend _ => ∀ old : Uuid,
      (⟨Op.selectChain old, Except.ok none⟩ : Event (jwtSig K)) ∈ eventsOf c.history r.xmin →
      r.supersedes = none ∧ r.originalJwtUuid = old ∧ (c.shared.denied old).isSome
  | _ => False

/-- The chain of a row is well formed. -/
structure ChainWellFormed {svc : JwtService K} (c : JwtPool svc) (r : MetadataRow) : Prop where
  acyclic : ¬ Relation.TransGen (ParentOf c.shared.parent) r r
  root : ∃ q ∈ c.shared.metadata, Relation.ReflTransGen (ParentOf c.shared.parent) r q
    ∧ q.supersedes = none
  parent : ∀ p, r.supersedes = some p → ∃ q ∈ c.shared.metadata, c.shared.parent r = some q
    ∧ q.id = p ∧ q.originalJwtUuid = r.originalJwtUuid ∧ q.subject = r.subject
    ∧ q.jwtName = r.jwtName ∧ (c.shared.denied q.jwtUuid).isSome
  created : ∃ t, c.tasks[r.xmin]? = some t ∧ Created c r t.req

section WellFormed

variable {svc : JwtService K} {s₀ : Store} {c : JwtPool svc}

/-- The old token of a committed extension is in the denylist. -/
theorem extended_denied {P : JwtPool svc → Label (jwtMachine svc.signer) (Request K) → Prop}
    (h : JwtReach svc P s₀ c) {tid : Nat} {x : JwtService.Extended K}
    (hevents : x.events svc <+: eventsOf c.history tid) :
    (c.shared.denied x.oldJti).isSome := by
  have hmem : (⟨Op.insertDenylist .tx x.oldJti x.oldExp (some JwtService.supersededReason),
      Except.ok x.rows⟩ : Event (jwtSig K)) ∈ eventsOf c.history tid :=
    hevents.subset (List.mem_of_getElem? (i := 9) rfl)
  have hcommitted : Committed c.history tid :=
    ⟨⟨Op.commit, Except.ok ()⟩, hevents.subset (List.mem_of_getElem? (i := 10) rfl), rfl⟩
  obtain ⟨q, hq, hkey, -⟩ := ((landed h tid _ hmem).2 rfl).2 hcommitted
  exact Store.denied_isSome.mpr ⟨q, hq, hkey⟩

/-- What the search for a parent finds: the row by the id that `supersedes` names. -/
theorem parent_mem {s : Store} {r q : MetadataRow} (h : s.parent r = some q) :
    ∃ p, r.supersedes = some p ∧ s.metadata.find? (fun q => q.id = p) = some q
      ∧ q ∈ s.metadata ∧ q.id = p := by
  obtain ⟨p, hp, hfind⟩ := Option.bind_eq_some_iff.mp h
  exact ⟨p, hp, hfind, List.mem_of_find?_eq_some hfind, by simpa using List.find?_some hfind⟩

/-- A row that names a parent has it in the table, with the columns that the chain shares. -/
theorem parent_columns (uuid : UuidLaws K) (h₀ : s₀.Fresh K) (h : JwtReach svc OnlySigned s₀ c)
    {r : MetadataRow} (hr : r ∈ c.shared.metadata) {p : Uuid} (hp : r.supersedes = some p) :
    ∃ q ∈ c.shared.metadata, c.shared.parent r = some q ∧ q.id = p
      ∧ q.originalJwtUuid = r.originalJwtUuid ∧ q.subject = r.subject ∧ q.jwtName = r.jwtName
      ∧ (c.shared.denied q.jwtUuid).isSome := by
  obtain ⟨t, ht, ho⟩ := row_origin h₀.idle h₀.metadata h hr
  generalize hreq : t.req = req at ho
  generalize htid : r.xmin = tid at ho ht
  cases ho with
  | generate req g now hvalid hevents => cases hp
  | extend req x now hvalid hevents =>
      have hdenied := extended_denied h hevents
      -- The parent is the row that the chain query found.
      have hprev : x.anc.prevRowId = some p := hp
      cases hf : x.found with
      | none =>
          rw [JwtService.Source.anc, hf] at hprev
          cases hprev
      | some f =>
          obtain ⟨orig, rowId, name⟩ := f
          have hanc : x.anc = ⟨orig, some rowId, name⟩ := by
            rw [JwtService.Source.anc, hf]
            rfl
          have hrow : rowId = p := by
            rw [hanc] at hprev
            exact Option.some.inj hprev
          subst hrow
          have hread : (⟨Op.selectChain x.oldJti, Except.ok (some (orig, rowId, name))⟩ :
              Event (jwtSig K)) ∈ eventsOf c.history tid := by
            rw [← hf]
            exact hevents.subset (List.mem_of_getElem? (i := 3) rfl)
          obtain ⟨q, hq, hjti, horig, hid, hname⟩ := chain_read h hread
          -- The named claims of the old token are those that were signed with this row.
          obtain ⟨signed, hold, extra, -, heq⟩ :=
            presented_signed h ht (by rw [hreq]; exact List.mem_singleton_self _)
              (JwtService.verifyRaw_of_verify hvalid.verified)
          have hsame : signed.jti = x.old.jti ∧ signed.sub = x.old.sub := by
            rw [heq]
            exact ⟨rfl, rfl⟩
          obtain ⟨_, _, -, hsigned⟩ :=
            signed_claims_of_row uuid h₀ h hq hold (hsame.1 ▸ hjti ▸ hvalid.jti)
          have hsub : q.subject = x.old.sub := hsigned.subject.trans hsame.2
          -- The row with the id in the table has the same columns.
          have hfind : (c.shared.metadata.find? fun q => q.id = rowId).isSome :=
            List.find?_isSome.mpr ⟨q, hq, by simpa using hid⟩
          obtain ⟨q', hq'⟩ := Option.isSome_iff_exists.mp hfind
          have hmem := List.mem_of_find?_eq_some hq'
          have hid' : q'.id = rowId := by simpa using List.find?_some hq'
          have hsame := row_of_id h₀.idle h₀.metadata h hmem hq (hid'.trans hid.symm)
          refine ⟨q', hmem, ?_, hid', ?_, ?_, ?_, ?_⟩
          · exact Option.bind_eq_some_iff.mpr ⟨rowId, hp, hq'⟩
          · rw [hsame, horig]
            exact (congrArg JwtService.Ancestor.originalJwtUuid hanc).symm
          · rw [hsame, hsub]
            rfl
          · rw [hsame, hname]
            exact (congrArg JwtService.Ancestor.jwtName hanc).symm
          · rw [hsame, hjti]
            exact hdenied

/-- The row of a task has the chain columns that its calls say. -/
theorem row_created {P : JwtPool svc → Label (jwtMachine svc.signer) (Request K) → Prop}
    (h₀ : s₀.Idle) (hempty : s₀.metadata = []) (h : JwtReach svc P s₀ c) {r : MetadataRow}
    (hr : r ∈ c.shared.metadata) : ∃ t, c.tasks[r.xmin]? = some t ∧ Created c r t.req := by
  obtain ⟨t, ht, ho⟩ := row_origin h₀ hempty h hr
  refine ⟨t, ht, ?_⟩
  generalize hreq : t.req = req at ho
  generalize htid : r.xmin = tid at ho ht
  cases ho with
  | generate req g now hvalid hevents => exact ⟨rfl, rfl⟩
  | extend req x now hvalid hevents =>
      intro old hmem
      have hdenied := extended_denied h hevents
      obtain ⟨h₁, h₂, hsplit⟩ := List.append_of_mem hmem
      have hcall := h.event_spec svc.program_spec ht hsplit
      rw [hreq] at hcall
      -- The chain query is the fourth call.
      have hlen : h₁.length = 3 := hcall
      have hfourth : (eventsOf c.history tid)[3]? = some ⟨Op.selectChain old, Except.ok none⟩ := by
        have hget : (h₁ ++ ⟨Op.selectChain old, Except.ok none⟩ :: h₂)[h₁.length]?
            = some (⟨Op.selectChain old, Except.ok none⟩ : Event (jwtSig K)) := by simp
        rw [hlen, ← hsplit] at hget
        exact hget
      have hread : (eventsOf c.history tid)[3]?
          = some ⟨Op.selectChain x.oldJti, Except.ok x.found⟩ := getElem?_of_prefix hevents rfl
      rw [hread] at hfourth
      obtain ⟨hold, hnone⟩ : x.oldJti = old ∧ x.found = none := by
        injection Option.some.inj hfourth with hop hresp
        cases hop
        exact ⟨rfl, Except.ok.inj hresp⟩
      have hanc : x.anc = ⟨x.oldJti, none, none⟩ := by
        rw [JwtService.Source.anc, hnone]
        rfl
      subst hold
      exact ⟨congrArg JwtService.Ancestor.prevRowId hanc,
        congrArg JwtService.Ancestor.originalJwtUuid hanc, hdenied⟩

/-- Extension chains are well formed in every reachable state. -/
theorem chains_well_formed (uuid : UuidLaws K) (h₀ : s₀.Fresh K)
    (h : JwtReach svc OnlySigned s₀ c) {r : MetadataRow} (hr : r ∈ c.shared.metadata) :
    ChainWellFormed c r := by
  have hstep : ∀ a b, a ∈ c.shared.metadata → c.shared.parent a = some b →
      b ∈ c.shared.metadata ∧ c.shared.metadata.idxOf b < c.shared.metadata.idxOf a := by
    intro a b ha hb
    obtain ⟨p, hp, hfind, hmem, -⟩ := parent_mem hb
    exact ⟨hmem, parent_idxOf_lt (ordered h₀.idle h₀.metadata h).table ha hp hfind⟩
  have hparent : ∀ a ∈ c.shared.metadata, c.shared.parent a = none → a.supersedes = none := by
    intro a ha hnone
    cases hp : a.supersedes with
    | none => rfl
    | some p =>
        obtain ⟨q, -, hq, -⟩ := parent_columns uuid h₀ h ha hp
        rw [hnone] at hq
        cases hq
  obtain ⟨q, hq, hpath, hnone⟩ := exists_root hstep hr
  exact {
    acyclic := not_transGen_self hstep hr
    root := ⟨q, hq, hpath, hparent q hq hnone⟩
    parent := fun p hp => parent_columns uuid h₀ h hr hp
    created := row_created h₀.idle h₀.metadata h hr }

end WellFormed

namespace Symbolic

/-- No request that arrives presents a token. -/
def noToken (_ : JwtPool service) : RunLabel → Bool
  | .spawn req => (presented req).isEmpty
  | _ => true

end Symbolic

open Symbolic in
/-- The chain of the row that an extension of a generated token inserts. -/
theorem chains_well_formed_extended :
    ∃ c r, JwtReach service OnlySigned store c ∧ r ∈ c.shared.metadata
      ∧ r.supersedes.isSome ∧ ChainWellFormed c r := by
  have hguard : ∀ c l, noToken c l = true → OnlySigned c l := by
    intro c l hl
    cases l with
    | spawn req =>
        have hnil : presented req = [] := by simpa [noToken] using hl
        intro token htok
        rw [hnil] at htok
        cases htok
    | _ => trivial
  let hasParent : JwtPool service → Bool := fun c =>
    c.shared.metadata.any fun r => r.supersedes.isSome
  obtain ⟨c₁, h₁, hq₁⟩ := Pool.exists_reach service.program noToken
    (fun c => (issuedBy 0 c).any fun token =>
      (Pool.run service.program noToken (startExtend c token)
        (extendRead 1 ⟨3⟩ ++ extendWrite 1 ⟨5⟩)).any hasParent)
    (Pool.init store) generateRun (by decide +kernel)
  have h₁ : JwtReach service OnlySigned store c₁ := h₁.mono hguard
  obtain ⟨token, htok, hrun⟩ := (Option.any_eq_true _ _).mp hq₁
  obtain ⟨c₂, h₂, hq₂⟩ := Pool.exists_reach service.program noToken hasParent
    (startExtend c₁ token) _ hrun
  have hspawn : OnlySigned c₁ (.spawn (.extend ⟨token, none⟩)) := by
    intro token' htok' at_ cl hv
    rw [List.mem_singleton.mp htok'] at hv
    obtain ⟨t, r, ht, hr, rfl⟩ := result_of_issuedBy htok
    obtain ⟨cl', hsign⟩ := sign_of_result h₁ ht hr
    obtain ⟨-, cl'', hreread, hcarries⟩ :=
      payload_of_sign symbolic_decode symbolic_encode h₁ hsign
    have hclaims := claimsOf_of_verifyRaw symbolic_decode rfl hv
    rw [hcarries] at hclaims
    cases hclaims
    exact ⟨cl', signed_of_event h₁ hsign, hreread⟩
  have h : JwtReach service OnlySigned store c₂ :=
    (h₁.tail _ hspawn rfl).trans (h₂.mono hguard)
  obtain ⟨r, hr, hsome⟩ := List.any_eq_true.mp hq₂
  have hfresh : store.Fresh symbolic := ⟨rfl, rfl, rfl, by simp [store]⟩
  exact ⟨c₂, r, h, hr, hsome, chains_well_formed symbolic_uuid hfresh h hr⟩

end Tim
