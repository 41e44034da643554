import Tim.Proofs.Chain

/-!
# `Tim.Proofs.Lineage`: a token and its extensions

`Lineage` is a `generate` followed by any number of `extend` requests, each started with the
token that the one before had returned. Other requests run in between. Every token of a
lineage carries the claims of the first one, apart from the instants and the jti, and all
rows have the same descriptive columns.

The induction is on the lineage. `Link` is what each of its requests leaves in the history
and in the table. Each extension signs what was read from the token before, so the whole claim
map survives where JSON texts are read as they are written, which is assumed here
(`Crates.JsonExact`).

* `link_generate`, `link_extend`: one token of the chain, from the task that has signed it.
* `Lineage.all_links`: all of them, by induction on the chain.
* `claims_survive`: the subject, the audience and the extra claims of the first token are those of
  the last.
-/

set_option autoImplicit false

namespace Tim

open Tim.Lib

variable {K : Crates}

/-- `c[sub]` if it is a string. -/
def stringSub (content : ClaimMap) : Option String :=
  match content["sub"]? with
  | some (.string s) => some s
  | _ => none

/-- The claims that a request asks for. -/
structure ClaimsFor (svc : JwtService K) (req : GenerateRequest) (aud : List String)
    (cl : StandardClaims) : Prop where
  iss : cl.iss = svc.cfg.issuer
  sub : cl.sub = stringSub req.content
  aud : cl.aud = some aud
  extra : ∀ k : String, cl.extra[k]?
    = if k = "token_type" then some (.string "custom_jwt")
      else if k ∈ reservedClaimNames then none else req.content[k]?
  exp : cl.iat < cl.exp

namespace ClaimsFor

variable {svc : JwtService K} {req : GenerateRequest} {aud : List String} {cl : StandardClaims}

/-- The extra claims of a request are the same whoever looks at them. -/
theorem extra_eq {cl' : StandardClaims} (h : ClaimsFor svc req aud cl)
    (h' : ClaimsFor svc req aud cl') : cl.extra = cl'.extra := by
  refine Std.ExtTreeMap.ext_getElem? fun k => ?_
  rw [h.extra, h'.extra]

/-- `generate` signs the claims that its request asks for. -/
theorem generate {d : JwtService.Draft} (h : d.Valid svc req) :
    ClaimsFor svc req d.aud (d.claims svc req) where
  iss := rfl
  sub := by
    show req.content["sub"]?.bind Value.asStr = stringSub req.content
    unfold stringSub
    cases req.content["sub"]? with
    | none => rfl
    | some v => cases v <;> rfl
  aud := rfl
  extra := getElem?_generateClaims svc req d.aud d.jti d.now d.exp
  exp := timestamp_lt_of_plusMinutes h.minutes h.exp

/-- `extend` keeps them. -/
theorem extend {ereq : ExtendRequest K} {x : JwtService.Source} (h : x.Valid svc ereq)
    (hold : ClaimsFor svc req aud x.old) : ClaimsFor svc req aud (x.claims svc) where
  iss := rfl
  sub := hold.sub
  aud := hold.aud
  extra := by
    have hmem : "token_type" ∈ x.old.extra := by
      rw [Std.ExtTreeMap.mem_iff_isSome_getElem?, hold.extra, if_pos rfl]
      rfl
    intro k
    rw [JwtService.Source.claims, extendClaims_extra svc hmem]
    exact hold.extra k
  exp := timestamp_lt_of_plusMinutes h.minutes h.exp

end ClaimsFor

/-- What one request of a lineage leaves behind: it drew a jti, signed a token with it, and
inserted a row under the name of the first request. -/
structure Link {svc : JwtService K} (c : JwtPool svc) (req : GenerateRequest) (aud : List String)
    (tid : Nat) (token : K.Token) (cl : StandardClaims) (r : MetadataRow) : Prop where
  sign : (⟨Op.sign cl, Except.ok token⟩ : Event (jwtSig K)) ∈ eventsOf c.history tid
  claims : ClaimsFor svc req aud cl
  jti : cl.jti = K.uuidText r.jwtUuid
  row : r ∈ c.shared.metadata
  task : r.xmin = tid
  name : r.jwtName = some req.jwtName

/-- A `generate` and its extensions, the newest first. Each of them was started after the one
before had returned its token. -/
inductive Lineage (svc : JwtService K)
    (P : JwtPool svc → Label (jwtMachine svc.signer) (Request K) → Prop) (s₀ : Store)
    (req : GenerateRequest) : JwtPool svc → List (Nat × K.Token) → Prop
  | generate {c : JwtPool svc} {tid : Nat} {t : Task (jwtSig K) Fault (Response K) (Request K)}
      {r : TokenResponse K} (hc : JwtReach svc P s₀ c) (ht : c.tasks[tid]? = some t)
      (hreq : t.req = .generate req) (hx : t.result = some (.ok (.token r))) :
      Lineage svc P s₀ req c [(tid, r.token)]
  | extend {c c' : JwtPool svc} {links : List (Nat × K.Token)} {prev : Nat × K.Token}
      {tid : Nat} {t : Task (jwtSig K) Fault (Response K) (Request K)} {minutes : Option Int64}
      {r : TokenResponse K} (hl : Lineage svc P s₀ req c (prev :: links))
      (hc : Pool.Reach svc.program P c c') (hlater : c.tasks.length ≤ tid)
      (ht : c'.tasks[tid]? = some t) (hreq : t.req = .extend ⟨prev.2, minutes⟩)
      (hx : t.result = some (.ok (.token r))) :
      Lineage svc P s₀ req c' ((tid, r.token) :: prev :: links)

section Steps

variable {svc : JwtService K}
  {P : JwtPool svc → Label (jwtMachine svc.signer) (Request K) → Prop} {s₀ : Store}
  {c c' : JwtPool svc} {req : GenerateRequest} {aud : List String} {tid : Nat}
  {token : K.Token} {cl : StandardClaims} {r : MetadataRow}

/-- A lineage belongs to a run. -/
theorem Lineage.reach {links : List (Nat × K.Token)} (hl : Lineage svc P s₀ req c links) :
    JwtReach svc P s₀ c := by
  induction hl with
  | generate hc => exact hc
  | extend _ hc _ _ _ _ ih => exact ih.trans hc

/-- A link stays as it is in every later state. -/
theorem Link.mono (h : Link c req aud tid token cl r) (hc : Pool.Reach svc.program P c c') :
    Link c' req aud tid token cl r := by
  obtain ⟨later, hlater⟩ := hc.history_append
  refine ⟨?_, h.claims, h.jti, (tables_grow hc).metadata.subset h.row, h.task, h.name⟩
  rw [hlater, eventsOf_append]
  exact List.mem_append_left _ h.sign

/-- A chain query that starts after a row was committed finds a row of that jti. -/
theorem chain_found (hr : r ∈ c.shared.metadata) (h₀ : ∀ e ∈ c.history, e.1 < c.tasks.length)
    (hc : Pool.Reach svc.program P c c') (hlater : c.tasks.length ≤ tid) :
    (⟨Op.selectChain r.jwtUuid, Except.ok none⟩ : Event (jwtSig K))
      ∉ eventsOf c'.history tid := by
  have hall := hc.invariant (I := fun c' : JwtPool svc => r ∈ c'.shared.metadata
    ∧ ∀ tid, c.tasks.length ≤ tid →
      (tid, (⟨Op.selectChain r.jwtUuid, Except.ok none⟩ : Event (jwtSig K))) ∉ c'.history) ?_ ?_
  · exact fun hmem => hall.2 tid hlater (mem_eventsOf.mp hmem)
  -- The tasks of the history so far are older than the query.
  · refine ⟨hr, fun tid hlater hmem => ?_⟩
    have hlt := h₀ _ hmem
    simp only at hlt
    omega
  · rintro c₁ l c₂ - - hn ⟨hrow, hnot⟩
    have hrow' : r ∈ c₂.shared.metadata := (grows_of_next hn).metadata.subset hrow
    refine ⟨hrow', fun tid hlater hmem => ?_⟩
    cases hn with
    | spawn req => exact hnot tid hlater hmem
    | cancel tid' req o k htask => exact hnot tid hlater hmem
    | env e s henv => exact hnot tid hlater hmem
    | step tid' ch req o k a s htask hexec =>
        rcases List.mem_append.mp hmem with hold | hnew
        · exact hnot tid hlater hold
        · have heq := congrArg Prod.snd (List.mem_singleton.mp hnew)
          have hop : o = .selectChain r.jwtUuid := (congrArg Event.op heq).symm
          subst hop
          have heff : Store.Effect svc.signer tid' c₁.shared (.selectChain r.jwtUuid) a s :=
            Store.exec_effect hexec
          have ha : a = Except.ok none := by
            injection heq with _ hresp
            exact hresp.symm
          -- The row is still there, so the query has something to return.
          obtain ⟨row, hsome⟩ := Store.chainRow_isSome hrow
          cases heff with
          | selectChain =>
              rw [hsome] at ha
              cases ha
          | query _ _ hq => exact hq.elim
          | failed _ _ he =>
              obtain ⟨e, rfl⟩ := he
              cases ha

/-- The rows of a jti are those of the task that drew it. -/
theorem rows_of_jti (h₀ : s₀.Idle) (hempty : s₀.metadata = []) (h : JwtReach svc P s₀ c)
    {r r' : MetadataRow} (hr : r ∈ c.shared.metadata) (hr' : r' ∈ c.shared.metadata)
    (hjti : r.jwtUuid = r'.jwtUuid) : r.xmin = r'.xmin := by
  obtain ⟨t, -, ho⟩ := row_origin h₀ hempty h hr
  obtain ⟨t', -, ho'⟩ := row_origin h₀ hempty h hr'
  obtain ⟨_, _, hs⟩ := ho.signed
  obtain ⟨_, _, hs'⟩ := ho'.signed
  exact drawn_unique h (hjti ▸ hs.drawn) hs'.drawn

/-- A finished `generate` is a link. -/
theorem link_generate (h : JwtReach svc P s₀ c)
    {t : Task (jwtSig K) Fault (Response K) (Request K)} (ht : c.tasks[tid]? = some t)
    (hreq : t.req = .generate req) {resp : TokenResponse K}
    (hx : t.result = some (.ok (.token resp))) :
    ∃ aud cl r, svc.resolveAudience req.audience = .ok aud
      ∧ Link c req aud tid resp.token cl r := by
  have hdone := h.result_spec svc.program_spec ht hx
  rw [hreq] at hdone
  obtain ⟨_, heq, g, hvalid, hevents, htoken⟩ := hdone
  cases heq
  have hins : (⟨Op.insertMetadata .pool (g.row svc req), Except.ok ()⟩ : Event (jwtSig K))
      ∈ eventsOf c.history tid := by
    rw [hevents]
    exact List.mem_of_getElem? (i := 4) rfl
  obtain ⟨now, hrow⟩ := (landed h tid _ hins).1 rfl
  refine ⟨g.aud, g.claims svc req, (g.row svc req).stored now tid, hvalid.aud, ?_⟩
  refine ⟨?_, .generate hvalid, rfl, hrow, rfl, rfl⟩
  rw [hevents, htoken]
  exact List.mem_of_getElem? (i := 2) rfl

/-- A finished `extend` of the token of a link is a link. -/
theorem link_extend (laws : DecodeLaws K) (json : K.JsonExact) (uuid : UuidLaws K)
    (h₀ : s₀.Idle) (hempty : s₀.metadata = []) (h : JwtReach svc P s₀ c) {prev : Nat}
    (hlink : Link c req aud prev token cl r) (hc : Pool.Reach svc.program P c c')
    (hlater : c.tasks.length ≤ tid) {t : Task (jwtSig K) Fault (Response K) (Request K)}
    (ht : c'.tasks[tid]? = some t) {minutes : Option Int64}
    (hreq : t.req = .extend ⟨token, minutes⟩) {resp : TokenResponse K}
    (hx : t.result = some (.ok (.token resp))) :
    ∃ cl' r', Link c' req aud tid resp.token cl' r' := by
  have h' := h.trans hc
  have hdone := h'.result_spec svc.program_spec ht hx
  rw [hreq] at hdone
  obtain ⟨_, heq, x, hvalid, hevents, htoken⟩ := hdone
  cases heq
  -- The old claims are those that the link has signed.
  have hold : x.old = cl := by
    have hcl := claimsOf_signed laws json h hlink.sign
    have hx := claimsOf_of_verifyRaw laws rfl (JwtService.verifyRaw_of_verify hvalid.verified)
    rw [hcl] at hx
    exact (Option.some.inj hx).symm
  have hjti : x.oldJti = r.jwtUuid := by
    have hparse := hvalid.jti
    rw [hold, hlink.jti, uuid.parse_text] at hparse
    exact (Option.some.inj hparse).symm
  -- The chain query has found a row, which is the one of the link.
  have hread : (⟨Op.selectChain x.oldJti, Except.ok x.found⟩ : Event (jwtSig K))
      ∈ eventsOf c'.history tid := by
    rw [hevents]
    exact List.mem_of_getElem? (i := 3) rfl
  have hname : x.anc.jwtName = some req.jwtName := by
    cases hf : x.found with
    | none =>
        rw [hf, hjti] at hread
        exact absurd hread (chain_found hlink.row h.history_lt hc hlater)
    | some f =>
        obtain ⟨orig, rowId, name⟩ := f
        rw [hf] at hread
        obtain ⟨q, hq, hqjti, -, -, hqname⟩ := chain_read h' hread
        have hrow := (tables_grow hc).metadata.subset hlink.row
        have htid := rows_of_jti h₀ hempty h' hq hrow (hqjti.trans hjti)
        have hcols := rows_of_task h₀ hempty h' hq hrow htid
        rw [JwtService.Source.anc, hf]
        show name = some req.jwtName
        rw [← hqname, hcols]
        exact hlink.name
  have hins : (⟨Op.insertMetadata .tx (x.row svc), Except.ok ()⟩ : Event (jwtSig K))
      ∈ eventsOf c'.history tid := by
    rw [hevents]
    exact List.mem_of_getElem? (i := 8) rfl
  have hcommitted : Committed c'.history tid := by
    refine ⟨⟨Op.commit, Except.ok ()⟩, ?_, rfl⟩
    rw [hevents]
    exact List.mem_of_getElem? (i := 10) rfl
  obtain ⟨now, hrow⟩ := ((landed h' tid _ hins).2 rfl).2 hcommitted
  refine ⟨x.claims svc, (x.row svc).stored now tid, ?_⟩
  refine ⟨?_, .extend hvalid (hold ▸ hlink.claims), rfl, hrow, rfl, hname⟩
  rw [hevents, htoken]
  exact List.mem_of_getElem? (i := 5) rfl

/-- A link belongs to a task of the run. -/
theorem Link.lt (h : JwtReach svc P s₀ c) (hlink : Link c req aud tid token cl r) :
    tid < c.tasks.length := h.history_lt _ (mem_eventsOf.mp hlink.sign)

/-- The token of a link decodes to the claims of the link, at every instant. -/
theorem Link.decodes (laws : DecodeLaws K) (enc : EncodeLaws K) (json : K.JsonExact)
    (h : JwtReach svc P s₀ c) (hlink : Link c req aud tid token cl r) (at_ : DateTime) :
    svc.signer.verify at_ StandardClaims.deserialize token permissiveValidation = .ok cl :=
  JwtService.verify_of_verifyRaw (verifyRaw_of_signed laws enc
    (payload_of_sign laws enc h hlink.sign).1 (claimsOf_signed laws json h hlink.sign) at_ rfl rfl
    fun _ => rfl)

/-- The jti of the token is that of its row. -/
theorem Link.jtiOf (laws : DecodeLaws K) (json : K.JsonExact) (uuid : UuidLaws K)
    (h : JwtReach svc P s₀ c) (hlink : Link c req aud tid token cl r) :
    jtiOf token = some r.jwtUuid := by
  rw [Tim.jtiOf, claimsOf_signed laws json h hlink.sign, Option.bind_some, hlink.jti]
  exact uuid.parse_text _

/-- The columns of every row of a link. -/
theorem Link.columns (h₀ : s₀.Idle) (hempty : s₀.metadata = []) (h : JwtReach svc P s₀ c)
    (hlink : Link c req aud tid token cl r) {q : MetadataRow} (hq : q ∈ c.shared.metadata)
    (htid : q.xmin = tid) :
    q.subject = stringSub req.content ∧ q.jwtName = some req.jwtName
      ∧ q.audience = some (",".intercalate aud) ∧ q.claimKeys = claimKeys cl.extra := by
  have hcols := rows_of_task h₀ hempty h hq hlink.row (htid.trans hlink.task.symm)
  obtain ⟨t, ht, ho⟩ := row_origin h₀ hempty h hlink.row
  obtain ⟨cl', token', hs⟩ := ho.signed
  rw [hlink.task] at ht hs
  have hcl : cl = cl' := hs.unique h ht hlink.sign
  subst hcl
  rw [hcols]
  refine ⟨hs.subject.trans hlink.claims.sub, hlink.name, ?_, hs.keys⟩
  rw [hs.audience, hlink.claims.aud]
  rfl

end Steps

/-! ### Whole lineages -/

section Whole

variable {svc : JwtService K}
  {P : JwtPool svc → Label (jwtMachine svc.signer) (Request K) → Prop} {s₀ : Store}
  {c : JwtPool svc} {req : GenerateRequest} {links : List (Nat × K.Token)}

/-- Every request of a lineage is a link, all with the audience of the first one. -/
theorem Lineage.all_links (laws : DecodeLaws K) (json : K.JsonExact) (uuid : UuidLaws K)
    (h₀ : s₀.Idle) (hempty : s₀.metadata = []) (hl : Lineage svc P s₀ req c links) :
    ∃ aud, svc.resolveAudience req.audience = .ok aud
      ∧ ∀ l ∈ links, ∃ cl r, Link c req aud l.1 l.2 cl r := by
  induction hl with
  | generate hc ht hreq hx =>
      obtain ⟨aud, cl, r, haud, hlink⟩ := link_generate hc ht hreq hx
      refine ⟨aud, haud, fun l hmem => ?_⟩
      rw [List.mem_singleton.mp hmem]
      exact ⟨cl, r, hlink⟩
  | extend hl hc hlater ht hreq hx ih =>
      obtain ⟨aud, haud, hall⟩ := ih
      refine ⟨aud, haud, fun l hmem => ?_⟩
      rcases List.mem_cons.mp hmem with rfl | hmem
      · obtain ⟨cl, r, hlink⟩ := hall _ List.mem_cons_self
        exact link_extend laws json uuid h₀ hempty hl.reach hlink hc hlater ht hreq hx
      · obtain ⟨cl, r, hlink⟩ := hall l hmem
        exact ⟨cl, r, hlink.mono hc⟩

/-- The requests of a lineage are different tasks. -/
theorem Lineage.nodup (laws : DecodeLaws K) (json : K.JsonExact) (uuid : UuidLaws K)
    (h₀ : s₀.Idle) (hempty : s₀.metadata = []) (hl : Lineage svc P s₀ req c links) :
    (links.map Prod.fst).Nodup := by
  induction hl with
  | generate => simp
  | extend hl hc hlater ht hreq hx ih =>
      obtain ⟨aud, -, hall⟩ := hl.all_links laws json uuid h₀ hempty
      rw [List.map_cons, List.nodup_cons]
      refine ⟨fun hmem => ?_, ih⟩
      obtain ⟨l, hlmem, rfl⟩ := List.mem_map.mp hmem
      obtain ⟨cl, r, hlink⟩ := hall l hlmem
      have hlt := hlink.lt hl.reach
      omega

/-- After a `generate` and any number of extensions, every token of the lineage decodes to the
claims that the first request asked for, no jti repeats, and all rows have the same columns. -/
theorem claims_survive (laws : DecodeLaws K) (enc : EncodeLaws K) (json : K.JsonExact)
    (uuid : UuidLaws K) (h₀ : s₀.Idle) (hempty : s₀.metadata = [])
    (hl : Lineage svc P s₀ req c links) :
    ∃ aud extra, svc.resolveAudience req.audience = .ok aud
      ∧ (∀ l ∈ links, ∃ cl, cl.extra = extra ∧ ClaimsFor svc req aud cl
        ∧ (∀ at_, svc.signer.verify at_ StandardClaims.deserialize l.2 permissiveValidation
          = .ok cl)
        ∧ ∃ jti, jtiOf l.2 = some jti ∧ cl.jti = K.uuidText jti)
      ∧ (links.map fun l => jtiOf l.2).Nodup ∧ (links.map Prod.fst).Nodup
      ∧ ∀ l ∈ links, (∃ r ∈ c.shared.metadata, r.xmin = l.1 ∧ jtiOf l.2 = some r.jwtUuid)
        ∧ ∀ r ∈ c.shared.metadata, r.xmin = l.1 →
          r.subject = stringSub req.content ∧ r.jwtName = some req.jwtName
            ∧ r.audience = some (",".intercalate aud) ∧ r.claimKeys = claimKeys extra := by
  have hc := hl.reach
  obtain ⟨aud, haud, hall⟩ := hl.all_links laws json uuid h₀ hempty
  have hnodup := hl.nodup laws json uuid h₀ hempty
  obtain ⟨first, hfirst⟩ : ∃ l, l ∈ links := by
    cases hl with
    | generate => exact ⟨_, List.mem_cons_self⟩
    | extend => exact ⟨_, List.mem_cons_self⟩
  obtain ⟨cl₀, r₀, hlink₀⟩ := hall first hfirst
  refine ⟨aud, cl₀.extra, haud, ?_, ?_, hnodup, ?_⟩
  · intro l hmem
    obtain ⟨cl, r, hlink⟩ := hall l hmem
    exact ⟨cl, hlink.claims.extra_eq hlink₀.claims, hlink.claims, hlink.decodes laws enc json hc,
      r.jwtUuid, hlink.jtiOf laws json uuid hc, hlink.jti⟩
  · -- Two tokens with one jti have rows of one task.
    refine List.pairwise_map.mpr ((List.pairwise_map.mp hnodup).imp_of_mem ?_)
    intro l l' hmem hmem' hne heq
    obtain ⟨cl, r, hlink⟩ := hall l hmem
    obtain ⟨cl', r', hlink'⟩ := hall l' hmem'
    rw [hlink.jtiOf laws json uuid hc, hlink'.jtiOf laws json uuid hc] at heq
    have htid := rows_of_jti h₀ hempty hc hlink.row hlink'.row (Option.some.inj heq)
    rw [hlink.task, hlink'.task] at htid
    exact hne htid
  · intro l hmem
    obtain ⟨cl, r, hlink⟩ := hall l hmem
    refine ⟨⟨r, hlink.row, hlink.task, hlink.jtiOf laws json uuid hc⟩, fun q hq htid => ?_⟩
    rw [← hlink.claims.extra_eq hlink₀.claims]
    exact hlink.columns h₀ hempty hc hq htid

end Whole

namespace Symbolic

def isGenerate : Request symbolic → Bool
  | .generate _ => true
  | _ => false

end Symbolic

open Symbolic in
/-- A generated token and one extension of it. -/
theorem claims_survive_extended :
    ∃ req c l l', Lineage service Pool.Any store req c [l, l'] ∧ jtiOf l.2 ≠ jtiOf l'.2 := by
  let started : JwtPool service → Bool := fun c =>
    decide (c.tasks.length = 1) && c.tasks[0]?.any fun t => isGenerate t.req
  obtain ⟨c₁, h₁, hq₁⟩ := Pool.exists_reach service.program (fun _ _ => true)
    (fun c => started c && (issuedBy 0 c).any fun token =>
      (Pool.run service.program (fun _ _ => true) (startExtend c token)
        (extendRead 1 ⟨3⟩ ++ extendWrite 1 ⟨5⟩)).any fun c' => (issuedBy 1 c').isSome)
    (Pool.init store) generateRun (by decide +kernel)
  obtain ⟨hstart, hissued⟩ := Bool.and_eq_true_iff.mp hq₁
  obtain ⟨hlen, hgen⟩ := Bool.and_eq_true_iff.mp hstart
  have hlen : c₁.tasks.length = 1 := by simpa using hlen
  obtain ⟨token, htok, hrun⟩ := (Option.any_eq_true _ _).mp hissued
  obtain ⟨t, r, ht, hx, rfl⟩ := result_of_issuedBy htok
  obtain ⟨req, hreq⟩ : ∃ req, t.req = .generate req := by
    rw [ht] at hgen
    cases hcase : t.req with
    | generate req => exact ⟨req, rfl⟩
    | _ => simp [isGenerate, hcase] at hgen
  have hc₁ : JwtReach service Pool.Any store c₁ := h₁.mono fun _ _ _ => trivial
  have hfirst : Lineage service Pool.Any store req c₁ [(0, r.token)] :=
    .generate hc₁ ht hreq hx
  obtain ⟨c₂, h₂, hq₂⟩ := Pool.exists_reach service.program (fun _ _ => true)
    (fun c' => (issuedBy 1 c').isSome) (startExtend c₁ r.token) _ hrun
  have h₂ : Pool.Reach service.program Pool.Any (startExtend c₁ r.token) c₂ :=
    h₂.mono fun _ _ _ => trivial
  obtain ⟨token₂, htok₂⟩ := Option.isSome_iff_exists.mp hq₂
  obtain ⟨t₂, r₂, ht₂, hx₂, -⟩ := result_of_issuedBy htok₂
  have hreq₂ : t₂.req = .extend ⟨r.token, none⟩ := by
    have hget : (startExtend c₁ r.token).tasks[1]? = some ⟨.extend ⟨r.token, none⟩,
        some (service.program (.extend ⟨r.token, none⟩))⟩ := by
      rw [← hlen]
      exact List.getElem?_concat_length
    obtain ⟨t', ht', hsame, -⟩ := h₂.task_persists hget
    rw [ht₂] at ht'
    cases ht'
    exact hsame
  have hspawn : Pool.Reach service.program Pool.Any c₁ (startExtend c₁ r.token) :=
    Pool.Reach.refl.tail (.spawn (.extend ⟨r.token, none⟩)) trivial rfl
  have hl : Lineage service Pool.Any store req c₂ [(1, r₂.token), (0, r.token)] :=
    hfirst.extend (hspawn.trans h₂) (by omega) ht₂ hreq₂ hx₂
  obtain ⟨_, _, -, -, hjtis, -⟩ :=
    claims_survive symbolic_decode symbolic_encode symbolic_exact symbolic_uuid store_idle rfl hl
  refine ⟨req, c₂, _, _, hl, ?_⟩
  simpa using hjtis

end Tim
