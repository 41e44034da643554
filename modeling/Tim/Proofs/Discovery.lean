import Tim.Proofs.FlowRuns

/-!
# `Tim.Proofs.Discovery`: plain-HTTP endpoints and the shared discovery cache

`fetch_with` checks a document with the flag of the call that fetches it, and the cache is
keyed by the URL alone. A call with `allow_http = false` therefore gets a document with a
plain-HTTP endpoint exactly through an entry that a call with `allow_http = true` has stored.
`plain_http_served` is a run where this happens. `strict_documents` is the other side: in every
run without such a lookup, a request with `allow_http = false` is handed only documents that
pass `validate_with(false)`.

The proof goes by where a cached document comes from. `discovery_origin` finds the insert of
every entry, and the specification of the inserting request says with which flag the document
was checked.
-/

set_option autoImplicit false

namespace Tim.OAuth

open Tim.Lib

/-! ### The checks on a document -/

namespace Discovery

/-- All endpoints of the document are `https://`. -/
def AllHttps (d : Discovery) : Prop := ∀ f ∈ d.endpoints, startsWith f.2 "https://" = true

instance (d : Discovery) : Decidable d.AllHttps :=
  inferInstanceAs (Decidable (∀ f ∈ d.endpoints, _))

/-- The flag matters only for the endpoints that are not `https://`. -/
theorem validateWith_of_https {d : Discovery} (h : d.AllHttps) (a b : Bool) :
    d.validateWith a = d.validateWith b := by
  have hnone : ∀ allowHttp : Bool,
      (d.endpoints.find? fun f => !startsWith f.2 "https://" && !allowHttp) = none := by
    intro allowHttp
    rw [List.find?_eq_none]
    intro f hf
    simp [h f hf]
  unfold validateWith
  rw [hnone a, hnone b]

/-- Without the flag, only `https://` endpoints pass. -/
theorem allHttps_of_validate {d : Discovery} (h : d.validateWith false = .ok ()) :
    d.AllHttps := by
  unfold validateWith at h
  split at h
  · cases h
  · split at h
    · cases h
    · rename_i hnone
      rw [List.find?_eq_none] at hnone
      intro f hf
      simpa using hnone f hf

end Discovery

section Runs

variable {K : OAuthCrates} {store : SessionStore} {discoveryTtl jwksTtl : Nat}
  {svc : OAuthService K}
  {P : FlowPool store discoveryTtl jwksTtl → FlowLabel store discoveryTtl jwksTtl → Prop}
  {s₀ : State store} {c : FlowPool store discoveryTtl jwksTtl}

/-- Every cached document was inserted by a call of the run. -/
theorem discovery_origin (h : FlowReach svc P s₀ c) (hempty : s₀.discovery = ∅) {url : String}
    {e : Cached Discovery} (he : c.shared.discovery[url]? = some e) :
    ∃ tid, (tid, (⟨Op.discoveryInsert url e.value, ()⟩ : Event oauthSig)) ∈ c.history := by
  have hinv := flow_invariant
    (I := fun s hist => ∀ (url : String) (e : Cached Discovery), s.discovery[url]? = some e →
      ∃ tid, (tid, (⟨Op.discoveryInsert url e.value, ()⟩ : Event oauthSig)) ∈ hist) h ?_ ?_ ?_
  · exact hinv url e he
  · intro url e he
    rw [hempty] at he
    simp at he
  · intro s hist tid o r s' req _ heff hI
    -- Every call but an insert leaves the cache as it is.
    have hkeep : s'.discovery = s.discovery → ∀ (url : String) (e : Cached Discovery),
        s'.discovery[url]? = some e → ∃ tid', (tid', (⟨Op.discoveryInsert url e.value, ()⟩ :
          Event oauthSig)) ∈ hist ++ [(tid, ⟨o, r⟩)] := by
      intro hsame url e he
      rw [hsame] at he
      obtain ⟨tid', hmem⟩ := hI url e he
      exact ⟨tid', List.mem_append_left _ hmem⟩
    cases heff with
    | cached url' doc =>
        intro url e he
        rw [Std.ExtTreeMap.getElem?_insert] at he
        split at he
        · rename_i heq
          cases Std.LawfulEqCmp.eq_of_compare heq
          cases he
          exact ⟨tid, List.mem_append_right _ List.mem_cons_self⟩
        · obtain ⟨tid', hmem⟩ := hI url e he
          exact ⟨tid', List.mem_append_left _ hmem⟩
    | _ => exact hkeep rfl
  · intro s hist s' henv hI url e he
    exact hI url e (henv.discovery url e he)

/-- A request that inserted a document had checked it with its own flag. -/
theorem insert_checked (h : FlowReach svc P s₀ c) {tid : Nat}
    {t : Task oauthSig Fault Response Request} {url : String} {doc : Discovery}
    (ht : c.tasks[tid]? = some t)
    (hmem : (tid, (⟨Op.discoveryInsert url doc, ()⟩ : Event oauthSig)) ∈ c.history) :
    ∃ allowHttp, svc.allowHttpOf t.req = some allowHttp
      ∧ doc.validateWith allowHttp = .ok () := by
  obtain ⟨h₁, h₂, hsplit⟩ := List.append_of_mem (mem_eventsOf.mpr hmem)
  exact h.event_spec svc.program_spec ht hsplit

/-! ### Lookups that are not served plain HTTP -/

/-- The step looks a URL up for a request with `allow_http = false`, while the cache holds a
live document with a plain-HTTP endpoint under it that a request with `allow_http = true` has
stored. -/
def ServesPlainHttp (svc : OAuthService K) (c : FlowPool store discoveryTtl jwksTtl) :
    FlowLabel store discoveryTtl jwksTtl → Prop
  | .step tid _ => ∃ req url k e, c.tasks[tid]? = some ⟨req, some (.op (.discoveryGet url) k)⟩
      ∧ svc.allowHttpOf req = some false
      ∧ c.shared.discovery[url]? = some e ∧ e.live discoveryTtl c.shared.clock = true
      ∧ ¬ e.value.AllHttps
      ∧ ∃ tid' t', (tid', (⟨Op.discoveryInsert url e.value, ()⟩ : Event oauthSig)) ∈ c.history
        ∧ c.tasks[tid']? = some t' ∧ svc.allowHttpOf t'.req = some true
  | _ => False

/-- The guard of the runs without such a lookup. -/
def NoPlainHttp (svc : OAuthService K) (c : FlowPool store discoveryTtl jwksTtl)
    (l : FlowLabel store discoveryTtl jwksTtl) : Prop := ¬ ServesPlainHttp svc c l

/-- In such a run, the cache hands a request with `allow_http = false` only documents that
pass the strict check. -/
theorem strict_lookup (h : FlowReach svc (NoPlainHttp svc) s₀ c) (hempty : s₀.discovery = ∅) :
    ∀ tid t url doc, c.tasks[tid]? = some t → svc.allowHttpOf t.req = some false →
      (tid, (⟨Op.discoveryGet url, some doc⟩ : Event oauthSig)) ∈ c.history →
      doc.validateWith false = .ok () := by
  refine h.invariant (I := fun c => ∀ tid t url doc, c.tasks[tid]? = some t →
      svc.allowHttpOf t.req = some false →
      (tid, (⟨Op.discoveryGet url, some doc⟩ : Event oauthSig)) ∈ c.history →
      doc.validateWith false = .ok ()) (by simp [Pool.init]) ?_
  intro c l c' hr hP hn ih tid t url doc ht hflag hmem
  -- An older event: the task had the same request before the step.
  have hold : (tid, (⟨Op.discoveryGet url, some doc⟩ : Event oauthSig)) ∈ c.history →
      doc.validateWith false = .ok () := by
    intro hmem
    obtain ⟨t', ht', hreq⟩ := hn.req_of_event (hr.history_lt _ hmem) ht
    exact ih tid t' url doc ht' (by rw [hreq]; exact hflag) hmem
  cases hn with
  | spawn req => exact hold hmem
  | cancel tid' req o k htask => exact hold hmem
  | env e s henv => exact hold hmem
  | step tid' ch req o k r s htask hexec =>
      rcases List.mem_append.mp hmem with hmem | hmem
      · exact hold hmem
      · obtain ⟨rfl, heq⟩ := Prod.mk.inj (List.mem_singleton.mp hmem)
        cases heq
        rw [List.getElem?_set_self (List.getElem?_eq_some_iff.mp htask).1] at ht
        cases ht
        have heff : State.Effect discoveryTtl jwksTtl tid c.shared (.discoveryGet url)
            (some doc) s :=
          State.exec_effect hexec
        cases heff with
        | found _ e he hlive =>
            obtain ⟨tid', hins⟩ := discovery_origin hr hempty he
            obtain ⟨t', ht'⟩ := hr.task_of_event hins
            obtain ⟨allowHttp, hflag', hvalid⟩ := insert_checked hr ht' hins
            cases allowHttp with
            | false => exact hvalid
            | true =>
                -- The guard leaves only documents without a plain-HTTP endpoint here.
                have hhttps : e.value.AllHttps := by
                  by_contra hnot
                  exact hP ⟨req, url, k, e, htask, hflag, he, hlive, hnot, tid', t', hins, ht',
                    hflag'⟩
                rw [Discovery.validateWith_of_https hhttps false true]
                exact hvalid

/-- In every run without a lookup that is served a document with a plain-HTTP endpoint, stored
by a request that allows it: what `fetch_with(url, false)` returns passes `validate_with(false)`
and has only `https://` endpoints. The same holds of every document that a login or a callback
of a provider without `allow_http_discovery` takes from the cache or puts there. -/
theorem strict_documents (h : FlowReach svc (NoPlainHttp svc) s₀ c) (hempty : s₀.discovery = ∅)
    {tid : Nat} {t : Task oauthSig Fault Response Request} (ht : c.tasks[tid]? = some t)
    (hflag : svc.allowHttpOf t.req = some false) (doc : Discovery)
    (hdoc : (∃ url, t.req = .fetchWith url false ∧ t.result = some (.ok (.discovery doc)))
      ∨ ∃ url, (tid, (⟨Op.discoveryGet url, some doc⟩ : Event oauthSig)) ∈ c.history
        ∨ (tid, (⟨Op.discoveryInsert url doc, ()⟩ : Event oauthSig)) ∈ c.history) :
    doc.validateWith false = .ok () ∧ doc.AllHttps := by
  have hown : ∀ url, (tid, (⟨Op.discoveryGet url, some doc⟩ : Event oauthSig)) ∈ c.history
      ∨ (tid, (⟨Op.discoveryInsert url doc, ()⟩ : Event oauthSig)) ∈ c.history →
      doc.validateWith false = .ok () := by
    rintro url (hget | hins)
    · exact strict_lookup h hempty tid t url doc ht hflag hget
    · obtain ⟨allowHttp, hflag', hvalid⟩ := insert_checked h ht hins
      cases hflag.symm.trans hflag'
      exact hvalid
  have hvalid : doc.validateWith false = .ok () := by
    rcases hdoc with ⟨url, hreq, hres⟩ | ⟨url, hev⟩
    · have hdone := h.result_spec svc.program_spec ht hres
      rw [hreq] at hdone
      rcases hdone doc rfl with hget | ⟨-, -, hchecked, -⟩
      · exact hown url (.inl (mem_eventsOf.mp hget))
      · exact hchecked
    · exact hown url hev
  exact ⟨hvalid, Discovery.allHttps_of_validate hvalid⟩

end Runs

/-! ### Sample runs -/

/-- The document that a finished `fetch_with(url, false)` of the pool has returned. -/
def strictResult {store : SessionStore} {discoveryTtl jwksTtl : Nat} (tid : Nat)
    (c : FlowPool store discoveryTtl jwksTtl) : Option Discovery :=
  (c.tasks[tid]?).bind fun t => match t.req, t.result with
    | .fetchWith _ false, some (.ok (.discovery doc)) => some doc
    | _, _ => none

/-- A task with a strict result is a finished fetch that asked for `https`. -/
theorem task_of_strictResult {store : SessionStore} {discoveryTtl jwksTtl tid : Nat}
    {c : FlowPool store discoveryTtl jwksTtl} {doc : Discovery}
    (h : strictResult tid c = some doc) :
    ∃ t url, c.tasks[tid]? = some t ∧ t.req = .fetchWith url false
      ∧ t.result = some (.ok (.discovery doc)) := by
  obtain ⟨t, ht, hdoc⟩ := Option.bind_eq_some_iff.mp h
  split at hdoc
  · rename_i url doc' hreq hres
    cases hdoc
    exact ⟨t, url, ht, hreq, hres⟩
  · cases hdoc

open Symbolic Sample in
/-- A call with `allow_http = true` stores a document with plain-HTTP endpoints, and the next
call with `allow_http = false` returns it. -/
theorem plain_http_served :
    ∃ c t url doc, FlowReach flow Pool.Any flowStart c ∧ (c : SamplePool).tasks[1]? = some t
      ∧ t.req = .fetchWith url false ∧ t.result = some (.ok (.discovery doc))
      ∧ doc.validateWith false ≠ .ok () ∧ ¬ doc.AllHttps := by
  obtain ⟨c, h, hq⟩ := Pool.exists_reach flow.program (fun _ _ => true)
    (fun c : SamplePool => (strictResult 1 c).any fun doc : Discovery => !decide doc.AllHttps)
    (Pool.init flowStart)
    [.spawn (.fetchWith documentUrl true), .step 0 .go, answers 0 "http-document", .step 0 .go,
     .spawn (.fetchWith documentUrl false), .step 1 .go] (by decide +kernel)
  have h : FlowReach flow Pool.Any flowStart c := h.mono fun _ _ _ => trivial
  obtain ⟨doc, hdoc, hplain⟩ := (Option.any_eq_true _ _).mp hq
  have hplain : ¬ doc.AllHttps := by simpa using hplain
  obtain ⟨t, url, ht, hreq, hres⟩ := task_of_strictResult hdoc
  exact ⟨c, t, url, doc, h, ht, hreq, hres,
    fun hvalid => hplain (Discovery.allHttps_of_validate hvalid), hplain⟩

open Symbolic Sample in
/-- A call with `allow_http = false` on its own gets an `https://` document. -/
theorem strict_documents_sample :
    ∃ c doc, FlowReach flow (NoPlainHttp flow) flowStart c
      ∧ strictResult 0 (c : SamplePool) = some doc
      ∧ doc.validateWith false = .ok () ∧ doc.AllHttps := by
  obtain ⟨c, h, hq⟩ := Pool.exists_reach flow.program
    (fun c _ => (c : SamplePool).history.all fun e => match e.2.op with
      | .discoveryInsert _ _ => false
      | _ => true)
    (fun c : SamplePool => (strictResult 0 c).isSome) (Pool.init flowStart)
    [.spawn (.fetchWith documentUrl false), .step 0 .go, answers 0 "https-document", .step 0 .go]
    (by decide +kernel)
  -- No step of this run comes after an insert, so none is served from the cache.
  have h : FlowReach flow (NoPlainHttp flow) flowStart c := by
    refine h.mono fun c l hall hserve => ?_
    cases l with
    | step tid ch =>
        obtain ⟨_, _, _, _, -, -, -, -, -, _, _, hmem, -⟩ := hserve
        have := List.all_eq_true.mp hall _ hmem
        cases this
    | _ => exact hserve
  obtain ⟨doc, hdoc⟩ := Option.isSome_iff_exists.mp hq
  obtain ⟨t, url, ht, hreq, hres⟩ := task_of_strictResult hdoc
  have hflag : flow.allowHttpOf t.req = some false := by
    rw [hreq]
    rfl
  exact ⟨c, doc, h, hdoc, strict_documents h rfl ht hflag doc (.inl ⟨url, hreq, hres⟩)⟩

end Tim.OAuth
