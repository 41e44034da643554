import Tim.Model.Symbolic
import Tim.Proofs.Runs

/-!
# `Tim.Proofs.Revocation`: a revoked token stays revoked

Two results about whole runs of the service.

A revocation is permanent: a denylist row is never changed or removed, at most one request
ever reports to have added it, and whoever looks the jti up afterwards refuses the token.

A token is consumed at most once, where an `extend` consumes its source token. This does not
hold of every run. `extend` inserts with `ON CONFLICT DO NOTHING` and does not look at the
number of rows, so an `extend` whose insert finds the row of another request goes on and
returns a token as well. It holds of the runs in which every insert of an `extend` finds its
key free.

* `wins_le_one`, `reports_le_one`: a jti is entered once, and reported as new once.
* `lookup_spec`, `later_lookups`: every operation looks the jti up, and a lookup after the row finds
  it.
* `revocation_permanent`: the revoked token is refused by all of them.
* `consumed_once`, `extend_twice`: the runs in which a token is consumed once, and one in which it
  is not.
-/

set_option autoImplicit false

namespace Tim

open Tim.Lib Tim.Lib.Prog

variable {K : Crates}

/-! ### The jti of a token -/

/-- The claims that a token carries. -/
def claimsOf (token : K.Token) : Option StandardClaims :=
  (K.payload token).bind StandardClaims.deserialize

/-- The jti that a token carries. -/
def jtiOf (token : K.Token) : Option Uuid :=
  (claimsOf token).bind fun c => K.parseUuid c.jti

/-- A token that verifies gives the claims it carries. -/
theorem claimsOf_of_verifyRaw (laws : DecodeLaws K) {s : JwtSigner K} {at_ : DateTime}
    {token : K.Token} {v : Validation} {c : StandardClaims} (hv : v.validateAud = false)
    (h : s.verifyRaw at_ StandardClaims.deserialize token v = .ok c) :
    claimsOf token = some c := by
  obtain ⟨key, -, -, hok⟩ := JwtSigner.verifies_of_verifyRaw laws h
  obtain ⟨-, -, p, hp, hde, -⟩ := (laws.ok_iff _ token _ v _ c hv).mp hok
  unfold claimsOf
  rw [hp]
  exact hde

/-- The jti that a token carries is that of its payload, whichever validation has read it. -/
theorem jtiOf_of_carries (laws : DecodeLaws K) {svc : JwtService K} {token : K.Token}
    {v : Validation} {jti : Uuid} (hv : v.validateAud = false)
    (h : svc.Carries v token jti) : jtiOf token = some jti := by
  obtain ⟨at_, claims, hverify, hjti⟩ := h
  unfold jtiOf
  rw [claimsOf_of_verifyRaw laws hv hverify]
  exact hjti

/-! ### Reports of a new revocation -/

/-- How often the result of a request reports that it has newly revoked `jti`. -/
def newlyRevoked (jti : Uuid) : Request K → Except Fault (Response K) → Nat
  | .revoke token _, .ok (.revoked true) => if jtiOf token = some jti then 1 else 0
  | .revokeByJti jti' _, .ok (.revokedByJti (some true)) => if jti' = jti then 1 else 0
  | .bulkRevoke _, .ok (.bulkRevoke r) =>
      r.results.countP fun i => i.status = "revoked" ∧ jtiOf i.token = some jti
  | _, _ => 0

/-- The reports of a task so far. -/
def reports (jti : Uuid) (t : Task (jwtSig K) Fault (Response K) (Request K)) : Nat :=
  match t.result with
  | some x => newlyRevoked jti t.req x
  | none => 0

/-- The event is an insert on the pool that added the row of `jti`. -/
def isWin (jti : Uuid) : Event (jwtSig K) → Bool
  | ⟨.insertDenylist .pool jti' _ _, .ok n⟩ => decide (jti' = jti) && n == 1
  | _ => false

/-- The reports in the result of a program are at most the inserts among its events. -/
def ReportDone (jti : Uuid) (req : Request K) (h : List (Event (jwtSig K)))
    (x : Except Fault (Response K)) : Prop :=
  newlyRevoked jti req x ≤ h.countP (isWin jti)

/-- A `true` of `revoke` stands for one successful insert, which is the one of this call. -/
theorem revoke_report (laws : DecodeLaws K) (svc : JwtService K) (jti : Uuid) (token : K.Token)
    (reason : Option String) (h₀ : List (Event (jwtSig K))) :
    Spec (fun _ o => JwtService.Plain o)
      (fun h x => h₀.countP (isWin jti)
        + (if x = .ok true ∧ jtiOf token = some jti then 1 else 0) ≤ h.countP (isWin jti)) h₀
      (svc.revoke token reason) := by
  refine (svc.revoke_spec token reason h₀).mono (fun _ _ hφ => hφ) ?_
  rintro h x ⟨hpre, hdone⟩
  have hle : h₀.countP (isWin jti) ≤ h.countP (isWin jti) := hpre.sublist.countP_le
  by_cases hx : x = .ok true ∧ jtiOf token = some jti
  · rw [if_pos hx]
    obtain ⟨at_, claims, jti', exp, hverify, hjti, rfl⟩ := hdone hx.1
    have hsame := jtiOf_of_carries laws rfl ⟨at_, claims, hverify, hjti⟩
    rw [hx.2] at hsame
    cases hsame
    rw [List.countP_append, List.countP_append]
    simp [isWin]
  · rw [if_neg hx]
    exact hle

/-- A request that never reports a revocation needs no insert. -/
theorem silent_report {jti : Uuid} {req : Request K} (hsilent : ∀ x, newlyRevoked jti req x = 0)
    (p : Action K (Response K)) : p.Spec (fun _ _ => True) (ReportDone jti req) [] := by
  refine ((meets_any p).spec []).mono (fun _ _ _ => trivial) ?_
  intro h x _
  unfold ReportDone
  rw [hsilent x]
  exact Nat.zero_le _

/-- A `some true` of a revocation by jti stands for a successful insert of it. -/
theorem revokeByJti_report (jti jti' : Uuid) (reason : Option String) :
    Spec (fun _ _ => True)
      (fun h x => (if x = .ok (some true) ∧ jti' = jti then 1 else 0) ≤ h.countP (isWin jti)) []
      (JwtService.revokeByJti jti' reason : Action K (Option Bool)) := by
  refine (JwtService.revokeByJti_spec jti' reason).mono (fun _ _ _ => trivial) ?_
  intro h x hdone
  by_cases hx : x = .ok (some true) ∧ jti' = jti
  · rw [if_pos hx]
    obtain ⟨rfl, rfl⟩ := hx
    obtain ⟨exp, rfl⟩ := hdone rfl
    rw [List.countP_append]
    simp [isWin]
  · rw [if_neg hx]
    exact Nat.zero_le _

/-- The items of a bulk response that report a new revocation of `jti`. -/
def reported (jti : Uuid) (items : List (BulkRevokeItem K)) : Nat :=
  items.countP fun i => i.status = "revoked" ∧ jtiOf i.token = some jti

/-- One token of a bulk request adds at most one item, and that only after its own insert. -/
theorem revokeKeeps_report (laws : DecodeLaws K) (svc : JwtService K) (jti : Uuid)
    (reason : Option String) :
    svc.RevokeKeeps reason (fun _ _ => True)
      (fun h acc => reported jti acc.results ≤ h.countP (isWin jti)) := by
  intro tok h acc hI
  refine (revoke_report laws svc jti tok reason h).mono (fun _ _ _ => trivial) ?_
  intro h' x hle acc' htrue hother
  by_cases hx : x = .ok true
  · rw [htrue hx]
    show reported jti (acc.results ++ [_]) ≤ _
    have hone : reported jti [(⟨tok, "revoked", none⟩ : BulkRevokeItem K)]
        = if x = .ok true ∧ jtiOf tok = some jti then 1 else 0 := by
      simp [reported, hx, List.countP_cons]
    unfold reported at hI hone ⊢
    rw [List.countP_append, hone]
    exact Nat.le_trans (Nat.add_le_add_right hI _) hle
  · obtain ⟨status, why, hstatus, heq⟩ := hother hx
    rw [heq]
    show reported jti (acc.results ++ [_]) ≤ _
    have hnone : reported jti [(⟨tok, status, why⟩ : BulkRevokeItem K)] = 0 := by
      simp [reported, hstatus]
    unfold reported at hI hnone ⊢
    rw [List.countP_append, hnone]
    exact Nat.le_trans hI (Nat.le_trans (Nat.le_add_right _ _) hle)

/-- The same for every request, so that reports are counted by inserts. -/
theorem report_spec (laws : DecodeLaws K) (svc : JwtService K) (jti : Uuid) (req : Request K) :
    (svc.program req).Spec (fun _ _ => True) (ReportDone jti req) [] := by
  have hzero : ∀ (h : List (Event (jwtSig K))), 0 ≤ h.countP (isWin jti) := fun _ => Nat.zero_le _
  cases req with
  | revoke token reason =>
      refine spec_map ((revoke_report laws svc jti token reason []).mono (fun _ _ _ => trivial)
        (fun _ _ hψ => hψ)) ?_ (fun h _ _ => hzero h)
      intro h newly hle
      cases newly with
      | false => exact hzero h
      | true =>
          show (if jtiOf token = some jti then 1 else 0) ≤ _
          simpa using hle
  | revokeByJti jti' reason =>
      refine spec_map (revokeByJti_report jti jti' reason) ?_ (fun h _ _ => hzero h)
      intro h r hle
      cases r with
      | none => exact hzero h
      | some newly =>
          cases newly with
          | false => exact hzero h
          | true =>
              show (if jti' = jti then 1 else 0) ≤ _
              simpa using hle
  | bulkRevoke req =>
      exact spec_map (svc.bulkRevoke_spec req (revokeKeeps_report laws svc jti req.reason)
        (Nat.zero_le _)) (fun h r hψ => hψ r rfl) (fun h _ _ => hzero h)
  | _ => exact silent_report (fun _ => rfl) _

section Runs

variable {svc : JwtService K}
  {P : JwtPool svc → Label (jwtMachine svc.signer) (Request K) → Prop} {s₀ : Store}
  {c : JwtPool svc}

/-- One insert at most adds the row of a jti, and then the row is there. -/
theorem wins_le_one (h : JwtReach svc P s₀ c) (jti : Uuid) :
    (c.history.countP fun e => isWin jti e.2) ≤ 1
      ∧ (0 < (c.history.countP fun e => isWin jti e.2) →
        ∃ r ∈ c.shared.denylist, r.jwtUuid = jti) := by
  refine store_invariant svc.program_spec
    (I := fun s hist => (hist.countP fun e => isWin jti e.2) ≤ 1
      ∧ (0 < (hist.countP fun e => isWin jti e.2) → ∃ r ∈ s.denylist, r.jwtUuid = jti))
    h ?_ ?_ ?_ ?_
  · exact ⟨Nat.zero_le _, fun hpos => by cases hpos⟩
  · rintro s hist tid o r s' req - he ⟨hle, hrow⟩
    rw [List.countP_append, List.countP_singleton]
    have hrow' : 0 < (hist.countP fun e => isWin jti e.2) → ∃ q ∈ s'.denylist, q.jwtUuid = jti := by
      intro hpos
      obtain ⟨q, hq, hkey⟩ := hrow hpos
      exact ⟨q, he.grows.denylist.subset hq, hkey⟩
    cases hwin : isWin jti (⟨o, r⟩ : Event (jwtSig K)) with
    | false => exact ⟨by simpa [hwin] using hle, by simpa [hwin] using hrow'⟩
    | true =>
        -- The insert found the key free, so no insert before it had added the row.
        cases he with
        | insertDenylist conn jti' exp reason tx hown hfree hother =>
            cases conn with
            | tx => cases hwin
            | pool =>
                have hjti : jti' = jti := by simpa [isWin] using hwin
                subst hjti
                cases hown
                have hzero : (hist.countP fun e => isWin jti' e.2) = 0 := by
                  by_contra hne
                  obtain ⟨q, hq, hkey⟩ := hrow (Nat.pos_of_ne_zero hne)
                  exact hfree q (List.mem_append_left _ hq) hkey
                rw [hzero]
                refine ⟨by simp, fun _ => ?_⟩
                exact ⟨.stored jti' exp reason s.clock tid, by simp [Store.write], rfl⟩
        | conflict conn jti' exp reason tx hown hmem =>
            cases conn with
            | tx => cases hwin
            | pool => simp [isWin] at hwin
        | query o r hq => cases o <;> first | exact hq.elim | cases hwin
        | failed o r hf =>
            cases o with
            | insertDenylist conn jti' exp reason =>
                obtain ⟨e, rfl⟩ := hf
                cases conn <;> cases hwin
            | _ => first | exact hf.elim | cases hwin
        | _ => cases hwin
  · intro s hist tid hI
    simpa using hI
  · intro s hist t hI
    exact hI

/-- Over the whole run a new revocation of a jti is reported at most once. -/
theorem reports_le_one (laws : DecodeLaws K) (h : JwtReach svc P s₀ c) (jti : Uuid) :
    (c.tasks.map (reports jti)).sum ≤ 1 := by
  refine Nat.le_trans (Pool.sum_tasks_le (p := isWin jti) c.tasks ?_) (wins_le_one h jti).1
  intro tid t ht
  unfold reports
  cases hx : t.result with
  | none => exact Nat.zero_le _
  | some x => exact h.result_spec (report_spec laws svc jti) ht hx

/-! ### Lookups after a revocation -/

end Runs

/-- The token that a request looks up, with the checks it has to pass before. -/
def lookedUp : Request K → Option (K.Token × Validation)
  | .validate req => some (req.token, permissiveValidation)
  | .introspect req => some (req.token, permissiveValidation)
  | .authenticateBearer token => some (token, bearerValidation)
  | .extend req => some (req.token, permissiveValidation)
  | _ => none

/-- The result of a request whose lookup found the jti in the denylist. -/
def Refused : Request K → Except Fault (Response K) → Prop
  | .validate _, x => ∃ c, x = .ok (.validate (responseFrom c true false "revoked"))
  | .introspect _, x => x = .ok (.introspect .inactive)
  | .authenticateBearer _, x => x = .error (.err .unauthorized)
  | .extend _, x => x = .error (.err (.unprocessable "token already revoked"))
  | _, _ => False

/-- The result of a request accepts the token. -/
def Accepted : Request K → Except Fault (Response K) → Prop
  | .validate _, .ok (.validate r) => r.active = true
  | .introspect _, .ok (.introspect r) => r.active = true
  | .authenticateBearer _, .ok _ => True
  | .extend _, .ok _ => True
  | _, _ => False

/-- The calls of a request around its lookup. A request that accepts no token makes none. -/
def LookupCalls (req : Request K) (h : List (Event (jwtSig K))) (o : Op) : Prop :=
  match lookedUp req with
  | some _ => ∀ l ∈ JwtService.lookups h, l.2 = .ok false
  | none => ∀ jti, o ≠ .selectDenylist jti

/-- The result of a request by its lookup. -/
def LookupResult (svc : JwtService K) (req : Request K) (h : List (Event (jwtSig K)))
    (x : Except Fault (Response K)) : Prop :=
  match lookedUp req with
  | some (token, v) => JwtService.LookupDone svc v token (Refused req) (Accepted req) h x
  | none => True

/-- What a request with a token has looked up before it ends. -/
theorem LookupResult.done {svc : JwtService K} {req : Request K} {h : List (Event (jwtSig K))}
    {x : Except Fault (Response K)} {token : K.Token} {v : Validation}
    (hres : LookupResult svc req h x) (htok : lookedUp req = some (token, v)) :
    JwtService.LookupDone svc v token (Refused req) (Accepted req) h x := by
  unfold LookupResult at hres
  rw [htok] at hres
  exact hres

/-- Wrapping the value keeps the lookups. -/
theorem lookupDone_map {α β : Type} {svc : JwtService K} {v : Validation} {token : K.Token}
    {revoked accepted : Except Fault α → Prop} {revoked' accepted' : Except Fault β → Prop}
    {x : Except Fault α} {y : Except Fault β} {h : List (Event (jwtSig K))}
    (hd : JwtService.LookupDone svc v token revoked accepted h x)
    (hrev : revoked x → revoked' y) (hacc : accepted' y → accepted x)
    (herr : ∀ e, x = .error e → y = .error e) :
    JwtService.LookupDone svc v token revoked' accepted' h y := by
  unfold JwtService.LookupDone at hd ⊢
  split at hd
  · exact fun hy => hd (hacc hy)
  · exact ⟨hd.1, hrev hd.2⟩
  · exact hd
  · exact ⟨hd.1, herr _ hd.2⟩
  · exact hd

/-- A program that failed has accepted nothing, whatever its value would have been wrapped in. -/
theorem lookupDone_error {α β : Type} {svc : JwtService K} {v : Validation} {token : K.Token}
    {revoked accepted : Except Fault α → Prop} {revoked' accepted' : Except Fault β → Prop}
    {e : Fault} {h : List (Event (jwtSig K))}
    (hd : JwtService.LookupDone svc v token revoked accepted h (.error e))
    (hrev : revoked (.error e) → revoked' (.error e)) (hacc : ¬ accepted' (.error e)) :
    JwtService.LookupDone svc v token revoked' accepted' h (.error e) := by
  refine lookupDone_map hd hrev (fun hy => absurd hy hacc) ?_
  intro e' he
  cases he
  rfl

/-- A program that returned has not failed. -/
theorem lookupDone_ok {α β : Type} {svc : JwtService K} {v : Validation} {token : K.Token}
    {revoked accepted : Except Fault α → Prop} {revoked' accepted' : Except Fault β → Prop}
    {a : α} {b : β} {h : List (Event (jwtSig K))}
    (hd : JwtService.LookupDone svc v token revoked accepted h (.ok a))
    (hrev : revoked (.ok a) → revoked' (.ok b)) (hacc : accepted' (.ok b) → accepted (.ok a)) :
    JwtService.LookupDone svc v token revoked' accepted' h (.ok b) := by
  refine lookupDone_map hd hrev hacc ?_
  intro e he
  cases he

/-- Every request with a token looks up its jti, and ends as the lookup says. -/
theorem lookup_spec (svc : JwtService K) (req : Request K) :
    (svc.program req).Spec (LookupCalls req) (LookupResult svc req) [] := by
  -- A program that revokes or lists makes no lookup.
  have hplain : ∀ {α : Type} {p : Action K α} {ψ} {f : α → Response K} {req : Request K},
      lookedUp req = none → Spec (fun _ o => JwtService.Plain o) ψ [] p →
      Spec (LookupCalls req) (LookupResult svc req) [] (do return f (← p)) := by
    intro α p ψ f req hreq hp
    have htrue : ∀ h x, LookupResult svc req h x := by
      intro h x
      unfold LookupResult
      rw [hreq]
      trivial
    refine spec_map (hp.mono ?_ (fun _ _ hψ => hψ)) (fun h _ _ => htrue h _)
      (fun h _ _ => htrue h _)
    intro h o ho
    unfold LookupCalls
    rw [hreq]
    rintro jti rfl
    exact ho
  cases req with
  | generate req =>
      refine spec_map ((svc.generate_spec req).mono ?_ (fun _ _ hψ => hψ)) (fun _ _ _ => trivial)
        (fun _ _ _ => trivial)
      rintro h o ho jti rfl
      exact ho
  | revoke token reason => exact hplain rfl (svc.revoke_spec token reason [])
  | revokeByJti jti reason => exact hplain rfl (JwtService.revokeByJti_spec jti reason)
  | bulkRevoke req =>
      have hstep : svc.RevokeKeeps req.reason (fun _ o => JwtService.Plain o) (fun _ _ => True) :=
        fun tok h _ _ => (svc.revoke_spec tok req.reason h).mono (fun _ _ hφ => hφ)
          (fun _ _ _ _ _ _ => trivial)
      exact hplain rfl (svc.bulkRevoke_spec req hstep trivial)
  | listForSubject subject req => exact hplain rfl (JwtService.listForSubject_plain subject req)
  | validate req =>
      refine spec_map ((svc.validate_spec req).mono (fun _ _ hφ => hφ.2) (fun _ _ hψ => hψ)) ?_ ?_
      · intro h r hd
        refine lookupDone_ok hd ?_ (fun hact => ⟨r, rfl, hact⟩)
        rintro ⟨cl, hcl⟩
        cases hcl
        exact ⟨cl, rfl⟩
      · intro h e hd
        refine lookupDone_error hd ?_ id
        rintro ⟨cl, hcl⟩
        cases hcl
  | introspect req =>
      refine spec_map ((svc.introspect_spec req).mono (fun _ _ hφ => hφ.2) (fun _ _ hψ => hψ)) ?_ ?_
      · intro h r hd
        refine lookupDone_ok hd ?_ (fun hact => ⟨r, rfl, hact⟩)
        intro hr
        cases hr
        rfl
      · intro h e hd
        refine lookupDone_error hd ?_ id
        intro hr
        cases hr
  | authenticateBearer token =>
      refine spec_map
        ((svc.authenticateBearer_spec token).mono (fun _ _ hφ => hφ.2) (fun _ _ hψ => hψ)) ?_ ?_
      · intro h sub hd
        refine lookupDone_ok hd ?_ (fun _ => ⟨sub, rfl⟩)
        intro hr
        cases hr
      · intro h e hd
        refine lookupDone_error hd ?_ id
        intro hr
        cases hr
        rfl
  | extend req =>
      refine spec_map ((svc.extend_lookups req).mono (fun _ _ hφ => hφ) (fun _ _ hψ => hψ)) ?_ ?_
      · intro h r hd
        refine lookupDone_ok hd ?_ (fun _ => ⟨r, rfl⟩)
        intro hr
        cases hr
      · intro h e hd
        refine lookupDone_error hd ?_ id
        intro hr
        cases hr
        rfl

/-- A failed request has accepted no token. -/
theorem not_accepted_error {req : Request K} {f : Fault}
    (h : Accepted req (.error f : Except Fault (Response K))) : False := by
  cases req <;> exact h

/-- A refused token is not accepted. -/
theorem not_accepted_of_refused {req : Request K} {x : Except Fault (Response K)}
    (href : Refused req x) (hacc : Accepted req x) : False := by
  cases req with
  | validate req =>
      obtain ⟨cl, rfl⟩ := href
      cases hacc
  | introspect req =>
      cases href
      cases hacc
  | authenticateBearer token =>
      cases href
      exact hacc
  | extend req =>
      cases href
      exact hacc
  | _ => exact href

section Permanent

variable {svc : JwtService K} {s₀ : Store} {c c₁ c₂ c₃ : JwtPool svc} {r : DenylistRow}

/-- A lookup of a denylisted jti does not answer "not denylisted". -/
theorem lookup_hit {tid : Nat} {s s' : Store} {a : Sql Bool} (hr : r ∈ s.denylist)
    (he : Store.Effect svc.signer tid s (.selectDenylist r.jwtUuid) a s') :
    a = .ok true ∨ ∃ e, a = .error e := by
  have hsome : (s.denied r.jwtUuid).isSome = true := Store.denied_isSome.mpr ⟨r, hr, rfl⟩
  obtain ⟨-, ha | ha⟩ := he.selectDenylist_inv
  · rw [hsome] at ha
    exact .inl ha
  · exact .inr ha

/-- A lookup that hits or fails does not answer that the jti is free. -/
theorem hit_ne_false {a : Sql Bool} (ha : a = .ok true ∨ ∃ e, a = .error e) : a ≠ .ok false := by
  rcases ha with rfl | ⟨e, rfl⟩
  · exact nofun
  · exact nofun

/-- The lookups of the requests that started after a row was there all hit it. -/
theorem later_lookups (h₁ : JwtReach svc Pool.Any s₀ c₁) (hr : r ∈ c₁.shared.denylist)
    (h₂ : Pool.Reach svc.program Pool.Any c₁ c₂) {tid : Nat} (hlate : c₁.tasks.length ≤ tid) :
    ∀ l ∈ JwtService.lookups (eventsOf c₂.history tid), l.1 = r.jwtUuid → l.2 ≠ .ok false := by
  refine h₂.invariant (I := fun c => ∀ l ∈ JwtService.lookups (eventsOf c.history tid),
    l.1 = r.jwtUuid → l.2 ≠ .ok false) ?_ ?_
  -- When the row appears the task has not started yet, so it has no events.
  · have hnil : eventsOf c₁.history tid = [] :=
      Pool.eventsOf_eq_nil fun e he => Nat.lt_of_lt_of_le (h₁.history_lt e he) hlate
    rw [hnil]
    exact nofun
  · intro c l c' hreach _ hn hI
    cases hn with
    | spawn req => exact hI
    | cancel tid' req o k htask => exact hI
    | env t s henv => exact hI
    | step tid' ch req o k a s htask hexec =>
        -- Only a lookup of this task adds to the list, and the row is still there to be hit.
        by_cases heq : tid' = tid
        · subst heq
          rw [eventsOf_append_self]
          unfold JwtService.lookups
          rw [List.filterMap_append]
          intro l hl
          rcases List.mem_append.mp hl with hl | hl
          · exact hI l hl
          · obtain ⟨e, he, hl⟩ := List.mem_filterMap.mp hl
            rw [List.mem_singleton.mp he] at hl
            cases o with
            | selectDenylist jti =>
                cases hl
                rintro rfl
                have hmem := (tables_grow hreach).denylist.subset hr
                have heff : Store.Effect svc.signer tid' c.shared (.selectDenylist r.jwtUuid) a s :=
                  Store.exec_effect hexec
                exact hit_ne_false (lookup_hit hmem heff)
            | _ => cases hl
        · rw [eventsOf_append_ne _ _ heq]
          exact hI

/-- A request whose lookup did not answer "not denylisted" is over, and has the result that
the lookup gives. -/
theorem refused_of_lookup (h : JwtReach svc Pool.Any s₀ c) {tid : Nat} {req : Request K}
    {p : Action K (Response K)} (ht : c.tasks[tid]? = some ⟨req, some p⟩)
    (hlook : lookedUp req ≠ none) {l : Uuid × Sql Bool}
    (hl : l ∈ JwtService.lookups (eventsOf c.history tid)) (hne : l.2 ≠ .ok false) :
    ∃ x, (⟨req, some p⟩ : Task (jwtSig K) Fault (Response K) (Request K)).result = some x
      ∧ (l.2 = .ok true → Refused req x)
      ∧ ∀ e, l.2 = .error e → x = .error (.err (.database e)) := by
  have hspec := h.spec (lookup_spec svc) ht rfl
  obtain ⟨⟨token, v⟩, htok⟩ := Option.ne_none_iff_exists'.mp hlook
  have hdone : ∀ x, LookupResult svc req (eventsOf c.history tid) x →
      (l.2 = .ok true → Refused req x) ∧ ∀ e, l.2 = .error e → x = .error (.err (.database e)) := by
    intro x hres
    have hx := hres.done htok
    unfold JwtService.LookupDone at hx
    split at hx
    · rename_i hnil
      rw [hnil] at hl
      cases hl
    · rename_i jti hone
      rw [hone, List.mem_singleton] at hl
      rw [hl]
      exact ⟨fun _ => hx.2, nofun⟩
    · rename_i jti hone
      rw [hone, List.mem_singleton] at hl
      rw [hl] at hne
      exact absurd rfl hne
    · rename_i jti e hone
      rw [hone, List.mem_singleton] at hl
      rw [hl]
      refine ⟨nofun, fun e' he' => ?_⟩
      cases he'
      exact hx.2
    · exact hx.elim
  cases p with
  | ret a => exact ⟨.ok a, rfl, hdone _ hspec⟩
  | raise e => exact ⟨.error e, rfl, hdone _ hspec⟩
  | op o k =>
      -- A further call would need the lookup to have passed.
      have hcall : LookupCalls req (eventsOf c.history tid) o := hspec.1
      unfold LookupCalls at hcall
      rw [htok] at hcall
      exact absurd (hcall l hl) hne

/-- A revocation is permanent. From a state with a denylist row `r` on: the row stays as it is
and is the only one of its jti; a new revocation of the jti is reported at most once in the
whole run; every lookup of the jti ends its request at once, with a refusal, or with the
error of the statement if it failed; and no request that starts from now on accepts a token
with this jti. -/
theorem revocation_permanent (laws : DecodeLaws K) (h₀ : s₀.Idle)
    (h₁ : JwtReach svc Pool.Any s₀ c₁) (hr : r ∈ c₁.shared.denylist)
    (h₂ : Pool.Reach svc.program Pool.Any c₁ c₂) :
    (r ∈ c₂.shared.denylist ∧ ∀ r' ∈ c₂.shared.denylist, r'.jwtUuid = r.jwtUuid → r' = r)
    ∧ (c₂.tasks.map (reports r.jwtUuid)).sum ≤ 1
    ∧ (∀ tid ch req k c₃,
        c₂.tasks[tid]? = some ⟨req, some (.op (.selectDenylist r.jwtUuid) k)⟩ →
        Pool.next svc.program c₂ (.step tid ch) = some c₃ →
        ∃ t x, c₃.tasks[tid]? = some t ∧ t.req = req ∧ t.result = some x
          ∧ (Refused req x ∨ ∃ e, x = .error (.err (.database e))))
    ∧ (∀ tid t x token v, c₁.tasks.length ≤ tid → c₂.tasks[tid]? = some t →
        t.result = some x → lookedUp t.req = some (token, v) → jtiOf token = some r.jwtUuid →
        ¬ Accepted t.req x) := by
  have hreach : JwtReach svc Pool.Any s₀ c₂ := h₁.trans h₂
  have hmem : r ∈ c₂.shared.denylist := (tables_grow h₂).denylist.subset hr
  refine ⟨⟨hmem, fun r' hr' heq => denylist_unique h₀ hreach hr' hmem heq⟩,
    reports_le_one laws hreach _, ?_, ?_⟩
  · intro tid ch req k c₃ ht hn
    have hreach₃ : JwtReach svc Pool.Any s₀ c₃ := .tail _ hreach trivial hn
    -- A request that looks no token up never calls `selectDenylist`.
    have hlook : lookedUp req ≠ none := by
      intro hnone
      have hcall := hreach.call_spec (lookup_spec svc) ht
      unfold LookupCalls at hcall
      rw [hnone] at hcall
      exact hcall r.jwtUuid rfl
    cases Pool.next_cases _ hn with
    | step _ _ req' o' k' a s htask hexec =>
        rw [ht] at htask
        cases htask
        have hlt := (List.getElem?_eq_some_iff.mp ht).1
        have heff : Store.Effect svc.signer tid c₂.shared (.selectDenylist r.jwtUuid) a s :=
          Store.exec_effect hexec
        have hhit := lookup_hit hmem heff
        have hne : a ≠ .ok false := hit_ne_false hhit
        have hset : (c₂.tasks.set tid ⟨req, some (k a)⟩)[tid]? = some ⟨req, some (k a)⟩ :=
          List.getElem?_set_self hlt
        obtain ⟨x, hx, href, herr⟩ := refused_of_lookup hreach₃ hset hlook
          (l := (r.jwtUuid, a)) (by
            rw [eventsOf_append_self]
            unfold JwtService.lookups
            rw [List.filterMap_append]
            exact List.mem_append_right _ (List.mem_singleton_self _)) hne
        refine ⟨_, x, hset, rfl, hx, ?_⟩
        rcases hhit with ha | ⟨e, ha⟩
        · exact .inl (href ha)
        · exact .inr ⟨e, herr e ha⟩
  · intro tid t x token v hlate ht hx htok hjti hacc
    have hres := (hreach.result_spec (lookup_spec svc) ht hx).done htok
    have hlater := later_lookups h₁ hr h₂ hlate
    -- No request that looks a token up checks its audience, so the jti is the token's own.
    have haud : v.validateAud = false := by
      cases hreq : t.req <;> rw [hreq] at htok <;> cases htok <;> rfl
    unfold JwtService.LookupDone at hres
    split at hres
    · exact hres hacc
    · exact not_accepted_of_refused hres.2 hacc
    · rename_i jti hone
      have hsame := jtiOf_of_carries laws haud hres
      rw [hjti] at hsame
      cases hsame
      exact hlater _ (by rw [hone]; exact List.mem_singleton_self _) rfl rfl
    · rw [hres.2] at hacc
      exact not_accepted_error hacc
    · exact hres

end Permanent

/-! ### Consumption -/

/-- The result of a request consumes `jti`: an `extend` that returns a token consumes the jti
of its source token, and the other requests consume what they report as newly revoked. -/
def consumed (jti : Uuid) : Request K → Except Fault (Response K) → Bool
  | .extend req, .ok _ => jtiOf req.token = some jti
  | req, x => 0 < newlyRevoked jti req x

/-- The task has consumed `jti`. -/
def consumes (jti : Uuid) (t : Task (jwtSig K) Fault (Response K) (Request K)) : Bool :=
  t.result.any (consumed jti t.req)

/-- The step is no insert of an `extend` that finds its key taken: before
`INSERT INTO denylist` in a transaction, the jti has no committed row. -/
def insertFindsFree {svc : JwtService K} (c : JwtPool svc) :
    Label (jwtMachine svc.signer) (Request K) → Bool
  | .step tid _ => match c.tasks[tid]? with
      | some ⟨_, some (.op (.insertDenylist .tx jti _ _) _)⟩ => (c.shared.denied jti).isNone
      | _ => true
  | _ => true

/-- Every insert of an `extend` finds its key free. -/
def InsertFindsFree {svc : JwtService K} (c : JwtPool svc)
    (l : Label (jwtMachine svc.signer) (Request K)) : Prop :=
  insertFindsFree c l = true

/-- The rows that an insert into the denylist inside a transaction counted. -/
def txRows : Event (jwtSig K) → Option Nat
  | ⟨.insertDenylist .tx .., .ok n⟩ => some n
  | _ => none

section Consumption

variable {svc : JwtService K} {s₀ : Store} {c : JwtPool svc}

/-- In a run where they find their keys free, the inserts of `extend` all add their row. -/
theorem txRows_eq_one (h₀ : s₀.Idle) (h : JwtReach svc InsertFindsFree s₀ c) :
    ∀ p ∈ c.history, ∀ n, txRows p.2 = some n → n = 1 := by
  refine h.invariant (I := fun c => ∀ p ∈ c.history, ∀ n, txRows p.2 = some n → n = 1)
    (by simp [Pool.init]) ?_
  intro c l c' hr hP hn hI
  cases hn with
  | spawn req => exact hI
  | cancel tid req o k htask => exact hI
  | env t s henv => exact hI
  | step tid ch req o k a s htask hexec =>
      intro p hp n hrows
      rcases List.mem_append.mp hp with hp | hp
      · exact hI p hp n hrows
      · rw [List.mem_singleton.mp hp] at hrows
        cases o with
        | insertDenylist conn jti exp reason =>
            cases conn with
            | pool => cases hrows
            | tx =>
                have heff : Store.Effect svc.signer tid c.shared
                    (.insertDenylist .tx jti exp reason) a s := Store.exec_effect hexec
                cases heff with
                | insertDenylist => exact (Option.some.inj hrows).symm
                | failed _ _ he =>
                    obtain ⟨e, rfl⟩ := he
                    cases hrows
                | query _ _ hq => exact hq.elim
                | conflict _ _ _ _ tx hown hmem =>
                    exfalso
                    have hnone : (c.shared.denied jti).isNone = true := by
                      simpa [InsertFindsFree, insertFindsFree, htask] using hP
                    have hfree := Store.denied_eq_none.mp (Option.isNone_iff_eq_none.mp hnone)
                    obtain ⟨q, hq, hkey⟩ := hmem
                    rcases List.mem_append.mp hq with hq | hq
                    · exact hfree q hq hkey
                    · -- The task has inserted into the denylist before, which `extend` never has.
                      obtain ⟨e, he, hd⟩ := denylist_origin h₀ hr hown hq
                      have hcall := hr.call_spec svc.program_spec htask
                      cases req with
                      | extend req =>
                          obtain ⟨x, -, hx, -⟩ := hcall
                          rw [hx] at he
                          have hnone : (x.metadataEvents svc).any isDenylistTx = false := rfl
                          rw [List.any_eq_false] at hnone
                          exact hnone e he hd
                      | generate req => exact hcall
                      | _ => cases hcall
        | _ => cases hrows

/-- A request that has consumed a jti has put the row of the jti into the denylist itself. -/
theorem consumed_row (laws : DecodeLaws K) (h₀ : s₀.Idle)
    (h : JwtReach svc InsertFindsFree s₀ c) {jti : Uuid} {tid : Nat}
    {t : Task (jwtSig K) Fault (Response K) (Request K)} (ht : c.tasks[tid]? = some t)
    (hc : consumes jti t = true) :
    ∃ r ∈ c.shared.denylist, r.jwtUuid = jti ∧ r.xmin = tid := by
  obtain ⟨x, hx, hcons⟩ := (Option.any_eq_true _ _).mp hc
  have hreport : 0 < newlyRevoked jti t.req x →
      ∃ r ∈ c.shared.denylist, r.jwtUuid = jti ∧ r.xmin = tid := by
    intro hpos
    have hle := h.result_spec (report_spec laws svc jti) ht hx
    obtain ⟨e, he, hwin⟩ := List.countP_pos_iff.mp (Nat.lt_of_lt_of_le hpos hle)
    have hland := (landed h tid e he).1
    unfold isWin at hwin
    split at hwin
    · rename_i jti' exp reason n
      obtain ⟨r, hr, hkey, hxmin⟩ := hland rfl
      have hboth : jti' = jti ∧ n = 1 := by simpa using hwin
      exact ⟨r, hr, hkey.trans hboth.1, hxmin hboth.2⟩
    · cases hwin
  unfold consumed at hcons
  split at hcons
  · rename_i req a hreq
    have hcons : jtiOf req.token = some jti := by simpa using hcons
    have hdone := h.result_spec svc.program_spec ht hx
    rw [hreq] at hdone
    obtain ⟨r, -, x, hvalid, hevents, -⟩ := hdone
    have hjti : jti = x.oldJti := by
      have := jtiOf_of_carries laws rfl
        ⟨x.at_, x.old, JwtService.verifyRaw_of_verify hvalid.verified, hvalid.jti⟩
      rw [hcons] at this
      exact Option.some.inj this
    -- The insert counted one row, and it was committed.
    have hmem : (⟨Op.insertDenylist .tx x.oldJti x.oldExp (some JwtService.supersededReason),
        Except.ok x.rows⟩ : Event (jwtSig K)) ∈ eventsOf c.history tid := by
      rw [hevents]
      exact List.mem_append_left _ (List.mem_append_right _ (List.mem_singleton_self _))
    have hcommitted : Committed c.history tid := by
      refine ⟨⟨Op.commit, Except.ok ()⟩, ?_, rfl⟩
      rw [hevents]
      exact List.mem_append_right _ (List.mem_singleton_self _)
    have hrows : x.rows = 1 := txRows_eq_one h₀ h _ (mem_eventsOf.mp hmem) x.rows rfl
    obtain ⟨q, hq, hkey, hxmin⟩ := ((landed h tid _ hmem).2 rfl).2 hcommitted
    exact ⟨q, hq, hkey.trans hjti.symm, hxmin hrows⟩
  · exact hreport (by simpa using hcons)

/-- At most one request consumes a token, in every run where the inserts of `extend` find
their keys free. -/
theorem consumed_once (laws : DecodeLaws K) (h₀ : s₀.Idle)
    (h : JwtReach svc InsertFindsFree s₀ c) (jti : Uuid) {tid tid' : Nat}
    {t t' : Task (jwtSig K) Fault (Response K) (Request K)} (ht : c.tasks[tid]? = some t)
    (ht' : c.tasks[tid']? = some t') (hc : consumes jti t = true) (hc' : consumes jti t' = true) :
    tid = tid' := by
  obtain ⟨r, hr, hkey, hxmin⟩ := consumed_row laws h₀ h ht hc
  obtain ⟨r', hr', hkey', hxmin'⟩ := consumed_row laws h₀ h ht' hc'
  have hsame : r = r' := denylist_unique h₀ h hr hr' (hkey.trans hkey'.symm)
  rw [← hxmin, ← hxmin', hsame]

end Consumption

/-! ### A run with two extensions of one token -/

namespace Symbolic

/-- A service with one key and no audience policy. -/
def service : JwtService symbolic where
  signer := signer "key.pem" "k1"
  cfg := {
    issuer := "tim"
    audience := { validationEnabled := false, allowed := [], default := "tim-service" }
    maxClaimsBytes := 4096
    bulkRevokeMax := 100 }

/-- Empty tables at second 1000. -/
def store : Store where
  metadata := []
  denylist := []
  txs := ∅
  clock := instant 1000
  used := []
  signed := []

/-- The sample store has no open transaction. -/
theorem store_idle : store.Idle := ⟨rfl, by simp [store], by simp [store]⟩

def request : GenerateRequest where
  jwtName := "session"
  content := .ofList [("sub", Value.string "alice"), ("role", Value.string "admin")]
  expirationInMinutes := 10
  audience := none

/-- The token that `request` gets at second 1000 when its jti is 1. -/
def token : symbolic.Token :=
  ⟨⟨.rs256, some "k1"⟩,
    (service.generateClaims request ["tim-service"] ⟨1⟩ (instant 1000) (instant 1600)).serialize,
    "key.pem"⟩

abbrev RunLabel := Label (jwtMachine service.signer) (Request symbolic)

/-- Task 0 generates the token. -/
def generateRun : List RunLabel :=
  [.spawn (.generate request), .step 0 (.uuid ⟨1⟩), .step 0 .go, .step 0 .go,
   .step 0 (.uuid ⟨2⟩), .step 0 .go]

/-- An extension up to its transaction. -/
def extendRead (tid : Nat) (newJti : Uuid) : List RunLabel :=
  [.step tid .go, .step tid .go, .step tid .go, .step tid .go, .step tid (.uuid newJti),
   .step tid .go]

/-- The transaction of an extension. -/
def extendWrite (tid : Nat) (id : Uuid) : List RunLabel :=
  [.step tid .go, .step tid (.uuid id), .step tid .go, .step tid .go, .step tid .go]

/-- Tasks 1 and 2 extend the same token. Both read before either of them writes. -/
def extendTwiceRun : List RunLabel :=
  generateRun ++ [.spawn (.extend ⟨token, none⟩), .spawn (.extend ⟨token, none⟩)]
    ++ extendRead 1 ⟨3⟩ ++ extendRead 2 ⟨4⟩ ++ extendWrite 1 ⟨5⟩ ++ extendWrite 2 ⟨6⟩

/-- Task 1 extends the token, and task 2 tries to revoke it afterwards. -/
def extendRevokeRun : List RunLabel :=
  generateRun ++ [.spawn (.extend ⟨token, none⟩)] ++ extendRead 1 ⟨3⟩ ++ extendWrite 1 ⟨5⟩
    ++ [.spawn (.revoke token none), .step 2 .go, .step 2 .go]

end Symbolic

open Symbolic in
/-- Two extensions of one token both return a fresh token. -/
theorem extend_twice :
    ∃ c, JwtReach service Pool.Any store c ∧ ∃ t t', c.tasks[1]? = some t ∧ c.tasks[2]? = some t'
      ∧ consumes ⟨1⟩ t = true ∧ consumes ⟨1⟩ t' = true := by
  obtain ⟨c, hreach, hq⟩ := Pool.exists_reach service.program (fun _ _ => true)
    (fun c : JwtPool service => c.tasks[1]?.any (consumes ⟨1⟩) && c.tasks[2]?.any (consumes ⟨1⟩))
    (Pool.init store) extendTwiceRun (by decide +kernel)
  have hboth : c.tasks[1]?.any (consumes ⟨1⟩) = true ∧ c.tasks[2]?.any (consumes ⟨1⟩) = true := by
    simpa using hq
  obtain ⟨t, ht, hc⟩ := (Option.any_eq_true _ _).mp hboth.1
  obtain ⟨t', ht', hc'⟩ := (Option.any_eq_true _ _).mp hboth.2
  exact ⟨c, hreach.mono fun _ _ _ => trivial, t, t', ht, ht', hc, hc'⟩

open Symbolic in
/-- A run that meets the condition: the extension consumes the token, and the revocation after
it does not. -/
theorem consumed_once_extend_revoke :
    ∃ c, JwtReach service InsertFindsFree store c
      ∧ (∃ t, c.tasks[1]? = some t ∧ consumes ⟨1⟩ t = true)
      ∧ ∀ tid t, c.tasks[tid]? = some t → consumes ⟨1⟩ t = true → tid = 1 := by
  obtain ⟨c, hreach, hq⟩ := Pool.exists_reach service.program insertFindsFree
    (fun c : JwtPool service => c.tasks[1]?.any (consumes ⟨1⟩))
    (Pool.init store) extendRevokeRun (by decide +kernel)
  obtain ⟨t, ht, hc⟩ := (Option.any_eq_true _ _).mp hq
  exact ⟨c, hreach, ⟨t, ht, hc⟩, fun tid t' ht' hc' =>
    consumed_once symbolic_decode store_idle hreach ⟨1⟩ ht' ht hc' hc⟩

open Symbolic in
/-- After the extension the old token is denylisted, and a validation that starts then does
not accept it. -/
theorem revocation_permanent_extended :
    ∃ c₁ c₂ r, JwtReach service Pool.Any store c₁ ∧ Pool.Reach service.program Pool.Any c₁ c₂
      ∧ r ∈ c₁.shared.denylist ∧ r ∈ c₂.shared.denylist
      ∧ ∃ t x, c₂.tasks[3]? = some t ∧ t.result = some x ∧ (lookedUp t.req).isSome
        ∧ ¬ Accepted t.req x := by
  let validateRun : List RunLabel :=
    [.spawn (.validate ⟨token, none, none⟩), .step 3 .go, .step 3 .go, .step 3 .go]
  let looked : Task (jwtSig symbolic) Fault (Response symbolic) (Request symbolic) → Bool :=
    fun t => t.result.isSome && (lookedUp t.req).any fun p => jtiOf p.1 = some ⟨1⟩
  obtain ⟨c₁, h₁, hq⟩ := Pool.exists_reach service.program (fun _ _ => true)
    (fun c : JwtPool service => c.shared.denylist.any (fun r => r.jwtUuid = ⟨1⟩)
      && decide (c.tasks.length = 3)
      && (Pool.run service.program (fun _ _ => true) c validateRun).any
        fun c' : JwtPool service => c'.tasks[3]?.any looked)
    (Pool.init store) extendRevokeRun (by decide +kernel)
  simp only [Bool.and_eq_true, decide_eq_true_eq] at hq
  obtain ⟨⟨hden, hlen⟩, hrun⟩ := hq
  obtain ⟨r, hr, hkey⟩ := List.any_eq_true.mp hden
  obtain ⟨c₂, h₂, hq₂⟩ := Pool.exists_reach service.program (fun _ _ => true)
    (fun c' : JwtPool service => c'.tasks[3]?.any looked) c₁ validateRun hrun
  obtain ⟨t, ht, hl⟩ := (Option.any_eq_true _ _).mp hq₂
  simp only [looked, Bool.and_eq_true] at hl
  obtain ⟨x, hx⟩ := Option.isSome_iff_exists.mp hl.1
  obtain ⟨⟨tok, v⟩, htok, hjti⟩ := (Option.any_eq_true _ _).mp hl.2
  have h₁' : JwtReach service Pool.Any store c₁ := h₁.mono fun _ _ _ => trivial
  have h₂' : Pool.Reach service.program Pool.Any c₁ c₂ := h₂.mono fun _ _ _ => trivial
  have main := revocation_permanent symbolic_decode store_idle h₁' hr h₂'
  have hkey' : r.jwtUuid = ⟨1⟩ := by simpa using hkey
  refine ⟨c₁, c₂, r, h₁', h₂', hr, main.1.1, t, x, ht, hx, by rw [htok]; rfl, ?_⟩
  exact main.2.2.2 3 t x tok v (by omega) ht hx htok (by rw [hkey']; simpa using hjti)

end Tim
