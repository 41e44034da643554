import Tim.Model.Boot
import Tim.Proofs.Gates
import Tim.Proofs.Text

/-!
# `Tim.Proofs.AdminGate`: who passes the admin gate

The gate compares what a request presents, with the white space around it taken off, with the value
of its environment variable as it is. What is presented comes from the first of two headers that
`to_str` reads. `adminAuth_eq_ok` says so, and `adminAuth_exact` compares it with a gate that
accepts the secret, up to white space around it, in either header. The two agree on a request that
is `Readable`, and on one that has nothing of the secret. Nobody passes a gate whose secret starts
or ends with white space, or has a character that no header can carry.

* `carries_of_adminAuth`: nobody passes without the secret.
* `newline_secret_refused`: a secret that ends with a line feed opens the gate for nobody.
-/

set_option autoImplicit false

namespace Tim.Web

namespace HttpRequest

variable (req : HttpRequest) (v : String)

/-- One of the two headers carries the secret `v`, up to white space around it. -/
def CarriesSecret : Prop :=
  (∃ text, req.rawHeader "x-tim-admin-token" = some (asBytes text) ∧ trim text = trim v)
  ∨ ∃ text, req.rawHeader "authorization" = some (asBytes ("Bearer " ++ text))
    ∧ trim text = trim v

/-- The secret `v` can be read in the request: it has no white space around it, a header carries
it in characters that `to_str` lets through, and the admin header, if it can be read at all,
does not carry something else. -/
structure Readable : Prop where
  trimmed : trim v = v
  legible : (∃ text, req.header "x-tim-admin-token" = some text ∧ trim text = v)
    ∨ ∃ text, req.header "authorization" = some ("Bearer " ++ text) ∧ trim text = v
  unshadowed : ∀ text, req.header "x-tim-admin-token" = some text → trim text = v

end HttpRequest

variable {req : HttpRequest} {v : String} {gate : AdminGate}

/-- The secret in `X-TIM-Admin-Token` is the header's readable text without the white space around
it. -/
theorem adminHeader_eq (req : HttpRequest) :
    req.adminHeader = some (asBytes v)
      ↔ ∃ text, req.header "x-tim-admin-token" = some text ∧ trim text = v := by
  simp only [HttpRequest.adminHeader, Option.map_eq_some_iff]
  refine exists_congr fun text => and_congr_right fun _ => ?_
  exact ⟨asBytes_injective, congrArg asBytes⟩

/-- The secret in `Authorization` follows `Bearer ` with exactly that spelling, and loses the white
space around it. -/
theorem bearerHeader_eq (req : HttpRequest) :
    req.bearerHeader = some (asBytes v)
      ↔ ∃ text, req.header "authorization" = some ("Bearer " ++ text) ∧ trim text = v := by
  simp only [HttpRequest.bearerHeader, Option.map_eq_some_iff, Option.bind_eq_some_iff,
    stripHead_eq_some]
  constructor
  · rintro ⟨text, ⟨_, hheader, rfl⟩, heq⟩
    exact ⟨text, hheader, asBytes_injective heq⟩
  · rintro ⟨text, hheader, rfl⟩
    exact ⟨text, ⟨_, hheader, rfl⟩, rfl⟩

/-- The requests that pass a gate with the secret `v`. -/
theorem adminAuth_eq_ok (htoken : gate.token = some (asBytes v)) :
    gate.adminAuth req = .ok () ↔
      (∃ text, req.header "x-tim-admin-token" = some text ∧ trim text = v)
      ∨ req.header "x-tim-admin-token" = none
        ∧ ∃ text, req.header "authorization" = some ("Bearer " ++ text) ∧ trim text = v := by
  -- The comparison is an equality of bytes.
  have hpresented : gate.adminAuth req = .ok ()
      ↔ req.adminHeader.or req.bearerHeader = some (asBytes v) := by
    unfold AdminGate.adminAuth AdminGate.enforced AdminGate.verify OAuth.constantTimeEq
    rw [htoken]
    cases req.adminHeader.or req.bearerHeader with
    | none => simp
    | some p =>
        simp only [Option.isSome_some, Bool.not_true, Bool.false_eq_true, if_false,
          Bool.and_eq_true, beq_iff_eq, Option.some.injEq]
        constructor
        · intro h
          split at h
          · rename_i heq
            exact heq.2.symm
          · cases h
        · rintro rfl
          simp
  have hnone : req.adminHeader = none ↔ req.header "x-tim-admin-token" = none := by
    simp [HttpRequest.adminHeader]
  rw [hpresented, Option.or_eq_some_iff, adminHeader_eq, bearerHeader_eq, hnone]

/-- What the gate accepts carries the secret, and the secret has no white space around it. -/
theorem carries_of_adminAuth (htoken : gate.token = some (asBytes v))
    (h : gate.adminAuth req = .ok ()) : req.CarriesSecret v ∧ req.Readable v := by
  rcases (adminAuth_eq_ok htoken).mp h with ⟨text, hheader, rfl⟩ | ⟨hnone, text, hheader, rfl⟩
  · refine ⟨.inl ⟨text, (HttpRequest.header_eq_some.mp hheader).1, (trim_trim text).symm⟩, ?_⟩
    refine ⟨trim_trim text, .inl ⟨text, hheader, rfl⟩, fun text' htext' => ?_⟩
    rw [hheader, Option.some.injEq] at htext'
    rw [htext']
  · refine ⟨.inr ⟨text, (HttpRequest.header_eq_some.mp hheader).1, (trim_trim text).symm⟩, ?_⟩
    refine ⟨trim_trim text, .inr ⟨text, hheader, rfl⟩, fun text' htext' => ?_⟩
    rw [hnone] at htext'
    cases htext'

/-- A request in which the secret can be read passes the gate. -/
theorem adminAuth_of_readable (htoken : gate.token = some (asBytes v)) (h : req.Readable v) :
    gate.adminAuth req = .ok () := by
  rw [adminAuth_eq_ok htoken]
  rcases h.legible with hown | hbearer
  · exact .inl hown
  -- A bearer is looked at only without the gate's own header, or that one agrees.
  · cases hheader : req.header "x-tim-admin-token" with
    | none => exact .inr ⟨rfl, hbearer⟩
    | some text => exact .inl ⟨text, rfl, h.unshadowed text hheader⟩

/-- Some request passes exactly when the secret can stand in a header and has no white space
around it. -/
theorem exists_adminAuth (htoken : gate.token = some (asBytes v)) :
    (∃ req, gate.adminAuth req = .ok ())
      ↔ trim v = v ∧ ∀ c ∈ v.toList, isHeaderChar c = true := by
  constructor
  · rintro ⟨req, h⟩
    have hread := (carries_of_adminAuth htoken h).2
    refine ⟨hread.trimmed, fun c hc => ?_⟩
    -- A character of the secret is one of the header it was trimmed from.
    have hmem : ∀ text : String, trim text = v → c ∈ text.toList := by
      rintro text rfl
      obtain ⟨front, back, hsplit, -⟩ := Lib.exists_strip isWhitespace text.toList
      rw [hsplit, ← toList_trim]
      exact List.mem_append_right _ (List.mem_append_left _ hc)
    rcases hread.legible with ⟨text, hheader, htext⟩ | ⟨text, hheader, htext⟩
    · exact (HttpRequest.header_eq_some.mp hheader).2 c (hmem text htext)
    · refine (HttpRequest.header_eq_some.mp hheader).2 c ?_
      rw [String.toList_append]
      exact List.mem_append_right _ (hmem text htext)
  · rintro ⟨htrim, hchars⟩
    -- The request that presents the secret as it is.
    let req : HttpRequest := ⟨.get, [], [], [("x-tim-admin-token", asBytes v)], []⟩
    have hheader : req.header "x-tim-admin-token" = some v :=
      HttpRequest.header_eq_some.mpr ⟨rfl, hchars⟩
    exact ⟨req, (adminAuth_eq_ok htoken).mpr (.inl ⟨v, hheader, htrim⟩)⟩

end Tim.Web

namespace Tim.Boot

open Tim.Web

/-- An enforced gate has the value of its variable. -/
theorem token_of_adminGate {env : Environment} {cfg : SecurityConfig} {gate : AdminGate}
    {v : String} (hgate : adminGate env cfg = .ok gate) (hon : gate.enforced = true)
    (hv : env.var cfg.adminTokenEnv = some v) : gate.token = some (asBytes v) := by
  have hoff : ∀ g : AdminGate, g = ⟨none⟩ → g.enforced = true → False := by
    rintro g rfl h
    cases h
  unfold adminGate at hgate
  split at hgate
  · split at hgate
    · cases hgate
    · cases hgate
      exact (hoff _ rfl hon).elim
  · split at hgate
    -- The value of the variable is taken as it is, with the white space around it.
    · rename_i val hval
      cases hgate
      rw [hv, Option.filter_eq_some_iff] at hval
      rw [Option.some.inj hval.1]
    · split at hgate
      · cases hgate
      · cases hgate
        exact (hoff _ rfl hon).elim

/-- An enforced gate accepts the secret in either header on the requests that are readable or have
nothing of it, and it can be passed when the secret can stand in a header as it is. -/
theorem adminAuth_exact {env : Environment} {cfg : SecurityConfig} {gate : AdminGate} {v : String}
    (hgate : adminGate env cfg = .ok gate) (hon : gate.enforced = true)
    (hv : env.var cfg.adminTokenEnv = some v) :
    (∀ req : HttpRequest, (gate.adminAuth req = .ok () ↔ req.CarriesSecret v)
      ↔ (req.CarriesSecret v → req.Readable v))
    ∧ ((∃ req, gate.adminAuth req = .ok ())
      ↔ trim v = v ∧ ∀ c ∈ v.toList, isHeaderChar c = true) := by
  have htoken := token_of_adminGate hgate hon hv
  refine ⟨fun req => ?_, exists_adminAuth htoken⟩
  constructor
  · intro h hcarries
    exact (carries_of_adminAuth htoken (h.mpr hcarries)).2
  · intro h
    constructor
    · exact fun hok => (carries_of_adminAuth htoken hok).1
    · exact fun hcarries => adminAuth_of_readable htoken (h hcarries)

namespace Sample

/-- The admin token is in `TOKEN`. -/
def adminConfig : SecurityConfig := { adminTokenEnv := "TOKEN" }

def adminEnv (v : String) : Environment where
  var name := if name = "TOKEN" then some v else none
  var_empty := rfl

/-- A request with the admin header. -/
def adminRequest (v : String) : HttpRequest :=
  Web.Sample.request .post ["jwt", "custom", "generate"] [("x-tim-admin-token", v)] ""

end Sample

open Sample in
/-- A secret without white space around it. -/
theorem adminAuth_exact_admin :
    adminGate (adminEnv "admin") adminConfig = .ok ⟨some (asBytes "admin")⟩
      ∧ ∃ req, (⟨some (asBytes "admin")⟩ : AdminGate).adminAuth req = .ok () := by
  have hgate : adminGate (adminEnv "admin") adminConfig = .ok ⟨some (asBytes "admin")⟩ := rfl
  exact ⟨hgate, (adminAuth_exact hgate rfl rfl).2.mpr
    ⟨by decide +kernel, List.all_eq_true.mp (by decide)⟩⟩

open Sample in
/-- A secret with a newline at its end, as a mounted file has it: the gate boots, and a request that
carries the secret is refused. -/
theorem newline_secret_refused :
    adminGate (adminEnv "secret\n") adminConfig = .ok ⟨some (asBytes "secret\n")⟩
      ∧ ¬ ((⟨some (asBytes "secret\n")⟩ : AdminGate).adminAuth (adminRequest "secret") = .ok ()
        ↔ (adminRequest "secret").CarriesSecret "secret\n") := by
  have hrefused : (⟨some (asBytes "secret\n")⟩ : AdminGate).adminAuth (adminRequest "secret")
      = .error .unauthorized := by decide +kernel
  refine ⟨rfl, fun h => ?_⟩
  have hok := h.mpr (.inl ⟨"secret", by decide +kernel, by decide +kernel⟩)
  rw [hrefused] at hok
  cases hok

end Tim.Boot
