import Tim.Proofs.Replies

/-!
# `Tim.Proofs.TooLarge`: the limit that a 413 names

Three things can be too large: the length that a request declares, the body that it sends, and the
claims of a token to generate. `Exceeds` lists them with their limits. `body_size_error_mapper`
writes its own limit into every 413, also into the one that `generate` has made about the claims,
so a 413 names the limit that was exceeded unless claims were refused and the two limits differ
(`limitNamed_iff`).

* `ClaimsRefused.serve_eq`: the reply to claims that are too large.
* `limitNamed_of_not_refused`: every other 413 names its limit.
* `claims_limit_hidden`: a request whose reply names the wrong one.
-/

set_option autoImplicit false

namespace Tim.Web

open Tim.Lib Tim.Lib.Prog

namespace AppState

variable {K : WebCrates}

/-! ### Limits -/

/-- The request exceeds a limit of the server by the size that it has. -/
inductive Exceeds (app : AppState K) (req : HttpRequest) : (limit size : Nat) → Prop
  | declared {n : Nat} (h : (req.header "content-length").bind parseUsize = some n)
      (hn : app.maxRequestBytes < n) : Exceeds app req app.maxRequestBytes n
  | streamed (h : app.maxRequestBytes < req.body.length) :
      Exceeds app req app.maxRequestBytes req.body.length
  | claims {body : GenerateBody} (hpath : Endpoint.ofPath req.path = some .jwtGenerate)
      (hmethod : req.method = .post) (h : app.RefusesClaims req body) :
      Exceeds app req app.jwt.cfg.maxClaimsBytes (K.jsonLen body.content)

/-- The reply names a limit that the request exceeds, and which is below the refused size. -/
def NamesLimit (app : AppState K) (req : HttpRequest) (r : Reply K) : Prop :=
  ∃ limit size, app.Exceeds req limit size ∧ limit < size
    ∧ r.body = .object [("error", .str "payload_too_large"), ("max", .nat limit)]

/-- Every 413 that the request can be answered with names the limit. The reply to `HEAD` has no body
to name it in. -/
def LimitNamed (app : AppState K) (req : HttpRequest) : Prop :=
  (app.serve req).Under (S := webSig K) (WebModest fun _ => True) fun x =>
    ∀ r, x = .ok r → r.status = 413 → req.method ≠ .head → app.NamesLimit req r

/-- The request gets as far as `generate`, which refuses its claims for their size. -/
def ClaimsRefused (app : AppState K) (req : HttpRequest) : Prop :=
  app.declaresTooMuch req = false ∧ Endpoint.ofPath req.path = some .jwtGenerate
    ∧ req.method = .post ∧ ∃ body, app.RefusesClaims req body

variable {app : AppState K} {req : HttpRequest}

/-- The declared length is too much when it is readable and above the limit. -/
theorem declaresTooMuch_iff : app.declaresTooMuch req = true
    ↔ ∃ n, (req.header "content-length").bind parseUsize = some n ∧ app.maxRequestBytes < n := by
  unfold declaresTooMuch
  cases (req.header "content-length").bind parseUsize with
  | none => simp
  | some n => simp

/-- A reply about a limit of the server that the request exceeds. -/
theorem names_of_exceeds {limit size : Nat} (h : app.Exceeds req limit size)
    (hlt : limit < size) : app.NamesLimit req (payloadTooLarge limit) :=
  ⟨limit, size, h, hlt, rfl⟩

/-- Only a reply to a `HEAD` loses its body. -/
theorem headless_of_ne_head (h : req.method ≠ .head) (r : Reply K) : headless req r = r := by
  rw [headless, if_neg h]

/-! ### Refused claims -/

/-- A request whose claims are refused exceeds no other limit. -/
theorem ClaimsRefused.limit {limit size : Nat} (h : app.ClaimsRefused req)
    (hexceeds : app.Exceeds req limit size) : limit = app.jwt.cfg.maxClaimsBytes := by
  obtain ⟨hdeclared, -, -, body, -, hbody, -, -⟩ := h
  cases hexceeds with
  | declared hn hlarge =>
      rw [declaresTooMuch_iff.mpr ⟨_, hn, hlarge⟩] at hdeclared
      cases hdeclared
  | streamed hlarge =>
      -- The body was read, so it is within the limit.
      unfold jsonBody bodyBytes at hbody
      rw [if_pos hlarge] at hbody
      split at hbody
      · cases hbody
      · cases hbody
  | claims => rfl

/-- The reply to such a request has the other limit. -/
theorem ClaimsRefused.serve_eq (h : app.ClaimsRefused req) :
    app.serve req = .ret (payloadTooLarge app.maxRequestBytes) := by
  obtain ⟨hdeclared, hpath, hmethod, body, hrefused⟩ := h
  have hhandler : app.handler req .jwtGenerate
      = .raise (.err (.payloadTooLarge app.jwt.cfg.maxClaimsBytes)) := jwtGenerate_refused hrefused
  unfold serve
  rw [hdeclared, hpath]
  simp only [hmethod, hhandler]
  show Prog.ret (headless req (payloadTooLarge app.maxRequestBytes)) = _
  rw [headless_of_ne_head]
  rw [hmethod]
  decide

/-- Claims are refused by a `POST`. -/
theorem ClaimsRefused.ne_head (h : app.ClaimsRefused req) : req.method ≠ .head := by
  rw [h.2.2.1]
  decide

/-- When the two limits are equal, the reply names the right one whichever was exceeded. -/
theorem ClaimsRefused.names (h : app.ClaimsRefused req)
    (hsame : app.maxRequestBytes = app.jwt.cfg.maxClaimsBytes) :
    app.NamesLimit req (payloadTooLarge app.maxRequestBytes) := by
  obtain ⟨-, hpath, hmethod, body, hrefused⟩ := h
  rw [hsame]
  exact names_of_exceeds (.claims hpath hmethod hrefused) hrefused.2.2.2

/-- The limit that is named is the one that was exceeded only if the two are the same. -/
theorem ClaimsRefused.same (hrefused : app.ClaimsRefused req) (h : app.LimitNamed req) :
    app.maxRequestBytes = app.jwt.cfg.maxClaimsBytes := by
  unfold LimitNamed at h
  rw [hrefused.serve_eq] at h
  obtain ⟨limit, size, hexceeds, -, hbody⟩ := h _ rfl rfl hrefused.ne_head
  have hlimit : app.maxRequestBytes = limit := by
    simpa [payloadTooLarge] using hbody
  rw [hlimit, hrefused.limit hexceeds]

/-! ### The other requests -/

/-- A stop of a handler that becomes a 413 is about the length of the body. -/
theorem HaltModest.streamed {h : Halt} {r : Reply K} (hmodest : app.HaltModest req h)
    (hr : haltReply h = some r) (hstatus : r.status = 413) :
    app.maxRequestBytes < req.body.length := by
  cases h with
  | err e =>
      cases hr
      cases e with
      | payloadTooLarge max => exact hmodest.elim
      | _ => cases hstatus
  | reject rej =>
      cases hr
      cases rej with
      | lengthLimit => exact hmodest
      | _ => cases hstatus
  | panic => cases hr

/-- A 413 behind the mapper is the reply of the mapper. -/
theorem sizeMapped_status {r : Reply K} (h : (app.sizeMapped r).status = 413) :
    r.status = 413 ∧ app.sizeMapped r = payloadTooLarge app.maxRequestBytes := by
  unfold sizeMapped at h ⊢
  split
  · rename_i hstatus
    exact ⟨hstatus, rfl⟩
  · rename_i hstatus
    rw [if_neg hstatus] at h
    exact absurd h hstatus

/-- The 413s of a request whose claims are not refused are about its body. -/
theorem limitNamed_of_not_refused (h : ¬ app.ClaimsRefused req) : app.LimitNamed req := by
  unfold LimitNamed serve
  split
  · rename_i hdeclared
    -- The declared length alone is too much, and the reply names the same limit.
    rintro r ⟨⟩ - hmethod
    obtain ⟨n, hn, hlarge⟩ := declaresTooMuch_iff.mp hdeclared
    rw [headless_of_ne_head hmethod]
    exact names_of_exceeds (.declared hn hlarge) hlarge
  · rename_i hdeclared
    split
    · rintro r ⟨⟩ ⟨⟩
    · rename_i e hpath
      split
      · rintro r ⟨⟩ ⟨⟩
      · rename_i hallows
        have hend : (app.handler req e).Under (S := webSig K) (WebModest fun _ => True)
            (app.ReplyEnd req e fun _ => True) := by
          refine handler_end e fun he hrefused => h ?_
          subst he
          exact ⟨by simpa using hdeclared, hpath, by simpa [Endpoint.allows, Endpoint.isPost]
            using hallows, hrefused⟩
        refine Under.handle hend fun x hx => ?_
        cases x with
        | ok r =>
            -- No handler answers 413 by itself, so the mapper leaves the reply as it is.
            rintro r' ⟨⟩ hstatus -
            rw [headless_status] at hstatus
            exact absurd (sizeMapped_status hstatus).1 hx.1
        | error halt =>
            dsimp only [resume]
            split
            · rename_i r hr
              rintro r' ⟨⟩ hstatus hmethod
              rw [headless_status] at hstatus
              obtain ⟨h413, heq⟩ := sizeMapped_status hstatus
              rw [headless_of_ne_head hmethod, heq]
              -- What stops a handler with a 413 is the extractor of the body.
              have hlarge := hx.streamed hr h413
              exact names_of_exceeds (.streamed hlarge) hlarge
            · rintro r ⟨⟩

/-- A 413 names the limit that was exceeded, unless claims were refused and the two limits
differ. -/
theorem limitNamed_iff (app : AppState K) (req : HttpRequest) :
    app.LimitNamed req
      ↔ (app.ClaimsRefused req → app.maxRequestBytes = app.jwt.cfg.maxClaimsBytes) := by
  constructor
  · exact fun h hrefused => hrefused.same h
  · intro h
    by_cases hrefused : app.ClaimsRefused req
    · unfold LimitNamed
      rw [hrefused.serve_eq]
      rintro r ⟨⟩ - -
      exact hrefused.names (h hrefused)
    · exact limitNamed_of_not_refused hrefused

/-! ### The machine -/

/-- No error of the session store is about a size. -/
structure ModestStore (store : SessionStore) : Prop where
  create : ∀ m session s e, (store.create m session s).1 = .error e → Modest e
  get : ∀ m id s e, (store.get m id s).1 = .error e → Modest e
  touch : ∀ m id s e, (store.touch m id s).1 = .error e → Modest e
  revoke : ∀ m id s e, (store.revoke m id s).1 = .error e → Modest e

/-- The memory store has no errors. -/
theorem memoryStore_modest : ModestStore memoryStore where
  create m session s e h := by cases h
  get m id s e h := by
    unfold memoryStore MemoryStore.get at h
    dsimp only at h
    repeat' split at h
    all_goals cases h
  touch m id s e h := by
    unfold memoryStore MemoryStore.touch at h
    dsimp only at h
    split at h
    all_goals cases h
  revoke m id s e h := by cases h

/-- A profile that cannot be sealed is an internal error. -/
theorem sealProfile_modest {A : SealCrates} {cipher : SessionCipher A} {nonce : Nonce}
    {profile : ClaimMap} {e : TimError}
    (h : PostgresStore.sealProfile cipher nonce profile = .error e) : Modest e := by
  unfold PostgresStore.sealProfile SessionCipher.seal_ at h
  repeat' split at h
  all_goals cases h
  all_goals trivial

/-- A profile that cannot be opened is an internal error. -/
theorem openProfile_modest {A : SealCrates} {cipher : SessionCipher A} {sealed : Bytes}
    {e : TimError} (h : PostgresStore.openProfile cipher sealed = .error e) : Modest e := by
  unfold PostgresStore.openProfile at h
  split at h
  · rename_i err herr
    cases h
    unfold SessionCipher.open_ at herr
    repeat' split at herr
    all_goals cases herr
    all_goals trivial
  · split at h
    · cases h
      exact trivial
    · cases h

/-- The table fails with errors of the database and of the cipher. -/
theorem postgresStore_modest {A : SealCrates} (cipher : SessionCipher A) :
    ModestStore (postgresStore cipher) where
  create m session s e h := by
    unfold postgresStore PostgresStore.create at h
    dsimp only at h
    split at h
    · rename_i err herr
      cases h
      exact sealProfile_modest herr
    · repeat' split at h
      all_goals cases h
      all_goals trivial
  get m id s e h := by
    unfold postgresStore PostgresStore.get at h
    dsimp only at h
    split at h
    · cases h
      exact trivial
    · split at h
      · cases h
      · split at h
        · rename_i err herr
          cases h
          exact openProfile_modest herr
        · cases h
  touch m id s e h := by
    unfold postgresStore PostgresStore.touch at h
    dsimp only at h
    repeat' split at h
    all_goals cases h
    all_goals trivial
  revoke m id s e h := by
    unfold postgresStore PostgresStore.revoke at h
    dsimp only at h
    split at h
    all_goals cases h
    all_goals trivial

/-- The answers of the machine are those that the handlers are proved about. -/
theorem exec_modest {store : SessionStore} (hstore : ModestStore store) {discoveryTtl tid : Nat}
    {s s' : World store} {o : WebOp} {ch : WebChoice} {r : WebResp K o}
    (h : s.exec app discoveryTtl tid o ch = some (r, s')) : WebModest (fun _ => True) o r := by
  have hsession : ∀ {α : Type} {f : Moment → store.State → Except TimError α × store.State}
      {r : Except TimError α}, (∀ m t e, (f m t).1 = .error e → Modest e) →
      s.session f ch = some (r, s') → ∀ e, r = .error e → Modest e := by
    intro α f r hf hr e he
    unfold World.session at hr
    split at hr
    · cases hr
      exact hf _ _ e he
    · cases hr
      cases he
      exact trivial
    · cases hr
  cases o with
  | sessionGet id => exact hsession (fun m t e he => hstore.get m id t e he) h
  | sessionTouch id => exact hsession (fun m t e he => hstore.touch m id t e he) h
  | sessionRevoke id => exact hsession (fun m t e he => hstore.revoke m id t e he) h
  | jwt o =>
      cases o with
      -- The two calls with a typed error are the signature and the new session.
      | sign c =>
          refine ⟨fun _ _ => trivial, fun e he => ?_⟩
          cases ch with
          | jwt ch =>
              cases ch with
              | go =>
                  cases h
                  unfold JwtSigner.sign at he
                  split at he
                  · cases he
                  · cases he
                    exact trivial
              | _ => cases h
          | _ => cases h
      | _ => exact trivial
  | oauth o =>
      cases o with
      | createSession session =>
          intro e he
          cases ch with
          | oauth ch =>
              cases ch with
              | nonce n =>
                  cases h
                  exact hstore.create _ session _ e he
              | fail text =>
                  cases h
                  cases he
                  exact trivial
              | _ => cases h
          | _ => cases h
      | _ => exact trivial

end AppState

/-! ### A sample request -/

namespace Sample

open Symbolic

/-- The body of a `generate` request with nine bytes of claims. -/
def generateText : String :=
  "\x7b\"JWTName\":\"t\",\"content\":\x7b\"a\":\"b\"\x7d,\"expirationInMinutes\":5\x7d"

/-- What the text says. -/
def generatePayload : Payload :=
  [("JWTName", .string "t"), ("content", .object [("a", .string "b")]),
   ("expirationInMinutes", .number (.int 5))]

/-- A server that takes eight bytes of claims. -/
def smallApp : AppState (cratesFor generateText generatePayload) :=
  appFor generateText generatePayload 8

/-- A request for a token, with more claims than that. -/
def generateRequest : HttpRequest :=
  request .post ["jwt", "custom", "generate"]
    [("content-type", "application/json"), ("x-tim-admin-token", "admin")] generateText

end Sample

open Sample in
/-- The nine bytes of claims are above the limit of eight, and the reply says 65536. -/
theorem claims_limit_hidden : ¬ smallApp.LimitNamed generateRequest := by
  have hcheck : (match jsonBody (cratesFor generateText generatePayload)
      GenerateBody.deserialize 65536 generateRequest with
      | .ok body => decide (0 < body.expirationInMinutes)
          && decide (8 < crates.jsonLen body.content)
      | .error _ => false) = true := by
    decide +kernel
  have hrefused : smallApp.ClaimsRefused generateRequest := by
    refine ⟨by decide +kernel, by decide +kernel, by decide +kernel, ?_⟩
    split at hcheck
    · rename_i body hbody
      simp only [Bool.and_eq_true, decide_eq_true_eq] at hcheck
      exact ⟨body, by decide +kernel, hbody, hcheck⟩
    · cases hcheck
  exact fun h => absurd (hrefused.same h) (by decide)

end Tim.Web
