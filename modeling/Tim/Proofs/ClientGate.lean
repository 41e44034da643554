import Tim.Lib.Base64
import Tim.Model.Boot
import Tim.Proofs.Gates
import Tim.Proofs.Text

/-!
# `Tim.Proofs.ClientGate`: whom the client gate lets through, and when it may be built

`IntrospectionGate::verify_basic` reads a header value with two splits and a base64 decoder.
`verifyBasic_eq_ok` says which values it accepts: the scheme, a space, any white space, and the
credentials of a client whose id has no colon. `Presents` is the documented form, with spaces only
and with any client. The two differ on ids that have a colon, because the parser takes the first
colon for the end of the id, and on white space that is no space (`verifyBasic_exact`).

`failClosed_iff` is about the construction of the gate. The resolver refuses a client without a
secret as soon as one axis is on, and it does not look at whether there is any client.

* `match_iff`: the comparison of the credentials with those of the clients.
* `exact_iff_separable`: the documented form is accepted, and nothing else is, exactly on the
  separable values.
* `failClosed_iff_clients`: the gate is fail-closed unless an axis is on and no client is
  configured.
-/

set_option autoImplicit false

namespace Tim.Web

open Tim.Lib

/-! ### Credentials -/

/-- The standard base64 of some bytes. -/
def base64 (bytes : Bytes) : String := String.ofList (Base64.encode bytes)

/-- The engine `STANDARD` of the `base64` crate: it wants canonical padding and no trailing bits,
so a text is decoded to the bytes that it is the encoding of. -/
structure StandardBase64 (K : WebCrates) : Prop where
  decode_iff : ∀ text bytes, K.base64Decode text = some bytes ↔ text = base64 bytes

/-- What a client sends: its id, a colon and its secret. -/
def ResolvedClient.credentials (c : ResolvedClient) : Bytes :=
  asBytes c.clientId ++ asBytes ":" ++ c.secret

/-- The value is the scheme `basic` in any case, a space, the characters of `gap`, and the
base64 of the client's credentials. -/
def Sends (value : String) (gap : List Char) (c : ResolvedClient) : Prop :=
  ∃ scheme : String, eqIgnoreAsciiCase scheme "basic" = true
    ∧ value.toList = scheme.toList ++ ' ' :: (gap ++ (base64 c.credentials).toList)

/-- The value presents the credentials of the client, behind one or more spaces. -/
def Presents (value : String) (c : ResolvedClient) : Prop :=
  ∃ n, Sends value (List.replicate n ' ') c

/-- No client that the value presents needs a colon in its id to be told, and the scheme is set
off with spaces. -/
structure Separable (gate : IntrospectionGate) (value : String) : Prop where
  id : ∀ c ∈ gate.clients, Presents value c →
    ∃ c' ∈ gate.clients, ':' ∉ c'.clientId.toList ∧ c'.credentials = c.credentials
  gap : ∀ c ∈ gate.clients, ':' ∉ c.clientId.toList → ∀ gap, Sends value gap c →
    (∀ x ∈ gap, isWhitespace x = true) → ∀ x ∈ gap, x = ' '

/-! ### The parser -/

/-- An encoding has no white space, so trimming leaves it as it is. -/
theorem base64_no_space (bytes : Bytes) : ∀ c ∈ (base64 bytes).toList, isWhitespace c = false := by
  rw [base64, String.toList_ofList]
  exact Base64.forall_encode (by decide +kernel) (by decide) bytes

/-- The scheme has no space. -/
theorem space_notMem {scheme : String} (h : eqIgnoreAsciiCase scheme "basic" = true) :
    ' ' ∉ scheme.toList := by
  intro hmem
  obtain ⟨d, hd, heq⟩ := toLower_mem h hmem
  have hnone : ∀ d ∈ "basic".toList, d.toLower ≠ ' '.toLower := by simp
  exact hnone d hd heq

/-- The credentials that the gate compares are the bytes of `id:secret`. -/
theorem credentials_of_text {c : ResolvedClient} {secret : String}
    (h : c.secret = asBytes secret) : c.credentials = asBytes (c.clientId ++ ":" ++ secret) := by
  rw [ResolvedClient.credentials, h, asBytes_append, asBytes_append]

/-- The client that the walk over the list looks for. -/
theorem match_iff {c : ResolvedClient} {id secret : String} :
    (asBytes c.clientId == asBytes id && OAuth.constantTimeEq c.secret (asBytes secret)) = true
      ↔ c.clientId = id ∧ c.secret = asBytes secret := by
  simp only [OAuth.constantTimeEq, Bool.and_eq_true, beq_iff_eq]
  constructor
  · rintro ⟨hid, -, hsecret⟩
    exact ⟨asBytes_injective hid, hsecret⟩
  · rintro ⟨rfl, hsecret⟩
    exact ⟨rfl, by rw [hsecret], hsecret⟩

/-- Different bytes have different encodings. -/
theorem base64_injective {a b : Bytes} (h : base64 a = base64 b) : a = b := by
  have hdecode := Base64.decode_encode a
  rw [String.ofList_inj.mp h, Base64.decode_encode] at hdecode
  exact (Option.some.inj hdecode).symm

/-- A value can be read in one way only. -/
theorem Sends.unique {value : String} {gap gap' : List Char} {c c' : ResolvedClient}
    (h : Sends value gap c) (h' : Sends value gap' c') (hgap : ∀ x ∈ gap, isWhitespace x = true)
    (hgap' : ∀ x ∈ gap', isWhitespace x = true) :
    gap = gap' ∧ c.credentials = c'.credentials := by
  obtain ⟨scheme, hscheme, hvalue⟩ := h
  obtain ⟨scheme', hscheme', hvalue'⟩ := h'
  -- The first space ends the scheme, and the base64 starts where the white space ends.
  have hcut := cut_eq_some.mpr ⟨hvalue, space_notMem hscheme⟩
  have hcut' := cut_eq_some.mpr ⟨hvalue', space_notMem hscheme'⟩
  rw [hcut, Option.some.injEq, Prod.mk.injEq] at hcut'
  have hrest := hcut'.2
  have hstart := trimStart_append hgap (base64_no_space c.credentials)
  rw [hrest, trimStart_append hgap' (base64_no_space c'.credentials)] at hstart
  rw [hstart] at hrest
  exact ⟨List.append_cancel_right hrest, (base64_injective hstart).symm⟩

section Parser

variable {K : WebCrates} {gate : IntrospectionGate} {value : String}

/-- A value that is accepted sends the credentials of a client whose id has no colon. -/
theorem sends_of_verifyBasic (hb64 : StandardBase64 K) (h : gate.verifyBasic K value = .ok ()) :
    ∃ c ∈ gate.clients, ':' ∉ c.clientId.toList ∧ ∃ gap, Sends value gap c
      ∧ ∀ x ∈ gap, isWhitespace x = true := by
  unfold IntrospectionGate.verifyBasic at h
  split at h
  · cases h
  rename_i scheme rest hsplit
  split at h
  · cases h
  rename_i hscheme
  split at h
  · cases h
  rename_i pair hpair
  split at h
  · cases h
  rename_i id secret hcolon
  split at h
  · rename_i hany
    -- All five tests have passed. The id that was read ends at the first colon.
    obtain ⟨c, hc, hmatch⟩ := List.any_eq_true.mp hany
    obtain ⟨rfl, hsecret⟩ := match_iff.mp hmatch
    obtain ⟨hpairText, hid⟩ := splitOnce_eq_some.mp hcolon
    obtain ⟨bytes, hbytes, hutf8⟩ := Option.bind_eq_some_iff.mp hpair
    -- So the bytes that were decoded are the credentials of that client.
    have hcred : c.credentials = bytes := by
      rw [credentials_of_text hsecret, fromUtf8_eq_some.mp hutf8]
      apply congrArg
      apply String.toList_injective
      simp [hpairText]
    obtain ⟨gap, hrest, hgap⟩ := exists_trimStart rest
    refine ⟨c, hc, hid, gap, ⟨scheme, by simpa using hscheme, ?_⟩, hgap⟩
    rw [hcred, ← (hb64.decode_iff _ _).mp hbytes, ← hrest]
    exact (splitOnce_eq_some.mp hsplit).1
  · cases h

/-- The credentials of a client whose id has no colon are accepted. -/
theorem verifyBasic_of_sends (hb64 : StandardBase64 K) {c : ResolvedClient} {secret : String}
    (hc : c ∈ gate.clients) (hsecret : c.secret = asBytes secret) (hid : ':' ∉ c.clientId.toList)
    {gap : List Char} (hgap : ∀ x ∈ gap, isWhitespace x = true) (hsends : Sends value gap c) :
    gate.verifyBasic K value = .ok () := by
  obtain ⟨scheme, hscheme, hvalue⟩ := hsends
  -- The tests in their order, each with what it finds.
  have hsplit : splitOnce value ' '
      = some (scheme, String.ofList (gap ++ (base64 c.credentials).toList)) := by
    rw [splitOnce_eq_some, String.toList_ofList]
    exact ⟨hvalue, space_notMem hscheme⟩
  have hpair : (K.base64Decode (trimStart
      (String.ofList (gap ++ (base64 c.credentials).toList)))).bind fromUtf8
      = some (c.clientId ++ ":" ++ secret) := by
    rw [trimStart_append hgap (base64_no_space _), (hb64.decode_iff _ _).mpr rfl, Option.bind_some,
      fromUtf8_eq_some]
    exact credentials_of_text hsecret
  have hcolon : splitOnce (c.clientId ++ ":" ++ secret) ':' = some (c.clientId, secret) := by
    rw [splitOnce_eq_some]
    exact ⟨by simp, hid⟩
  have hany : gate.clients.any (fun c' => asBytes c'.clientId == asBytes c.clientId
      && OAuth.constantTimeEq c'.secret (asBytes secret)) = true :=
    List.any_eq_true.mpr ⟨c, hc, match_iff.mpr ⟨rfl, hsecret⟩⟩
  simp only [IntrospectionGate.verifyBasic, hsplit, hscheme, hpair, hcolon, hany, Bool.not_true,
    Bool.false_eq_true, if_false, if_true]

/-- The values that are accepted, when the secrets are texts. -/
theorem verifyBasic_eq_ok (hb64 : StandardBase64 K)
    (hsecrets : ∀ c ∈ gate.clients, ∃ secret, c.secret = asBytes secret) :
    gate.verifyBasic K value = .ok () ↔ ∃ c ∈ gate.clients, ':' ∉ c.clientId.toList
      ∧ ∃ gap, Sends value gap c ∧ ∀ x ∈ gap, isWhitespace x = true := by
  constructor
  · exact sends_of_verifyBasic hb64
  · rintro ⟨c, hc, hid, gap, hsends, hgap⟩
    obtain ⟨secret, hsecret⟩ := hsecrets c hc
    exact verifyBasic_of_sends hb64 hc hsecret hid hgap hsends

/-- The documented form is accepted, and nothing else is, exactly on separable values. -/
theorem exact_iff_separable (hb64 : StandardBase64 K)
    (hsecrets : ∀ c ∈ gate.clients, ∃ secret, c.secret = asBytes secret) :
    (gate.verifyBasic K value = .ok () ↔ ∃ c ∈ gate.clients, Presents value c)
      ↔ Separable gate value := by
  have hspaces : ∀ n, ∀ x ∈ List.replicate n ' ', isWhitespace x = true := by
    intro n x hx
    rw [List.eq_of_mem_replicate hx]
    decide
  rw [verifyBasic_eq_ok hb64 hsecrets]
  constructor
  · intro h
    constructor
    · intro c hc hpresents
      obtain ⟨c', hc', hid', gap', hsends', hgap'⟩ := h.mpr ⟨c, hc, hpresents⟩
      obtain ⟨n, hsends⟩ := hpresents
      -- Another client may have been meant, whose credentials are the same bytes.
      exact ⟨c', hc', hid', (hsends'.unique hsends hgap' (hspaces n)).2⟩
    · intro c hc hid gap hsends hgap x hx
      obtain ⟨c', -, n, hsends'⟩ := h.mp ⟨c, hc, hid, gap, hsends, hgap⟩
      rw [(hsends.unique hsends' hgap (hspaces n)).1] at hx
      exact List.eq_of_mem_replicate hx
  · intro h
    constructor
    · rintro ⟨c, hc, hid, gap, hsends, hgap⟩
      -- White space that is all spaces is a number of spaces.
      refine ⟨c, hc, gap.length, ?_⟩
      rwa [← List.eq_replicate_iff.mpr ⟨rfl, h.gap c hc hid gap hsends hgap⟩]
    · rintro ⟨c, hc, hpresents⟩
      obtain ⟨c', hc', hid', hsame⟩ := h.id c hc hpresents
      obtain ⟨n, scheme, hscheme, hvalue⟩ := hpresents
      exact ⟨c', hc', hid', _, ⟨scheme, hscheme, hsame ▸ hvalue⟩, hspaces n⟩

end Parser

end Tim.Web

/-! ### The construction of the gate -/

namespace Tim.Boot

open Tim.Web

/-- The client was resolved to the secret that its variable has, which is not empty. -/
def Resolved (env : Environment) (c : IntrospectionClient) (r : ResolvedClient) : Prop :=
  r.clientId = c.clientId ∧ r.secret ≠ []
    ∧ ∃ v, env.var c.clientSecretEnv = some v ∧ r.secret = asBytes v

/-- One of the axes of the gate is on. -/
def AnyRequired (cfg : IntrospectionConfig) : Prop :=
  cfg.requiredClientAuth = true ∨ cfg.gateValidationEndpoints = true
    ∨ cfg.gateJvmCompatEndpoints = true

/-- A gate with an axis on has clients, and the configured ones are all there. -/
def FailClosed (env : Environment) (cfg : IntrospectionConfig) : Prop :=
  ∀ gate, introspectionGate env cfg = .ok gate → AnyRequired cfg →
    gate.clients ≠ [] ∧ List.Forall₂ (Resolved env) cfg.clients gate.clients

/-- A text with characters has bytes. -/
theorem asBytes_ne_nil {v : String} (h : v ≠ "") : asBytes v ≠ [] :=
  fun hnil => h (asBytes_injective hnil)

/-- The resolver keeps the clients that have a secret, and all of them when it has to. -/
theorem resolveClients_ok {env : Environment} {required : Bool} {cs : List IntrospectionClient}
    {rs : List ResolvedClient} (h : resolveClients env required cs = .ok rs) :
    ∃ kept, List.Forall₂ (Resolved env) kept rs ∧ (required = true → kept = cs) := by
  induction cs generalizing rs with
  | nil =>
      cases h
      exact ⟨[], .nil, fun _ => rfl⟩
  | cons c cs ih =>
      unfold resolveClients at h
      split at h
      · rename_i v hv
        obtain ⟨hvar, hne⟩ := Option.filter_eq_some_iff.mp hv
        split at h
        · rename_i resolved hrest
          cases h
          obtain ⟨kept, hkept, hall⟩ := ih hrest
          refine ⟨c :: kept, .cons ⟨rfl, asBytes_ne_nil (by simpa using hne), v, hvar, rfl⟩ hkept,
            fun hreq => by rw [hall hreq]⟩
        · cases h
      · split at h
        · cases h
        -- A client without a secret is left out, which only happens when no axis is on.
        · rename_i hnot
          obtain ⟨kept, hkept, -⟩ := ih h
          exact ⟨kept, hkept, fun hreq => absurd hreq hnot⟩

/-- A gate that could be built has the clients whose secrets are set, and all of them if an axis
needs credentials. -/
theorem introspectionGate_ok {env : Environment} {cfg : IntrospectionConfig}
    {gate : IntrospectionGate} (h : introspectionGate env cfg = .ok gate) :
    ∃ kept, List.Forall₂ (Resolved env) kept gate.clients
      ∧ (AnyRequired cfg → kept = cfg.clients) := by
  unfold introspectionGate at h
  dsimp only at h
  split at h
  · cases h
  · rename_i clients hclients
    cases h
    obtain ⟨kept, hkept, hall⟩ := resolveClients_ok hclients
    refine ⟨kept, hkept, fun hreq => hall ?_⟩
    simpa [AnyRequired, or_assoc] using hreq

/-- Every secret of a gate is a text. -/
theorem secret_text {env : Environment} {cfg : IntrospectionConfig} {gate : IntrospectionGate}
    (h : introspectionGate env cfg = .ok gate) :
    ∀ c ∈ gate.clients, ∃ secret, c.secret = asBytes secret := by
  intro c hc
  obtain ⟨kept, hkept, -⟩ := introspectionGate_ok h
  obtain ⟨i, hi, rfl⟩ := List.getElem_of_mem hc
  obtain ⟨-, -, v, -, hv⟩ := hkept.get (by rw [hkept.length_eq]; exact hi) hi
  exact ⟨v, hv⟩

/-- A gate that is built from a configuration accepts exactly the credentials of its clients, on
values that are separable. -/
theorem verifyBasic_exact {K : WebCrates} (hb64 : StandardBase64 K) {env : Environment}
    {config : AppConfig} {gate : IntrospectionGate}
    (hgate : introspectionGate env config.introspection = .ok gate) (value : String) :
    (gate.verifyBasic K value = .ok () ↔ ∃ c ∈ gate.clients, Presents value c)
      ↔ Separable gate value :=
  exact_iff_separable hb64 (secret_text hgate)

/-! ### A sample gate -/

namespace Sample

/-- The third-party functions, with the engine `STANDARD`. -/
def basicCrates : WebCrates :=
  { Web.Sample.crates with base64Decode := fun text => Lib.Base64.decode text.toList }

/-- The sample library encodes by the standard alphabet. -/
theorem basicCrates_base64 : StandardBase64 basicCrates where
  decode_iff text bytes := by
    have hiff : Lib.Base64.decode text.toList = some bytes
        ↔ text.toList = Lib.Base64.encode bytes := Lib.Base64.decode_eq_some
    rw [base64, ← String.toList_inj, String.toList_ofList]
    exact hiff

/-- One client, with a secret in `SECRET`. -/
def clientConfig (clientId : String) : AppConfig where
  introspection := { clients := [⟨clientId, "SECRET"⟩] }

def clientEnv : Environment where
  var name := if name = "SECRET" then some "s" else none
  var_empty := rfl

/-- The client gate of that configuration. -/
def clientGate (clientId : String) : IntrospectionGate :=
  ⟨true, false, false, [⟨clientId, asBytes "s"⟩]⟩

end Sample

open Sample in
/-- A client with a plain id and its own header value. -/
theorem verifyBasic_exact_app :
    introspectionGate clientEnv (clientConfig "app").introspection = .ok (clientGate "app")
      ∧ (clientGate "app").verifyBasic basicCrates "basic  YXBwOnM=" = .ok () := by
  have hsends : Sends "basic  YXBwOnM=" (List.replicate 1 ' ') ⟨"app", asBytes "s"⟩ :=
    ⟨"basic", by decide +kernel, by decide +kernel⟩
  have hgate : introspectionGate clientEnv (clientConfig "app").introspection
      = .ok (clientGate "app") := rfl
  refine ⟨hgate, ((verifyBasic_exact basicCrates_base64 hgate _).mpr ?_).mpr
    ⟨_, List.mem_singleton_self _, 1, hsends⟩⟩
  constructor
  · intro c hc _
    rw [List.mem_singleton.mp hc]
    exact ⟨_, List.mem_singleton_self _, by decide, rfl⟩
  · intro c hc _ gap h hgap x hx
    rw [(h.unique hsends hgap (List.all_eq_true.mp (by decide))).1] at hx
    exact List.eq_of_mem_replicate hx

open Sample in
/-- A configuration with a colon in a client id is accepted, and the client cannot pass with its
own credentials. -/
theorem colon_id_refused :
    (clientConfig "a:b").validate = .ok ()
      ∧ introspectionGate clientEnv (clientConfig "a:b").introspection = .ok (clientGate "a:b")
      ∧ ¬ ((clientGate "a:b").verifyBasic basicCrates "Basic YTpiOnM=" = .ok ()
        ↔ ∃ c ∈ (clientGate "a:b").clients, Presents "Basic YTpiOnM=" c) := by
  have hrefused : (clientGate "a:b").verifyBasic basicCrates "Basic YTpiOnM="
      = .error .unauthorized := by decide +kernel
  refine ⟨by decide +kernel, rfl, fun h => ?_⟩
  have hok := h.mpr ⟨_, List.mem_singleton_self _, 0, "Basic", by decide +kernel, by decide +kernel⟩
  rw [hrefused] at hok
  cases hok

/-! ### Fail-closed -/

/-- The gate is fail-closed unless an axis is on and no client is configured. -/
theorem failClosed_iff_clients (env : Environment) (cfg : IntrospectionConfig) :
    FailClosed env cfg ↔ (AnyRequired cfg → cfg.clients ≠ []) := by
  constructor
  · intro h hreq hnil
    -- The loop over no clients ends well whatever the axes are.
    have hgate : introspectionGate env cfg = .ok ⟨cfg.requiredClientAuth,
        cfg.gateValidationEndpoints, cfg.gateJvmCompatEndpoints, []⟩ := by
      simp [introspectionGate, hnil, resolveClients]
    exact (h _ hgate hreq).1 rfl
  · intro h gate hgate hreq
    obtain ⟨kept, hkept, hall⟩ := introspectionGate_ok hgate
    rw [hall hreq] at hkept
    refine ⟨fun hnil => h hreq ?_, hkept⟩
    rw [hnil] at hkept
    exact List.forall₂_nil_right_iff.mp hkept

/-- `validate` looks at the clients when the first axis is on. -/
theorem clients_of_validate {config : AppConfig} (h : config.validate = .ok ())
    (hreq : config.introspection.requiredClientAuth = true) :
    config.introspection.clients ≠ [] := by
  intro hnil
  unfold AppConfig.validate at h
  split at h
  · cases h
  split at h
  · cases h
  split at h
  · cases h
  · rename_i hclients
    exact hclients ⟨hreq, by simp [hnil]⟩

/-- For a configuration that `validate` accepts the gate is fail-closed unless one of the other
two axes is on without the first, and no client is configured. -/
theorem failClosed_iff {config : AppConfig} (hvalid : config.validate = .ok ())
    (env : Environment) :
    FailClosed env config.introspection ↔ config.introspection.requiredClientAuth = true
      ∨ config.introspection.clients ≠ []
      ∨ config.introspection.gateValidationEndpoints = false
        ∧ config.introspection.gateJvmCompatEndpoints = false := by
  rw [failClosed_iff_clients]
  constructor
  · intro h
    by_cases hreq : AnyRequired config.introspection
    · exact .inr (.inl (h hreq))
    · simp only [AnyRequired, not_or, Bool.not_eq_true] at hreq
      exact .inr (.inr hreq.2)
  · rintro (hreq | hclients | ⟨hvalidation, hjvm⟩) haxis
    -- `validate` knows the first axis only.
    · exact clients_of_validate hvalid hreq
    · exact hclients
    · rcases haxis with hreq | hon | hon
      · exact clients_of_validate hvalid hreq
      · rw [hvalidation] at hon
        cases hon
      · rw [hjvm] at hon
        cases hon

open Sample in
/-- A gate with one client. -/
theorem failClosed_iff_app :
    (clientConfig "app").validate = .ok ()
      ∧ FailClosed clientEnv (clientConfig "app").introspection := by
  have hvalid : (clientConfig "app").validate = .ok () := by decide +kernel
  exact ⟨hvalid, (failClosed_iff hvalid clientEnv).mpr (.inl rfl)⟩

/-- The validation endpoints are gated, and nobody can pass. -/
def Sample.openConfig : AppConfig where
  introspection := { requiredClientAuth := false, gateValidationEndpoints := true }

open Sample in
/-- A gate with an axis on and no clients is built. -/
theorem empty_gate_boots :
    openConfig.validate = .ok () ∧ ¬ FailClosed clientEnv openConfig.introspection := by
  refine ⟨by decide +kernel, fun h => ?_⟩
  exact (h ⟨false, true, false, []⟩ rfl (.inr (.inl rfl))).1 rfl

end Tim.Boot
