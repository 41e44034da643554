import Tim.Model.Document

/-!
# `Tim.Proofs.Sections`: an omitted section of the configuration and an empty one

`omitted_section` compares the configuration of a document that has an empty map for a section with
the one of the document that leaves the section out. Each section is read from an empty map first
(`deserialize_empty`), by the defaults of its fields. The rules of `Tim.Lib.Document` then carry the
result from the section to the document, through the section `oauth2` and the table of its
providers for a `token_validation`.

The one that differs is `jwt.audience`. `JwtSection.DropsAudience` says how, and is carried to the
document in the same way.

* `field_update_none`, `field_update_some`: a field that is left out, and one that is there.
* `AppConfig.deserialize_omits`: every section but the one.
* `omitted_audience_differs`: the one.
-/

set_option autoImplicit false

namespace Tim.Boot

open Tim.OAuth Tim.Lib YamlCrates

variable {Y : YamlCrates} {α : Type} {fields : Y.Fields} {name : String} {n n' : Y.Tree}
  {read : Y.Tree → Option α} {a : α}

/-! ### An empty section -/

/-- The empty `server` section is read as the defaults. -/
theorem ServerConfig.deserialize_empty : ServerConfig.deserialize Y (.map []) = some {} := rfl

/-- So is the empty `database` section. -/
theorem DatabaseConfig.deserialize_empty : DatabaseConfig.deserialize Y (.map []) = some {} := rfl

/-- So is the empty `jwt` section. -/
theorem JwtSection.deserialize_empty : JwtSection.deserialize Y (.map []) = some {} := rfl

/-- An empty `audience` section has a default of its own, which the derived one does not have. -/
theorem AudienceConfig.deserialize_empty :
    AudienceConfig.deserialize Y (.map []) = some ⟨false, [], "tim-service"⟩ := rfl

/-- The empty `oauth2` section is read as the defaults. -/
theorem OAuth2Config.deserialize_empty : OAuth2Config.deserialize Y (.map []) = some {} := rfl

/-- So is the empty `token_validation` section. -/
theorem TokenValidationConfig.deserialize_empty :
    TokenValidationConfig.deserialize Y (.map []) = some TokenValidationConfig.defaults := rfl

/-- So is the empty `security` section. -/
theorem SecurityConfig.deserialize_empty : SecurityConfig.deserialize Y (.map []) = some {} := rfl

/-- So is the empty `introspection` section. -/
theorem IntrospectionConfig.deserialize_empty :
    IntrospectionConfig.deserialize Y (.map []) = some {} := rfl

/-! ### Fields -/

/-- A field that reads an empty map as its default does not see that an empty map is left out,
its own or another field's. -/
theorem field_update_none {other : String} (hget : fields other = some (.map []))
    (hread : read (.map []) = some a) :
    field (Function.update fields other none) name read a = field fields name read a := by
  by_cases h : name = other
  · subst h
    simp [field, hget, hread]
  · simp [field, Function.update_of_ne h]

/-- A field whose node is replaced by one that is read the same way. -/
theorem field_update_some (hget : fields name = some n) (hread : read n' = read n) :
    field (Function.update fields name (some n')) name read a
      = field fields name read a := by
  simp [field, hget, hread]

/-- A field by another name is not touched. -/
theorem field_update_of_ne {other : String} {v : Option Y.Tree} (h : name ≠ other) :
    field (Function.update fields other v) name read a = field fields name read a := by
  simp [field, Function.update_of_ne h]

/-- Neither is a required one. -/
theorem required_update_of_ne {other : String} {v : Option Y.Tree} (h : name ≠ other) :
    required (Function.update fields other v) name read = required fields name read := by
  simp [required, Function.update_of_ne h]

/-! ### Sections -/

/-- The sections of a configuration that may be left out. -/
inductive Section where
  | server
  | database
  | jwt
  | audience
  | oauth2
  | tokenValidation (provider : String)
  | security
  | introspection
  deriving DecidableEq

/-- Where a section stands in a document. -/
def Section.path : Section → List String
  | server => ["server"]
  | database => ["database"]
  | jwt => ["jwt"]
  | audience => ["jwt", "audience"]
  | oauth2 => ["oauth2"]
  | tokenValidation provider => ["oauth2", "providers", provider, "token_validation"]
  | security => ["security"]
  | introspection => ["introspection"]

variable {d d' : Y.Tree}

/-- A provider, with its `token_validation` left out. -/
theorem ProviderConfig.deserialize_omits (h : Omits Y.toScalars ["token_validation"] d d') :
    ProviderConfig.deserialize Y d' = ProviderConfig.deserialize Y d := by
  refine h.record_here (R := fun x y => y = x) (by decide) rfl fun fields hget => ?_
  simp (disch := decide) only [ProviderConfig.visitMap, field_update_of_ne,
    required_update_of_ne, field_update_none hget TokenValidationConfig.deserialize_empty]

/-- The `oauth2` section, with the `token_validation` of one of its providers left out. -/
theorem OAuth2Config.deserialize_omits {provider : String}
    (h : Omits Y.toScalars ["providers", provider, "token_validation"] d d') :
    OAuth2Config.deserialize Y d' = OAuth2Config.deserialize Y d := by
  refine h.record_inside (R := fun x y => y = x) (by decide) rfl fun fields n n' hn hget => ?_
  have hproviders : Y.hashMap (ProviderConfig.deserialize Y) n'
      = Y.hashMap (ProviderConfig.deserialize Y) n := by
    rw [hashMap, hashMap, hn.dict_inside fun _ _ => ProviderConfig.deserialize_omits]
  have := field_update_some (a := ∅) hget hproviders
  simp (disch := decide) only [OAuth2Config.visitMap, this, field_update_of_ne]

/-- The two forms of the `jwt` section, with an empty `audience` and without one. -/
def JwtSection.DropsAudience (jwt jwt' : JwtSection) : Prop :=
  jwt.audience = ⟨false, [], "tim-service"⟩
    ∧ jwt' = { jwt with audience := AudienceConfig.derivedDefault }

/-- A section that has lost its audience is another one. -/
theorem JwtSection.DropsAudience.ne {jwt jwt' : JwtSection} (h : jwt.DropsAudience jwt') :
    jwt' ≠ jwt := by
  intro heq
  have haudience : jwt.audience = AudienceConfig.derivedDefault := by
    rw [← heq, h.2]
  rw [h.1] at haudience
  exact absurd haudience (by decide)

/-- Without its `audience`, the section is read with the derived default in its place. -/
theorem JwtSection.deserialize_omits (h : Omits Y.toScalars ["audience"] d d') :
    Option.Rel JwtSection.DropsAudience (JwtSection.deserialize Y d)
      (JwtSection.deserialize Y d') := by
  refine h.record_here (by decide) .none fun fields hget => ?_
  have haudience : Option.Rel
      (fun a a' => a = ⟨false, [], "tim-service"⟩ ∧ a' = AudienceConfig.derivedDefault)
      (field fields "audience" (AudienceConfig.deserialize Y) AudienceConfig.derivedDefault)
      (field (Function.update fields "audience" none) "audience" (AudienceConfig.deserialize Y)
        AudienceConfig.derivedDefault) := by
    simp only [field, hget, AudienceConfig.deserialize_empty, Function.update_self]
    exact .some ⟨rfl, rfl⟩
  -- All fields but the audience are read from the same nodes.
  simp (disch := decide) only [JwtSection.visitMap, field_update_of_ne]
  refine rel_bind_same fun privateKeyPath => rel_bind_same fun keyId => ?_
  refine rel_bind_same fun issuer => rel_bind haudience ?_
  rintro audience audience' ⟨rfl, rfl⟩
  refine rel_bind_same fun maxClaimsBytes => rel_bind_same fun bulkRevokeMax => ?_
  refine rel_bind_same fun cookieName => rel_bind_same fun previousKey => ?_
  exact rel_bind_same fun rotationWarnDays => .some ⟨rfl, rfl⟩

/-- The two forms of a configuration, with an empty `jwt.audience` and without one. -/
theorem AppConfig.deserialize_omits_audience (h : Omits Y.toScalars ["jwt", "audience"] d d') :
    Option.Rel (fun cfg cfg' : AppConfig => cfg.jwt.DropsAudience cfg'.jwt)
      (AppConfig.deserialize Y d) (AppConfig.deserialize Y d') := by
  refine h.record_inside (by decide) .none fun fields n n' hn hget => ?_
  have hjwt : Option.Rel JwtSection.DropsAudience
      (field fields "jwt" (JwtSection.deserialize Y) {})
      (field (Function.update fields "jwt" (some n')) "jwt" (JwtSection.deserialize Y) {}) := by
    simp only [field, hget, Function.update_self]
    exact JwtSection.deserialize_omits hn
  simp (disch := decide) only [AppConfig.visitMap, field_update_of_ne]
  refine rel_bind_same fun server => rel_bind_same fun database => rel_bind hjwt ?_
  intro jwt jwt' hdrops
  refine rel_bind_same fun oauth2 => rel_bind_same fun security => ?_
  exact rel_bind_same fun introspection => .some hdrops

/-- A whole section is read from an empty map as what it is when it is missing. -/
theorem AppConfig.visitMap_update_none (hget : fields name = some (.map [])) :
    AppConfig.visitMap Y (Function.update fields name none) = AppConfig.visitMap Y fields := by
  simp only [AppConfig.visitMap, field_update_none hget ServerConfig.deserialize_empty,
    field_update_none hget DatabaseConfig.deserialize_empty,
    field_update_none hget JwtSection.deserialize_empty,
    field_update_none hget OAuth2Config.deserialize_empty,
    field_update_none hget SecurityConfig.deserialize_empty,
    field_update_none hget IntrospectionConfig.deserialize_empty]

/-- A section at the top that is left out makes no difference. -/
theorem AppConfig.deserialize_omits_section (h : Omits Y.toScalars [name] d d')
    (hname : name ∈ ["server", "database", "jwt", "oauth2", "security", "introspection"]) :
    AppConfig.deserialize Y d' = AppConfig.deserialize Y d :=
  h.record_here (R := fun x y => y = x) hname rfl fun _ hget => visitMap_update_none hget

/-- Neither does the `token_validation` of a provider. -/
theorem AppConfig.deserialize_omits_tokenValidation {provider : String}
    (h : Omits Y.toScalars ["oauth2", "providers", provider, "token_validation"] d d') :
    AppConfig.deserialize Y d' = AppConfig.deserialize Y d := by
  refine h.record_inside (R := fun x y => y = x) (by decide) rfl fun fields n n' hn hget => ?_
  have := field_update_some (a := {}) hget (OAuth2Config.deserialize_omits hn)
  simp (disch := decide) only [AppConfig.visitMap, this, field_update_of_ne]

/-- Neither does any other section but the `audience`. -/
theorem AppConfig.deserialize_omits {s : Section} (h : Omits Y.toScalars s.path d d')
    (hs : s ≠ .audience) : AppConfig.deserialize Y d' = AppConfig.deserialize Y d := by
  cases s with
  | audience => exact absurd rfl hs
  | tokenValidation provider => exact deserialize_omits_tokenValidation h
  | server => exact deserialize_omits_section h (by decide)
  | database => exact deserialize_omits_section h (by decide)
  | jwt => exact deserialize_omits_section h (by decide)
  | oauth2 => exact deserialize_omits_section h (by decide)
  | security => exact deserialize_omits_section h (by decide)
  | introspection => exact deserialize_omits_section h (by decide)

/-! ### Files -/

/-- `serde_yaml_ng::from_str` makes a tree of the text and reads the configuration from it. -/
def ReadsTree (K : BootCrates) (tree : String → Option Y.Tree) : Prop :=
  ∀ raw, (K.parseYaml raw).toOption = (tree raw).bind (AppConfig.deserialize Y)

/-- `from_path` gives the configuration that the parser reads, when it is valid. -/
theorem AppConfig.fromPath_toOption {K : BootCrates} {files : Files} {path raw : String}
    (hraw : files.readToString path = .ok raw) :
    (AppConfig.fromPath K files path).toOption
      = (K.parseYaml raw).toOption.filter fun cfg => cfg.validate.isOk := by
  cases hparse : K.parseYaml raw with
  | error e =>
      simp only [fromPath, hraw, hparse]
      rfl
  | ok cfg =>
      simp only [fromPath, hraw, hparse]
      cases hvalid : cfg.validate with
      | error e => simp [Except.toOption, Option.filter, hvalid, Except.isOk, Except.toBool]
      | ok u => simp [Except.toOption, Option.filter, hvalid, Except.isOk, Except.toBool]

/-- Two files that differ in a section that is left out give the same configuration. -/
theorem AppConfig.fromPath_omits {K : BootCrates} {tree : String → Option Y.Tree}
    (hK : ReadsTree K tree) {files : Files} {path path' raw raw' : String} {s : Section}
    (hraw : files.readToString path = .ok raw) (hraw' : files.readToString path' = .ok raw')
    (hd : tree raw = some d) (hd' : tree raw' = some d') (h : Omits Y.toScalars s.path d d')
    (hs : s ≠ .audience) :
    (AppConfig.fromPath K files path').toOption = (AppConfig.fromPath K files path).toOption := by
  rw [fromPath_toOption hraw, fromPath_toOption hraw', hK raw, hK raw', hd, hd',
    Option.bind_some, Option.bind_some, deserialize_omits h hs]

/-- A section that is left out and one that is empty. A document is refused in both forms or in
neither, and the two configurations are the same for every section but `jwt.audience`: its
`Default` is derived, and has no default audience. -/
theorem omitted_section (s : Section) (h : Omits Y.toScalars s.path d d') :
    (AppConfig.deserialize Y d = none ↔ AppConfig.deserialize Y d' = none)
      ∧ ∀ cfg cfg', AppConfig.deserialize Y d = some cfg →
          AppConfig.deserialize Y d' = some cfg' → (cfg' = cfg ↔ s ≠ .audience) := by
  by_cases hs : s = .audience
  · subst hs
    have hrel := AppConfig.deserialize_omits_audience h
    refine ⟨rel_none_iff hrel, ?_⟩
    intro cfg cfg' hcfg hcfg'
    rw [hcfg, hcfg'] at hrel
    cases hrel with
    | some hdrops =>
        have hne : cfg' ≠ cfg := fun heq => hdrops.ne (congrArg AppConfig.jwt heq)
        simp [hne]
  · rw [AppConfig.deserialize_omits h hs]
    refine ⟨Iff.rfl, ?_⟩
    intro cfg cfg' hcfg hcfg'
    have heq : cfg' = cfg := Option.some.inj (hcfg'.symm.trans hcfg)
    exact ⟨fun _ => hs, fun _ => heq⟩

namespace Sample

/-- Scalars as plain texts. -/
def scalars : YamlCrates where
  Scalar := String
  text := some
  isEmptyMap s := s.isEmpty
  parseBool s := if s = "true" then some true else if s = "false" then some false else none
  parseUnsigned s := (s.toNat?.filter (· < UInt64.size)).map UInt64.ofNat
  isNull s := s = "" || s = "~" || s = "null"
  isEmptySeq s := s.isEmpty
  parseInstant _ := none

/-- A document with an empty `jwt.audience`. -/
def withAudience : scalars.Tree :=
  .map [(.scalar "jwt", .map [(.scalar "audience", .map []), (.scalar "issuer", .scalar "A")])]

/-- The same document without it. -/
def withoutAudience : scalars.Tree :=
  .map [(.scalar "jwt", .map [(.scalar "issuer", .scalar "A")])]

/-- The two sample documents differ in the `audience` section only. -/
theorem omits_audience :
    Omits scalars.toScalars Section.audience.path withAudience withoutAudience := by
  refine @Omits.inside scalars.toScalars "jwt" _ (.scalar "jwt") _ _ [] [] rfl ?_
  refine @Omits.here scalars.toScalars "audience" (.scalar "audience") []
    [(.scalar "issuer", .scalar "A")] rfl ?_
  intro e he
  obtain rfl : e = (.scalar "issuer", .scalar "A") := List.mem_singleton.mp he
  show some "issuer" ≠ some "audience"
  decide

end Sample

open Tim.Boot.Sample in
/-- Both forms are read, and the two configurations are not the same. -/
theorem omitted_section_audience : ∃ cfg cfg',
    AppConfig.deserialize scalars withAudience = some cfg
      ∧ AppConfig.deserialize scalars withoutAudience = some cfg' ∧ cfg' ≠ cfg := by
  refine ⟨_, _, rfl, rfl, ?_⟩
  intro heq
  exact ((omitted_section .audience omits_audience).2 _ _ rfl rfl).mp heq rfl

open Tim.Boot.Sample in
/-- With an empty `jwt.audience` the default audience is the documented one. Without the section
there is none, and the tokens that are issued without an audience differ. -/
theorem omitted_audience_differs :
    Omits scalars.toScalars Section.audience.path withAudience withoutAudience
      ∧ (AppConfig.deserialize scalars withAudience).map (·.jwt.audience.default)
          = some "tim-service"
      ∧ (AppConfig.deserialize scalars withoutAudience).map (·.jwt.audience.default)
          = some "" :=
  ⟨omits_audience, rfl, rfl⟩

end Tim.Boot
