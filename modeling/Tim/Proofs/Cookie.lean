import Tim.Proofs.InternalErrors
import Tim.Proofs.Replies
import Tim.Proofs.Text

/-!
# `Tim.Proofs.Cookie`: cookies that are written and read back

`build_cookie` puts a name and a token into a `Set-Cookie` header, a client takes the cookie out of
it and sends it back among its other cookies, and `cookie_value` looks the name up again. The client
is that of RFC 6265, which `cookie_value` names: `parseSetCookie` and `cookieHeader`. The way there
and back gives the token exactly for the names of `ReadableName` (`roundTrip_iff`). `generate` takes
any name, the two legacy `extend` routes only names that have been read from a cookie before.

* `parseSetCookie_build`: the client takes the name and the token out of the header.
* `readPart_own`, `readPart_other`: the reader finds the cookie among the others.
* `name_of_parse`: a name that comes through the client is a readable one.
* `cookie_returns_iff`: the routes: when they set a cookie, and when it comes back.
-/

set_option autoImplicit false

namespace Tim.Web

open Tim.Lib Tim.Lib.Prog

/-! ### The client -/

/-- The white space that a client strips: the space and the tab. -/
def isWsp (c : Char) : Bool := c.toNat = 9 || c.toNat = 32

def stripWsp (s : String) : String := String.ofList (strip isWsp s.toList)

/-- A cookie as a `Set-Cookie` header describes it. -/
structure SetCookie where
  name : String
  value : String
  attributes : List (String × String)

/-- One attribute of a `Set-Cookie` header. -/
def parseAttribute (text : String) : String × String :=
  match splitOnce text '=' with
  | some (name, value) => (stripWsp name, stripWsp value)
  | none => (stripWsp text, "")

/-- The cookie that a client takes from a `Set-Cookie` header. One without a name is ignored. -/
def parseSetCookie (header : String) : Option SetCookie :=
  match splitChar header ';' with
  | [] => none
  | pair :: attributes =>
      match splitOnce pair '=' with
      | none => none
      | some (name, value) =>
          if stripWsp name = "" then none
          else some ⟨stripWsp name, stripWsp value, attributes.map parseAttribute⟩

def pairText (p : String × String) : String := p.1 ++ "=" ++ p.2

/-- The `Cookie` header of a client. -/
def cookieHeader : List (String × String) → String
  | [] => ""
  | [p] => pairText p
  | p :: q :: rest => pairText p ++ ";" ++ (" " ++ cookieHeader (q :: rest))

/-- A cookie of a client. Its name has been taken out of a header, so that it has none of the
separators and no white space at its ends. -/
structure Cookie where
  name : String
  value : String
  name_semi : ';' ∉ name.toList
  name_eq : '=' ∉ name.toList
  name_firm : Firm isWsp name.toList
  value_semi : ';' ∉ value.toList

def Cookie.pair (c : Cookie) : String × String := (c.name, c.value)

/-- One cookie among others. -/
def sent (before after : List Cookie) (own : String × String) : List (String × String) :=
  before.map Cookie.pair ++ own :: after.map Cookie.pair

/-- What holds of every cookie that a client sends: of its own, and of the others around it. -/
theorem forall_sent {before after : List Cookie} {own : String × String}
    {P : String × String → Prop} :
    (∀ p ∈ sent before after own, P p) ↔ P own ∧ ∀ c ∈ before ++ after, P c.pair := by
  unfold sent
  simp only [List.forall_mem_append, List.forall_mem_cons, List.forall_mem_map]
  tauto

/-- The attributes of the cookies that the server sets. -/
def cookieAttributes : List (String × String) :=
  [("Path", "/"), ("HttpOnly", ""), ("Secure", ""), ("SameSite", "Lax")]

/-- The header sets one cookie, with this name, this value and the four attributes. Sent back with
other cookies before and after it, it is read as this value. -/
def RoundTrip (header name token : String) (before after : List Cookie) : Prop :=
  parseSetCookie header = some ⟨name, token, cookieAttributes⟩
  ∧ ∀ req : HttpRequest,
      req.rawHeader "cookie" = some (asBytes (cookieHeader (sent before after (name, token)))) →
      req.cookieValue name = some token

/-- The names of cookies that come back. -/
structure ReadableName (name : String) : Prop where
  nonempty : name ≠ ""
  header : ∀ c ∈ name.toList, isHeaderChar c = true
  semi : ';' ∉ name.toList
  eq : '=' ∉ name.toList
  firm : Firm isWsp name.toList

/-- A cookie with characters that `to_str` lets through. -/
def Cookie.Readable (c : Cookie) : Prop :=
  (∀ d ∈ c.name.toList, isHeaderChar d = true) ∧ ∀ d ∈ c.value.toList, isHeaderChar d = true

/-- The text of a compact JWT: letters and digits of base64url, and dots. -/
def JwtText (s : String) : Prop :=
  s ≠ "" ∧ ∀ c ∈ s.toList, c.isAlphanum = true ∨ c = '-' ∨ c = '_' ∨ c = '.'

/-! ### Characters -/

/-- Among the characters of a header, the white space of `trim` is that of the client. -/
theorem isWhitespace_of_header {c : Char} (h : isHeaderChar c = true) :
    isWhitespace c = isWsp c := by
  simp only [isHeaderChar, Bool.or_eq_true, Bool.and_eq_true, decide_eq_true_eq] at h
  rw [Bool.eq_iff_iff]
  simp only [isWhitespace, isWsp, List.contains_eq_mem, List.mem_cons, List.not_mem_nil, or_false,
    Bool.or_eq_true, Bool.and_eq_true, decide_eq_true_eq]
  omega

/-- A text of a header is trimmed by one exactly when it is by the other. -/
theorem firm_of_header {l : List Char} (h : ∀ c ∈ l, isHeaderChar c = true) :
    Firm isWsp l ↔ Firm isWhitespace l := by
  have hhead : ∀ c ∈ l.head?, isWhitespace c = isWsp c :=
    fun c hc => isWhitespace_of_header (h c (List.mem_of_mem_head? hc))
  have hlast : ∀ c ∈ l.getLast?, isWhitespace c = isWsp c :=
    fun c hc => isWhitespace_of_header (h c (List.mem_of_mem_getLast? hc))
  constructor
  · exact fun hf => ⟨fun c hc => (hhead c hc).trans (hf.1 c hc),
      fun c hc => (hlast c hc).trans (hf.2 c hc)⟩
  · exact fun hf => ⟨fun c hc => (hhead c hc).symm.trans (hf.1 c hc),
      fun c hc => (hlast c hc).symm.trans (hf.2 c hc)⟩

/-- The characters of a compact token: none of them separates cookies or is trimmed. -/
theorem JwtText.char {s : String} (h : JwtText s) {c : Char} (hc : c ∈ s.toList) :
    isHeaderChar c = true ∧ isWhitespace c = false ∧ c ≠ ';' := by
  have hclass : 33 ≤ c.toNat ∧ c.toNat < 127 ∧ c.toNat ≠ 59 := by
    rcases h.2 c hc with hc | rfl | rfl | rfl
    · delta Char.isAlphanum Char.isAlpha Char.isUpper Char.isLower Char.isDigit at hc
      simp only [Bool.or_eq_true, Bool.and_eq_true, decide_eq_true_eq,
        UInt32.le_iff_toNat_le] at hc
      have hval : c.toNat = c.val.toNat := rfl
      simp at hc
      omega
    · decide
    · decide
    · decide
  have hheader : isHeaderChar c = true := by
    simp only [isHeaderChar, Bool.or_eq_true, Bool.and_eq_true, decide_eq_true_eq]
    omega
  refine ⟨hheader, ?_, fun heq => hclass.2.2 (by rw [heq]; rfl)⟩
  rw [isWhitespace_of_header hheader, isWsp]
  simp only [Bool.or_eq_false_iff, decide_eq_false_iff_not]
  omega

/-! ### The header that is set -/

/-- A header that can be sent has the name, the token and the four attributes. For a name that no
header can hold, the fallback is an empty header. -/
theorem buildCookie_eq {name token : String} (hname : ∀ c ∈ name.toList, isHeaderChar c = true)
    (htoken : JwtText token) :
    buildCookie name token
      = name ++ "=" ++ token ++ "; Path=/; HttpOnly; Secure; SameSite=Lax" := by
  have hrest : ∀ c ∈ ("; Path=/; HttpOnly; Secure; SameSite=Lax" : String).toList,
      isHeaderChar c = true := List.all_eq_true.mp (by decide)
  have hall : ∀ c ∈ (name ++ "=" ++ token ++ "; Path=/; HttpOnly; Secure; SameSite=Lax").toList,
      isHeaderChar c = true := by
    intro c hc
    rw [String.toList_append, String.toList_append, String.toList_append] at hc
    rcases List.mem_append.mp hc with hc | hc
    · rcases List.mem_append.mp hc with hc | hc
      · rcases List.mem_append.mp hc with hc | hc
        · exact hname c hc
        · cases List.mem_singleton.mp hc
          decide
      · exact (htoken.char hc).1
    · exact hrest c hc
  have hbytes : headerText (asBytes (name ++ "=" ++ token
      ++ "; Path=/; HttpOnly; Secure; SameSite=Lax")) = some _ :=
    headerText_eq_some.mpr ⟨rfl, hall⟩
  unfold headerText at hbytes
  unfold buildCookie
  dsimp only
  rw [if_pos]
  split at hbytes
  · rename_i hok
    refine List.all_eq_true.mpr fun b hb => ?_
    -- What `to_str` reads, `from_str` accepts.
    have := List.all_eq_true.mp hok b hb
    simp only [Bool.or_eq_true, Bool.and_eq_true, decide_eq_true_eq] at this ⊢
    rcases this with h | ⟨h, hlt⟩
    · exact .inl h
    · exact .inr ⟨h, fun heq => by rw [heq] at hlt; exact absurd hlt (by decide)⟩
  · cases hbytes

/-- The name that a client takes from a header has no separator and nothing to strip. -/
theorem name_of_parse {header : String} {c : SetCookie} (h : parseSetCookie header = some c) :
    c.name ≠ "" ∧ ';' ∉ c.name.toList ∧ '=' ∉ c.name.toList ∧ Firm isWsp c.name.toList := by
  unfold parseSetCookie at h
  split at h
  · cases h
  · rename_i pair attributes hparts
    split at h
    · cases h
    · rename_i name value hpair
      split at h
      · cases h
      · rename_i hne
        cases h
        obtain ⟨heq, hnot⟩ := splitOnce_eq_some.mp hpair
        have hsemi : ';' ∉ pair.toList := mem_splitChar (s := header) (by simp [hparts])
        -- What is left of the name after stripping was in it before.
        have hsub : ∀ d ∈ (stripWsp name).toList, d ∈ name.toList := by
          intro d hd
          obtain ⟨front, back, hsplit, -⟩ := exists_strip isWsp name.toList
          rw [stripWsp, String.toList_ofList] at hd
          rw [hsplit]
          simp [hd]
        refine ⟨hne, fun hmem => hsemi ?_, fun hmem => hnot (hsub _ hmem), ?_⟩
        · rw [heq]
          exact List.mem_append_left _ (hsub _ hmem)
        · rw [stripWsp, String.toList_ofList]
          exact firm_strip _ _

/-- A text that is firm at both ends stays as it is. -/
theorem stripWsp_of_firm {s : String} (h : Firm isWsp s.toList) : stripWsp s = s := by
  rw [stripWsp, strip_of_firm h, String.ofList_toList]

/-- A client takes the name, the token and the attributes out of the header, when the name is a
readable one. -/
theorem parseSetCookie_build {name token : String} (hname : ReadableName name)
    (htoken : JwtText token) :
    parseSetCookie (buildCookie name token) = some ⟨name, token, cookieAttributes⟩ := by
  -- The first semicolon is the one behind the token.
  have hparts : splitChar (buildCookie name token) ';'
      = (name ++ "=" ++ token) :: splitChar " Path=/; HttpOnly; Secure; SameSite=Lax" ';' := by
    refine splitChar_append ?_ ?_
    · intro hmem
      simp only [String.toList_append, List.mem_append] at hmem
      rcases hmem with (hmem | hmem) | hmem
      · exact hname.semi hmem
      · cases List.mem_singleton.mp hmem
      · exact (htoken.char hmem).2.2 rfl
    · rw [buildCookie_eq hname.header htoken]
      simp
  have hrest : splitChar " Path=/; HttpOnly; Secure; SameSite=Lax" ';'
      = [" Path=/", " HttpOnly", " Secure", " SameSite=Lax"] := by decide +kernel
  have hattributes : [" Path=/", " HttpOnly", " Secure", " SameSite=Lax"].map parseAttribute
      = cookieAttributes := by decide +kernel
  have hpair : splitOnce (name ++ "=" ++ token) '=' = some (name, token) :=
    splitOnce_eq_some.mpr ⟨by simp, hname.eq⟩
  -- A token has no white space at all, so nothing is stripped from it.
  have hfirm : Firm isWsp token.toList := by
    rw [firm_of_header fun c hc => (htoken.char hc).1]
    exact .of_forall fun c hc => (htoken.char hc).2.1
  unfold parseSetCookie
  rw [hparts, hrest]
  dsimp only
  rw [hpair]
  dsimp only
  rw [stripWsp_of_firm hname.firm, stripWsp_of_firm hfirm, if_neg hname.nonempty, hattributes]

/-! ### The header that is read -/

/-- What `cookie_value` does with one part of the header. -/
def readPart (name part : String) : Option String :=
  match splitOnce (trim part) '=' with
  | some (k, v) => if trim k = name ∧ !v.isEmpty then some (trim v) else none
  | none => none

/-- The value is that of the first part that is read under the name. -/
theorem cookieValue_eq {req : HttpRequest} {raw : String} (h : req.header "cookie" = some raw)
    (name : String) : req.cookieValue name = (splitChar raw ';').findSome? (readPart name) := by
  unfold HttpRequest.cookieValue
  rw [h]
  rfl

/-- The blank that a client sends after a semicolon is trimmed away. -/
theorem readPart_gap {gap : String} (hgap : ∀ c ∈ gap.toList, isWhitespace c = true)
    (name part : String) : readPart name (gap ++ part) = readPart name part := by
  have htrim : trim (gap ++ part) = trim part := by
    apply String.toList_injective
    rw [toList_trim, toList_trim, String.toList_append, strip_front hgap]
  unfold readPart
  rw [htrim]

/-- Trimming a part of the header does not move its first `=`. -/
theorem splitOnce_trim {part : String} {x y : List Char} (h : part.toList = x ++ '=' :: y)
    (hx : '=' ∉ x) :
    ∃ k w back, splitOnce (trim part) '=' = some (k, w) ∧ (trim k).toList = strip isWhitespace x
      ∧ y = w.toList ++ back ∧ ∀ c ∈ back, isWhitespace c = true := by
  obtain ⟨front, back, hsplit, hfront, hback, -⟩ := exists_strip isWhitespace part.toList
  have hno : ∀ l : List Char, (∀ c ∈ l, isWhitespace c = true) → '=' ∉ l :=
    fun l hl hmem => absurd (hl _ hmem) (by decide)
  rw [← toList_trim] at hsplit
  have hmem : '=' ∈ (trim part).toList := by
    have hpart : '=' ∈ part.toList := by simp [h]
    rw [hsplit] at hpart
    simpa [hno front hfront, hno back hback] using hpart
  obtain ⟨⟨k, w⟩, hkw⟩ := Option.ne_none_iff_exists'.mp (mt splitOnce_eq_none.mp (not_not.mpr hmem))
  obtain ⟨htrim, hk⟩ := splitOnce_eq_some.mp hkw
  -- Both sides are cut at the first `=`.
  have hleft : cut '=' part.toList = some (front ++ k.toList, w.toList ++ back) := by
    refine cut_eq_some.mpr ⟨?_, ?_⟩
    · rw [hsplit, htrim]
      simp
    · simp [hno front hfront, hk]
  rw [h, cut_append hx] at hleft
  obtain ⟨hxk, hyw⟩ := Prod.mk.inj (Option.some.inj hleft)
  refine ⟨k, w, back, hkw, ?_, hyw, hback⟩
  rw [toList_trim, hxk, strip_front hfront]

/-- The characters of a pair. -/
theorem toList_pairText (p : String × String) :
    (pairText p).toList = p.1.toList ++ '=' :: p.2.toList := by
  simp [pairText]

/-- The part with the cookie itself gives the token. -/
theorem readPart_own {name token : String} (hname : ReadableName name) (htoken : JwtText token) :
    readPart name (pairText (name, token)) = some token := by
  obtain ⟨k, w, back, hkw, hk, hw, hback⟩ := splitOnce_trim (toList_pairText (name, token)) hname.eq
  have hkey : trim k = name := by
    apply String.toList_injective
    rw [hk, strip_of_firm ((firm_of_header hname.header).mp hname.firm)]
  -- What was trimmed at the end is part of the token, and white space.
  have hempty : back = [] := by
    rw [List.eq_nil_iff_forall_not_mem]
    intro c hc
    have hmem : c ∈ token.toList := by
      show c ∈ (name, token).2.toList
      rw [hw]
      exact List.mem_append_right _ hc
    have hwhite := hback c hc
    rw [(htoken.char hmem).2.1] at hwhite
    cases hwhite
  have hvalue : w = token := by
    rw [hempty, List.append_nil] at hw
    exact String.toList_injective hw.symm
  subst hvalue
  have htrim : trim w = w := trim_eq_self fun c hc => (htoken.char hc).2.1
  unfold readPart
  rw [hkw]
  dsimp only
  rw [if_pos ⟨hkey, by simpa using htoken.1⟩, htrim]

/-- A part with another cookie gives nothing. -/
theorem readPart_other {name : String} {c : Cookie} (hc : c.Readable) (hne : c.name ≠ name) :
    readPart name (pairText (c.name, c.value)) = none := by
  obtain ⟨k, w, back, hkw, hk, -⟩ := splitOnce_trim (toList_pairText (c.name, c.value)) c.name_eq
  have hkey : trim k = c.name := by
    apply String.toList_injective
    rw [hk, strip_of_firm ((firm_of_header hc.1).mp c.name_firm)]
  unfold readPart
  rw [hkw]
  dsimp only
  rw [if_neg fun h => hne (hkey.symm.trans h.1)]

/-- The parts of the header are the pairs of the client, but for the white space in front. -/
theorem findSome_parts {pairs : List (String × String)} (hne : pairs ≠ [])
    (hsemi : ∀ p ∈ pairs, ';' ∉ p.1.toList ∧ ';' ∉ p.2.toList) (name : String) :
    (splitChar (cookieHeader pairs) ';').findSome? (readPart name)
      = (pairs.map pairText).findSome? (readPart name) := by
  -- Every pair but the first has a space in front, so the induction carries a gap.
  suffices hgap : ∀ gap : String, (∀ c ∈ gap.toList, isWhitespace c = true) →
      (splitChar (gap ++ cookieHeader pairs) ';').findSome? (readPart name)
        = (pairs.map pairText).findSome? (readPart name) by
    simpa using hgap "" (by simp)
  have hpair : ∀ (gap : String) (p : String × String), (∀ c ∈ gap.toList, isWhitespace c = true) →
      p ∈ pairs → ';' ∉ (gap ++ pairText p).toList := by
    intro gap p hgap hp hmem
    rw [String.toList_append, toList_pairText] at hmem
    simp only [List.mem_append, List.mem_cons, (hsemi p hp).1, (hsemi p hp).2, or_false,
      false_or] at hmem
    rcases hmem with hmem | hmem
    · exact absurd (hgap _ hmem) (by decide)
    · cases hmem
  induction pairs with
  | nil => exact absurd rfl hne
  | cons p rest ih =>
      intro gap hgap
      have hfirst := hpair gap p hgap List.mem_cons_self
      cases rest with
      | nil =>
          rw [cookieHeader, splitChar_single hfirst]
          simp [readPart_gap hgap]
      | cons q rest =>
          rw [cookieHeader, splitChar_append (a := gap ++ pairText p)
            (b := " " ++ cookieHeader (q :: rest)) hfirst (by simp)]
          rw [List.findSome?_cons, readPart_gap hgap, List.map_cons, List.findSome?_cons]
          rw [ih (by simp) (fun r hr => hsemi r (List.mem_cons_of_mem _ hr))
            (fun gap r hgap hr => hpair gap r hgap (List.mem_cons_of_mem _ hr)) " "
            (List.all_eq_true.mp (by decide))]

/-- The characters of the header are those of the pairs, and separators. -/
theorem cookieHeader_chars {pairs : List (String × String)} (hne : pairs ≠ []) :
    (∀ c ∈ (cookieHeader pairs).toList, isHeaderChar c = true)
      ↔ ∀ p ∈ pairs, (∀ c ∈ p.1.toList, isHeaderChar c = true)
        ∧ ∀ c ∈ p.2.toList, isHeaderChar c = true := by
  have hpair : ∀ p : String × String, (∀ c ∈ (pairText p).toList, isHeaderChar c = true)
      ↔ (∀ c ∈ p.1.toList, isHeaderChar c = true) ∧ ∀ c ∈ p.2.toList, isHeaderChar c = true := by
    intro p
    rw [toList_pairText, List.forall_mem_append, List.forall_mem_cons]
    exact and_congr_right fun _ => ⟨fun h => h.2, fun h => ⟨by decide, h⟩⟩
  induction pairs with
  | nil => exact absurd rfl hne
  | cons p rest ih =>
      cases rest with
      | nil => simpa [cookieHeader] using hpair p
      | cons q rest =>
          have hrest := ih (List.cons_ne_nil q rest)
          rw [cookieHeader, String.toList_append, String.toList_append, String.toList_append,
            List.forall_mem_append, List.forall_mem_append, List.forall_mem_append,
            List.forall_mem_cons (a := p)]
          have hsemi : ∀ c ∈ (";" : String).toList, isHeaderChar c = true :=
            List.all_eq_true.mp (by decide)
          have hspace : ∀ c ∈ (" " : String).toList, isHeaderChar c = true :=
            List.all_eq_true.mp (by decide)
          constructor
          · exact fun h => ⟨(hpair p).mp h.1.1, hrest.mp h.2.2⟩
          · exact fun h => ⟨⟨(hpair p).mpr h.1, hsemi⟩, hspace, hrest.mpr h.2⟩

/-! ### There and back -/

/-- A name that a cookie of a request was read by. -/
theorem readableName_of_cookieValue {req : HttpRequest} {name token : String}
    (h : req.cookieValue name = some token) (hne : name ≠ "") : ReadableName name := by
  cases hraw : req.header "cookie" with
  | none =>
      unfold HttpRequest.cookieValue at h
      rw [hraw] at h
      cases h
  | some raw =>
      rw [cookieValue_eq hraw] at h
      obtain ⟨part, hpart, hread⟩ := List.exists_of_findSome?_eq_some h
      unfold readPart at hread
      split at hread
      · rename_i k v hkv
        split at hread
        · rename_i hkey
          obtain ⟨htrim, hk⟩ := splitOnce_eq_some.mp hkv
          obtain ⟨front, back, hsplit, -⟩ := exists_strip isWhitespace k.toList
          obtain ⟨front', back', hsplit', -⟩ := exists_strip isWhitespace part.toList
          rw [← toList_trim] at hsplit hsplit'
          rw [hkey.1] at hsplit
          -- The name is inside the key, the key inside the part, and the part inside the header.
          have hname : ∀ c ∈ name.toList, c ∈ k.toList := fun c hc => by
            rw [hsplit]
            simp [hc]
          have hinside : ∀ c ∈ name.toList, c ∈ part.toList := fun c hc => by
            rw [hsplit', htrim]
            simp [hname c hc]
          have hheader := (HttpRequest.header_eq_some.mp hraw).2
          have hchars : ∀ c ∈ name.toList, isHeaderChar c = true :=
            fun c hc => hheader c (mem_of_mem_splitChar hpart (hinside c hc))
          refine ⟨hne, hchars, fun hmem => mem_splitChar hpart (hinside _ hmem),
            fun hmem => hk (hname _ hmem), (firm_of_header hchars).mpr (firm_of_trim ?_)⟩
          rw [← hkey.1, trim_trim]
        · cases hread
      · cases hread

/-- The cookie comes back if and only if its name is readable, and the other cookies are. -/
theorem roundTrip_iff {name token : String} {before after : List Cookie} (htoken : JwtText token)
    (hother : ∀ c ∈ before ++ after, c.name ≠ name) :
    RoundTrip (buildCookie name token) name token before after
      ↔ ReadableName name ∧ ∀ c ∈ before ++ after, c.Readable := by
  have hne : sent before after (name, token) ≠ [] := by simp [sent]
  constructor
  · rintro ⟨hset, hread⟩
    obtain ⟨hname, hsemi, heq, hfirm⟩ := name_of_parse hset
    -- A request with that header and nothing else.
    let req : HttpRequest := ⟨.get, [], [],
      [("cookie", asBytes (cookieHeader (sent before after (name, token))))], []⟩
    have hvalue := hread req rfl
    cases hraw : req.header "cookie" with
    | none =>
        unfold HttpRequest.cookieValue at hvalue
        rw [hraw] at hvalue
        cases hvalue
    | some raw =>
        obtain ⟨hbytes, hheader⟩ := HttpRequest.header_eq_some.mp hraw
        rw [← asBytes_injective (Option.some.inj hbytes), cookieHeader_chars hne,
          forall_sent] at hheader
        exact ⟨⟨hname, hheader.1.1, hsemi, heq, hfirm⟩, hheader.2⟩
  · rintro ⟨hname, hcookies⟩
    refine ⟨parseSetCookie_build hname htoken, fun req hraw => ?_⟩
    have hheader := HttpRequest.header_eq_some.mpr ⟨hraw, (cookieHeader_chars hne).mpr
      (forall_sent.mpr ⟨⟨hname.header, fun c hc => (htoken.char hc).1⟩, hcookies⟩)⟩
    have hsemi : ∀ p ∈ sent before after (name, token), ';' ∉ p.1.toList ∧ ';' ∉ p.2.toList :=
      forall_sent.mpr ⟨⟨hname.semi, fun hmem => (htoken.char hmem).2.2 rfl⟩,
        fun c _ => ⟨c.name_semi, c.value_semi⟩⟩
    have hbefore : (before.map (pairText ∘ Cookie.pair)).findSome? (readPart name) = none := by
      rw [List.findSome?_eq_none_iff]
      intro part hpart
      obtain ⟨c, hc, rfl⟩ := List.mem_map.mp hpart
      have hc' := List.mem_append_left after hc
      exact readPart_other (hcookies c hc') (hother c hc')
    rw [cookieValue_eq hheader, findSome_parts hne hsemi, sent, List.map_append, List.map_map,
      List.findSome?_append, hbefore, List.map_cons, List.findSome?_cons,
      readPart_own hname htoken]
    rfl

/-! ### The routes -/

namespace AppState

variable {K : WebCrates}

/-- The answers from outside, with a signer that makes compact JWTs. -/
abbrev SignsJwts (K : WebCrates) : (o : WebOp) → WebResp K o → Prop :=
  WebModest fun t => JwtText (K.tokenText t)

/-- The name of the cookie that the route sets, and the token that its reply has. -/
def CookieOf (app : AppState K) (req : HttpRequest) (e : Endpoint) (r : Reply K)
    (name token : String) : Prop :=
  app.cookieNameFor req e = some name
    ∧ ∃ resp, r.body = .token resp ∧ K.tokenText resp.token = token

/-- The legacy route for a named cookie sets readable names only: it has read one by that name. -/
theorem customExtend_readable (app : AppState K) (req : HttpRequest) :
    (app.handler req .jwtCustomExtend).Under (S := webSig K) (SignsJwts K) fun x =>
      ∀ r name, x = .ok r → app.cookieNameFor req .jwtCustomExtend = some name →
        ReadableName name := by
  refine (adminAuth_modest app req).bind_under (fun _ => ?_) ?_
  · cases hbody : stringBody K app.maxRequestBytes req with
    | error r =>
        rintro r name ⟨⟩
    | ok body =>
        have hname : app.cookieNameFor req .jwtCustomExtend = some (cookieNameOf body) := by
          rw [cookieNameFor, hbody]
          rfl
        show Under (S := webSig K) _ _ (if (cookieNameOf body).isEmpty then _ else _)
        split
        · rintro r name ⟨⟩
        · rename_i hne
          unfold extendCookie
          split
          · rintro r name ⟨⟩
          · rename_i token htoken
            have hreadable := readableName_of_cookieValue htoken (by simpa using hne)
            -- Whatever `extend` answers, the name is the one that was just read.
            refine Under.mono (under_any _ _) fun x _ r name _ hname' => ?_
            cases hname.symm.trans hname'
            exact hreadable
  · rintro e - r name ⟨⟩

/-- A route that answers sets a cookie exactly when the request asks for one, and a cookie that it
sets comes back, together with any other cookies, if and only if its name is readable and they
are. -/
theorem cookie_returns_iff (app : AppState K) (req : HttpRequest) (e : Endpoint) :
    (app.handler req e).Under (S := webSig K) (SignsJwts K) fun x => ∀ r, x = .ok r →
      r.setCookie.isSome = app.asksCookie req e
      ∧ ∀ h, r.setCookie = some h → ∃ name token, app.CookieOf req e r name token
        ∧ ∀ before after, (∀ c ∈ before ++ after, c.name ≠ name) →
          (RoundTrip h name token before after
            ↔ ReadableName name ∧ ∀ c ∈ before ++ after, c.Readable) := by
  by_cases hrefused : e = .jwtGenerate ∧ ∃ body, app.RefusesClaims req body
  · -- Refused claims make no cookie.
    obtain ⟨rfl, body, hbody⟩ := hrefused
    have hstop : app.handler req .jwtGenerate
        = .raise (.err (.payloadTooLarge app.jwt.cfg.maxClaimsBytes)) := jwtGenerate_refused hbody
    rw [hstop]
    rintro r ⟨⟩
  · have hend : (app.handler req e).Under (S := webSig K) (SignsJwts K)
        (app.ReplyEnd req e fun t => JwtText (K.tokenText t)) :=
      handler_end e fun he hbody => hrefused ⟨he, hbody⟩
    refine Under.mono hend fun x hx => ?_
    rintro r rfl
    refine ⟨hx.2.1, fun h hcookie => ?_⟩
    obtain ⟨resp, name, hbody, htoken, hname, rfl⟩ := hx.2.2 h hcookie
    exact ⟨name, K.tokenText resp.token, ⟨hname, resp, hbody, rfl⟩,
      fun before after hother => roundTrip_iff htoken hother⟩

end AppState

/-! ### A sample request -/

namespace Sample

open Symbolic

/-- A request for a token in a cookie with the name `a;b`. -/
def cookieText : String :=
  "\x7b\"JWTName\":\"a;b\",\"content\":\x7b\x7d,\"expirationInMinutes\":5,\"setCookie\":true\x7d"

/-- What the text says. -/
def cookiePayload : Payload :=
  [("JWTName", .string "a;b"), ("content", .object []), ("expirationInMinutes", .number (.int 5)),
   ("setCookie", .bool true)]

def cookieApp : AppState (cratesFor cookieText cookiePayload) :=
  appFor cookieText cookiePayload 4096

def cookieRequest : HttpRequest :=
  request .post ["jwt", "custom", "generate"]
    [("content-type", "application/json"), ("x-tim-admin-token", "admin")] cookieText

/-- The signer and the table of tokens work, and nothing else. -/
def cookieAnswers : (o : WebOp) → WebResp (cratesFor cookieText cookiePayload) o
  | .jwt (.sign _) => .ok Symbolic.token
  | .jwt (.insertMetadata ..) => .ok ()
  | o => AppState.outage _ (instant 1000) "" o

/-- The sample answers come from a signer that makes compact tokens. -/
theorem cookieAnswers_ok (o : WebOp) :
    AppState.SignsJwts (cratesFor cookieText cookiePayload) o (cookieAnswers o) := by
  have hchars : (crates.tokenText Symbolic.token).toList.all
      (fun c => decide (c.isAlphanum = true ∨ c = '-' ∨ c = '_' ∨ c = '.')) = true := by
    decide +kernel
  have htext : JwtText (crates.tokenText Symbolic.token) :=
    ⟨by decide +kernel, fun c hc => of_decide_eq_true (List.all_eq_true.mp hchars c hc)⟩
  cases o with
  | jwt o =>
      cases o with
      | sign claims =>
          refine ⟨fun t ht => ?_, fun e he => by cases he⟩
          cases ht
          exact htext
      | _ => exact trivial
  | oauth o =>
      cases o with
      | createSession s =>
          rintro e ⟨⟩
          exact trivial
      | _ => exact trivial
  | _ =>
      rintro e ⟨⟩
      exact trivial

end Sample

open Sample in
/-- A client takes a cookie with the name `a` from the header, if any: never `a;b`. -/
theorem semicolon_name_lost :
    ¬ (cookieApp.handler cookieRequest .jwtGenerate).Under
      (S := webSig (cratesFor cookieText cookiePayload)) (AppState.SignsJwts _) fun x =>
        ∀ r h, x = .ok r → r.setCookie = some h →
          ∃ name token, cookieApp.CookieOf cookieRequest .jwtGenerate r name token
            ∧ ∀ before after, (∀ c ∈ before ++ after, c.name ≠ name) →
              RoundTrip h name token before after := by
  intro h
  have hset : (match (cookieApp.handler cookieRequest .jwtGenerate).run
      (S := webSig (cratesFor cookieText cookiePayload)) (fun _ => cookieAnswers) with
      | .ok r => r.setCookie.isSome
      | .error _ => false) = true := by decide +kernel
  have hname : cookieApp.cookieNameFor cookieRequest .jwtGenerate = some "a;b" := by
    decide +kernel
  split at hset
  · rename_i r hr
    obtain ⟨header, hheader⟩ := Option.isSome_iff_exists.mp hset
    obtain ⟨name, token, ⟨hname', -⟩, htrip⟩ :=
      h.run (fun _ => cookieAnswers_ok) r header hr hheader
    cases hname.symm.trans hname'
    have hsemi := (name_of_parse (htrip [] [] nofun).1).2.1
    exact hsemi (show ';' ∈ ("a;b" : String).toList by decide)
  · cases hset

end Tim.Web
