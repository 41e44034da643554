import Tim.Model.Net

/-!
# `Tim.Proofs.Net`: which hosts parse in front of a port

`serve` writes `bind`, a colon and the port, and parses the text as a `SocketAddr`. The parser
reads the host up to the colon, or up to the closing bracket, and looks no further
(`Reader.Blind`). So the text parses for one port exactly when it does for all, and that depends
on `bind` alone: it has to be a host (`parseSocketAddr_isSome`).

* `readPort_toDigits`, `readPort_digits`: a port is written in decimal digits, and read back from
  them.
* `readSocketAddrV4_iff`, `readSocketAddrV6_iff`: the address in front of the port.
-/

set_option autoImplicit false

namespace Tim.Net

open Tim.Lib Tim.Lib.Reader

/-! ### What the readers look at -/

/-- A separator is read from the second part on, and only forwards. -/
theorem consumes_readSeparator {α : Type} {inner : Reader Char α} (h : Consumes inner)
    (sep : Char) (index : Nat) : Consumes (readSeparator sep index inner) := by
  unfold readSeparator
  split
  · exact consumes_bind (consumes_token _) fun _ => h
  · exact h

/-- A reader with a separator stops before any other character that its inner reader stops at. -/
theorem blind_readSeparator {α : Type} {inner : Reader Char α} {c : Char} (h : Blind c inner)
    {sep : Char} (hsep : c ≠ sep) (index : Nat) : Blind c (readSeparator sep index inner) := by
  unfold readSeparator
  split
  · exact blind_bind (blind_token (by simpa using hsep)) fun _ => h
  · exact h

/-- What is left after a number is a part of the text. -/
theorem consumes_readNumber (bound radix : Nat) (maxDigits : Option Nat) (zero : Bool) :
    Consumes (readNumber bound radix maxDigits zero) := by
  refine consumes_bind (consumes_run _) fun digits => ?_
  split
  · exact consumes_failure
  · exact consumes_pure _

/-- A number ends before anything that is no digit. -/
theorem blind_readNumber {c : Char} {radix : Nat} (hc : isDigit radix c = false) (bound : Nat)
    (maxDigits : Option Nat) (zero : Bool) : Blind c (readNumber bound radix maxDigits zero) := by
  refine blind_bind (blind_run hc) fun digits => ?_
  split
  · exact blind_failure
  · exact blind_pure _

/-- What is left after an IPv4 address is a part of the text. -/
theorem consumes_readIpv4Addr : Consumes readIpv4Addr :=
  consumes_mapM (fun i => consumes_readSeparator (consumes_readNumber _ _ _ _) '.' i) _

/-- An IPv4 address ends before anything that is neither a digit nor a dot. -/
theorem blind_readIpv4Addr {c : Char} (hdot : c ≠ '.') (hc : isDigit 10 c = false) :
    Blind c readIpv4Addr :=
  blind_mapM (fun i => blind_readSeparator (blind_readNumber hc _ _ _) hdot i) _

/-- What is left after the groups of an IPv6 address is a part of the text. The induction is on the
groups that may still come. -/
theorem consumes_readGroups (limit left : Nat) : Consumes (readGroups limit left) := by
  induction left with
  | zero => exact consumes_pure _
  | succ left ih =>
      unfold readGroups
      refine consumes_bind ?_ fun ipv4 => ?_
      · unfold readEmbedded
        split
        · exact consumes_optional (consumes_readSeparator consumes_readIpv4Addr _ _)
        · exact consumes_pure _
      · cases ipv4 with
        | some octets => exact consumes_pure _
        | none =>
            refine consumes_bind (consumes_optional
              (consumes_readSeparator (consumes_readNumber _ _ _ _) _ _)) fun group => ?_
            cases group with
            | none => exact consumes_pure _
            | some group => exact consumes_bind ih fun _ => consumes_pure _

/-- The groups end before anything that is no part of an address. -/
theorem blind_readGroups {c : Char} (hcolon : c ≠ ':') (hdot : c ≠ '.')
    (hdec : isDigit 10 c = false) (hhex : isDigit 16 c = false) (limit left : Nat) :
    Blind c (readGroups limit left) := by
  induction left with
  | zero => exact blind_pure _
  | succ left ih =>
      unfold readGroups
      refine blind_bind ?_ fun ipv4 => ?_
      · unfold readEmbedded
        split
        · exact blind_optional (blind_readSeparator (blind_readIpv4Addr hdot hdec) hcolon _)
        · exact blind_pure _
      · cases ipv4 with
        | some octets => exact blind_pure _
        | none =>
            refine blind_bind (blind_optional
              (blind_readSeparator (blind_readNumber hhex _ _ _) hcolon _)) fun group => ?_
            cases group with
            | none => exact blind_pure _
            | some group => exact blind_bind ih fun _ => blind_pure _

/-- What is left after an address with a scope is a part of the text. -/
theorem consumes_readScoped : Consumes readScoped := by
  refine consumes_bind ?_ fun ip => consumes_bind (consumes_optional ?_) fun _ => consumes_pure _
  · refine consumes_bind (consumes_readGroups _ _) fun (head, headIpv4) => ?_
    dsimp only
    split
    · exact consumes_pure _
    · split
      · exact consumes_failure
      · refine consumes_bind (consumes_token _) fun _ => ?_
        refine consumes_bind (consumes_token _) fun _ => ?_
        exact consumes_bind (consumes_readGroups _ _) fun _ => consumes_pure _
  · exact consumes_bind (consumes_token _) fun _ => consumes_readNumber _ _ _ _

/-- A closing bracket ends the part between the brackets. -/
theorem blind_readScoped : Blind ']' readScoped := by
  have hgroups : ∀ limit left, Blind ']' (readGroups limit left) :=
    blind_readGroups (by decide) (by decide) (by decide) (by decide)
  have hcolon : Blind ']' (readGivenChar ':') := blind_token (by decide)
  refine blind_bind ?_ fun ip => blind_bind (blind_optional ?_) fun _ => blind_pure _
  · refine blind_bind (hgroups _ _) fun (head, headIpv4) => ?_
    dsimp only
    split
    · exact blind_pure _
    · split
      · exact blind_failure
      · refine blind_bind hcolon fun _ => blind_bind hcolon fun _ => ?_
        exact blind_bind (hgroups _ _) fun _ => blind_pure _
  · exact blind_bind (blind_token (by decide)) fun _ => blind_readNumber (by decide) _ _ _

/-! ### The port -/

/-- A given character is the first of the text. -/
theorem readGivenChar_eq {target c : Char} {s rest : List Char}
    (h : readGivenChar target s = some (c, rest)) : s = target :: rest := by
  obtain ⟨hs, hc⟩ := token_eq_some.mp h
  rw [hs, eq_of_beq hc]

/-- The value of a decimal digit. -/
theorem isDigit_ten {c : Char} (h : c.isDigit = true) :
    toDigit 10 c = some (c.toNat - '0'.toNat) := by
  have hrange : '0' ≤ c ∧ c ≤ '9' := by simpa [Char.isDigit, Char.le_def] using h
  have hlo : 48 ≤ c.toNat := hrange.1
  have hhi : c.toNat ≤ 57 := hrange.2
  have hten : c.toNat - '0'.toNat < 10 := by
    show c.toNat - 48 < 10
    omega
  unfold toDigit
  rw [if_pos hrange]
  simp only [Option.filter_some, hten, decide_true, ↓reduceIte]

/-- The reader adds up digits as `Nat.ofDigitChars` does. -/
theorem ofDigits_ten {digits : List Char} (h : ∀ c ∈ digits, c.isDigit = true) (n : Nat) :
    digits.foldl (fun n c => 10 * n + (toDigit 10 c).getD 0) n = Nat.ofDigitChars 10 digits n := by
  induction digits generalizing n with
  | nil => simp
  | cons c digits ih =>
      rw [List.foldl_cons, Nat.ofDigitChars_cons, isDigit_ten (h c (by simp))]
      exact ih (fun c hc => h c (by simp [hc])) _

/-- The digits of a number are read back. -/
theorem readPort_toDigits {n : Nat} (hn : n < 2 ^ 16) :
    readPort (':' :: Nat.toDigits 10 n) = some (n, []) := by
  have hdigit : ∀ c ∈ Nat.toDigits 10 n, c.isDigit = true := fun c hc =>
    Nat.isDigit_of_mem_toDigits (by decide) (by decide) hc
  have hall : ∀ c ∈ Nat.toDigits 10 n, isDigit 10 c = true := fun c hc => by
    simp [isDigit, isDigit_ten (hdigit c hc)]
  have hrun : run (isDigit 10) (Nat.toDigits 10 n) = some (Nat.toDigits 10 n, []) := by
    rw [run, List.takeWhile_eq_self_iff.mpr hall, List.dropWhile_eq_nil_iff.mpr hall]
  have hvalue : ofDigits 10 (Nat.toDigits 10 n) = n := by
    rw [ofDigits, ofDigits_ten hdigit, Nat.ofDigitChars_ten_toDigits]
  show readNumber (2 ^ 16) 10 none true (Nat.toDigits 10 n) = _
  rw [readNumber, bind_eq, hrun, Option.bind_some]
  have hpass : (Nat.toDigits 10 n).isEmpty = false := by simp [Nat.toDigits_ne_nil]
  simp only [hvalue, hpass, Option.any_none, Bool.not_true, Bool.false_and, Bool.or_false,
    Bool.false_or, decide_eq_true_eq, if_neg (Nat.not_le.mpr hn)]
  rfl

/-- What `read_port` reads to the end is a colon and digits. -/
theorem readPort_digits {s : List Char} {n : Nat} (h : readPort s = some (n, [])) :
    ∃ digits, s = ':' :: digits ∧ ∀ c ∈ digits, isDigit 10 c = true := by
  rw [readPort, bind_eq, Option.bind_eq_some_iff] at h
  obtain ⟨⟨c, digits⟩, hcolon, hnumber⟩ := h
  refine ⟨digits, (readGivenChar_eq hcolon), ?_⟩
  rw [readNumber, bind_eq, Option.bind_eq_some_iff] at hnumber
  obtain ⟨⟨taken, rest⟩, hrun, hrest⟩ := hnumber
  cases hrun
  -- The number leaves what the digits leave, and that is nothing.
  have hnil : digits.dropWhile (isDigit 10) = [] := by
    dsimp only at hrest
    split at hrest
    · cases hrest
    · exact (Prod.mk.inj (Option.some.inj hrest)).2
  exact List.dropWhile_eq_nil_iff.mp hnil

/-! ### Hosts -/

section Host

variable {s port : List Char} {n : Nat}

/-- Before a port, an IPv4 socket address is an IPv4 address that takes everything in front of the
colon. -/
theorem readSocketAddrV4_iff (hport : readPort (':' :: port) = some (n, [])) :
    (∃ addr, readSocketAddrV4 (s ++ ':' :: port) = some (addr, []))
      ↔ ∃ ip, readIpv4Addr s = some (ip, []) := by
  have hblind : Blind ':' readIpv4Addr := blind_readIpv4Addr (by decide) (by decide)
  constructor
  · rintro ⟨addr, h⟩
    rw [readSocketAddrV4, bind_eq, Option.bind_eq_some_iff] at h
    obtain ⟨⟨ip, rest⟩, hip, h⟩ := h
    rw [bind_eq, Option.bind_eq_some_iff] at h
    obtain ⟨⟨m, rest'⟩, hm, hend⟩ := h
    obtain rfl : rest' = [] := (Prod.mk.inj (Option.some.inj hend)).2
    obtain ⟨digits, hrest, hdigits⟩ := readPort_digits hm
    rw [hblind, Option.map_eq_some_iff] at hip
    obtain ⟨⟨ip', y⟩, hs, hy⟩ := hip
    have hy : y ++ ':' :: port = rest := (Prod.mk.inj hy).2
    refine ⟨ip', ?_⟩
    -- A second colon would be among the digits.
    cases y with
    | nil => exact hs
    | cons c y =>
        have htail : y ++ ':' :: port = digits := (List.cons.inj (hy.trans hrest)).2
        have hcolon : ':' ∈ digits := by rw [← htail]; simp
        exact absurd (hdigits _ hcolon) (by decide)
  · rintro ⟨ip, hip⟩
    refine ⟨.v4 ip n, ?_⟩
    rw [readSocketAddrV4, bind_eq, hblind.append hip, Option.bind_some, bind_eq, hport]
    rfl

/-- Before a port, an IPv6 socket address is an address in brackets, with its scope if it has one.
-/
theorem readSocketAddrV6_iff (hport : readPort (':' :: port) = some (n, []))
    (hdigits : ':' ∉ port) :
    (∃ addr, readSocketAddrV6 (s ++ ':' :: port) = some (addr, []))
      ↔ ∃ inner, s = '[' :: inner ++ [']'] ∧ ∃ ip, readScoped inner = some (ip, []) := by
  constructor
  · rintro ⟨addr, h⟩
    rw [readSocketAddrV6, bind_eq, Option.bind_eq_some_iff] at h
    obtain ⟨⟨c, t⟩, hopen, h⟩ := h
    obtain ⟨b, rfl, rfl⟩ : ∃ b, s = '[' :: b ∧ t = b ++ ':' :: port := by
      have ht := readGivenChar_eq hopen
      cases s with
      | nil => cases ht
      | cons c s => exact ⟨s, by simp_all⟩
    rw [bind_eq, Option.bind_eq_some_iff] at h
    obtain ⟨⟨⟨ip, scope⟩, rest⟩, hread, h⟩ := h
    dsimp only at h
    rw [bind_eq, Option.bind_eq_some_iff] at h
    obtain ⟨⟨c', rest'⟩, hclose, h⟩ := h
    rw [bind_eq, Option.bind_eq_some_iff] at h
    obtain ⟨⟨m, rest''⟩, hm, hend⟩ := h
    obtain rfl : rest'' = [] := (Prod.mk.inj (Option.some.inj hend)).2
    obtain ⟨digits, rfl, hall⟩ := readPort_digits hm
    obtain rfl : rest = ']' :: ':' :: digits := readGivenChar_eq hclose
    obtain ⟨inner, hinner, hip⟩ := blind_readScoped.split consumes_readScoped hread
    -- Both sides end at their last colon.
    have hb : b = inner ++ [']'] := by
      have hno : ':' ∉ digits := fun hmem => absurd (hall _ hmem) (by decide)
      have hreverse : port.reverse ++ ':' :: b.reverse
          = digits.reverse ++ ':' :: (inner ++ [']']).reverse := by
        simpa using congrArg List.reverse hinner
      exact List.reverse_inj.mp
        (eq_of_append_cons_eq (by simpa using hdigits) (by simpa using hno) hreverse)
    exact ⟨inner, by rw [hb]; rfl, (ip, scope), hip⟩
  · rintro ⟨inner, rfl, ip, hip⟩
    refine ⟨.v6 ip.1 (ip.2.getD 0) n, ?_⟩
    have htext : '[' :: inner ++ [']'] ++ ':' :: port = '[' :: (inner ++ ']' :: ':' :: port) := by
      simp
    have hgiven : ∀ (c : Char) (t : List Char), readGivenChar c (c :: t) = some (c, t) :=
      fun c t => token_eq_some.mpr ⟨rfl, by simp⟩
    rw [htext, readSocketAddrV6, bind_eq, hgiven, Option.bind_some, bind_eq,
      blind_readScoped.append hip, Option.bind_some]
    dsimp only
    rw [bind_eq, hgiven, Option.bind_some, bind_eq, hport]
    rfl

end Host

/-- No IPv4 address begins with a bracket. -/
theorem readSocketAddrV4_bracket (s : List Char) : readSocketAddrV4 ('[' :: s) = none := rfl

/-- The text of a host and a port parses exactly when the host is one. -/
theorem parseSocketAddr_isSome (bind : String) (port : UInt16) :
    (parseSocketAddr (bind ++ ":" ++ toString port)).isSome = true ↔ IsHost bind := by
  have htext : (bind ++ ":" ++ toString port).toList
      = bind.toList ++ ':' :: Nat.toDigits 10 port.toNat := by
    have hdigits : (toString port).toList = Nat.toDigits 10 port.toNat := Nat.toList_repr
    simp [hdigits]
  have hport : readPort (':' :: Nat.toDigits 10 port.toNat) = some (port.toNat, []) :=
    readPort_toDigits port.toNat_lt
  have hno : ':' ∉ Nat.toDigits 10 port.toNat := fun hmem =>
    absurd (Nat.isDigit_of_mem_toDigits (by decide) (by decide) hmem) (by decide)
  unfold parseSocketAddr IsHost
  rw [parse_isSome, htext]
  constructor
  · rintro ⟨addr, h⟩
    rw [orElse_eq] at h
    cases hv4 : readSocketAddrV4 (bind.toList ++ ':' :: Nat.toDigits 10 port.toNat) with
    | some x =>
        rw [hv4] at h
        exact .inl ((readSocketAddrV4_iff hport).mp ⟨addr, hv4.trans h⟩)
    | none =>
        rw [hv4] at h
        exact .inr ((readSocketAddrV6_iff hport hno).mp ⟨addr, h⟩)
  · rintro (hv4 | hv6)
    · obtain ⟨addr, h⟩ := (readSocketAddrV4_iff hport).mpr hv4
      refine ⟨addr, ?_⟩
      rw [orElse_eq, h]
      rfl
    · obtain ⟨addr, h⟩ := (readSocketAddrV6_iff hport hno).mpr hv6
      refine ⟨addr, ?_⟩
      obtain ⟨inner, hinner, -⟩ := hv6
      rw [orElse_eq, h, hinner]
      exact congrArg (· <|> _) (readSocketAddrV4_bracket _)

example : parseSocketAddr "[fe80::1:1.2.3.4%7]:80"
    = some (.v6 [0xfe80, 0, 0, 0, 0, 1, 0x102, 0x304] 7 80) := by decide +kernel

end Tim.Net
