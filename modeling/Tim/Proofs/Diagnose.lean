import Tim.Model.Diagnose
import Tim.Proofs.Net
import Tim.Proofs.Text

/-!
# `Tim.Proofs.Diagnose`: what the boot diagnostics say about the server that starts

The diagnosis asks whether the server listens on the loopback interface only. It reads the host of
`server.bind` by itself: it trims the text, takes off the brackets and parses what is left as an
address. The server appends the port and parses the whole as a socket address. On every text that
the server accepts the two see the same address (`bindIsLoopback_eq`), unless it has a scope id,
which the diagnosis does not read.

* `parseSocketAddr_cases`: the host of a text that the server accepts.
* `bindIsLoopback_v4`, `bindIsLoopback_v6`: what the diagnosis makes of such a host.
-/

set_option autoImplicit false

namespace Tim.Net

open Tim.Lib Tim.Lib.Reader

/-- What a reader takes to the end has no token that it is blind to. -/
theorem notMem_of_blind {τ α : Type} {c : τ} {r : Reader τ α} (hb : Blind c r) {s : List τ} {a : α}
    (h : r s = some (a, [])) : c ∉ s := by
  intro hmem
  obtain ⟨x, y, rfl⟩ := List.append_of_mem hmem
  rw [hb, Option.map_eq_some_iff] at h
  obtain ⟨z, -, hz⟩ := h
  have hnil : z.2 ++ c :: y = [] := (Prod.mk.inj hz).2
  simp at hnil

/-! ### The address behind a host -/

/-- The address that a socket is bound to. -/
def SocketAddr.ip : SocketAddr → IpAddr
  | .v4 octets _ => .v4 octets
  | .v6 groups _ _ => .v6 groups

/-- An IPv4 address in front makes a text no IPv6 address. -/
theorem readIpv4Addr_of_v6 {s : List Char} {x : List Nat × List Char}
    (h : readIpv6Addr s = some x) : readIpv4Addr s = none := by
  cases hv4 : readIpv4Addr s with
  | none => rfl
  | some y =>
      obtain ⟨octets, rest⟩ := y
      have hgroups : readGroups 8 8 s = some ((embedIpv4 octets, true), rest) := by
        have hembedded : readEmbedded 8 0 s = some (some octets, rest) := by
          show (readIpv4Addr.optional s) = _
          unfold Reader.optional
          rw [hv4]
        rw [readGroups, bind_eq]
        show (readEmbedded 8 0 s).bind _ = _
        rw [hembedded]
        rfl
      have hlength : (embedIpv4 octets).length ≠ 8 := by
        unfold embedIpv4
        split <;> simp
      rw [readIpv6Addr, bind_eq, hgroups, Option.bind_some] at h
      simp only [if_neg hlength, if_true] at h
      cases h

/-- The text that `serve` parses: the host, a colon and the digits of the port. -/
theorem toList_hostPort (bind : String) (port : UInt16) :
    (bind ++ ":" ++ toString port).toList = bind.toList ++ ':' :: Nat.toDigits 10 port.toNat := by
  have hdigits : (toString port).toList = Nat.toDigits 10 port.toNat := Nat.toList_repr
  simp [hdigits]

/-- The address of a text of a host and a port is the host's. -/
theorem parseSocketAddr_cases {bind : String} {port : UInt16} {addr : SocketAddr}
    (h : parseSocketAddr (bind ++ ":" ++ toString port) = some addr) :
    (∃ ip, readIpv4Addr bind.toList = some (ip, []) ∧ addr.ip = .v4 ip)
    ∨ ∃ inner groups scope, bind.toList = '[' :: inner ++ [']']
      ∧ readScoped inner = some ((groups, scope), []) ∧ addr.ip = .v6 groups := by
  have hport : readPort (':' :: Nat.toDigits 10 port.toNat) = some (port.toNat, []) :=
    readPort_toDigits port.toNat_lt
  have hhost := (parseSocketAddr_isSome bind port).mp (by rw [h]; rfl)
  rw [parseSocketAddr, Reader.parse, toList_hostPort, orElse_eq] at h
  rcases hhost with ⟨ip, hip⟩ | ⟨inner, hinner, ⟨groups, scope⟩, hread⟩
  · have hblind : Blind ':' readIpv4Addr := blind_readIpv4Addr (by decide) (by decide)
    have hv4 : readSocketAddrV4 (bind.toList ++ ':' :: Nat.toDigits 10 port.toNat)
        = some (.v4 ip port.toNat, []) := by
      rw [readSocketAddrV4, bind_eq, hblind.append hip, Option.bind_some, bind_eq, hport]
      rfl
    rw [hv4] at h
    cases h
    exact .inl ⟨ip, hip, rfl⟩
  · have htext : bind.toList ++ ':' :: Nat.toDigits 10 port.toNat
        = '[' :: (inner ++ ']' :: ':' :: Nat.toDigits 10 port.toNat) := by
      rw [hinner]
      simp
    have hgiven : ∀ (c : Char) (t : List Char), readGivenChar c (c :: t) = some (c, t) :=
      fun c t => token_eq_some.mpr ⟨rfl, by simp⟩
    have hv6 : readSocketAddrV6 ('[' :: (inner ++ ']' :: ':' :: Nat.toDigits 10 port.toNat))
        = some (.v6 groups (scope.getD 0) port.toNat, []) := by
      rw [readSocketAddrV6, bind_eq, hgiven, Option.bind_some, bind_eq,
        blind_readScoped.append hread, Option.bind_some]
      dsimp only
      rw [bind_eq, hgiven, Option.bind_some, bind_eq, hport]
      rfl
    rw [htext, readSocketAddrV4_bracket, hv6] at h
    cases h
    exact .inr ⟨inner, groups, scope, hinner, hread, rfl⟩

/-! ### The text of the host -/

/-- The decimal digits by their code points. -/
theorem isDigit_range {c : Char} (h : isDigit 10 c = true) : 48 ≤ c.toNat ∧ c.toNat ≤ 57 := by
  unfold isDigit toDigit at h
  by_cases hdigit : '0' ≤ c ∧ c ≤ '9'
  · exact hdigit
  · -- A letter has a value from 10 on.
    have hletter : ∀ n, ((some (n + 10)).filter (· < 10)).isSome = false := by
      intro n
      simp [Option.filter]
    rw [if_neg hdigit] at h
    by_cases hlower : 'a' ≤ c ∧ c ≤ 'z'
    · rw [if_pos hlower, hletter] at h
      cases h
    · rw [if_neg hlower] at h
      by_cases hupper : 'A' ≤ c ∧ c ≤ 'Z'
      · rw [if_pos hupper, hletter] at h
        cases h
      · rw [if_neg hupper] at h
        cases h

/-- Outside the code points of `.` and the digits. -/
theorem not_dot_digit {c : Char} (h : c.toNat < 46 ∨ 58 ≤ c.toNat) :
    c ≠ '.' ∧ isDigit 10 c = false := by
  constructor
  · rintro rfl
    have hdot : '.'.toNat = 46 := rfl
    omega
  · cases hdigit : isDigit 10 c with
    | false => rfl
    | true =>
        have hrange := isDigit_range hdigit
        omega

/-- White space is no part of an IPv4 address. -/
theorem whitespace_cases {c : Char} (h : isWhitespace c = true) :
    c ≠ '.' ∧ isDigit 10 c = false := by
  have hspace : c.toNat < 46 ∨ 58 ≤ c.toNat := by
    simp only [isWhitespace, Bool.or_eq_true, Bool.and_eq_true, decide_eq_true_eq,
      List.contains_eq_mem, List.mem_cons, List.not_mem_nil, or_false] at h
    omega
  exact not_dot_digit hspace

/-- A letter of `localhost` stands in no IPv4 address. -/
theorem not_localhost {bind : String}
    (hfree : ∀ c, c ≠ '.' → isDigit 10 c = false → c ∉ bind.toList) :
    eqIgnoreAsciiCase bind "localhost" = false := by
  cases heq : eqIgnoreAsciiCase bind "localhost" with
  | false => rfl
  | true =>
      have hsymm : eqIgnoreAsciiCase "localhost" bind = true := by
        unfold eqIgnoreAsciiCase at heq ⊢
        rw [beq_iff_eq] at heq ⊢
        exact heq.symm
      obtain ⟨d, hd, hlower⟩ := toLower_mem (c := 'l') hsymm (by decide)
      have hnum : d.toLower.toNat = 108 := by
        rw [hlower]
        rfl
      rw [toNat_toLower] at hnum
      have hletter : d.toNat = 108 ∨ d.toNat = 76 := by
        split at hnum <;> omega
      obtain ⟨hdot, hdigit⟩ := not_dot_digit (c := d) (by omega)
      exact absurd hd (hfree d hdot hdigit)

/-- A mapped reader takes the same text. -/
theorem map_eq {τ α β : Type} (f : α → β) (r : Reader τ α) (s : List τ) :
    (f <$> r) s = (r s).bind fun x => some (f x.1, x.2) := rfl

/-- An IPv4 address is diagnosed by its octets. -/
theorem bindIsLoopback_v4 {bind : String} {ip : List Nat}
    (hip : readIpv4Addr bind.toList = some (ip, [])) :
    bindIsLoopback bind = (IpAddr.v4 ip).isLoopback ∧ '%' ∉ bind.toList := by
  have hfree : ∀ c, c ≠ '.' → isDigit 10 c = false → c ∉ bind.toList := fun c hdot hc =>
    notMem_of_blind (blind_readIpv4Addr hdot hc) hip
  have htrim : trim bind = bind := trim_eq_self fun c hc => by
    cases hw : isWhitespace c with
    | false => rfl
    | true => exact absurd hc (hfree c (whitespace_cases hw).1 (whitespace_cases hw).2)
  have hbracket : stripHead bind "[" = none := by
    cases hstrip : stripHead bind "[" with
    | none => rfl
    | some t =>
        have htext := stripHead_eq_some.mp hstrip
        exact absurd (by rw [htext]; simp) (hfree '[' (by decide) (by decide))
  have hparse : parseIpAddr bind = some (.v4 ip) := by
    unfold parseIpAddr Reader.parse readIpAddr
    rw [orElse_eq, map_eq, hip]
    rfl
  constructor
  · unfold bindIsLoopback
    simp only [htrim, not_localhost hfree, hbracket, Option.bind_none, Option.getD_none, hparse,
      Option.any_some, Bool.false_or]
  · exact hfree '%' (by decide) (by decide)

/-- The address ends before any character that is neither a digit of it nor one of its separators.
-/
theorem blind_readIpv6Addr {c : Char} (hcolon : c ≠ ':') (hdot : c ≠ '.')
    (hdec : isDigit 10 c = false) (hhex : isDigit 16 c = false) : Blind c readIpv6Addr := by
  have hgroups : ∀ limit left, Blind c (readGroups limit left) :=
    blind_readGroups hcolon hdot hdec hhex
  have hgiven : Blind c (readGivenChar ':') := blind_token (by simpa using hcolon)
  refine blind_bind (hgroups _ _) fun (head, headIpv4) => ?_
  dsimp only
  split
  · exact blind_pure _
  · split
    · exact blind_failure
    · refine blind_bind hgiven fun _ => blind_bind hgiven fun _ => ?_
      exact blind_bind (hgroups _ _) fun _ => blind_pure _

/-- What is left after an IPv6 address is a part of the text. -/
theorem consumes_readIpv6Addr : Consumes readIpv6Addr := by
  refine consumes_bind (consumes_readGroups _ _) fun (head, headIpv4) => ?_
  dsimp only
  split
  · exact consumes_pure _
  · split
    · exact consumes_failure
    · refine consumes_bind (consumes_token _) fun _ => ?_
      refine consumes_bind (consumes_token _) fun _ => ?_
      exact consumes_bind (consumes_readGroups _ _) fun _ => consumes_pure _

/-- An IPv6 address between brackets ends there, or at its scope id. -/
theorem readScoped_cases {inner : List Char} {groups : List Nat} {scope : Option Nat}
    (h : readScoped inner = some ((groups, scope), [])) :
    ∃ rest, readIpv6Addr inner = some (groups, rest) ∧ (rest = [] ∨ ∃ t, rest = '%' :: t) := by
  rw [readScoped, bind_eq, Option.bind_eq_some_iff] at h
  obtain ⟨⟨ip, rest⟩, hip, h⟩ := h
  rw [bind_eq, Option.bind_eq_some_iff] at h
  obtain ⟨⟨scope', rest'⟩, hscope, hend⟩ := h
  cases hend
  refine ⟨rest, hip, ?_⟩
  unfold Reader.optional at hscope
  split at hscope
  · rename_i n rest' hread
    rw [readScopeId, bind_eq, Option.bind_eq_some_iff] at hread
    obtain ⟨⟨c, t⟩, hgiven, -⟩ := hread
    exact .inr ⟨t, readGivenChar_eq hgiven⟩
  · cases hscope
    exact .inl rfl

/-- An IPv6 address is diagnosed by its groups, unless it has a scope id. -/
theorem bindIsLoopback_v6 {bind : String} {inner : List Char} {groups : List Nat}
    {scope : Option Nat} (hbind : bind.toList = '[' :: inner ++ [']'])
    (hread : readScoped inner = some ((groups, scope), [])) :
    bindIsLoopback bind = ((IpAddr.v6 groups).isLoopback && decide ('%' ∉ bind.toList)) := by
  have htrim : trim bind = bind := by
    refine trim_of_firm ⟨fun x hx => ?_, fun x hx => ?_⟩
    · rw [hbind] at hx
      cases hx
      decide
    · rw [hbind, List.getLast?_concat] at hx
      cases hx
      decide
  have hlocal : eqIgnoreAsciiCase bind "localhost" = false := by
    cases heq : eqIgnoreAsciiCase bind "localhost" with
    | false => rfl
    | true =>
        have hmem : '[' ∈ bind.toList := by
          rw [hbind]
          simp
        obtain ⟨d, hd, hlower⟩ := toLower_mem heq hmem
        have hnone : "localhost".toList.all (fun d => d.toLower != '['.toLower) = true := by decide
        rw [List.all_eq_true] at hnone
        exact absurd hlower (bne_iff_ne.mp (hnone d hd))
  have hstrip : (stripHead bind "[").bind (fun s => stripLast s ']')
      = some (String.ofList inner) := by
    have hhead : stripHead bind "[" = some (String.ofList (inner ++ [']'])) := by
      refine stripHead_eq_some.mpr (String.toList_injective ?_)
      rw [hbind]
      simp
    rw [hhead]
    simp [stripLast]
  obtain ⟨rest, hip, hrest⟩ := readScoped_cases hread
  have hparse : parseIpAddr (String.ofList inner)
      = if rest = [] then some (.v6 groups) else none := by
    unfold parseIpAddr Reader.parse readIpAddr
    rw [orElse_eq, map_eq, map_eq, String.toList_ofList, readIpv4Addr_of_v6 hip, hip]
    rcases hrest with rfl | ⟨t, rfl⟩
    · rfl
    · rfl
  have hpercent : '%' ∉ bind.toList ↔ rest = [] := by
    have hinner : '%' ∉ bind.toList ↔ '%' ∉ inner := by
      rw [hbind]
      simp
    rw [hinner]
    rcases hrest with rfl | ⟨t, rfl⟩
    · have hblind : Blind '%' readIpv6Addr :=
        blind_readIpv6Addr (by decide) (by decide) (by decide) (by decide)
      simp [notMem_of_blind hblind hip]
    · obtain ⟨x, hx⟩ := consumes_readIpv6Addr _ _ _ hip
      rw [hx]
      simp
  unfold bindIsLoopback
  simp only [htrim, hlocal, hstrip, Option.getD_some, hparse, Bool.false_or, hpercent]
  by_cases hnil : rest = []
  · simp [hnil]
  · simp [hnil]

/-- The diagnosis reads the same address as the server, except for one with a scope id. -/
theorem bindIsLoopback_eq {bind : String} {port : UInt16} {addr : SocketAddr}
    (h : parseSocketAddr (bind ++ ":" ++ toString port) = some addr) :
    bindIsLoopback bind = (addr.ip.isLoopback && decide ('%' ∉ bind.toList)) := by
  rcases parseSocketAddr_cases h with ⟨ip, hip, haddr⟩ | ⟨inner, groups, scope, hbind, hread, haddr⟩
  · obtain ⟨hloopback, hpercent⟩ := bindIsLoopback_v4 hip
    rw [hloopback, haddr]
    simp [hpercent]
  · rw [haddr]
    exact bindIsLoopback_v6 hbind hread

end Tim.Net
