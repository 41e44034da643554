import Tim.Lib.Reader

/-!
# `Tim.Model.Net`: socket addresses as text

The parser of `std::net` behind `str::parse::<SocketAddr>`, reader by reader: decimal octets
without leading zeros, hexadecimal groups with one `::`, an optional scope id, and the port. Each
`read_*` of the standard library consumes nothing when it fails, which is how a `Reader` behaves.
-/

set_option autoImplicit false

namespace Tim.Net

open Tim.Lib

/-- `char::to_digit`. -/
def toDigit (radix : Nat) (c : Char) : Option Nat :=
  let digit :=
    if '0' ≤ c ∧ c ≤ '9' then some (c.toNat - '0'.toNat)
    else if 'a' ≤ c ∧ c ≤ 'z' then some (c.toNat - 'a'.toNat + 10)
    else if 'A' ≤ c ∧ c ≤ 'Z' then some (c.toNat - 'A'.toNat + 10)
    else none
  digit.filter (· < radix)

/-- A character that `to_digit` takes. -/
def isDigit (radix : Nat) (c : Char) : Bool := (toDigit radix c).isSome

/-- The number that the digits write. -/
def ofDigits (radix : Nat) (digits : List Char) : Nat :=
  digits.foldl (fun n c => radix * n + (toDigit radix c).getD 0) 0

/-- `read_given_char`. -/
def readGivenChar (target : Char) : Reader Char Char := Reader.token (· == target)

/-- `read_separator`. -/
def readSeparator {α : Type} (sep : Char) (index : Nat) (inner : Reader Char α) :
    Reader Char α := do
  if 0 < index then
    let _ ← readGivenChar sep
  inner

/-- `read_number`, for a type that holds the numbers below `bound`. -/
def readNumber (bound radix : Nat) (maxDigits : Option Nat) (allowZeroPrefix : Bool) :
    Reader Char Nat := do
  let digits ← Reader.run (isDigit radix)
  if digits.isEmpty || maxDigits.any (· < digits.length)
      || (!allowZeroPrefix && digits.head? == some '0' && 1 < digits.length)
      || bound ≤ ofDigits radix digits then failure
  else pure (ofDigits radix digits)

/-- `read_ipv4_addr`, as four octets. -/
def readIpv4Addr : Reader Char (List Nat) :=
  (List.range 4).mapM fun i => readSeparator '.' i (readNumber (2 ^ 8) 10 (some 3) false)

/-- The groups that an embedded IPv4 address stands for. -/
def embedIpv4 : List Nat → List Nat
  | [a, b, c, d] => [256 * a + b, 256 * c + d]
  | _ => []

/-- The IPv4 address that may end the groups. It needs two of them. -/
def readEmbedded (limit i : Nat) : Reader Char (Option (List Nat)) :=
  if i < limit - 1 then (readSeparator ':' i readIpv4Addr).optional else pure none

/-- `read_groups` from its index `limit - left` on: the groups, and whether an IPv4 address has
ended them. -/
def readGroups (limit : Nat) : Nat → Reader Char (List Nat × Bool)
  | 0 => pure ([], false)
  | left + 1 => do
      let i := limit - (left + 1)
      match ← readEmbedded limit i with
      | some octets => pure (embedIpv4 octets, true)
      | none =>
          match ← (readSeparator ':' i (readNumber (2 ^ 16) 16 (some 4) true)).optional with
          | none => pure ([], false)
          | some group =>
              let (groups, isIpv4) ← readGroups limit left
              pure (group :: groups, isIpv4)

/-- `read_ipv6_addr`, as eight groups. -/
def readIpv6Addr : Reader Char (List Nat) := do
  let (head, headIpv4) ← readGroups 8 8
  if head.length = 8 then pure head
  -- No IPv4 address in front of the `::`.
  else if headIpv4 then failure
  else
    let _ ← readGivenChar ':'
    let _ ← readGivenChar ':'
    let limit := 8 - (head.length + 1)
    let (tail, _) ← readGroups limit limit
    pure (head ++ List.replicate (8 - head.length - tail.length) 0 ++ tail)

/-- `read_port`. -/
def readPort : Reader Char Nat := do
  let _ ← readGivenChar ':'
  readNumber (2 ^ 16) 10 none true

/-- `read_scope_id`. -/
def readScopeId : Reader Char Nat := do
  let _ ← readGivenChar '%'
  readNumber (2 ^ 32) 10 none true

/-- `std::net::SocketAddr`. -/
inductive SocketAddr where
  | v4 (octets : List Nat) (port : Nat)
  | v6 (groups : List Nat) (scopeId : Nat) (port : Nat)
  deriving DecidableEq

/-- `read_socket_addr_v4`. -/
def readSocketAddrV4 : Reader Char SocketAddr := do
  let ip ← readIpv4Addr
  let port ← readPort
  pure (.v4 ip port)

/-- The IPv6 address and scope id between the brackets. -/
def readScoped : Reader Char (List Nat × Option Nat) := do
  let ip ← readIpv6Addr
  let scope ← readScopeId.optional
  pure (ip, scope)

/-- `read_socket_addr_v6`. -/
def readSocketAddrV6 : Reader Char SocketAddr := do
  let _ ← readGivenChar '['
  let (ip, scope) ← readScoped
  let _ ← readGivenChar ']'
  let port ← readPort
  pure (.v6 ip (scope.getD 0) port)

/-- `str::parse::<SocketAddr>`. -/
def parseSocketAddr (s : String) : Option SocketAddr :=
  (readSocketAddrV4 <|> readSocketAddrV6 : Reader Char SocketAddr).parse s.toList

/-! ### Which hosts make an address -/

/-- A host as it stands in front of the port: an IPv4 address, or an IPv6 address with an
optional scope id in brackets. -/
def IsHost (s : String) : Prop :=
  (∃ ip, readIpv4Addr s.toList = some (ip, [])) ∨
  ∃ inner, s.toList = '[' :: inner ++ [']'] ∧ ∃ ip, readScoped inner = some (ip, [])

end Tim.Net
