import ClusterRouter.Foundation.URL

/-! `parseAuthority` of package `net/url`: what is accepted as a user, a host and a port. -/

set_option autoImplicit false

namespace ClusterRouter.Foundation

namespace URL

/-- `shouldEscape` in a host: the characters that may not stand there as themselves. -/
def shouldEscapeHost (b : UInt8) : Bool :=
  !(Percent.isUnreserved b || decide (b ∈ lit "!$&'()*+,;=:[]<>\""))

/-- `unescape` in a host or a zone. In a host only a percent sign and bytes beyond ASCII may
be escaped, in a zone also a space and what may stand in a host. -/
def unescapeHost (zone : Bool) : Bytes → Option Bytes
  | [] => some []
  | 37 :: a :: b :: rest =>
    match hexDigit a, hexDigit b with
    | some high, some low =>
      let byte := UInt8.ofNat (high * 16 + low)
      if byte = 37 ∨ (zone = false ∧ 8 ≤ high) ∨
          (zone = true ∧ (byte = 32 ∨ shouldEscapeHost byte = false)) then
        (unescapeHost zone rest).map (byte :: ·)
      else none
    | _, _ => none
  | b :: rest =>
    if b = 37 ∨ (b < 0x80 ∧ shouldEscapeHost b) then none else (unescapeHost zone rest).map (b :: ·)

def validOptionalPort : Bytes → Bool
  | [] => true
  | b :: digits => decide (b = 58) && digits.all Bytes.isDigit

/-- An IPv6 address, with a zone or without, that is not an IPv4 address in its mapped form. -/
def isIPv6Literal (s : Bytes) : Bool :=
  let (address, zone) := Bytes.cut 37 s
  (parseIPv6 address).any (fun ip => decide (ip.to4 = none)) && (decide (37 ∉ s) || decide (zone ≠ []))

def unescapeLiteral (s : Bytes) : Option Bytes :=
  match Bytes.index s (lit "%25") with
  | none => unescapeHost false s
  | some place => do
      return (← unescapeHost false (s.take place)) ++ (← unescapeHost true (s.drop place))

def parseHost (host : Bytes) : Option Bytes :=
  match host with
  | 91 :: rest =>
    match Bytes.lastIndex rest [93] with
    | none => none
    | some close =>
      if 91 ∈ rest ∨ validOptionalPort (rest.drop (close + 1)) = false then none
      else do
        let literal ← unescapeLiteral (rest.take close)
        if isIPv6Literal literal then some (91 :: literal ++ 93 :: rest.drop (close + 1)) else none
  | host =>
    if 91 ∈ host ∨ validOptionalPort (host.dropWhile (fun b => decide (b ≠ 58))) = false then none
    else unescapeHost false host

def validUserinfo (s : Bytes) : Bool :=
  s.all (fun b => Percent.isUnreserved b || decide (b ∈ lit ":!$&'()*+,;=%@"))

def parseUserinfo (s : Bytes) : Option (Bytes × Option Bytes) :=
  if validUserinfo s = false then none
  else if 58 ∈ s then do
    let name ← Percent.unescape (Bytes.cut 58 s).1
    let password ← Percent.unescape (Bytes.cut 58 s).2
    return (name, some password)
  else (Percent.unescape s).map (fun name => (name, none))

/-- The user is what precedes the last at sign. -/
def parseAuthority (authority : Bytes) : Option Authority :=
  match Bytes.lastIndex authority [64] with
  | none => (parseHost authority).map (fun host => ⟨none, host⟩)
  | some place => do
      let host ← parseHost (authority.drop (place + 1))
      let user ← parseUserinfo (authority.take place)
      return ⟨some user, host⟩

/-- `Hostname`: the host without a port, and without the brackets of an address. -/
def hostname (u : URL) : Bytes :=
  let host :=
    match Bytes.lastIndex u.host [58] with
    | some colon => if validOptionalPort (u.host.drop colon) then u.host.take colon else u.host
    | none => u.host
  if host.head? = some 91 ∧ host.getLast? = some 93 then host.tail.dropLast else host

theorem host_of_parseAuthority_nil {authority : Authority}
    (read : parseAuthority [] = some authority) : authority.host = [] := by
  cases read
  rfl

def netURL : AuthorityReader where
  read _ text := parseAuthority text
  read_empty := host_of_parseAuthority_nil

end URL

end ClusterRouter.Foundation
