import ClusterRouter.Foundation.HostPort

/-! `internal/channel/connect_target.go`: a CONNECT target is judged from the text of the
configuration, where no name is resolved, and from the addresses of the socket the dial opened.
-/

set_option autoImplicit false

namespace ClusterRouter.Channel

open Foundation

/-! ## Reading hosts -/

def splitHostPortLenient (s : Bytes) : Bytes × Bytes :=
  match splitHostPort s with
  | some parts => parts
  | none => (s, [])

/-- The zone is cut off only where the first of the two separators is a colon, that
is, from an IPv6 address. -/
def bareHost (host : Bytes) : Bytes :=
  let h := stripBrackets host
  if Bytes.percent ∉ h then h
  else
    let front := Bytes.before Bytes.percent h
    if front.find? (fun b => decide (b = Bytes.dot ∨ b = Bytes.colon)) = some Bytes.colon then front
    else h

def parseUint (base : Nat) (s : Bytes) : Option Nat :=
  if s = [] then none
  else
    s.foldlM (fun value b =>
      (hexDigit b).bind (fun digit => if digit < base then some (value * base + digit) else none)) 0

def parseIPv4Part (part : Bytes) : Option Nat :=
  let value :=
    if (lit "0x").isPrefixOf part ∨ (lit "0X").isPrefixOf part then parseUint 16 (part.drop 2)
    else if 1 < part.length ∧ part.head? = some 48 then parseUint 8 (part.drop 1)
    else parseUint 10 part
  value.bind (fun v => if 0xffffffff < v then none else some v)

/-- The spellings `inet_aton` reads: one to four parts, the last of which carries
all bytes the earlier ones do not. -/
def parseIPv4Numeric (host : Bytes) : Option IP :=
  let parts := Bytes.split Bytes.dot host
  if 4 < parts.length then none
  else
    (parts.mapM parseIPv4Part).bind (fun vals =>
      let front := vals.dropLast
      let last := vals.getLastD 0
      if front.any (fun v => decide (0xff < v)) ∨ 2 ^ (8 * (5 - vals.length)) ≤ last then none
      else
        let addr := front.zipIdx.foldl (fun addr v => addr ||| v.1 <<< (8 * (3 - v.2))) 0 ||| last
        some (IP.v4InV6Prefix ++
          [UInt8.ofNat (addr >>> 24), UInt8.ofNat (addr >>> 16), UInt8.ofNat (addr >>> 8),
            UInt8.ofNat addr]))

def hostIP (host : Bytes) : Option IP :=
  let h := bareHost host
  match parseIP h with
  | some ip => some ip
  | none => parseIPv4Numeric h

def reservedLoopbackNames : List Bytes :=
  [lit "localhost", lit "localhost.localdomain", lit "ip6-localhost", lit "ip6-loopback"]

/-- `strings.ToLower` and `strings.EqualFold`, which know all letters of Unicode. -/
structure CaseFolding where
  toLower : Bytes → Bytes
  equalFold : Bytes → Bytes → Bool

/-- What they do with ASCII. -/
def asciiFolding : CaseFolding := ⟨List.map Bytes.toLower, Bytes.equalFold⟩

def isReservedLoopbackName (fold : CaseFolding) (host : Bytes) : Bool :=
  let name := fold.toLower (Bytes.trimSuffix [Bytes.dot] host)
  decide (name ∈ reservedLoopbackNames) || (lit ".localhost").isSuffixOf name

inductive LocalKind where
  | emptyHost
  | loopback
  | unspecified
  | numericLoopback
  | numericUnspecified
  | reservedName
  deriving DecidableEq, Repr

/-- Why a host denotes this machine, if the text decides that it does. -/
def localTargetKind (fold : CaseFolding) (host : Bytes) : Option LocalKind :=
  let h := bareHost host
  if h = [] then some .emptyHost
  else
    match parseIP h with
    | some ip =>
      if ip.isLoopback then some .loopback
      else if ip.isUnspecified then some .unspecified
      else none
    | none =>
      match parseIPv4Numeric h with
      | some ip =>
        if ip.isLoopback then some .numericLoopback
        else if ip.isUnspecified then some .numericUnspecified
        else none
      | none => if isReservedLoopbackName fold h then some .reservedName else none

def sameHost (fold : CaseFolding) (a b : Bytes) : Bool :=
  match hostIP a, hostIP b with
  | some ipA, some ipB => ipA.equal ipB
  | none, none =>
    fold.equalFold (Bytes.trimSuffix [Bytes.dot] a) (Bytes.trimSuffix [Bytes.dot] b)
  | _, _ => false

inductive SelfReference where
  | ownPort (kind : LocalKind)
  | localTarget (kind : LocalKind)
  | ownAddress
  deriving DecidableEq, Repr

def connectSelfReference (fold : CaseFolding) (host port listen : Bytes) (loopbackOnly : Bool) :
    Option SelfReference :=
  let (lhost, lport) := splitHostPortLenient listen
  match localTargetKind fold host with
  | some kind =>
    if loopbackOnly then
      if port = lport ∧ port ≠ [] then some (.ownPort kind) else none
    else some (.localTarget kind)
  | none =>
    if lhost ≠ [] ∧ localTargetKind fold lhost = none ∧ sameHost fold host lhost then some .ownAddress
    else none

/-! ## Socket addresses -/

/-- `net.Addr`: the address of a TCP socket, or an address of which only the text is
known. -/
inductive NetAddr where
  | tcp (addr : TCPAddr)
  | other (text : Bytes)
  deriving DecidableEq, Repr

def NetAddr.text : NetAddr → Bytes
  | .tcp addr => addr.text
  | .other text => text

def addrIP : NetAddr → Option IP
  | .tcp addr => if addr.ip = [] then none else some addr.ip
  | .other text => parseIP (bareHost (splitHostPortLenient text).1)

inductive ListenScope where
  | unknown
  | loopbackOnly
  | reachable
  deriving DecidableEq, Repr

def boundListenScope (addr : NetAddr) : ListenScope :=
  match addrIP addr with
  | none => .reachable
  | some ip =>
    if ip.isUnspecified then .reachable
    else if ip.isLoopback then .loopbackOnly
    else .reachable

inductive DialRefusal where
  | resolvesToLoopback
  | resolvesToGatewayHost
  deriving DecidableEq, Repr

def DialRefusal.reason : DialRefusal → Bytes
  | .resolvesToLoopback => lit "target_resolves_to_loopback"
  | .resolvesToGatewayHost => lit "target_resolves_to_gateway_host"

def connectDialRefusal (scope : ListenScope) (localAddr remoteAddr : NetAddr) : Option DialRefusal :=
  if scope = .loopbackOnly then none
  else
    match addrIP remoteAddr with
    | none => none
    | some rip =>
      if rip.isLoopback || rip.isUnspecified then some .resolvesToLoopback
      else if (addrIP localAddr).any (fun lip => lip.equal rip) then some .resolvesToGatewayHost
      else none

/-! ## What the two layers decide -/

theorem boundListenScope_eq_loopbackOnly {addr : NetAddr} :
    boundListenScope addr = .loopbackOnly →
      ∃ ip, addrIP addr = some ip ∧ ip.isLoopback = true := by
  intro scope
  unfold boundListenScope at scope
  split at scope
  · cases scope
  next ip known =>
    split at scope
    · cases scope
    · split at scope
      · next loopback => exact ⟨ip, known, loopback⟩
      · cases scope

/-- A dial that is let through on a socket others can reach ended neither on loopback
nor on the address it was made from. -/
theorem connectDialRefusal_eq_none {scope : ListenScope} {source destination : TCPAddr}
    (reachable : scope ≠ .loopbackOnly)
    (passed : connectDialRefusal scope (.tcp source) (.tcp destination) = none) :
    destination.ip.isLoopback = false ∧
      (destination.ip ≠ [] → source.ip ≠ [] → source.ip.equal destination.ip = false) := by
  unfold connectDialRefusal at passed
  rw [if_neg reachable] at passed
  by_cases absent : destination.ip = []
  · rw [absent]
    exact ⟨by decide, fun nonempty => absurd rfl nonempty⟩
  · have known : addrIP (.tcp destination) = some destination.ip := if_neg absent
    rw [known] at passed
    dsimp only at passed
    split at passed
    · cases passed
    next remote =>
      rw [Bool.or_eq_true, not_or] at remote
      split at passed
      · cases passed
      next own =>
        refine ⟨Bool.eq_false_iff.mpr remote.1, ?_⟩
        intro _ present
        have isSource : addrIP (.tcp source) = some source.ip := if_neg present
        rw [isSource] at own
        exact Bool.eq_false_iff.mpr own

end ClusterRouter.Channel
