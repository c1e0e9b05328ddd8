import ClusterRouter.Channel.NumericIPv4

/-! `internal/proxy/socks5/client.go`: the handshake that asks a SOCKS5 proxy for a connection,
and the request it writes as RFC 1928 reads it. -/

set_option autoImplicit false

namespace ClusterRouter.Socks5

open Foundation Channel

/-! ## The handshake -/

inductive DialError where
  | dialProxy
  | setDeadline
  | targetAddr
  | writeGreeting
  | readGreetingReply
  | badGreetingReplyVersion (version : UInt8)
  | authRequired
  | writeConnect
  | readReplyHeader
  | badReplyVersion (version : UInt8)
  | serverReply (code : UInt8)
  | readFQDNLen
  | unknownATYP (atyp : UInt8)
  | readReplyTail
deriving DecidableEq, Repr

/-- What the connection to the proxy does, and the bytes that arrive on it in time. -/
structure Proxy where
  dials : Bool
  takesDeadline : Bool
  takesGreeting : Bool
  takesConnect : Bool
  incoming : Bytes

/-- The messages written, and what is left to read on the connection that is returned. -/
structure Dial where
  written : List Bytes
  result : Except DialError Bytes

def splitHostPort (addr : Bytes) : Option (Bytes × Nat) :=
  let (host, portStr) := (Foundation.splitHostPort addr).getD (addr, lit "443")
  (parseUint 10 portStr).bind (fun p => if p < 2 ^ 16 then some (host, p) else none)

def readFull (size : Nat) (failure : DialError) (incoming : Bytes) :
    Except DialError (Bytes × Bytes) :=
  if incoming.length < size then .error failure else .ok (incoming.splitAt size)

def greeting : Bytes := [0x05, 0x01, 0x00]

def connectRequest (host : Bytes) (port : Nat) : Bytes :=
  [0x05, 0x01, 0x00, 0x03, UInt8.ofNat host.length] ++ host ++
    [UInt8.ofNat (port >>> 8), UInt8.ofNat port]

def readGreeting (incoming : Bytes) : Except DialError Bytes := do
  let (greet, incoming) ← readFull 2 .readGreetingReply incoming
  rejectIf (greet.getD 0 0 ≠ 0x05) (.badGreetingReplyVersion (greet.getD 0 0))
  rejectIf (greet.getD 1 0 = 0xff ∨ greet.getD 1 0 ≠ 0x00) .authRequired
  return incoming

def readReply (incoming : Bytes) : Except DialError Bytes := do
  let (hdr, incoming) ← readFull 4 .readReplyHeader incoming
  rejectIf (hdr.getD 0 0 ≠ 0x05) (.badReplyVersion (hdr.getD 0 0))
  rejectIf (hdr.getD 1 0 ≠ 0x00) (.serverReply (hdr.getD 1 0))
  let (addrLen, incoming) ← match hdr.getD 3 0 with
    | 0x01 => .ok (4, incoming)
    | 0x03 => (readFull 1 .readFQDNLen incoming).map (fun l => ((l.1.getD 0 0).toNat, l.2))
    | 0x04 => .ok (16, incoming)
    | atyp => .error (.unknownATYP atyp)
  let (_, incoming) ← readFull (addrLen + 2) .readReplyTail incoming
  return incoming

def dialSOCKS5 (proxy : Proxy) (target : Bytes) : Dial :=
  if !proxy.dials then ⟨[], .error .dialProxy⟩
  else if !proxy.takesDeadline then ⟨[], .error .setDeadline⟩
  else
    match splitHostPort target with
    | none => ⟨[], .error .targetAddr⟩
    | some (host, port) =>
      if !proxy.takesGreeting then ⟨[], .error .writeGreeting⟩
      else
        match readGreeting proxy.incoming with
        | .error failure => ⟨[greeting], .error failure⟩
        | .ok incoming =>
          if !proxy.takesConnect then ⟨[greeting], .error .writeConnect⟩
          else ⟨[greeting, connectRequest host port], readReply incoming⟩

/-! ## Requests under RFC 1928 -/

inductive Command where
  | connect | bind | udpAssociate
deriving DecidableEq, Repr

inductive Address where
  | ipv4 (octets : Bytes)
  | domainName (name : Bytes)
  | ipv6 (octets : Bytes)
deriving DecidableEq, Repr

structure Request where
  command : Command
  address : Address
  port : Nat
deriving DecidableEq, Repr

def decodeCommand : UInt8 → Option Command
  | 0x01 => some .connect
  | 0x02 => some .bind
  | 0x03 => some .udpAssociate
  | _ => none

def takeOctets (size : Nat) (s : Bytes) : Option (Bytes × Bytes) :=
  if s.length < size then none else some (s.splitAt size)

/-- The first octet of a domain name is the number of octets that follow. -/
def decodeAddress : UInt8 → Bytes → Option (Address × Bytes)
  | 0x01, s => (takeOctets 4 s).map (Prod.map .ipv4 id)
  | 0x03, size :: s => (takeOctets size.toNat s).map (Prod.map .domainName id)
  | 0x04, s => (takeOctets 16 s).map (Prod.map .ipv6 id)
  | _, _ => none

/-- One request at the front of a stream, and what follows it. The port is in network order. -/
def decodeRequest : Bytes → Option (Request × Bytes)
  | 0x05 :: cmd :: 0x00 :: atyp :: s => do
    let command ← decodeCommand cmd
    let (address, s) ← decodeAddress atyp s
    match s with
    | high :: low :: rest => some (⟨command, address, high.toNat * 256 + low.toNat⟩, rest)
    | _ => none
  | _ => none

theorem length_le_of_decodeAddress {atyp : UInt8} {s rest name : Bytes}
    (decoded : decodeAddress atyp s = some (.domainName name, rest)) : name.length ≤ 255 := by
  unfold decodeAddress at decoded
  split at decoded
  · simp at decoded
  next size s =>
    obtain ⟨_, taken, ⟨⟩⟩ := Option.map_eq_some_iff.mp decoded
    unfold takeOctets at taken
    split at taken
    · cases taken
    · cases taken
      have bound := size.toNat_lt
      rw [List.splitAt_eq, List.length_take]
      omega
  · simp at decoded
  · cases decoded

theorem length_le_of_decodeRequest {s rest name : Bytes} {command : Command} {port : Nat}
    (decoded : decodeRequest s = some (⟨command, .domainName name, port⟩, rest)) :
    name.length ≤ 255 := by
  unfold decodeRequest at decoded
  split at decoded
  · simp only [Option.bind_eq_bind, Option.bind_eq_some_iff] at decoded
    obtain ⟨_, _, ⟨address, after⟩, isAddress, decoded⟩ := decoded
    dsimp only at decoded
    split at decoded
    · cases decoded
      exact length_le_of_decodeAddress isAddress
    · cases decoded
  · cases decoded

theorem decodeRequest_connectRequest {host : Bytes} {port : Nat} (short : host.length ≤ 255)
    (small : port < 2 ^ 16) :
    decodeRequest (connectRequest host port) =
      some (⟨.connect, .domainName host, port⟩, []) := by
  have size : (UInt8.ofNat host.length).toNat = host.length := by
    rw [UInt8.toNat_ofNat']
    omega
  have number : port >>> 8 % 256 * 256 + port % 256 = port := by
    rw [Nat.shiftRight_eq_div_pow]
    omega
  simp [connectRequest, decodeRequest, decodeCommand, decodeAddress, takeOctets, size, number]

/-! ## What a target names -/

/-- The host part of a target and its port. A target that does not split is a host, and its port
is 443. -/
inductive Names (target : Bytes) : Bytes → Nat → Prop where
  | parts {host portStr : Bytes} {port : Nat}
      (split : Foundation.splitHostPort target = some (host, portStr))
      (numeral : IsNumeral 10 portStr port) : Names target host port
  | bare (whole : Foundation.splitHostPort target = none) : Names target target 443

theorem Names.host_eq {target host : Bytes} {port : Nat} (names : Names target host port) :
    host = lenientHost target := by
  cases names with
  | parts split _ => rw [lenientHost, split]
  | bare whole => rw [lenientHost, whole]

theorem names_of_splitHostPort {target host : Bytes} {port : Nat}
    (split : splitHostPort target = some (host, port)) :
    Names target host port ∧ port < 2 ^ 16 := by
  unfold splitHostPort at split
  cases parts : Foundation.splitHostPort target with
  | none =>
    have number : parseUint 10 (lit "443") = some 443 := by decide +kernel
    simp only [parts, Option.getD_none, number, Option.bind_some] at split
    cases split
    exact ⟨.bare parts, by decide⟩
  | some pair =>
    obtain ⟨name, portStr⟩ := pair
    simp only [parts, Option.getD_some, Option.bind_eq_some_iff,
      Option.ite_none_right_eq_some] at split
    obtain ⟨_, number, small, ⟨⟩⟩ := split
    exact ⟨.parts parts (parseUint_eq_some_iff.mp number), small⟩

theorem request_of_dialSOCKS5 {proxy : Proxy} {target request : Bytes}
    (wrote : (dialSOCKS5 proxy target).written[1]? = some request) :
    ∃ host port, splitHostPort target = some (host, port) ∧ request = connectRequest host port := by
  unfold dialSOCKS5 at wrote
  split at wrote
  · cases wrote
  split at wrote
  · cases wrote
  split at wrote
  · cases wrote
  next host port isSplit =>
    refine ⟨host, port, isSplit, ?_⟩
    split at wrote
    · cases wrote
    split at wrote
    · cases wrote
    split at wrote
    · cases wrote
    · cases wrote
      rfl

/-- A CONNECT request is read as one for the host and the port of the target, with nothing left,
exactly if the host has at most 255 bytes. -/
theorem connect_request_names_target_iff {proxy : Proxy} {target request : Bytes}
    (wrote : (dialSOCKS5 proxy target).written[1]? = some request) :
    (∃ host port, Names target host port ∧
        decodeRequest request = some (⟨.connect, .domainName host, port⟩, [])) ↔
      (lenientHost target).length ≤ 255 := by
  obtain ⟨host, port, split, rfl⟩ := request_of_dialSOCKS5 wrote
  obtain ⟨names, small⟩ := names_of_splitHostPort split
  constructor
  · rintro ⟨other, _, named, decoded⟩
    rw [← named.host_eq]
    exact length_le_of_decodeRequest decoded
  · intro short
    rw [← names.host_eq] at short
    exact ⟨host, port, names, decodeRequest_connectRequest short small⟩

/-- The proxy accepts, and answers with an IPv4 address. -/
def acceptingProxy : Proxy where
  dials := true
  takesDeadline := true
  takesGreeting := true
  takesConnect := true
  incoming := [5, 0, 5, 0, 0, 1, 10, 0, 0, 1, 4, 56]

theorem connect_request_names_target_iff_short :
    (dialSOCKS5 acceptingProxy (lit "api.example:8443")).written[1]? =
        some (connectRequest (lit "api.example") 8443) ∧
      ∃ host port, Names (lit "api.example:8443") host port ∧
        decodeRequest (connectRequest (lit "api.example") 8443) =
          some (⟨.connect, .domainName host, port⟩, []) := by
  have wrote : (dialSOCKS5 acceptingProxy (lit "api.example:8443")).written[1]? =
      some (connectRequest (lit "api.example") 8443) := by decide +kernel
  exact ⟨wrote, (connect_request_names_target_iff wrote).mpr (by decide +kernel)⟩

/-- The length of 256 bytes is written as zero: the name is read as empty, its first two bytes as
the port, and the rest of it is left. -/
theorem long_host_shifts_request :
    (dialSOCKS5 acceptingProxy (List.replicate 256 97 ++ lit ":80")).written[1]? =
        some (connectRequest (List.replicate 256 97) 80) ∧
      decodeRequest (connectRequest (List.replicate 256 97) 80) =
        some (⟨.connect, .domainName [], 24929⟩, List.replicate 254 97 ++ [0, 80]) ∧
      ¬ ∃ host port, Names (List.replicate 256 97 ++ lit ":80") host port ∧
        decodeRequest (connectRequest (List.replicate 256 97) 80) =
          some (⟨.connect, .domainName host, port⟩, []) := by
  have decoded : decodeRequest (connectRequest (List.replicate 256 97) 80) =
      some (⟨.connect, .domainName [], 24929⟩, List.replicate 254 97 ++ [0, 80]) := by
    decide +kernel
  refine ⟨by decide +kernel, decoded, ?_⟩
  rintro ⟨host, port, _, other⟩
  rw [decoded] at other
  cases other

end ClusterRouter.Socks5
