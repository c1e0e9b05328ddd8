import ClusterRouter.Foundation.Hex

/-! `net.IP` as the byte slice it is: four bytes, sixteen bytes, or no address. The textual
forms are those of `IP.String` and `ParseIP`. -/

set_option autoImplicit false

namespace ClusterRouter.Foundation

abbrev IP := List UInt8

namespace IP

def v4InV6Prefix : IP := [0, 0, 0, 0, 0, 0, 0, 0, 0, 0, 0xff, 0xff]

def ipv6Loopback : IP := [0, 0, 0, 0, 0, 0, 0, 0, 0, 0, 0, 0, 0, 0, 0, 1]

def ipv6Unspecified : IP := List.replicate 16 0

def ipv4Zero : IP := v4InV6Prefix ++ [0, 0, 0, 0]

def to4 (ip : IP) : Option IP :=
  if ip.length = 4 then some ip
  else if ip.length = 16 ∧ v4InV6Prefix.isPrefixOf ip then some (ip.drop 12)
  else none

def to16 (ip : IP) : IP := if ip.length = 4 then v4InV6Prefix ++ ip else ip

/-- `IP.Equal`: an IPv4 address and its mapped form are the same address. -/
def equal (ip other : IP) : Bool :=
  if ip.length = other.length then decide (ip = other)
  else if ip.length = 4 ∧ other.length = 16 then decide (other = v4InV6Prefix ++ ip)
  else if ip.length = 16 ∧ other.length = 4 then decide (ip = v4InV6Prefix ++ other)
  else false

def isUnspecified (ip : IP) : Bool := ip.equal ipv4Zero || ip.equal ipv6Unspecified

def isLoopback (ip : IP) : Bool :=
  match ip.to4 with
  | some four => decide (four.head? = some 127)
  | none => ip.equal ipv6Loopback

end IP

/-! ## Reading -/

def hexField : Nat → Nat → Bytes → Option (Nat × Bytes)
  | count, value, [] => if count = 0 then none else some (value, [])
  | count, value, b :: rest =>
    match hexDigit b with
    | none => if count = 0 then none else some (value, b :: rest)
    | some digit => if 3 < count then none else hexField (count + 1) (value * 16 + digit) rest

def parseOctet (s : Bytes) : Option UInt8 :=
  let value := s.foldl (fun value b => value * 10 + (b.toNat - 48)) 0
  if s = [] ∨ s.all Bytes.isDigit = false ∨ (1 < s.length ∧ s.head? = some 48) ∨ 255 < value then none
  else some (UInt8.ofNat value)

def parseIPv4 (s : Bytes) : Option IP :=
  match (Bytes.split Bytes.dot s).map parseOctet with
  | [some a, some b, some c, some d] => some [a, b, c, d]
  | _ => none

/-- The loop of `parseIPv6`, with room for that many more fields: the bytes read,
the place of the ellipsis among them, and what is left of the text. -/
def parseFields : Nat → Bytes → IP → Option Nat → Option (IP × Option Nat × Bytes)
  | 0, s, read, ellipsis => some (read, ellipsis, s)
  | room + 1, s, read, ellipsis =>
    match hexField 0 0 s with
    | none => none
    | some (value, rest) =>
      if rest.head? = some Bytes.dot then
        if ellipsis = none ∧ read.length ≠ 12 then none
        else if 16 < read.length + 4 then none
        else (parseIPv4 s).map (fun quad => (read ++ quad, ellipsis, []))
      else
        let read := read ++ [UInt8.ofNat (value / 256), UInt8.ofNat (value % 256)]
        match rest with
        | [] => some (read, ellipsis, [])
        | b :: rest =>
          if b ≠ Bytes.colon then none
          else
            match rest with
            | [] => none
            | c :: tail =>
              if c ≠ Bytes.colon then parseFields room (c :: tail) read ellipsis
              else if ellipsis.isSome then none
              else if tail = [] then some (read, some read.length, [])
              else parseFields room tail read (some read.length)

/-- The end of `parseIPv6`: all text used, and an ellipsis exactly where there is
room for one. -/
def expandEllipsis : IP × Option Nat × Bytes → Option IP
  | (_, _, _ :: _) => none
  | (read, none, []) => if read.length < 16 then none else some read
  | (read, some place, []) =>
    if read.length < 16 then
      some (read.take place ++ List.replicate (16 - read.length) 0 ++ read.drop place)
    else none

def parseIPv6 (s : Bytes) : Option IP :=
  if Bytes.percent ∈ s then none
  else if s.take 2 = [Bytes.colon, Bytes.colon] then
    if s.drop 2 = [] then some IP.ipv6Unspecified
    else (parseFields 8 (s.drop 2) [] (some 0)).bind expandEllipsis
  else (parseFields 8 s [] none).bind expandEllipsis

/-- `net.ParseIP`: the first dot, colon or percent sign decides the family. -/
def parseIP (s : Bytes) : Option IP :=
  match s.find? (fun b => decide (b = Bytes.dot ∨ b = Bytes.colon ∨ b = Bytes.percent)) with
  | none => none
  | some b =>
    if b = Bytes.dot then (parseIPv4 s).map IP.to16
    else if b = Bytes.colon then parseIPv6 s
    else none

/-! ## Writing -/

def octetText (b : UInt8) : Bytes :=
  let n := b.toNat
  let digit (n : Nat) : UInt8 := UInt8.ofNat (48 + n)
  if n < 10 then [digit n]
  else if n < 100 then [digit (n / 10), digit (n % 10)]
  else [digit (n / 100), digit (n / 10 % 10), digit (n % 10)]

def hexText (value : Nat) : Bytes :=
  (if 0x1000 ≤ value then [hexChar (value / 0x1000)] else []) ++
    (if 0x100 ≤ value then [hexChar (value / 0x100 % 16)] else []) ++
    (if 0x10 ≤ value then [hexChar (value / 0x10 % 16)] else []) ++ [hexChar (value % 16)]

def join (separator : UInt8) : List Bytes → Bytes
  | [] => []
  | [field] => field
  | field :: rest => field ++ separator :: join separator rest

def fields : IP → List Nat
  | high :: low :: rest => (high.toNat * 256 + low.toNat) :: fields rest
  | _ => []

def runLength : Option (Nat × Nat) → Nat
  | none => 1
  | some run => run.2 - run.1

def longerRun (all : List Nat) (best : Option (Nat × Nat)) (i : Nat) : Option (Nat × Nat) :=
  let size := ((all.drop i).takeWhile (fun value => decide (value = 0))).length
  if runLength best < size then some (i, i + size) else best

/-- The first longest run of at least two zero fields. -/
def zeroRun (all : List Nat) : Option (Nat × Nat) :=
  (List.range all.length).foldl (longerRun all) none

def fieldsText (all : List Nat) : Bytes :=
  match zeroRun all with
  | none => join Bytes.colon (all.map hexText)
  | some (first, last) =>
    join Bytes.colon ((all.take first).map hexText) ++ [Bytes.colon, Bytes.colon] ++
      join Bytes.colon ((all.drop last).map hexText)

def IP.regularText (ip : IP) : Bytes :=
  match ip.to4 with
  | some four => join Bytes.dot (four.map octetText)
  | none => fieldsText (fields ip)

/-- `IP.String`; a slice of another length is written as a question mark and its
digits. -/
def IP.text (ip : IP) : Bytes :=
  if ip = [] then lit "<nil>"
  else if ip.length ≠ 4 ∧ ip.length ≠ 16 then
    63 :: ip.flatMap (fun b => [hexChar (b.toNat / 16), hexChar (b.toNat % 16)])
  else ip.regularText

end ClusterRouter.Foundation
