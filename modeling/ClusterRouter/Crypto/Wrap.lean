import ClusterRouter.Foundation.Bytes

/-! `internal/crypto/wrap.go`: a connection that seals every write into records and opens every
record it reads. A deadline may interrupt `Read` after any byte, so it keeps what it has read of
a record and the plaintext it has not handed out. -/

set_option autoImplicit false

namespace ClusterRouter.Crypto

open Foundation

def maxFrame : Nat := 64 * 1024

def nonceSize : Nat := 12

def gcmTagSize : Nat := 16

def maxRecord : Nat := nonceSize + maxFrame + gcmTagSize

abbrev Nonce : Type := { nonce : Bytes // nonce.length = nonceSize }

/-- Authenticated encryption under a fixed key. Sealing adds the tag. -/
structure AEAD where
  sealChunk : Nonce → Bytes → Bytes
  openSealed : Nonce → Bytes → Option Bytes
  length_sealChunk : ∀ nonce chunk, (sealChunk nonce chunk).length = chunk.length + gcmTagSize
  openSealed_sealChunk : ∀ nonce chunk, openSealed nonce (sealChunk nonce chunk) = some chunk

/-! ## Writing -/

def putUint32 (n : Nat) : Bytes :=
  [UInt8.ofNat (n / 2 ^ 24), UInt8.ofNat (n / 2 ^ 16), UInt8.ofNat (n / 2 ^ 8), UInt8.ofNat n]

def uint32 (bytes : Bytes) : Nat := bytes.foldl (fun value b => value * 256 + b.toNat) 0

def frameOf (sealed : Bytes) : Bytes := putUint32 sealed.length ++ sealed

def writeRecord (aead : AEAD) (nonce : Nonce) (chunk : Bytes) : Bytes :=
  frameOf (nonce.val ++ aead.sealChunk nonce chunk)

/-- The chunks of a write, with enough fuel for one step a byte; an empty payload is
one empty chunk. -/
def chunksWithin : Nat → Bytes → List Bytes
  | 0, p => [p]
  | fuel + 1, p =>
    if p.length ≤ maxFrame then [p] else p.take maxFrame :: chunksWithin fuel (p.drop maxFrame)

def chunks (p : Bytes) : List Bytes := chunksWithin p.length p

def writeChunks (aead : AEAD) : List (Nonce × Bytes) → Bytes
  | [] => []
  | (nonce, chunk) :: rest => writeRecord aead nonce chunk ++ writeChunks aead rest

def sentRecords (nonces : Nat → Nonce) (payloads : List Bytes) : List (Nonce × Bytes) :=
  (payloads.flatMap chunks).zipIdx.map (fun sent => (nonces sent.2, sent.1))

/-! ## The transport -/

inductive Fault where
  | timeout
  | closed
  deriving DecidableEq, Repr

/-- One read of the underlying connection: how many bytes are there, and the error
that comes with them. -/
structure Arrival where
  count : Nat
  fault : Option Fault
  deriving DecidableEq, Repr

/-- A connection: the bytes on their way, how they arrive, and what a read reports
once all of them have. -/
structure Net where
  wire : Bytes
  script : List Arrival
  atEnd : Option Fault
  deriving DecidableEq, Repr

/-! ## Reading -/

structure PartialFrame where
  size : Nat
  bytes : Bytes
  deriving DecidableEq, Repr

structure WrapConn where
  hdr : Bytes
  frame : Option PartialFrame
  readBuf : Bytes
  tamperCount : Nat
  deriving DecidableEq, Repr

inductive ReadError where
  | timeout
  | readLength (fault : Fault)
  | shortFrame (fault : Fault)
  | outOfBounds (frameLen : Nat)
  | underrun (frameLen : Nat)
  | openFailed
  deriving DecidableEq, Repr

def ReadError.isTampered : ReadError → Bool
  | .outOfBounds _ => true
  | .underrun _ => true
  | .openFailed => true
  | _ => false

/-- `blocked` is a read that is still waiting when the arrivals end. -/
inductive ReadResult where
  | data (bytes : Bytes)
  | error (error : ReadError)
  | blocked
  deriving DecidableEq, Repr

inductive FillStop where
  | full
  | fault (fault : Fault)
  | blocked
  deriving DecidableEq, Repr

structure Fill where
  bytes : Bytes
  net : Net
  stop : FillStop
  deriving DecidableEq, Repr

/-- Either read loop: read until there are `goal` bytes or a read reports an error. -/
def fill (goal : Nat) (wire : Bytes) (atEnd : Option Fault) : Bytes → List Arrival → Fill
  | bytes, [] =>
    if goal ≤ bytes.length then ⟨bytes, ⟨wire, [], atEnd⟩, .full⟩
    else
      match atEnd with
      | none => ⟨bytes, ⟨wire, [], atEnd⟩, .blocked⟩
      | some fault =>
        ⟨bytes, ⟨wire, [], atEnd⟩, if wire = [] then .fault fault else .blocked⟩
  | bytes, arrival :: rest =>
    if goal ≤ bytes.length then ⟨bytes, ⟨wire, arrival :: rest, atEnd⟩, .full⟩
    else
      let n := min arrival.count (goal - bytes.length)
      match arrival.fault with
      | none => fill goal (wire.drop n) atEnd (bytes ++ wire.take n) rest
      | some fault => ⟨bytes ++ wire.take n, ⟨wire.drop n, rest, atEnd⟩, .fault fault⟩

namespace WrapConn

def fresh : WrapConn := ⟨[], none, [], 0⟩

def resetFraming (w : WrapConn) : WrapConn := { w with hdr := [], frame := none }

def countTamper (w : WrapConn) : WrapConn := { w with tamperCount := w.tamperCount + 1 }

inductive Assembly where
  | record (w : WrapConn) (frame : Bytes) (net : Net)
  | stopped (w : WrapConn) (net : Net) (result : ReadResult)
  deriving DecidableEq, Repr

def readBody (w : WrapConn) (net : Net) (size : Nat) (bytes : Bytes) : Assembly :=
  let filled := fill size net.wire net.atEnd bytes net.script
  match filled.stop with
  | .full => .record w.resetFraming filled.bytes filled.net
  | .blocked => .stopped { w with frame := some ⟨size, filled.bytes⟩ } filled.net .blocked
  | .fault .timeout =>
    .stopped { w with frame := some ⟨size, filled.bytes⟩ } filled.net (.error .timeout)
  | .fault fault => .stopped w.resetFraming.countTamper filled.net (.error (.shortFrame fault))

def startBody (w : WrapConn) (net : Net) : Assembly :=
  let frameLen := uint32 w.hdr
  if frameLen = 0 ∨ maxRecord < frameLen then
    .stopped w.resetFraming.countTamper net (.error (.outOfBounds frameLen))
  else if frameLen < nonceSize + gcmTagSize then
    .stopped w.resetFraming.countTamper net (.error (.underrun frameLen))
  else readBody w net frameLen []

def assemble (w : WrapConn) (net : Net) : Assembly :=
  match w.frame with
  | some frame => readBody w net frame.size frame.bytes
  | none =>
    let filled := fill 4 net.wire net.atEnd w.hdr net.script
    match filled.stop with
    | .full => startBody { w with hdr := filled.bytes } filled.net
    | .blocked => .stopped { w with hdr := filled.bytes } filled.net .blocked
    | .fault .timeout => .stopped { w with hdr := filled.bytes } filled.net (.error .timeout)
    | .fault fault => .stopped w.resetFraming filled.net (.error (.readLength fault))

def openRecord (openSealed : Nonce → Bytes → Option Bytes) (frame : Bytes) : Option Bytes :=
  if sized : (frame.take nonceSize).length = nonceSize then
    openSealed ⟨frame.take nonceSize, sized⟩ (frame.drop nonceSize)
  else none

def deliver (w : WrapConn) (size : Nat) (plaintext : Bytes) : WrapConn × ReadResult :=
  ({ w with readBuf := plaintext.drop size }, .data (plaintext.take size))

def read (openSealed : Nonce → Bytes → Option Bytes) (w : WrapConn) (net : Net) (size : Nat) :
    WrapConn × Net × ReadResult :=
  if size = 0 then (w, net, .data [])
  else if w.readBuf ≠ [] then
    let (w, result) := w.deliver size w.readBuf
    (w, net, result)
  else
    match w.assemble net with
    | .stopped w net result => (w, net, result)
    | .record w frame net =>
      match openRecord openSealed frame with
      | none => (w.countTamper, net, .error .openFailed)
      | some plaintext =>
        let (w, result) := w.deliver size plaintext
        (w, net, result)

end WrapConn

end ClusterRouter.Crypto
