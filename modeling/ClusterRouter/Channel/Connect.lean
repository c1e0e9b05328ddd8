import ClusterRouter.Channel.Server

/-! `handleConnect` up to the moment bytes start to move (`internal/channel/server.go`). The
answers of resolver and network, and whether the connection can be taken over, are inputs. -/

set_option autoImplicit false

namespace ClusterRouter.Channel

open Foundation

structure Connection where
  source : TCPAddr
  destination : TCPAddr
  deriving DecidableEq, Repr

inductive Hijack where
  | unsupported
  | failed
  | clientGone
  | taken
  deriving DecidableEq, Repr

inductive ConnectOutcome where
  | denied (status : Nat) (reason : Bytes)
  | clientGone
  | established (tunnel : Connection)
  deriving DecidableEq, Repr

def defaultConnectMaxConcurrent : Int := 256

def connectMaxConcurrent (connect : ConnectConfig) : Int :=
  if 0 < connect.maxConcurrent then connect.maxConcurrent else defaultConnectMaxConcurrent

def proxyAuthorization : HeaderName := ⟨lit "Proxy-Authorization", by decide, by decide⟩

namespace Server

def authorizeConnect (s : Server) (header : Bytes) : Bool :=
  let got := Bytes.trimSpace (header.drop bearerPrefix.length)
  decide (s.connToken ≠ []) && bearerPrefix.isPrefixOf header && decide (got ≠ []) &&
    decide (got = s.connToken)

def connectTarget (request : Request) : Bytes :=
  if request.host = [] then request.urlHost else request.host

/-- The checks made on the opened socket, before a byte moves. -/
def afterDial (s : Server) (accepted : Option NetAddr) (dialled : Connection) (hijack : Hijack) :
    ConnectOutcome :=
  match connectDialRefusal (s.servingScope accepted) (.tcp dialled.source)
      (.tcp dialled.destination) with
  | some why => .denied 403 why.reason
  | none =>
    match hijack with
    | .unsupported => .denied 500 (lit "hijack_unsupported")
    | .failed => .denied 500 (lit "hijack_failed")
    | .clientGone => .clientGone
    | .taken => .established dialled

def handleConnect (s : Server) (fold : CaseFolding) (openTunnels : Nat) (accepted : Option NetAddr)
    (request : Request) (dial : Option Connection) (hijack : Hijack) : ConnectOutcome :=
  if !s.connect.enabled then .denied 405 (lit "connect_disabled")
  else if !s.authorizeConnect (request.header.get proxyAuthorization) then
    .denied 407 (lit "bad_token")
  else if fold.toLower (connectTarget request) ∉ s.allowed then
    .denied 403 (lit "host_not_allowlisted")
  else if connectMaxConcurrent s.connect ≤ openTunnels then
    .denied 503 (lit "tunnels_at_capacity")
  else
    match dial with
    | none => .denied 502 (lit "dial_failed")
    | some dialled => s.afterDial accepted dialled hijack

theorem handleConnect_established {s : Server} {fold : CaseFolding} {openTunnels : Nat}
    {accepted : Option NetAddr} {request : Request} {dial : Option Connection} {hijack : Hijack}
    {tunnel : Connection}
    (established : s.handleConnect fold openTunnels accepted request dial hijack =
      .established tunnel) :
    dial = some tunnel ∧
      connectDialRefusal (s.servingScope accepted) (.tcp tunnel.source)
        (.tcp tunnel.destination) = none := by
  unfold handleConnect at established
  split at established
  · cases established
  split at established
  · cases established
  split at established
  · cases established
  split at established
  · cases established
  split at established
  · cases established
  next dialled =>
    unfold afterDial at established
    split at established
    · cases established
    next passed =>
      split at established
      · cases established
      · cases established
      · cases established
      · cases established
        exact ⟨rfl, passed⟩

theorem servingScope_of_serve {s running : Server} {fold : CaseFolding} {listener : NetAddr}
    (served : s.serve fold listener = .ok running) (accepted : Option NetAddr) :
    running.servingScope accepted = boundListenScope listener := by
  have adopted : running.scope = boundListenScope listener := by
    unfold serve at served
    dsimp only at served
    split at served
    · cases served
    · cases served
      rfl
  have known : boundListenScope listener ≠ .unknown := by
    unfold boundListenScope
    split
    · decide
    · split
      · decide
      · split <;> decide
  unfold servingScope
  rw [adopted, if_pos known]

end Server

end ClusterRouter.Channel
