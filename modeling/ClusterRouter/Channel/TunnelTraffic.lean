import ClusterRouter.Channel.Connect
import ClusterRouter.Foundation.Machine

/-! The two legs share a socket, so a tunnel may end on the gateway itself and a request through
it arrives with the tunnel's own source address as its peer. The machine takes CONNECT and proxy
requests in any order, from outside or through any open tunnel. -/

set_option autoImplicit false

namespace ClusterRouter.Channel

open Foundation

inductive Arrival where
  | outside (peer : TCPAddr)
  | tunnelled (tunnel : Connection)
  deriving DecidableEq, Repr

def Arrival.peer : Arrival → TCPAddr
  | .outside peer => peer
  | .tunnelled tunnel => tunnel.source

/-- What the world answers while a request is handled: the local address of its
connection, the handlers that hold a tunnel slot without a tunnel yet, the dial,
and the attempt to take the client connection over. -/
structure Surroundings where
  accepted : Option NetAddr
  dialling : Nat
  dial : Option Connection
  hijack : Hijack
  deriving DecidableEq, Repr

inductive TrafficEvent where
  | request (arrival : Arrival) (request : Request) (surroundings : Surroundings)
  | close (tunnel : Connection)

def TrafficEvent.dial : TrafficEvent → Option Connection
  | .request _ _ surroundings => surroundings.dial
  | .close _ => none

/-- A request that went to `authorizeProxy`, and whether it passed as a loopback peer
without a token. -/
structure TrafficRecord where
  arrival : Arrival
  exempted : Bool
  deriving DecidableEq, Repr

structure TrafficState where
  tunnels : List Connection
  log : List TrafficRecord
  deriving DecidableEq, Repr

namespace Server

def loopbackExempted (s : Server) (request : Request) : Bool :=
  decide (s.authorize request = none ∧ s.proxyAuth = .tokenLoopbackExempt ∧
    presentedToken request = [])

/-- `Handler`: CONNECT is told apart by its method, everything else asks
`authorizeProxy`. -/
def handle (s : Server) (fold : CaseFolding) (state : TrafficState) (arrival : Arrival)
    (request : Request) (surroundings : Surroundings) : TrafficState :=
  if request.method = lit "CONNECT" then
    match s.handleConnect fold (state.tunnels.length + surroundings.dialling) surroundings.accepted
        request surroundings.dial surroundings.hijack with
    | .established tunnel => { state with tunnels := tunnel :: state.tunnels }
    | _ => state
  else { state with log := state.log ++ [⟨arrival, s.loopbackExempted request⟩] }

def Arrives (state : TrafficState) (arrival : Arrival) (request : Request) : Bool :=
  decide (request.remoteAddr = arrival.peer.text) &&
    match arrival with
    | .outside _ => true
    | .tunnelled tunnel => decide (tunnel ∈ state.tunnels)

def traffic (s : Server) (fold : CaseFolding) : Machine TrafficState TrafficEvent where
  step state
    | .request arrival request surroundings =>
      if Arrives state arrival request then some (s.handle fold state arrival request surroundings)
      else none
    | .close tunnel =>
      if tunnel ∈ state.tunnels then some { state with tunnels := state.tunnels.erase tunnel }
      else none

end Server

/-- The operating system: which addresses are the host's own. -/
structure HostNetwork where
  own : IP → Prop
  own_ne_nil : ∀ ip, own ip → ip ≠ []

/-- A connection that starts on loopback ends on loopback, and one from the host to an
address of its own has that address at both ends. -/
structure HostNetwork.Allows (network : HostNetwork) (connection : Connection) : Prop where
  loopback : connection.source.ip.isLoopback = true → connection.destination.ip.isLoopback = true
  own : network.own connection.destination.ip →
    connection.source.ip.equal connection.destination.ip = true

/-! ## Tunnels end elsewhere -/

/-- A tunnel that neither ends on this host nor can be taken for a local caller. -/
structure Outward (network : HostNetwork) (tunnel : Connection) : Prop where
  source : tunnel.source.ip.isLoopback = false
  destination : ¬ network.own tunnel.destination.ip

theorem outward_of_passed {network : HostNetwork} {scope : ListenScope} {tunnel : Connection}
    (allowed : network.Allows tunnel) (reachable : scope ≠ .loopbackOnly)
    (passed : connectDialRefusal scope (.tcp tunnel.source) (.tcp tunnel.destination) = none) :
    Outward network tunnel := by
  obtain ⟨remote, distinct⟩ := connectDialRefusal_eq_none reachable passed
  constructor
  · rw [Bool.eq_false_iff]
    intro loopback
    rw [allowed.loopback loopback] at remote
    cases remote
  · intro own
    have equal := allowed.own own
    have present := network.own_ne_nil _ own
    rw [distinct present (IP.ne_nil_of_equal equal present)] at equal
    cases equal

namespace Server

structure Contained (network : HostNetwork) (state : TrafficState) : Prop where
  tunnels : ∀ tunnel ∈ state.tunnels, Outward network tunnel
  log : ∀ record ∈ state.log, ∀ tunnel, record.arrival = .tunnelled tunnel → record.exempted = false

variable {s : Server} {fold : CaseFolding} {network : HostNetwork}

theorem loopbackExempted_of_outward {tunnel : Connection} {request : Request}
    (outward : Outward network tunnel) (arrived : request.remoteAddr = tunnel.source.text) :
    s.loopbackExempted request = false := by
  have remote : isLoopbackPeer request.remoteAddr = false := by
    rw [arrived, isLoopbackPeer_text, outward.source]
  unfold loopbackExempted
  rw [decide_eq_false_iff_not]
  rintro ⟨passes, exempt, absent⟩
  unfold authorize at passes
  rw [authorizeProxy_eq_none, exempt, remote] at passes
  simp [absent] at passes

theorem Contained.handle {state : TrafficState} {arrival : Arrival} {request : Request}
    {surroundings : Surroundings} (contained : Contained network state)
    (scope : ∀ accepted, s.servingScope accepted ≠ .loopbackOnly)
    (allowed : ∀ connection, surroundings.dial = some connection → network.Allows connection)
    (arrives : Arrives state arrival request = true) :
    Contained network (s.handle fold state arrival request surroundings) := by
  unfold Server.handle
  split
  · split
    next tunnel established =>
      obtain ⟨dialled, passed⟩ := handleConnect_established established
      refine ⟨?_, contained.log⟩
      intro opened member
      rcases List.mem_cons.mp member with rfl | earlier
      · exact outward_of_passed (allowed _ dialled) (scope _) passed
      · exact contained.tunnels opened earlier
    next => exact contained
  · refine ⟨contained.tunnels, forall_mem_concat contained.log ?_⟩
    rintro tunnel rfl
    simp only [Arrives, Bool.and_eq_true, decide_eq_true_eq] at arrives
    exact loopbackExempted_of_outward (contained.tunnels tunnel arrives.2) arrives.1

theorem Contained.step {state next : TrafficState} {event : TrafficEvent}
    (scope : ∀ accepted, s.servingScope accepted ≠ .loopbackOnly)
    (allowed : ∀ connection, event.dial = some connection → network.Allows connection)
    (stepped : (s.traffic fold).step state event = some next) (contained : Contained network state) :
    Contained network next := by
  cases event with
  | request arrival request surroundings =>
    simp only [traffic] at stepped
    split at stepped
    next arrives =>
      cases stepped
      exact contained.handle scope allowed arrives
    next => cases stepped
  | close tunnel =>
    simp only [traffic] at stepped
    split at stepped
    · cases stepped
      exact ⟨fun opened member => contained.tunnels opened (List.mem_of_mem_erase member),
        contained.log⟩
    · cases stepped

end Server

/-- On a socket that others can reach, whatever the allowlist holds and whatever the
dials find, no tunnel ends on the host itself and no request that comes through a
tunnel passes as a loopback peer. -/
theorem no_exemption_through_tunnels {s running : Server} {fold : CaseFolding} {listener : NetAddr}
    (served : s.serve fold listener = .ok running)
    (remote : ∀ ip, addrIP listener = some ip → ip.isLoopback = false)
    (network : HostNetwork) {trace : List TrafficEvent} {final : TrafficState}
    (allowed : ∀ event ∈ trace, ∀ connection, event.dial = some connection →
      network.Allows connection)
    (ran : (running.traffic fold).run ⟨[], []⟩ trace = some final) :
    (∀ tunnel ∈ final.tunnels, ¬ network.own tunnel.destination.ip) ∧
      ∀ record ∈ final.log, ∀ tunnel, record.arrival = .tunnelled tunnel →
        record.exempted = false := by
  have scope : ∀ accepted, running.servingScope accepted ≠ .loopbackOnly := by
    intro accepted narrow
    rw [Server.servingScope_of_serve served] at narrow
    obtain ⟨ip, known, loopback⟩ := boundListenScope_eq_loopbackOnly narrow
    rw [remote ip known] at loopback
    cases loopback
  have contained : Server.Contained network final :=
    (running.traffic fold).run_invariant_of_meets (Server.Contained network)
      (fun _ _ _ dials stepped before => before.step scope dials stepped)
      ((running.traffic fold).meets_of_forall allowed _) ran ⟨by simp, by simp⟩
  exact ⟨fun tunnel member => (contained.tunnels tunnel member).destination, contained.log⟩

def tunnelServer : Server where
  connect := ⟨true, [lit "relay.example:443"], lit "CONNECT_TOKEN", [], [], 0⟩
  routes := []
  connToken := lit "teasel"
  allowed := [lit "relay.example:443"]
  proxyAuth := .tokenLoopbackExempt
  proxyToken := lit "orchid"
  scope := .unknown

def neighbourTunnel : Connection := ⟨⟨[10, 0, 0, 5], 40000, []⟩, ⟨[10, 0, 0, 9], 443, []⟩⟩

def connectRequest : Request where
  method := lit "CONNECT"
  host := lit "Relay.example:443"
  urlHost := []
  path := []
  rawQuery := []
  header := Header.empty.set proxyAuthorization (lit "Bearer teasel")
  remoteAddr := lit "203.0.113.9:50000"
  contentLength := 0

def tunnelledRequest : Request :=
  { connectRequest with
    method := lit "GET", path := lit "/healthz", header := Header.empty
    remoteAddr := lit "10.0.0.5:40000" }

def tunnelTrace : List TrafficEvent :=
  [.request (.outside ⟨[203, 0, 113, 9], 50000, []⟩) connectRequest
      ⟨none, 0, some neighbourTunnel, .taken⟩,
    .request (.tunnelled neighbourTunnel) tunnelledRequest ⟨none, 0, none, .failed⟩]

def tunnelSocket : NetAddr := .tcp ⟨[0, 0, 0, 0], 14443, []⟩

def tunnelHost : HostNetwork where
  own ip := ip = [10, 0, 0, 5]
  own_ne_nil := by
    rintro _ rfl
    decide

theorem no_exemption_through_neighbour_tunnel :
    ∃ running final, tunnelServer.serve asciiFolding tunnelSocket = .ok running ∧
      (running.traffic asciiFolding).run ⟨[], []⟩ tunnelTrace = some final ∧
      final.log.map TrafficRecord.arrival = [.tunnelled neighbourTunnel] ∧
      ∀ record ∈ final.log, ∀ tunnel, record.arrival = .tunnelled tunnel →
        record.exempted = false := by
  have served : tunnelServer.serve asciiFolding tunnelSocket =
      .ok { tunnelServer with scope := .reachable } := rfl
  have remote : ∀ ip, addrIP tunnelSocket = some ip → ip.isLoopback = false := by
    intro ip known
    cases known
    decide
  have allowed : ∀ event ∈ tunnelTrace, ∀ connection, event.dial = some connection →
      tunnelHost.Allows connection := by
    intro event member connection dialled
    rcases List.mem_cons.mp member with rfl | later
    · cases dialled
      exact ⟨by decide, fun own => absurd own (by unfold tunnelHost; decide)⟩
    · rw [List.mem_singleton.mp later] at dialled
      cases dialled
  have ran : (Server.traffic { tunnelServer with scope := .reachable } asciiFolding).run ⟨[], []⟩
      tunnelTrace = some ⟨[neighbourTunnel], [⟨.tunnelled neighbourTunnel, false⟩]⟩ := by
    decide
  exact ⟨_, _, served, ran, rfl,
    (no_exemption_through_tunnels served remote tunnelHost allowed ran).2⟩

end ClusterRouter.Channel
