import ClusterRouter.Channel.LeaseSession
import ClusterRouter.Channel.VendorError

/-! `runGateway` builds a server for each leg from one configuration, and every pooled route of
a server has a store of its own (`cmd/helixchannel/gateway.go`). A pooled request leases a key,
may retire it and settles its lease; each of these is an event, so the requests of both legs
interleave freely. -/

set_option autoImplicit false

namespace ClusterRouter.Channel

open Foundation

inductive Leg where
  | reverseProxy
  | aes
  deriving DecidableEq, Repr

structure PooledRoute where
  keys : Nat
  policy : PolicyName
  budget : Budget
  maxRetryAfter : Int

/-- `newRotationStore`: no lease timeout is configured, so the default holds. -/
def newRotationStore (route : PooledRoute) : Store UInt64 :=
  newStore (newPolicy route.policy) route.budget route.maxRetryAfter 0 .machine

structure UpstreamAnswer where
  status : Int
  usage : UsageSample
  signal : Option VendorSignal
  deriving DecidableEq, Repr

def isQuotaStatus (status : Int) : Bool :=
  decide (status = 429) || decide (status = 402)

/-- A 5xx is not charged at all, and a response that generated no completion is
charged only what the upstream reported. -/
def chargeableSample (status : Int) (sample : UsageSample) : UsageSample :=
  if 500 ≤ status then ⟨.failed, 0, false⟩
  else if 300 ≤ status ∧ sample.tokens = tokensUnknown then ⟨.completed, 0, false⟩
  else sample

/-- The retirement half of `settleLease`: a vendor code wins over the status, and
one that says the key is healthy suppresses the retirement. -/
def retirementFor (reservation : Reservation) (answer : UpstreamAnswer) (readAt : Int) :
    Option Store.Call :=
  match answer.signal with
  | some signal =>
    if signal.retires then
      (vendorRetireUntil signal readAt none).map (fun deadline =>
        .retireWithReason reservation.route reservation.index deadline signal.reason)
    else none
  | none =>
    if isQuotaStatus answer.status then
      some (.retireForWindow reservation.route reservation.index .quota)
    else none

inductive RequestStage where
  | forwarding
  | answered (answer : UpstreamAnswer)
  deriving DecidableEq, Repr

structure ActiveRequest where
  reservation : Reservation
  stage : RequestStage
  deriving DecidableEq, Repr

structure Pool where
  session : LeaseSession UInt64
  active : List ActiveRequest

inductive GatewayRecord where
  | selected (leg : Leg) (route : String) (index : Nat) (instant : Int)
  | retired (leg : Leg) (route : String) (index : Nat) (deadline : Option Int)
  deriving DecidableEq, Repr

structure GatewayState where
  pools : Leg → String → Pool
  clock : Int
  log : List GatewayRecord

inductive GatewayAction where
  | arrive (leg : Leg) (route : String)
  | respond (leg : Leg) (reservation : Reservation) (answer : UpstreamAnswer) (readAt : Int)
  | settle (leg : Leg) (reservation : Reservation) (answer : UpstreamAnswer)
  | fail (leg : Leg) (reservation : Reservation)
  | retryAfter (leg : Leg) (route : String)
  | snapshot (leg : Leg) (route : String)
  deriving DecidableEq, Repr

structure GatewayEvent where
  now : Int
  action : GatewayAction
  deriving DecidableEq, Repr

/-- The pooled routes of a configuration and the instants at which their stores
were made: the process starts, both servers are built, both legs serve. -/
structure GatewayConfig where
  routes : String → Option PooledRoute
  startup : Int
  storeStart : Leg → String → Int
  serving : Int
  startup_le : ∀ leg route, startup ≤ storeStart leg route
  le_serving : ∀ leg route, storeStart leg route ≤ serving

namespace GatewayConfig

def store (config : GatewayConfig) (route : String) : Option (Store UInt64) :=
  (config.routes route).map newRotationStore

def startPool (config : GatewayConfig) (leg : Leg) (route : String) : Pool where
  session := LeaseSession.start
    (fun name => if name = route then (config.routes route).map (fun r => (r.keys : Int)) else none)
    0 (config.storeStart leg route)
  active := []

def start (config : GatewayConfig) : GatewayState where
  pools := config.startPool
  clock := config.serving
  log := []

end GatewayConfig

namespace GatewayState

def setPool (state : GatewayState) (leg : Leg) (route : String) (pool : Pool) : GatewayState :=
  { state with
    pools := fun other name => if other = leg ∧ name = route then pool else state.pools other name }

def callPool (s : Store UInt64) (pool : Pool) (now : Int) (c : Store.Call) : Pool :=
  { pool with session := pool.session.perform s now c }

/-- `leaseFor`: a granted reservation goes upstream with the leased key. -/
def arrivePool (s : Store UInt64) (pool : Pool) (now : Int) (route : String) : Pool × Option Nat :=
  let granted := (s.call pool.session.store now (.reserve route)).2.reservation
  ({ session := pool.session.perform s now (.reserve route)
     active := pool.active ++ (granted.map (fun index => ⟨⟨route, index, now⟩, .forwarding⟩)).toList },
    granted)

def settlePool (s : Store UInt64) (pool : Pool) (now : Int) (request : ActiveRequest)
    (sample : UsageSample) : Pool where
  session := pool.session.settle s now request.reservation sample
  active := pool.active.erase request

def respondPool (s : Store UInt64) (leg : Leg) (pool : Pool) (now : Int)
    (reservation : Reservation) (answer : UpstreamAnswer) (readAt : Int) :
    Pool × List GatewayRecord :=
  let active :=
    ⟨reservation, .answered answer⟩ :: pool.active.erase ⟨reservation, .forwarding⟩
  match retirementFor reservation answer readAt with
  | none => ({ pool with active := active }, [])
  | some c =>
    let session := pool.session.perform s now c
    let inForce :=
      (session.store.keyAt reservation.route reservation.index).bind KeyRecord.retiredUntil
    ({ session := session, active := active },
      [.retired leg reservation.route reservation.index inForce])

def step (config : GatewayConfig) (state : GatewayState) (event : GatewayEvent) :
    Option GatewayState :=
  if event.now < state.clock then none
  else
    let state := { state with clock := event.now }
    match event.action with
    | .arrive leg route =>
      (config.store route).map (fun s =>
        let (pool, granted) := arrivePool s (state.pools leg route) event.now route
        { state.setPool leg route pool with
          log := state.log ++
            (granted.map (fun index => .selected leg route index event.now)).toList })
    | .respond leg reservation answer readAt =>
      (config.store reservation.route).bind (fun s =>
        let pool := state.pools leg reservation.route
        if ⟨reservation, .forwarding⟩ ∈ pool.active ∧ readAt ≤ event.now then
          let (pool, records) := respondPool s leg pool event.now reservation answer readAt
          some { state.setPool leg reservation.route pool with log := state.log ++ records }
        else none)
    | .settle leg reservation answer =>
      (config.store reservation.route).bind (fun s =>
        let pool := state.pools leg reservation.route
        if ⟨reservation, .answered answer⟩ ∈ pool.active then
          some (state.setPool leg reservation.route
            (settlePool s pool event.now ⟨reservation, .answered answer⟩
              (chargeableSample answer.status answer.usage)))
        else none)
    | .fail leg reservation =>
      (config.store reservation.route).bind (fun s =>
        let pool := state.pools leg reservation.route
        if ⟨reservation, .forwarding⟩ ∈ pool.active then
          some (state.setPool leg reservation.route
            (settlePool s pool event.now ⟨reservation, .forwarding⟩ ⟨.failed, 0, false⟩))
        else none)
    | .retryAfter leg route =>
      (config.store route).map (fun s =>
        state.setPool leg route
          (callPool s (state.pools leg route) event.now (.retryAfter route)))
    | .snapshot leg route =>
      (config.store route).map (fun s =>
        state.setPool leg route (callPool s (state.pools leg route) event.now (.snapshot route)))

end GatewayState

def gateway (config : GatewayConfig) : Machine GatewayState GatewayEvent where
  step := GatewayState.step config

end ClusterRouter.Channel
