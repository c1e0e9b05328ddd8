import ClusterRouter.Router.Breaker
import ClusterRouter.Router.KeyPool

/-! The nodes of a configuration as `buildReloadable` builds them (`main.go`). Their health,
breakers and keys are shared by all requests and kept in a heap. -/

set_option autoImplicit false

namespace ClusterRouter.Router

open Foundation

structure CircuitConfig where
  threshold : Int
  cooldown : Int
  deriving DecidableEq, Repr

structure TunnelConfig where
  enabled : Bool
  host : Bytes
  user : Bytes
  identityFile : Bytes
  localPort : Int
  deriving DecidableEq, Repr

structure NodeConfig where
  name : Bytes
  url : Bytes
  tier : Bytes
  enabled : Bytes
  weight : Int
  models : List Bytes
  apiKey : Bytes
  apiKeys : List Bytes
  authHeader : Bytes
  workloads : List Bytes
  piiLocal : Bool
  quotaDetectRegex : Bytes
  priority : Int
  circuit : CircuitConfig
  healthCheckDisabled : Bool
  tunnel : TunnelConfig
  deriving DecidableEq, Repr

structure Defaults where
  maxQueueDepth : Int
  maxConcurrency : Int
  requestTimeout : Int
  keyCooldown : Int
  maxBodySize : Int
  bodyReadTimeout : Int
  circuit : CircuitConfig
  deriving DecidableEq, Repr

structure LiveProbe where
  interval : Int
  burst : Int
  deriving DecidableEq, Repr

structure HealthCheck where
  interval : Int
  timeout : Int
  path : Bytes
  unhealthyThreshold : Int
  healthyThreshold : Int
  liveProbe : LiveProbe
  deriving DecidableEq, Repr

structure FairShare where
  enabled : Bool
  maxRequestsPerUser : Int
  window : Int
  burst : Int
  deriving DecidableEq, Repr

structure Config where
  authToken : Bytes
  customerTokens : List Bytes
  piiLocalRule : Bytes
  nodes : List NodeConfig
  defaults : Defaults
  healthCheck : HealthCheck
  fairShare : FairShare
  deriving DecidableEq, Repr

/-- Library functions that the router calls: URL parsing, regular expressions and the
detector of personal data. -/
structure Library where
  parsesURL : Bytes → Bool
  compiles : Bytes → Bool
  matchesPattern : Bytes → Bytes → Bool
  detectPersonal : Bytes → Bool

def NodeConfig.resolvedCircuit (node : NodeConfig) (defaults : Defaults) : CircuitConfig :=
  let threshold :=
    if 0 < node.circuit.threshold then node.circuit.threshold else defaults.circuit.threshold
  let cooldown :=
    if 0 < node.circuit.cooldown then node.circuit.cooldown else defaults.circuit.cooldown
  ⟨if threshold ≤ 0 then 5 else threshold, if cooldown ≤ 0 then 30 * Duration.second else cooldown⟩

inductive TunnelError where
  | disabled
  | missingField (field : Bytes)
  deriving DecidableEq, Repr

/-- `ToRuntime`; only the dial looks at the settings it returns. -/
def TunnelConfig.toRuntime (tunnel : TunnelConfig) : Except TunnelError Unit :=
  if tunnel.enabled = false then .error .disabled
  else if tunnel.host = [] ∨ tunnel.user = [] ∨ tunnel.identityFile = [] then
    .error (.missingField (lit "host/user/identity_file"))
  else if tunnel.localPort ≤ 0 ∨ 65535 < tunnel.localPort then
    .error (.missingField (lit "local_port"))
  else .ok ()

def nodeEnabled (value : Bytes) : Bool :=
  let value := Bytes.trimSpace (value.map Bytes.toLower)
  decide (value = [] ∨ value = lit "1" ∨ value = lit "true" ∨ value = lit "yes" ∨ value = lit "on")

/-- A node of a snapshot. Its identity is its place in the heap, and its weight has been
made positive. -/
structure UpstreamNode where
  id : Nat
  cfg : NodeConfig
  quotaDet : Option Bytes
  weighted : 1 ≤ cfg.weight
  deriving DecidableEq

structure NodeState where
  healthy : Bool
  breaker : Breaker
  keys : Pool
  deriving DecidableEq, Repr

def Heap : Type := Nat → NodeState

namespace Heap

def set (heap : Heap) (id : Nat) (state : NodeState) : Heap :=
  fun other => if other = id then state else heap other

theorem set_same (heap : Heap) (id : Nat) (state : NodeState) : heap.set id state id = state :=
  if_pos rfl

theorem set_other (heap : Heap) {id other : Nat} (state : NodeState) (different : other ≠ id) :
    heap.set id state other = heap other :=
  if_neg different

end Heap

inductive BuildError where
  | incomplete
  | badURL (name : Bytes)
  | badTunnel (name : Bytes) (error : TunnelError)
  deriving DecidableEq, Repr

/-- `quota.New`: no pattern, or one that does not compile, is no detector. -/
def newDetector (library : Library) (pattern : Bytes) : Option Bytes :=
  if pattern = [] then none else if library.compiles pattern then some pattern else none

def newNodeState (defaults : Defaults) (cfg : NodeConfig) : NodeState where
  healthy := true
  breaker :=
    let circuit := cfg.resolvedCircuit defaults
    .new circuit.threshold circuit.cooldown
  keys := .new cfg.apiKeys defaults.keyCooldown

def positiveWeight (cfg : NodeConfig) : NodeConfig :=
  { cfg with weight := if cfg.weight ≤ 0 then 1 else cfg.weight }

theorem one_le_positiveWeight (cfg : NodeConfig) : 1 ≤ (positiveWeight cfg).weight := by
  unfold positiveWeight
  dsimp only
  split <;> omega

/-- The loop of `buildReloadable`; nodes are allocated from `id` on. -/
def buildNodes (library : Library) (defaults : Defaults) :
    List NodeConfig → Nat → Heap → Except BuildError (List UpstreamNode × Heap)
  | [], _, heap => .ok ([], heap)
  | cfg :: rest, id, heap =>
    if nodeEnabled cfg.enabled = false then buildNodes library defaults rest id heap
    else if cfg.name = [] ∨ cfg.url = [] then .error .incomplete
    else if library.parsesURL cfg.url = false then .error (.badURL cfg.name)
    else
      let node : UpstreamNode :=
        ⟨id, positiveWeight cfg, newDetector library cfg.quotaDetectRegex, one_le_positiveWeight cfg⟩
      match (if cfg.tunnel.enabled then cfg.tunnel.toRuntime else .ok ()) with
      | .error error => .error (.badTunnel cfg.name error)
      | .ok () =>
        match buildNodes library defaults rest (id + 1)
          (heap.set id (newNodeState defaults cfg)) with
        | .error error => .error error
        | .ok (nodes, heap) => .ok (node :: nodes, heap)

def buildReloadable (library : Library) (cfg : Config) (id : Nat) (heap : Heap) :
    Except BuildError (List UpstreamNode × Heap) :=
  buildNodes library cfg.defaults cfg.nodes id heap

/-! ## The rule on personal data -/

def anyNodePIILocal (nodes : List UpstreamNode) : Bool := nodes.any (fun node => node.cfg.piiLocal)

def ruleArmed (mode : Bytes) (anyPIILocal : Bool) : Bool :=
  if mode = lit "enforce" then true else if mode = lit "off" then false else anyPIILocal

def personalBlocks (personal nodePIILocal : Bool) : Bool := personal && !nodePIILocal

end ClusterRouter.Router
