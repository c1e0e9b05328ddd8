import ClusterRouter.Foundation.Machine
import ClusterRouter.Router.Failover

/-! One run of `handleProxy` among all else that happens in the router: `Reload` swaps the
configuration and stores the flag of the rule on personal data; other requests and the health
loop change node state at any time (`main.go`). -/

set_option autoImplicit false

namespace ClusterRouter.Router

open Foundation

structure Request where
  contentLength : Int
  workload : WorkloadClass
  tenant : Bytes
  tier : Bytes
  deriving DecidableEq, Repr

inductive Exit where
  | answered (status : Nat)
  | relayed (held : Held)
  | crashed
  deriving DecidableEq

inductive Phase where
  | arrived
  | reading (snap : Snap)
  | read (context : Context)
  | classified (context : Context) (personal : Bool)
  | queued (context : Context) (ask : Ask) (node : UpstreamNode)
  | looping (context : Context) (ask : Ask) (loop : Loop)
  | relaying (held : Held)
  | returned (exit : Exit)
  deriving DecidableEq

/-- A reload that holds the write lock, before and after it has stored the flag. -/
inductive ReloadStage where
  | swapped
  | armed
  deriving DecidableEq, Repr

/-- `armedBy` is the configuration whose rule the flag was last set from. -/
structure World where
  cfg : Config
  nodes : List UpstreamNode
  piiRuleArmed : Bool
  armedBy : Snap
  reload : Option ReloadStage
  nextId : Nat
  shared : Shared
  request : Request
  phase : Phase
  trace : Trace

def Snap.armed (snap : Snap) : Bool := ruleArmed snap.cfg.piiLocalRule (anyNodePIILocal snap.nodes)

def newRouter (library : Library) (cfg : Config) (heap : Heap) (request : Request) :
    Except BuildError World :=
  match buildReloadable library cfg 0 heap with
  | .error error => .error error
  | .ok (nodes, heap) =>
    .ok {
      cfg, nodes
      piiRuleArmed := ruleArmed cfg.piiLocalRule (anyNodePIILocal nodes)
      armedBy := ⟨cfg, nodes⟩
      reload := none
      nextId := nodes.length
      shared := ⟨heap, 0⟩
      request
      phase := .arrived
      trace := .empty }

inductive BodyRead where
  | complete (body : Bytes)
  | stalled
  | failed
  deriving DecidableEq, Repr

/-- What smart routing makes of a request: the agent may be disabled, and a decision may
name a tier. -/
inductive SmartRoute where
  | off
  | agentDisabled
  | undecided
  | decided (tier : Bytes)
  deriving DecidableEq, Repr

def SmartRoute.tierFor (request : Request) : SmartRoute → Bytes
  | .decided tier => if request.tier = [] then tier else request.tier
  | _ => request.tier

inductive Admission where
  | admitted
  | cancelled
  | fairShareRejected
  deriving DecidableEq, Repr

inductive Action where
  | reloadSwap (cfg : Config)
  | reloadArm
  | reloadUnlock
  | others (shared : Shared)
  | snapshot (queueDepth : Int)
  | readBody (result : BodyRead)
  | classify
  | route (model : Bytes) (smart : SmartRoute) (clock : Nat → Int)
  | acquire (admission : Admission)
  | send (buildable : Bool) (now : Int)
  | exchange (outcome : Exchange) (now : Int)
  | fail (now : Int)
  | judge (now : Int)
  | checkKeys (now : Int)
  | reselect (clock : Nat → Int)
  | score (now : Int)
  | choose (clock : Nat → Int)
  | leave
  | finish

namespace World

/-! ## The others -/

/-- `Reload` up to the stores of `cfg` and `nodes`; a configuration that does not build
changes nothing. -/
def reloadSwap (library : Library) (cfg : Config) (world : World) : Option World :=
  match world.reload, buildReloadable library cfg world.nextId world.shared.heap with
  | none, .ok (nodes, heap) =>
    some { world with
      cfg, nodes
      reload := some .swapped
      nextId := world.nextId + nodes.length
      shared := { world.shared with heap } }
  | _, _ => none

def reloadArm (world : World) : Option World :=
  match world.reload with
  | some .swapped =>
    some { world with
      piiRuleArmed := ruleArmed world.cfg.piiLocalRule (anyNodePIILocal world.nodes)
      armedBy := ⟨world.cfg, world.nodes⟩
      reload := some .armed }
  | _ => none

def reloadUnlock (world : World) : Option World :=
  match world.reload with
  | some .armed => some { world with reload := none }
  | _ => none

/-- Other requests and health checks: the round-robin counter only grows. -/
def others (shared : Shared) (world : World) : Option World :=
  if world.shared.rr ≤ shared.rr then some { world with shared } else none

/-! ## The request -/

/-- `snap` waits for a reload; admission is checked against the snapshot. -/
def snapshot (queueDepth : Int) (world : World) : Option World :=
  match world.phase, world.reload with
  | .arrived, none =>
    let defaults := world.cfg.defaults
    if 0 < defaults.maxBodySize ∧ defaults.maxBodySize < world.request.contentLength then
      some { world with phase := .returned (.answered 413) }
    else if defaults.maxQueueDepth < queueDepth then
      some { world with phase := .returned (.answered 429) }
    else some { world with phase := .reading ⟨world.cfg, world.nodes⟩ }
  | _, _ => none

def readBody (result : BodyRead) (world : World) : Option World :=
  match world.phase with
  | .reading snap =>
    match result with
    | .complete body => some { world with phase := .read ⟨snap, body⟩ }
    | .stalled => some { world with phase := .returned (.answered 408) }
    | .failed => some { world with phase := .returned (.answered 400) }
  | _ => none

/-- The flag is read here, and it is the router's, not the snapshot's. -/
def classify (library : Library) (world : World) : Option World :=
  match world.phase with
  | .read context =>
    let personal := library.detectPersonal context.body && world.piiRuleArmed
    if world.request.workload = .customer ∧ Bytes.trimSpace world.request.tenant = [] then
      some { world with phase := .returned (.answered 400) }
    else some { world with phase := .classified context personal }
  | _ => none

def route (model : Bytes) (smart : SmartRoute) (clock : Nat → Int) (world : World) : Option World :=
  match world.phase with
  | .classified context personal =>
    if smart = .agentDisabled then some { world with phase := .returned (.answered 403) }
    else
      let ask : Ask := ⟨model, smart.tierFor world.request, world.request.workload, personal⟩
      let (record, shared) := world.shared.select context.snap.nodes ask [] clock
      let trace := { world.trace with selections := world.trace.selections ++ [record] }
      match record.selection with
      | .chosen node => some { world with shared, trace, phase := .queued context ask node }
      | .noNode => some { world with shared, trace, phase := .returned (.answered 503) }
      | .crashed => some { world with shared, trace, phase := .returned .crashed }
  | _ => none

def acquire (admission : Admission) (world : World) : Option World :=
  match world.phase with
  | .queued context ask node =>
    match admission with
    | .admitted => some { world with phase := .looping context ask (.start node) }
    | .cancelled => some { world with phase := .returned (.answered 408) }
    | .fairShareRejected => some { world with phase := .returned (.answered 429) }
  | _ => none

def inLoop (step : Context → Ask → Progress → Option Progress) (world : World) : Option World :=
  match world.phase with
  | .looping context ask loop =>
    (step context ask ⟨loop, world.trace, world.shared⟩).map (fun progress =>
      { world with
        phase := .looping context ask progress.loop
        trace := progress.trace
        shared := progress.shared })
  | _ => none

def leave (world : World) : Option World :=
  match world.phase with
  | .looping _ _ loop =>
    if loop.stage = .crashed then some { world with phase := .returned .crashed }
    else if Progress.ended loop then
      match loop.okResp, loop.heldResp with
      | some ok, held =>
        some { world with phase := .relaying ok, trace := world.trace.release held }
      | none, some held => some { world with phase := .relaying held }
      | none, none => some { world with phase := .returned (.answered 502) }
    else none
  | _ => none

def finish (world : World) : Option World :=
  match world.phase with
  | .relaying held =>
    some { world with
      phase := .returned (.relayed held), trace := world.trace.release (some held) }
  | _ => none

def step (library : Library) (world : World) : Action → Option World
  | .reloadSwap cfg => world.reloadSwap library cfg
  | .reloadArm => world.reloadArm
  | .reloadUnlock => world.reloadUnlock
  | .others shared => world.others shared
  | .snapshot queueDepth => world.snapshot queueDepth
  | .readBody result => world.readBody result
  | .classify => world.classify library
  | .route model smart clock => world.route model smart clock
  | .acquire admission => world.acquire admission
  | .send buildable now => world.inLoop (fun context ask => Progress.send context ask buildable now)
  | .exchange outcome now => world.inLoop (fun context ask => Progress.exchange context ask outcome now)
  | .fail now => world.inLoop (fun _ _ => Progress.fail now)
  | .judge now => world.inLoop (fun _ _ => Progress.judge library now)
  | .checkKeys now => world.inLoop (fun _ _ => Progress.checkKeys now)
  | .reselect clock => world.inLoop (fun context ask => Progress.reselect context ask clock)
  | .score now => world.inLoop (fun _ _ => Progress.score now)
  | .choose clock => world.inLoop (fun context ask => Progress.choose context ask clock)
  | .leave => world.leave
  | .finish => world.finish

end World

def machine (library : Library) : Machine World Action where
  step world action := world.step library action

def served (library : Library) (cfg : Config) (heap : Heap) (request : Request)
    (trace : List Action) : Option World :=
  match newRouter library cfg heap request with
  | .error _ => none
  | .ok world => (machine library).run world trace

/-! ## A cluster of two nodes -/

def cloudNode : NodeConfig where
  name := lit "cloud"
  url := lit "https://cloud"
  tier := []
  enabled := []
  weight := 1
  models := [lit "m"]
  apiKey := []
  apiKeys := [lit "first", lit "second"]
  authHeader := []
  workloads := []
  piiLocal := false
  quotaDetectRegex := []
  priority := 1
  circuit := ⟨0, 0⟩
  healthCheckDisabled := false
  tunnel := ⟨false, [], [], [], 0⟩

def localNode : NodeConfig :=
  { cloudNode with name := lit "local", url := lit "http://local", piiLocal := true, priority := 2 }

def clusterOf (nodes : List NodeConfig) : Config where
  authToken := []
  customerTokens := []
  piiLocalRule := []
  nodes := nodes
  defaults := ⟨8, 2, 120 * Duration.second, 60 * Duration.second, 0, 15 * Duration.second, ⟨0, 0⟩⟩
  healthCheck := ⟨15 * Duration.second, 5 * Duration.second, lit "/health", 3, 1, ⟨0, 0⟩⟩
  fairShare := ⟨false, 0, 0, 0⟩

/-- Every URL parses, no quota pattern matches, and an at sign is personal. -/
def plainLibrary : Library where
  parsesURL _ := true
  compiles _ := true
  matchesPattern _ _ := false
  detectPersonal body := decide (64 ∈ body)

def freshHeap : Heap := fun _ => ⟨true, .new 0 0, .new [] 0⟩

def internalRequest : Request := ⟨0, .internal, [], []⟩

end ClusterRouter.Router
