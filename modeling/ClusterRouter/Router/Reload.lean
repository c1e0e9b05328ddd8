import ClusterRouter.FairShare.Scheduler
import ClusterRouter.Foundation.GaugeVec
import ClusterRouter.Router.Handler
import ClusterRouter.Router.LoadConfig

/-! `Reload` (`main.go`) with everything it writes, and the fair scheduler, which it does not.
Building a node of the new configuration already sets the gauges of its name, which may be those
of a running node, before the last thing that can fail. -/

set_option autoImplicit false

namespace ClusterRouter.Router

open Foundation

structure SmartRouteConfig where
  enabled : Bool
  policyFile : Bytes
  deriving DecidableEq, Repr

structure RouterConfig extends Config where
  smartRoute : SmartRouteConfig
  deriving DecidableEq

/-! ## Gauges -/

structure Gauges where
  nodeHealthy : GaugeVec (Bytes × Bytes)
  circuitState : GaugeVec (Bytes × BreakerState)
  piiRuleArmed : Option Bool

def stateLabels (name : Bytes) : List (Bytes × BreakerState) :=
  [(name, .closed), (name, .opened), (name, .halfOpen)]

def stateValue (state : BreakerState) (label : Bytes × BreakerState) : Int :=
  if label.2 = state then 1 else 0

namespace Gauges

def setHealthy (gauges : Gauges) (name tier : Bytes) (value : Int) : Gauges :=
  { gauges with nodeHealthy := gauges.nodeHealthy.set (name, tier) value }

/-- A breaker without a name exports nothing. -/
def recordState (gauges : Gauges) (name : Bytes) (state : BreakerState) : Gauges :=
  if name = [] then gauges
  else { gauges with
    circuitState := gauges.circuitState.setAll (stateValue state) (stateLabels name) }

end Gauges

/-! ## Building -/

/-- The loop of `buildReloadable` with the gauges it sets: a node's are set when its
breaker is made, before its tunnel is looked at. -/
def buildNodesExporting (library : Library) (defaults : Defaults) :
    List NodeConfig → Nat → Heap → Gauges →
      Except BuildError (List UpstreamNode × Heap) × Gauges
  | [], _, heap, gauges => (.ok ([], heap), gauges)
  | cfg :: rest, id, heap, gauges =>
    if nodeEnabled cfg.enabled = false then
      buildNodesExporting library defaults rest id heap gauges
    else if cfg.name = [] ∨ cfg.url = [] then (.error .incomplete, gauges)
    else if library.parsesURL cfg.url = false then (.error (.badURL cfg.name), gauges)
    else
      let node : UpstreamNode :=
        ⟨id, positiveWeight cfg, newDetector library cfg.quotaDetectRegex, one_le_positiveWeight cfg⟩
      let gauges := (gauges.recordState cfg.name .closed).setHealthy cfg.name cfg.tier 1
      match (if cfg.tunnel.enabled then cfg.tunnel.toRuntime else .ok ()) with
      | .error error => (.error (.badTunnel cfg.name error), gauges)
      | .ok () =>
        match buildNodesExporting library defaults rest (id + 1)
          (heap.set id (newNodeState defaults cfg)) gauges with
        | (.error error, gauges) => (.error error, gauges)
        | (.ok (nodes, heap), gauges) => (.ok (node :: nodes, heap), gauges)

theorem buildNodesExporting_fst (library : Library) (defaults : Defaults) (nodes : List NodeConfig)
    (id : Nat) (heap : Heap) (gauges : Gauges) :
    (buildNodesExporting library defaults nodes id heap gauges).1 =
      buildNodes library defaults nodes id heap := by
  induction nodes generalizing id heap gauges with
  | nil => rfl
  | cons cfg rest ih =>
    unfold buildNodesExporting buildNodes
    split
    · exact ih id heap gauges
    · split
      · rfl
      · split
        · rfl
        · dsimp only
          cases (if cfg.tunnel.enabled then cfg.tunnel.toRuntime else Except.ok ()) with
          | error error => rfl
          | ok value =>
            dsimp only
            rw [← ih (id + 1) _
              ((gauges.recordState cfg.name .closed).setHealthy cfg.name cfg.tier 1)]
            rcases buildNodesExporting library defaults rest (id + 1) _ _ with
              ⟨error | ⟨built, heap⟩, after⟩
            · rfl
            · rfl

def NodeConfig.tunnelReady (cfg : NodeConfig) : Bool :=
  !cfg.tunnel.enabled || cfg.tunnel.toRuntime.isOk

def NodeConfig.addressed (library : Library) (cfg : NodeConfig) : Bool :=
  decide (cfg.name ≠ [] ∧ cfg.url ≠ []) && library.parsesURL cfg.url

/-- The nodes that are reached with a name and an address, up to the first that cannot
be built. -/
def reachedNodes (library : Library) : List NodeConfig → List NodeConfig
  | [] => []
  | cfg :: rest =>
    if nodeEnabled cfg.enabled = false then reachedNodes library rest
    else if cfg.addressed library = false then []
    else cfg :: if cfg.tunnelReady then reachedNodes library rest else []

def Gauges.exporting (gauges : Gauges) (nodes : List NodeConfig) : Gauges :=
  { gauges with
    nodeHealthy := gauges.nodeHealthy.setAll (fun _ => 1) (nodes.map (fun cfg => (cfg.name, cfg.tier)))
    circuitState := gauges.circuitState.setAll (stateValue .closed)
      (nodes.flatMap (fun cfg => stateLabels cfg.name)) }

theorem NodeConfig.addressed_eq_false {library : Library} {cfg : NodeConfig} :
    cfg.addressed library = false ↔
      (cfg.name = [] ∨ cfg.url = []) ∨ library.parsesURL cfg.url = false := by
  simp only [NodeConfig.addressed, Bool.and_eq_false_iff, decide_eq_false_iff_not, ne_eq,
    Classical.not_and_iff_not_or_not, Classical.not_not]

theorem NodeConfig.tunnel_cases (cfg : NodeConfig) :
    (cfg.tunnelReady = true ∧
        (if cfg.tunnel.enabled then cfg.tunnel.toRuntime else .ok ()) = .ok ()) ∨
      (cfg.tunnelReady = false ∧ ∃ error,
        (if cfg.tunnel.enabled then cfg.tunnel.toRuntime else .ok ()) = .error error) := by
  unfold NodeConfig.tunnelReady
  cases cfg.tunnel.enabled with
  | false => exact .inl ⟨rfl, rfl⟩
  | true =>
    cases cfg.tunnel.toRuntime with
    | error error => exact .inr ⟨rfl, error, rfl⟩
    | ok value => exact .inl ⟨rfl, rfl⟩

theorem Gauges.exporting_nil (gauges : Gauges) : gauges.exporting [] = gauges := rfl

theorem Gauges.exporting_cons {cfg : NodeConfig} (named : cfg.name ≠ []) (rest : List NodeConfig)
    (gauges : Gauges) :
    gauges.exporting (cfg :: rest) =
      ((gauges.recordState cfg.name .closed).setHealthy cfg.name cfg.tier 1).exporting rest := by
  simp only [exporting, recordState, if_neg named, setHealthy, List.map_cons, List.flatMap_cons,
    GaugeVec.setAll_append]
  rfl

theorem buildNodesExporting_snd (library : Library) (defaults : Defaults) (nodes : List NodeConfig)
    (id : Nat) (heap : Heap) (gauges : Gauges) :
    (buildNodesExporting library defaults nodes id heap gauges).2 =
      gauges.exporting (reachedNodes library nodes) := by
  induction nodes generalizing id heap gauges with
  | nil => rfl
  | cons cfg rest ih =>
    unfold buildNodesExporting reachedNodes
    by_cases disabled : nodeEnabled cfg.enabled = false
    · rw [if_pos disabled, if_pos disabled, ih]
    rw [if_neg disabled, if_neg disabled]
    by_cases lost : cfg.addressed library = false
    · rw [if_pos lost, Gauges.exporting_nil]
      rcases NodeConfig.addressed_eq_false.mp lost with incomplete | unparsed
      · rw [if_pos incomplete]
      · rw [if_pos unparsed]
        split <;> rfl
    · have addressed := mt NodeConfig.addressed_eq_false.mpr lost
      rw [not_or] at addressed
      have named : cfg.name ≠ [] := fun unnamed => addressed.1 (.inl unnamed)
      rw [if_neg lost, if_neg addressed.1, if_neg addressed.2, Gauges.exporting_cons named]
      dsimp only
      rcases cfg.tunnel_cases with ⟨ready, tunnel⟩ | ⟨unready, error, tunnel⟩
      · rw [tunnel, ready, if_pos rfl, ← ih (id + 1) (heap.set id (newNodeState defaults cfg))]
        dsimp only
        rcases buildNodesExporting library defaults rest (id + 1) _ _ with
          ⟨error | ⟨built, heap⟩, after⟩
        · rfl
        · rfl
      · rw [tunnel, unready]
        rfl

theorem buildNodes_isOk_iff (library : Library) (defaults : Defaults) (nodes : List NodeConfig)
    (id : Nat) (heap : Heap) :
    (∃ built, buildNodes library defaults nodes id heap = .ok built) ↔
      ∀ cfg ∈ nodes, nodeEnabled cfg.enabled = true →
        cfg.addressed library = true ∧ cfg.tunnelReady = true := by
  induction nodes generalizing id heap with
  | nil => simp [buildNodes]
  | cons cfg rest ih =>
    rw [List.forall_mem_cons]
    unfold buildNodes
    by_cases disabled : nodeEnabled cfg.enabled = false
    · rw [if_pos disabled, ih]
      simp [disabled]
    rw [if_neg disabled]
    rw [Bool.not_eq_false] at disabled
    by_cases lost : cfg.addressed library = false
    · have unbuilt : ¬ (nodeEnabled cfg.enabled = true →
          cfg.addressed library = true ∧ cfg.tunnelReady = true) := by simp [disabled, lost]
      rcases NodeConfig.addressed_eq_false.mp lost with incomplete | unparsed
      · simp [if_pos incomplete, unbuilt]
      · rw [if_pos unparsed]
        split <;> simp [unbuilt]
    · have addressed := mt NodeConfig.addressed_eq_false.mpr lost
      rw [not_or] at addressed
      rw [Bool.not_eq_false] at lost
      rw [if_neg addressed.1, if_neg addressed.2]
      dsimp only
      rcases cfg.tunnel_cases with ⟨ready, tunnel⟩ | ⟨unready, error, tunnel⟩
      · rw [tunnel, ← ih (id + 1) (heap.set id (newNodeState defaults cfg))]
        dsimp only
        cases buildNodes library defaults rest (id + 1) _ with
        | error error => simp
        | ok built => simp [lost, ready]
      · rw [tunnel]
        simp [disabled, unready]

/-! ## The router -/

structure Client where
  id : Nat
  timeout : Int
  deriving DecidableEq, Repr

structure Semaphore where
  id : Nat
  capacity : Int
  deriving DecidableEq, Repr

section

variable {Policy : Type}

structure Reloadable (Policy : Type) where
  cfg : RouterConfig
  nodes : List UpstreamNode
  client : Client
  semaphore : Semaphore
  smart : Option Policy
  piiRuleArmed : Bool

/-- A router with the state of its nodes and the gauges of the process. Nodes, clients and
semaphores are numbered as they are made; the fair scheduler is known by its limits. -/
structure RouterState (Policy : Type) extends Reloadable Policy where
  fairScheduler : Option FairShare.Config
  heap : Heap
  gauges : Gauges
  nextId : Nat

/-- What `newRouter` makes; nothing sets it later. -/
def newFairScheduler (cfg : FairShare) : Option FairShare.Config :=
  if cfg.enabled then some ⟨cfg.maxRequestsPerUser, cfg.window, cfg.burst⟩ else none

inductive ReloadError where
  | unreadable
  | load (error : LoadError)
  | build (error : BuildError)
  | policy
  deriving DecidableEq, Repr

/-- A policy file that cannot be loaded is an error; without one there is no smart
routing. -/
def loadSmartRoute (loadPolicy : Bytes → Option Policy) (smartRoute : SmartRouteConfig) :
    Except ReloadError (Option Policy) :=
  if smartRoute.enabled = false ∨ smartRoute.policyFile = [] then .ok none
  else
    match loadPolicy smartRoute.policyFile with
    | none => .error .policy
    | some policy => .ok (some policy)

def loadRouterConfig (outside : Outside) (raw : RouterConfig) : Except LoadError RouterConfig :=
  (loadConfig outside raw.toConfig).map (fun cfg => ⟨cfg, raw.smartRoute⟩)

def Reloadable.make (cfg : RouterConfig) (id : Nat) (nodes : List UpstreamNode)
    (smart : Option Policy) : Reloadable Policy where
  cfg
  nodes
  client := ⟨id, cfg.defaults.requestTimeout⟩
  semaphore := ⟨id, cfg.defaults.maxConcurrency⟩
  smart
  piiRuleArmed := ruleArmed cfg.piiLocalRule (anyNodePIILocal nodes)

/-- `Reload` of a file; `none` is a file that cannot be read or decoded. -/
def RouterState.reload (library : Library) (outside : Outside) (loadPolicy : Bytes → Option Policy)
    (file : Option RouterConfig) (router : RouterState Policy) :
    Except ReloadError Unit × RouterState Policy :=
  match file with
  | none => (.error .unreadable, router)
  | some raw =>
    match loadRouterConfig outside raw with
    | .error error => (.error (.load error), router)
    | .ok cfg =>
      let (built, gauges) :=
        buildNodesExporting library cfg.defaults cfg.nodes router.nextId router.heap router.gauges
      match built with
      | .error error => (.error (.build error), { router with gauges })
      | .ok (nodes, heap) =>
        match loadSmartRoute loadPolicy cfg.smartRoute with
        | .error error => (.error error, { router with gauges })
        | .ok smart =>
          let fields := Reloadable.make cfg router.nextId nodes smart
          (.ok (), { router with
            toReloadable := fields
            heap
            gauges := { gauges with piiRuleArmed := some fields.piiRuleArmed }
            nextId := router.nextId + nodes.length + 1 })

/-! ## What a reload promises -/

/-- A reload that fails leaves the router, its nodes and the gauges as they were; after one
that succeeds every field is the one made from the file. -/
def RouterState.ReloadHolds (library : Library) (outside : Outside)
    (loadPolicy : Bytes → Option Policy) (file : Option RouterConfig) (router : RouterState Policy) :
    Prop :=
  match router.reload library outside loadPolicy file with
  | (.error _, after) => after = router
  | (.ok _, after) => ∃ raw cfg nodes smart, file = some raw ∧ loadRouterConfig outside raw = .ok cfg ∧
      buildReloadable library cfg.toConfig router.nextId router.heap = .ok (nodes, after.heap) ∧
      loadSmartRoute loadPolicy cfg.smartRoute = .ok smart ∧
      after.toReloadable = .make cfg router.nextId nodes smart ∧
      after.fairScheduler = newFairScheduler cfg.fairShare

def Gauges.ShowsNew (gauges : Gauges) (cfg : NodeConfig) : Prop :=
  gauges.nodeHealthy (cfg.name, cfg.tier) = some 1 ∧
    ∀ label ∈ stateLabels cfg.name, gauges.circuitState label = some (stateValue .closed label)

instance (gauges : Gauges) (cfg : NodeConfig) : Decidable (gauges.ShowsNew cfg) :=
  inferInstanceAs (Decidable (_ ∧ _))

def RouterConfig.Sound (library : Library) (loadPolicy : Bytes → Option Policy)
    (cfg : RouterConfig) : Prop :=
  (∀ node ∈ cfg.nodes, nodeEnabled node.enabled = true →
      node.addressed library = true ∧ node.tunnelReady = true) ∧
    ∃ smart, loadSmartRoute loadPolicy cfg.smartRoute = .ok smart

/-- A file that loads is sound and asks for the fair scheduler there is; or it is not sound,
and all its nodes that are reached look new already. -/
def RouterState.QuietFor (library : Library) (outside : Outside)
    (loadPolicy : Bytes → Option Policy) (file : Option RouterConfig) (router : RouterState Policy) :
    Prop :=
  match file.map (loadRouterConfig outside) with
  | some (.ok cfg) =>
    (cfg.Sound library loadPolicy ∧ router.fairScheduler = newFairScheduler cfg.fairShare) ∨
      (¬ cfg.Sound library loadPolicy ∧
        ∀ node ∈ reachedNodes library cfg.nodes, router.gauges.ShowsNew node)
  | _ => True

theorem Gauges.exporting_eq_self_iff {gauges : Gauges} {nodes : List NodeConfig} :
    gauges.exporting nodes = gauges ↔ ∀ node ∈ nodes, gauges.ShowsNew node := by
  obtain ⟨nodeHealthy, circuitState, piiRuleArmed⟩ := gauges
  simp only [exporting, Gauges.mk.injEq, and_true, GaugeVec.setAll_eq_self_iff, ShowsNew,
    List.mem_map, List.mem_flatMap]
  constructor
  · rintro ⟨healthy, states⟩ node member
    exact ⟨healthy _ ⟨node, member, rfl⟩, fun label inside => states label ⟨node, member, inside⟩⟩
  · intro shown
    constructor
    · rintro _ ⟨node, member, rfl⟩
      exact (shown node member).1
    · rintro label ⟨node, member, inside⟩
      exact (shown node member).2 label inside

theorem RouterState.with_exporting_eq_self_iff {router : RouterState Policy}
    {nodes : List NodeConfig} :
    { router with gauges := router.gauges.exporting nodes } = router ↔
      ∀ node ∈ nodes, router.gauges.ShowsNew node := by
  rw [← Gauges.exporting_eq_self_iff]
  obtain ⟨fields, fairScheduler, heap, gauges, nextId⟩ := router
  simp

/-- What a reload comes to: the file does not load, it is not sound, or it takes effect. -/
inductive Reloaded (library : Library) (outside : Outside) (loadPolicy : Bytes → Option Policy)
    (router : RouterState Policy) :
    Option RouterConfig → Except ReloadError Unit × RouterState Policy → Prop where
  | unreadable : Reloaded library outside loadPolicy router none (.error .unreadable, router)
  | unloaded {raw error} : loadRouterConfig outside raw = .error error →
      Reloaded library outside loadPolicy router (some raw) (.error (.load error), router)
  | unsound {raw cfg error} : loadRouterConfig outside raw = .ok cfg →
      ¬ cfg.Sound library loadPolicy →
      Reloaded library outside loadPolicy router (some raw)
        (.error error, { router with
          gauges := router.gauges.exporting (reachedNodes library cfg.nodes) })
  | done {raw cfg nodes smart after} : loadRouterConfig outside raw = .ok cfg →
      cfg.Sound library loadPolicy →
      buildReloadable library cfg.toConfig router.nextId router.heap = .ok (nodes, after.heap) →
      loadSmartRoute loadPolicy cfg.smartRoute = .ok smart →
      after.toReloadable = .make cfg router.nextId nodes smart →
      after.fairScheduler = router.fairScheduler →
      Reloaded library outside loadPolicy router (some raw) (.ok (), after)

theorem RouterState.reloaded_reload (library : Library) (outside : Outside)
    (loadPolicy : Bytes → Option Policy) (file : Option RouterConfig) (router : RouterState Policy) :
    Reloaded library outside loadPolicy router file
      (router.reload library outside loadPolicy file) := by
  cases file with
  | none => exact .unreadable
  | some raw =>
    cases loaded : loadRouterConfig outside raw with
    | error error =>
      simp only [reload, loaded]
      exact .unloaded loaded
    | ok cfg =>
      have built := buildNodesExporting_fst library cfg.defaults cfg.nodes router.nextId
        router.heap router.gauges
      have exported := buildNodesExporting_snd library cfg.defaults cfg.nodes router.nextId
        router.heap router.gauges
      have buildable := buildNodes_isOk_iff library cfg.defaults cfg.nodes router.nextId router.heap
      simp only [reload, loaded]
      generalize buildNodesExporting library cfg.defaults cfg.nodes router.nextId router.heap
        router.gauges = result at built exported
      obtain ⟨outcome, gauges⟩ := result
      dsimp only at built exported
      subst exported
      cases outcome with
      | error error =>
        refine .unsound loaded ?_
        rintro ⟨all, _⟩
        obtain ⟨_, impossible⟩ := buildable.mpr all
        cases built.trans impossible
      | ok built' =>
        have all := buildable.mp ⟨built', built.symm⟩
        dsimp only
        cases policy : loadSmartRoute loadPolicy cfg.smartRoute with
        | error error =>
          refine .unsound loaded ?_
          rintro ⟨_, smart, loads⟩
          cases policy.symm.trans loads
        | ok smart => exact .done loaded ⟨all, smart, policy⟩ built.symm policy rfl rfl

end

def reloadOutside : Outside := ⟨fun _ => none, fun _ => []⟩

def withoutSmartRoute (cfg : Config) : RouterConfig := ⟨cfg, ⟨false, []⟩⟩

def downRouter : RouterState Unit where
  toReloadable := .make (withoutSmartRoute (clusterOf [cloudNode])) 0
    [⟨0, positiveWeight cloudNode, none, one_le_positiveWeight cloudNode⟩] none
  fairScheduler := none
  heap := fun _ => ⟨false, { Breaker.new 5 30 with state := .opened }, .new [] 0⟩
  gauges :=
    { nodeHealthy := GaugeVec.empty.set (lit "cloud", []) 0
      circuitState := GaugeVec.empty.setAll (stateValue .opened) (stateLabels (lit "cloud"))
      piiRuleArmed := some false }
  nextId := 1

def brokenFile : RouterConfig :=
  withoutSmartRoute (clusterOf [cloudNode, { localNode with url := [] }])

end ClusterRouter.Router
