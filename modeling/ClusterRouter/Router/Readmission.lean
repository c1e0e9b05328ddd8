import ClusterRouter.Router.Handler
import ClusterRouter.Router.SelectProperties

/-! `runHealthPass` counts passes and failures of probes in a row and writes the node's flag; a
transport error of a request writes the flag but leaves the counts alone (`main.go`), so passes
from before help to take a node back. -/

set_option autoImplicit false

namespace ClusterRouter.Router

open Foundation

/-- Where the goroutine of a pass stands with a node: its probe has returned, and then the
counters have been written. -/
inductive ProbeStage where
  | idle
  | probing
  | probed (pass : Bool)
  | counted (pass : Bool)
  deriving DecidableEq, Repr

/-- What an observer notes of a node: a probe has returned, or its flag has changed. -/
inductive HealthEvent where
  | probed (pass : Bool)
  | down
  | up
  deriving DecidableEq, Repr

structure ProbedNode where
  cfg : NodeConfig
  healthy : Bool
  consecutivePass : Int
  consecutiveFail : Int
  probe : ProbeStage
  events : List HealthEvent
  deriving DecidableEq

inductive NodeAction where
  | complete (pass : Bool)
  | count
  | store
  | eject
  deriving DecidableEq, Repr

inductive HealthAction where
  | startPass
  | node (index : Nat) (action : NodeAction)
  deriving DecidableEq, Repr

namespace ProbedNode

def new (cfg : NodeConfig) : ProbedNode := ⟨cfg, true, 0, 0, .idle, []⟩

def setHealthy (value : Bool) (node : ProbedNode) : ProbedNode :=
  { node with
    healthy := value
    events := node.events ++
      if node.healthy = value then [] else if value then [.up] else [.down] }

def eject (node : ProbedNode) : ProbedNode :=
  if node.cfg.healthCheckDisabled then node else node.setHealthy false

def start (node : ProbedNode) : ProbedNode :=
  if node.cfg.healthCheckDisabled then node else { node with probe := .probing }

def complete (pass : Bool) (node : ProbedNode) : ProbedNode :=
  { node with probe := .probed pass, events := node.events ++ [.probed pass] }

def count (pass : Bool) (node : ProbedNode) : ProbedNode :=
  if pass then
    { node with
      consecutiveFail := 0
      consecutivePass := node.consecutivePass + 1
      probe := .counted true }
  else
    { node with
      consecutivePass := 0
      consecutiveFail := node.consecutiveFail + 1
      probe := .counted false }

def store (check : HealthCheck) (pass : Bool) (node : ProbedNode) : ProbedNode :=
  let node := { node with probe := .idle }
  if pass then
    if check.healthyThreshold ≤ node.consecutivePass then node.setHealthy true else node
  else if check.unhealthyThreshold ≤ node.consecutiveFail then node.setHealthy false
  else node

def step (check : HealthCheck) (node : ProbedNode) : NodeAction → Option ProbedNode
  | .complete pass => if node.probe = .probing then some (node.complete pass) else none
  | .count =>
    match node.probe with
    | .probed pass => some (node.count pass)
    | _ => none
  | .store =>
    match node.probe with
    | .counted pass => some (node.store check pass)
    | _ => none
  | .eject => some node.eject

end ProbedNode

/-- The health loop and any number of requests: a pass starts when the one before it has
done with every node. -/
def healthMachine (check : HealthCheck) : Machine (List ProbedNode) HealthAction where
  step nodes
    | .startPass =>
      if nodes.all (fun node => decide (node.probe = .idle)) then some (nodes.map ProbedNode.start)
      else none
    | .node index action => do
        let node ← nodes[index]?
        let next ← node.step check action
        return nodes.set index next

/-! ## Evidence -/

/-- The probes that have passed in a row since the node last became unhealthy. -/
def evidence : List HealthEvent → Nat :=
  List.foldl (fun passes event =>
    match event with
    | .probed true => passes + 1
    | .probed false => 0
    | .down => 0
    | .up => passes) 0

@[simp] theorem evidence_nil : evidence [] = 0 := rfl

@[simp] theorem evidence_passed (events : List HealthEvent) :
    evidence (events ++ [.probed true]) = evidence events + 1 := by
  simp [evidence]

@[simp] theorem evidence_failed (events : List HealthEvent) :
    evidence (events ++ [.probed false]) = 0 := by
  simp [evidence]

@[simp] theorem evidence_down (events : List HealthEvent) : evidence (events ++ [.down]) = 0 := by
  simp [evidence]

@[simp] theorem evidence_up (events : List HealthEvent) :
    evidence (events ++ [.up]) = evidence events := by
  simp [evidence]

/-- The node is taken back only on as many fresh passes in a row as the threshold asks. -/
def ReadmittedOnEvidence (threshold : Int) (events : List HealthEvent) : Prop :=
  ∀ before after, events = before ++ .up :: after → threshold ≤ evidence before

theorem ReadmittedOnEvidence.append {threshold : Int} {events : List HealthEvent}
    (readmitted : ReadmittedOnEvidence threshold events) {event : HealthEvent}
    (shown : event = .up → threshold ≤ evidence events) :
    ReadmittedOnEvidence threshold (events ++ [event]) := by
  intro before after split
  rcases List.eq_nil_or_concat after with rfl | ⟨rest, last, rfl⟩
  · obtain ⟨rfl, same⟩ := List.append_inj' split rfl
    cases same
    exact shown rfl
  · refine readmitted before rest ?_
    have split' : events ++ [event] = (before ++ .up :: rest) ++ [last] := by
      rw [split]
      simp
    exact (List.append_inj' split' rfl).1

/-- A request that takes a healthy node out finds no passes of it that count: the probe
that has returned failed, or none were counted, or one pass is enough anyway. -/
def ejectsWithoutCredit (check : HealthCheck) (node : ProbedNode) : Bool :=
  !node.healthy || node.cfg.healthCheckDisabled ||
    match node.probe with
    | .probed pass => !pass
    | .counted pass => !pass
    | _ => decide (node.consecutivePass = 0 ∨ check.healthyThreshold ≤ 1)

def withoutCredit (check : HealthCheck) (nodes : List ProbedNode) : HealthAction → Bool
  | .node index .eject => (nodes[index]?).all (ejectsWithoutCredit check)
  | _ => true

/-! ## What a step keeps -/

/-- While a node is out, the passes that its counter will be compared with are fresh. -/
def Credited (threshold passes : Int) (fresh : Nat) : ProbeStage → Prop
  | .idle | .probing => passes ≤ fresh ∨ threshold ≤ 1
  | .probed true => passes + 1 ≤ fresh ∨ (threshold ≤ 1 ∧ 1 ≤ fresh)
  | .counted true => passes ≤ fresh ∨ (threshold ≤ 1 ∧ 1 ≤ fresh)
  | .probed false | .counted false => True

structure Evidenced (check : HealthCheck) (node : ProbedNode) : Prop where
  readmitted : ReadmittedOnEvidence check.healthyThreshold node.events
  failed : node.probe = .counted false → node.consecutivePass = 0
  credited : node.healthy = false →
    Credited check.healthyThreshold node.consecutivePass (evidence node.events) node.probe

namespace Evidenced

variable {check : HealthCheck} {node : ProbedNode}

theorem new (check : HealthCheck) (cfg : NodeConfig) : Evidenced check (.new cfg) := by
  refine ⟨?_, (fun counted => by cases counted), fun out => by cases out⟩
  intro before after split
  simp [ProbedNode.new] at split

section

variable (evidenced : Evidenced check node)

include evidenced

theorem start (idle : node.probe = .idle) : Evidenced check node.start := by
  unfold ProbedNode.start
  split
  · exact evidenced
  · refine ⟨evidenced.readmitted, (fun counted => by cases counted), fun out => ?_⟩
    have credited := evidenced.credited out
    rw [idle] at credited
    exact credited

theorem complete (probing : node.probe = .probing)
    (pass : Bool) : Evidenced check (node.complete pass) := by
  refine ⟨evidenced.readmitted.append (fun up => by cases up), (fun counted => by cases counted),
    fun out => ?_⟩
  have credited := evidenced.credited out
  rw [probing] at credited
  cases pass with
  | false => trivial
  | true =>
    simp only [ProbedNode.complete, evidence_passed, Credited] at credited ⊢
    omega

theorem count {pass : Bool} (probed : node.probe = .probed pass) :
    Evidenced check (node.count pass) := by
  cases pass with
  | false => exact ⟨evidenced.readmitted, fun _ => rfl, fun _ => trivial⟩
  | true =>
    refine ⟨evidenced.readmitted, (fun counted => by cases counted), fun out => ?_⟩
    have credited := evidenced.credited out
    rw [probed] at credited
    exact credited

theorem setHealthy_false
    (clean : node.healthy = true →
      Credited check.healthyThreshold node.consecutivePass 0 node.probe) :
    Evidenced check (node.setHealthy false) := by
  unfold ProbedNode.setHealthy
  by_cases out : node.healthy = false
  · rw [if_pos out, List.append_nil]
    exact ⟨evidenced.readmitted, evidenced.failed, fun _ => evidenced.credited out⟩
  · rw [if_neg out, if_neg (by simp)]
    rw [Bool.not_eq_false] at out
    refine ⟨evidenced.readmitted.append (fun up => by cases up), evidenced.failed, fun _ => ?_⟩
    dsimp only
    rw [evidence_down]
    exact clean out

theorem setHealthy_true
    (shown : node.healthy = false → check.healthyThreshold ≤ evidence node.events) :
    Evidenced check (node.setHealthy true) := by
  unfold ProbedNode.setHealthy
  refine ⟨?_, evidenced.failed, fun out => by cases out⟩
  dsimp only
  by_cases healthy : node.healthy = true
  · rw [if_pos healthy, List.append_nil]
    exact evidenced.readmitted
  · rw [if_neg healthy, if_pos rfl]
    rw [Bool.not_eq_true] at healthy
    exact evidenced.readmitted.append (fun _ => shown healthy)

theorem store {pass : Bool}
    (counted : node.probe = .counted pass) : Evidenced check (node.store check pass) := by
  have idle : Evidenced check { node with probe := .idle } := by
    refine ⟨evidenced.readmitted, (fun counted => by cases counted), fun out => ?_⟩
    have credited := evidenced.credited out
    rw [counted] at credited
    cases pass with
    | true => exact credited.imp_right And.left
    | false =>
      left
      rw [evidenced.failed counted]
      exact Int.natCast_nonneg _
  unfold ProbedNode.store
  cases pass with
  | true =>
    dsimp only
    rw [if_pos rfl]
    split
    next enough =>
      refine idle.setHealthy_true (fun out => ?_)
      have credited := evidenced.credited out
      rw [counted] at credited
      rcases credited with fresh | ⟨single, fresh⟩
      · exact Int.le_trans enough fresh
      · dsimp only
        omega
    next => exact idle
  | false =>
    dsimp only
    rw [if_neg (by simp)]
    split
    next =>
      refine idle.setHealthy_false (fun _ => .inl ?_)
      dsimp only
      rw [evidenced.failed counted]
      exact Int.le_refl _
    next => exact idle

theorem eject (clean : ejectsWithoutCredit check node = true) : Evidenced check node.eject := by
  unfold ProbedNode.eject
  split
  · exact evidenced
  next probed =>
    refine evidenced.setHealthy_false (fun healthy => ?_)
    simp only [ejectsWithoutCredit, healthy, probed, Bool.not_true, Bool.false_or] at clean
    cases stage : node.probe with
    | idle | probing =>
      simp only [stage, decide_eq_true_eq] at clean
      exact clean.imp_left (fun zero => Int.le_of_eq zero)
    | probed pass | counted pass =>
      simp only [stage, Bool.not_eq_true'] at clean
      subst clean
      trivial

theorem step {next : ProbedNode} {action : NodeAction}
    (clean : action = .eject → ejectsWithoutCredit check node = true)
    (stepped : node.step check action = some next) : Evidenced check next := by
  cases action with
  | complete pass =>
    simp only [ProbedNode.step] at stepped
    split at stepped
    next probing =>
      cases stepped
      exact evidenced.complete probing pass
    next => cases stepped
  | count =>
    simp only [ProbedNode.step] at stepped
    split at stepped
    next pass probed =>
      cases stepped
      exact evidenced.count probed
    next => cases stepped
  | store =>
    simp only [ProbedNode.step] at stepped
    split at stepped
    next pass counted =>
      cases stepped
      exact evidenced.store counted
    next => cases stepped
  | eject =>
    cases stepped
    exact evidenced.eject (clean rfl)

end

end Evidenced

/-! ## Every run -/

theorem evidenced_step {check : HealthCheck} {nodes next : List ProbedNode} {action : HealthAction}
    (clean : withoutCredit check nodes action = true)
    (stepped : (healthMachine check).step nodes action = some next)
    (evidenced : ∀ node ∈ nodes, Evidenced check node) : ∀ node ∈ next, Evidenced check node := by
  cases action with
  | startPass =>
    simp only [healthMachine] at stepped
    split at stepped
    next idle =>
      cases stepped
      intro node member
      obtain ⟨before, among, rfl⟩ := List.mem_map.mp member
      have still := List.all_eq_true.mp idle before among
      exact (evidenced before among).start (of_decide_eq_true still)
    next => cases stepped
  | node index action =>
    simp only [healthMachine, Option.bind_eq_bind, Option.bind_eq_some_iff, Option.pure_def,
      Option.some.injEq] at stepped
    obtain ⟨before, found, after, moved, rfl⟩ := stepped
    have among : before ∈ nodes := List.mem_of_getElem? found
    intro node member
    rcases List.mem_or_eq_of_mem_set member with other | rfl
    · exact evidenced node other
    · refine (evidenced before among).step (fun ejects => ?_) moved
      subst ejects
      simpa [withoutCredit, found] using clean

/-- However health passes and requests are interleaved, a node that was taken out is taken
back only after as many probes in a row have passed since as the threshold asks, if no
request takes a node out that has passes to its credit. -/
theorem readmitted_on_fresh_evidence {check : HealthCheck} {cfgs : List NodeConfig}
    {trace : List HealthAction} {final : List ProbedNode}
    (clean : (healthMachine check).Meets (fun nodes action => withoutCredit check nodes action = true)
      (cfgs.map .new) trace)
    (ran : (healthMachine check).run (cfgs.map .new) trace = some final) :
    ∀ node ∈ final, ReadmittedOnEvidence check.healthyThreshold node.events := by
  have start : ∀ node ∈ cfgs.map ProbedNode.new, Evidenced check node := by
    intro node member
    obtain ⟨cfg, _, rfl⟩ := List.mem_map.mp member
    exact .new check cfg
  have evidenced := (healthMachine check).run_invariant_of_meets
    (fun nodes => ∀ node ∈ nodes, Evidenced check node)
    (fun _ _ _ clean stepped before => evidenced_step clean stepped before) clean ran start
  exact fun node member => (evidenced node member).readmitted

def passOf (index : Nat) (pass : Bool) : List HealthAction :=
  [.startPass, .node index (.complete pass), .node index .count, .node index .store]

def twoPasses : HealthCheck := { (clusterOf []).healthCheck with healthyThreshold := 2 }

def earnedReturn : List HealthAction :=
  passOf 0 true ++ passOf 0 false ++ [.node 0 .eject] ++ passOf 0 true ++ passOf 0 true

def borrowedReturn : List HealthAction :=
  passOf 0 true ++ passOf 0 true ++ [.node 0 .eject] ++ passOf 0 true

theorem readmitted_on_fresh_evidence_earned :
    ∃ node, (healthMachine twoPasses).run [.new cloudNode] earnedReturn = some [node] ∧
      node.events = [.probed true, .probed false, .down, .probed true, .probed true, .up] ∧
      ReadmittedOnEvidence 2 node.events := by
  have clean : (healthMachine twoPasses).Meets
      (fun nodes action => withoutCredit twoPasses nodes action = true)
      ([cloudNode].map .new) earnedReturn := by decide +kernel
  have ran : (healthMachine twoPasses).run ([cloudNode].map .new) earnedReturn =
      some [⟨cloudNode, true, 2, 0, .idle,
        [.probed true, .probed false, .down, .probed true, .probed true, .up]⟩] := by
    decide +kernel
  exact ⟨_, ran, rfl, readmitted_on_fresh_evidence clean ran _ List.mem_cons_self⟩

/-- The threshold asks for two passes, and the node comes back after one. -/
theorem readmitted_on_earlier_passes :
    ∃ node, (healthMachine twoPasses).run [.new cloudNode] borrowedReturn = some [node] ∧
      node.events = [.probed true, .probed true, .down, .probed true, .up] ∧
      ¬ ReadmittedOnEvidence twoPasses.healthyThreshold node.events := by
  have ran : (healthMachine twoPasses).run [.new cloudNode] borrowedReturn =
      some [⟨cloudNode, true, 3, 0, .idle,
        [.probed true, .probed true, .down, .probed true, .up]⟩] := by
    decide +kernel
  refine ⟨_, ran, rfl, fun readmitted => ?_⟩
  have asked := readmitted [.probed true, .probed true, .down, .probed true] [] rfl
  revert asked
  decide +kernel

end ClusterRouter.Router
