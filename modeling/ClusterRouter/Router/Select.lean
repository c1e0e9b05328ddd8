import ClusterRouter.Router.Node

/-! `selectNodeFromSnapExcluding` (`main.go`): the nodes of the snapshot pass eight filters, and
the lowest priority group that remains is served round-robin by weight. The breaker filter
changes the breakers it asks. -/

set_option autoImplicit false

namespace ClusterRouter.Router

open Foundation

inductive WorkloadClass where
  | internal
  | customer
  deriving DecidableEq, Repr

def WorkloadClass.text : WorkloadClass → Bytes
  | .internal => lit "internal"
  | .customer => lit "customer"

structure Ask where
  model : Bytes
  tier : Bytes
  workload : WorkloadClass
  personal : Bool
  deriving DecidableEq, Repr

def UpstreamNode.allowsClass (node : UpstreamNode) (workload : WorkloadClass) : Bool :=
  if node.cfg.workloads = [] then true else decide (workload.text ∈ node.cfg.workloads)

def supportsModel (models : List Bytes) (model : Bytes) : Bool :=
  models.any (fun candidate => decide (candidate = model))

structure Bucket where
  priority : Int
  candidates : List UpstreamNode
  deriving DecidableEq

/-- A node joins the bucket of its priority once for each unit of weight. -/
def addCandidate (buckets : List Bucket) (node : UpstreamNode) : List Bucket :=
  let copies := List.replicate node.cfg.weight.toNat node
  match buckets with
  | [] => [⟨node.cfg.priority, copies⟩]
  | bucket :: rest =>
    if bucket.priority = node.cfg.priority then
      ⟨bucket.priority, bucket.candidates ++ copies⟩ :: rest
    else bucket :: addCandidate rest node

/-- The loop over the nodes; `clock` is what each node's breaker reads. -/
def visit (ask : Ask) (excluded : List Bytes) (clock : Nat → Int) (state : Heap × List Bucket)
    (node : UpstreamNode) : Heap × List Bucket :=
  let (heap, buckets) := state
  let targetTier := Bytes.trimSpace ask.tier
  if node.allowsClass ask.workload = false then state
  else if ask.personal && personalBlocks ask.personal node.cfg.piiLocal then state
  else if (heap node.id).healthy = false then state
  else if node.cfg.name ∈ excluded then state
  else if targetTier ≠ [] ∧ node.cfg.tier ≠ targetTier then state
  else
    let (allowed, breaker) := (heap node.id).breaker.allow (clock node.id)
    let heap := heap.set node.id { heap node.id with breaker }
    if allowed = false then (heap, buckets)
    else if ask.model = [] ∨ supportsModel node.cfg.models ask.model then
      (heap, addCandidate buckets node)
    else (heap, buckets)

/-- The outcome of a selection; `crashed` is a run-time error of the index expression. -/
inductive Selection where
  | crashed
  | noNode
  | chosen (node : UpstreamNode)
  deriving DecidableEq

def intOfUint64 (n : Nat) : Int :=
  let value : Int := n % 2 ^ 64
  if value < 2 ^ 63 then value else value - 2 ^ 64

def pick (n : Nat) (candidates : List UpstreamNode) : Selection :=
  if candidates = [] then .crashed
  else
    let idx := (intOfUint64 n).tmod candidates.length
    if idx < 0 then .crashed
    else
      match candidates[idx.toNat]? with
      | none => .crashed
      | some node => .chosen node

def lowestBucket (buckets : List Bucket) : List UpstreamNode :=
  match (buckets.map Bucket.priority).min? with
  | none => []
  | some priority =>
    ((buckets.find? (fun bucket => decide (bucket.priority = priority))).map
      Bucket.candidates).getD []

/-- The counter `rr` counts the selections that had a candidate. -/
def selectNodeFromSnapExcluding (nodes : List UpstreamNode) (ask : Ask) (excluded : List Bytes)
    (clock : Nat → Int) (heap : Heap) (rr : Nat) : Selection × Heap × Nat :=
  let (heap, buckets) := nodes.foldl (visit ask excluded clock) (heap, [])
  if buckets = [] then (.noNode, heap, rr) else (pick rr (lowestBucket buckets), heap, rr + 1)

end ClusterRouter.Router
