import ClusterRouter.Router.Select

/-! The loop of `handleProxy` (`main.go`) that sends a request to one node after another, cut at
every access to shared state. Clocks and upstream answers are arguments of its steps. -/

set_option autoImplicit false

namespace ClusterRouter.Router

open Foundation

def maxFailoverAttempts : Nat := 5

structure Response where
  status : Int
  body : Bytes
  deriving DecidableEq, Repr

def isFailoverStatus (code : Int) : Bool := decide (code = 429 ∨ 500 ≤ code)

structure Snap where
  cfg : Config
  nodes : List UpstreamNode
  deriving DecidableEq

structure Context where
  snap : Snap
  body : Bytes
  deriving DecidableEq

structure Held where
  attempt : Nat
  node : UpstreamNode
  response : Response
  deriving DecidableEq

inductive Stage where
  | top
  | sent (usedKeyIdx : Int) (again : Bool)
  | failed
  | answered (response : Response) (usedKeyIdx : Int)
  | cooling (response : Response)
  | retrying (response : Response)
  | refused (response : Response)
  | choosing
  | left
  | crashed
  deriving DecidableEq, Repr

structure Loop where
  tried : List Bytes
  okResp : Option Held
  heldResp : Option Held
  candidate : Option UpstreamNode
  attemptIdx : Nat
  stage : Stage
  deriving DecidableEq

def Loop.start (node : UpstreamNode) : Loop := ⟨[], none, none, some node, 0, .top⟩

structure SelectionRecord where
  nodes : List UpstreamNode
  ask : Ask
  excluded : List Bytes
  clock : Nat → Int
  heap : Heap
  rr : Nat
  selection : Selection

structure Attempt where
  context : Context
  ask : Ask
  node : UpstreamNode
  deriving DecidableEq

/-- Bodies are closed and contexts cancelled by attempt; `displaced` are the attempts
whose key was cooled and whose node was then not chosen again. -/
structure Trace where
  selections : List SelectionRecord
  attempts : List Attempt
  received : List Held
  closed : List Nat
  cancelled : List Nat
  displaced : List Nat

def Trace.empty : Trace := ⟨[], [], [], [], [], []⟩

def Trace.release (trace : Trace) : Option Held → Trace
  | none => trace
  | some held =>
    { trace with
      closed := trace.closed ++ [held.attempt]
      cancelled := trace.cancelled ++ [held.attempt] }

structure Shared where
  heap : Heap
  rr : Nat

def Shared.update (shared : Shared) (node : UpstreamNode) (change : NodeState → NodeState) : Shared :=
  { shared with heap := shared.heap.set node.id (change (shared.heap node.id)) }

def Shared.select (shared : Shared) (nodes : List UpstreamNode) (ask : Ask) (excluded : List Bytes)
    (clock : Nat → Int) : SelectionRecord × Shared :=
  let (selection, heap, rr) :=
    selectNodeFromSnapExcluding nodes ask excluded clock shared.heap shared.rr
  (⟨nodes, ask, excluded, clock, shared.heap, shared.rr, selection⟩, ⟨heap, rr⟩)

/-- `nextAPIKeyIdx`, and `usedKeyIdx` after it. -/
def nextAPIKeyIdx (node : UpstreamNode) (state : NodeState) (used now : Int) : Int × NodeState :=
  if 0 < state.keys.keys.length then
    let (key, idx, keys) := state.keys.next now
    (if key = [] then used else idx, { state with keys })
  else (if node.cfg.apiKey = [] then used else -1, state)

structure Progress where
  loop : Loop
  trace : Trace
  shared : Shared

inductive Exchange where
  | response (response : Response)
  | failure (retryable : Bool)
  deriving DecidableEq, Repr

namespace Progress

variable (library : Library) (context : Context) (ask : Ask)

def current (progress : Progress) (node : UpstreamNode) (response : Response) : Held :=
  ⟨progress.loop.attemptIdx, node, response⟩

def send (buildable : Bool) (now : Int) (progress : Progress) : Option Progress :=
  let loop := progress.loop
  match loop.stage, loop.candidate with
  | .top, some node =>
    if maxFailoverAttempts ≤ loop.attemptIdx then none
    else
      let tried := node.cfg.name :: loop.tried
      if buildable = false then
        some { progress with loop := { loop with tried, stage := .failed } }
      else
        let (used, state) := nextAPIKeyIdx node (progress.shared.heap node.id) (-1) now
        some {
          loop := { loop with tried, stage := .sent used false }
          trace := { progress.trace with
            attempts := progress.trace.attempts ++ [⟨context, ask, node⟩] }
          shared := progress.shared.update node (fun _ => state) }
  | _, _ => none

/-- The answer to a request; the first reset of a stale connection is retried. -/
def exchange (outcome : Exchange) (now : Int) (progress : Progress) : Option Progress :=
  let loop := progress.loop
  match loop.stage, loop.candidate with
  | .sent used again, some node =>
    match outcome with
    | .response response =>
      some { progress with
        loop := { loop with stage := .answered response used }
        trace := { progress.trace with
          received := progress.trace.received ++ [progress.current node response] } }
    | .failure retryable =>
      if retryable && !again then
        let (used, state) := nextAPIKeyIdx node (progress.shared.heap node.id) used now
        some {
          loop := { loop with stage := .sent used true }
          trace := { progress.trace with
            attempts := progress.trace.attempts ++ [⟨context, ask, node⟩] }
          shared := progress.shared.update node (fun _ => state) }
      else some { progress with loop := { loop with stage := .failed } }
  | _, _ => none

/-- A transport error: only the health loop can make a probed node healthy again. -/
def fail (now : Int) (progress : Progress) : Option Progress :=
  let loop := progress.loop
  match loop.stage, loop.candidate with
  | .failed, some node =>
    some {
      loop := { loop with stage := .choosing }
      trace := { progress.trace with cancelled := progress.trace.cancelled ++ [loop.attemptIdx] }
      shared := progress.shared.update node (fun state =>
        { state with
          healthy := if node.cfg.healthCheckDisabled then state.healthy else false
          breaker := state.breaker.recordFailure now }) }
  | _, _ => none

/-- At most the first 64 KiB of a body are looked at. -/
def quotaHit (node : UpstreamNode) (response : Response) : Bool :=
  decide (response.status = 429) ||
    match node.quotaDet with
    | none => false
    | some pattern => library.matchesPattern pattern (response.body.take (64 * 1024))

/-- A servable response ends the loop; a quota answer cools the key it was sent with. -/
def judge (now : Int) (progress : Progress) : Option Progress :=
  let loop := progress.loop
  match loop.stage, loop.candidate with
  | .answered response used, some node =>
    if isFailoverStatus response.status then
      if quotaHit library node response && decide (0 ≤ used) then
        some { progress with
          loop := { loop with stage := .cooling response }
          shared := progress.shared.update node (fun state =>
            { state with keys := state.keys.markExhausted used now }) }
      else some { progress with loop := { loop with stage := .refused response } }
    else
      some { progress with
        loop := { loop with okResp := some (progress.current node response), stage := .left }
        shared := progress.shared.update node (fun state =>
          { state with breaker := state.breaker.recordSuccess }) }
  | _, _ => none

/-- With another key left the response is held and the node may be tried again. -/
def checkKeys (now : Int) (progress : Progress) : Option Progress :=
  let loop := progress.loop
  match loop.stage, loop.candidate with
  | .cooling response, some node =>
    if (progress.shared.heap node.id).keys.allCooling now then
      some { progress with loop := { loop with stage := .refused response } }
    else
      some { progress with
        loop := { loop with
          heldResp := some (progress.current node response), stage := .retrying response }
        trace := progress.trace.release loop.heldResp }
  | _, _ => none

/-- The selection with the node itself let in again. Unless it is the node that is
chosen, the response goes on to be scored. -/
def reselect (clock : Nat → Int) (progress : Progress) : Option Progress :=
  let loop := progress.loop
  match loop.stage, loop.candidate with
  | .retrying response, some node =>
    let without := loop.tried.filter (fun name => decide (name ≠ node.cfg.name))
    let tried := node.cfg.name :: without
    let (record, shared) := progress.shared.select context.snap.nodes ask without clock
    let trace := { progress.trace with selections := progress.trace.selections ++ [record] }
    let displaced := { trace with displaced := trace.displaced ++ [loop.attemptIdx] }
    match record.selection with
    | .chosen next =>
      if next.cfg.name = node.cfg.name then
        some ⟨{ loop with
          tried, candidate := some next, attemptIdx := loop.attemptIdx + 1, stage := .top },
          trace, shared⟩
      else some ⟨{ loop with tried, stage := .refused response }, displaced, shared⟩
    | .noNode => some ⟨{ loop with tried, stage := .refused response }, displaced, shared⟩
    | .crashed => some ⟨{ loop with stage := .crashed }, trace, shared⟩
  | _, _ => none

def score (now : Int) (progress : Progress) : Option Progress :=
  let loop := progress.loop
  match loop.stage, loop.candidate with
  | .refused response, some node =>
    some {
      loop := { loop with heldResp := some (progress.current node response), stage := .choosing }
      trace := progress.trace.release loop.heldResp
      shared := progress.shared.update node (fun state =>
        { state with breaker := state.breaker.recordFailure now }) }
  | _, _ => none

def choose (clock : Nat → Int) (progress : Progress) : Option Progress :=
  let loop := progress.loop
  match loop.stage with
  | .choosing =>
    let (record, shared) := progress.shared.select context.snap.nodes ask loop.tried clock
    let trace := { progress.trace with selections := progress.trace.selections ++ [record] }
    let next := { loop with attemptIdx := loop.attemptIdx + 1, stage := .top }
    match record.selection with
    | .chosen node => some ⟨{ next with candidate := some node }, trace, shared⟩
    | .noNode => some ⟨{ next with candidate := none }, trace, shared⟩
    | .crashed => some ⟨{ loop with stage := .crashed }, trace, shared⟩
  | _ => none

def ended (loop : Loop) : Bool :=
  match loop.stage with
  | .left => true
  | .top => loop.candidate.isNone || decide (maxFailoverAttempts ≤ loop.attemptIdx)
  | _ => false

end Progress

end ClusterRouter.Router
