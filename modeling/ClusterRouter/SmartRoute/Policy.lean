import ClusterRouter.Foundation.Fallible
import ClusterRouter.Foundation.Header
import ClusterRouter.Foundation.JsonDecode

/-! Package `smartroute`: task classes, the gate for each calling agent, and how a request says
which agent it comes from (`agents.go`). -/

set_option autoImplicit false

namespace ClusterRouter.SmartRoute

open Foundation

structure Match where
  anyOfMarkers : List Bytes
  minPromptChars : Int

structure Route where
  model : Bytes
  tier : Bytes
  params : Entries Json.Value

structure Class where
  name : Bytes
  enabled : Option Bool
  matching : Match
  route : Route

namespace Class

def isEnabled (c : Class) : Bool := c.enabled.getD true

end Class

structure AgentPolicy where
  enabled : Option Bool
  forceClass : Bytes
  deriving DecidableEq, Repr

structure Policy where
  enabled : Bool
  agents : Entries AgentPolicy
  defaultClass : Bytes
  classes : List Class

def headerTaskClass : HeaderName := ⟨lit "X-Helixon-Task", by decide, by decide⟩

def headerAgent : HeaderName := ⟨lit "X-Helixon-Agent", by decide, by decide⟩

def headerUserAgent : HeaderName := userAgent

/-- A part of a `User-Agent` and the agent it tells. -/
def uaHints : List (Bytes × Bytes) :=
  [(lit "kilo", lit "kilo-code"), (lit "cursor", lit "cursor"), (lit "claude", lit "claude-code"),
    (lit "codex", lit "codex"), (lit "openai", lit "codex")]

def contains (s part : Bytes) : Bool := (Bytes.index s part).isSome

section

-- `strings.ToLower`, over all of Unicode.
variable (toLower : Bytes → Bytes)

/-- The request is nil or has headers. -/
def detectAgent : Option Header → Bytes
  | none => []
  | some header =>
    let declared := toLower (Bytes.trimSpace (header.get headerAgent))
    if declared ≠ [] then declared
    else
      let ua := toLower (header.get headerUserAgent)
      if ua = [] then []
      else
        match uaHints.find? (fun (needle, _) => contains ua needle) with
        | some (_, agent) => agent
        | none => []

namespace Policy

def agentAllowed (p : Policy) (agent : Bytes) : Bool :=
  if agent = [] then true
  else
    match p.agents.lookup (toLower agent) with
    | none => true
    | some entry => entry.enabled.getD true

def forceClass (p : Policy) (agent : Bytes) : Bytes :=
  if agent = [] then []
  else
    match p.agents.lookup (toLower agent) with
    | none => []
    | some entry => entry.forceClass

end Policy

end

namespace Policy

def enabledClasses (p : Policy) : List Class := p.classes.filter Class.isEnabled

def lookup (p : Policy) (name : Bytes) : Option Class := p.classes.find? (fun c => c.name = name)

end Policy

/-! ## Validation -/

inductive PolicyError where
  | classesRequired
  | nameRequired (index : Nat)
  | duplicateName (index : Nat) (name : Bytes)
  | modelRequired (name : Bytes)
  | defaultClassRequired
  | defaultClassUndefined (name : Bytes)
  | forceClassUndefined (agent name : Bytes)
  deriving DecidableEq, Repr

/-- The loop of `Validate` over the classes; it leaves the names it has seen. -/
def validateClasses : Nat → List Bytes → List Class → Except PolicyError (List Bytes)
  | _, seen, [] => .ok seen
  | index, seen, c :: rest => do
      rejectIf (c.name = []) (.nameRequired index)
      rejectIf (c.name ∈ seen) (.duplicateName index c.name)
      rejectIf (c.route.model = []) (.modelRequired c.name)
      validateClasses (index + 1) (c.name :: seen) rest

def validateAgents (seen : List Bytes) :
    List (Σ _ : Bytes, AgentPolicy) → Except PolicyError Unit
  | [] => .ok ()
  | entry :: rest => do
      rejectIf (entry.2.forceClass ≠ [] ∧ entry.2.forceClass ∉ seen)
        (.forceClassUndefined entry.1 entry.2.forceClass)
      validateAgents seen rest

/-- Classes that are switched off are checked as well. -/
def Policy.validate (p : Policy) : Except PolicyError Unit := do
  rejectIf (p.classes.length = 0) .classesRequired
  let seen ← validateClasses 0 [] p.classes
  rejectIf (p.defaultClass = []) .defaultClassRequired
  rejectIf (p.defaultClass ∉ seen) (.defaultClassUndefined p.defaultClass)
  validateAgents seen p.agents.entries

end ClusterRouter.SmartRoute
