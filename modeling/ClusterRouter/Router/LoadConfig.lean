import ClusterRouter.Router.Node

/-! `LoadConfig` (`internal/config/config.go`) after the file has been decoded: defaults,
credentials from the environment, and the check of every node. -/

set_option autoImplicit false

namespace ClusterRouter.Router

open Foundation

/-- What loading asks the outside: environment variables, and the host of a URL in lower
case, empty where the URL does not parse. -/
structure Outside where
  lookupEnv : Bytes → Option Bytes
  lowerHostname : Bytes → Bytes

inductive LoadError where
  | negativeBodyReadTimeout (value : Int)
  | negativeLiveProbeInterval (value : Int)
  | negativeLiveProbeBurst (value : Int)
  | noNodes
  | forbiddenHost (name host suffix : Bytes)
  | authHeaderIsAuthorization (name : Bytes)
  | authHeaderCharacter (name authHeader : Bytes) (character : UInt8)
  | authHeaderWithoutKey (name authHeader : Bytes)
  | unknownWorkload (name workload : Bytes)
  deriving DecidableEq, Repr

def forbiddenUpstreamHostSuffixes : List Bytes := [lit "zende.sk", lit "zendesk.com"]

def validateUpstreamURL (outside : Outside) (name rawURL : Bytes) : Except LoadError Unit :=
  if rawURL = [] then .ok ()
  else
    let host := outside.lowerHostname rawURL
    if host = [] then .ok ()
    else
      match forbiddenUpstreamHostSuffixes.find? (fun suffix =>
        decide (host = suffix) || (Bytes.dot :: suffix).isSuffixOf host) with
      | some suffix => .error (.forbiddenHost name host suffix)
      | none => .ok ()

/-- A reference `${NAME}` becomes the value of the variable, empty if it is not set. -/
def expandEnvValue (outside : Outside) (s : Bytes) : Bytes :=
  if (lit "$\x7b").isPrefixOf s && (lit "\x7d").isSuffixOf s then
    (outside.lookupEnv ((s.drop 2).dropLast)).getD []
  else s

def isAuthHeaderByte (b : UInt8) : Bool :=
  Bytes.isLower b || Bytes.isUpper b || Bytes.isDigit b || decide (b = 45)

def validateAuthHeader (node : NodeConfig) : Except LoadError Unit :=
  if node.authHeader = [] then .ok ()
  else if Bytes.equalFold node.authHeader (lit "Authorization") then
    .error (.authHeaderIsAuthorization node.name)
  else
    match node.authHeader.find? (fun b => !isAuthHeaderByte b) with
    | some character => .error (.authHeaderCharacter node.name node.authHeader character)
    | none =>
      if node.apiKey = [] ∧ node.apiKeys.all (fun key => decide (key = [])) then
        .error (.authHeaderWithoutKey node.name node.authHeader)
      else .ok ()

def validateWorkloads (node : NodeConfig) : Except LoadError Unit :=
  match node.workloads.find? (fun workload =>
    decide (workload ≠ lit "internal" ∧ workload ≠ lit "customer")) with
  | some workload => .error (.unknownWorkload node.name workload)
  | none => .ok ()

def fillDefaults (defaults : Defaults) : Defaults where
  maxQueueDepth := if defaults.maxQueueDepth ≤ 0 then 8 else defaults.maxQueueDepth
  maxConcurrency := if defaults.maxConcurrency ≤ 0 then 2 else defaults.maxConcurrency
  requestTimeout :=
    if defaults.requestTimeout ≤ 0 then 120 * Duration.second else defaults.requestTimeout
  keyCooldown :=
    if defaults.keyCooldown < 0 then 0
    else if defaults.keyCooldown = 0 then 5 * Duration.minute
    else defaults.keyCooldown
  maxBodySize := if defaults.maxBodySize ≤ 0 then 2 ^ 20 else defaults.maxBodySize
  bodyReadTimeout :=
    if defaults.bodyReadTimeout = 0 then 15 * Duration.second else defaults.bodyReadTimeout
  circuit :=
    ⟨if defaults.circuit.threshold ≤ 0 then 5 else defaults.circuit.threshold,
      if defaults.circuit.cooldown ≤ 0 then 30 * Duration.second else defaults.circuit.cooldown⟩

def fillHealthCheck (check : HealthCheck) : HealthCheck where
  interval := if check.interval ≤ 0 then 15 * Duration.second else check.interval
  timeout := if check.timeout ≤ 0 then 5 * Duration.second else check.timeout
  path := if check.path = [] then lit "/health" else check.path
  unhealthyThreshold := if check.unhealthyThreshold ≤ 0 then 3 else check.unhealthyThreshold
  healthyThreshold := if check.healthyThreshold ≤ 0 then 1 else check.healthyThreshold
  liveProbe := check.liveProbe

def fillFairShare (share : FairShare) : FairShare :=
  if share.enabled then
    { enabled := true
      maxRequestsPerUser := if share.maxRequestsPerUser ≤ 0 then 10 else share.maxRequestsPerUser
      window := if share.window ≤ 0 then 60 * Duration.second else share.window
      burst := if share.burst ≤ 0 then 3 else share.burst }
  else share

def expandNode (outside : Outside) (node : NodeConfig) : NodeConfig :=
  { node with
    apiKey := expandEnvValue outside node.apiKey
    apiKeys := node.apiKeys.map (expandEnvValue outside)
    enabled := expandEnvValue outside node.enabled }

/-- One round of the loop over the nodes: the checks see the expanded values. -/
def loadNode (outside : Outside) (raw : NodeConfig) : Except LoadError NodeConfig := do
  let node := expandNode outside raw
  validateUpstreamURL outside node.name node.url
  validateAuthHeader node
  validateWorkloads node
  return node

def loadConfig (outside : Outside) (raw : Config) : Except LoadError Config :=
  if raw.defaults.bodyReadTimeout < 0 then
    .error (.negativeBodyReadTimeout raw.defaults.bodyReadTimeout)
  else if raw.healthCheck.liveProbe.interval < 0 then
    .error (.negativeLiveProbeInterval raw.healthCheck.liveProbe.interval)
  else if raw.healthCheck.liveProbe.burst < 0 then
    .error (.negativeLiveProbeBurst raw.healthCheck.liveProbe.burst)
  else if raw.nodes = [] then .error .noNodes
  else do
    let nodes ← raw.nodes.mapM (loadNode outside)
    return { raw with
      authToken := expandEnvValue outside raw.authToken
      nodes := nodes
      defaults := fillDefaults raw.defaults
      healthCheck := fillHealthCheck raw.healthCheck
      fairShare := fillFairShare raw.fairShare }

end ClusterRouter.Router
