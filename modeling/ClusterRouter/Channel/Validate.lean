import ClusterRouter.Channel.Connect
import ClusterRouter.Channel.RouteConfig
import ClusterRouter.Channel.Tunnel
import ClusterRouter.Foundation.Fallible
import ClusterRouter.Foundation.FilePath

/-! `Config.Validate` of `internal/channel/config.go`: the checks in their order, and the
defaults it fills in. -/

set_option autoImplicit false

namespace ClusterRouter.Channel

open Foundation

/-! ## The configuration file -/

structure TLSConfig where
  certFile : Bytes
  keyFile : Bytes
  deriving DecidableEq, Repr

def TLSConfig.enabled (t : TLSConfig) : Bool := decide (t.certFile ≠ [] ∧ t.keyFile ≠ [])

def TLSConfig.unpaired (t : TLSConfig) : Bool := decide (t.certFile = []) != decide (t.keyFile = [])

structure AESConfig where
  enabled : Bool
  listen : Bytes
  keyEnv : Bytes
  keyFile : Bytes
  keyRef : Bytes
  tls : TLSConfig
  deriving DecidableEq, Repr

/-- A rotation block as it is written, its policy named by a string. -/
structure RotationBlock where
  policy : Bytes
  budget : Budget
  maxRetryAfter : Int
  deriving DecidableEq

structure RouteBlock extends Route where
  timeout : Int
  rotation : Option RotationBlock
  deriving DecidableEq

structure ConnectBlock extends ConnectConfig where
  dialTimeout : Int
  idleTimeout : Int
  deriving DecidableEq

structure ConfigFile where
  listen : Bytes
  timeout : Int
  routes : List RouteBlock
  connect : ConnectBlock
  gatewayAuth : GatewayAuthConfig
  tls : TLSConfig
  aes : AESConfig
  deriving DecidableEq

/-- The part of a configuration that `NewServer` reads. -/
def ConfigFile.config (c : ConfigFile) : Config where
  gatewayAuth := c.gatewayAuth
  connect := c.connect.toConnectConfig
  routes := c.routes.map RouteBlock.toRoute

def defaultTimeout : Int := 90 * Duration.second

def defaultDialTimeout : Int := 10 * Duration.second

def orDefault (value fallback : Int) : Int := if value = 0 then fallback else value

/-! ## Errors -/

inductive SecretRefError where
  | unknownScheme
  | segments (count : Nat)
  | emptySegment
  | unusableSegment
  | emptyEnvName
  | emptyFilePath
  deriving DecidableEq, Repr

inductive KeyListField where
  | keyEnvs
  | keyFiles
  | keyRefs
  deriving DecidableEq, Repr

inductive KeySourceError where
  | singularAndPlural
  | emptyList (field : KeyListField)
  | blankEntry (field : KeyListField)
  | duplicateSource (item : Bytes) (field : KeyListField)
  | keyRef (cause : SecretRefError)
  | keyRefs (index : Nat) (cause : SecretRefError)
  deriving DecidableEq, Repr

inductive RotationError where
  | passthrough
  | noPool
  | unknownPolicy (policy : Bytes)
  | leastTokensOnHeader
  | budget (cause : BudgetError)
  | negativeMaxRetryAfter
  deriving DecidableEq

inductive RouteError where
  | prefixRequired
  | prefixShape (pathPrefix : Bytes)
  | duplicatePrefix (pathPrefix : Bytes)
  | upstreamRequired
  | upstreamScheme (upstream : Bytes)
  | keySources (cause : KeySourceError)
  | authMode (cause : AuthModeError)
  | rotation (cause : RotationError)
  | negativeTimeout (timeout : Int)
  deriving DecidableEq

inductive ConnectError where
  | allowedHostsRequired
  | tokenRequired
  | tokenRef (cause : SecretRefError)
  | entryShape (entry : Bytes)
  | entrySelf (entry : Bytes) (why : SelfReference)
  | negativeMaxConcurrent (count : Int)
  | negativeIdleTimeout (timeout : Int)
  deriving DecidableEq, Repr

inductive AESError where
  | listenRequired
  | sameListen (listen : Bytes)
  | tlsPair
  | tlsRequired
  | keyRequired
  deriving DecidableEq, Repr

inductive GatewayAuthError where
  | tokenRef (cause : SecretRefError)
  | tokenAndUnauthenticated
  | exemptionWithoutToken
  | reachableWithoutToken (listen : Bytes)
  deriving DecidableEq, Repr

inductive ConfigError where
  | listenRequired
  | negativeTimeout (timeout : Int)
  | nameRequired (index : Nat)
  | duplicateName (index : Nat) (name : String)
  | route (name : String) (cause : RouteError)
  | tlsPair
  | connect (cause : ConnectError)
  | aes (cause : AESError)
  | gatewayAuth (cause : GatewayAuthError)
  deriving DecidableEq

/-! ## References to secrets -/

inductive Scheme where
  | env
  | file
  | op
  deriving DecidableEq, Repr

def Scheme.text : Scheme → Bytes
  | .env => lit "env:"
  | .file => lit "file:"
  | .op => lit "op://"

def refScheme (ref : Bytes) : Option Scheme :=
  [Scheme.env, .file, .op].find? (fun scheme => scheme.text.isPrefixOf ref)

/-- A white-space or control rune at the front of `s`. The bytes that begin one occur
nowhere inside a longer rune. -/
def startsUnusable (s : Bytes) : Bool :=
  decide (Bytes.spaceWidth s ≠ 0) ||
    match s with
    | 0xC2 :: b :: _ => decide (0x80 ≤ b ∧ b ≤ 0x9F)
    | b :: _ => decide (b < 32 ∨ b = 127)
    | [] => false

def opRefSegments : Nat := 3

def checkSegments : List Bytes → Except SecretRefError Unit
  | [] => .ok ()
  | segment :: rest => do
      rejectIf (segment = []) .emptySegment
      rejectIf (segment.tails.any startsUnusable) .unusableSegment
      checkSegments rest

def parseOPRef (ref : Bytes) : Except SecretRefError Unit := do
  let parts := Bytes.split FilePath.slash (Bytes.trimPrefix Scheme.op.text ref)
  rejectIf (parts.length ≠ opRefSegments) (.segments parts.length)
  checkSegments parts

def validateSecretRef (ref : Bytes) : Except SecretRefError Unit :=
  if ref = [] then .ok ()
  else
    match refScheme ref with
    | none => .error .unknownScheme
    | some .op => parseOPRef ref
    | some .env => rejectIf (Bytes.trimPrefix Scheme.env.text ref = []) .emptyEnvName
    | some .file => rejectIf (Bytes.trimPrefix Scheme.file.text ref = []) .emptyFilePath

/-! ## Routes -/

/-- Key file paths are compared after they are cleaned, other sources as they stand. -/
def KeyListField.sourceKey : KeyListField → Bytes → Bytes
  | .keyFiles, item => FilePath.clean item
  | _, item => item

def rejectDuplicateSources (field : KeyListField) :
    List Bytes → List Bytes → Except KeySourceError Unit
  | _, [] => .ok ()
  | seen, item :: rest => do
      rejectIf (Bytes.trimSpace item = []) (.blankEntry field)
      rejectIf (field.sourceKey item ∈ seen) (.duplicateSource item field)
      rejectDuplicateSources field (field.sourceKey item :: seen) rest

def validateKeyList (field : KeyListField) : Option (List Bytes) → Except KeySourceError Unit
  | none => .ok ()
  | some items => do
      rejectIf (items = []) (.emptyList field)
      rejectDuplicateSources field [] items

def validateKeyRefs : Nat → List Bytes → Except KeySourceError Unit
  | _, [] => .ok ()
  | index, ref :: rest => do
      (validateSecretRef ref).mapError (.keyRefs index)
      validateKeyRefs (index + 1) rest

def validateKeySources (r : Route) : Except KeySourceError Unit := do
  rejectIf (hasSingularKeys r = true ∧ hasPluralKeys r = true) .singularAndPlural
  validateKeyList .keyEnvs r.keyEnvs
  validateKeyList .keyFiles r.keyFiles
  validateKeyList .keyRefs r.keyRefs
  (validateSecretRef r.keyRef).mapError .keyRef
  validateKeyRefs 0 (r.keyRefs.getD [])

/-- `NewPolicy`, as far as it names a policy; the empty name is `round_robin`. -/
def policyNamed (policy : Bytes) : Option PolicyName :=
  if policy = [] ∨ policy = lit "round_robin" then some .roundRobin
  else if policy = lit "least_used" then some .leastUsed
  else if policy = lit "least_tokens" then some .leastTokens
  else none

def validateRotation (r : Route) :
    Option RotationBlock → Except RotationError (Option RotationBlock)
  | none => .ok none
  | some rot => do
      rejectIf (r.auth = .passthrough) .passthrough
      rejectIf (hasPluralKeys r = false) .noPool
      rejectIf (policyNamed rot.policy = none) (.unknownPolicy rot.policy)
      let policy := if rot.policy = [] then lit "round_robin" else rot.policy
      rejectIf (r.auth = .header ∧ policy = lit "least_tokens") .leastTokensOnHeader
      let budget ← (validateBudget rot.budget).mapError .budget
      rejectIf (rot.maxRetryAfter < 0) .negativeMaxRetryAfter
      return some {
        policy := policy
        budget := budget
        maxRetryAfter := orDefault rot.maxRetryAfter defaultMaxRetryAfter }

def validateRouteAuth (r : RouteBlock) : Except RouteError (Option RotationBlock) := do
  (validateKeySources r.toRoute).mapError .keySources
  (validateAuthMode r.toRoute).mapError .authMode
  (validateRotation r.toRoute r.rotation).mapError .rotation

def validateRoute (timeout : Int) (seenPrefix : List Bytes) (r : RouteBlock) :
    Except RouteError RouteBlock := do
  rejectIf (r.pathPrefix = []) .prefixRequired
  rejectIf (¬ ([FilePath.slash].isPrefixOf r.pathPrefix = true ∧
    [FilePath.slash].isSuffixOf r.pathPrefix = true)) (.prefixShape r.pathPrefix)
  rejectIf (r.pathPrefix ∈ seenPrefix) (.duplicatePrefix r.pathPrefix)
  rejectIf (r.upstream = []) .upstreamRequired
  rejectIf (¬ ((lit "https://").isPrefixOf r.upstream = true ∨
    (lit "http://").isPrefixOf r.upstream = true)) (.upstreamScheme r.upstream)
  let rotation ← validateRouteAuth r
  rejectIf (r.timeout < 0) (.negativeTimeout r.timeout)
  return { r with rotation := rotation, timeout := orDefault r.timeout timeout }

def validateRoutes (timeout : Int) :
    Nat → List String → List Bytes → List RouteBlock → Except ConfigError (List RouteBlock)
  | _, _, _, [] => .ok []
  | index, seenName, seenPrefix, r :: rest => do
      rejectIf (r.name = "") (.nameRequired index)
      rejectIf (r.name ∈ seenName) (.duplicateName index r.name)
      let checked ← (validateRoute timeout seenPrefix r).mapError (.route r.name)
      let others ← validateRoutes timeout (index + 1) (r.name :: seenName)
        (r.pathPrefix :: seenPrefix) rest
      return checked :: others

/-! ## The CONNECT leg, the AES leg and the callers of the gateway -/

def isLoopbackListen (addr : Bytes) : Bool :=
  (parseIP (bareHost (splitHostPortLenient addr).1)).any IP.isLoopback

def validateAllowedHosts (fold : CaseFolding) (listen : Bytes) : List Bytes → Except ConnectError Unit
  | [] => .ok ()
  | entry :: rest =>
    match splitHostPort entry with
    | none => .error (.entryShape entry)
    | some (host, port) =>
      match connectSelfReference fold host port listen (isLoopbackListen listen) with
      | some why => .error (.entrySelf entry why)
      | none => validateAllowedHosts fold listen rest

def validateConnect (fold : CaseFolding) (listen : Bytes) (connect : ConnectBlock) :
    Except ConnectError ConnectBlock :=
  if connect.enabled = false then .ok connect
  else do
    rejectIf (connect.allowedHosts = []) .allowedHostsRequired
    rejectIf (connect.tokenEnv = [] ∧ connect.tokenFile = [] ∧ connect.tokenRef = []) .tokenRequired
    (validateSecretRef connect.tokenRef).mapError .tokenRef
    validateAllowedHosts fold listen connect.allowedHosts
    rejectIf (connect.maxConcurrent < 0) (.negativeMaxConcurrent connect.maxConcurrent)
    rejectIf (connect.idleTimeout < 0) (.negativeIdleTimeout connect.idleTimeout)
    return { connect with
      dialTimeout := orDefault connect.dialTimeout defaultDialTimeout
      maxConcurrent := orDefault connect.maxConcurrent defaultConnectMaxConcurrent
      idleTimeout := orDefault connect.idleTimeout defaultConnectIdleTimeout }

def validateAES (listen : Bytes) (a : AESConfig) : Except AESError Unit :=
  if a.enabled = false then .ok ()
  else do
    rejectIf (a.listen = []) .listenRequired
    rejectIf (a.listen = listen) (.sameListen a.listen)
    rejectIf (a.tls.unpaired = true) .tlsPair
    rejectIf (a.tls.enabled = false) .tlsRequired
    rejectIf (a.keyEnv = [] ∧ a.keyFile = [] ∧ a.keyRef = []) .keyRequired

def validateGatewayAuth (listen : Bytes) (g : GatewayAuthConfig) : Except GatewayAuthError Unit := do
  (validateSecretRef g.tokenRef).mapError .tokenRef
  rejectIf (g.hasToken = true ∧ g.allowUnauthenticated = true) .tokenAndUnauthenticated
  rejectIf (g.hasToken = false ∧ g.exemptLoopback = some false) .exemptionWithoutToken
  rejectIf (g.hasToken = false ∧ g.allowUnauthenticated = false ∧ isLoopbackListen listen = false)
    (.reachableWithoutToken listen)

def validate (fold : CaseFolding) (c : ConfigFile) : Except ConfigError ConfigFile := do
  rejectIf (c.listen = []) .listenRequired
  rejectIf (c.timeout < 0) (.negativeTimeout c.timeout)
  let timeout := orDefault c.timeout defaultTimeout
  let routes ← validateRoutes timeout 0 [] [] c.routes
  rejectIf (c.tls.unpaired = true) .tlsPair
  let connect ← (validateConnect fold c.listen c.connect).mapError .connect
  (validateAES c.listen c.aes).mapError .aes
  (validateGatewayAuth c.listen c.gatewayAuth).mapError .gatewayAuth
  return { c with timeout := timeout, routes := routes, connect := connect }

/-! ## What an accepted configuration is -/

structure ValidRoute (r : Route) : Prop where
  starts : [FilePath.slash] <+: r.pathPrefix
  ends : [FilePath.slash] <:+ r.pathPrefix
  upstream : lit "https://" <+: r.upstream ∨ lit "http://" <+: r.upstream
  keySources : validateKeySources r = .ok ()
  authMode : validateAuthMode r = .ok ()

theorem validateRoute_eq_ok {timeout : Int} {seenPrefix : List Bytes} {r checked : RouteBlock}
    (accepted : validateRoute timeout seenPrefix r = .ok checked) :
    checked.toRoute = r.toRoute ∧ r.pathPrefix ∉ seenPrefix ∧ ValidRoute r.toRoute := by
  simp only [validateRoute, validateRouteAuth, bind_eq_ok, rejectIf_eq_ok, mapError_eq_ok, not_not,
    Unique.exists_iff] at accepted
  obtain ⟨_, shape, fresh, _, scheme, rotation, ⟨sources, mode, _⟩, _, ⟨⟩⟩ := accepted
  exact ⟨rfl, fresh, {
    starts := List.isPrefixOf_iff_prefix.mp shape.1
    ends := List.isSuffixOf_iff_suffix.mp shape.2
    upstream := scheme.imp List.isPrefixOf_iff_prefix.mp List.isPrefixOf_iff_prefix.mp
    keySources := sources
    authMode := mode }⟩

structure ValidRoutes (routes : List Route) : Prop where
  each : ∀ r ∈ routes, ValidRoute r
  names : (routes.map Route.name).Nodup
  prefixes : (routes.map Route.pathPrefix).Nodup

theorem validateRoutes_eq_ok {timeout : Int} {index : Nat} {seenName : List String}
    {seenPrefix : List Bytes} {routes checked : List RouteBlock}
    (accepted : validateRoutes timeout index seenName seenPrefix routes = .ok checked) :
    ValidRoutes (checked.map RouteBlock.toRoute) ∧
      ∀ r ∈ checked, r.name ∉ seenName ∧ r.pathPrefix ∉ seenPrefix := by
  induction routes generalizing index seenName seenPrefix checked with
  | nil =>
    cases accepted
    exact ⟨⟨by simp, by simp, by simp⟩, by simp⟩
  | cons r rest ih =>
    simp only [validateRoutes, bind_eq_ok, rejectIf_eq_ok, mapError_eq_ok, Unique.exists_iff]
      at accepted
    obtain ⟨_, newName, first, isFirst, others, areOthers, ⟨⟩⟩ := accepted
    obtain ⟨same, newPrefix, valid⟩ := validateRoute_eq_ok isFirst
    obtain ⟨⟨each, names, prefixes⟩, apart⟩ := ih areOthers
    have sameName : first.name = r.name := congrArg Route.name same
    have samePrefix : first.pathPrefix = r.pathPrefix := congrArg Route.pathPrefix same
    refine ⟨⟨?_, ?_, ?_⟩, ?_⟩
    · simp only [List.map_cons, List.mem_cons, forall_eq_or_imp]
      exact ⟨same ▸ valid, each⟩
    · simp only [List.map_cons, List.nodup_cons, List.map_map]
      refine ⟨?_, by simpa using names⟩
      intro member
      obtain ⟨other, inside, twin⟩ := List.mem_map.mp member
      apply (apart other inside).1
      rw [show other.name = first.name from twin, sameName]
      exact List.mem_cons_self
    · simp only [List.map_cons, List.nodup_cons, List.map_map]
      refine ⟨?_, by simpa using prefixes⟩
      intro member
      obtain ⟨other, inside, twin⟩ := List.mem_map.mp member
      apply (apart other inside).2
      rw [show other.pathPrefix = first.pathPrefix from twin, samePrefix]
      exact List.mem_cons_self
    · intro other member
      rcases List.mem_cons.mp member with rfl | inside
      · rw [sameName, samePrefix]
        exact ⟨newName, newPrefix⟩
      · obtain ⟨otherName, otherPrefix⟩ := apart other inside
        exact ⟨fun seen => otherName (List.mem_cons_of_mem _ seen),
          fun seen => otherPrefix (List.mem_cons_of_mem _ seen)⟩

theorem validate_eq_ok {fold : CaseFolding} {file valid : ConfigFile}
    (accepted : validate fold file = .ok valid) :
    ValidRoutes valid.config.routes ∧ valid.listen = file.listen ∧
      validateConnect fold file.listen file.connect = .ok valid.connect := by
  simp only [validate, bind_eq_ok, rejectIf_eq_ok, mapError_eq_ok, Unique.exists_iff] at accepted
  obtain ⟨_, _, routes, checked, _, connect, opened, _, _, ⟨⟩⟩ := accepted
  exact ⟨(validateRoutes_eq_ok checked).1, rfl, opened⟩

def loopbackFile (routes : List RouteBlock) : ConfigFile where
  listen := lit "127.0.0.1:14443"
  timeout := 0
  routes := routes
  connect :=
    { enabled := false, allowedHosts := [], tokenEnv := [], tokenFile := [], tokenRef := []
      maxConcurrent := 0, dialTimeout := 0, idleTimeout := 0 }
  gatewayAuth := ⟨[], [], [], none, false⟩
  tls := ⟨[], []⟩
  aes := ⟨false, [], [], [], [], ⟨[], []⟩⟩

end ClusterRouter.Channel
