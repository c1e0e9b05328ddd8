import ClusterRouter.Channel.ProxyAuth

/-! `internal/channel/server.go`: how a server is built, on which sockets it agrees to serve,
and what it does with a request of the reverse-proxy leg. The answers of the rotation stores are
a parameter. -/

set_option autoImplicit false

namespace ClusterRouter.Channel

open Foundation

structure ConnectConfig where
  enabled : Bool
  allowedHosts : List Bytes
  tokenEnv : Bytes
  tokenFile : Bytes
  tokenRef : Bytes
  maxConcurrent : Int
  deriving DecidableEq, Repr

structure Config where
  gatewayAuth : GatewayAuthConfig
  connect : ConnectConfig
  routes : List Route
  deriving DecidableEq, Repr

structure Server where
  connect : ConnectConfig
  routes : List BoundRoute
  connToken : Bytes
  allowed : List Bytes
  proxyAuth : ProxyAuthMode
  proxyToken : Bytes
  scope : ListenScope
  deriving DecidableEq, Repr

/-! ## Construction -/

inductive ServerError where
  | route (name : String) (cause : CredentialError)
  | connect (cause : CredentialError)
  | gatewayAuth (cause : CredentialError)
  | sharedToken
  deriving DecidableEq, Repr

def checkToken (token : Bytes) : Except CredentialError Bytes :=
  if Bytes.trimSpace token = [] then .error .secretEmpty else .ok (Bytes.trimSpace token)

def resolveToken (secrets : SecretDialogue) (ref envName filePath : Bytes) :
    Asking CredentialError Bytes := do
  let token ← resolveFirst secrets (secretRefs ref envName filePath)
  checkToken token

def bindRoute (secrets : SecretDialogue) (r : Route) : Asking ServerError BoundRoute := fun asked =>
  match newAuthenticatorFor r secrets asked with
  | .ok (auth, asked) => .ok (⟨r, auth⟩, asked)
  | .error cause => .error (.route r.name cause)

def sortRoutes (routes : List BoundRoute) : List BoundRoute :=
  routes.mergeSort (fun a b => decide (b.route.pathPrefix.length ≤ a.route.pathPrefix.length))

def connectToken (cfg : Config) (secrets : SecretDialogue) : Asking ServerError Bytes := fun asked =>
  if cfg.connect.enabled then
    (resolveToken secrets cfg.connect.tokenRef cfg.connect.tokenEnv cfg.connect.tokenFile
      asked).mapError .connect
  else .ok ([], asked)

def gatewayToken (cfg : Config) (secrets : SecretDialogue) (connToken : Bytes) :
    Asking ServerError Bytes := fun asked =>
  let g := cfg.gatewayAuth
  if g.hasToken then
    match resolveToken secrets g.tokenRef g.tokenEnv g.tokenFile asked with
    | .error cause => .error (.gatewayAuth cause)
    | .ok (token, asked) =>
      if connToken ≠ [] ∧ token = connToken then .error .sharedToken else .ok (token, asked)
  else .ok ([], asked)

def newServer (fold : CaseFolding) (cfg : Config) (secrets : SecretDialogue) :
    Asking ServerError Server := do
  let routes ← (cfg.routes.filter (fun r => r.enabled)).mapM (bindRoute secrets)
  let connToken ← connectToken cfg secrets
  let proxyToken ← gatewayToken cfg secrets connToken
  return {
    connect := cfg.connect
    routes := sortRoutes routes
    connToken := connToken
    allowed := if cfg.connect.enabled then cfg.connect.allowedHosts.map fold.toLower else []
    proxyAuth := cfg.gatewayAuth.mode
    proxyToken := proxyToken
    scope := .unknown }

namespace Server

/-! ## Sockets -/

inductive BindRefusal where
  | unauthenticated
  | selfReference (entry : Bytes) (why : SelfReference)
  deriving DecidableEq, Repr

/-- The first entry of the allowlist that names this machine; one that does not split
is passed over. -/
def selfReferencing (fold : CaseFolding) (bound : Bytes) : List Bytes → Option BindRefusal
  | [] => none
  | entry :: rest =>
    match splitHostPort entry with
    | none => selfReferencing fold bound rest
    | some (host, port) =>
      match connectSelfReference fold host port bound false with
      | some why => some (.selfReference entry why)
      | none => selfReferencing fold bound rest

def bindRefusal (s : Server) (fold : CaseFolding) (addr : NetAddr) (scope : ListenScope) :
    Option BindRefusal :=
  if scope = .loopbackOnly then none
  else if s.proxyAuth = .loopbackOnly then some .unauthenticated
  else if s.connect.enabled then selfReferencing fold addr.text s.connect.allowedHosts
  else none

/-- `Serve` up to the first `Accept`: the server that answers on the listener. -/
def serve (s : Server) (fold : CaseFolding) (listener : NetAddr) : Except BindRefusal Server :=
  let scope := boundListenScope listener
  match s.bindRefusal fold listener scope with
  | some why => .error why
  | none => .ok { s with scope := scope }

/-- `ServeWrapped` refuses the same sockets and adopts none. -/
def serveWrapped (s : Server) (fold : CaseFolding) (listener : NetAddr) : Except BindRefusal Server :=
  match s.bindRefusal fold listener (boundListenScope listener) with
  | some why => .error why
  | none => .ok s

/-- How far the socket of a request reaches: the adopted one, or failing that the
address its own connection was accepted on. -/
def servingScope (s : Server) (accepted : Option NetAddr) : ListenScope :=
  if s.scope ≠ .unknown then s.scope
  else
    match accepted with
    | some addr => boundListenScope addr
    | none => .reachable

/-! ## Requests -/

def authorize (s : Server) (request : Request) : Option ProxyAuthRefusal :=
  authorizeProxy s.proxyAuth s.proxyToken request

def matchRoute (s : Server) (path : Bytes) : Option BoundRoute :=
  s.routes.find? (fun rt => rt.route.pathPrefix.isPrefixOf path)

structure KeyInventory where
  mode : AuthMode
  pooled : Bool
  keys : Nat
  available : Nat
  degraded : Bool
  deriving DecidableEq, Repr

def inventory (rt : BoundRoute) (available : Nat) : KeyInventory :=
  match rt.auth with
  | .rotatingInjector keys mode _ _ => ⟨mode, true, keys.length, available, decide (available = 0)⟩
  | .passthrough => ⟨.passthrough, false, 0, 0, false⟩
  | auth => ⟨auth.mode, false, 1, 1, false⟩

structure Disclosure where
  routes : List String
  keys : List (String × KeyInventory)
  connect : Bool
  deriving DecidableEq, Repr

structure Health where
  proxyAuth : ProxyAuthMode
  disclosed : Option Disclosure
  deriving DecidableEq, Repr

def handleHealth (s : Server) (available : String → Nat) (request : Request) : Health where
  proxyAuth := s.proxyAuth
  disclosed :=
    if s.authorize request = none then
      some {
        routes := s.routes.map (fun rt => rt.route.name)
        keys := s.routes.map (fun rt => (rt.route.name, inventory rt (available rt.route.name)))
        connect := s.connect.enabled }
    else none

/-- What `handleProxy` does, in the order in which it does it. -/
inductive ProxyEffect where
  | denied (refusal : ProxyAuthRefusal)
  | matched (path : Bytes) (route : Option String)
  | leased (route : String)
  | unavailable (route : String) (refusal : AdmissionRefusal)
  | forwarded (route : String) (outbound : Outbound)
  | failed (route : String) (error : Authenticator.ApplyError)

def forwardEffects (request : Request) (rt : BoundRoute) : List ProxyEffect :=
  match forward request rt with
  | .ok outbound => [.forwarded rt.route.name outbound]
  | .error error => [.failed rt.route.name error]

def routeEffects (grant : String → Except AdmissionRefusal Nat) (request : Request)
    (rt : BoundRoute) : List ProxyEffect :=
  match rt.auth with
  | .rotatingInjector .. =>
    match rt.auth.leaseFor (grant rt.route.name) with
    | .error refusal => [.unavailable rt.route.name refusal]
    | .ok auth => .leased rt.route.name :: forwardEffects request ⟨rt.route, auth⟩
  | _ => forwardEffects request rt

/-- `grant` is what the store of a pooled route answers to a reservation. -/
def handleProxy (s : Server) (grant : String → Except AdmissionRefusal Nat) (request : Request) :
    List ProxyEffect :=
  match s.authorize request with
  | some refusal => [.denied refusal]
  | none =>
    let request := { request with header := request.header.del gatewayTokenHeader }
    match s.matchRoute request.path with
    | none => [.matched request.path none]
    | some rt => .matched request.path (some rt.route.name) :: routeEffects grant request rt

end Server

end ClusterRouter.Channel
