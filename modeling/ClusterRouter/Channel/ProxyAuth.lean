import ClusterRouter.Channel.ConnectTarget
import ClusterRouter.Channel.Forward

/-! `internal/channel/proxy_auth.go` and the posture it enforces (`GatewayAuthConfig.Mode` in
`internal/channel/config.go`). -/

set_option autoImplicit false

namespace ClusterRouter.Channel

open Foundation

structure GatewayAuthConfig where
  tokenEnv : Bytes
  tokenFile : Bytes
  tokenRef : Bytes
  exemptLoopback : Option Bool
  allowUnauthenticated : Bool
  deriving DecidableEq, Repr

inductive ProxyAuthMode where
  | token
  | tokenLoopbackExempt
  | loopbackOnly
  | open
  deriving DecidableEq, Repr

namespace GatewayAuthConfig

def hasToken (g : GatewayAuthConfig) : Bool :=
  decide (g.tokenRef ≠ []) || decide (g.tokenEnv ≠ []) || decide (g.tokenFile ≠ [])

/-- An absent key exempts. -/
def exemptsLoopback (g : GatewayAuthConfig) : Bool := g.exemptLoopback.getD true

def mode (g : GatewayAuthConfig) : ProxyAuthMode :=
  if g.hasToken && g.exemptsLoopback then .tokenLoopbackExempt
  else if g.hasToken then .token
  else if g.allowUnauthenticated then .open
  else .loopbackOnly

end GatewayAuthConfig

def gatewayTokenHeader : HeaderName :=
  ⟨canonicalBytes true (lit "X-HLXN-Token"), by decide, by decide⟩

inductive ProxyAuthRefusal where
  | tokenRequired
  | tokenInvalid
  deriving DecidableEq, Repr

def isLoopbackPeer (remoteAddr : Bytes) : Bool :=
  (parseIP (Bytes.before Bytes.percent (stripBrackets (lenientHost remoteAddr)))).any IP.isLoopback

def presentedToken (request : Request) : Bytes :=
  Bytes.trimSpace (request.header.get gatewayTokenHeader)

def authorizeProxy (proxyAuth : ProxyAuthMode) (proxyToken : Bytes) (request : Request) :
    Option ProxyAuthRefusal :=
  if proxyAuth = .open ∨ proxyAuth = .loopbackOnly then none
  else if presentedToken request = [] then
    if proxyAuth = .tokenLoopbackExempt ∧ isLoopbackPeer request.remoteAddr then none
    else some .tokenRequired
  else if proxyToken = [] then some .tokenInvalid
  else if presentedToken request ≠ proxyToken then some .tokenInvalid
  else none

theorem isLoopbackPeer_text (peer : TCPAddr) : isLoopbackPeer peer.text = peer.ip.isLoopback := by
  unfold isLoopbackPeer
  rw [peer.before_lenientHost_text, peer.isLoopback_parseIP_ipText]

theorem authorizeProxy_eq_none {proxyAuth : ProxyAuthMode} {proxyToken : Bytes} {request : Request} :
    authorizeProxy proxyAuth proxyToken request = none ↔
      (proxyAuth = .open ∨ proxyAuth = .loopbackOnly) ∨
      (proxyAuth = .tokenLoopbackExempt ∧ presentedToken request = [] ∧
        isLoopbackPeer request.remoteAddr = true) ∨
      ((proxyAuth = .token ∨ proxyAuth = .tokenLoopbackExempt) ∧
        presentedToken request ≠ [] ∧ presentedToken request = proxyToken) := by
  unfold authorizeProxy
  cases proxyAuth with
  | «open» => simp
  | loopbackOnly => simp
  | token =>
    by_cases blank : presentedToken request = []
    · simp [blank]
    · by_cases same : presentedToken request = proxyToken
      · simp [same, same ▸ blank]
      · by_cases unset : proxyToken = [] <;> simp [blank, same, unset]
  | tokenLoopbackExempt =>
    by_cases blank : presentedToken request = []
    · cases isLoopbackPeer request.remoteAddr <;> simp [blank]
    · by_cases same : presentedToken request = proxyToken
      · simp [same, same ▸ blank]
      · by_cases unset : proxyToken = [] <;> simp [blank, same, unset]

end ClusterRouter.Channel
