import ClusterRouter.Channel.Credential

/-! `internal/channel/forward.go`: the request that goes upstream. Connection-scoped headers
stay behind, and so does every header in which a caller could present a credential, unless the
route carries it. -/

set_option autoImplicit false

namespace ClusterRouter.Channel

open Foundation

structure Request where
  method : Bytes
  host : Bytes
  urlHost : Bytes
  path : Bytes
  rawQuery : Bytes
  header : Header
  remoteAddr : Bytes
  contentLength : Int

structure Outbound where
  method : Bytes
  target : Bytes
  header : Header
  contentLength : Int

structure BoundRoute where
  route : Route
  auth : Authenticator
  deriving DecidableEq, Repr

def hopByHop : List Bytes :=
  [lit "connection", lit "keep-alive", lit "proxy-authenticate", lit "proxy-authorization",
    lit "te", lit "trailer", lit "transfer-encoding", lit "upgrade"]

def callerCredentialHeaders : List Bytes :=
  [lit "Authorization", lit "Proxy-Authorization", lit "X-Api-Key", lit "Api-Key",
    lit "X-Goog-Api-Key", lit "Cookie", lit "OpenAI-Organization", lit "OpenAI-Project"]

/-- The modes that carry the caller's own credential upstream on purpose. -/
def modesSupplyingTheirOwnCredential : AuthMode → Bool
  | .passthrough => true
  | _ => false

def isCallerCredential (name routeKeyHeader : Bytes) : Bool :=
  callerCredentialHeaders.any (fun deny => Bytes.equalFold name deny) ||
    (decide (Bytes.trimSpace routeKeyHeader ≠ []) &&
      Bytes.equalFold name (Bytes.trimSpace routeKeyHeader))

def isDropped (rt : BoundRoute) (name : HeaderName) : Bool :=
  decide (name.text.map Bytes.toLower ∈ hopByHop) ||
    (!modesSupplyingTheirOwnCredential rt.auth.mode &&
      isCallerCredential name.text rt.route.keyHeader)

def copyHeaders (rt : BoundRoute) (inbound : Header) : Header :=
  Header.set (fun name => if isDropped rt name then [] else inbound name) userAgent
    (lit "helixchannel-gateway/1")

def trimRightSlash (s : Bytes) : Bytes := (s.reverse.dropWhile (fun b => decide (b = 47))).reverse

def upstreamTarget (request : Request) (route : Route) : Bytes :=
  let stripped := Bytes.trimPrefix (Bytes.trimSuffix [47] route.pathPrefix) request.path
  let upstreamPath := if stripped.head? = some 47 then stripped else 47 :: stripped
  let target := trimRightSlash route.upstream ++ upstreamPath
  if request.rawQuery = [] then target else target ++ 63 :: request.rawQuery

def forward (request : Request) (rt : BoundRoute) : Except Authenticator.ApplyError Outbound := do
  let header ← rt.auth.apply (copyHeaders rt request.header)
  return ⟨request.method, upstreamTarget request rt.route, header, request.contentLength⟩

end ClusterRouter.Channel
