import ClusterRouter.Channel.ServerProperties

/-! Who gets past `handleProxy` on a running server, from the posture of the configuration, the
token resolved at startup, the socket served on and the check of each request. -/

set_option autoImplicit false

namespace ClusterRouter.Channel

open Foundation

def CorrectToken (cfg : Config) (secrets : SecretProvider) (request : Request) : Prop :=
  ∃ token after,
    resolveToken (fun _ => secrets) cfg.gatewayAuth.tokenRef cfg.gatewayAuth.tokenEnv
      cfg.gatewayAuth.tokenFile [] = .ok (token, after) ∧
    token ≠ [] ∧ presentedToken request = token

/-- The admission policy: the token, the TCP peer and the bound socket, and nothing
else. -/
inductive Admissible (cfg : Config) (secrets : SecretProvider) (listener : NetAddr)
    (peer : TCPAddr) (request : Request) : Prop where
  | token : CorrectToken cfg secrets request → Admissible cfg secrets listener peer request
  | loopbackPeer : cfg.gatewayAuth.mode = .tokenLoopbackExempt → presentedToken request = [] →
      peer.ip.isLoopback = true → Admissible cfg secrets listener peer request
  | open : cfg.gatewayAuth.mode = .open → Admissible cfg secrets listener peer request
  | loopbackSocket (ip : IP) : cfg.gatewayAuth.mode = .loopbackOnly → addrIP listener = some ip →
      ip.isLoopback = true → Admissible cfg secrets listener peer request

namespace Server

def ProxyEffect.passesGate : ProxyEffect → Bool
  | .denied _ => false
  | _ => true

def Admits (s : Server) (grant : String → Except AdmissionRefusal Nat) (request : Request) : Prop :=
  ∃ effect ∈ s.handleProxy grant request, effect.passesGate = true

theorem admits_iff {s : Server} {grant : String → Except AdmissionRefusal Nat} {request : Request} :
    s.Admits grant request ↔ s.authorize request = none := by
  unfold Admits handleProxy
  cases decision : s.authorize request with
  | some refusal => simp [ProxyEffect.passesGate]
  | none =>
    dsimp only
    split
    · simp [ProxyEffect.passesGate]
    · simp [ProxyEffect.passesGate]

theorem disclosed_iff {s : Server} {available : String → Nat} {request : Request} :
    (s.handleHealth available request).disclosed ≠ none ↔ s.authorize request = none := by
  unfold handleHealth
  by_cases passes : s.authorize request = none <;> simp [passes]

theorem authorize_congr (s : Server) {first second : Request}
    (peer : first.remoteAddr = second.remoteAddr)
    (token : first.header gatewayTokenHeader = second.header gatewayTokenHeader) :
    s.authorize first = s.authorize second := by
  have presented : presentedToken first = presentedToken second := by
    unfold presentedToken Header.get
    rw [token]
  unfold authorize authorizeProxy
  rw [presented, peer]

end Server

/-! ## A provider that does not remember -/

section

variable {secrets : SecretProvider} {asked after : List Bytes}

theorem firstSecret_forgets {refs : List Bytes} {value : Bytes}
    (found : firstSecret (fun _ => secrets) refs asked = some (value, after)) (other : List Bytes) :
    ∃ last, firstSecret (fun _ => secrets) refs other = some (value, last) := by
  induction refs generalizing asked other with
  | nil => cases found
  | cons ref rest ih =>
    unfold firstSecret at found ⊢
    revert found
    rcases (secrets ref).map Bytes.trimSpace with _ | _ | ⟨b, answer⟩
    · exact fun found => ih found _
    · exact fun found => ih found _
    · rintro ⟨⟩
      exact ⟨_, rfl⟩

theorem resolveToken_forgets {ref envName filePath token : Bytes}
    (resolved : resolveToken (fun _ => secrets) ref envName filePath asked = .ok (token, after))
    (other : List Bytes) :
    ∃ last, resolveToken (fun _ => secrets) ref envName filePath other = .ok (token, last) := by
  obtain ⟨value, between, first, checked⟩ := stateful_bind_eq_ok.mp resolved
  obtain ⟨checked, -⟩ := stateful_lift_eq_ok.mp checked
  unfold resolveFirst at first
  split at first
  · cases first
  next sources =>
    split at first
    next found isFound =>
      cases first
      obtain ⟨last, again⟩ := firstSecret_forgets isFound other
      refine ⟨last, stateful_bind_eq_ok.mpr ⟨value, last, ?_, stateful_lift_eq_ok.mpr ⟨checked, rfl⟩⟩⟩
      rw [resolveFirst, if_neg sources, again]
    next => cases first

end

section

variable {fold : CaseFolding} {cfg : Config} {secrets : SecretProvider} {asked after : List Bytes}
  {s running : Server} {listener : NetAddr} {peer : TCPAddr} {request : Request}

theorem authorize_iff_admissible
    (built : newServer fold cfg (fun _ => secrets) asked = .ok (s, after))
    (served : s.serve fold listener = .ok running ∨ s.serveWrapped fold listener = .ok running)
    (arrived : request.remoteAddr = peer.text) :
    running.authorize request = none ↔ Admissible cfg secrets listener peer request := by
  obtain ⟨posture, ⟨before, resolved⟩, _⟩ := newServer_eq_ok built
  obtain ⟨sameAuth, sameToken, socket⟩ := serve_eq_ok served
  have mode : running.proxyAuth = cfg.gatewayAuth.mode := sameAuth.trans posture
  have isLocal : isLoopbackPeer request.remoteAddr = peer.ip.isLoopback := by
    rw [arrived, isLoopbackPeer_text]
  unfold Server.authorize
  rw [authorizeProxy_eq_none, mode, isLocal, sameToken]
  constructor
  · rintro ((isOpen | tokenless) | ⟨exempt, absent, loopback⟩ | ⟨_, presented, same⟩)
    · exact .open isOpen
    · obtain ⟨ip, known, loopback⟩ :=
        boundListenScope_eq_loopbackOnly (socket (posture.trans tokenless))
      exact .loopbackSocket ip tokenless known loopback
    · exact .loopbackPeer exempt absent loopback
    · rcases gatewayToken_eq_ok resolved with ⟨_, known⟩ | ⟨_, unset⟩
      · obtain ⟨last, first⟩ := resolveToken_forgets known []
        exact .token ⟨s.proxyToken, last, first, resolveToken_ne_nil known, same⟩
      · exact absurd (same.trans unset) presented
  · intro admissible
    cases admissible with
    | «open» isOpen => exact .inl (.inl isOpen)
    | loopbackSocket ip tokenless _ _ => exact .inl (.inr tokenless)
    | loopbackPeer exempt absent loopback => exact .inr (.inl ⟨exempt, absent, loopback⟩)
    | token correct =>
      obtain ⟨token, last, known, nonempty, same⟩ := correct
      rcases gatewayToken_eq_ok resolved with ⟨named, held⟩ | ⟨unnamed, _⟩
      · obtain ⟨_, first⟩ := resolveToken_forgets held []
        have equal : token = s.proxyToken :=
          congrArg Prod.fst (Except.ok.inj (known.symm.trans first))
        have tokenMode : cfg.gatewayAuth.mode = .token ∨
            cfg.gatewayAuth.mode = .tokenLoopbackExempt := by
          cases exempt : cfg.gatewayAuth.exemptsLoopback with
          | true | false => simp [GatewayAuthConfig.mode, named, exempt]
        exact .inr (.inr ⟨tokenMode, same ▸ nonempty, same.trans equal⟩)
      · have postures : cfg.gatewayAuth.mode = .open ∨ cfg.gatewayAuth.mode = .loopbackOnly := by
          cases accepted : cfg.gatewayAuth.allowUnauthenticated with
          | true | false => simp [GatewayAuthConfig.mode, unnamed, accepted]
        exact .inl postures

/-- Admission is decided by the token, the TCP peer and the bound socket, no other
part of a request changes the decision, and `/healthz` shows the route table and the
key inventory to exactly the callers that `handleProxy` admits. -/
theorem admission_policy (built : newServer fold cfg (fun _ => secrets) asked = .ok (s, after))
    (served : s.serve fold listener = .ok running ∨ s.serveWrapped fold listener = .ok running)
    (arrived : request.remoteAddr = peer.text) :
    (∀ grant, running.Admits grant request ↔ Admissible cfg secrets listener peer request) ∧
    (∀ other : Request, other.remoteAddr = request.remoteAddr →
      other.header gatewayTokenHeader = request.header gatewayTokenHeader →
      running.authorize other = running.authorize request) ∧
    (∀ available grant (other : Request), other.remoteAddr = request.remoteAddr →
      other.header = request.header →
      ((running.handleHealth available other).disclosed ≠ none ↔ running.Admits grant request)) := by
  refine ⟨?_, ?_, ?_⟩
  · intro grant
    rw [Server.admits_iff, authorize_iff_admissible built served arrived]
  · intro other samePeer sameToken
    exact running.authorize_congr samePeer sameToken
  · intro available grant other samePeer sameHeader
    rw [Server.disclosed_iff, Server.admits_iff,
      running.authorize_congr samePeer (congrFun sameHeader gatewayTokenHeader)]

end

/-- A token gateway on a wildcard socket, and a caller on another host that presents
the token. -/
def tokenConfig : Config where
  gatewayAuth := ⟨lit "GATEWAY_TOKEN", [], [], none, false⟩
  connect := ⟨false, [], [], [], [], 0⟩
  routes := []

def tokenSecrets : SecretProvider := fun ref =>
  if ref = lit "env:GATEWAY_TOKEN" then some (lit "orchid ") else none

def wildcardSocket : NetAddr := .tcp ⟨[0, 0, 0, 0], 14443, []⟩

def remotePeer : TCPAddr := ⟨[203, 0, 113, 9], 50000, []⟩

def tokenRequest : Request where
  method := lit "POST"
  host := lit "gateway:14443"
  urlHost := []
  path := lit "/minimax/v1/models"
  rawQuery := []
  header := Header.empty.set gatewayTokenHeader (lit "orchid")
  remoteAddr := remotePeer.text
  contentLength := 0

theorem admission_policy_remote_token :
    ∃ s asked running,
      newServer asciiFolding tokenConfig (fun _ => tokenSecrets) [] = .ok (s, asked) ∧
      s.serve asciiFolding wildcardSocket = .ok running ∧
      ∀ grant, running.Admits grant tokenRequest := by
  have built : ∃ s asked,
      newServer asciiFolding tokenConfig (fun _ => tokenSecrets) [] = .ok (s, asked) ∧
      ∃ running, s.serve asciiFolding wildcardSocket = .ok running :=
    ⟨_, _, rfl, _, rfl⟩
  obtain ⟨s, asked, built, running, served⟩ := built
  have arrived : tokenRequest.remoteAddr = remotePeer.text := rfl
  have policy := admission_policy built (.inl served) arrived
  refine ⟨s, asked, running, built, served, fun grant => (policy.1 grant).mpr (.token ?_)⟩
  exact ⟨lit "orchid", [lit "env:GATEWAY_TOKEN"], by decide, by decide, by decide⟩

end ClusterRouter.Channel
