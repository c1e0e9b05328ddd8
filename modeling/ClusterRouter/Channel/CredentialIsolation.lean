import ClusterRouter.Channel.RouteConfig
import ClusterRouter.Channel.ServerProperties

/-! A two-run property of `handleProxy`: on a route whose credential the server holds, requests
that differ in what the caller sent as a credential are the same request to the upstream. The
gateway token is deleted after admission, `Forward` drops the deny set and the route's key
header, and the authenticator overwrites what is left. -/

set_option autoImplicit false

namespace ClusterRouter.Channel

open Foundation

/-- The names of caller credentials on a route and of the gateway token, in any letter
case. -/
def callerSupplied (route : Route) (name : Bytes) : Bool :=
  callerCredentialHeaders.any (fun deny => Bytes.equalFold name deny) ||
    Bytes.equalFold name route.keyHeader || Bytes.equalFold name gatewayTokenHeader.text

def SameButCredentials (route : Route) (first second : List (Bytes × Bytes)) : Prop :=
  first.filter (fun line => !callerSupplied route line.1) =
    second.filter (fun line => !callerSupplied route line.1)

/-- The key the server holds for a request: the route's own, or the leased one of its
pool. -/
def serverKey (rt : BoundRoute) (granted : Except AdmissionRefusal Nat) : Option Bytes :=
  match rt.auth with
  | .bearerInjector key => some key
  | .leasedInjector key _ _ _ => some key
  | .rotatingInjector keys _ _ _ =>
    match granted with
    | .ok index => keys[index]?
    | .error _ => none
  | .passthrough => none

/-- Of all headers a credential can travel in, the outbound map holds the one the
server writes, with the key the server holds. -/
def OnlyServerKey (rt : BoundRoute) (granted : Except AdmissionRefusal Nat) (out : Header) : Prop :=
  ∃ key, serverKey rt granted = some key ∧
    ∀ name : HeaderName, callerSupplied rt.route name.text = true →
      out name =
        if HeaderName.parse (credentialHeader rt.route) = some name then
          [credentialPrefix rt.route ++ key]
        else []

/-! ## Names -/

theorem equalFold_trans_left {a b c : Bytes} (folded : a.map Bytes.toLower = b.map Bytes.toLower) :
    Bytes.equalFold a c = Bytes.equalFold b c := by
  unfold Bytes.equalFold
  rw [folded]

theorem callerSupplied_congr {route : Route} {a b : Bytes}
    (folded : a.map Bytes.toLower = b.map Bytes.toLower) :
    callerSupplied route a = callerSupplied route b := by
  unfold callerSupplied
  simp only [equalFold_trans_left folded]

variable {rt : BoundRoute} {name : HeaderName} {inbound out : Header} {secrets : SecretDialogue}
  {asked after : List Bytes}
    {auth : Authenticator} {granted : Except AdmissionRefusal Nat}

theorem isDropped_of_callerSupplied (held : modesSupplyingTheirOwnCredential rt.auth.mode = false)
    (supplied : callerSupplied rt.route name.text = true) :
    isDropped rt name = true ∨ name = gatewayTokenHeader := by
  unfold callerSupplied at supplied
  simp only [Bool.or_eq_true] at supplied
  rcases supplied with (denied | keyed) | token
  · left
    simp [isDropped, held, isCallerCredential, denied]
  · left
    have token : isToken rt.route.keyHeader = true := by
      have folded := of_decide_eq_true keyed
      rw [← isToken_canonicalBytes, ← canonicalBytes_map_toLower, ← folded,
        canonicalBytes_map_toLower, isToken_canonicalBytes]
      exact name.token
    have nonempty : rt.route.keyHeader ≠ [] := by
      intro empty
      rw [empty] at token
      cases token
    simp [isDropped, held, isCallerCredential, trimSpace_of_isToken token, nonempty, keyed]
  · right
    exact (HeaderName.equalFold_iff gatewayTokenHeader.parse_text).mp token

theorem SameButCredentials.agree {route : Route} {first second : List (Bytes × Bytes)}
    {firstHeader secondHeader : Header} (same : SameButCredentials route first second)
    (readFirst : Header.ofLines first = some firstHeader)
    (readSecond : Header.ofLines second = some secondHeader)
    (other : callerSupplied route name.text = false) : firstHeader name = secondHeader name := by
  have keep (lines : List (Bytes × Bytes)) :
      lines.filter (fun line => decide (HeaderName.parse line.1 = some name)) =
        (lines.filter (fun line => !callerSupplied route line.1)).filter
          (fun line => decide (HeaderName.parse line.1 = some name)) := by
    rw [List.filter_filter]
    apply List.filter_congr
    intro line _
    by_cases spelled : HeaderName.parse line.1 = some name
    · have folded : line.1.map Bytes.toLower = name.text.map Bytes.toLower := by
        rw [(HeaderName.parse_eq_some spelled).2, map_toLower_canonicalBytes]
      simp [spelled, callerSupplied_congr folded, other]
    · simp [spelled]
  rw [Header.ofLines_apply readFirst, Header.ofLines_apply readSecond, keep first, keep second, same]

/-! ## The copy loop -/

theorem modesSupplyingTheirOwnCredential_of_held {mode : AuthMode} (held : mode ≠ .passthrough) :
    modesSupplyingTheirOwnCredential mode = false := by
  cases mode with
  | inject => rfl
  | header => rfl
  | passthrough => exact absurd rfl held

theorem copyHeaders_congr {first second : Header}
    (held : modesSupplyingTheirOwnCredential rt.auth.mode = false)
    (agree : ∀ name : HeaderName, callerSupplied rt.route name.text = false →
      first name = second name) :
    copyHeaders rt (first.del gatewayTokenHeader) = copyHeaders rt (second.del gatewayTokenHeader) := by
  unfold copyHeaders
  congr 1
  funext name
  cases dropped : isDropped rt name with
  | true => rfl
  | false =>
    simp only [Bool.false_eq_true, if_false]
    by_cases token : name = gatewayTokenHeader
    · rw [token, Header.del_same, Header.del_same]
    · rw [Header.del_other token, Header.del_other token]
      apply agree
      rw [Bool.eq_false_iff]
      intro supplied
      rcases isDropped_of_callerSupplied held supplied with gone | same
      · rw [dropped] at gone
        cases gone
      · exact token same

/-- What the copy loop leaves under a name the caller supplies credentials with:
nothing, unless the route's key header is the one the forwarder itself writes. -/
theorem copyHeaders_callerSupplied (held : modesSupplyingTheirOwnCredential rt.auth.mode = false)
    (supplied : callerSupplied rt.route name.text = true) (other : name ≠ userAgent) :
    copyHeaders rt (inbound.del gatewayTokenHeader) name = [] := by
  unfold copyHeaders
  rw [Header.set_other other]
  rcases isDropped_of_callerSupplied held supplied with dropped | rfl
  · rw [if_pos dropped]
  · rw [Header.del_same, ite_self]

/-! ## Writing the server's key -/

/-- An authenticator that writes one key of the server where its route says. -/
inductive Injects (r : Route) (key : Bytes) : Authenticator → Prop where
  | bearer : r.auth = .inject → Injects r key (.bearerInjector key)
  | leased (mode : AuthMode) :
      Injects r key (.leasedInjector key (credentialHeader r) (credentialPrefix r) mode)

theorem leaseFor_injects (built : newAuthenticatorFor rt.route secrets asked = .ok (rt.auth, after))
    (held : rt.route.auth ≠ .passthrough) (leased : rt.auth.leaseFor granted = .ok auth) :
    ∃ key, serverKey rt granted = some key ∧ Injects rt.route key auth ∧
      auth.mode = rt.route.auth := by
  rcases newAuthenticatorFor_cases built with ⟨mode, _⟩ | ⟨mode, key, known⟩ | ⟨mode, key, known⟩ |
    ⟨_, keys, known⟩
  · exact absurd mode held
  · rw [known] at leased
    cases leased
    exact ⟨key, by rw [serverKey, known], .bearer mode, mode.symm⟩
  · rw [known] at leased
    cases leased
    exact ⟨key, by rw [serverKey, known], .leased _, mode.symm⟩
  · rw [known] at leased
    unfold Authenticator.leaseFor at leased
    dsimp only at leased
    split at leased
    · cases leased
    next index =>
      split at leased
      next key found =>
        cases leased
        exact ⟨key, by rw [serverKey, known]; exact found, .leased _, rfl⟩
      next => cases leased

theorem Injects.apply_empty {r : Route} {key : Bytes} {copied : Header}
    (injects : Injects r key auth) (token : isToken (credentialHeader r) = true)
    (applied : auth.apply copied = .ok out)
    (empty : HeaderName.parse (credentialHeader r) ≠ some name → copied name = []) :
    out name =
      if HeaderName.parse (credentialHeader r) = some name then [credentialPrefix r ++ key] else [] := by
  cases injects with
  | bearer mode =>
    have spelled : HeaderName.parse (credentialHeader r) = some Authenticator.authorization := by
      unfold credentialHeader
      rw [if_neg (by rw [mode]; decide)]
      decide
    have front : credentialPrefix r = bearerPrefix := by
      simp [credentialPrefix, mode]
    unfold Authenticator.apply at applied
    dsimp only at applied
    split at applied
    · cases applied
    · cases applied
      rw [front]
      by_cases same : Authenticator.authorization = name
      · subst same
        rw [if_pos spelled, Header.set_same]
      · have other : HeaderName.parse (credentialHeader r) ≠ some name := by
          rw [spelled]
          exact fun equal => same (Option.some.inj equal)
        rw [if_neg other, Header.set_other (Ne.symm same), empty other]
  | leased mode =>
    have nonempty : credentialHeader r ≠ [] := by
      intro unset
      rw [unset] at token
      cases token
    unfold Authenticator.apply at applied
    dsimp only at applied
    rw [if_neg nonempty] at applied
    split at applied
    · cases applied
    · unfold Authenticator.setHeader at applied
      split at applied
      next written spelled =>
        cases applied
        by_cases same : written = name
        · subst same
          rw [if_pos spelled, Header.set_same]
        · have other : HeaderName.parse (credentialHeader r) ≠ some name := by
            rw [spelled]
            exact fun equal => same (Option.some.inj equal)
          rw [if_neg other, Header.set_other (Ne.symm same)]
          split
          · exact empty other
          · by_cases auth : name = Authenticator.authorization
            · rw [auth, Header.del_same]
            · rw [Header.del_other auth, empty other]
      next => cases applied

/-- The forwarder's own `User-Agent` is a caller credential only where the route's key
header says so, and there the key is written over it. -/
theorem credentialHeader_userAgent {r : Route} (valid : validateAuthMode r = .ok ())
    (supplied : callerSupplied r userAgent.text = true) :
    HeaderName.parse (credentialHeader r) = some userAgent := by
  have keyed : Bytes.equalFold userAgent.text r.keyHeader = true := by
    have fixed : (callerCredentialHeaders.any (fun deny => Bytes.equalFold userAgent.text deny)) =
        false := by decide
    have token : Bytes.equalFold userAgent.text gatewayTokenHeader.text = false := by decide
    simpa [callerSupplied, fixed, token] using supplied
  have set : r.keyHeader ≠ [] := by
    intro empty
    rw [empty] at keyed
    cases keyed
  have mode : r.auth = .header := by
    by_cases header : r.auth = .header
    · exact header
    · exact absurd (validateAuthMode_keyHeader valid header) set
  have named : credentialHeader r = r.keyHeader := by simp [credentialHeader, mode]
  have token : isToken r.keyHeader = true := by
    rw [← named]
    exact validateAuthMode_credentialHeader valid (by rw [mode]; decide)
  cases spelled : HeaderName.parse r.keyHeader with
  | none => simp [HeaderName.parse, token] at spelled
  | some name =>
    rw [named, spelled, (HeaderName.equalFold_iff spelled).mp keyed]

/-! ## The handler -/

namespace Server

private theorem leaseFor_single {auth : Authenticator} {granted : Except AdmissionRefusal Nat}
    (single : ∀ keys mode header keyPrefix,
      auth = .rotatingInjector keys mode header keyPrefix → False) :
    auth.leaseFor granted = .ok auth := by
  unfold Authenticator.leaseFor
  split
  next keys mode header keyPrefix => exact (single keys mode header keyPrefix rfl).elim
  · rfl

theorem routeEffects_eq (grant : String → Except AdmissionRefusal Nat) (request : Request)
    (rt : BoundRoute) {outbound : Outbound} {name : String}
    (sent : ProxyEffect.forwarded name outbound ∈ routeEffects grant request rt) :
    ∃ auth, rt.auth.leaseFor (grant rt.route.name) = .ok auth ∧
      auth.apply (copyHeaders ⟨rt.route, auth⟩ request.header) = .ok outbound.header := by
  have direct {auth : Authenticator}
      (among : ProxyEffect.forwarded name outbound ∈ forwardEffects request ⟨rt.route, auth⟩) :
      auth.apply (copyHeaders ⟨rt.route, auth⟩ request.header) = .ok outbound.header := by
    unfold forwardEffects at among
    split at among
    next sent made =>
      rw [List.mem_singleton] at among
      cases among
      unfold forward at made
      dsimp only at made
      cases applied : auth.apply (copyHeaders ⟨rt.route, auth⟩ request.header) with
      | error error =>
        rw [applied] at made
        cases made
      | ok header =>
        rw [applied] at made
        cases made
        rfl
    next =>
      rw [List.mem_singleton] at among
      cases among
  unfold routeEffects at sent
  split at sent
  · split at sent
    · rw [List.mem_singleton] at sent
      cases sent
    next auth leased =>
      rcases List.mem_cons.mp sent with impossible | among
      · cases impossible
      · exact ⟨auth, leased, direct among⟩
  next single =>
    exact ⟨rt.auth, leaseFor_single single, direct sent⟩

theorem handleProxy_forwarded {s : Server} {grant : String → Except AdmissionRefusal Nat}
    {request : Request} {rt : BoundRoute} (matched : s.matchRoute request.path = some rt)
    {outbound : Outbound} {name : String}
    (sent : ProxyEffect.forwarded name outbound ∈ s.handleProxy grant request) :
    ∃ auth, rt.auth.leaseFor (grant rt.route.name) = .ok auth ∧
      auth.apply (copyHeaders ⟨rt.route, auth⟩ (request.header.del gatewayTokenHeader)) =
        .ok outbound.header := by
  unfold handleProxy at sent
  split at sent
  · rw [List.mem_singleton] at sent
    cases sent
  · dsimp only at sent
    rw [matched] at sent
    rcases List.mem_cons.mp sent with impossible | among
    · cases impossible
    · exact routeEffects_eq grant _ rt among

theorem handleProxy_congr {s : Server} {grant : String → Except AdmissionRefusal Nat}
    {request : Request} {rt : BoundRoute} {first second : Header}
    (matched : s.matchRoute request.path = some rt)
    (admittedFirst : s.authorize { request with header := first } = none)
    (admittedSecond : s.authorize { request with header := second } = none)
    (same : ∀ auth, rt.auth.leaseFor (grant rt.route.name) = .ok auth →
      copyHeaders ⟨rt.route, auth⟩ (first.del gatewayTokenHeader) =
        copyHeaders ⟨rt.route, auth⟩ (second.del gatewayTokenHeader)) :
    s.handleProxy grant { request with header := first } =
      s.handleProxy grant { request with header := second } := by
  have direct {auth : Authenticator} (leased : rt.auth.leaseFor (grant rt.route.name) = .ok auth) :
      forwardEffects { request with header := first.del gatewayTokenHeader } ⟨rt.route, auth⟩ =
        forwardEffects { request with header := second.del gatewayTokenHeader } ⟨rt.route, auth⟩ := by
    unfold forwardEffects forward
    rw [same auth leased]
    rfl
  unfold handleProxy
  rw [admittedFirst, admittedSecond]
  dsimp only
  rw [matched]
  dsimp only
  congr 1
  unfold routeEffects
  split
  · split
    · rfl
    next auth leased => rw [direct leased]
  next single => exact direct (leaseFor_single single)

end Server

theorem onlyServerKey_of_forwarded (valid : validateAuthMode rt.route = .ok ())
    (held : rt.route.auth ≠ .passthrough)
    (built : newAuthenticatorFor rt.route secrets asked = .ok (rt.auth, after))
    (leased : rt.auth.leaseFor granted = .ok auth)
    (applied : auth.apply (copyHeaders ⟨rt.route, auth⟩ (inbound.del gatewayTokenHeader)) = .ok out) :
    OnlyServerKey rt granted out := by
  obtain ⟨key, known, injects, mode⟩ := leaseFor_injects built held leased
  have serverHeld := modesSupplyingTheirOwnCredential_of_held (mode ▸ held)
  refine ⟨key, known, ?_⟩
  intro name supplied
  apply injects.apply_empty (validateAuthMode_credentialHeader valid held) applied
  intro unwritten
  by_cases own : name = userAgent
  · subst own
    exact absurd (credentialHeader_userAgent valid supplied) unwritten
  · exact copyHeaders_callerSupplied serverHeld supplied own

theorem gatewayToken_absent (valid : validateAuthMode rt.route = .ok ())
    (built : newAuthenticatorFor rt.route secrets asked = .ok (rt.auth, after))
    (leased : rt.auth.leaseFor granted = .ok auth)
    (applied : auth.apply (copyHeaders ⟨rt.route, auth⟩ (inbound.del gatewayTokenHeader)) = .ok out) :
    out gatewayTokenHeader = [] ∨
      Bytes.equalFold gatewayTokenHeader.text rt.route.keyHeader = true := by
  by_cases passes : rt.route.auth = .passthrough
  · left
    rcases newAuthenticatorFor_cases built with ⟨_, known⟩ | ⟨mode, _⟩ | ⟨mode, _⟩ | ⟨held, _⟩
    · rw [known] at leased
      cases leased
      cases applied
      have other : gatewayTokenHeader ≠ userAgent := by decide
      unfold copyHeaders
      rw [Header.set_other other, Header.del_same, ite_self]
    · rw [passes] at mode
      cases mode
    · rw [passes] at mode
      cases mode
    · exact absurd passes held
  · obtain ⟨key, _, only⟩ := onlyServerKey_of_forwarded valid passes built leased applied
    have value := only gatewayTokenHeader (by simp [callerSupplied, Bytes.equalFold])
    by_cases written : HeaderName.parse (credentialHeader rt.route) = some gatewayTokenHeader
    · right
      have folded := (HeaderName.equalFold_iff written).mpr rfl
      unfold credentialHeader at folded
      split at folded
      · exact folded
      · exact absurd folded (by decide)
    · left
      rw [value, if_neg written]

/-- On a route whose credential the server holds, requests that differ in caller
credentials only have the same effects, down to the outbound header map, and the only
credential in that map is the server's. On every route the gateway token stays
behind, unless it is the route's key header. -/
theorem caller_credentials_stay_behind {fold : CaseFolding} {cfg : Config}
    {secrets : SecretDialogue} {asked after : List Bytes} {s : Server}
    (valid : ∀ r ∈ cfg.routes, validateAuthMode r = .ok ())
    (built : newServer fold cfg secrets asked = .ok (s, after))
    {request : Request} {rt : BoundRoute} (matched : s.matchRoute request.path = some rt)
    (grant : String → Except AdmissionRefusal Nat) :
    (rt.route.auth ≠ .passthrough →
      ∀ first second firstHeader secondHeader,
        Header.ofLines first = some firstHeader → Header.ofLines second = some secondHeader →
        SameButCredentials rt.route first second →
        s.authorize { request with header := firstHeader } = none →
        s.authorize { request with header := secondHeader } = none →
        s.handleProxy grant { request with header := firstHeader } =
          s.handleProxy grant { request with header := secondHeader }) ∧
    (∀ name outbound, Server.ProxyEffect.forwarded name outbound ∈ s.handleProxy grant request →
      (rt.route.auth ≠ .passthrough → OnlyServerKey rt (grant rt.route.name) outbound.header) ∧
      (outbound.header gatewayTokenHeader = [] ∨
        Bytes.equalFold gatewayTokenHeader.text rt.route.keyHeader = true)) := by
  obtain ⟨enabled, here, there, authenticated⟩ :=
    newServer_routes built (List.mem_of_find?_eq_some matched)
  have routeValid := valid rt.route (List.mem_filter.mp enabled).1
  constructor
  · intro held first second firstHeader secondHeader readFirst readSecond same admittedFirst
      admittedSecond
    apply Server.handleProxy_congr matched admittedFirst admittedSecond
    intro auth leased
    obtain ⟨key, _, _, mode⟩ := leaseFor_injects authenticated held leased
    apply copyHeaders_congr (modesSupplyingTheirOwnCredential_of_held (mode ▸ held))
    intro name other
    exact same.agree readFirst readSecond other
  · intro name outbound sent
    obtain ⟨auth, leased, applied⟩ := Server.handleProxy_forwarded matched sent
    exact ⟨fun held => onlyServerKey_of_forwarded routeValid held authenticated leased applied,
      gatewayToken_absent routeValid authenticated leased applied⟩

def pooledRoute : Route where
  name := "exa"
  enabled := true
  pathPrefix := lit "/exa/"
  upstream := lit "https://api.exa.ai"
  auth := .header
  keyEnv := []
  keyFile := []
  keyRef := []
  keyEnvs := some [lit "EXA_ONE", lit "EXA_TWO"]
  keyFiles := none
  keyRefs := none
  keyHeader := lit "x-api-key"
  keyPrefix := []

def pooledConfig : Config where
  gatewayAuth := ⟨[], [], [], none, true⟩
  connect := ⟨false, [], [], [], [], 0⟩
  routes := [pooledRoute]

def pooledSecrets : SecretDialogue := fun _ ref => some (lit "key of " ++ ref)

def pooledServer : Server where
  connect := pooledConfig.connect
  routes := [⟨pooledRoute, .rotatingInjector [lit "key of env:EXA_ONE", lit "key of env:EXA_TWO"]
    .header (lit "x-api-key") []⟩]
  connToken := []
  allowed := []
  proxyAuth := .open
  proxyToken := []
  scope := .unknown

def searchRequest (header : Header) : Request where
  method := lit "POST"
  host := lit "gateway"
  urlHost := []
  path := lit "/exa/search"
  rawQuery := []
  header := header
  remoteAddr := lit "127.0.0.1:5000"
  contentLength := 0

def anonymousLines : List (Bytes × Bytes) := [(lit "accept", lit "application/json")]

def credentialLines : List (Bytes × Bytes) :=
  [(lit "X-API-KEY", lit "mine"), (lit "accept", lit "application/json"),
    (lit "authorization", lit "Bearer mine"), (lit "x-hlxn-token", lit "stale")]

theorem caller_credentials_stay_behind_pooled :
    ∃ first second, Header.ofLines anonymousLines = some first ∧
      Header.ofLines credentialLines = some second ∧
      pooledServer.handleProxy (fun _ => .ok 1) (searchRequest first) =
        pooledServer.handleProxy (fun _ => .ok 1) (searchRequest second) ∧
      (pooledServer.handleProxy (fun _ => .ok 1) (searchRequest second)).length = 3 := by
  have valid : ∀ r ∈ pooledConfig.routes, validateAuthMode r = .ok () := by decide
  have built : newServer asciiFolding pooledConfig pooledSecrets [] =
      .ok (pooledServer, [lit "env:EXA_ONE", lit "env:EXA_TWO"]) := by decide +kernel
  obtain ⟨first, readFirst⟩ : ∃ first, Header.ofLines anonymousLines = some first := ⟨_, rfl⟩
  obtain ⟨second, readSecond⟩ : ∃ second, Header.ofLines credentialLines = some second := ⟨_, rfl⟩
  have matched : pooledServer.matchRoute (searchRequest first).path = some pooledServer.routes[0] :=
    rfl
  have isolated := caller_credentials_stay_behind valid built matched (fun _ => .ok 1)
  exact ⟨first, second, readFirst, readSecond,
    isolated.1 (by decide) anonymousLines credentialLines first second readFirst readSecond
      (by unfold SameButCredentials; decide) rfl rfl, rfl⟩

end ClusterRouter.Channel
