import ClusterRouter.Channel.ServerProperties
import ClusterRouter.Channel.Validate

/-! `NewServer` sorts the enabled routes by the length of their prefixes and `match` takes the
first that fits (`internal/channel/server.go`). The sort is not stable, so the order within one
length is left open. -/

set_option autoImplicit false

namespace ClusterRouter.Channel

open Foundation

/-- The order in which a server tries its routes, as far as `sort.Slice` promises it. -/
structure LongestFirst (routes served : List BoundRoute) : Prop where
  perm : served.Perm routes
  sorted : served.Pairwise
    (fun first second => second.route.pathPrefix.length ≤ first.route.pathPrefix.length)

theorem sortRoutes_longestFirst (routes : List BoundRoute) :
    LongestFirst routes (sortRoutes routes) where
  perm := List.mergeSort_perm _ _
  sorted := by
    have ordered : (sortRoutes routes).Pairwise (fun a b =>
        decide (b.route.pathPrefix.length ≤ a.route.pathPrefix.length) = true) :=
      List.pairwise_mergeSort
        (fun a b c => by simpa using fun first second => Nat.le_trans second first)
        (fun a b => by simpa using Nat.le_total _ _) routes
    exact ordered.imp of_decide_eq_true

/-- The route whose prefix of the path is longer than that of any other of the routes. -/
structure LongestPrefix (routes : List Route) (path : Bytes) (r : Route) : Prop where
  member : r ∈ routes
  isPrefix : r.pathPrefix <+: path
  longest : ∀ other ∈ routes, other.pathPrefix <+: path → other ≠ r →
    other.pathPrefix.length < r.pathPrefix.length

instance (routes : List Route) (path : Bytes) (r : Route) : Decidable (LongestPrefix routes path r) :=
  decidable_of_iff (r ∈ routes ∧ r.pathPrefix <+: path ∧
      ∀ other ∈ routes, other.pathPrefix <+: path → other ≠ r →
        other.pathPrefix.length < r.pathPrefix.length)
    ⟨fun ⟨member, starts, longest⟩ => ⟨member, starts, longest⟩,
      fun ⟨member, starts, longest⟩ => ⟨member, starts, longest⟩⟩

def enabledRoutes (routes : List Route) : List Route := routes.filter (fun r => r.enabled)

/-! ## The first match is the longest -/

theorem le_of_find?_eq_some {Item : Type} {accepts : Item → Bool} {size : Item → Nat}
    {items : List Item} (sorted : items.Pairwise (fun first second => size second ≤ size first))
    {found : Item} (isFound : items.find? accepts = some found) {other : Item}
    (member : other ∈ items) (accepted : accepts other = true) : size other ≤ size found := by
  obtain ⟨_, front, back, rfl, rejected⟩ := List.find?_eq_some_iff_append.mp isFound
  rcases List.mem_append.mp member with inFront | inBack
  · have refused := rejected other inFront
    simp [accepted] at refused
  · rcases List.mem_cons.mp inBack with rfl | later
    · exact Nat.le_refl _
    · exact (List.pairwise_cons.mp (List.pairwise_append.mp sorted).2.1).1 other later

theorem eq_of_prefix_length {routes : List Route} (distinct : (routes.map Route.pathPrefix).Nodup)
    {path : Bytes} {r other : Route} (member : r ∈ routes) (otherMember : other ∈ routes)
    (isPrefix : r.pathPrefix <+: path) (otherPrefix : other.pathPrefix <+: path)
    (sameLength : r.pathPrefix.length = other.pathPrefix.length) : r = other := by
  have nested := List.prefix_of_prefix_length_le isPrefix otherPrefix (Nat.le_of_eq sameLength)
  exact List.inj_on_of_nodup_map distinct member otherMember (nested.eq_of_length sameLength)

theorem LongestPrefix.unique {routes : List Route} {path : Bytes} {r other : Route}
    (first : LongestPrefix routes path r) (second : LongestPrefix routes path other) :
    r = other := by
  by_contra different
  have shorter := second.longest r first.member first.isPrefix different
  have longer := first.longest other second.member second.isPrefix (Ne.symm different)
  omega

section Served

variable {routes : List Route} {bound served : List BoundRoute}

theorem mem_routes_iff (same : (bound.map BoundRoute.route).Perm routes)
    (sorted : LongestFirst bound served) {r : Route} :
    r ∈ routes ↔ ∃ rt ∈ served, rt.route = r := by
  rw [← same.mem_iff, List.mem_map]
  exact ⟨fun ⟨rt, member, isRoute⟩ => ⟨rt, sorted.perm.mem_iff.mpr member, isRoute⟩,
    fun ⟨rt, member, isRoute⟩ => ⟨rt, sorted.perm.mem_iff.mp member, isRoute⟩⟩

theorem find?_route_eq_some_iff (distinct : (routes.map Route.pathPrefix).Nodup)
    (same : (bound.map BoundRoute.route).Perm routes) (sorted : LongestFirst bound served)
    (path : Bytes) (r : Route) :
    (served.find? (fun rt => rt.route.pathPrefix.isPrefixOf path)).map BoundRoute.route = some r ↔
      LongestPrefix routes path r := by
  have known := fun {r : Route} => mem_routes_iff same sorted (r := r)
  have firstIsLongest : ∀ {found : BoundRoute},
      served.find? (fun rt => rt.route.pathPrefix.isPrefixOf path) = some found →
        LongestPrefix routes path found.route := by
    intro found isFound
    have starts : found.route.pathPrefix <+: path := by
      simpa using List.find?_some isFound
    have member := known.mpr ⟨found, List.mem_of_find?_eq_some isFound, rfl⟩
    refine ⟨member, starts, ?_⟩
    intro other otherMember otherStarts different
    obtain ⟨rt, among, rfl⟩ := known.mp otherMember
    have bounded := le_of_find?_eq_some sorted.sorted isFound among
      (List.isPrefixOf_iff_prefix.mpr otherStarts)
    have unequal : rt.route.pathPrefix.length ≠ found.route.pathPrefix.length :=
      fun equal => different
        (eq_of_prefix_length distinct otherMember member otherStarts starts equal)
    omega
  cases result : served.find? (fun rt => rt.route.pathPrefix.isPrefixOf path) with
  | none =>
    simp only [Option.map_none, reduceCtorEq, false_iff]
    intro longest
    obtain ⟨rt, among, rfl⟩ := known.mp longest.member
    exact List.find?_eq_none.mp result rt among
      (List.isPrefixOf_iff_prefix.mpr longest.isPrefix)
  | some found =>
    simp only [Option.map_some, Option.some.injEq]
    constructor
    · rintro rfl
      exact firstIsLongest result
    · exact fun longest => (firstIsLongest result).unique longest

theorem find?_route_eq_none_iff (same : (bound.map BoundRoute.route).Perm routes)
    (sorted : LongestFirst bound served) (path : Bytes) :
    served.find? (fun rt => rt.route.pathPrefix.isPrefixOf path) = none ↔
      ∀ r ∈ routes, ¬ r.pathPrefix <+: path := by
  rw [List.find?_eq_none]
  constructor
  · intro rejected r member starts
    obtain ⟨rt, among, rfl⟩ := (mem_routes_iff same sorted).mp member
    exact rejected rt among (List.isPrefixOf_iff_prefix.mpr starts)
  · intro rejected rt among starts
    exact rejected rt.route ((mem_routes_iff same sorted).mpr ⟨rt, among, rfl⟩)
      (List.isPrefixOf_iff_prefix.mp starts)

end Served

theorem newServer_longestFirst {fold : CaseFolding} {cfg : Config} {secrets : SecretDialogue}
    {asked after : List Bytes} {s : Server}
    (built : newServer fold cfg secrets asked = .ok (s, after)) : LongestFirst s.routes s.routes := by
  obtain ⟨bound, sorted, _⟩ := (newServer_eq_ok built).2.2
  rw [sorted]
  exact ⟨List.Perm.refl _, (sortRoutes_longestFirst bound).sorted⟩

/-- In whatever order the routes are configured, and in the order the sort gives them or any
other that it may give equal lengths, a path goes to the enabled route with the longest
prefix of it, and to none exactly where no enabled prefix matches. -/
theorem match_longest_prefix {fold : CaseFolding} {file valid : ConfigFile}
    (accepted : validate fold file = .ok valid) {routes : List Route}
    (permuted : routes.Perm valid.config.routes) {secrets : SecretDialogue} {asked after : List Bytes}
    {s : Server}
    (built : newServer fold { valid.config with routes := routes } secrets asked = .ok (s, after))
    {served : List BoundRoute} (sorted : LongestFirst s.routes served) (path : Bytes) :
    ∀ running ∈ [s, { s with routes := served }],
      (∀ r, ((running.matchRoute path).map BoundRoute.route = some r ↔
          LongestPrefix (enabledRoutes valid.config.routes) path r)) ∧
        (running.matchRoute path = none ↔
          ∀ r ∈ enabledRoutes valid.config.routes, ¬ r.pathPrefix <+: path) := by
  have same : (s.routes.map BoundRoute.route).Perm (enabledRoutes valid.config.routes) :=
    (newServer_route_perm built).trans (permuted.filter _)
  have distinct : ((enabledRoutes valid.config.routes).map Route.pathPrefix).Nodup :=
    (validate_eq_ok accepted).1.prefixes.sublist (List.filter_sublist.map _)
  intro running among
  have order : LongestFirst s.routes running.routes := by
    rcases List.mem_pair.mp among with rfl | rfl
    · exact newServer_longestFirst built
    · exact sorted
  exact ⟨find?_route_eq_some_iff distinct same order path, find?_route_eq_none_iff same order path⟩

def passthroughBlock (name : String) (enabled : Bool) (pathPrefix upstream : Bytes) :
    RouteBlock where
  name := name
  enabled := enabled
  pathPrefix := pathPrefix
  upstream := upstream
  auth := .passthrough
  keyEnv := []
  keyFile := []
  keyRef := []
  keyEnvs := none
  keyFiles := none
  keyRefs := none
  keyHeader := []
  keyPrefix := []
  timeout := 0
  rotation := none

def openaiBlock : RouteBlock :=
  passthroughBlock "openai" true (lit "/openai/") (lit "https://api.openai.com")

def codexBlock (enabled : Bool) : RouteBlock :=
  passthroughBlock "codex" enabled (lit "/openai/codex/") (lit "https://codex.openai.com")

def nestedFile (codexEnabled : Bool) : ConfigFile :=
  loopbackFile [openaiBlock, codexBlock codexEnabled]

def nestedValid (codexEnabled : Bool) : ConfigFile :=
  { nestedFile codexEnabled with
    timeout := defaultTimeout
    routes := (nestedFile codexEnabled).routes.map (fun r => { r with timeout := defaultTimeout }) }

def codexPath : Bytes := lit "/openai/codex/v1"

theorem match_longest_prefix_nested :
    ∃ s, newServer asciiFolding { (nestedValid true).config with
          routes := (nestedValid true).config.routes.reverse } (fun _ _ => none) [] = .ok (s, []) ∧
      (s.matchRoute codexPath).map BoundRoute.route = some (codexBlock true).toRoute := by
  have accepted : validate asciiFolding (nestedFile true) = .ok (nestedValid true) := rfl
  have built : newServer asciiFolding { (nestedValid true).config with
      routes := (nestedValid true).config.routes.reverse } (fun _ _ => none) [] = .ok (_, []) := rfl
  have longest := match_longest_prefix accepted (List.reverse_perm _) built
    (newServer_longestFirst built) codexPath _ List.mem_cons_self
  exact ⟨_, built, (longest.1 _).mpr (by decide)⟩

/-! ## Paths of a disabled route -/

namespace Server.ProxyEffect

/-- `writeNotFound`: the answer is a 404 that lists the enabled routes. -/
def isNotFound : ProxyEffect → Bool
  | .matched _ none => true
  | _ => false

def contactsUpstream : ProxyEffect → Bool
  | .forwarded _ _ => true
  | _ => false

def leasesKey : ProxyEffect → Bool
  | .leased _ => true
  | _ => false

end Server.ProxyEffect

structure AnsweredNotFound (effects : List Server.ProxyEffect) : Prop where
  notFound : ∃ effect ∈ effects, effect.isNotFound = true
  notForwarded : ∀ effect ∈ effects, effect.contactsUpstream = false
  notLeased : ∀ effect ∈ effects, effect.leasesKey = false

theorem forwardEffects_found (request : Request) (rt : BoundRoute) :
    ∀ effect ∈ Server.forwardEffects request rt, effect.isNotFound = false := by
  unfold Server.forwardEffects
  split <;> simp [Server.ProxyEffect.isNotFound]

theorem routeEffects_found (grant : String → Except AdmissionRefusal Nat) (request : Request)
    (rt : BoundRoute) :
    ∀ effect ∈ Server.routeEffects grant request rt, effect.isNotFound = false := by
  unfold Server.routeEffects
  split
  · split
    · simp [Server.ProxyEffect.isNotFound]
    · simp only [List.mem_cons, forall_eq_or_imp]
      exact ⟨rfl, forwardEffects_found request _⟩
  · exact forwardEffects_found request rt

theorem answeredNotFound_handleProxy_iff {s : Server} (grant : String → Except AdmissionRefusal Nat)
    {request : Request} (admitted : s.authorize request = none) :
    AnsweredNotFound (s.handleProxy grant request) ↔ s.matchRoute request.path = none := by
  unfold Server.handleProxy
  rw [admitted]
  dsimp only
  cases s.matchRoute request.path with
  | none =>
    simp only [iff_true]
    constructor <;> simp [Server.ProxyEffect.isNotFound, Server.ProxyEffect.contactsUpstream,
      Server.ProxyEffect.leasesKey]
  | some rt =>
    simp only [reduceCtorEq, iff_false]
    intro answered
    obtain ⟨effect, member, isNotFound⟩ := answered.notFound
    rcases List.mem_cons.mp member with rfl | later
    · cases isNotFound
    · rw [routeEffects_found grant _ rt effect later] at isNotFound
      cases isNotFound

/-- A path whose longest configured prefix belongs to a disabled route is answered with a
404 iff no enabled prefix is a prefix of that one: disabled routes are left out before
the prefixes are compared. Validation plays no part in it. -/
theorem disabled_route_not_found_iff {fold : CaseFolding} {cfg : Config} {secrets : SecretDialogue}
    {asked after : List Bytes} {s : Server}
    (built : newServer fold cfg secrets asked = .ok (s, after)) {running : Server}
    (sorted : LongestFirst s.routes running.routes)
    (grant : String → Except AdmissionRefusal Nat) {request : Request}
    (admitted : running.authorize request = none) {disabled : Route} :
    LongestPrefix cfg.routes request.path disabled → disabled.enabled = false →
      (AnsweredNotFound (running.handleProxy grant request) ↔
        ∀ r ∈ enabledRoutes cfg.routes, ¬ r.pathPrefix <+: disabled.pathPrefix) := by
  intro longest _
  rw [answeredNotFound_handleProxy_iff grant admitted]
  unfold Server.matchRoute
  rw [find?_route_eq_none_iff (newServer_route_perm built) sorted]
  constructor
  · intro unmatched r member inside
    exact unmatched r member (inside.trans longest.isPrefix)
  · intro apart r member starts
    have bounded : r.pathPrefix.length ≤ disabled.pathPrefix.length := by
      by_cases same : r = disabled
      · rw [same]
      · exact Nat.le_of_lt (longest.longest r (List.mem_of_mem_filter member) starts same)
    exact apart r member (List.prefix_of_prefix_length_le starts longest.isPrefix bounded)

def codexRequest : Request where
  method := lit "GET"
  host := lit "127.0.0.1:14443"
  urlHost := []
  path := codexPath
  rawQuery := []
  header := fun _ => []
  remoteAddr := lit "127.0.0.1:50000"
  contentLength := 0

def lonelyFile : ConfigFile := loopbackFile [codexBlock false]

theorem disabled_route_not_found_lonely :
    ∃ s, newServer asciiFolding lonelyFile.config (fun _ _ => none) [] = .ok (s, []) ∧
      AnsweredNotFound (s.handleProxy (fun _ => .error .drained) codexRequest) := by
  have built : newServer asciiFolding lonelyFile.config (fun _ _ => none) [] = .ok (_, []) := rfl
  have answered := disabled_route_not_found_iff built (newServer_longestFirst built)
    (fun _ => .error .drained)
    (show Server.authorize _ codexRequest = none from rfl)
    (show LongestPrefix lonelyFile.config.routes codexRequest.path (codexBlock false).toRoute by decide)
    rfl
  exact ⟨_, built, answered.mpr (by decide)⟩

def openaiServer : Server where
  connect := (nestedValid false).config.connect
  routes := [⟨openaiBlock.toRoute, .passthrough⟩]
  connToken := []
  allowed := []
  proxyAuth := .loopbackOnly
  proxyToken := []
  scope := .unknown

/-- A request under a disabled prefix goes to the upstream of the enabled prefix around it. -/
theorem disabled_route_forwarded :
    validate asciiFolding (nestedFile false) = .ok (nestedValid false) ∧
      newServer asciiFolding (nestedValid false).config (fun _ _ => none) [] =
        .ok (openaiServer, []) ∧
      openaiServer.authorize codexRequest = none ∧
      LongestPrefix (nestedValid false).config.routes codexRequest.path (codexBlock false).toRoute ∧
      (codexBlock false).enabled = false ∧
      ¬ AnsweredNotFound (openaiServer.handleProxy (fun _ => .error .drained) codexRequest) ∧
      ∃ outbound, .forwarded "openai" outbound ∈
          openaiServer.handleProxy (fun _ => .error .drained) codexRequest ∧
        outbound.target = lit "https://api.openai.com/codex/v1" := by
  refine ⟨rfl, by decide +kernel, rfl, by decide, rfl, ?_, ?_⟩
  · rw [answeredNotFound_handleProxy_iff _ rfl]
    decide
  · exact ⟨_, List.mem_cons_of_mem _ List.mem_cons_self, rfl⟩

end ClusterRouter.Channel
