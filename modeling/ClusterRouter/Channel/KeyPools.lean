import ClusterRouter.Channel.Audit
import ClusterRouter.Channel.CredentialIsolation
import ClusterRouter.Channel.Validate

/-! A pool is resolved once: one key for each declared slot, in their order (`resolveKeyPool`).
An index that the store of a route leases is an index of its pool, and the key there goes
upstream. -/

set_option autoImplicit false

namespace ClusterRouter.Channel

open Foundation

/-! ## Resolving a pool -/

def declaredKeyCount (r : Route) : Nat :=
  (r.keyEnvs.getD []).length + (r.keyFiles.getD []).length + (r.keyRefs.getD []).length

@[simp] theorem length_keySlots (r : Route) : (keySlots r).length = declaredKeyCount r := by
  simp [keySlots, declaredKeyCount, Nat.add_assoc]

variable {secrets : SecretDialogue} {asked after keys : List Bytes} {r : Route} {rt : BoundRoute}

theorem resolveSlot_eq_ok {ref key : Bytes}
    (resolved : resolveSlot secrets ref asked = .ok (key, after)) :
    ∃ value, secrets asked ref = some value ∧ Bytes.trimSpace value ≠ [] ∧
      key = Bytes.trimSpace value ∧ after = asked ++ [ref] := by
  unfold resolveSlot at resolved
  split at resolved
  · cases resolved
  next value answered =>
    split at resolved
    · cases resolved
    next nonblank =>
      cases resolved
      exact ⟨value, answered, nonblank, rfl, rfl⟩

theorem resolveSlots_eq_ok {refs : List Bytes}
    (resolved : refs.mapM (resolveSlot secrets) asked = .ok (keys, after)) :
    keys.length = refs.length ∧ (∀ key ∈ keys, key ≠ [] ∧ Bytes.trimSpace key = key) ∧
      ∀ (position : Nat) (ref : Bytes), refs[position]? = some ref →
        ∃ value, secrets (asked ++ refs.take position) ref = some value ∧
          keys[position]? = some (Bytes.trimSpace value) := by
  induction refs generalizing asked keys with
  | nil =>
    cases resolved
    simp
  | cons first rest ih =>
    rw [List.mapM_cons] at resolved
    obtain ⟨head, between, isHead, resolved⟩ := stateful_bind_eq_ok.mp resolved
    obtain ⟨tail, last, isTail, resolved⟩ := stateful_bind_eq_ok.mp resolved
    cases resolved
    obtain ⟨value, answered, nonblank, rfl, rfl⟩ := resolveSlot_eq_ok isHead
    obtain ⟨count, trimmed, slots⟩ := ih isTail
    refine ⟨by simp [count], ?_, ?_⟩
    · intro key member
      rcases List.mem_cons.mp member with rfl | among
      · exact ⟨nonblank, Bytes.trimSpace_trimSpace value⟩
      · exact trimmed key among
    · intro position ref here
      cases position with
      | zero =>
        cases here
        exact ⟨value, by simpa using answered, rfl⟩
      | succ position =>
        obtain ⟨later, known, kept⟩ := slots position ref here
        exact ⟨later, by simpa using known, kept⟩

theorem nodup_of_rejectDuplicateCredentials (passed : rejectDuplicateCredentials keys = .ok ()) :
    keys.Nodup := by
  unfold rejectDuplicateCredentials at passed
  split at passed
  next apart =>
    refine List.pairwise_iff_getElem.mpr fun i j hi hj earlier same => ?_
    have fresh := List.find?_eq_none.mp apart j (List.mem_range.mpr hj)
    apply fresh
    rw [List.getD_eq_getElem _ _ hj, ← same, decide_eq_true_eq]
    exact List.mem_take_iff_getElem.mpr ⟨i, by omega, rfl⟩
  next => cases passed

/-- The pool of a route that was resolved after `asked`: one key for each slot, the
answer to its reference trimmed, none of them blank and no two of them the same. -/
structure DeclaredPool (secrets : SecretDialogue) (asked : List Bytes) (r : Route)
    (keys : List Bytes) : Prop where
  count : keys.length = declaredKeyCount r
  slots : ∀ (position : Nat) (ref : Bytes), (keySlots r)[position]? = some ref →
    ∃ value, secrets (asked ++ (keySlots r).take position) ref = some value ∧
      keys[position]? = some (Bytes.trimSpace value)
  trimmed : ∀ key ∈ keys, key ≠ [] ∧ Bytes.trimSpace key = key
  distinct : keys.Nodup

theorem checkKeyPool_eq_ok {checked : List Bytes} (passed : checkKeyPool keys = .ok checked) :
    checked = keys ∧ keys.Nodup := by
  unfold checkKeyPool at passed
  split at passed
  · cases passed
  · obtain ⟨_, unique, passed⟩ := bind_eq_ok.mp passed
    cases passed
    exact ⟨rfl, nodup_of_rejectDuplicateCredentials unique⟩

theorem resolveKeyPool_eq_ok (resolved : resolveKeyPool r secrets asked = .ok (keys, after)) :
    DeclaredPool secrets asked r keys := by
  obtain ⟨found, between, slots, checked⟩ := stateful_bind_eq_ok.mp resolved
  obtain ⟨checked, -⟩ := stateful_lift_eq_ok.mp checked
  obtain ⟨rfl, unique⟩ := checkKeyPool_eq_ok checked
  obtain ⟨count, trimmed, each⟩ := resolveSlots_eq_ok slots
  exact ⟨count.trans (length_keySlots r), each, trimmed, unique⟩

/-! ## The pools of a server -/

theorem newAuthenticatorFor_pooled {auth : Authenticator}
    (resolved : newAuthenticatorFor r secrets asked = .ok (auth, after))
    (held : r.auth ≠ .passthrough) (pooled : hasPluralKeys r = true) :
    ∃ keys, auth = .rotatingInjector keys r.auth (credentialHeader r) (credentialPrefix r) ∧
      DeclaredPool secrets asked r keys := by
  unfold newAuthenticatorFor at resolved
  rw [if_neg held, if_pos pooled] at resolved
  obtain ⟨keys, between, pool, resolved⟩ := stateful_bind_eq_ok.mp resolved
  cases resolved
  exact ⟨keys, rfl, resolveKeyPool_eq_ok pool⟩

theorem ValidRoute.held_of_pooled (valid : ValidRoute r) (pooled : hasPluralKeys r = true) :
    r.auth ≠ .passthrough := by
  intro mode
  have accepted := valid.authMode
  unfold validateAuthMode at accepted
  split at accepted
  · cases accepted
  split at accepted
  · cases accepted
  · rw [mode] at accepted
    simp [pooled] at accepted

/-! ## The store of a pooled route -/

def RotationBlock.zero : RotationBlock where
  policy := []
  budget := { window := 0, tokens := 0, requests := 0, softRatio := .finite 0, estimateTokens := 0 }
  maxRetryAfter := 0

/-- What `newRotationStore` reads of a route; a policy without a name is `round_robin`. -/
def RouteBlock.pooled (r : RouteBlock) : PooledRoute :=
  let rot := r.rotation.getD .zero
  { keys := declaredKeyCount r.toRoute
    policy := (policyNamed rot.policy).getD .roundRobin
    budget := rot.budget
    maxRetryAfter := rot.maxRetryAfter }

/-- The stores that `NewServer` makes, by the names of their routes. -/
def ConfigFile.pooledRoutes (c : ConfigFile) (name : String) : Option PooledRoute :=
  (c.routes.find? (fun r => r.enabled && hasPluralKeys r.toRoute && decide (r.name = name))).map
    RouteBlock.pooled

theorem ConfigFile.pooledRoutes_eq_some {c : ConfigFile}
    (names : (c.config.routes.map Route.name).Nodup) {r : RouteBlock} (member : r ∈ c.routes)
    (enabled : r.enabled = true) (pooled : hasPluralKeys r.toRoute = true) :
    c.pooledRoutes r.name = some r.pooled := by
  unfold ConfigFile.pooledRoutes
  cases found : c.routes.find?
      (fun other => other.enabled && hasPluralKeys other.toRoute && decide (other.name = r.name)) with
  | none =>
    have missed := List.find?_eq_none.mp found r member
    simp [enabled, pooled] at missed
  | some other =>
    have named : other.name = r.name := by
      have chosen := List.find?_some found
      simp only [Bool.and_eq_true, decide_eq_true_eq] at chosen
      exact chosen.2
    have names : (c.routes.map (fun r => r.name)).Nodup := by
      simpa [ConfigFile.config, Function.comp_def] using names
    rw [List.inj_on_of_nodup_map names (List.mem_of_find?_eq_some found) member named]
    rfl

/-! ## Leases -/

/-- A request that is leased the key at `index` is given an injector of that key, and
what it sends upstream carries the key. -/
def CarriesKey (rt : BoundRoute) (keys : List Bytes) (index : Nat) : Prop :=
  ∃ key auth, keys[index]? = some key ∧ rt.auth.leaseFor (.ok index) = .ok auth ∧
    ∀ request, ∃ outbound name, forward request ⟨rt.route, auth⟩ = .ok outbound ∧
      HeaderName.parse (credentialHeader rt.route) = some name ∧
      outbound.header name = [credentialPrefix rt.route ++ key]

theorem forward_leased {key : Bytes} {mode : AuthMode} {name : HeaderName} (nonblank : key ≠ [])
    (spelled : HeaderName.parse (credentialHeader r) = some name) (request : Request) :
    ∃ outbound, forward request
        ⟨r, .leasedInjector key (credentialHeader r) (credentialPrefix r) mode⟩ = .ok outbound ∧
      outbound.header name = [credentialPrefix r ++ key] := by
  have named : credentialHeader r ≠ [] := by
    intro empty
    rw [empty] at spelled
    cases spelled
  unfold forward Authenticator.apply
  dsimp only
  rw [if_neg nonblank, if_neg named]
  unfold Authenticator.setHeader
  rw [spelled]
  exact ⟨_, rfl, Header.set_same _ _ _⟩

theorem carriesKey_of_lt {index : Nat}
    (injector : rt.auth =
      .rotatingInjector keys rt.route.auth (credentialHeader rt.route) (credentialPrefix rt.route))
    (token : isToken (credentialHeader rt.route) = true)
    (trimmed : ∀ key ∈ keys, key ≠ [] ∧ Bytes.trimSpace key = key) (inRange : index < keys.length) :
    CarriesKey rt keys index := by
  have here : keys[index]? = some keys[index] := List.getElem?_eq_getElem inRange
  have nonblank : keys[index] ≠ [] := (trimmed _ (List.getElem_mem inRange)).1
  obtain ⟨name, spelled⟩ := HeaderName.parse_of_isToken token
  refine ⟨keys[index], .leasedInjector keys[index] (credentialHeader rt.route)
    (credentialPrefix rt.route) rt.route.auth, here, ?_, ?_⟩
  · rw [injector]
    unfold Authenticator.leaseFor
    dsimp only
    rw [here]
  · intro request
    obtain ⟨outbound, sent, carried⟩ := forward_leased nonblank spelled request
    exact ⟨outbound, name, sent, spelled, carried⟩

namespace GatewayState

variable {s : Store UInt64} {leg : Leg} {route : String}

theorem PoolStep.records_mem {event : GatewayEvent} {pool next : Pool}
    {records : List GatewayRecord} (step : PoolStep s leg route event pool next records) {l : Leg}
    {name : String} {index : Nat} {instant : Int}
    (member : .selected l name index instant ∈ records) :
    l = leg ∧ name = route ∧
      (s.call pool.session.store event.now (.reserve route)).2.reservation = some index := by
  cases step with
  | arrived _ =>
    obtain ⟨granted, isGranted, same⟩ := Option.map_eq_some_iff.mp (Option.mem_toList.mp member)
    cases same
    exact ⟨rfl, rfl, isGranted⟩
  | responded reservation answer readAt _ forwarding =>
    have unselected := (respondPool_spec s leg event.now answer readAt forwarding).2.2
    exact absurd member (List.count_eq_zero.mp (unselected l name index instant))
  | settled | queried => cases member

theorem PoolStep.active_mem {event : GatewayEvent} {pool next : Pool}
    {records : List GatewayRecord} (step : PoolStep s leg route event pool next records)
    {request : ActiveRequest} (member : request ∈ next.active) :
    (∃ earlier ∈ pool.active, earlier.reservation = request.reservation) ∨
      request.reservation.route = route ∧
        .selected leg route request.reservation.index request.reservation.takenAt ∈ records := by
  cases step with
  | arrived _ =>
    rcases List.mem_append.mp member with earlier | new
    · exact .inl ⟨request, earlier, rfl⟩
    · obtain ⟨index, granted, rfl⟩ := Option.map_eq_some_iff.mp (Option.mem_toList.mp new)
      refine .inr ⟨rfl, Option.mem_toList.mpr (Option.map_eq_some_iff.mpr ⟨index, granted, rfl⟩)⟩
  | responded reservation answer readAt _ forwarding =>
    have kept := (respondPool_spec s leg event.now answer readAt forwarding).2.1
    have held := kept.mem_iff.mp (List.mem_map_of_mem member)
    obtain ⟨earlier, inside, same⟩ := List.mem_map.mp held
    exact .inl ⟨earlier, inside, same⟩
  | settled settled sample _ _ => exact .inl ⟨request, List.mem_of_mem_erase member, rfl⟩
  | queried c _ => exact .inl ⟨request, member, rfl⟩

structure Selects (config : GatewayConfig) (state : GatewayState) : Prop where
  inRange : ∀ leg route index instant, .selected leg route index instant ∈ state.log →
    ∃ pooled, config.routes route = some pooled ∧ index < pooled.keys
  logged : ∀ leg route, ∀ request ∈ (state.pools leg route).active,
    request.reservation.route = route ∧
      .selected leg route request.reservation.index request.reservation.takenAt ∈ state.log

theorem granted_lt {config : GatewayConfig} {trace : List GatewayEvent} {state : GatewayState}
    (ran : (gateway config).run config.start trace = some state)
    (built : config.store route = some s) {now : Int} {index : Nat}
    (granted : (s.call (state.pools leg route).session.store now (.reserve route)).2.reservation =
      some index) :
    ∃ pooled, config.routes route = some pooled ∧ index < pooled.keys := by
  obtain ⟨⟨_, session⟩, _, _⟩ := pools_refine ran leg built
  have present := LeaseSession.keyAt_of_reservation granted
  obtain ⟨count, declared, below⟩ := LeaseSession.index_lt_of_keyAt session route index present
  rw [if_pos rfl] at declared
  obtain ⟨pooled, known, rfl⟩ := Option.map_eq_some_iff.mp declared
  exact ⟨pooled, known, by omega⟩

theorem selects_of_run {config : GatewayConfig} {trace : List GatewayEvent} {final : GatewayState}
    (ran : (gateway config).run config.start trace = some final) : Selects config final := by
  induction trace using List.reverseRecOn generalizing final with
  | nil =>
    cases ran
    exact ⟨by simp [GatewayConfig.start], by simp [GatewayConfig.start, GatewayConfig.startPool]⟩
  | append_singleton earlier event ih =>
    obtain ⟨state, reached, stepped⟩ := Machine.run_concat_eq_some _ |>.mp ran
    obtain ⟨inRange, logged⟩ := ih reached
    obtain ⟨_, l, name, s, pool, records, built, step, pools, _, log⟩ := step_cases stepped
    constructor
    · intro leg route index instant member
      rw [log] at member
      rcases List.mem_append.mp member with before | new
      · exact inRange leg route index instant before
      · obtain ⟨rfl, rfl, granted⟩ := step.records_mem new
        exact granted_lt reached built granted
    · intro leg route request member
      rw [log]
      rw [pools] at member
      by_cases same : leg = l ∧ route = name
      · obtain ⟨rfl, rfl⟩ := same
        rw [setPool_pools_same] at member
        rcases step.active_mem member with ⟨earlier, inside, isSame⟩ | ⟨onRoute, selected⟩
        · obtain ⟨onRoute, selected⟩ := logged leg route earlier inside
          rw [isSame] at onRoute selected
          exact ⟨onRoute, List.mem_append_left _ selected⟩
        · exact ⟨onRoute, List.mem_append_right _ selected⟩
      · rw [setPool_pools_other _ _ same] at member
        obtain ⟨onRoute, selected⟩ := logged leg route request member
        exact ⟨onRoute, List.mem_append_left _ selected⟩

end GatewayState

/-! ## The keys of leases -/

def ProxyExit.keyIndex (rotation : Option RotationConfig) (reservation : Reservation) :
    ProxyExit → Nat
  | .responded answer => (auditEvent rotation reservation answer).keyIndex
  | .aborted => reservation.index

/-- In a state of the gateway every lease of a route names a key of its pool, and a
request that ends is audited and charged under the index it was leased. -/
structure LeasesNameKeys (rt : BoundRoute) (keys : List Bytes) (config : GatewayConfig)
    (state : GatewayState) : Prop where
  leased : ∀ leg index instant, .selected leg rt.route.name index instant ∈ state.log →
    CarriesKey rt keys index
  ended : ∀ event next leg (reservation : Reservation) exit,
    GatewayState.step config state event = some next →
    event.action.exit = some (leg, reservation, exit) → reservation.route = rt.route.name →
    .selected leg rt.route.name reservation.index reservation.takenAt ∈ state.log ∧
      (∀ rotation, exit.keyIndex rotation reservation = reservation.index) ∧
      ∃ s, config.store rt.route.name = some s ∧
        (next.pools leg rt.route.name).session.store =
          (s.call (state.pools leg rt.route.name).session.store event.now
            (.recordSample rt.route.name reservation.index exit.sample)).1

theorem leasesNameKeys {config : GatewayConfig} {state : GatewayState}
    (selects : GatewayState.Selects config state)
    (carries : ∀ pooled index, config.routes rt.route.name = some pooled → index < pooled.keys →
      CarriesKey rt keys index) : LeasesNameKeys rt keys config state where
  leased leg index instant member := by
    obtain ⟨pooled, known, below⟩ := selects.inRange leg rt.route.name index instant member
    exact carries pooled index known below
  ended event next leg reservation exit stepped exits onRoute := by
    obtain ⟨s, built, member, pools, _⟩ := GatewayState.step_exit stepped exits
    rw [onRoute] at built member pools
    refine ⟨(selects.logged leg rt.route.name _ member).2, fun rotation => ?_, s, built, ?_⟩
    · cases exit <;> rfl
    · rw [pools, GatewayState.setPool_pools_same]
      unfold GatewayState.settlePool LeaseSession.settle
      dsimp only
      rw [onRoute]

/-- The pool of a validated route is what its configuration declares, whatever its provider
answers, and in every later run of the gateway each lease names a key of it. -/
theorem key_pools_as_declared {fold : CaseFolding} {file valid : ConfigFile}
    {secrets : SecretDialogue} {server : Server} {asked : List Bytes}
    (accepted : validate fold file = .ok valid)
    (built : newServer fold valid.config secrets [] = .ok (server, asked)) {rt : BoundRoute}
    (member : rt ∈ server.routes) (pooled : hasPluralKeys rt.route = true) :
    ∃ keys before,
      rt.auth = .rotatingInjector keys rt.route.auth (credentialHeader rt.route)
        (credentialPrefix rt.route) ∧
      DeclaredPool secrets before rt.route keys ∧
      ∀ (config : GatewayConfig) (trace : List GatewayEvent) (final : GatewayState),
        config.routes = valid.pooledRoutes →
        (gateway config).run config.start trace = some final →
        LeasesNameKeys rt keys config final := by
  obtain ⟨routes, -⟩ := validate_eq_ok accepted
  obtain ⟨inside, before, after, resolved⟩ := newServer_routes built member
  obtain ⟨configured, enabled⟩ := List.mem_filter.mp inside
  have validRoute := routes.each rt.route configured
  have held := validRoute.held_of_pooled pooled
  obtain ⟨keys, injector, pool⟩ := newAuthenticatorFor_pooled resolved held pooled
  refine ⟨keys, before, injector, pool, fun config trace final serves ran => ?_⟩
  obtain ⟨block, declared, isRoute⟩ := List.mem_map.mp configured
  have stored : config.routes rt.route.name = some block.pooled := by
    rw [serves, ← isRoute]
    rw [← isRoute] at enabled pooled
    exact ConfigFile.pooledRoutes_eq_some routes.names declared enabled pooled
  refine leasesNameKeys (GatewayState.selects_of_run ran) fun other index known below => ?_
  rw [stored] at known
  cases known
  have inRange : index < keys.length := by
    rw [pool.count, ← isRoute]
    exact below
  exact carriesKey_of_lt injector (validateAuthMode_credentialHeader validRoute.authMode held)
    pool.trimmed inRange

def exaBlock : RouteBlock := { pooledRoute with timeout := 0, rotation := none }

def exaValid : ConfigFile :=
  { loopbackFile [] with
    timeout := defaultTimeout
    routes := [{ exaBlock with timeout := defaultTimeout }] }

def paddedSecrets : SecretDialogue := fun asked _ =>
  some (lit "  key " ++ Bytes.itoa asked.length ++ lit "\n")

def exaBound : BoundRoute :=
  ⟨pooledRoute, .rotatingInjector [lit "key 0", lit "key 1"] .header (lit "x-api-key") []⟩

def exaServer : Server where
  connect := (loopbackFile []).connect.toConnectConfig
  routes := [exaBound]
  connToken := []
  allowed := []
  proxyAuth := .loopbackOnly
  proxyToken := []
  scope := .unknown

def exaGateway : GatewayConfig :=
  { auditedConfig with routes := exaValid.pooledRoutes }

def exaTrace : List GatewayEvent :=
  [⟨1, .arrive .reverseProxy "exa"⟩, ⟨2, .arrive .reverseProxy "exa"⟩]

theorem key_pools_as_declared_padded :
    ∃ final, (gateway exaGateway).run exaGateway.start exaTrace = some final ∧
      .selected .reverseProxy "exa" 1 2 ∈ final.log ∧
      CarriesKey exaBound [lit "key 0", lit "key 1"] 1 := by
  have accepted : validate asciiFolding (loopbackFile [exaBlock]) = .ok exaValid := rfl
  have built : newServer asciiFolding exaValid.config paddedSecrets [] =
      .ok (exaServer, [lit "env:EXA_ONE", lit "env:EXA_TWO"]) := by
    decide +kernel
  have facts : ((gateway exaGateway).run exaGateway.start exaTrace).map GatewayState.log =
      some [.selected .reverseProxy "exa" 0 1, .selected .reverseProxy "exa" 1 2] := by
    decide +kernel
  obtain ⟨final, ran, log⟩ := Option.map_eq_some_iff.mp facts
  have selected : .selected .reverseProxy "exa" 1 2 ∈ final.log := by
    rw [log]
    decide
  obtain ⟨keys, _, injector, _, leases⟩ :=
    key_pools_as_declared accepted built (List.mem_singleton.mpr rfl) rfl
  cases injector
  exact ⟨final, ran, selected, (leases exaGateway exaTrace final rfl ran).leased _ _ _ selected⟩

end ClusterRouter.Channel
