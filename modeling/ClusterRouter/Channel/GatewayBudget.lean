import ClusterRouter.Channel.FirstWindow
import ClusterRouter.Channel.GatewayProperties
import ClusterRouter.Channel.Retirement

/-! The cap and the retirements of a pooled key live in the store of one leg: they bound what
the process spends as long as a route is used through one leg only. -/

set_option autoImplicit false

namespace ClusterRouter.Channel

open Foundation

namespace GatewayState

def completedBefore (state : GatewayState) (route : String) (index : Nat) (cut : Int) : Nat :=
  (state.pools .reverseProxy route).session.completedBefore route index cut +
    (state.pools .aes route).session.completedBefore route index cut

/-- No key of the route is selected, on any leg, while a retirement recorded
earlier is in force. -/
def RetirementsRespected (route : String) (log : List GatewayRecord) : Prop :=
  log.Pairwise (fun earlier later => ∀ retiring selecting index deadline instant,
    earlier = .retired retiring route index (some deadline) →
      later = .selected selecting route index instant → deadline ≤ instant)

def usesOneLeg (leg : Leg) (route : String) : GatewayAction → Bool
  | .arrive other name => decide (name = route → other = leg)
  | _ => true

/-- The route is used through one leg, and no lease reaches the lease timeout in
the first accounting window. -/
def OneLegFresh (config : GatewayConfig) (pooled : PooledRoute) (leg : Leg) (route : String)
    (state : GatewayState) (event : GatewayEvent) : Prop :=
  usesOneLeg leg route event.action = true ∧
    (event.now < config.startup + pooled.budget.window →
      (newRotationStore pooled).freshLeases (state.pools leg route).session.store route
        event.now = true)

instance (config : GatewayConfig) (pooled : PooledRoute) (leg : Leg) (route : String)
    (state : GatewayState) (event : GatewayEvent) :
    Decidable (OneLegFresh config pooled leg route state event) :=
  inferInstanceAs (Decidable (_ ∧ (_ → _)))

variable {s : Store UInt64} {leg : Leg} {route : String} {event : GatewayEvent} {pool next : Pool}
    {records : List GatewayRecord}

theorem SessionStep.preserves {now : Int} {session next : LeaseSession UInt64}
    (step : SessionStep s now session next) (property : StoreState UInt64 → Prop)
    (holds : property session.store) (kept : ∀ c, property (s.call session.store now c).1) :
    property next.store := by
  cases step with
  | untouched => exact holds
  | performed c _ => exact kept c
  | settled reservation sample _ => exact kept _

theorem SessionStep.sentBefore_le {now : Int} {session next : LeaseSession UInt64}
    (step : SessionStep s now session next) {cut : Int} (late : cut ≤ now) (route : String)
    (index : Nat) :
    next.sentBefore route index cut ≤ session.sentBefore route index cut := by
  cases step with
  | untouched => exact Nat.le_refl _
  | performed c _ => exact Nat.le_of_eq (session.sentBefore_perform route index s c late)
  | settled reservation sample held => exact session.sentBefore_settle_le route index s sample held

structure Unused (pool : Pool) : Prop where
  active : pool.active = []
  settlements : pool.session.settlements = []

section

variable (step : PoolStep s leg route event pool next records)

include step

theorem PoolStep.unused {used : Leg} (unused : Unused pool) (other : leg ≠ used)
    (oneLeg : usesOneLeg used route event.action = true) :
    Unused next ∧ records = [] := by
  cases step with
  | arrived isArrive =>
    rw [isArrive] at oneLeg
    simp only [usesOneLeg, decide_eq_true_eq] at oneLeg
    exact absurd (oneLeg trivial) other
  | responded reservation answer readAt _ forwarding =>
    rw [unused.active] at forwarding
    cases forwarding
  | settled request sample _ member =>
    rw [unused.active] at member
    cases member
  | queried c _ => exact ⟨⟨unused.active, unused.settlements⟩, rfl⟩

theorem PoolStep.record_cases {record : GatewayRecord} (member : record ∈ records) :
    (∃ index, records = [record] ∧ record = .selected leg route index event.now ∧
        (s.call pool.session.store event.now (.reserve route)).2.reservation = some index) ∨
      ∃ index, records = [record] ∧ record = .retired leg route index
        ((next.session.store.keyAt route index).bind KeyRecord.retiredUntil) := by
  cases step with
  | arrived _ =>
    unfold arrivePool at member ⊢
    dsimp only at member ⊢
    cases granted : (s.call pool.session.store event.now (.reserve route)).2.reservation with
    | none => simp [granted] at member
    | some index =>
      left
      simp only [granted, Option.map_some, Option.toList_some, List.mem_singleton] at member
      exact ⟨index, by simp [member], member, rfl⟩
  | responded reservation answer readAt onRoute _ =>
    subst onRoute
    unfold respondPool at member ⊢
    cases retires : retirementFor reservation answer readAt with
    | none => simp [retires] at member
    | some c =>
      right
      simp only [retires, List.mem_singleton] at member
      exact ⟨reservation.index, by simp [member], by simpa using member⟩
  | settled | queried => cases member

theorem PoolStep.retiredUntil {retiring : Leg} {index : Nat} {deadline : Int}
    (recorded : .retired retiring route index (some deadline) ∈ records) :
    Store.RetiredUntil next.session.store route index deadline := by
  rcases step.record_cases recorded with ⟨_, _, selected, _⟩ | ⟨_, _, isRetired⟩
  · cases selected
  · injection isRetired with _ _ sameIndex inStore
    subst sameIndex
    intro k found
    rw [found] at inStore
    exact ⟨deadline, inStore.symm, Int.le_refl _⟩

theorem PoolStep.retirementsRespected {log : List GatewayRecord}
    (respected : RetirementsRespected route log)
    (inForce : ∀ retiring index deadline, .retired retiring route index (some deadline) ∈ log →
      event.now < deadline → Store.RetiredUntil pool.session.store route index deadline) :
    RetirementsRespected route (log ++ records) := by
  refine List.pairwise_append.mpr ⟨respected, ?_, ?_⟩
  · cases records with
    | nil => exact List.Pairwise.nil
    | cons record rest =>
      rcases step.record_cases List.mem_cons_self with ⟨_, single, _⟩ | ⟨_, single, _⟩
      · rw [single]
        exact List.pairwise_singleton _ _
      · rw [single]
        exact List.pairwise_singleton _ _
  · intro earlier member record recorded retiring selecting index deadline instant isRetired
      isSelected
    subst isRetired isSelected
    rcases step.record_cases recorded with ⟨i, _, selected, granted⟩ | ⟨_, _, isRetired⟩
    · injection selected with _ _ sameIndex sameInstant
      subst sameIndex sameInstant
      by_cases early : event.now < deadline
      · exact (inForce retiring index deadline member early).le_of_reservation granted
      · omega
    · cases isRetired

end

section OneLeg

variable {config : GatewayConfig} {pooled : PooledRoute} {leg : Leg} {route : String}
  {state next : GatewayState} {event : GatewayEvent}

structure OneLeg (config : GatewayConfig) (pooled : PooledRoute) (leg : Leg) (route : String)
    (state : GatewayState) : Prop where
  refines : PoolRefines config (newRotationStore pooled) leg route state.clock
    (state.pools leg route)
  unused : ∀ other, other ≠ leg → Unused (state.pools other route)
  keys : ∀ index, index < pooled.keys →
    ((state.pools leg route).session.store.keyAt route index).isSome = true
  unreclaimed : state.clock < config.startup + pooled.budget.window →
    Store.Unreclaimed (state.pools leg route).session.store route
  sent : ∀ index k, (state.pools leg route).session.store.keyAt route index = some k →
    ((state.pools leg route).session.sentBefore route index
      (config.startup + pooled.budget.window) : Int) ≤ pooled.budget.requests
  retired : ∀ retiring index deadline,
    GatewayRecord.retired retiring route index (some deadline) ∈ state.log →
      state.clock < deadline →
        Store.RetiredUntil (state.pools leg route).session.store route index deadline
  respected : RetirementsRespected route state.log

theorem OneLeg.start (configured : config.routes route = some pooled)
    (capped : 0 < pooled.budget.requests) : OneLeg config pooled leg route config.start := by
  have fresh : ∀ index k, (config.startPool leg route).session.store.keyAt route index = some k →
      k = {} := by
    intro index k found
    obtain ⟨rs, known, present⟩ := StoreState.keyAt_eq_some.mp found
    simp only [GatewayConfig.startPool, LeaseSession.start, newStoreState, configured, if_true,
      Option.map_some] at known
    split at known
    · cases known
    · cases known
      exact List.eq_of_mem_replicate (List.mem_of_getElem? present)
  have ran : (gateway config).run config.start [] = some config.start := rfl
  constructor
  · exact pools_refine ran leg (by simp [GatewayConfig.store, configured])
  · intro other _
    exact ⟨rfl, rfl⟩
  · intro index bound
    have positive : pooled.keys ≠ 0 := by omega
    simp [GatewayConfig.start, GatewayConfig.startPool, LeaseSession.start, newStoreState,
      configured, StoreState.keyAt, positive, bound]
  · intro _ index k found
    rw [fresh index k found]
  · intro index k found
    simp [GatewayConfig.start, GatewayConfig.startPool, LeaseSession.start,
      LeaseSession.sentBefore, LeaseSession.completedBefore, LeaseSession.pendingBefore]
    omega
  · intro retiring index deadline member
    cases member
  · exact List.Pairwise.nil

theorem PoolRefines.accounts {pool : Pool} {clock : Int}
    (refines : PoolRefines config (newRotationStore pooled) leg route clock pool)
    (window : 0 < pooled.budget.window) (capped : 0 < pooled.budget.requests) :
    Accounts (newRotationStore pooled) (config.storeStart leg route) pool.session := by
  obtain ⟨trace, ran⟩ := refines.ran
  exact Accounts.of_run window capped ran

theorem PoolRefines.sentBefore_le {pool : Pool} {clock : Int} {index : Nat} {k : KeyRecord}
    (refines : PoolRefines config (newRotationStore pooled) leg route clock pool)
    (window : 0 < pooled.budget.window) (capped : 0 < pooled.budget.requests)
    (early : clock < config.startup + pooled.budget.window)
    (unreclaimed : Store.Unreclaimed pool.session.store route)
    (found : pool.session.store.keyAt route index = some k) :
    (pool.session.sentBefore route index (config.startup + pooled.budget.window) : Int) ≤
      pooled.budget.requests := by
  obtain ⟨rs, known, present⟩ := StoreState.keyAt_eq_some.mp found
  have account := refines.accounts window capped route rs known
  have started := config.startup_le leg route
  have ordered := refines.ordered
  have inWindow : pool.session.clock <
      config.storeStart leg route + (newRotationStore pooled).budget.window := by
    change pool.session.clock < config.storeStart leg route + pooled.budget.window
    omega
  have bounded := account.sentBefore_le window present inWindow
    (config.startup + pooled.budget.window)
  rw [unreclaimed index k found] at bounded
  simpa [newRotationStore, newStore] using bounded

theorem OneLeg.frame (holds : OneLeg config pooled leg route state)
    (later : state.clock ≤ event.now) (samePool : next.pools leg route = state.pools leg route)
    (unused : ∀ other, other ≠ leg → Unused (next.pools other route))
    (clock : next.clock = event.now) {records : List GatewayRecord}
    (log : next.log = state.log ++ records)
    (elsewhere : ∀ record ∈ records, ∀ other index instant deadline,
      record ≠ .selected other route index instant ∧ record ≠ .retired other route index deadline) :
    OneLeg config pooled leg route next := by
  obtain ⟨refines, _, keys, unreclaimed, sent, retired, respected⟩ := holds
  refine ⟨?_, unused, ?_, ?_, ?_, ?_, ?_⟩
  · rw [samePool, clock]
    exact ⟨refines.ran, refines.matched, Int.le_trans refines.ordered later⟩
  · rw [samePool]
    exact keys
  · rw [samePool, clock]
    intro early
    exact unreclaimed (by omega)
  · rw [samePool]
    exact sent
  · rw [samePool, clock, log]
    intro retiring index deadline member inForce
    rcases List.mem_append.mp member with earlier | recorded
    · exact retired retiring index deadline earlier (by omega)
    · exact absurd rfl (elsewhere _ recorded retiring index 0 (some deadline)).2
  · rw [log]
    refine List.pairwise_append.mpr ⟨respected, ?_, ?_⟩
    · refine List.Pairwise.imp_of_mem (fun _ member _ => ?_) (List.pairwise_of_forall
        (l := records) (R := fun _ _ => True) (fun _ _ => trivial))
      intro retiring selecting index deadline instant _ isSelected
      exact absurd isSelected (elsewhere _ member selecting index instant none).1
    · intro earlier _ recorded member retiring selecting index deadline instant _ isSelected
      exact absurd isSelected (elsewhere _ member selecting index instant none).1

theorem OneLeg.touched {pool : Pool} {records : List GatewayRecord}
    (holds : OneLeg config pooled leg route state) (window : 0 < pooled.budget.window)
    (capped : 0 < pooled.budget.requests) (later : state.clock ≤ event.now)
    (fresh : event.now < config.startup + pooled.budget.window →
      (newRotationStore pooled).freshLeases (state.pools leg route).session.store route
        event.now = true)
    (step : PoolStep (newRotationStore pooled) leg route event (state.pools leg route) pool records)
    (pools : next.pools = (state.setPool leg route pool).pools) (clock : next.clock = event.now)
    (log : next.log = state.log ++ records) : OneLeg config pooled leg route next := by
  obtain ⟨refines, unused, keys, unreclaimed, sent, retired, respected⟩ := holds
  have samePool : next.pools leg route = pool := by
    rw [pools, setPool_pools_same]
  have refined := refines.step later step
  have sessionStep := step.sessionStep refines.matched
  have stillUnreclaimed (early : event.now < config.startup + pooled.budget.window) :
      Store.Unreclaimed pool.session.store route := by
    have before := unreclaimed (by omega)
    exact sessionStep.preserves (Store.Unreclaimed · route) before fun _ => before.call (fresh early)
  refine ⟨?_, ?_, ?_, ?_, ?_, ?_, ?_⟩
  · rw [samePool, clock]
    exact refined
  · intro other different
    rw [pools, setPool_pools_other _ _ (fun both => different both.1)]
    exact unused other different
  · rw [samePool]
    intro index bound
    exact sessionStep.preserves (fun store => (store.keyAt route index).isSome = true)
      (keys index bound) fun _ => Store.call_keyAt_isSome (keys index bound)
  · rw [samePool, clock]
    exact stillUnreclaimed
  · rw [samePool]
    intro index k found
    by_cases early : event.now < config.startup + pooled.budget.window
    · exact refined.sentBefore_le window capped early (stillUnreclaimed early) found
    · -- Later on nothing new is counted.
      have late : config.startup + pooled.budget.window ≤ event.now := by omega
      have fewer := sessionStep.sentBefore_le late route index
      have known := sessionStep.preserves (fun store => store.keyAt route index = some k →
        ∃ before, (state.pools leg route).session.store.keyAt route index = some before)
        (fun present => ⟨k, present⟩)
        (fun _ called => (Store.call_keyAt called).imp fun _ => And.left)
      obtain ⟨before, present⟩ := known found
      have bounded := sent index before present
      omega
  · rw [samePool, clock, log]
    intro retiring index deadline member inForce
    rcases List.mem_append.mp member with earlier | recorded
    · have holds := retired retiring index deadline earlier (by omega)
      exact sessionStep.preserves (Store.RetiredUntil · route index deadline) holds fun _ =>
        holds.call inForce
    · exact step.retiredUntil recorded
  · rw [log]
    refine step.retirementsRespected respected fun retiring index deadline member inForce => ?_
    exact retired retiring index deadline member (by omega)

theorem OneLeg.step (holds : OneLeg config pooled leg route state)
    (configured : config.routes route = some pooled) (window : 0 < pooled.budget.window)
    (capped : 0 < pooled.budget.requests) (condition : OneLegFresh config pooled leg route state event)
    (stepped : GatewayState.step config state event = some next) :
    OneLeg config pooled leg route next := by
  obtain ⟨later, l, name, s, pool, records, made, step, pools, clock, log⟩ := step_cases stepped
  by_cases onRoute : name = route
  · subst onRoute
    simp only [GatewayConfig.store, configured, Option.map_some, Option.some.injEq] at made
    subst made
    by_cases onLeg : l = leg
    · subst onLeg
      exact holds.touched window capped later condition.2 step pools clock log
    · obtain ⟨stillUnused, silent⟩ := step.unused (holds.unused l onLeg) onLeg condition.1
      refine holds.frame later ?_ ?_ clock log ?_
      · rw [pools, setPool_pools_other _ _ (fun both => onLeg both.1.symm)]
      · intro other different
        by_cases same : other = l
        · subst same
          rw [pools, setPool_pools_same]
          exact stillUnused
        · rw [pools, setPool_pools_other _ _ (fun both => same both.1)]
          exact holds.unused other different
      · rw [silent]
        intro record member
        cases member
  · refine holds.frame later ?_ ?_ clock log ?_
    · rw [pools, setPool_pools_other _ _ (fun both => onRoute both.2.symm)]
    · intro other different
      rw [pools, setPool_pools_other _ _ (fun both => onRoute both.2.symm)]
      exact holds.unused other different
    · intro record member other index instant deadline
      rcases step.record_cases member with ⟨_, _, rfl, _⟩ | ⟨_, _, rfl⟩
      · simp [onRoute]
      · simp [onRoute]

end OneLeg

end GatewayState

/-- In every run in which the route is used through one leg and no lease reaches
the lease timeout in the first window, the completed requests sent in that window
with one key stay within the cap, and no key is selected while it is retired. -/
theorem budget_held_on_one_leg (config : GatewayConfig) (pooled : PooledRoute) (leg : Leg)
    (route : String) (configured : config.routes route = some pooled)
    (window : 0 < pooled.budget.window) (capped : 0 < pooled.budget.requests)
    (trace : List GatewayEvent) (final : GatewayState)
    (ran : (gateway config).run config.start trace = some final)
    (meets : (gateway config).Meets (GatewayState.OneLegFresh config pooled leg route)
      config.start trace) :
    (∀ index, index < pooled.keys →
      (final.completedBefore route index (config.startup + pooled.budget.window) : Int) ≤
        pooled.budget.requests) ∧
      GatewayState.RetirementsRespected route final.log := by
  have holds : GatewayState.OneLeg config pooled leg route final := by
    refine Machine.run_invariant_of_meets _ (GatewayState.OneLeg config pooled leg route)
      ?_ meets ran (.start configured capped)
    intro state event next condition stepped holds
    exact holds.step configured window capped condition stepped
  refine ⟨?_, holds.respected⟩
  intro index bound
  obtain ⟨k, found⟩ := Option.isSome_iff_exists.mp (holds.keys index bound)
  have sent := holds.sent index k found
  have others : ∀ other, other ≠ leg →
      (final.pools other route).session.completedBefore route index
        (config.startup + pooled.budget.window) = 0 := by
    intro other different
    simp [LeaseSession.completedBefore, (holds.unused other different).settlements]
  unfold GatewayState.completedBefore
  unfold LeaseSession.sentBefore at sent
  cases leg with
  | reverseProxy =>
    have idle := others .aes (by decide)
    omega
  | aes =>
    have idle := others .reverseProxy (by decide)
    omega

def oneRequestRoute : PooledRoute where
  keys := 1
  policy := .roundRobin
  budget :=
    { window := Duration.hour, tokens := 0, requests := 1, softRatio := .finite 0
      estimateTokens := 0 }
  maxRetryAfter := 0

private theorem zero_le_zero (_ : Leg) (_ : String) : (0 : Int) ≤ 0 := Int.le_refl 0

def twoLegConfig : GatewayConfig where
  routes := fun route => if route = "chat" then some oneRequestRoute else none
  startup := 0
  storeStart := fun _ _ => 0
  serving := 0
  startup_le := zero_le_zero
  le_serving := zero_le_zero

def answer200 : UpstreamAnswer := ⟨200, ⟨.completed, 7, false⟩, none⟩

def answer429 : UpstreamAnswer := ⟨429, ⟨.completed, tokensUnknown, true⟩, none⟩

theorem budget_held_on_one_leg_chat :
    ∃ final, (gateway twoLegConfig).run twoLegConfig.start
        [⟨1, .arrive .aes "chat"⟩, ⟨2, .respond .aes ⟨"chat", 0, 1⟩ answer429 2⟩,
          ⟨3, .settle .aes ⟨"chat", 0, 1⟩ answer429⟩, ⟨4, .arrive .aes "chat"⟩] = some final ∧
      final.log = [.selected .aes "chat" 0 1, .retired .aes "chat" 0 (some Duration.hour)] ∧
      final.completedBefore "chat" 0 Duration.hour = 1 ∧
      (final.completedBefore "chat" 0 (0 + Duration.hour) : Int) ≤ 1 := by
  have view : ((gateway twoLegConfig).run twoLegConfig.start
        [⟨1, .arrive .aes "chat"⟩, ⟨2, .respond .aes ⟨"chat", 0, 1⟩ answer429 2⟩,
          ⟨3, .settle .aes ⟨"chat", 0, 1⟩ answer429⟩, ⟨4, .arrive .aes "chat"⟩]).map
        (fun final => (final.log, final.completedBefore "chat" 0 Duration.hour)) =
      some ([.selected .aes "chat" 0 1, .retired .aes "chat" 0 (some Duration.hour)], 1) := by
    decide +kernel
  obtain ⟨final, ran, seen⟩ := Option.map_eq_some_iff.mp view
  injection seen with log counted
  have held := budget_held_on_one_leg twoLegConfig oneRequestRoute .aes "chat" rfl (by decide)
    (by decide) _ final ran (by decide +kernel)
  exact ⟨final, ran, log, counted, held.1 0 (by decide)⟩

/-- Two legs, one key, one request each: the key is used twice in a window whose
cap is one, the second time while the quota signal of the first is in force. -/
theorem two_legs_overspend :
    ∃ final, (gateway twoLegConfig).run twoLegConfig.start
        [⟨1, .arrive .reverseProxy "chat"⟩,
          ⟨2, .respond .reverseProxy ⟨"chat", 0, 1⟩ answer429 2⟩,
          ⟨3, .settle .reverseProxy ⟨"chat", 0, 1⟩ answer429⟩, ⟨4, .arrive .aes "chat"⟩,
          ⟨5, .respond .aes ⟨"chat", 0, 4⟩ answer200 5⟩,
          ⟨6, .settle .aes ⟨"chat", 0, 4⟩ answer200⟩] = some final ∧
      oneRequestRoute.budget.requests = 1 ∧
      final.completedBefore "chat" 0 (twoLegConfig.startup + oneRequestRoute.budget.window) = 2 ∧
      final.log = [.selected .reverseProxy "chat" 0 1,
        .retired .reverseProxy "chat" 0 (some Duration.hour), .selected .aes "chat" 0 4] ∧
      ¬ GatewayState.RetirementsRespected "chat" final.log := by
  have view : ((gateway twoLegConfig).run twoLegConfig.start
        [⟨1, .arrive .reverseProxy "chat"⟩,
          ⟨2, .respond .reverseProxy ⟨"chat", 0, 1⟩ answer429 2⟩,
          ⟨3, .settle .reverseProxy ⟨"chat", 0, 1⟩ answer429⟩, ⟨4, .arrive .aes "chat"⟩,
          ⟨5, .respond .aes ⟨"chat", 0, 4⟩ answer200 5⟩,
          ⟨6, .settle .aes ⟨"chat", 0, 4⟩ answer200⟩]).map
        (fun final => (final.log, final.completedBefore "chat" 0
          (twoLegConfig.startup + oneRequestRoute.budget.window))) =
      some ([.selected .reverseProxy "chat" 0 1,
        .retired .reverseProxy "chat" 0 (some Duration.hour), .selected .aes "chat" 0 4], 2) := by
    decide +kernel
  obtain ⟨final, ran, seen⟩ := Option.map_eq_some_iff.mp view
  injection seen with log counted
  refine ⟨final, ran, rfl, counted, log, ?_⟩
  rw [log]
  intro respected
  have inForce := (List.pairwise_cons.mp (List.pairwise_cons.mp respected).2).1 _
    List.mem_cons_self .reverseProxy .aes 0 Duration.hour 4 rfl rfl
  exact absurd inForce (by decide)

end ClusterRouter.Channel
