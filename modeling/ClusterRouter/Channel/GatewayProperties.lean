import ClusterRouter.Channel.Gateway

/-! What one event does to the pool it is about, and the refinement that follows: a pool's
requests are the unsettled reservations of its session. -/

set_option autoImplicit false

namespace ClusterRouter.Channel

open Foundation

namespace GatewayState

theorem setPool_pools_same (state : GatewayState) (leg : Leg) (route : String) (pool : Pool) :
    (state.setPool leg route pool).pools leg route = pool := by
  simp [setPool]

variable {leg : Leg} {route : String} {config : GatewayConfig} {event : GatewayEvent}
    {pool next : Pool} {s : Store UInt64} {records : List GatewayRecord}

theorem setPool_pools_other (state : GatewayState) {other : Leg} {name : String} (pool : Pool)
    (different : ¬ (other = leg ∧ name = route)) :
    (state.setPool leg route pool).pools other name = state.pools other name := by
  simp [setPool, different]

inductive PoolStep (s : Store UInt64) (leg : Leg) (route : String) (event : GatewayEvent)
    (pool : Pool) : Pool → List GatewayRecord → Prop where
  | arrived (isArrive : event.action = .arrive leg route) :
      PoolStep s leg route event pool (arrivePool s pool event.now route).1
        ((arrivePool s pool event.now route).2.map
          (fun index => .selected leg route index event.now)).toList
  | responded (reservation : Reservation) (answer : UpstreamAnswer) (readAt : Int)
      (onRoute : reservation.route = route)
      (forwarding : ⟨reservation, .forwarding⟩ ∈ pool.active) :
      PoolStep s leg route event pool
        (respondPool s leg pool event.now reservation answer readAt).1
        (respondPool s leg pool event.now reservation answer readAt).2
  | settled (request : ActiveRequest) (sample : UsageSample)
      (onRoute : request.reservation.route = route) (member : request ∈ pool.active) :
      PoolStep s leg route event pool (settlePool s pool event.now request sample) []
  | queried (c : Store.Call) (isQuery : c = .retryAfter route ∨ c = .snapshot route) :
      PoolStep s leg route event pool (callPool s pool event.now c) []

theorem step_cases {state next : GatewayState} (stepped : step config state event = some next) :
    state.clock ≤ event.now ∧ ∃ leg route s pool records,
      config.store route = some s ∧
      PoolStep s leg route event (state.pools leg route) pool records ∧
      next.pools = (state.setPool leg route pool).pools ∧ next.clock = event.now ∧
      next.log = state.log ++ records := by
  unfold step at stepped
  split at stepped
  · cases stepped
  next ordered =>
    refine ⟨by omega, ?_⟩
    dsimp only at stepped
    split at stepped
    next leg route isArrive =>
      obtain ⟨s, built, rfl⟩ := Option.map_eq_some_iff.mp stepped
      exact ⟨leg, route, s, _, _, built, .arrived isArrive, rfl, rfl, rfl⟩
    next leg reservation answer readAt _ =>
      obtain ⟨s, built, rest⟩ := Option.bind_eq_some_iff.mp stepped
      obtain ⟨enabled, made⟩ := Option.ite_none_right_eq_some.mp rest
      cases made
      exact ⟨leg, reservation.route, s, _, _, built,
        .responded reservation answer readAt rfl enabled.1, rfl, rfl, rfl⟩
    next leg reservation answer _ =>
      obtain ⟨s, built, rest⟩ := Option.bind_eq_some_iff.mp stepped
      obtain ⟨enabled, made⟩ := Option.ite_none_right_eq_some.mp rest
      cases made
      exact ⟨leg, reservation.route, s, _, [], built, .settled _ _ rfl enabled, rfl, rfl,
        (List.append_nil _).symm⟩
    next leg reservation _ =>
      obtain ⟨s, built, rest⟩ := Option.bind_eq_some_iff.mp stepped
      obtain ⟨enabled, made⟩ := Option.ite_none_right_eq_some.mp rest
      cases made
      exact ⟨leg, reservation.route, s, _, [], built, .settled _ _ rfl enabled, rfl, rfl,
        (List.append_nil _).symm⟩
    next leg route _ =>
      obtain ⟨s, built, rfl⟩ := Option.map_eq_some_iff.mp stepped
      exact ⟨leg, route, s, _, [], built, .queried _ (.inl rfl), rfl, rfl,
        (List.append_nil _).symm⟩
    next leg route _ =>
      obtain ⟨s, built, rfl⟩ := Option.map_eq_some_iff.mp stepped
      exact ⟨leg, route, s, _, [], built, .queried _ (.inr rfl), rfl, rfl,
        (List.append_nil _).symm⟩

def Matched (pool : Pool) : Prop :=
  (pool.active.map ActiveRequest.reservation).Perm pool.session.unsettled

theorem Matched.mem (matched : Matched pool) {request : ActiveRequest}
    (member : request ∈ pool.active) : request.reservation ∈ pool.session.unsettled :=
  matched.mem_iff.mp (List.mem_map_of_mem member)

theorem retirementFor_cases {reservation : Reservation} {answer : UpstreamAnswer} {readAt : Int}
    {c : Store.Call} (retires : retirementFor reservation answer readAt = some c) :
    (∃ deadline reason,
        c = .retireWithReason reservation.route reservation.index deadline reason) ∨
      ∃ reason, c = .retireForWindow reservation.route reservation.index reason := by
  unfold retirementFor at retires
  split at retires
  next signal _ =>
    split at retires
    · obtain ⟨deadline, _, rfl⟩ := Option.map_eq_some_iff.mp retires
      exact .inl ⟨deadline, signal.reason, rfl⟩
    · cases retires
  next =>
    split at retires
    · cases retires
      exact .inr ⟨.quota, rfl⟩
    · cases retires

inductive SessionStep (s : Store UInt64) (now : Int) (session : LeaseSession UInt64) :
    LeaseSession UInt64 → Prop where
  | untouched : SessionStep s now session session
  | performed (c : Store.Call) (unsettling : LeaseSession.isSettlement c = false) :
      SessionStep s now session (session.perform s now c)
  | settled (reservation : Reservation) (sample : UsageSample)
      (held : reservation ∈ session.unsettled) :
      SessionStep s now session (session.settle s now reservation sample)

theorem PoolStep.sessionStep (step : PoolStep s leg route event pool next records)
    (matched : Matched pool) :
    SessionStep s event.now pool.session next.session := by
  cases step with
  | arrived _ => exact .performed (.reserve route) rfl
  | responded reservation answer readAt _ _ =>
    unfold respondPool
    cases retires : retirementFor reservation answer readAt with
    | none => exact .untouched
    | some c =>
      have unsettling : LeaseSession.isSettlement c = false := by
        rcases retirementFor_cases retires with ⟨_, _, rfl⟩ | ⟨_, rfl⟩ <;> rfl
      exact .performed c unsettling
  | settled request sample _ member => exact .settled request.reservation sample (matched.mem member)
  | queried c isQuery =>
    have unsettling : LeaseSession.isSettlement c = false := by
      rcases isQuery with rfl | rfl <;> rfl
    exact .performed c unsettling

theorem answered_perm {active : List ActiveRequest} {reservation : Reservation}
    (answer : UpstreamAnswer) (forwarding : ⟨reservation, .forwarding⟩ ∈ active) :
    ((⟨reservation, .answered answer⟩ :: active.erase ⟨reservation, .forwarding⟩).map
        ActiveRequest.reservation).Perm (active.map ActiveRequest.reservation) := by
  have same := (List.perm_cons_erase forwarding).map ActiveRequest.reservation
  simpa using same.symm

theorem PoolStep.matched (step : PoolStep s leg route event pool next records)
    (matched : Matched pool) :
    Matched next := by
  cases step with
  | arrived _ =>
    unfold Matched arrivePool
    dsimp only
    rw [List.map_append, pool.session.unsettled_perform]
    cases (s.call pool.session.store event.now (.reserve route)).2.reservation with
    | none => simpa [Matched] using matched
    | some index => exact matched.append_right [⟨route, index, event.now⟩]
  | responded reservation answer readAt _ forwarding =>
    have answered := (answered_perm answer forwarding).trans matched
    unfold respondPool
    cases retires : retirementFor reservation answer readAt with
    | none => exact answered
    | some c =>
      have declined : (s.call pool.session.store event.now c).2.reservation = none := by
        rcases retirementFor_cases retires with ⟨_, _, rfl⟩ | ⟨_, rfl⟩ <;> rfl
      simpa [Matched, pool.session.unsettled_perform, declined] using answered
  | settled request sample _ member =>
    have requests := (List.perm_cons_erase member).map ActiveRequest.reservation
    have held := List.perm_cons_erase (matched.mem member)
    exact ((requests.symm.trans matched).trans held).cons_inv
  | queried c isQuery =>
    have declined : (s.call pool.session.store event.now c).2.reservation = none := by
      rcases isQuery with rfl | rfl <;> rfl
    simpa [Matched, callPool, pool.session.unsettled_perform, declined] using matched

/-- A pool is a session run of the store of its route, and its requests are what
the session has not settled. -/
structure PoolRefines (config : GatewayConfig) (s : Store UInt64) (leg : Leg) (route : String)
    (clock : Int) (pool : Pool) : Prop where
  ran : ∃ trace,
    (LeaseSession.machine s).run (config.startPool leg route).session trace = some pool.session
  matched : Matched pool
  ordered : pool.session.clock ≤ clock

theorem SessionStep.enabled {now : Int} {session next : LeaseSession UInt64}
    (step : SessionStep s now session next) (ordered : session.clock ≤ now) :
    next = session ∨
      next.clock = now ∧ ∃ action, LeaseSession.step s session ⟨now, action⟩ = some next := by
  have inOrder : ¬ now < session.clock := by omega
  cases step with
  | untouched => exact .inl rfl
  | performed c unsettling =>
    refine .inr ⟨rfl, .call c, ?_⟩
    simp [LeaseSession.step, inOrder, unsettling]
  | settled reservation sample held =>
    refine .inr ⟨rfl, .settle reservation sample, ?_⟩
    simp [LeaseSession.step, inOrder, held]

theorem PoolRefines.step {clock : Int} (refines : PoolRefines config s leg route clock pool)
    (later : clock ≤ event.now) (step : PoolStep s leg route event pool next records) :
    PoolRefines config s leg route event.now next := by
  obtain ⟨⟨trace, ran⟩, matched, ordered⟩ := refines
  have inOrder : pool.session.clock ≤ event.now := Int.le_trans ordered later
  rcases (step.sessionStep matched).enabled inOrder with same | ⟨clock, action, stepped⟩
  · exact ⟨⟨trace, by rw [same]; exact ran⟩, step.matched matched, by rw [same]; exact inOrder⟩
  · refine ⟨⟨trace ++ [⟨event.now, action⟩], ?_⟩, step.matched matched, by omega⟩
    exact (LeaseSession.machine s).run_concat_eq_some.mpr ⟨pool.session, ran, stepped⟩

theorem pools_refine {trace : List GatewayEvent} {final : GatewayState}
    (ran : (gateway config).run config.start trace = some final) (leg : Leg)
    (built : config.store route = some s) :
    PoolRefines config s leg route final.clock (final.pools leg route) := by
  refine Machine.run_invariant _
    (fun state => PoolRefines config s leg route state.clock (state.pools leg route)) ?_ ran ?_
  · intro state event next stepped refines
    obtain ⟨later, l, name, t, pool, records, made, step, pools, clock, _⟩ := step_cases stepped
    rw [pools, clock]
    by_cases same : leg = l ∧ route = name
    · obtain ⟨rfl, rfl⟩ := same
      rw [built] at made
      cases made
      rw [setPool_pools_same]
      exact refines.step later step
    · rw [setPool_pools_other _ _ same]
      exact ⟨refines.ran, refines.matched, Int.le_trans refines.ordered later⟩
  · refine ⟨⟨[], rfl⟩, ?_, ?_⟩
    · simp [Matched, GatewayConfig.start, GatewayConfig.startPool, LeaseSession.start]
    · exact config.le_serving leg route

end GatewayState

end ClusterRouter.Channel
