import ClusterRouter.Channel.GatewayProperties
import ClusterRouter.Channel.KeyHistory
import ClusterRouter.Channel.Usage

/-! `settleLease` settles a lease and audits the tokens it was charged, computed anew by
`chargedTokensFor` (`internal/channel/server.go`). Each end of a request is recorded with both
figures. -/

set_option autoImplicit false

namespace ClusterRouter.Channel

open Foundation

structure RotationConfig where
  policy : PolicyName
  budget : Budget
  maxRetryAfter : Int
  estimate_int64 : int64 budget.estimateTokens = budget.estimateTokens

def RotationConfig.zero : RotationConfig where
  policy := .roundRobin
  budget := { window := 0, tokens := 0, requests := 0, softRatio := .finite 0, estimateTokens := 0 }
  maxRetryAfter := 0
  estimate_int64 := rfl

structure RotatedRoute where
  keys : Nat
  rotation : Option RotationConfig

/-- The values that `newRotationStore` passes to the store. -/
def RotatedRoute.pooled (route : RotatedRoute) : PooledRoute :=
  let rot := route.rotation.getD .zero
  ⟨route.keys, rot.policy, rot.budget, rot.maxRetryAfter⟩

def GatewayConfig.withRoutes (config : GatewayConfig) (routes : String → Option RotatedRoute) :
    GatewayConfig :=
  { config with routes := fun name => (routes name).map RotatedRoute.pooled }

def chargedTokensFor (rotation : Option RotationConfig) (sample : UsageSample) : Int :=
  match sample.outcome with
  | .failed => 0
  | .completed =>
    if sample.tokens ≠ tokensUnknown then sample.tokens
    else
      match rotation with
      | none => 0
      | some rot => rot.budget.estimateTokens

structure AuditEvent where
  route : String
  status : Int
  keyIndex : Nat
  tokens : Int
  tokensEstimated : Bool
  deriving DecidableEq, Repr

/-- The audit event of a request that ended with a response, as `settleLease` leaves it. -/
def auditEvent (rotation : Option RotationConfig) (reservation : Reservation)
    (answer : UpstreamAnswer) : AuditEvent :=
  let sample := chargeableSample answer.status answer.usage
  { route := reservation.route
    status := answer.status
    keyIndex := reservation.index
    tokens := chargedTokensFor rotation sample
    tokensEstimated := sample.estimated }

/-! ## The settlement of a lease -/

structure KeyLease where
  settled : Bool
  deriving DecidableEq, Repr

/-- `Settle`, guarded by a `sync.Once`: the sample that reaches the store, if any. -/
def KeyLease.settle (lease : KeyLease) (sample : UsageSample) : KeyLease × Option UsageSample :=
  if lease.settled then (lease, none) else (⟨true⟩, some sample)

def failedSample : UsageSample := ⟨.failed, 0, false⟩

/-- The ways out of `handleProxy` once a key is leased; `aborted` is an error of the
forwarder or a panic before `settleLease`. -/
inductive ProxyExit where
  | responded (answer : UpstreamAnswer)
  | aborted
  deriving DecidableEq, Repr

def ProxyExit.settlements (exit : ProxyExit) : List UsageSample :=
  let lease : KeyLease := ⟨false⟩
  let (lease, first) :=
    match exit with
    | .responded answer => lease.settle (chargeableSample answer.status answer.usage)
    | .aborted => (lease, none)
  first.toList ++ (lease.settle failedSample).2.toList

def ProxyExit.sample : ProxyExit → UsageSample
  | .responded answer => chargeableSample answer.status answer.usage
  | .aborted => failedSample

theorem ProxyExit.settlements_eq (exit : ProxyExit) : exit.settlements = [exit.sample] := by
  cases exit <;> rfl

def ProxyExit.stage : ProxyExit → RequestStage
  | .responded answer => .answered answer
  | .aborted => .forwarding

def GatewayAction.exit : GatewayAction → Option (Leg × Reservation × ProxyExit)
  | .settle leg reservation answer => some (leg, reservation, .responded answer)
  | .fail leg reservation => some (leg, reservation, .aborted)
  | .arrive _ _ | .respond _ _ _ _ | .retryAfter _ _ | .snapshot _ _ => none

/-- The tokens of an exit's audit event; the line of a request without a response has none. -/
def ProxyExit.audited (rotation : Option RotationConfig) (reservation : Reservation) :
    ProxyExit → Int
  | .responded answer => (auditEvent rotation reservation answer).tokens
  | .aborted => 0

/-- What a settlement adds to the counter of its key, between finding the key and leaving
it, in the counter's own arithmetic. -/
def LeaseSession.addedBy (s : Store UInt64) (session : LeaseSession UInt64) (now : Int)
    (reservation : Reservation) (sample : UsageSample) : Int :=
  match s.foundKey session.store reservation.route reservation.index now,
    (session.settle s now reservation sample).store.keyAt reservation.route reservation.index with
  | some found, some left => int64 (left.tokens - found.tokens)
  | _, _ => 0

structure Posting where
  leg : Leg
  reservation : Reservation
  audited : Int
  added : Int
  deriving DecidableEq, Repr

def postingsOf (config : GatewayConfig) (routes : String → Option RotatedRoute) (state : GatewayState)
    (event : GatewayEvent) : List Posting :=
  match event.action.exit, event.action.exit.bind (fun exit => config.store exit.2.1.route) with
  | some (leg, reservation, exit), some s =>
    [{ leg, reservation
       audited := exit.audited ((routes reservation.route).bind RotatedRoute.rotation) reservation
       added := (state.pools leg reservation.route).session.addedBy s event.now reservation exit.sample }]
  | _, _ => []

def ProxyExit.FromBody : ProxyExit → Prop
  | .responded answer => ∃ chunks, answer.usage = usageOf chunks
  | .aborted => True

/-! ## The charge of the store and the charge that is audited -/

theorem chargedTokensFor_completed (rotation : Option RotationConfig) {sample : UsageSample}
    (completed : sample.outcome = .completed) :
    chargedTokensFor rotation sample =
      if sample.tokens = tokensUnknown then (rotation.getD .zero).budget.estimateTokens
      else sample.tokens := by
  unfold chargedTokensFor
  by_cases unknown : sample.tokens = tokensUnknown
  · cases rotation <;> simp [completed, unknown, RotationConfig.zero]
  · simp [completed, unknown]

theorem RotatedRoute.completed_tokens (route : RotatedRoute) (k : KeyRecord) {sample : UsageSample}
    (completed : sample.outcome = .completed) :
    ((newRotationStore route.pooled).settleLocked k (Store.normalise sample)).1.tokens =
      int64 (k.tokens +
        if (Store.normalise sample).tokens = tokensUnknown then
          (route.rotation.getD .zero).budget.estimateTokens
        else (Store.normalise sample).tokens) := by
  rw [Store.settleLocked_tokens, Store.normalise_outcome, completed]
  rfl

theorem RotatedRoute.charged_eq_audited (route : RotatedRoute) (k : KeyRecord) {sample : UsageSample}
    (readable : Readable sample) :
    int64 (((newRotationStore route.pooled).settleLocked k (Store.normalise sample)).1.tokens -
      k.tokens) = chargedTokensFor route.rotation sample := by
  obtain ⟨completed, range, _⟩ := readable
  rw [route.completed_tokens k completed, int64_add_sub_cancel,
    chargedTokensFor_completed route.rotation completed]
  rcases range with unknown | ⟨nonneg, small⟩
  · have normal : (Store.normalise sample).tokens = tokensUnknown := by
      simp [Store.normalise, unknown, tokensUnknown]
    rw [if_pos normal, if_pos unknown]
    exact (route.rotation.getD .zero).estimate_int64
  · have known : sample.tokens ≠ tokensUnknown := by
      unfold tokensUnknown
      omega
    have normal : Store.normalise sample = sample := if_neg (by omega)
    rw [normal, if_neg known]
    exact int64_of_nonneg nonneg small

theorem Readable.chargeable {usage : UsageSample} (readable : Readable usage) (status : Int) :
    Readable (chargeableSample status usage) ∨ chargeableSample status usage = failedSample := by
  unfold chargeableSample
  split
  next => exact .inr rfl
  next =>
    split
    next => exact .inl ⟨rfl, .inr (by decide), by decide⟩
    next => exact .inl readable

theorem usageOf_readable (chunks : List Bytes) : Readable (usageOf chunks) :=
  TailExtractor.result_readable _

theorem RotatedRoute.exit_tokens (route : RotatedRoute) (k : KeyRecord) (reservation : Reservation)
    {exit : ProxyExit} (fromBody : exit.FromBody) :
    int64 (((newRotationStore route.pooled).settleLocked k (Store.normalise exit.sample)).1.tokens -
      k.tokens) = exit.audited route.rotation reservation := by
  have failed : int64 (((newRotationStore route.pooled).settleLocked k
      (Store.normalise failedSample)).1.tokens - k.tokens) = 0 := by
    have same : ((newRotationStore route.pooled).settleLocked k
        (Store.normalise failedSample)).1.tokens = k.tokens :=
      Store.settleLocked_tokens _ k (Store.normalise failedSample)
    rw [same, Int.sub_self]
    rfl
  cases exit with
  | aborted => exact failed
  | responded answer =>
    obtain ⟨chunks, isUsage⟩ := fromBody
    rcases (usageOf_readable chunks).chargeable answer.status with readable | isFailed
    · rw [← isUsage] at readable
      exact route.charged_eq_audited k readable
    · rw [← isUsage] at isFailed
      simp only [ProxyExit.sample, ProxyExit.audited, auditEvent, isFailed]
      exact failed

/-! ## What an event does to the requests -/

namespace GatewayState

def selections (state : GatewayState) (leg : Leg) (reservation : Reservation) : Nat :=
  state.log.count (.selected leg reservation.route reservation.index reservation.takenAt)

def holders (state : GatewayState) (leg : Leg) (reservation : Reservation) : Nat :=
  ((state.pools leg reservation.route).active.map ActiveRequest.reservation).count reservation

def settledReservations (state : GatewayState) (leg : Leg) (route : String) : List Reservation :=
  (state.pools leg route).session.settlements.map Settlement.reservation

variable {state next : GatewayState} {leg : Leg} {reservation : Reservation} {now : Int}

theorem step_exit {config : GatewayConfig} {event : GatewayEvent} {exit : ProxyExit}
    (stepped : step config state event = some next)
    (exits : event.action.exit = some (leg, reservation, exit)) :
    ∃ s, config.store reservation.route = some s ∧
      ⟨reservation, exit.stage⟩ ∈ (state.pools leg reservation.route).active ∧
      next.pools = (state.setPool leg reservation.route
        (settlePool s (state.pools leg reservation.route) event.now ⟨reservation, exit.stage⟩
          exit.sample)).pools ∧
      next.log = state.log := by
  obtain ⟨now, action⟩ := event
  unfold step at stepped
  split at stepped
  · cases stepped
  cases action with
  | settle | fail =>
    cases exits
    obtain ⟨s, built, rest⟩ := Option.bind_eq_some_iff.mp stepped
    obtain ⟨enabled, isNext⟩ := Option.ite_none_right_eq_some.mp rest
    cases isNext
    exact ⟨s, built, enabled, rfl, rfl⟩
  | arrive | respond | retryAfter | snapshot => cases exits

structure NoExit (state next : GatewayState) : Prop where
  settled : ∀ leg route, next.settledReservations leg route = state.settledReservations leg route
  held : ∀ leg reservation, next.selections leg reservation + state.holders leg reservation =
    state.selections leg reservation + next.holders leg reservation

theorem NoExit.of_pool {route : String} {pool : Pool}
    (pools : next.pools = (state.setPool leg route pool).pools)
    (settlements : pool.session.settlements = (state.pools leg route).session.settlements)
    (held : ∀ reservation : Reservation, reservation.route = route →
      next.selections leg reservation +
          ((state.pools leg route).active.map ActiveRequest.reservation).count reservation =
        state.selections leg reservation +
          (pool.active.map ActiveRequest.reservation).count reservation)
    (others : ∀ other (reservation : Reservation), ¬ (other = leg ∧ reservation.route = route) →
      next.selections other reservation = state.selections other reservation) :
    NoExit state next := by
  constructor
  · intro other name
    unfold settledReservations
    rw [pools]
    by_cases same : other = leg ∧ name = route
    · obtain ⟨rfl, rfl⟩ := same
      rw [setPool_pools_same, settlements]
    · rw [setPool_pools_other _ _ same]
  · intro other reservation
    unfold holders
    rw [pools]
    by_cases same : other = leg ∧ reservation.route = route
    · obtain ⟨rfl, rfl⟩ := same
      rw [setPool_pools_same]
      exact held reservation rfl
    · rw [setPool_pools_other _ _ same, others other reservation same]

theorem count_selected {other : Leg} {route : String} {granted : Option Nat}
    (reservation : Reservation) :
    (granted.map (fun index => GatewayRecord.selected leg route index now)).toList.count
        (.selected other reservation.route reservation.index reservation.takenAt) =
      if other = leg then
        (granted.map (fun index => (⟨route, index, now⟩ : Reservation))).toList.count reservation
      else 0 := by
  obtain ⟨onRoute, index, takenAt⟩ := reservation
  cases granted with
  | none => simp
  | some i =>
    by_cases same : leg = other
    · subst same
      simp [List.count_cons]
    · have different : other ≠ leg := fun other => same other.symm
      simp [same, different]

theorem respondPool_spec (s : Store UInt64) (leg : Leg) {pool : Pool} (now : Int)
    (answer : UpstreamAnswer) (readAt : Int)
    (forwarding : ⟨reservation, .forwarding⟩ ∈ pool.active) :
    (respondPool s leg pool now reservation answer readAt).1.session.settlements =
        pool.session.settlements ∧
      ((respondPool s leg pool now reservation answer readAt).1.active.map
        ActiveRequest.reservation).Perm (pool.active.map ActiveRequest.reservation) ∧
      ∀ other route index instant,
        (respondPool s leg pool now reservation answer readAt).2.count
          (.selected other route index instant) = 0 := by
  have answered := answered_perm answer forwarding
  unfold respondPool
  cases retirementFor reservation answer readAt with
  | none => exact ⟨rfl, answered, fun _ _ _ _ => rfl⟩
  | some c => exact ⟨rfl, answered, fun _ _ _ _ => by simp⟩

theorem step_noExit {config : GatewayConfig} {event : GatewayEvent}
    (stepped : step config state event = some next) (stays : event.action.exit = none) :
    NoExit state next := by
  obtain ⟨now, action⟩ := event
  unfold step at stepped
  split at stepped
  · cases stepped
  cases action with
  | settle | fail => cases stays
  | arrive leg route =>
    obtain ⟨s, built, rfl⟩ := Option.map_eq_some_iff.mp stepped
    refine .of_pool rfl rfl (fun reservation _ => ?_) (fun other reservation different => ?_)
    · simp only [selections, arrivePool, List.count_append, List.map_append, count_selected, if_true]
      generalize (s.call _ _ (.reserve route)).2.reservation = granted
      cases granted with
      | none => simp
      | some index =>
        simp only [Option.map_some, Option.toList_some, List.map_cons, List.map_nil]
        omega
    · simp only [selections, List.count_append, count_selected, Nat.add_eq_left]
      split
      next same =>
        refine List.count_eq_zero.mpr fun member => different ⟨same, ?_⟩
        obtain ⟨index, _, rfl⟩ := Option.map_eq_some_iff.mp (Option.mem_toList.mp member)
        rfl
      next => rfl
  | respond leg reservation answer readAt =>
    obtain ⟨s, built, rest⟩ := Option.bind_eq_some_iff.mp stepped
    obtain ⟨enabled, isNext⟩ := Option.ite_none_right_eq_some.mp rest
    obtain ⟨settlements, answered, unselected⟩ := respondPool_spec s leg now answer readAt enabled.1
    have same (other : Leg) (held : Reservation) :
        next.selections other held = state.selections other held := by
      rw [← Option.some.inj isNext]
      exact List.count_append.trans (congrArg (Nat.add _) (unselected ..))
    have pools : next.pools = (state.setPool leg reservation.route
        (respondPool s leg (state.pools leg reservation.route) now reservation answer readAt).1).pools := by
      rw [← Option.some.inj isNext]
      rfl
    refine .of_pool pools settlements (fun held _ => ?_) (fun other held _ => same other held)
    rw [same, answered.count_eq]
  | retryAfter | snapshot =>
    obtain ⟨s, built, rfl⟩ := Option.map_eq_some_iff.mp stepped
    exact .of_pool rfl rfl (fun _ _ => rfl) (fun _ _ _ => rfl)

theorem settledReservations_exit {s : Store UInt64} {stage : RequestStage} {sample : UsageSample}
    (pools : next.pools = (state.setPool leg reservation.route
      (settlePool s (state.pools leg reservation.route) now ⟨reservation, stage⟩ sample)).pools)
    (other : Leg) (route : String) :
    next.settledReservations other route = state.settledReservations other route ++
      if leg = other ∧ reservation.route = route then [reservation] else [] := by
  unfold settledReservations
  rw [pools]
  by_cases same : leg = other ∧ reservation.route = route
  · obtain ⟨rfl, rfl⟩ := same
    rw [setPool_pools_same]
    simp [settlePool, LeaseSession.settle]
  · rw [setPool_pools_other _ _ (fun back => same ⟨back.1.symm, back.2.symm⟩)]
    simp [same]

theorem holders_exit {s : Store UInt64} {stage : RequestStage} {sample : UsageSample}
    (member : ⟨reservation, stage⟩ ∈ (state.pools leg reservation.route).active)
    (pools : next.pools = (state.setPool leg reservation.route
      (settlePool s (state.pools leg reservation.route) now ⟨reservation, stage⟩ sample)).pools)
    (other : Leg) (held : Reservation) :
    state.holders other held =
      next.holders other held + if leg = other ∧ reservation = held then 1 else 0 := by
  unfold holders
  rw [pools]
  by_cases same : leg = other ∧ reservation.route = held.route
  · obtain ⟨rfl, onRoute⟩ := same
    have erased := ((List.perm_cons_erase member).map ActiveRequest.reservation).count_eq held
    rw [← onRoute, setPool_pools_same, erased, List.map_cons, List.count_cons]
    simp [settlePool]
  · have different : ¬ (leg = other ∧ reservation = held) :=
      fun both => same ⟨both.1, congrArg Reservation.route both.2⟩
    rw [setPool_pools_other _ _ (fun back => same ⟨back.1.symm, back.2.symm⟩), if_neg different,
      Nat.add_zero]

end GatewayState

theorem GatewayConfig.withRoutes_store {config : GatewayConfig} {routes : String → Option RotatedRoute}
    {route : String} {s : Store UInt64} (built : (config.withRoutes routes).store route = some s) :
    ∃ rotated, routes route = some rotated ∧ s = newRotationStore rotated.pooled := by
  simp only [GatewayConfig.store, GatewayConfig.withRoutes, Option.map_map] at built
  obtain ⟨rotated, known, rfl⟩ := Option.map_eq_some_iff.mp built
  exact ⟨rotated, known, rfl⟩

theorem LeaseSession.addedBy_eq {rotated : RotatedRoute} {session : LeaseSession UInt64} {now : Int}
    {reservation : Reservation} {exit : ProxyExit} (fromBody : exit.FromBody)
    (present : (session.store.keyAt reservation.route reservation.index).isSome = true) :
    session.addedBy (newRotationStore rotated.pooled) now reservation exit.sample =
      exit.audited rotated.rotation reservation := by
  obtain ⟨k, isKey⟩ := Option.isSome_iff_exists.mp present
  obtain ⟨rs, known, there⟩ := StoreState.keyAt_eq_some.mp isKey
  obtain ⟨found, isFound⟩ : ∃ found, (newRotationStore rotated.pooled).foundKey session.store
      reservation.route reservation.index now = some found := by
    rw [Store.foundKey, known, Option.bind_some, Store.advanceLocked_getElem?, there]
    exact ⟨_, rfl⟩
  have left : (session.settle (newRotationStore rotated.pooled) now reservation exit.sample).store.keyAt
      reservation.route reservation.index = _ :=
    (Store.call_of_foundKey known isFound
      (.recordSample reservation.route reservation.index exit.sample)
      (fun _ k => (newRotationStore rotated.pooled).settleLocked k (Store.normalise exit.sample)) rfl).1
  unfold addedBy
  rw [isFound, left]
  exact rotated.exit_tokens found reservation fromBody

/-- What a run has audited and what it has settled agree, and every request that was given
a key holds its lease or has settled it, once. -/
structure Reconciles (state : GatewayState) (postings : List Posting) : Prop where
  exact : ∀ posting ∈ postings, posting.audited = posting.added
  settled : ∀ leg route,
    (postings.filter (fun posting => decide (posting.leg = leg ∧ posting.reservation.route = route))).map
      Posting.reservation = state.settledReservations leg route
  once : ∀ leg reservation, state.selections leg reservation = state.holders leg reservation +
    (state.settledReservations leg reservation.route).count reservation

def GatewayEvent.FromBody (event : GatewayEvent) : Prop :=
  ∀ leg reservation exit, event.action.exit = some (leg, reservation, exit) → exit.FromBody

namespace Reconciles

variable {config : GatewayConfig} {routes : String → Option RotatedRoute} {state next : GatewayState}
  {postings : List Posting} {event : GatewayEvent}

theorem noExit (reconciles : Reconciles state postings) (stays : GatewayState.NoExit state next) :
    Reconciles next postings where
  exact := reconciles.exact
  settled leg route := by rw [stays.settled, reconciles.settled]
  once leg reservation := by
    have held := stays.held leg reservation
    have before := reconciles.once leg reservation
    rw [stays.settled]
    omega

theorem exit {leg : Leg} {reservation : Reservation} {exit : ProxyExit} {added audited : Int}
    {s : Store UInt64} (reconciles : Reconciles state postings) (agrees : audited = added)
    (member : ⟨reservation, exit.stage⟩ ∈ (state.pools leg reservation.route).active)
    (pools : next.pools = (state.setPool leg reservation.route
      (GatewayState.settlePool s (state.pools leg reservation.route) event.now
        ⟨reservation, exit.stage⟩ exit.sample)).pools)
    (log : next.log = state.log) :
    Reconciles next (postings ++ [⟨leg, reservation, audited, added⟩]) where
  exact := forall_mem_concat reconciles.exact agrees
  settled other route := by
    rw [GatewayState.settledReservations_exit pools, List.filter_append, List.map_append,
      reconciles.settled]
    congr 1
    by_cases same : leg = other ∧ reservation.route = route
    · simp [same]
    · simp [same]
  once other held := by
    have before := reconciles.once other held
    have fewer := GatewayState.holders_exit member pools other held
    have same : next.selections other held = state.selections other held := by
      unfold GatewayState.selections
      rw [log]
    have counted : (if leg = other ∧ reservation.route = held.route then [reservation] else []).count
        held = if leg = other ∧ reservation = held then 1 else 0 := by
      by_cases isHeld : reservation = held
      · subst isHeld
        by_cases onLeg : leg = other <;> simp [onLeg]
      · have different : ¬ (leg = other ∧ reservation = held) := fun both => isHeld both.2
        rw [if_neg different]
        split
        next => simp [isHeld]
        next => rfl
    rw [GatewayState.settledReservations_exit pools, List.count_append, counted]
    omega

theorem of_run {trace : List GatewayEvent} {final : GatewayState}
    (ran : ((gateway (config.withRoutes routes)).recording
      (postingsOf (config.withRoutes routes) routes)).run ((config.withRoutes routes).start, []) trace =
        some (final, postings))
    (read : ∀ event ∈ trace, event.FromBody) : Reconciles final postings := by
  induction trace using List.reverseRecOn generalizing final postings with
  | nil =>
    cases ran
    exact ⟨by simp, fun _ _ => rfl, fun _ _ => rfl⟩
  | append_singleton earlier event ih =>
    obtain ⟨⟨state, before⟩, reached, recorded⟩ := Machine.run_concat_eq_some _ |>.mp ran
    obtain ⟨stepped, rfl⟩ := (Machine.recording_step_eq_some _ _).mp recorded
    have reconciles := ih reached (fun other member => read other (List.mem_append_left _ member))
    have run := Machine.run_of_recording _ _ reached
    cases exits : event.action.exit with
    | none =>
      have unposted : postingsOf (config.withRoutes routes) routes state event = [] := by
        simp [postingsOf, exits]
      rw [unposted, List.append_nil]
      exact reconciles.noExit (GatewayState.step_noExit stepped exits)
    | some ended =>
      obtain ⟨leg, reservation, exit⟩ := ended
      obtain ⟨s, built, member, pools, log⟩ := GatewayState.step_exit stepped exits
      obtain ⟨rotated, known, rfl⟩ := GatewayConfig.withRoutes_store built
      obtain ⟨⟨_, session⟩, matched, _⟩ := GatewayState.pools_refine run leg built
      have present := LeaseSession.held_keyAt session reservation (matched.mem member)
      have fromBody := read event (List.mem_append_right _ List.mem_cons_self) leg reservation exit exits
      have posted : postingsOf (config.withRoutes routes) routes state event =
          [⟨leg, reservation, exit.audited rotated.rotation reservation,
            (state.pools leg reservation.route).session.addedBy (newRotationStore rotated.pooled)
              event.now reservation exit.sample⟩] := by
        simp [postingsOf, exits, built, known]
      rw [posted]
      exact reconciles.exit (LeaseSession.addedBy_eq fromBody present).symm member pools log

end Reconciles

def Posting.isOn (posting : Posting) (leg : Leg) (route : String) (index : Nat) : Bool :=
  decide (posting.leg = leg) && posting.reservation.isOn route index

/-- In every run of the gateway each settlement adds to its key what is audited for the
request, so that the sums agree for each key, and every request settles its lease once,
whichever way it ends. -/
theorem audit_reconciles (config : GatewayConfig) (routes : String → Option RotatedRoute)
    (trace : List GatewayEvent) (final : GatewayState) (postings : List Posting)
    (ran : ((gateway (config.withRoutes routes)).recording
      (postingsOf (config.withRoutes routes) routes)).run ((config.withRoutes routes).start, []) trace =
        some (final, postings))
    (read : ∀ event ∈ trace, event.FromBody) :
    Reconciles final postings ∧
      (∀ leg route index,
        ((postings.filter (fun posting => posting.isOn leg route index)).map Posting.audited).sum =
          ((postings.filter (fun posting => posting.isOn leg route index)).map Posting.added).sum) ∧
      ∀ exit : ProxyExit, exit.settlements = [exit.sample] := by
  have reconciles := Reconciles.of_run ran read
  refine ⟨reconciles, fun leg route index => ?_, ProxyExit.settlements_eq⟩
  have same : (postings.filter (fun posting => posting.isOn leg route index)).map Posting.audited =
      (postings.filter (fun posting => posting.isOn leg route index)).map Posting.added :=
    List.map_congr_left (fun posting member => reconciles.exact posting (List.mem_filter.mp member).1)
  rw [same]

def estimating : RotationConfig where
  policy := .roundRobin
  budget := { window := 0, tokens := 0, requests := 0, softRatio := .finite 0, estimateTokens := 40 }
  maxRetryAfter := 0
  estimate_int64 := by decide

def auditedRoutes (route : String) : Option RotatedRoute :=
  if route = "chat" then some ⟨1, none⟩
  else if route = "plan" then some ⟨1, some estimating⟩
  else none

def auditedConfig : GatewayConfig where
  routes := fun _ => none
  startup := 0
  storeStart := fun _ _ => 0
  serving := 0
  startup_le := fun _ _ => Int.le_refl 0
  le_serving := fun _ _ => Int.le_refl 0

def reportingBody : Bytes := lit "\x7b\"total_tokens\": 7\x7d"

def reportedAnswer : UpstreamAnswer := ⟨200, ⟨.completed, 7, false⟩, none⟩

def silentAnswer : UpstreamAnswer := ⟨200, ⟨.completed, tokensUnknown, true⟩, none⟩

def auditedTrace : List GatewayEvent :=
  [⟨1, .arrive .aes "chat"⟩, ⟨2, .arrive .aes "plan"⟩,
    ⟨3, .respond .aes ⟨"chat", 0, 1⟩ reportedAnswer 3⟩,
    ⟨4, .respond .aes ⟨"plan", 0, 2⟩ silentAnswer 4⟩,
    ⟨5, .settle .aes ⟨"plan", 0, 2⟩ silentAnswer⟩, ⟨6, .settle .aes ⟨"chat", 0, 1⟩ reportedAnswer⟩]

theorem audit_reconciles_estimate :
    ∃ final postings,
      ((gateway (auditedConfig.withRoutes auditedRoutes)).recording
        (postingsOf (auditedConfig.withRoutes auditedRoutes) auditedRoutes)).run
          ((auditedConfig.withRoutes auditedRoutes).start, []) auditedTrace = some (final, postings) ∧
      postings.map Posting.audited = [40, 7] ∧
      ∀ posting ∈ postings, posting.audited = posting.added := by
  have facts : (((gateway (auditedConfig.withRoutes auditedRoutes)).recording
      (postingsOf (auditedConfig.withRoutes auditedRoutes) auditedRoutes)).run
        ((auditedConfig.withRoutes auditedRoutes).start, []) auditedTrace).map
          (fun reached => reached.2.map Posting.audited) = some [40, 7] := by
    decide +kernel
  have reported : reportedAnswer.usage = usageOf [reportingBody] := by
    have found : Bytes.lastIndex reportingBody usageMarker = some 1 := by decide +kernel
    have tail : [reportingBody].foldl TailExtractor.observe .new = ⟨reportingBody⟩ := by decide +kernel
    have read : TailExtractor.lastUsage reportingBody = some 7 :=
      TailExtractor.lastUsage_of_lastIndex found (by decide +kernel)
    rw [usageOf, tail, TailExtractor.result, read]
    rfl
  have silent : silentAnswer.usage = usageOf [] := by
    have read : TailExtractor.lastUsage [] = none :=
      TailExtractor.lastUsage_of_unmarked (by decide +kernel)
    rw [usageOf, List.foldl_nil, TailExtractor.result, TailExtractor.new, read]
    rfl
  obtain ⟨⟨final, postings⟩, ran, audited⟩ := Option.map_eq_some_iff.mp facts
  refine ⟨final, postings, ran, audited, (audit_reconciles _ _ _ _ _ ran ?_).1.exact⟩
  intro event member leg reservation exit exits
  simp only [auditedTrace, List.mem_cons, List.not_mem_nil, or_false] at member
  rcases member with rfl | rfl | rfl | rfl | rfl | rfl <;> cases exits
  · exact ⟨_, silent⟩
  · exact ⟨_, reported⟩

end ClusterRouter.Channel
