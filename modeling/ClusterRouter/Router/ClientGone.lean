import ClusterRouter.Router.LoopHistory

/-! Every attempt's context is derived from the client's, so a cancelled request makes the
attempt in hand and each later one fail, which the loop takes for a failure of the node. -/

set_option autoImplicit false

namespace ClusterRouter.Router

open Foundation

/-- `gone` is set once the client's context is cancelled, `abandoned` while the failure of
the attempt in hand is due to that. -/
structure ClientWorld where
  world : World
  gone : Bool
  abandoned : Bool

inductive ClientAction where
  | act (action : Action)
  | cancel
  | abandon (now : Int)

namespace ClientWorld

/-- A cancelled exchange is no stale connection, so it is not sent again. -/
def step (library : Library) (state : ClientWorld) : ClientAction → Option ClientWorld
  | .act (.fail now) =>
    (state.world.step library (.fail now)).map (fun world =>
      { state with world, abandoned := false })
  | .act action => (state.world.step library action).map (fun world => { state with world })
  | .cancel => some { state with gone := true }
  | .abandon now =>
    if state.gone then
      (state.world.step library (.exchange (.failure false) now)).map (fun world =>
        { state with world, abandoned := true })
    else none

end ClientWorld

def clientMachine (library : Library) : Machine ClientWorld ClientAction where
  step state action := state.step library action

def SameStanding (before after : Heap) : Prop :=
  ∀ id, (after id).healthy = (before id).healthy ∧ (after id).breaker = (before id).breaker

/-- Every attempt of the run that failed because the client was gone left the health flags
and breakers of all nodes as they were. -/
def Harmless (library : Library) (start : ClientWorld) (trace : List ClientAction) : Prop :=
  ∀ before now after middle next, trace = before ++ .act (.fail now) :: after →
    (clientMachine library).run start before = some middle →
    (clientMachine library).step middle (.act (.fail now)) = some next → middle.abandoned = true →
    SameStanding middle.world.shared.heap next.world.shared.heap

/-- A node that an abandoned attempt failed at is not probed or is marked unhealthy
already, and its breaker is open. -/
def alreadyOut (state : ClientWorld) (action : ClientAction) : Bool :=
  match action, state.world.phase with
  | .act (.fail _), .looping _ _ loop =>
    match loop.candidate with
    | some node =>
      let standing := state.world.shared.heap node.id
      !state.abandoned ||
        ((node.cfg.healthCheckDisabled || !standing.healthy) &&
          decide (standing.breaker.state = .opened))
    | none => true
  | _, _ => true

variable {now : Int} {library : Library} {state : ClientWorld}

theorem Breaker.recordFailure_eq_iff {breaker : Breaker} :
    breaker.recordFailure now = breaker ↔ breaker.state = .opened := by
  obtain ⟨state, failures, threshold, cooldown, openedAt⟩ := breaker
  cases state with
  | closed =>
    unfold recordFailure
    dsimp only
    split <;> simp
  | opened | halfOpen => simp [recordFailure]

theorem World.fail_eq_some {world next : World}
    (stepped : world.step library (.fail now) = some next) :
    ∃ context ask loop node, world.phase = .looping context ask loop ∧ loop.candidate = some node ∧
      next.shared = world.shared.update node (fun state =>
        { state with
          healthy := if node.cfg.healthCheckDisabled then state.healthy else false
          breaker := state.breaker.recordFailure now }) := by
  cases step_move stepped with
  | environment others => cases others
  | refuse outside => cases outside
  | loop phase move =>
    cases move with
    | fail _ candidate => exact ⟨_, _, _, _, phase, candidate, rfl⟩

theorem ClientWorld.fail_eq_some {next : ClientWorld}
    (stepped : state.step library (.act (.fail now)) = some next) :
    state.world.step library (.fail now) = some next.world := by
  obtain ⟨world, moved, rfl⟩ := Option.map_eq_some_iff.mp stepped
  exact moved

theorem sameStanding_iff {next : ClientWorld}
    (stepped : state.step library (.act (.fail now)) = some next)
    (abandoned : state.abandoned = true) :
    SameStanding state.world.shared.heap next.world.shared.heap ↔
      alreadyOut state (.act (.fail now)) = true := by
  obtain ⟨context, ask, loop, node, phase, candidate, after⟩ :=
    World.fail_eq_some (ClientWorld.fail_eq_some stepped)
  simp only [alreadyOut, phase, candidate, abandoned, Bool.not_true, Bool.false_or,
    Bool.and_eq_true, decide_eq_true_eq]
  rw [← Breaker.recordFailure_eq_iff, after]
  constructor
  · intro same
    obtain ⟨healthy, breaker⟩ := same node.id
    simp only [Shared.update, Heap.set_same] at healthy breaker
    refine ⟨?_, breaker⟩
    cases disabled : node.cfg.healthCheckDisabled with
    | true => rfl
    | false =>
      rw [disabled, if_neg Bool.false_ne_true] at healthy
      simp [← healthy]
  · rintro ⟨out, breaker⟩ id
    by_cases same : id = node.id
    · subst same
      simp only [Shared.update, Heap.set_same]
      refine ⟨?_, breaker⟩
      cases disabled : node.cfg.healthCheckDisabled with
      | true => rfl
      | false =>
        rw [disabled, Bool.false_or] at out
        simpa using out
    · simp only [Shared.update, Heap.set_other _ _ same]
      exact ⟨trivial, trivial⟩

theorem alreadyOut_of_other {action : ClientAction} (other : ∀ now, action ≠ .act (.fail now)) :
    alreadyOut state action = true := by
  unfold alreadyOut
  split
  next now _ _ _ _ => exact absurd rfl (other now)
  next => rfl

theorem alreadyOut_of_not_abandoned {action : ClientAction} (kept : state.abandoned = false) :
    alreadyOut state action = true := by
  unfold alreadyOut
  split
  next =>
    split
    next => simp [kept]
    next => rfl
  next => rfl

theorem Harmless.alreadyOut {start final : ClientWorld} {trace : List ClientAction}
    (harmless : Harmless library start trace)
    (ran : (clientMachine library).run start trace = some final) :
    (clientMachine library).Meets (fun state action => alreadyOut state action = true) start trace := by
  refine ((clientMachine library).meets_iff_forall ran).mpr fun before action after middle split reached => ?_
  by_cases fails : ∃ now, action = .act (.fail now)
  · obtain ⟨now, rfl⟩ := fails
    cases abandoned : middle.abandoned with
    | false => exact alreadyOut_of_not_abandoned abandoned
    | true =>
      rw [split] at ran
      obtain ⟨_, isMiddle, rest⟩ := (clientMachine library).run_append_eq_some.mp ran
      cases reached.symm.trans isMiddle
      obtain ⟨next, stepped, _⟩ := (clientMachine library).run_cons_eq_some.mp rest
      exact (sameStanding_iff stepped abandoned).mp
        (harmless before now after middle next split reached stepped abandoned)
  · exact alreadyOut_of_other fun now is => fails ⟨now, is⟩

/-- A run with a client that goes away at any point harms no node exactly if every node
that an abandoned attempt fails at is out already. -/
theorem departed_client_harmless_iff (library : Library) {start final : ClientWorld}
    {trace : List ClientAction} (ran : (clientMachine library).run start trace = some final) :
    Harmless library start trace ↔
      (clientMachine library).Meets (fun state action => alreadyOut state action = true) start trace := by
  constructor
  · intro harmless
    exact harmless.alreadyOut ran
  · intro out before now after middle next split reached stepped abandoned
    have here := ((clientMachine library).meets_iff_forall ran).mp out before _ after middle split reached
    exact (sameStanding_iff stepped abandoned).mpr here

def arrivedAt (library : Library) (cfg : Config) (request : Request) : Option ClientWorld :=
  match newRouter library cfg freshHeap request with
  | .error _ => none
  | .ok world => some ⟨world, false, false⟩

def sentSchedule : List ClientAction :=
  [.snapshot 1, .readBody (.complete [104, 105]), .classify, .route (lit "m") .off (fun _ => 0),
    .acquire .admitted, .send true 0].map .act

def downShared : Shared := ⟨fun _ => ⟨false, ⟨.opened, 5, 5, 30 * Duration.second, 0⟩, .new [] 0⟩, 1⟩

def lateDepartureSchedule : List ClientAction :=
  sentSchedule ++ [.cancel, .act (.others downShared), .abandon 1, .act (.fail 1),
    .act (.choose (fun _ => 1)), .act .leave]

theorem departed_client_harmless_late :
    ∃ start final, arrivedAt plainLibrary (clusterOf [cloudNode, localNode]) internalRequest = some start ∧
      (clientMachine plainLibrary).run start lateDepartureSchedule = some final ∧
      final.gone = true ∧ Harmless plainLibrary start lateDepartureSchedule := by
  have facts : ((arrivedAt plainLibrary (clusterOf [cloudNode, localNode]) internalRequest).bind
      (fun start => ((clientMachine plainLibrary).run start lateDepartureSchedule).map
        (fun final => (final.gone, decide ((clientMachine plainLibrary).Meets
          (fun state action => alreadyOut state action = true) start lateDepartureSchedule))))) =
      some (true, true) := by
    decide +kernel
  obtain ⟨start, arrived, rest⟩ := Option.bind_eq_some_iff.mp facts
  obtain ⟨final, ran, known⟩ := Option.map_eq_some_iff.mp rest
  obtain ⟨gone, out⟩ := Prod.mk.inj known
  exact ⟨start, final, arrived, ran, gone,
    (departed_client_harmless_iff plainLibrary ran).mpr (of_decide_eq_true out)⟩

def departureSchedule : List ClientAction :=
  sentSchedule ++ [.cancel, .abandon 1, .act (.fail 1), .act (.choose (fun _ => 1)),
    .act (.send true 1), .abandon 1, .act (.fail 1), .act (.choose (fun _ => 1)), .act .leave]

/-- Both nodes end up unhealthy, with a failure on each breaker. -/
theorem departed_client_takes_nodes_down :
    ∃ start final, arrivedAt plainLibrary (clusterOf [cloudNode, localNode]) internalRequest = some start ∧
      (clientMachine plainLibrary).run start departureSchedule = some final ∧
      (final.world.shared.heap 0).healthy = false ∧ (final.world.shared.heap 1).healthy = false ∧
      (final.world.shared.heap 0).breaker.failures = 1 ∧
      (final.world.shared.heap 1).breaker.failures = 1 ∧
      ¬ Harmless plainLibrary start departureSchedule := by
  have facts : ((arrivedAt plainLibrary (clusterOf [cloudNode, localNode]) internalRequest).bind
      (fun start => ((clientMachine plainLibrary).run start departureSchedule).map
        (fun final => ((final.world.shared.heap 0).healthy, (final.world.shared.heap 1).healthy,
          (final.world.shared.heap 0).breaker.failures, (final.world.shared.heap 1).breaker.failures,
          decide ((clientMachine plainLibrary).Meets
            (fun state action => alreadyOut state action = true) start departureSchedule))))) =
      some (false, false, 1, 1, false) := by
    decide +kernel
  obtain ⟨start, arrived, rest⟩ := Option.bind_eq_some_iff.mp facts
  obtain ⟨final, ran, known⟩ := Option.map_eq_some_iff.mp rest
  simp only [Prod.mk.injEq, decide_eq_false_iff_not] at known
  obtain ⟨first, second, firstFailures, secondFailures, notOut⟩ := known
  refine ⟨start, final, arrived, ran, first, second, firstFailures, secondFailures, fun harmless => ?_⟩
  exact notOut (harmless.alreadyOut ran)

end ClusterRouter.Router
