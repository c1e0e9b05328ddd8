import ClusterRouter.Router.HandlerProperties
import ClusterRouter.SmartRoute.Decide

/-! For a whole request: the first selection, those after a failure and those that let a node in
again for another key. -/

set_option autoImplicit false

namespace ClusterRouter.Router

open Foundation

structure SelectionRecord.Sound (record : SelectionRecord) : Prop where
  returns : record.selection ≠ .crashed
  eligible : ∀ node, record.selection = .chosen node →
    node ∈ record.nodes ∧ Eligible record.ask record.excluded record.clock record.heap node
  lowest : ∀ node, record.selection = .chosen node → ∀ other ∈ record.nodes,
    Eligible record.ask record.excluded record.clock record.heap other →
      node.cfg.priority ≤ other.cfg.priority
  noNode : record.selection = .noNode ↔ ∀ node ∈ record.nodes,
    ¬ Eligible record.ask record.excluded record.clock record.heap node

theorem SelectionRecord.Genuine.sound {record : SelectionRecord} {rr : Nat}
    (genuine : record.Genuine rr) (few : rr ≤ 2 ^ 63) : record.Sound := by
  have made := genuine.selection
  constructor
  · intro crashed
    have small : record.rr < 2 ^ 63 :=
      Nat.lt_of_lt_of_le (genuine.counted (by simp [crashed])) few
    exact not_crashed small (made ▸ crashed)
  · exact fun node chosen => (of_chosen (made ▸ chosen)).1
  · exact fun node chosen => (of_chosen (made ▸ chosen)).2
  · rw [made]
    exact noNode_iff

theorem allowsClass_customer {node : UpstreamNode} (allows : node.allowsClass .customer = true) :
    node.cfg.workloads = [] ∨ lit "customer" ∈ node.cfg.workloads := by
  unfold UpstreamNode.allowsClass at allows
  split at allows
  next empty => exact .inl empty
  next => exact .inr (of_decide_eq_true allows)

theorem asks_its_class {library : Library} {cfg : Config} {heap : Heap} {request : Request}
    {world final : World} {trace : List Action}
    (started : newRouter library cfg heap request = .ok world)
    (ran : (machine library).run world trace = some final) :
    ∀ attempt ∈ final.trace.attempts, attempt.ask.workload = request.workload := by
  obtain ⟨phase, empty, same, _⟩ := newRouter_arrived started
  have kept := (machine library).run_invariant
    (fun world => world.request = request ∧ AskedAs (fun _ ask => ask.workload = request.workload) world)
    (fun world action next stepped ⟨same, asked⟩ => by
      have move := World.step_move stepped
      refine ⟨move.request_eq.trans same, asked.move move fun _ ask _ workload => ?_⟩
      rw [workload, same])
    ran ⟨same, fun context ask is => by rw [phase] at is; exact is.elim, by simp [empty, Trace.empty]⟩
  exact kept.2.attempts

/-! ## What a request is routed by -/

/-- The model of the body the handler goes on with, and what the smart router of the
snapshot, if there is one, makes of the request. -/
def routeFor (toLower : Bytes → Bytes) (smart : Option SmartRoute.Router) (header : Option Header)
    (body : Bytes) : Except Panic (Bytes × SmartRoute) :=
  match smart with
  | none => .ok (SmartRoute.extractModel body, .off)
  | some router =>
    if router.agentAllowed toLower (SmartRoute.detectAgent toLower header) = false then
      .ok (SmartRoute.extractModel body, .agentDisabled)
    else do
      let routed ← router.routedBody toLower header body
      match router.decide toLower header body with
      | .error _ => return (SmartRoute.extractModel routed, .undecided)
      | .ok decision => return (SmartRoute.extractModel routed, .decided decision.tier)

/-- A routing step is given what the handler computes for the body. -/
def routesAs (toLower : Bytes → Bytes) (smart : Snap → Option SmartRoute.Router)
    (header : Option Header) (world : World) (action : Action) : Bool :=
  match action, world.phase with
  | .route model outcome _, .classified context _ =>
    match routeFor toLower (smart context.snap) header context.body with
    | .ok found => decide (found = (model, outcome))
    | .error _ => false
  | _, _ => true

theorem routeFor_of_routesAs {toLower : Bytes → Bytes} {smart : Snap → Option SmartRoute.Router}
    {header : Option Header} {world : World} {model : Bytes} {outcome : SmartRoute}
    {clock : Nat → Int} {context : Context} {personal : Bool}
    (routes : routesAs toLower smart header world (.route model outcome clock) = true)
    (phase : world.phase = .classified context personal) :
    routeFor toLower (smart context.snap) header context.body = .ok (model, outcome) := by
  simp only [routesAs, phase] at routes
  split at routes
  next found is => rw [is, of_decide_eq_true routes]
  next => cases routes

def SmartRoute.decidedTier : SmartRoute → Bytes
  | .decided tier => tier
  | .off | .agentDisabled | .undecided => []

theorem SmartRoute.tierFor_eq (request : Request) (outcome : SmartRoute) :
    outcome.tierFor request = if request.tier = [] then outcome.decidedTier else request.tier := by
  cases outcome with
  | decided tier => rfl
  | off | agentDisabled | undecided =>
    by_cases empty : request.tier = [] <;> simp [tierFor, decidedTier, empty]

/-! ## What a selection should be made from -/

def World.candidate (world : World) : Option UpstreamNode :=
  match world.phase with
  | .looping _ _ loop => loop.candidate
  | _ => none

/-- A selection that is due: from which nodes, for what, without which names, and the state
and time of the moment. -/
structure Due where
  nodes : List UpstreamNode
  ask : Ask
  leftOut : List Bytes
  clock : Nat → Int
  heap : Heap

structure Due.Agrees (due : Due) (record : SelectionRecord) : Prop where
  nodes : record.nodes = due.nodes
  ask : record.ask = due.ask
  excluded : ∀ name, name ∈ record.excluded ↔ name ∈ due.leftOut
  clock : record.clock = due.clock
  heap : record.heap = due.heap

/-- What a run shows of its request: the snapshot and the body, what it asks for, the names
of the nodes it was made out to, and the selections due. -/
structure Chronicle where
  context : Context
  ask : Ask
  tried : List Bytes
  due : List Due

namespace Chronicle

def start (world : World) : Chronicle :=
  ⟨⟨⟨world.cfg, world.nodes⟩, []⟩, ⟨[], [], world.request.workload, false⟩, [], []⟩

def select (seen : Chronicle) (ask : Ask) (leftOut : List Bytes) (clock : Nat → Int) (world : World) :
    Chronicle :=
  { seen with
    ask
    due := seen.due ++ [⟨seen.context.snap.nodes, ask, leftOut, clock, world.shared.heap⟩] }

/-- The body is classified as it was read and under the flag of that moment. A tier of the
request's own comes before one decided for it. Every node tried is left out, but one may be
let in again for its next key. -/
def see (library : Library) (toLower : Bytes → Bytes) (smart : Snap → Option SmartRoute.Router)
    (header : Option Header) (seen : Chronicle) (world : World) : Action → Chronicle
  | .snapshot _ => { seen with context := ⟨⟨world.cfg, world.nodes⟩, []⟩ }
  | .readBody (.complete body) => { seen with context := ⟨seen.context.snap, body⟩ }
  | .classify =>
    { seen with ask := { seen.ask with
        personal := library.detectPersonal seen.context.body && world.piiRuleArmed } }
  | .route _ _ clock =>
    match routeFor toLower (smart seen.context.snap) header seen.context.body with
    | .error _ | .ok (_, .agentDisabled) => seen
    | .ok (model, outcome) =>
      let tier := world.request.tier
      seen.select ⟨model, if tier = [] then outcome.decidedTier else tier, world.request.workload,
        seen.ask.personal⟩ seen.tried clock world
  | .send _ _ =>
    { seen with tried := seen.tried ++ world.candidate.toList.map (fun node => node.cfg.name) }
  | .reselect clock =>
    seen.select seen.ask (seen.tried.filter (fun name =>
      decide (world.candidate.map (fun node => node.cfg.name) ≠ some name))) clock world
  | .choose clock => seen.select seen.ask seen.tried clock world
  | _ => seen

/-! ## The loop -/

/-- The names tried are those seen, and past its first step an attempt's own is among
them. -/
structure FollowsLoop (seen : Chronicle) (loop : Loop) : Prop where
  tried : ∀ name, name ∈ loop.tried ↔ name ∈ seen.tried
  current : loop.stage ≠ .top → ∀ node, loop.candidate = some node → node.cfg.name ∈ loop.tried

section

variable {library : Library} {toLower : Bytes → Bytes} {smart : Snap → Option SmartRoute.Router}
  {header : Option Header} {seen next : Chronicle} {world after : World} {action : Action}
  {context : Context} {ask : Ask} {loop : Loop} {progress : Progress}

theorem FollowsLoop.stay {later : Loop} {stage : Stage} (follows : FollowsLoop seen loop)
    (here : loop.stage = stage) (notTop : stage ≠ .top) (same : next.tried = seen.tried)
    (tried : ∀ name, name ∈ later.tried ↔ name ∈ loop.tried)
    (candidate : later.candidate = loop.candidate) : FollowsLoop next later := by
  refine ⟨fun name => by rw [tried, follows.tried, same], fun _ node is => (tried _).mpr ?_⟩
  exact follows.current (ne_of_eq_of_ne here notTop) node (candidate ▸ is)

theorem FollowsLoop.restart {later : Loop} (follows : FollowsLoop seen loop)
    (same : next.tried = seen.tried) (tried : ∀ name, name ∈ later.tried ↔ name ∈ loop.tried)
    (top : later.stage = .top) : FollowsLoop next later :=
  ⟨fun name => by rw [tried, follows.tried, same], absurd top⟩

theorem FollowsLoop.send {later : Loop} {node : UpstreamNode} (follows : FollowsLoop seen loop)
    (sends : next.tried = seen.tried ++ [node.cfg.name])
    (tried : later.tried = node.cfg.name :: loop.tried) (candidate : later.candidate = some node) :
    FollowsLoop next later := by
  refine ⟨fun name => ?_, fun _ other is => ?_⟩
  · rw [tried, sends, List.mem_cons, List.mem_append, List.mem_singleton, follows.tried, or_comm]
  · cases candidate.symm.trans is
    rw [tried]
    exact List.mem_cons_self

theorem FollowsLoop.mem_without_iff {node : UpstreamNode} (follows : FollowsLoop seen loop)
    (phase : world.phase = .looping context ask loop) (candidate : loop.candidate = some node)
    (name : Bytes) :
    name ∈ loop.without node ↔ name ∈ seen.tried.filter (fun name =>
      decide (world.candidate.map (fun node => node.cfg.name) ≠ some name)) := by
  simp only [Loop.without, List.mem_filter, follows.tried, World.candidate, phase, candidate,
    Option.map_some, ne_eq, Option.some.injEq, eq_comm]

/-! ## The request -/

def FollowsPhase (seen : Chronicle) : Phase → Prop
  | .arrived => seen.tried = []
  | .reading snap => seen.tried = [] ∧ seen.context.snap = snap
  | .read context => seen.tried = [] ∧ seen.context = context
  | .classified context personal =>
    seen.tried = [] ∧ seen.context = context ∧ seen.ask.personal = personal
  | .queued context ask _ => seen.tried = [] ∧ seen.context = context ∧ seen.ask = ask
  | .looping context ask loop => seen.context = context ∧ seen.ask = ask ∧ FollowsLoop seen loop
  | .relaying _ | .returned _ => True

structure Follows (seen : Chronicle) (world : World) : Prop where
  phase : seen.FollowsPhase world.phase
  due : List.Forall₂ Due.Agrees seen.due world.trace.selections

theorem Follows.select {selected : SelectionRecord × Shared} {excluded leftOut : List Bytes}
    {clock : Nat → Int} {nodes : List UpstreamNode} (follows : Follows seen world)
    (made : world.shared.select nodes ask excluded clock = selected)
    (same : seen.context.snap.nodes = nodes) (left : ∀ name, name ∈ excluded ↔ name ∈ leftOut) :
    List.Forall₂ Due.Agrees (seen.select ask leftOut clock world).due
      (world.trace.selections ++ [selected.1]) := by
  subst made same
  exact List.rel_append follows.due (.cons ⟨rfl, rfl, left, rfl, rfl⟩ .nil)

theorem Follows.perform (follows : Follows seen world) (phase : world.phase = .looping context ask loop)
    (move : LoopMove library context ask ⟨loop, world.trace, world.shared⟩ action progress) :
    Follows (seen.see library toLower smart header world action) { world with
      phase := .looping context ask progress.loop
      trace := progress.trace
      shared := progress.shared } := by
  have phased := follows.phase
  rw [phase] at phased
  obtain ⟨rfl, rfl, inside⟩ := phased
  cases move with
  | unbuildable stage candidate | send stage candidate =>
    refine ⟨⟨rfl, rfl, inside.send ?_ rfl candidate⟩, follows.due⟩
    simp only [see, World.candidate, phase]
    rw [show loop.candidate = some _ from candidate]
    rfl
  | response stage | resend stage | lost stage | fail stage | cool stage | refuse stage
  | serve stage | allCooling stage =>
    exact ⟨⟨rfl, rfl, inside.stay stage nofun rfl (fun _ => Iff.rfl) rfl⟩, follows.due⟩
  | hold stage | score stage =>
    refine ⟨⟨rfl, rfl, inside.stay stage nofun rfl (fun _ => Iff.rfl) rfl⟩, ?_⟩
    rw [Trace.release_selections]
    exact follows.due
  | again stage candidate made =>
    have tried := inside.current (ne_of_eq_of_ne stage nofun) _ candidate
    exact ⟨⟨rfl, rfl, inside.restart rfl (Loop.mem_without tried) rfl⟩,
      follows.select made rfl (inside.mem_without_iff phase candidate)⟩
  | displace stage candidate made =>
    have tried := inside.current (ne_of_eq_of_ne stage nofun) _ candidate
    exact ⟨⟨rfl, rfl, inside.stay stage nofun rfl (Loop.mem_without tried) rfl⟩,
      follows.select made rfl (inside.mem_without_iff phase candidate)⟩
  | crashAgain stage candidate made =>
    exact ⟨⟨rfl, rfl, inside.stay stage nofun rfl (fun _ => Iff.rfl) rfl⟩,
      follows.select made rfl (inside.mem_without_iff phase candidate)⟩
  | choose stage made =>
    exact ⟨⟨rfl, rfl, inside.restart rfl (fun _ => Iff.rfl) rfl⟩, follows.select made rfl inside.tried⟩
  | crashNext stage made =>
    exact ⟨⟨rfl, rfl, inside.stay stage nofun rfl (fun _ => Iff.rfl) rfl⟩,
      follows.select made rfl inside.tried⟩

theorem Follows.route {model : Bytes} {outcome : SmartRoute} {clock : Nat → Int}
    (follows : Follows seen world) (forms : world.Forms model outcome context ask)
    (routes : routesAs toLower smart header world (.route model outcome clock) = true) :
    seen.see library toLower smart header world (.route model outcome clock) =
      seen.select ask [] clock world ∧ seen.tried = [] ∧ seen.context = context := by
  have phased := follows.phase
  rw [forms.phase] at phased
  obtain ⟨untried, rfl, personal⟩ := phased
  have same : ask = ⟨model, if world.request.tier = [] then outcome.decidedTier
      else world.request.tier, world.request.workload, seen.ask.personal⟩ := by
    obtain ⟨_, isModel, tier, workload, _⟩ := forms
    cases ask
    simp only [Ask.mk.injEq]
    exact ⟨isModel, tier.trans (SmartRoute.tierFor_eq _ _), workload, personal.symm⟩
  refine ⟨?_, untried, rfl⟩
  simp only [see, routeFor_of_routesAs routes forms.phase]
  rw [same, untried]
  cases outcome with
  | agentDisabled => exact absurd rfl forms.enabled
  | off | undecided | decided => rfl

theorem see_of_byOthers (others : action.byOthers = true) :
    seen.see library toLower smart header world action = seen := by
  cases action <;> first | rfl | cases others

theorem Follows.refuse (follows : Follows seen world) (outside : action.inLoop = false)
    (disabled : ∀ model outcome clock, action = .route model outcome clock →
      outcome = .agentDisabled ∧ ∃ context personal, world.phase = .classified context personal)
    (routes : routesAs toLower smart header world action = true) :
    (seen.see library toLower smart header world action).due = seen.due := by
  cases action with
  | reselect | choose => cases outside
  | readBody result => cases result <;> rfl
  | route model outcome clock =>
    obtain ⟨rfl, context, personal, phase⟩ := disabled model outcome clock rfl
    have phased := follows.phase
    rw [phase] at phased
    obtain ⟨-, rfl, -⟩ := phased
    simp only [see, routeFor_of_routesAs routes phase]
  | _ => rfl

theorem Follows.move (move : WorldMove library world action after)
    (routes : routesAs toLower smart header world action = true) (follows : Follows seen world) :
    Follows (seen.see library toLower smart header world action) after := by
  have phased := follows.phase
  cases move with
  | environment others request phase trace =>
    rw [see_of_byOthers others]
    exact ⟨phase ▸ phased, trace ▸ follows.due⟩
  | refuse outside early disabled =>
    refine ⟨trivial, ?_⟩
    rw [follows.refuse outside disabled routes]
    exact follows.due
  | snapshot phase =>
    rw [phase] at phased
    exact ⟨⟨phased, rfl⟩, follows.due⟩
  | readBody phase =>
    rw [phase] at phased
    obtain ⟨untried, rfl⟩ := phased
    exact ⟨⟨untried, rfl⟩, follows.due⟩
  | classify phase =>
    rw [phase] at phased
    obtain ⟨untried, rfl⟩ := phased
    exact ⟨⟨untried, rfl, rfl⟩, follows.due⟩
  | route forms made chosen =>
    obtain ⟨same, untried, rfl⟩ := follows.route forms routes
    rw [same]
    exact ⟨⟨untried, rfl, rfl⟩, follows.select made rfl fun _ => Iff.rfl⟩
  | unrouted forms made other =>
    obtain ⟨same, untried, rfl⟩ := follows.route forms routes
    rw [same]
    exact ⟨trivial, follows.select made rfl fun _ => Iff.rfl⟩
  | acquire phase =>
    rw [phase] at phased
    obtain ⟨untried, isContext, isAsk⟩ := phased
    refine ⟨⟨isContext, isAsk, fun name => ?_, fun notTop => absurd rfl notTop⟩, follows.due⟩
    rw [show (seen.see library toLower smart header world (.acquire .admitted)).tried = [] from untried]
    exact Iff.rfl
  | loop phase move => exact follows.perform phase move
  | leaveOk | finish =>
    refine ⟨trivial, ?_⟩
    rw [Trace.release_selections]
    exact follows.due
  | leaveHeld | leaveNone | leaveCrashed => exact ⟨trivial, follows.due⟩

end

end Chronicle

/-! ## Whole runs -/

def Trace.LastChose (trace : Trace) (node : UpstreamNode) : Prop :=
  ∃ record, trace.selections.getLast? = some record ∧ record.selection = .chosen node

/-- The node the next attempt goes to, if there is one. -/
def Phase.aim : Phase → Option UpstreamNode
  | .queued _ _ node => some node
  | .looping _ _ loop => if loop.stage = .top then loop.candidate else none
  | _ => none

def Aimed (world : World) : Prop := ∀ node, world.phase.aim = some node → world.trace.LastChose node

theorem Aimed.move {library : Library} {world next : World} {action : Action}
    (move : WorldMove library world action next) (aimed : Aimed world) : Aimed next := by
  intro node aims
  cases move with
  | environment others request phase trace =>
    rw [phase] at aims
    rw [trace]
    exact aimed node aims
  | route forms made chosen =>
    cases aims
    exact ⟨_, List.getLast?_concat, chosen⟩
  | acquire phase =>
    refine aimed node ?_
    rw [phase]
    exact aims
  | loop phase move =>
    cases move with
    | again stage candidate made chosen =>
      cases aims
      exact ⟨_, List.getLast?_concat, chosen⟩
    | choose stage made selection =>
      cases aims
      exact ⟨_, List.getLast?_concat, selection⟩
    | _ => cases aims
  | _ => cases aims

def chronicle (library : Library) (toLower : Bytes → Bytes)
    (smart : Snap → Option SmartRoute.Router) (header : Option Header) (world : World)
    (trace : List Action) : Chronicle :=
  (machine library).fold (Chronicle.see library toLower smart header) (.start world) world trace

section

variable {library : Library} {cfg : Config} {heap : Heap} {request : Request} {world final : World}
  {trace : List Action}

theorem Chronicle.follows_run {toLower : Bytes → Bytes} {smart : Snap → Option SmartRoute.Router}
    {header : Option Header} (started : newRouter library cfg heap request = .ok world)
    (ran : (machine library).run world trace = some final)
    (routes : (machine library).Meets
      (fun world action => routesAs toLower smart header world action = true) world trace) :
    (chronicle library toLower smart header world trace).Follows final := by
  obtain ⟨phase, empty, _⟩ := newRouter_arrived started
  refine (machine library).fold_invariant_of_meets _ Chronicle.Follows
    (fun _ _ _ _ condition stepped => Follows.move (World.step_move stepped) condition) routes ran
    ⟨?_, ?_⟩
  · rw [phase]
    rfl
  · rw [empty]
    exact .nil

theorem sends_to_last_chosen (started : newRouter library cfg heap request = .ok world)
    (ran : (machine library).run world trace = some final) {buildable : Bool} {now : Int} {next : World}
    (sends : final.step library (.send buildable now) = some next) :
    ∃ node, final.candidate = some node ∧ final.trace.LastChose node := by
  obtain ⟨arrived, _⟩ := newRouter_arrived started
  have aimed := (machine library).run_invariant Aimed
    (fun _ _ _ stepped => Aimed.move (World.step_move stepped)) ran
    (fun node aims => by rw [arrived] at aims; cases aims)
  cases World.step_move sends with
  | environment others => cases others
  | refuse outside => cases outside
  | loop phase move =>
    cases move with
    | @unbuildable node _ _ stage candidate | @send _ node _ _ _ stage candidate =>
      refine ⟨node, ?_, aimed node ?_⟩
      · rw [World.candidate, phase]
        exact candidate
      · rw [phase]
        exact (if_pos stage).trans candidate

end

/-- In every run with at most 2^63 counted selections, each selection gives an eligible node
of the lowest priority number, or none exactly when there is none; the selections are those
due for what the request asks, without the nodes tried before; and each attempt goes to the
node selected last. -/
theorem selections_sound (library : Library) (cfg : Config) (heap : Heap) (request : Request)
    {world final : World} {trace : List Action}
    (started : newRouter library cfg heap request = .ok world)
    (ran : (machine library).run world trace = some final) (few : final.shared.rr ≤ 2 ^ 63) :
    (∀ record ∈ final.trace.selections, record.Sound) ∧
      (∀ toLower smart header, (machine library).Meets
          (fun world action => routesAs toLower smart header world action = true) world trace →
        List.Forall₂ Due.Agrees (chronicle library toLower smart header world trace).due
          final.trace.selections) ∧
      (∀ front buildable now back before, trace = front ++ .send buildable now :: back →
        (machine library).run world front = some before →
        ∃ node, before.candidate = some node ∧ before.trace.LastChose node) ∧
      (∀ attempt ∈ final.trace.attempts,
        final.trace.Chose attempt.context attempt.ask attempt.node) ∧
      (∀ attempt ∈ final.trace.attempts, request.workload = .customer →
        attempt.node.cfg.workloads = [] ∨ lit "customer" ∈ attempt.node.cfg.workloads) := by
  have routed := Routed.of_run started ran
  have sound : ∀ record ∈ final.trace.selections, record.Sound :=
    fun record member => (routed.genuine record member).sound few
  refine ⟨sound, fun toLower smart header routes => (Chronicle.follows_run started ran routes).due,
    ?_, routed.attempts, fun attempt member customer => ?_⟩
  · rintro front buildable now back before rfl reached
    obtain ⟨middle, isMiddle, rest⟩ := (machine library).run_append_eq_some.mp ran
    cases reached.symm.trans isMiddle
    obtain ⟨next, sends, _⟩ := (machine library).run_cons_eq_some.mp rest
    exact sends_to_last_chosen started reached sends
  · have asked := asks_its_class started ran attempt member
    obtain ⟨record, known, _, same, chosen⟩ := routed.attempts attempt member
    have eligible := ((sound record known).eligible _ chosen).2
    refine allowsClass_customer ?_
    rw [← customer, ← asked, ← same]
    exact eligible.allowsClass

def failoverSchedule : List Action :=
  [.snapshot 1, .readBody (.complete (lit "\x7b\"model\":\"m\"\x7d")), .classify,
    .route (lit "m") .off (fun _ => 0), .acquire .admitted, .send true 0,
    .exchange (.failure false) 0, .fail 1, .choose (fun _ => 1), .send true 1,
    .exchange (.response ⟨200, []⟩) 2, .judge 2, .leave, .finish]

theorem selections_sound_failover :
    ∃ world final, newRouter plainLibrary (clusterOf [cloudNode, localNode]) freshHeap
        internalRequest = .ok world ∧
      (machine plainLibrary).run world failoverSchedule = some final ∧
      final.trace.attempts.map (fun attempt => attempt.node.cfg.name) = [lit "cloud", lit "local"] ∧
      (∀ record ∈ final.trace.selections, record.Sound) ∧
      List.Forall₂ Due.Agrees (chronicle plainLibrary id (fun _ => none) none world
        failoverSchedule).due final.trace.selections := by
  have schedule : (served plainLibrary (clusterOf [cloudNode, localNode]) freshHeap internalRequest
      failoverSchedule).map (fun final => (final.trace.attempts.map (fun attempt =>
        attempt.node.cfg.name), decide (final.shared.rr ≤ 2 ^ 63))) =
      some ([lit "cloud", lit "local"], true) := by decide +kernel
  have routes : (newRouter plainLibrary (clusterOf [cloudNode, localNode]) freshHeap
      internalRequest).toOption.all (fun world => decide ((machine plainLibrary).Meets
        (fun world action => routesAs id (fun _ => none) none world action = true) world
        failoverSchedule)) = true := by
    decide +kernel
  obtain ⟨final, ran, facts⟩ := Option.map_eq_some_iff.mp schedule
  obtain ⟨attempts, few⟩ := Prod.mk.inj facts
  obtain ⟨world, started, runs⟩ := served_eq_some ran
  rw [started] at routes
  have sound := selections_sound plainLibrary _ freshHeap internalRequest started runs
    (of_decide_eq_true few)
  exact ⟨world, final, started, runs, attempts, sound.1, sound.2.1 _ _ _ (of_decide_eq_true routes)⟩

end ClusterRouter.Router
