import ClusterRouter.Router.Handler
import ClusterRouter.Router.SelectProperties

/-! Every step is one of the moves below, and a loop is entered only with a node that was
selected for the request's own snapshot. -/

set_option autoImplicit false

namespace ClusterRouter.Router

open Foundation

structure Recorded (nodes : List UpstreamNode) (ask : Ask) (before after : Shared)
    (record : SelectionRecord) : Prop where
  nodes : record.nodes = nodes
  ask : record.ask = ask
  rr : record.rr = before.rr
  selection : record.selection = (selectNodeFromSnapExcluding record.nodes record.ask record.excluded
    record.clock record.heap record.rr).1
  grows : before.rr ≤ after.rr
  counted : record.selection ≠ .noNode → before.rr < after.rr

theorem recorded_select (shared : Shared) (nodes : List UpstreamNode) (ask : Ask)
    (excluded : List Bytes) (clock : Nat → Int) :
    Recorded nodes ask shared (shared.select nodes ask excluded clock).2
      (shared.select nodes ask excluded clock).1 := by
  refine ⟨rfl, rfl, rfl, rfl, ?_, ?_⟩
  · unfold Shared.select selectNodeFromSnapExcluding
    dsimp only
    split
    · exact Nat.le_refl _
    · exact Nat.le_succ _
  · unfold Shared.select selectNodeFromSnapExcluding
    dsimp only
    split
    · exact fun other => absurd rfl other
    · exact fun _ => Nat.lt_succ_self _

def Phase.Early : Phase → Prop
  | .arrived | .reading _ | .read _ | .classified _ _ | .queued _ _ _ => True
  | _ => False

def Action.inLoop : Action → Bool
  | .send _ _ | .exchange _ _ | .fail _ | .judge _ | .checkKeys _ | .reselect _ | .score _
  | .choose _ => true
  | _ => false

def Action.byOthers : Action → Bool
  | .reloadSwap _ | .reloadArm | .reloadUnlock | .others _ => true
  | _ => false

theorem Action.not_inLoop_of_byOthers {action : Action} (others : action.byOthers = true) :
    action.inLoop = false := by
  cases action <;> first | rfl | cases others

/-! ## The steps of the loop -/

/-- What is excluded when a node may be selected again for its next key. -/
def Loop.without (loop : Loop) (node : UpstreamNode) : List Bytes :=
  loop.tried.filter (fun name => decide (name ≠ node.cfg.name))

theorem Loop.mem_without {loop : Loop} {node : UpstreamNode}
    (member : node.cfg.name ∈ loop.tried) (name : Bytes) :
    name ∈ node.cfg.name :: loop.without node ↔ name ∈ loop.tried := by
  unfold Loop.without
  rw [List.mem_cons, List.mem_filter, decide_eq_true_iff]
  by_cases same : name = node.cfg.name
  · subst same
    simp [member]
  · simp [same]

def quotaAnswer (library : Library) (node : UpstreamNode) (response : Response) (used : Int) : Bool :=
  isFailoverStatus response.status && (Progress.quotaHit library node response && decide (0 ≤ used))

inductive LoopMove (library : Library) (context : Context) (ask : Ask) (before : Progress) :
    Action → Progress → Prop where
  | unbuildable {node buildable now} :
      before.loop.stage = .top → before.loop.candidate = some node →
      before.loop.attemptIdx < maxFailoverAttempts →
      LoopMove library context ask before (.send buildable now)
        ⟨{ before.loop with tried := node.cfg.name :: before.loop.tried, stage := .failed },
          before.trace, before.shared⟩
  | send {after node used buildable now} :
      before.loop.stage = .top → before.loop.candidate = some node →
      before.loop.attemptIdx < maxFailoverAttempts → after.rr = before.shared.rr →
      LoopMove library context ask before (.send buildable now)
        ⟨{ before.loop with tried := node.cfg.name :: before.loop.tried, stage := .sent used false },
          { before.trace with attempts := before.trace.attempts ++ [⟨context, ask, node⟩] }, after⟩
  | response {node response used again outcome now} :
      before.loop.stage = .sent used again → before.loop.candidate = some node →
      LoopMove library context ask before (.exchange outcome now)
        ⟨{ before.loop with stage := .answered response used },
          { before.trace with
            received := before.trace.received ++ [⟨before.loop.attemptIdx, node, response⟩] },
          before.shared⟩
  | resend {after node used next outcome now} :
      before.loop.stage = .sent used false → before.loop.candidate = some node →
      after.rr = before.shared.rr →
      LoopMove library context ask before (.exchange outcome now)
        ⟨{ before.loop with stage := .sent next true },
          { before.trace with attempts := before.trace.attempts ++ [⟨context, ask, node⟩] }, after⟩
  | lost {used again outcome now} :
      before.loop.stage = .sent used again →
      LoopMove library context ask before (.exchange outcome now)
        ⟨{ before.loop with stage := .failed }, before.trace, before.shared⟩
  | fail {node now} :
      before.loop.stage = .failed → before.loop.candidate = some node →
      LoopMove library context ask before (.fail now)
        ⟨{ before.loop with stage := .choosing },
          { before.trace with cancelled := before.trace.cancelled ++ [before.loop.attemptIdx] },
          before.shared.update node (fun state =>
            { state with
              healthy := if node.cfg.healthCheckDisabled then state.healthy else false
              breaker := state.breaker.recordFailure now })⟩
  | cool {after node response used now} :
      before.loop.stage = .answered response used → before.loop.candidate = some node →
      quotaAnswer library node response used = true → after.rr = before.shared.rr →
      LoopMove library context ask before (.judge now)
        ⟨{ before.loop with stage := .cooling response }, before.trace, after⟩
  | refuse {node response used now} :
      before.loop.stage = .answered response used → before.loop.candidate = some node →
      isFailoverStatus response.status = true → quotaAnswer library node response used = false →
      LoopMove library context ask before (.judge now)
        ⟨{ before.loop with stage := .refused response }, before.trace, before.shared⟩
  | serve {after node response used now} :
      before.loop.stage = .answered response used → before.loop.candidate = some node →
      isFailoverStatus response.status = false → after.rr = before.shared.rr →
      LoopMove library context ask before (.judge now)
        ⟨{ before.loop with
            okResp := some ⟨before.loop.attemptIdx, node, response⟩, stage := .left },
          before.trace, after⟩
  | allCooling {node response now} :
      before.loop.stage = .cooling response → before.loop.candidate = some node →
      (before.shared.heap node.id).keys.allCooling now = true →
      LoopMove library context ask before (.checkKeys now)
        ⟨{ before.loop with stage := .refused response }, before.trace, before.shared⟩
  | hold {node response now} :
      before.loop.stage = .cooling response → before.loop.candidate = some node →
      (before.shared.heap node.id).keys.allCooling now = false →
      LoopMove library context ask before (.checkKeys now)
        ⟨{ before.loop with
            heldResp := some ⟨before.loop.attemptIdx, node, response⟩, stage := .retrying response },
          before.trace.release before.loop.heldResp, before.shared⟩
  | again {node next response clock selected} :
      before.loop.stage = .retrying response → before.loop.candidate = some node →
      before.shared.select context.snap.nodes ask (before.loop.without node) clock = selected →
      selected.1.selection = .chosen next → next.cfg.name = node.cfg.name →
      LoopMove library context ask before (.reselect clock)
        ⟨{ before.loop with
            tried := node.cfg.name :: before.loop.without node
            candidate := some next, attemptIdx := before.loop.attemptIdx + 1, stage := .top },
          { before.trace with selections := before.trace.selections ++ [selected.1] }, selected.2⟩
  | displace {node response clock selected} :
      before.loop.stage = .retrying response → before.loop.candidate = some node →
      before.shared.select context.snap.nodes ask (before.loop.without node) clock = selected →
      (∀ next, selected.1.selection = .chosen next → next.cfg.name ≠ node.cfg.name) →
      selected.1.selection ≠ .crashed →
      LoopMove library context ask before (.reselect clock)
        ⟨{ before.loop with
            tried := node.cfg.name :: before.loop.without node, stage := .refused response },
          { before.trace with
            selections := before.trace.selections ++ [selected.1]
            displaced := before.trace.displaced ++ [before.loop.attemptIdx] }, selected.2⟩
  | score {after node response now} :
      before.loop.stage = .refused response → before.loop.candidate = some node →
      after.rr = before.shared.rr →
      LoopMove library context ask before (.score now)
        ⟨{ before.loop with
            heldResp := some ⟨before.loop.attemptIdx, node, response⟩, stage := .choosing },
          before.trace.release before.loop.heldResp, after⟩
  | choose {candidate clock selected} :
      before.loop.stage = .choosing →
      before.shared.select context.snap.nodes ask before.loop.tried clock = selected →
      selected.1.selection = candidate.elim .noNode Selection.chosen →
      LoopMove library context ask before (.choose clock)
        ⟨{ before.loop with candidate, attemptIdx := before.loop.attemptIdx + 1, stage := .top },
          { before.trace with selections := before.trace.selections ++ [selected.1] }, selected.2⟩
  | crashAgain {node response clock selected} :
      before.loop.stage = .retrying response → before.loop.candidate = some node →
      before.shared.select context.snap.nodes ask (before.loop.without node) clock = selected →
      selected.1.selection = .crashed →
      LoopMove library context ask before (.reselect clock)
        ⟨{ before.loop with stage := .crashed },
          { before.trace with selections := before.trace.selections ++ [selected.1] }, selected.2⟩
  | crashNext {clock selected} :
      before.loop.stage = .choosing →
      before.shared.select context.snap.nodes ask before.loop.tried clock = selected →
      LoopMove library context ask before (.choose clock)
        ⟨{ before.loop with stage := .crashed },
          { before.trace with selections := before.trace.selections ++ [selected.1] }, selected.2⟩

namespace Progress

def perform (library : Library) (context : Context) (ask : Ask) :
    Action → Progress → Option Progress
  | .send buildable now => send context ask buildable now
  | .exchange outcome now => exchange context ask outcome now
  | .fail now => fail now
  | .judge now => judge library now
  | .checkKeys now => checkKeys now
  | .reselect clock => reselect context ask clock
  | .score now => score now
  | .choose clock => choose context ask clock
  | _ => fun _ => none

section

variable {library : Library} {context : Context} {ask : Ask} {progress next : Progress} {now : Int}
  {clock : Nat → Int}

private theorem send_move {buildable : Bool}
    (stepped : send context ask buildable now progress = some next) :
    LoopMove library context ask progress (.send buildable now) next := by
  unfold send at stepped
  dsimp only at stepped
  split at stepped
  next node stage candidate =>
    split at stepped
    next => cases stepped
    next room =>
      split at stepped
      next =>
        cases stepped
        exact .unbuildable stage candidate (Nat.lt_of_not_le room)
      next =>
        cases stepped
        exact .send stage candidate (Nat.lt_of_not_le room) rfl
  next => cases stepped

private theorem exchange_move {outcome : Exchange}
    (stepped : exchange context ask outcome now progress = some next) :
    LoopMove library context ask progress (.exchange outcome now) next := by
  unfold exchange at stepped
  dsimp only at stepped
  split at stepped
  next used again node stage candidate =>
    cases outcome with
    | response response =>
      cases stepped
      exact .response stage candidate
    | failure retryable =>
      dsimp only at stepped
      split at stepped
      next retries =>
        cases stepped
        rw [Bool.and_eq_true, Bool.not_eq_true'] at retries
        exact .resend (retries.2 ▸ stage) candidate rfl
      next =>
        cases stepped
        exact .lost stage
  next => cases stepped

private theorem fail_move (stepped : fail now progress = some next) :
    LoopMove library context ask progress (.fail now) next := by
  unfold fail at stepped
  dsimp only at stepped
  split at stepped
  next node stage candidate =>
    cases stepped
    exact .fail stage candidate
  next => cases stepped

private theorem judge_move (stepped : judge library now progress = some next) :
    LoopMove library context ask progress (.judge now) next := by
  unfold judge at stepped
  dsimp only at stepped
  split at stepped
  next response used node stage candidate =>
    split at stepped
    next failover =>
      split at stepped
      next quota =>
        cases stepped
        exact .cool stage candidate (by rw [quotaAnswer, failover, quota, Bool.and_true]) rfl
      next other =>
        cases stepped
        exact .refuse stage candidate failover
          (by rw [quotaAnswer, eq_false_of_ne_true other, Bool.and_false])
    next servable =>
      cases stepped
      exact .serve stage candidate (eq_false_of_ne_true servable) rfl
  next => cases stepped

private theorem checkKeys_move (stepped : checkKeys now progress = some next) :
    LoopMove library context ask progress (.checkKeys now) next := by
  unfold checkKeys at stepped
  dsimp only at stepped
  split at stepped
  next response node stage candidate =>
    split at stepped
    next cooling =>
      cases stepped
      exact .allCooling stage candidate cooling
    next other =>
      cases stepped
      exact .hold stage candidate (eq_false_of_ne_true other)
  next => cases stepped

private theorem reselect_move (stepped : reselect context ask clock progress = some next) :
    LoopMove library context ask progress (.reselect clock) next := by
  unfold reselect at stepped
  dsimp only at stepped
  split at stepped
  next response node stage candidate =>
    split at stepped
    next chosen selection =>
      split at stepped
      next same =>
        cases stepped
        exact .again stage candidate rfl selection same
      next different =>
        cases stepped
        refine .displace stage candidate rfl (fun other also => ?_) ?_
        · cases selection.symm.trans also
          exact different
        · exact selection ▸ Selection.noConfusion
    next selection =>
      cases stepped
      refine .displace stage candidate rfl (fun other also => ?_) ?_
      · cases selection.symm.trans also
      · exact selection ▸ Selection.noConfusion
    next selection =>
      cases stepped
      exact .crashAgain stage candidate rfl selection
  next => cases stepped

private theorem score_move (stepped : score now progress = some next) :
    LoopMove library context ask progress (.score now) next := by
  unfold score at stepped
  dsimp only at stepped
  split at stepped
  next response node stage candidate =>
    cases stepped
    exact .score stage candidate rfl
  next => cases stepped

private theorem choose_move (stepped : choose context ask clock progress = some next) :
    LoopMove library context ask progress (.choose clock) next := by
  unfold choose at stepped
  dsimp only at stepped
  split at stepped
  next stage =>
    split at stepped
    next node selection =>
      cases stepped
      exact .choose stage rfl (show _ = (some node).elim .noNode Selection.chosen from selection)
    next selection =>
      cases stepped
      exact .choose stage rfl (show _ = none.elim .noNode Selection.chosen from selection)
    next =>
      cases stepped
      exact .crashNext stage rfl
  next => cases stepped

theorem perform_move {action : Action}
    (stepped : perform library context ask action progress = some next) :
    LoopMove library context ask progress action next := by
  cases action with
  | send => exact send_move stepped
  | exchange => exact exchange_move stepped
  | fail => exact fail_move stepped
  | judge => exact judge_move stepped
  | checkKeys => exact checkKeys_move stepped
  | reselect => exact reselect_move stepped
  | score => exact score_move stepped
  | choose => exact choose_move stepped
  | reloadSwap | reloadArm | reloadUnlock | others | snapshot | readBody | classify | route
  | acquire | leave | finish => cases stepped

end

end Progress

/-! ## The steps of a request -/

/-- The ask of a request that was classified: the personal flag is the one read then, the
class is the request's. -/
structure World.Forms (world : World) (model : Bytes) (smart : SmartRoute) (context : Context)
    (ask : Ask) : Prop where
  phase : world.phase = .classified context ask.personal
  model : ask.model = model
  tier : ask.tier = smart.tierFor world.request
  workload : ask.workload = world.request.workload
  enabled : smart ≠ .agentDisabled

inductive WorldMove (library : Library) (world : World) : Action → World → Prop where
  | environment {next action} : action.byOthers = true →
      next.request = world.request →
      next.phase = world.phase → next.trace = world.trace → world.shared.rr ≤ next.shared.rr →
      (world.piiRuleArmed = world.armedBy.armed → next.piiRuleArmed = next.armedBy.armed) →
      WorldMove library world action next
  | refuse {action status} : action.inLoop = false →
      world.phase.Early →
      (∀ model smart clock, action = .route model smart clock →
        smart = .agentDisabled ∧ ∃ context personal, world.phase = .classified context personal) →
      WorldMove library world action { world with phase := .returned (.answered status) }
  | snapshot {queueDepth} : world.phase = .arrived →
      WorldMove library world (.snapshot queueDepth)
        { world with phase := .reading ⟨world.cfg, world.nodes⟩ }
  | readBody {snap body} : world.phase = .reading snap →
      WorldMove library world (.readBody (.complete body)) { world with phase := .read ⟨snap, body⟩ }
  | classify {context} : world.phase = .read context →
      WorldMove library world .classify { world with
        phase := .classified context (library.detectPersonal context.body && world.piiRuleArmed) }
  | route {model smart clock context ask node selected} :
      world.Forms model smart context ask →
      world.shared.select context.snap.nodes ask [] clock = selected →
      selected.1.selection = .chosen node →
      WorldMove library world (.route model smart clock) { world with
        phase := .queued context ask node
        trace := { world.trace with selections := world.trace.selections ++ [selected.1] }
        shared := selected.2 }
  | unrouted {model smart clock context ask exit selected} :
      world.Forms model smart context ask →
      world.shared.select context.snap.nodes ask [] clock = selected →
      (∀ held, exit ≠ .relayed held) →
      WorldMove library world (.route model smart clock) { world with
        phase := .returned exit
        trace := { world.trace with selections := world.trace.selections ++ [selected.1] }
        shared := selected.2 }
  | acquire {context ask node} :
      world.phase = .queued context ask node →
      WorldMove library world (.acquire .admitted)
        { world with phase := .looping context ask (.start node) }
  | loop {action context ask loop progress} : world.phase = .looping context ask loop →
      LoopMove library context ask ⟨loop, world.trace, world.shared⟩ action progress →
      WorldMove library world action { world with
        phase := .looping context ask progress.loop
        trace := progress.trace
        shared := progress.shared }
  | leaveOk {context ask loop ok} :
      world.phase = .looping context ask loop → Progress.ended loop = true → loop.okResp = some ok →
      WorldMove library world .leave { world with
        phase := .relaying ok, trace := world.trace.release loop.heldResp }
  | leaveHeld {context ask loop held} :
      world.phase = .looping context ask loop → Progress.ended loop = true →
      loop.okResp = none → loop.heldResp = some held →
      WorldMove library world .leave { world with phase := .relaying held }
  | leaveNone {context ask loop} :
      world.phase = .looping context ask loop → Progress.ended loop = true →
      loop.okResp = none → loop.heldResp = none →
      WorldMove library world .leave { world with phase := .returned (.answered 502) }
  | leaveCrashed {context ask loop} :
      world.phase = .looping context ask loop → loop.stage = .crashed →
      WorldMove library world .leave { world with phase := .returned .crashed }
  | finish {held} : world.phase = .relaying held →
      WorldMove library world .finish { world with
        phase := .returned (.relayed held), trace := world.trace.release (some held) }

namespace World

variable {library : Library} {world next : World}

private theorem inLoop_move {action : Action} {step : Context → Ask → Progress → Option Progress}
    (performs : ∀ context ask progress,
      Progress.perform library context ask action progress = step context ask progress)
    (stepped : world.inLoop step = some next) : WorldMove library world action next := by
  unfold inLoop at stepped
  split at stepped
  next context ask loop phase =>
    obtain ⟨progress, moved, rfl⟩ := Option.map_eq_some_iff.mp stepped
    exact .loop phase (Progress.perform_move ((performs _ _ _).trans moved))
  next => cases stepped

private theorem snapshot_move {queueDepth : Int} (stepped : world.snapshot queueDepth = some next) :
    WorldMove library world (.snapshot queueDepth) next := by
  unfold snapshot at stepped
  split at stepped
  next phase unlocked =>
    dsimp only at stepped
    split at stepped
    next =>
      cases stepped
      exact .refuse rfl (by rw [phase]; trivial) nofun
    next =>
      split at stepped
      next =>
        cases stepped
        exact .refuse rfl (by rw [phase]; trivial) nofun
      next =>
        cases stepped
        exact .snapshot phase
  next => cases stepped

private theorem readBody_move {result : BodyRead} (stepped : world.readBody result = some next) :
    WorldMove library world (.readBody result) next := by
  unfold readBody at stepped
  split at stepped
  next snap phase =>
    cases result with
    | complete body =>
      cases stepped
      exact .readBody phase
    | stalled | failed =>
      cases stepped
      exact .refuse rfl (by rw [phase]; trivial) nofun
  next => cases stepped

private theorem classify_move (stepped : world.classify library = some next) :
    WorldMove library world .classify next := by
  unfold classify at stepped
  split at stepped
  next context phase =>
    dsimp only at stepped
    split at stepped
    next =>
      cases stepped
      exact .refuse rfl (by rw [phase]; trivial) nofun
    next =>
      cases stepped
      exact .classify phase
  next => cases stepped

private theorem route_move {model : Bytes} {smart : SmartRoute} {clock : Nat → Int}
    (stepped : world.route model smart clock = some next) :
    WorldMove library world (.route model smart clock) next := by
  unfold route at stepped
  split at stepped
  next context personal phase =>
    split at stepped
    next disabled =>
      cases stepped
      refine .refuse rfl (by rw [phase]; trivial) fun _ _ _ same => ?_
      cases same
      exact ⟨disabled, _, _, phase⟩
    next enabled =>
      dsimp only at stepped
      have forms : world.Forms model smart context
          ⟨model, smart.tierFor world.request, world.request.workload, personal⟩ :=
        ⟨phase, rfl, rfl, rfl, enabled⟩
      split at stepped
      next node selection =>
        cases stepped
        exact .route forms rfl selection
      next =>
        cases stepped
        exact .unrouted forms rfl (by simp)
      next =>
        cases stepped
        exact .unrouted forms rfl (by simp)
  next => cases stepped

private theorem acquire_move {admission : Admission} (stepped : world.acquire admission = some next) :
    WorldMove library world (.acquire admission) next := by
  unfold acquire at stepped
  split at stepped
  next context ask node phase =>
    cases admission with
    | admitted =>
      cases stepped
      exact .acquire phase
    | cancelled | fairShareRejected =>
      cases stepped
      exact .refuse rfl (by rw [phase]; trivial) nofun
  next => cases stepped

private theorem leave_move (stepped : world.leave = some next) :
    WorldMove library world .leave next := by
  unfold leave at stepped
  split at stepped
  next context ask loop phase =>
    split at stepped
    next crashed =>
      cases stepped
      exact .leaveCrashed phase crashed
    next =>
      split at stepped
      next ended =>
        split at stepped
        next ok isOk =>
          cases stepped
          exact .leaveOk phase ended isOk
        next held noOk isHeld =>
          cases stepped
          exact .leaveHeld phase ended noOk isHeld
        next noOk noHeld =>
          cases stepped
          exact .leaveNone phase ended noOk noHeld
      next => cases stepped
  next => cases stepped

private theorem finish_move (stepped : world.finish = some next) :
    WorldMove library world .finish next := by
  unfold finish at stepped
  split at stepped
  next held phase =>
    cases stepped
    exact .finish phase
  next => cases stepped

theorem step_move {action : Action} (stepped : world.step library action = some next) :
    WorldMove library world action next := by
  cases action with
  | reloadSwap cfg | reloadUnlock =>
    simp only [step, reloadSwap, reloadUnlock] at stepped
    split at stepped <;> cases stepped
    exact .environment rfl rfl rfl rfl (Nat.le_refl _) id
  | reloadArm =>
    simp only [step, reloadArm] at stepped
    split at stepped <;> cases stepped
    exact .environment rfl rfl rfl rfl (Nat.le_refl _) (fun _ => rfl)
  | others shared =>
    obtain ⟨grows, made⟩ := Option.ite_none_right_eq_some.mp stepped
    cases made
    exact .environment rfl rfl rfl rfl grows id
  | snapshot queueDepth => exact snapshot_move stepped
  | readBody result => exact readBody_move stepped
  | classify => exact classify_move stepped
  | route model smart clock => exact route_move stepped
  | acquire admission => exact acquire_move stepped
  | send | exchange | fail | judge | checkKeys | reselect | score | choose =>
    exact inLoop_move (fun _ _ _ => rfl) stepped
  | leave => exact leave_move stepped
  | finish => exact finish_move stepped

end World

/-! ## Where attempts come from -/

structure Routing (context : Context) (ask : Ask) (before after : Progress)
    (records : List SelectionRecord) : Prop where
  selections : after.trace.selections = before.trace.selections ++ records
  recorded : ∀ record ∈ records, Recorded context.snap.nodes ask before.shared after.shared record
  grows : before.shared.rr ≤ after.shared.rr
  candidate : ∀ node, after.loop.candidate = some node → before.loop.candidate = some node ∨
    ∃ record ∈ records, record.selection = .chosen node
  attempts : ∀ attempt ∈ after.trace.attempts, attempt ∈ before.trace.attempts ∨
    ∃ node, before.loop.candidate = some node ∧ attempt = ⟨context, ask, node⟩

variable {context : Context} {ask : Ask} {before after : Progress} {world next : World}
    {library : Library} {action : Action} {cfg : Config} {heap : Heap} {request : Request}

private theorem Routing.of_same (selections : after.trace.selections = before.trace.selections)
    (attempts : after.trace.attempts = before.trace.attempts)
    (candidate : after.loop.candidate = before.loop.candidate)
    (rr : after.shared.rr = before.shared.rr) : Routing context ask before after [] :=
  ⟨by rw [selections, List.append_nil], by simp, Nat.le_of_eq rr.symm,
    fun _ is => .inl (candidate ▸ is), fun _ member => .inl (attempts ▸ member)⟩

private theorem Routing.of_attempt {node : UpstreamNode}
    (selections : after.trace.selections = before.trace.selections)
    (is : before.loop.candidate = some node)
    (attempts : after.trace.attempts = before.trace.attempts ++ [⟨context, ask, node⟩])
    (candidate : after.loop.candidate = before.loop.candidate)
    (rr : after.shared.rr = before.shared.rr) : Routing context ask before after [] := by
  refine ⟨by rw [selections, List.append_nil], by simp, Nat.le_of_eq rr.symm,
    fun _ now => .inl (candidate ▸ now), fun attempt member => ?_⟩
  rw [attempts, List.mem_append, List.mem_singleton] at member
  exact member.imp_right fun same => ⟨node, is, same⟩

private theorem Routing.of_record {record : SelectionRecord}
    (selections : after.trace.selections = before.trace.selections ++ [record])
    (recorded : Recorded context.snap.nodes ask before.shared after.shared record)
    (attempts : after.trace.attempts = before.trace.attempts)
    (candidate : ∀ node, after.loop.candidate = some node → before.loop.candidate = some node ∨
      record.selection = .chosen node) : Routing context ask before after [record] := by
  refine ⟨selections, ?_, recorded.grows, fun node now => ?_, fun _ member => .inl (attempts ▸ member)⟩
  · intro other member
    cases List.mem_singleton.mp member
    exact recorded
  · exact (candidate node now).imp_right fun chosen => ⟨record, List.mem_singleton_self _, chosen⟩

theorem Trace.release_selections (trace : Trace) (held : Option Held) :
    (trace.release held).selections = trace.selections := by
  cases held <;> rfl

theorem Trace.release_attempts (trace : Trace) (held : Option Held) :
    (trace.release held).attempts = trace.attempts := by
  cases held <;> rfl

theorem LoopMove.routing (move : LoopMove library context ask before action after) :
    ∃ records, Routing context ask before after records := by
  cases move with
  | unbuildable | response | lost | fail | refuse | allCooling => exact ⟨_, .of_same rfl rfl rfl rfl⟩
  | send stage candidate room rr => exact ⟨_, .of_attempt rfl candidate rfl rfl rr⟩
  | resend stage candidate rr => exact ⟨_, .of_attempt rfl candidate rfl rfl rr⟩
  | cool stage candidate quota rr | serve stage candidate servable rr =>
    exact ⟨_, .of_same rfl rfl rfl rr⟩
  | hold stage candidate other =>
    exact ⟨_, .of_same (Trace.release_selections _ _) (Trace.release_attempts _ _) rfl rfl⟩
  | again stage candidate made chosen same =>
    refine ⟨_, .of_record rfl (made ▸ recorded_select _ _ _ _ _) rfl fun node is => .inr ?_⟩
    cases is
    exact chosen
  | displace stage candidate made | crashAgain stage candidate made | crashNext stage made =>
    exact ⟨_, .of_record rfl (made ▸ recorded_select _ _ _ _ _) rfl fun node is => .inl is⟩
  | score stage candidate rr =>
    exact ⟨_, .of_same (Trace.release_selections _ _) (Trace.release_attempts _ _) rfl rr⟩
  | choose stage made selection =>
    refine ⟨_, .of_record rfl (made ▸ recorded_select _ _ _ _ _) rfl fun node is => .inr ?_⟩
    cases is
    exact selection

/-- A selection as the code makes it, counted by `rr` unless it had no candidate. -/
structure SelectionRecord.Genuine (record : SelectionRecord) (rr : Nat) : Prop where
  selection : record.selection = (selectNodeFromSnapExcluding record.nodes record.ask record.excluded
    record.clock record.heap record.rr).1
  counted : record.selection ≠ .noNode → record.rr < rr

def Trace.Chose (trace : Trace) (context : Context) (ask : Ask) (node : UpstreamNode) : Prop :=
  ∃ record ∈ trace.selections, record.nodes = context.snap.nodes ∧ record.ask = ask ∧
    record.selection = .chosen node

theorem Trace.Chose.mono {before after : Trace} {node : UpstreamNode}
    {records : List SelectionRecord} (chose : before.Chose context ask node)
    (grown : after.selections = before.selections ++ records) : after.Chose context ask node := by
  obtain ⟨record, member, rest⟩ := chose
  exact ⟨record, grown ▸ List.mem_append_left _ member, rest⟩

def Phase.Target (phase : Phase) (context : Context) (ask : Ask) (node : UpstreamNode) : Prop :=
  match phase with
  | .queued itsContext itsAsk itsNode => itsContext = context ∧ itsAsk = ask ∧ itsNode = node
  | .looping itsContext itsAsk loop =>
    itsContext = context ∧ itsAsk = ask ∧ loop.candidate = some node
  | _ => False

/-- Every selection is recorded as it was made, and every node sent to was chosen. -/
structure Routed (world : World) : Prop where
  genuine : ∀ record ∈ world.trace.selections, record.Genuine world.shared.rr
  attempts : ∀ attempt ∈ world.trace.attempts,
    world.trace.Chose attempt.context attempt.ask attempt.node
  target : ∀ context ask node, world.phase.Target context ask node →
    world.trace.Chose context ask node

private theorem Routed.grow (routed : Routed world) (records : List SelectionRecord)
    (selections : next.trace.selections = world.trace.selections ++ records)
    (recorded : ∀ record ∈ records, ∃ nodes ask,
      Recorded nodes ask world.shared next.shared record)
    (grows : world.shared.rr ≤ next.shared.rr)
    (attempts : ∀ attempt ∈ next.trace.attempts, attempt ∈ world.trace.attempts ∨
      world.trace.Chose attempt.context attempt.ask attempt.node)
    (target : ∀ context ask node, next.phase.Target context ask node →
      world.phase.Target context ask node ∨ next.trace.Chose context ask node) : Routed next := by
  constructor
  · intro record member
    rw [selections, List.mem_append] at member
    rcases member with old | new
    · obtain ⟨selection, counted⟩ := routed.genuine record old
      exact ⟨selection, fun chosen => Nat.lt_of_lt_of_le (counted chosen) grows⟩
    · obtain ⟨_, _, known⟩ := recorded record new
      exact ⟨known.selection, fun chosen => known.rr ▸ known.counted chosen⟩
  · intro attempt member
    rcases attempts attempt member with old | chose
    · exact (routed.attempts attempt old).mono selections
    · exact chose.mono selections
  · intro context ask node is
    rcases target context ask node is with old | chose
    · exact (routed.target context ask node old).mono selections
    · exact chose

private theorem Routed.still (routed : Routed world)
    (selections : next.trace.selections = world.trace.selections)
    (attempts : next.trace.attempts = world.trace.attempts)
    (grows : world.shared.rr ≤ next.shared.rr)
    (target : ∀ context ask node, next.phase.Target context ask node →
      world.phase.Target context ask node) : Routed next := by
  refine routed.grow [] (by rw [selections, List.append_nil]) (by simp) grows ?_ ?_
  · exact fun _ member => .inl (attempts ▸ member)
  · exact fun context ask node is => .inl (target context ask node is)

theorem Routed.move (move : WorldMove library world action next) (routed : Routed world) :
    Routed next := by
  cases move with
  | environment outside request phase trace grows flag =>
    refine routed.still (by rw [trace]) (by rw [trace]) grows fun context ask node is => ?_
    rw [phase] at is
    exact is
  | refuse | snapshot | readBody | classify | leaveHeld | leaveNone | leaveCrashed =>
    exact routed.still rfl rfl (Nat.le_refl _) (fun _ _ _ is => is.elim)
  | @route model smart clock context ask node selected forms made chosen =>
    have recorded := made ▸ recorded_select world.shared context.snap.nodes ask [] clock
    refine routed.grow [selected.1] rfl ?_ recorded.grows (fun _ member => .inl member) ?_
    · exact List.forall_mem_singleton.mpr ⟨_, _, recorded⟩
    · rintro _ _ _ ⟨rfl, rfl, rfl⟩
      exact .inr ⟨_, List.mem_append_right _ (List.mem_singleton_self _), recorded.nodes,
        recorded.ask, chosen⟩
  | @unrouted model smart clock context ask exit selected forms made other =>
    have recorded := made ▸ recorded_select world.shared context.snap.nodes ask [] clock
    refine routed.grow [selected.1] rfl ?_ recorded.grows (fun _ member => .inl member)
      (fun _ _ _ is => is.elim)
    exact List.forall_mem_singleton.mpr ⟨_, _, recorded⟩
  | acquire phase =>
    refine routed.still rfl rfl (Nat.le_refl _) ?_
    rintro _ _ _ ⟨rfl, rfl, candidate⟩
    cases candidate
    rw [phase]
    exact ⟨rfl, rfl, rfl⟩
  | @loop _ context ask loop progress phase move =>
    obtain ⟨records, routing⟩ := move.routing
    refine routed.grow records routing.selections
      (fun record member => ⟨_, _, routing.recorded record member⟩) routing.grows ?_ ?_
    · intro attempt member
      rcases routing.attempts attempt member with old | ⟨node, candidate, rfl⟩
      · exact .inl old
      · refine .inr (routed.target context ask node ?_)
        rw [phase]
        exact ⟨rfl, rfl, candidate⟩
    · rintro _ _ node ⟨rfl, rfl, candidate⟩
      rcases routing.candidate node candidate with old | ⟨record, member, chosen⟩
      · left
        rw [phase]
        exact ⟨rfl, rfl, old⟩
      · have recorded := routing.recorded record member
        exact .inr ⟨record, routing.selections ▸ List.mem_append_right _ member, recorded.nodes,
          recorded.ask, chosen⟩
  | leaveOk | finish =>
    exact routed.still (Trace.release_selections _ _) (Trace.release_attempts _ _) (Nat.le_refl _)
      (fun _ _ _ is => is.elim)

/-! ## What attempts ask for -/

def Phase.Asks (phase : Phase) (context : Context) (ask : Ask) : Prop :=
  match phase with
  | .queued itsContext itsAsk _ => itsContext = context ∧ itsAsk = ask
  | .looping itsContext itsAsk _ => itsContext = context ∧ itsAsk = ask
  | _ => False

/-- Something that holds of a request's context and ask holds of all its attempts. -/
structure AskedAs (holds : Context → Ask → Prop) (world : World) : Prop where
  phase : ∀ context ask, world.phase.Asks context ask → holds context ask
  attempts : ∀ attempt ∈ world.trace.attempts, holds attempt.context attempt.ask

/-- The ask is formed once, at the first selection. -/
theorem AskedAs.move {holds : Context → Ask → Prop} (move : WorldMove library world action next)
    (asked : AskedAs holds world)
    (formed : ∀ context ask, world.phase = .classified context ask.personal →
      ask.workload = world.request.workload → holds context ask) : AskedAs holds next := by
  cases move with
  | environment outside request phase trace grows flag =>
    refine ⟨fun context ask is => asked.phase context ask ?_, fun attempt member => ?_⟩
    · rw [← phase]
      exact is
    · exact asked.attempts attempt (trace ▸ member)
  | refuse | snapshot | readBody | classify | unrouted | leaveHeld | leaveNone | leaveCrashed =>
    exact ⟨fun _ _ is => is.elim, asked.attempts⟩
  | route forms made chosen =>
    refine ⟨?_, asked.attempts⟩
    rintro _ _ ⟨rfl, rfl⟩
    exact formed _ _ forms.phase forms.workload
  | acquire phase =>
    refine ⟨?_, asked.attempts⟩
    rintro _ _ ⟨rfl, rfl⟩
    exact asked.phase _ _ (by rw [phase]; exact ⟨rfl, rfl⟩)
  | @loop _ context ask loop progress phase move =>
    have here : holds context ask := asked.phase _ _ (by rw [phase]; exact ⟨rfl, rfl⟩)
    refine ⟨?_, fun attempt member => ?_⟩
    · rintro _ _ ⟨rfl, rfl⟩
      exact here
    · obtain ⟨_, routing⟩ := move.routing
      rcases routing.attempts attempt member with old | ⟨node, _, rfl⟩
      · exact asked.attempts attempt old
      · exact here
  | leaveOk | finish =>
    refine ⟨fun _ _ is => is.elim, fun attempt member => asked.attempts attempt ?_⟩
    rw [← Trace.release_attempts]
    exact member

theorem WorldMove.request_eq (move : WorldMove library world action next) :
    next.request = world.request := by
  cases move with
  | environment outside request => exact request
  | _ => rfl

theorem newRouter_arrived (started : newRouter library cfg heap request = .ok world) :
    world.phase = .arrived ∧ world.trace = .empty ∧ world.request = request ∧
      world.piiRuleArmed = world.armedBy.armed := by
  unfold newRouter at started
  split at started
  next => cases started
  next =>
    cases started
    exact ⟨rfl, rfl, rfl, rfl⟩

theorem Routed.of_run {final : World} {trace : List Action}
    (started : newRouter library cfg heap request = .ok world)
    (ran : (machine library).run world trace = some final) : Routed final := by
  obtain ⟨phase, empty, _⟩ := newRouter_arrived started
  refine (machine library).run_invariant Routed
    (fun _ _ _ stepped => Routed.move (World.step_move stepped)) ran ⟨?_, ?_, ?_⟩
  · simp [empty, Trace.empty]
  · simp [empty, Trace.empty]
  · intro context ask node is
    rw [phase] at is
    exact is.elim

theorem served_eq_some {trace : List Action} {final : World}
    (ran : served library cfg heap request trace = some final) :
    ∃ world, newRouter library cfg heap request = .ok world ∧
      (machine library).run world trace = some final := by
  unfold served at ran
  split at ran
  next => cases ran
  next world started => exact ⟨world, started, ran⟩

end ClusterRouter.Router
