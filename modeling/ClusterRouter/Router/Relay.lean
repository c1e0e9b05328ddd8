import ClusterRouter.Router.LoopHistory

/-! Which response a request relays, that it can still be read then, and that all others have
been released once: for whole requests. -/

set_option autoImplicit false

namespace ClusterRouter.Router

open Foundation

/-- The first servable response, or else the last one. -/
def Relayable (received : List Held) (chosen : Held) : Prop :=
  received.find? servable = some chosen ∨
    (received.find? servable = none ∧ received.getLast? = some chosen)

def Trace.Usable (trace : Trace) (held : Held) : Prop :=
  held.attempt ∉ trace.closed ∧ held.attempt ∉ trace.cancelled

def Trace.ReleasedOnce (trace : Trace) (held : Held) : Prop :=
  trace.closed.count held.attempt = 1 ∧ trace.cancelled.count held.attempt = 1

/-! ## After the loop -/

theorem Relayable.mem {received : List Held} {chosen : Held} (relayable : Relayable received chosen) :
    chosen ∈ received := by
  rcases relayable with first | ⟨_, last⟩
  · exact List.mem_of_find?_eq_some first
  · exact List.mem_of_getLast? last

theorem find?_eq_none_of_allFailover {received : List Held} (failover : AllFailover received) :
    received.find? servable = none := by
  refine List.find?_eq_none.mpr fun held member => ?_
  simp [servable, failover held member]

structure Settled (references : Nat → Nat) (trace : Trace) : Prop where
  ordered : trace.received.Pairwise (fun first second => first.attempt < second.attempt)
  displaced : ∀ attempt ∈ trace.displaced, ∃ response ∈ trace.received, response.attempt = attempt
  balanced : Balanced references trace

variable {trace : Trace} {library : Library} {world : World} {action : Action}

theorem Ledger.settled {loop : Loop} (ledger : Ledger loop trace) :
    Settled loop.references trace :=
  ⟨ledger.ordered, fun attempt member => (ledger.displaced attempt member).2, ledger.balanced⟩

theorem Settled.release {references after : Nat → Nat} {held : Option Held}
    (settled : Settled references trace)
    (traded : ∀ attempt, references attempt = refersTo held attempt + after attempt) :
    Settled after (trace.release held) := by
  refine ⟨?_, ?_, settled.balanced.release traded⟩
  · rw [release_received]
    exact settled.ordered
  · rw [release_received, release_displaced]
    exact settled.displaced

theorem Settled.attempt_injective {references : Nat → Nat} (settled : Settled references trace)
    {first second : Held} (isFirst : first ∈ trace.received) (isSecond : second ∈ trace.received)
    (same : first.attempt = second.attempt) :
    first = second := by
  have ordered := settled.ordered
  generalize trace.received = received at ordered isFirst isSecond
  induction ordered with
  | nil => cases isFirst
  | @cons held rest below _ ih =>
    rcases List.mem_cons.mp isFirst with rfl | inRest
    · rcases List.mem_cons.mp isSecond with rfl | alsoInRest
      · rfl
      · exact absurd same (Nat.ne_of_lt (below _ alsoInRest))
    · rcases List.mem_cons.mp isSecond with rfl | alsoInRest
      · exact absurd same.symm (Nat.ne_of_lt (below _ inRest))
      · exact ih inRest alsoInRest

theorem Settled.usable_iff {chosen : Held} (settled : Settled (refersTo (some chosen)) trace)
    (known : chosen ∈ trace.received) :
    (trace.Usable chosen ∧
      ∀ other ∈ trace.received, other ≠ chosen → trace.ReleasedOnce other) ↔ trace.displaced = [] := by
  have own : refersTo (some chosen) chosen.attempt = 1 := by simp [refersTo]
  have others : ∀ other ∈ trace.received, other ≠ chosen →
      refersTo (some chosen) other.attempt = 0 := by
    intro other member different
    have apart : chosen.attempt ≠ other.attempt := fun same =>
      different (settled.attempt_injective member known same.symm)
    simp [refersTo, apart]
  constructor
  · rintro ⟨usable, released⟩
    refine List.eq_nil_iff_forall_not_mem.mpr fun attempt member => ?_
    obtain ⟨response, received, rfl⟩ := settled.displaced attempt member
    have twice := settled.balanced.closed response received
    rw [Trace.excess, if_pos member] at twice
    by_cases same : response = chosen
    · subst same
      rw [own, List.count_eq_zero.mpr usable.1] at twice
      omega
    · rw [others response received same, (released response received same).1] at twice
      omega
  · intro unmoved
    have excess (attempt : Nat) : trace.excess attempt = 0 := by simp [Trace.excess, unmoved]
    refine ⟨⟨?_, ?_⟩, fun other member different => ⟨?_, ?_⟩⟩
    · have count := settled.balanced.closed chosen known
      rw [own, excess] at count
      exact List.count_eq_zero.mp (by omega)
    · have count := settled.balanced.cancelled chosen known
      rw [own, excess] at count
      exact List.count_eq_zero.mp (by omega)
    · have count := settled.balanced.closed other member
      rwa [others other member different, excess] at count
    · have count := settled.balanced.cancelled other member
      rwa [others other member different, excess] at count

theorem Settled.releasedOnce_iff (settled : Settled (fun _ => 0) trace) :
    (∀ held ∈ trace.received, trace.ReleasedOnce held) ↔ trace.displaced = [] := by
  constructor
  · intro released
    refine List.eq_nil_iff_forall_not_mem.mpr fun attempt member => ?_
    obtain ⟨response, received, rfl⟩ := settled.displaced attempt member
    have twice := settled.balanced.closed response received
    rw [Trace.excess, if_pos member, (released response received).1] at twice
    omega
  · intro unmoved held member
    have excess : trace.excess held.attempt = 0 := by simp [Trace.excess, unmoved]
    have closed := settled.balanced.closed held member
    have cancelled := settled.balanced.cancelled held member
    rw [excess] at closed cancelled
    exact ⟨closed, cancelled⟩

/-! ## The whole request -/

structure Untouched (trace : Trace) : Prop where
  received : trace.received = []
  closed : trace.closed = []
  cancelled : trace.cancelled = []
  displaced : trace.displaced = []

def Phase.Kept (phase : Phase) (trace : Trace) : Prop :=
  match phase with
  | .looping _ _ loop => Ledger loop trace
  | .relaying chosen => Relayable trace.received chosen ∧ Settled (refersTo (some chosen)) trace
  | .returned (.relayed _) => Settled (fun _ => 0) trace
  | .returned (.answered _) => trace.received = []
  | .returned .crashed => True
  | .arrived | .reading _ | .read _ | .classified _ _ | .queued _ _ _ => Untouched trace

theorem Phase.Kept.untouched {phase : Phase} (kept : phase.Kept trace) (early : phase.Early) :
    Untouched trace := by
  cases phase with
  | arrived | reading | read | classified | queued => exact kept
  | looping | relaying | returned => exact early.elim

theorem Untouched.select (untouched : Untouched trace) (selections : List SelectionRecord) :
    Untouched { trace with selections } :=
  ⟨untouched.received, untouched.closed, untouched.cancelled, untouched.displaced⟩

theorem Untouched.ledger (untouched : Untouched trace) (node : UpstreamNode) :
    Ledger (.start node) trace := by
  obtain ⟨received, closed, cancelled, displaced⟩ := untouched
  constructor
  · exact ⟨by simp [received, Loop.start], by simp [AllFailover, received], by simp [received]⟩
  · exact .inl rfl
  · simp [received]
  · simp [closed]
  · simp [cancelled]
  · simp [displaced]
  · exact ⟨by simp [Accounted, received], by simp [Accounted, received]⟩

section

variable {loop : Loop} {trace : Trace}

theorem Ledger.waiting_of_ended (ledger : Ledger loop trace) (ended : Progress.ended loop = true)
    (unserved : loop.okResp = none) :
    loop.stage = .top ∧ Waiting loop trace.received loop.attemptIdx := by
  have standing := ledger.standing
  cases stage : loop.stage with
  | top =>
    simp only [Standing, stage] at standing
    exact ⟨rfl, standing⟩
  | left =>
    simp only [Standing, stage] at standing
    obtain ⟨_, _, _, _, served⟩ := standing
    rw [unserved] at served
    cases served
  | sent | failed | answered | cooling | retrying | refused | choosing | crashed =>
    simp [Progress.ended, stage] at ended

theorem Ledger.relay_ok (ledger : Ledger loop trace) {ok : Held} (served : loop.okResp = some ok) :
    Relayable (trace.release loop.heldResp).received ok ∧
      Settled (refersTo (some ok)) (trace.release loop.heldResp) := by
  have stage : loop.stage = .left := ledger.unserved.resolve_left (by simp [served])
  have standing := ledger.standing
  simp only [Standing, stage] at standing
  obtain ⟨earlier, current, answered, isServable, same⟩ := standing
  rw [served] at same
  cases same
  constructor
  · rw [release_received, answered.received]
    left
    rw [List.find?_append, find?_eq_none_of_allFailover answered.failover]
    simp [servable, isServable]
  · refine ledger.settled.release fun attempt => ?_
    simp only [Loop.references, Loop.inHand, stage, served]
    omega

theorem Ledger.relay_held (ledger : Ledger loop trace) {held : Held}
    (ended : Progress.ended loop = true) (unserved : loop.okResp = none)
    (isHeld : loop.heldResp = some held) :
    Relayable trace.received held ∧ Settled (refersTo (some held)) trace := by
  obtain ⟨stage, waiting⟩ := ledger.waiting_of_ended ended unserved
  have references : loop.references = refersTo (some held) := by
    funext attempt
    simp only [Loop.references, Loop.inHand, stage, unserved, isHeld]
    simp [refersTo]
  refine ⟨.inr ⟨find?_eq_none_of_allFailover waiting.failover, ?_⟩, references ▸ ledger.settled⟩
  rw [← waiting.held, isHeld]

end

theorem Phase.Kept.move {next : World} (move : WorldMove library world action next)
    (kept : world.phase.Kept world.trace) :
    next.phase.Kept next.trace := by
  cases move with
  | environment outside request phase trace grows flag =>
    rw [phase, trace]
    exact kept
  | refuse outside early => exact (kept.untouched early).received
  | snapshot phase | readBody phase | classify phase =>
    rw [phase] at kept
    exact kept
  | route forms made chosen =>
    rw [forms.phase] at kept
    exact Untouched.select kept _
  | @unrouted _ _ _ _ _ exit _ forms made other =>
    rw [forms.phase] at kept
    cases exit with
    | answered status => exact kept.received
    | relayed held => exact absurd rfl (other held)
    | crashed => trivial
  | acquire phase =>
    rw [phase] at kept
    exact Untouched.ledger kept _
  | loop phase move =>
    rw [phase] at kept
    exact Ledger.move move kept
  | leaveOk phase ended served =>
    rw [phase] at kept
    exact Ledger.relay_ok kept served
  | leaveHeld phase ended unserved held =>
    rw [phase] at kept
    exact Ledger.relay_held kept ended unserved held
  | leaveNone phase ended unserved held =>
    rw [phase] at kept
    obtain ⟨_, waiting⟩ := Ledger.waiting_of_ended kept ended unserved
    exact List.getLast?_eq_none_iff.mp (waiting.held.symm.trans held)
  | leaveCrashed phase crashed => trivial
  | @finish held phase =>
    rw [phase] at kept
    have settled : Settled (fun _ => 0) (world.trace.release (some held)) :=
      kept.2.release fun _ => rfl
    exact settled

/-! ## When a node is displaced -/

/-- Whether a selection that lets a node in again for its next key gives that node, if it
returns. -/
def Selection.keeps (node : UpstreamNode) : Selection → Bool
  | .chosen next => decide (next.cfg.name = node.cfg.name)
  | .noNode => false
  | .crashed => true

def keepsNode (world : World) (action : Action) : Bool :=
  match action, world.phase with
  | .reselect clock, .looping context ask loop =>
    match loop.stage, loop.candidate with
    | .retrying _, some node =>
      (selectNodeFromSnapExcluding context.snap.nodes ask
        (loop.tried.filter (fun name => decide (name ≠ node.cfg.name))) clock
        world.shared.heap world.shared.rr).1.keeps node
    | _, _ => true
  | _, _ => true

theorem LoopMove.displaced_eq {context : Context} {ask : Ask} {before after : Progress}
    (move : LoopMove library context ask before action after)
    (other : ∀ clock, action ≠ .reselect clock) :
    after.trace.displaced = before.trace.displaced := by
  cases move with
  | again | displace => exact absurd rfl (other _)
  | hold | score => exact release_displaced _ _
  | _ => rfl

theorem WorldMove.displaced_of_early {next : World} (move : WorldMove library world action next)
    (early : world.phase.Early) :
    next.trace.displaced = world.trace.displaced := by
  cases move with
  | environment outside request phase trace grows flag => rw [trace]
  | loop phase move | leaveOk phase ended served | finish phase =>
    rw [phase] at early
    exact early.elim
  | _ => rfl

namespace World

variable {library : Library} {world next : World} {action : Action}

private theorem displaced_of_other (other : ∀ clock, action ≠ .reselect clock)
    (stepped : world.step library action = some next) :
    next.trace.displaced = world.trace.displaced := by
  cases step_cases stepped with
  | environment outside phase trace => rw [trace]
  | early outside early move => exact move.displaced_of_early early
  | perform phase move after =>
    rw [after]
    exact move.displaced_eq other
  | leave outside phase ended late kept => exact kept
  | finish outside phase late kept => exact kept

private theorem keepsNode_reselect {context : Context} {ask : Ask} {loop : Loop}
    {node : UpstreamNode} {response : Response} {clock : Nat → Int}
    (phase : world.phase = .looping context ask loop) (stage : loop.stage = .retrying response)
    (candidate : loop.candidate = some node) :
    keepsNode world (.reselect clock) = (world.shared.select context.snap.nodes ask
      (loop.without node) clock).1.selection.keeps node := by
  simp only [keepsNode, phase, stage, candidate]
  rfl

private theorem reselect_displaced {clock : Nat → Int}
    (stepped : world.step library (.reselect clock) = some next) :
    next.trace.displaced = [] ↔
      world.trace.displaced = [] ∧ keepsNode world (.reselect clock) = true := by
  cases step_move stepped with
  | environment others | refuse outside => contradiction
  | loop phase move =>
    cases move with
    | again stage candidate made chosen same =>
      subst made
      rw [keepsNode_reselect phase stage candidate, chosen]
      simp [Selection.keeps, same]
    | displace stage candidate made different survived =>
      subst made
      rw [keepsNode_reselect phase stage candidate]
      generalize selection : (world.shared.select _ _ _ _).1.selection = result at different survived ⊢
      cases result with
      | chosen other => simp [Selection.keeps, different other rfl]
      | noNode => simp [Selection.keeps]
      | crashed => exact absurd rfl survived
    | crashAgain stage candidate made crashed =>
      subst made
      rw [keepsNode_reselect phase stage candidate, crashed]
      simp [Selection.keeps]

theorem step_displaced (stepped : world.step library action = some next) :
    next.trace.displaced = [] ↔ world.trace.displaced = [] ∧ keepsNode world action = true := by
  by_cases again : ∃ clock, action = .reselect clock
  · obtain ⟨clock, rfl⟩ := again
    exact reselect_displaced stepped
  · have other : ∀ clock, action ≠ .reselect clock := fun clock is => again ⟨clock, is⟩
    have kept : keepsNode world action = true := by
      unfold keepsNode
      split
      next clock _ _ _ _ => exact absurd rfl (other clock)
      next => rfl
    have same := displaced_of_other other stepped
    rw [same]
    simp [kept]

end World

/-! ## Whole runs -/

section

variable {library : Library} {cfg : Config} {heap : Heap} {request : Request} {world final : World}
  {trace : List Action}

theorem kept_of_run (started : newRouter library cfg heap request = .ok world)
    (ran : (machine library).run world trace = some final) : final.phase.Kept final.trace := by
  obtain ⟨phase, empty, _⟩ := newRouter_arrived started
  refine (machine library).run_invariant (fun world => world.phase.Kept world.trace)
    (fun _ _ _ stepped => Phase.Kept.move (World.step_move stepped)) ran ?_
  rw [phase, empty]
  exact ⟨rfl, rfl, rfl, rfl⟩

theorem displaced_eq_nil_iff (started : newRouter library cfg heap request = .ok world)
    (ran : (machine library).run world trace = some final) :
    final.trace.displaced = [] ↔
      (machine library).Meets (fun world action => keepsNode world action = true) world trace := by
  obtain ⟨_, empty, _⟩ := newRouter_arrived started
  have exactly := (machine library).run_iff_meets (fun world => world.trace.displaced = [])
    (fun _ _ _ stepped => World.step_displaced stepped) ran
  rw [exactly, empty]
  exact and_iff_right rfl

end

/-- A request relays the first servable response or else the last one. That it can be
read then and that all others have been released once, and in the end every one, holds
exactly if each selection for the next key of a node gave that node again. -/
theorem relayed_response_usable_iff (library : Library) (cfg : Config) (heap : Heap)
    (request : Request) {world final : World} {trace : List Action}
    (started : newRouter library cfg heap request = .ok world)
    (ran : (machine library).run world trace = some final) :
    (∀ chosen, final.phase = .relaying chosen →
      Relayable final.trace.received chosen ∧
        ((final.trace.Usable chosen ∧
            ∀ other ∈ final.trace.received, other ≠ chosen → final.trace.ReleasedOnce other) ↔
          (machine library).Meets (fun world action => keepsNode world action = true) world trace)) ∧
      (∀ chosen, final.phase = .returned (.relayed chosen) →
        ((∀ held ∈ final.trace.received, final.trace.ReleasedOnce held) ↔
          (machine library).Meets (fun world action => keepsNode world action = true) world trace)) ∧
      (∀ status, final.phase = .returned (.answered status) → final.trace.received = []) := by
  have kept := kept_of_run started ran
  rw [← displaced_eq_nil_iff started ran]
  refine ⟨fun chosen phase => ?_, fun chosen phase => ?_, fun status phase => ?_⟩
  · rw [phase] at kept
    exact ⟨kept.1, kept.2.usable_iff kept.1.mem⟩
  · rw [phase] at kept
    exact Settled.releasedOnce_iff kept
  · rw [phase] at kept
    exact kept

def cooledKeySchedule : List Action :=
  [.snapshot 1, .readBody (.complete [104, 105]), .classify, .route (lit "m") .off (fun _ => 0),
    .acquire .admitted, .send true 0, .exchange (.response ⟨429, []⟩) 1, .judge 1, .checkKeys 1,
    .reselect (fun _ => 1)]

def secondKeySchedule : List Action :=
  cooledKeySchedule ++ [.send true 2, .exchange (.response ⟨503, []⟩) 3, .judge 3, .score 3,
    .choose (fun _ => 3), .send true 4, .exchange (.response ⟨200, []⟩) 5, .judge 5, .leave]

theorem secondKeySchedule_keepsNode
    (started : newRouter plainLibrary (clusterOf [cloudNode, localNode]) freshHeap internalRequest =
      .ok world) :
    (machine plainLibrary).Meets (fun world action => keepsNode world action = true) world
      secondKeySchedule := by
  have keeps : (newRouter plainLibrary (clusterOf [cloudNode, localNode]) freshHeap
      internalRequest).toOption.all (fun world => decide ((machine plainLibrary).Meets
        (fun world action => keepsNode world action = true) world secondKeySchedule)) = true := by
    decide +kernel
  rw [started] at keeps
  exact of_decide_eq_true keeps

theorem relayed_response_usable_after_second_key :
    ∃ final chosen, served plainLibrary (clusterOf [cloudNode, localNode]) freshHeap internalRequest
        secondKeySchedule = some final ∧
      final.phase = .relaying chosen ∧ final.trace.received.map Held.attempt = [0, 1, 2] ∧
      final.trace.Usable chosen ∧
      ∀ other ∈ final.trace.received, other ≠ chosen → final.trace.ReleasedOnce other := by
  have facts : (served plainLibrary (clusterOf [cloudNode, localNode]) freshHeap internalRequest
      secondKeySchedule).map (fun final => (final.phase, final.trace.received.map Held.attempt)) =
      some (.relaying ⟨2, ⟨1, localNode, none, by decide⟩, ⟨200, []⟩⟩, [0, 1, 2]) := by
    decide +kernel
  obtain ⟨final, ran, known⟩ := Option.map_eq_some_iff.mp facts
  obtain ⟨phase, attempts⟩ := Prod.mk.inj known
  obtain ⟨world, started, runs⟩ := served_eq_some ran
  obtain ⟨relaying, _, _⟩ := relayed_response_usable_iff plainLibrary _ freshHeap internalRequest
    started runs
  obtain ⟨usable, released⟩ := (relaying _ phase).2.mpr (secondKeySchedule_keepsNode started)
  exact ⟨final, _, ran, phase, attempts, usable, released⟩

def peerNode : NodeConfig := { localNode with priority := 1 }

/-- The selection for the second key gives the other node, which does not answer. -/
def displacedSchedule : List Action :=
  cooledKeySchedule ++ [.score 1, .choose (fun _ => 1), .send true 2, .exchange (.failure false) 3,
    .fail 3, .choose (fun _ => 3), .leave]

/-- The response that is relayed has been closed and its context cancelled. -/
theorem displaced_response_relayed_closed :
    ∃ final chosen, served plainLibrary (clusterOf [cloudNode, peerNode]) freshHeap internalRequest
        displacedSchedule = some final ∧
      final.phase = .relaying chosen ∧ final.trace.received = [chosen] ∧
      chosen.attempt ∈ final.trace.closed ∧ chosen.attempt ∈ final.trace.cancelled ∧
      ¬ final.trace.Usable chosen := by
  have facts : (served plainLibrary (clusterOf [cloudNode, peerNode]) freshHeap internalRequest
      displacedSchedule).map (fun final => (final.phase, final.trace.received, final.trace.closed,
        final.trace.cancelled)) =
      some (.relaying ⟨0, ⟨0, cloudNode, none, by decide⟩, ⟨429, []⟩⟩,
        [⟨0, ⟨0, cloudNode, none, by decide⟩, ⟨429, []⟩⟩], [0], [0, 1]) := by
    decide +kernel
  obtain ⟨final, ran, known⟩ := Option.map_eq_some_iff.mp facts
  simp only [Prod.mk.injEq] at known
  obtain ⟨phase, received, closed, cancelled⟩ := known
  have isClosed : (0 : Nat) ∈ final.trace.closed := by simp [closed]
  exact ⟨final, _, ran, phase, received, isClosed, by simp [cancelled], fun usable => usable.1 isClosed⟩

end ClusterRouter.Router
