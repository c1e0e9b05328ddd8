import ClusterRouter.Router.HandlerProperties

/-! A request routes by its own snapshot, but whether the rule on personal data applies is read
from a flag that reloads overwrite. -/

set_option autoImplicit false

namespace ClusterRouter.Router

open Foundation

/-- When a request whose body is personal and whose snapshot arms the rule reads the
flag, the configuration that was stored last arms it too. -/
def ruleStillArmed (library : Library) (world : World) (action : Action) : Bool :=
  match action, world.phase with
  | .classify, .read context =>
    !(context.snap.armed && library.detectPersonal context.body) || world.armedBy.armed
  | _, _ => true

def Constrained (library : Library) (context : Context) (ask : Ask) : Prop :=
  context.snap.armed = true → library.detectPersonal context.body = true → ask.personal = true

structure Guarded (library : Library) (world : World) : Prop where
  flag : world.piiRuleArmed = world.armedBy.armed
  classified : ∀ context personal, world.phase = .classified context personal →
    context.snap.armed = true → library.detectPersonal context.body = true → personal = true
  asked : AskedAs (Constrained library) world

theorem Guarded.move {library : Library} {world next : World} {action : Action}
    (move : WorldMove library world action next) (armed : ruleStillArmed library world action = true)
    (guarded : Guarded library world) : Guarded library next := by
  have asked : AskedAs (Constrained library) next :=
    guarded.asked.move move fun context ask phase _ => guarded.classified context ask.personal phase
  cases move with
  | environment outside request phase trace grows flag =>
    refine ⟨flag guarded.flag, fun context personal is => ?_, asked⟩
    exact guarded.classified context personal (phase ▸ is)
  | @classify context phase =>
    refine ⟨guarded.flag, fun other personal is snapArmed detected => ?_, asked⟩
    cases is
    simp only [ruleStillArmed, phase] at armed
    simpa [guarded.flag, snapArmed, detected] using armed
  | refuse | snapshot | readBody | route | unrouted | acquire | loop | leaveOk | leaveHeld
  | leaveNone | leaveCrashed | finish =>
    -- The request is not classified by these.
    refine ⟨guarded.flag, fun _ _ is => ?_, asked⟩
    cases is

/-- In a run that meets the condition, a personal body goes only to nodes of the snapshot
that are marked for it. -/
theorem personal_bodies_stay_local (library : Library) (cfg : Config) (heap : Heap)
    (request : Request) {world final : World} {trace : List Action}
    (started : newRouter library cfg heap request = .ok world)
    (ran : (machine library).run world trace = some final)
    (armed : (machine library).Meets (fun world action => ruleStillArmed library world action = true)
      world trace) :
    ∀ attempt ∈ final.trace.attempts, attempt.context.snap.armed = true →
      library.detectPersonal attempt.context.body = true →
      attempt.node ∈ attempt.context.snap.nodes ∧ attempt.node.cfg.piiLocal = true := by
  intro attempt member snapArmed detected
  obtain ⟨phase, empty, _, flag⟩ := newRouter_arrived started
  have start : Guarded library world := by
    refine ⟨flag, fun _ _ is => ?_, fun _ _ is => ?_, by simp [empty, Trace.empty]⟩
    · rw [phase] at is
      cases is
    · rw [phase] at is
      exact is.elim
  have guarded := (machine library).run_invariant_of_meets (Guarded library)
    (fun _ _ _ condition stepped => Guarded.move (World.step_move stepped) condition) armed ran start
  have routed := Routed.of_run started ran
  obtain ⟨record, known, nodes, same, chosen⟩ := routed.attempts attempt member
  have made := (routed.genuine record known).selection
  obtain ⟨within, eligible⟩ := (of_chosen (made ▸ chosen)).1
  refine ⟨nodes ▸ within, eligible.piiLocal ?_⟩
  rw [same]
  exact guarded.asked.attempts attempt member snapArmed detected

/-- A personal request whose upload is overtaken by a reload, and whose first attempt
fails. -/
def overtakenSchedule (cfg : Config) : List Action :=
  [.snapshot 1, .reloadSwap cfg, .reloadArm, .reloadUnlock, .readBody (.complete (lit "a@b.co")),
    .classify, .route (lit "m") .off (fun _ => 0), .acquire .admitted, .send true 0,
    .exchange (.failure false) 0, .fail 1, .choose (fun _ => 1)]

theorem personal_body_stays_local_across_reload :
    ∃ final, served plainLibrary (clusterOf [cloudNode, localNode]) freshHeap internalRequest
        (overtakenSchedule (clusterOf [localNode])) = some final ∧
      final.trace.attempts.map (fun attempt => attempt.node.cfg.name) = [lit "local"] ∧
      ∀ attempt ∈ final.trace.attempts, attempt.context.snap.armed = true →
        plainLibrary.detectPersonal attempt.context.body = true →
        attempt.node ∈ attempt.context.snap.nodes ∧ attempt.node.cfg.piiLocal = true := by
  have attempts : (served plainLibrary (clusterOf [cloudNode, localNode]) freshHeap internalRequest
      (overtakenSchedule (clusterOf [localNode]))).map (fun final =>
        final.trace.attempts.map (fun attempt => attempt.node.cfg.name)) = some [lit "local"] := by
    decide +kernel
  have armed : (newRouter plainLibrary (clusterOf [cloudNode, localNode]) freshHeap
      internalRequest).toOption.all (fun world => decide ((machine plainLibrary).Meets
        (fun world action => ruleStillArmed plainLibrary world action = true) world
        (overtakenSchedule (clusterOf [localNode])))) = true := by
    decide +kernel
  obtain ⟨final, ran, sent⟩ := Option.map_eq_some_iff.mp attempts
  obtain ⟨world, started, runs⟩ := served_eq_some ran
  rw [started] at armed
  exact ⟨final, ran, sent, personal_bodies_stay_local plainLibrary _ freshHeap internalRequest started
    runs (of_decide_eq_true armed)⟩

/-- The reload removes the last local node, and the personal body goes to the cloud. -/
theorem personal_body_leaves_after_disarming_reload :
    (served plainLibrary (clusterOf [cloudNode, localNode]) freshHeap internalRequest
        (overtakenSchedule (clusterOf [cloudNode]))).map (fun final =>
          final.trace.attempts.map (fun attempt =>
            (attempt.context.snap.armed, plainLibrary.detectPersonal attempt.context.body,
              attempt.node.cfg.name, attempt.node.cfg.piiLocal))) =
      some [(true, true, lit "cloud", false)] := by
  decide +kernel

end ClusterRouter.Router
