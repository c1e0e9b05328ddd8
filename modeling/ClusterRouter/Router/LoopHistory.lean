import ClusterRouter.Router.Ledger

/-! What the loop tries, marks, checks and scores, noted down while it does. -/

set_option autoImplicit false

namespace ClusterRouter.Router

open Foundation

def Phase.Late : Phase → Prop
  | .relaying _ | .returned _ => True
  | _ => False

/-- A step as the ledgers of the loop see it. -/
inductive StepCase (library : Library) (world : World) (action : Action) (next : World) : Prop where
  | environment : action.inLoop = false → next.phase = world.phase → next.trace = world.trace →
      StepCase library world action next
  | early : action.inLoop = false → world.phase.Early → WorldMove library world action next →
      StepCase library world action next
  | perform {context ask loop progress} :
      world.phase = .looping context ask loop →
      LoopMove library context ask ⟨loop, world.trace, world.shared⟩ action progress →
      next = { world with
        phase := .looping context ask progress.loop
        trace := progress.trace
        shared := progress.shared } →
      StepCase library world action next
  | leave {context ask loop} : action.inLoop = false →
      world.phase = .looping context ask loop →
      loop.stage = .crashed ∨ Progress.ended loop = true → next.phase.Late →
      next.trace.displaced = world.trace.displaced → StepCase library world action next
  | finish {held} : action.inLoop = false → world.phase = .relaying held → next.phase.Late →
      next.trace.displaced = world.trace.displaced → StepCase library world action next

theorem World.step_cases {library : Library} {world next : World} {action : Action}
    (stepped : world.step library action = some next) : StepCase library world action next := by
  have moved := step_move stepped
  cases step_move stepped with
  | environment others request phase trace =>
    exact .environment (Action.not_inLoop_of_byOthers others) phase trace
  | refuse outside early => exact .early outside early moved
  | snapshot phase | readBody phase | classify phase | acquire phase =>
    exact .early rfl (by rw [phase]; trivial) moved
  | route forms | unrouted forms => exact .early rfl (by rw [forms.phase]; trivial) moved
  | loop phase move => exact .perform phase move rfl
  | leaveOk phase ended => exact .leave rfl phase (.inr ended) trivial (release_displaced _ _)
  | leaveHeld phase ended | leaveNone phase ended => exact .leave rfl phase (.inr ended) trivial rfl
  | leaveCrashed phase crashed => exact .leave rfl phase (.inl crashed) trivial rfl
  | finish phase => exact .finish rfl phase trivial (release_displaced _ _)

/-! ## Notes -/

/-- `key` is the place of the presented key in the pool, if a request could be built. -/
inductive LoopNote where
  | tried (attempt : Nat) (node : UpstreamNode) (key : Option Int)
  | exhausted (attempt : Nat) (node : UpstreamNode) (key : Int)
  | checked (attempt : Nat) (allCooling : Bool)
  | scored (attempt : Nat)
  deriving DecidableEq

def LoopNote.attempt : LoopNote → Nat
  | .tried attempt _ _ | .exhausted attempt _ _ | .checked attempt _ | .scored attempt => attempt

def loopNotes (library : Library) (loop : Loop) (heap : Heap) : Action → List LoopNote
  | .send buildable now =>
    match loop.candidate with
    | some node =>
      [.tried loop.attemptIdx node
        (if buildable then some ((heap node.id).keys.next now).2.1 else none)]
    | none => []
  | .judge _ =>
    match loop.stage, loop.candidate with
    | .answered response used, some node =>
      if quotaAnswer library node response used then [.exhausted loop.attemptIdx node used]
      else []
    | _, _ => []
  | .checkKeys now =>
    match loop.candidate with
    | some node => [.checked loop.attemptIdx ((heap node.id).keys.allCooling now)]
    | none => []
  | .score _ => [.scored loop.attemptIdx]
  | _ => []

section

variable {library : Library} {loop : Loop} {heap : Heap} {node : UpstreamNode} {now : Int}

theorem loopNotes_send {buildable : Bool} (candidate : loop.candidate = some node) :
    loopNotes library loop heap (.send buildable now) = [.tried loop.attemptIdx node
      (if buildable then some ((heap node.id).keys.next now).2.1 else none)] := by
  simp only [loopNotes, candidate]

theorem loopNotes_judge {response : Response} {used : Int}
    (stage : loop.stage = .answered response used) (candidate : loop.candidate = some node) :
    loopNotes library loop heap (.judge now) =
      if quotaAnswer library node response used then [.exhausted loop.attemptIdx node used] else [] := by
  simp only [loopNotes, stage, candidate]

theorem loopNotes_checkKeys (candidate : loop.candidate = some node) :
    loopNotes library loop heap (.checkKeys now) =
      [.checked loop.attemptIdx ((heap node.id).keys.allCooling now)] := by
  simp only [loopNotes, candidate]

end

def historyNotes (library : Library) (world : World) (action : Action) : List LoopNote :=
  match world.phase with
  | .looping _ _ loop => loopNotes library loop world.shared.heap action
  | _ => []

def recorder (library : Library) : Machine (World × List LoopNote) Action :=
  (machine library).recording (historyNotes library)

def observed (library : Library) (cfg : Config) (heap : Heap) (request : Request)
    (trace : List Action) : Option (World × List LoopNote) :=
  match newRouter library cfg heap request with
  | .error _ => none
  | .ok world => (recorder library).run (world, []) trace

theorem observed_eq_some {library : Library} {cfg : Config} {heap : Heap} {request : Request}
    {trace : List Action} {final : World} {notes : List LoopNote}
    (ran : observed library cfg heap request trace = some (final, notes)) :
    ∃ world, newRouter library cfg heap request = .ok world ∧
      (recorder library).run (world, []) trace = some (final, notes) := by
  unfold observed at ran
  split at ran
  next => cases ran
  next world started => exact ⟨world, started, ran⟩

theorem historyNotes_of_not_inLoop {library : Library} {world : World} {action : Action}
    (outside : action.inLoop = false) : historyNotes library world action = [] := by
  unfold historyNotes
  split
  next => cases action <;> first | rfl | cases outside
  next => rfl

end ClusterRouter.Router
