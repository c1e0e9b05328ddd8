import Mathlib

/-! A machine whose step may refuse an action, its runs over finite action lists, and the
induction rules for what every run preserves. -/

set_option autoImplicit false

namespace ClusterRouter.Foundation

universe u v

theorem forall_mem_concat {α : Type u} {p : α → Prop} {l : List α} {a : α} (old : ∀ x ∈ l, p x)
    (new : p a) : ∀ x ∈ l ++ [a], p x :=
  List.forall_mem_append.mpr ⟨old, List.forall_mem_singleton.mpr new⟩

/-- A deterministic machine; `none` means the action is not enabled. -/
structure Machine (State : Type u) (Action : Type v) where
  step : State → Action → Option State

namespace Machine

variable {State : Type u} {Action : Type v} (machine : Machine State Action)

/-- Perform every action in order, stopping at the first refusal. -/
def run : State → List Action → Option State
  | state, [] => some state
  | state, action :: rest => (machine.step state action).bind (fun next => run next rest)

@[simp] theorem run_nil (state : State) : machine.run state [] = some state := rfl

variable {state final : State} {trace : List Action} {condition : State → Action → Prop}

theorem run_cons_eq_some {action : Action} {rest : List Action} :
    machine.run state (action :: rest) = some final ↔
      ∃ next, machine.step state action = some next ∧ machine.run next rest = some final := by
  simp only [run, Option.bind_eq_some_iff]

theorem run_append_eq_some {first second : List Action} :
    machine.run state (first ++ second) = some final ↔
      ∃ middle, machine.run state first = some middle ∧ machine.run middle second = some final := by
  induction first generalizing state with
  | nil => simp
  | cons action rest ih =>
    simp only [List.cons_append, run_cons_eq_some, ih]
    constructor
    · rintro ⟨next, stepped, middle, front, back⟩
      exact ⟨middle, ⟨next, stepped, front⟩, back⟩
    · rintro ⟨middle, ⟨next, stepped, front⟩, back⟩
      exact ⟨next, stepped, middle, front, back⟩

theorem run_concat_eq_some {action : Action} :
    machine.run state (trace ++ [action]) = some final ↔
      ∃ middle, machine.run state trace = some middle ∧ machine.step middle action = some final := by
  simp [run_append_eq_some, run]

/-- Every step of the run is taken from a state, by an action, that meet the
condition. -/
def Meets (condition : State → Action → Prop) : State → List Action → Prop
  | _, [] => True
  | state, action :: rest =>
    condition state action ∧
      match machine.step state action with
      | none => True
      | some next => Meets condition next rest

instance decidableMeets (condition : State → Action → Prop)
    [∀ state action, Decidable (condition state action)] :
    ∀ state trace, Decidable (machine.Meets condition state trace)
  | _, [] => inferInstanceAs (Decidable True)
  | state, action :: rest =>
    match stepped : machine.step state action with
    | none => decidable_of_iff (condition state action) (by simp [Meets, stepped])
    | some next =>
      have := decidableMeets condition next rest
      decidable_of_iff (condition state action ∧ machine.Meets condition next rest)
        (by simp [Meets, stepped])

theorem meets_of_forall {condition : Action → Prop} (all : ∀ action ∈ trace, condition action)
    (state : State) :
    machine.Meets (fun _ action => condition action) state trace := by
  induction trace generalizing state with
  | nil => trivial
  | cons action rest ih =>
    refine ⟨all action List.mem_cons_self, ?_⟩
    cases machine.step state action with
    | none => trivial
    | some next => exact ih (fun later member => all later (List.mem_cons_of_mem _ member)) next

theorem meets_and {first second : State → Action → Prop} (one : machine.Meets first state trace)
    (other : machine.Meets second state trace) :
    machine.Meets (fun state action => first state action ∧ second state action) state trace := by
  induction trace generalizing state with
  | nil => trivial
  | cons action rest ih =>
    simp only [Meets] at one other ⊢
    refine ⟨⟨one.1, other.1⟩, ?_⟩
    cases stepped : machine.step state action with
    | none => trivial
    | some next =>
      simp only [stepped] at one other
      exact ih one.2 other.2

theorem meets_iff_forall (ran : machine.run state trace = some final) :
    machine.Meets condition state trace ↔
      ∀ before action after middle, trace = before ++ action :: after →
        machine.run state before = some middle → condition middle action := by
  induction trace generalizing state with
  | nil => simp [Meets]
  | cons first rest ih =>
    obtain ⟨next, stepped, remaining⟩ := machine.run_cons_eq_some.mp ran
    simp only [Meets, stepped, ih remaining]
    constructor
    · rintro ⟨here, later⟩ before action after middle split reached
      cases before with
      | nil =>
        cases split
        cases reached
        exact here
      | cons _ before =>
        cases split
        obtain ⟨_, isNext, reached⟩ := machine.run_cons_eq_some.mp reached
        cases stepped.symm.trans isNext
        exact later before action after middle rfl reached
    · intro all
      refine ⟨all [] first rest state rfl rfl, fun before action after middle split reached => ?_⟩
      refine all (first :: before) action after middle (by rw [split]; rfl) ?_
      exact machine.run_cons_eq_some.mpr ⟨next, stepped, reached⟩

/-- Two conditions that agree in every state that meeting the first one leads to are met
by the same runs. -/
theorem meets_congr_of_invariant {first second : State → Action → Prop} (invariant : State → Prop)
    (agree : ∀ state action next, machine.step state action = some next → invariant state →
      (first state action ↔ second state action))
    (kept : ∀ state action next, machine.step state action = some next → invariant state →
      first state action → invariant next) (ran : machine.run state trace = some final)
    (start : invariant state) :
    machine.Meets first state trace ↔ machine.Meets second state trace := by
  induction trace generalizing state with
  | nil => exact Iff.rfl
  | cons action rest ih =>
    obtain ⟨next, stepped, remaining⟩ := machine.run_cons_eq_some.mp ran
    have here := agree state action next stepped start
    simp only [Meets, stepped]
    constructor
    · rintro ⟨met, later⟩
      exact ⟨here.mp met, (ih remaining (kept state action next stepped start met)).mp later⟩
    · rintro ⟨met, later⟩
      have holds := here.mpr met
      exact ⟨holds, (ih remaining (kept state action next stepped start holds)).mpr later⟩

theorem run_invariant_of_meets (invariant : State → Prop)
    (preserved : ∀ state action next, condition state action →
      machine.step state action = some next → invariant state → invariant next)
    (meets : machine.Meets condition state trace) (ran : machine.run state trace = some final)
    (start : invariant state) :
    invariant final := by
  induction trace generalizing state with
  | nil =>
    cases ran
    exact start
  | cons action rest ih =>
    obtain ⟨next, stepped, remaining⟩ := machine.run_cons_eq_some.mp ran
    simp only [Meets, stepped] at meets
    exact ih meets.2 remaining (preserved state action next meets.1 stepped start)

theorem run_invariant (invariant : State → Prop)
    (preserved : ∀ state action next,
      machine.step state action = some next → invariant state → invariant next)
    (ran : machine.run state trace = some final) (start : invariant state) :
    invariant final :=
  machine.run_invariant_of_meets invariant (fun state action next _ => preserved state action next)
    (machine.meets_of_forall (fun _ _ => trivial) state) ran start

/-- What an enabled step keeps exactly under the condition, and never restores, holds
after a run exactly if it held before and the run meets the condition. The run meets a premise,
and the step may rely on what every such run preserves. -/
theorem run_iff_meets_under {premise : State → Action → Prop} (invariant property : State → Prop)
    (kept : ∀ state action next, premise state action → machine.step state action = some next →
      invariant state → invariant next)
    (exactly : ∀ state action next, premise state action → machine.step state action = some next →
      invariant state → (property next ↔ property state ∧ condition state action))
    (meets : machine.Meets premise state trace) (ran : machine.run state trace = some final)
    (start : invariant state) :
    property final ↔ property state ∧ machine.Meets condition state trace := by
  induction trace generalizing state with
  | nil =>
    cases ran
    simp [Meets]
  | cons action rest ih =>
    obtain ⟨next, stepped, remaining⟩ := machine.run_cons_eq_some.mp ran
    simp only [Meets, stepped] at meets
    rw [ih meets.2 remaining (kept state action next meets.1 stepped start),
      exactly state action next meets.1 stepped start]
    simp only [Meets, stepped]
    exact and_assoc

theorem run_iff_meets (property : State → Prop)
    (exactly : ∀ state action next, machine.step state action = some next →
      (property next ↔ property state ∧ condition state action))
    (ran : machine.run state trace = some final) :
    property final ↔ property state ∧ machine.Meets condition state trace :=
  machine.run_iff_meets_under (fun _ => True) property (fun _ _ _ _ _ _ => trivial)
    (fun state action next _ stepped _ => exactly state action next stepped)
    (machine.meets_of_forall (fun _ _ => trivial) state) ran trivial

/-! ## Histories -/

section

universe w

variable {Seen : Type w} (see : Seen → State → Action → Seen)

/-- What is seen of a run by one who looks at every enabled step, in the state before it. -/
def fold : Seen → State → List Action → Seen
  | seen, _, [] => seen
  | seen, state, action :: rest =>
    match machine.step state action with
    | none => seen
    | some next => fold (see seen state action) next rest

theorem fold_invariant_of_meets (invariant : Seen → State → Prop)
    (preserved : ∀ seen state action next, condition state action →
      machine.step state action = some next → invariant seen state →
      invariant (see seen state action) next) {seen : Seen}
    (meets : machine.Meets condition state trace) (ran : machine.run state trace = some final)
    (start : invariant seen state) : invariant (machine.fold see seen state trace) final := by
  induction trace generalizing state seen with
  | nil =>
    cases ran
    exact start
  | cons action rest ih =>
    obtain ⟨next, stepped, remaining⟩ := machine.run_cons_eq_some.mp ran
    simp only [Meets, stepped] at meets
    simp only [fold, stepped]
    exact ih meets.2 remaining (preserved seen state action next meets.1 stepped start)

end

section

universe w

variable {Note : Type w} (note : State → Action → List Note)

/-- The machine that also writes down what is noted at each enabled step, from the state
before it. -/
def recording : Machine (State × List Note) Action where
  step recorded action :=
    (machine.step recorded.1 action).map (fun next => (next, recorded.2 ++ note recorded.1 action))

variable {notes after : List Note}

theorem recording_step_eq_some {state next : State} {action : Action} :
    (machine.recording note).step (state, notes) action = some (next, after) ↔
      machine.step state action = some next ∧ after = notes ++ note state action := by
  simp only [recording, Option.map_eq_some_iff, Prod.mk.injEq]
  constructor
  · rintro ⟨_, stepped, rfl, rfl⟩
    exact ⟨stepped, rfl⟩
  · rintro ⟨stepped, rfl⟩
    exact ⟨next, stepped, rfl, rfl⟩

theorem run_of_recording {state final : State} {trace : List Action}
    (ran : (machine.recording note).run (state, notes) trace = some (final, after)) :
    machine.run state trace = some final := by
  induction trace generalizing state notes with
  | nil =>
    cases ran
    rfl
  | cons action rest ih =>
    obtain ⟨⟨next, more⟩, stepped, remaining⟩ := (machine.recording note).run_cons_eq_some.mp ran
    obtain ⟨stepped, _⟩ := (machine.recording_step_eq_some note).mp stepped
    exact machine.run_cons_eq_some.mpr ⟨next, stepped, ih remaining⟩

theorem recording_invariant_of_meets {condition : State → Action → Prop}
    (invariant : State → List Note → Prop)
    (preserved : ∀ state notes action next, condition state action →
      machine.step state action = some next →
      invariant state notes → invariant next (notes ++ note state action)) {state final : State}
    {trace : List Action} (meets : machine.Meets condition state trace)
    (ran : (machine.recording note).run (state, notes) trace = some (final, after))
    (start : invariant state notes) : invariant final after := by
  induction trace generalizing state notes with
  | nil =>
    cases ran
    exact start
  | cons action rest ih =>
    obtain ⟨⟨next, more⟩, stepped, remaining⟩ := (machine.recording note).run_cons_eq_some.mp ran
    obtain ⟨moved, rfl⟩ := (machine.recording_step_eq_some note).mp stepped
    simp only [Meets, moved] at meets
    exact ih meets.2 remaining (preserved state notes action next meets.1 moved start)

theorem recording_invariant (invariant : State → List Note → Prop)
    (preserved : ∀ state notes action next, machine.step state action = some next →
      invariant state notes → invariant next (notes ++ note state action)) {state final : State}
    {trace : List Action}
    (ran : (machine.recording note).run (state, notes) trace = some (final, after))
    (start : invariant state notes) : invariant final after :=
  machine.recording_invariant_of_meets note invariant
    (fun state notes action next _ => preserved state notes action next)
    (machine.meets_of_forall (fun _ _ => trivial) state) ran start

end

end Machine

end ClusterRouter.Foundation
