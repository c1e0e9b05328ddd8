import Mathlib

/-! What a computation in `Except`, with or without a state, that succeeds says about its parts. -/

set_option autoImplicit false

namespace ClusterRouter.Foundation

universe u v w

variable {Failure : Type u} {Item : Type v} {Result : Type w}

theorem bind_eq_ok {Value : Type w} {first : Except Failure Result}
    {next : Result → Except Failure Value} {value : Value} :
    (first >>= next) = .ok value ↔ ∃ result, first = .ok result ∧ next result = .ok value := by
  cases first with
  | error | ok => simp [bind, Except.bind]

theorem mapError_eq_ok {Other : Type w} {first : Except Failure Item} {change : Failure → Other}
    {item : Item} : first.mapError change = .ok item ↔ first = .ok item := by
  cases first with
  | error | ok => simp [Except.mapError]

def rejectIf (condition : Prop) [Decidable condition] (failure : Failure) : Except Failure Unit :=
  if condition then .error failure else .ok ()

theorem rejectIf_eq_ok {condition : Prop} [Decidable condition] {failure : Failure} {done : Unit} :
    rejectIf condition failure = .ok done ↔ ¬ condition := by
  unfold rejectIf
  split
  next holds => simp [holds]
  next fails => simp [fails]

variable {f : Item → Except Failure Result} {items : List Item} {results : List Result}

theorem forall₂_of_mapM_eq_ok (all : items.mapM f = .ok results) :
    List.Forall₂ (fun item result => f item = .ok result) items results := by
  induction items generalizing results with
  | nil =>
    cases all
    exact .nil
  | cons item rest ih =>
    rw [List.mapM_cons] at all
    obtain ⟨head, isHead, all⟩ := bind_eq_ok.mp all
    obtain ⟨tail, isTail, all⟩ := bind_eq_ok.mp all
    cases all
    exact .cons isHead (ih isTail)

theorem mem_of_mapM_eq_ok (all : items.mapM f = .ok results) {result : Result}
    (member : result ∈ results) : ∃ item ∈ items, f item = .ok result := by
  obtain ⟨n, inside, rfl⟩ := List.getElem_of_mem member
  have each := List.forall₂_iff_get.mp (forall₂_of_mapM_eq_ok all)
  exact ⟨items[n], List.getElem_mem _, each.2 n (each.1 ▸ inside) inside⟩

theorem eq_map_of_mapM_eq_ok {g : Item → Result}
    (known : ∀ {item : Item} {result : Result}, f item = .ok result → result = g item)
    (all : items.mapM f = .ok results) :
    results = items.map g := by
  rw [← List.forall₂_eq_eq_eq, List.forall₂_map_right_iff]
  exact ((forall₂_of_mapM_eq_ok all).imp fun _ _ => known).flip

theorem foldlM_of_kept {State : Type w} {step : State → Item → Except Failure State}
    {holds : State → Prop}
    (kept : ∀ state item, holds state → ∃ next, step state item = .ok next ∧ holds next)
    (items : List Item) {state : State} (start : holds state) :
    ∃ final, items.foldlM step state = .ok final ∧ holds final := by
  induction items generalizing state with
  | nil => exact ⟨state, rfl, start⟩
  | cons item rest ih =>
    obtain ⟨next, stepped, holdsNext⟩ := kept state item start
    obtain ⟨final, ran, holdsFinal⟩ := ih holdsNext
    refine ⟨final, ?_, holdsFinal⟩
    rw [List.foldlM_cons, stepped]
    exact ran

/-! ## With a state -/

section

variable {State Failure Item Result Value : Type}

theorem stateful_bind_eq_ok {first : StateT State (Except Failure) Result}
    {next : Result → StateT State (Except Failure) Value} {state : State} {done : Value × State} :
    (first >>= next) state = .ok done ↔
      ∃ result between, first state = .ok (result, between) ∧ next result between = .ok done := by
  have run : (first >>= next) state = first state >>= fun reached => next reached.1 reached.2 := rfl
  rw [run, bind_eq_ok]
  constructor
  · rintro ⟨⟨result, between⟩, reached, finished⟩
    exact ⟨result, between, reached, finished⟩
  · rintro ⟨result, between, reached, finished⟩
    exact ⟨(result, between), reached, finished⟩

theorem stateful_lift_eq_ok {plain : Except Failure Result} {state : State}
    {done : Result × State} :
    (liftM plain : StateT State (Except Failure) Result) state = .ok done ↔
      plain = .ok done.1 ∧ done.2 = state := by
  cases plain with
  | error failure => simp [liftM, monadLift, MonadLift.monadLift, StateT.lift, bind, Except.bind]
  | ok result =>
    obtain ⟨value, after⟩ := done
    simp [liftM, monadLift, MonadLift.monadLift, StateT.lift, bind, Except.bind, pure, Except.pure,
      eq_comm]

theorem forall₂_of_stateful_mapM {f : Item → StateT State (Except Failure) Result}
    {items : List Item} {results : List Result} {state after : State}
    (all : items.mapM f state = .ok (results, after)) :
    List.Forall₂ (fun item result => ∃ here there, f item here = .ok (result, there)) items
      results := by
  induction items generalizing results state with
  | nil =>
    cases all
    exact .nil
  | cons item rest ih =>
    rw [List.mapM_cons] at all
    obtain ⟨head, between, isHead, all⟩ := stateful_bind_eq_ok.mp all
    obtain ⟨tail, last, isTail, all⟩ := stateful_bind_eq_ok.mp all
    cases all
    exact .cons ⟨state, between, isHead⟩ (ih isTail)

end

end ClusterRouter.Foundation
