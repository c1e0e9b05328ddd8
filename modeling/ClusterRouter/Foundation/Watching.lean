import Mathlib

/-! A watched run is a run with extra events put in, each of which only observes; the rule
compares the answers of the original events with and without them. -/

set_option autoImplicit false

namespace ClusterRouter.Foundation

universe u v w x

variable {State : Type u} {Event : Type v} {Response : Type w} {Instant : Type x}

def answers (respond : State → Event → State × Response) :
    State → List Event → List (Event × Response)
  | _, [] => []
  | state, event :: rest =>
    (event, (respond state event).2) :: answers respond (respond state event).1 rest

/-- An event of a watched run; one that was put in is an observation. -/
inductive Watched (observes : Event → Prop) where
  | original (event : Event)
  | extra (event : Event) (observation : observes event)

namespace Watched

variable {observes : Event → Prop}

def event : Watched observes → Event
  | original event => event
  | extra event _ => event

def originals : List (Watched observes) → List Event
  | [] => []
  | original event :: rest => event :: originals rest
  | extra _ _ :: rest => originals rest

def answers (respond : State → Event → State × Response) :
    State → List (Watched observes) → List (Event × Response)
  | _, [] => []
  | state, original event :: rest =>
    (event, (respond state event).2) :: answers respond (respond state event).1 rest
  | state, extra event _ :: rest => answers respond (respond state event).1 rest

/-- A relation between the plain and the watched state that survives the passing
of time, an observation of the watched state and a call on both. -/
structure Unnoticed (observes : Event → Prop) (respond : State → Event → State × Response)
    (instant : Event → Instant) (follows : Instant → Instant → Prop)
    (related : Instant → State → State → Prop) (agree : Event → Response → Response → Prop) :
    Prop where
  passed : ∀ {now later plain seen}, follows now later → related now plain seen →
    related later plain seen
  observed : ∀ {event plain seen}, observes event → related (instant event) plain seen →
    related (instant event) plain (respond seen event).1
  called : ∀ {event plain seen}, related (instant event) plain seen →
    related (instant event) (respond plain event).1 (respond seen event).1 ∧
      agree event (respond plain event).2 (respond seen event).2

theorem Unnoticed.answers_agree {respond : State → Event → State × Response}
    {instant : Event → Instant} {follows : Instant → Instant → Prop}
    {related : Instant → State → State → Prop} {agree : Event → Response → Response → Prop}
    (unnoticed : Unnoticed observes respond instant follows related agree)
    {clock : Instant} {plain seen : State} {events : List (Watched observes)}
    (clocked : (clock :: events.map (fun watched => instant watched.event)).IsChain follows)
    (start : related clock plain seen) :
    List.Forall₂ (fun answer watched => answer.1 = watched.1 ∧ agree answer.1 answer.2 watched.2)
      (Foundation.answers respond plain (originals events)) (answers respond seen events) := by
  induction events generalizing clock plain seen with
  | nil => exact .nil
  | cons watched rest ih =>
    rw [List.map_cons, List.isChain_cons_cons] at clocked
    obtain ⟨next, later⟩ := clocked
    have now := unnoticed.passed next start
    cases watched with
    | original event =>
      obtain ⟨after, same⟩ := unnoticed.called now
      exact .cons ⟨rfl, same⟩ (ih later after)
    | extra event observation => exact ih later (unnoticed.observed observation now)

end Watched

end ClusterRouter.Foundation
