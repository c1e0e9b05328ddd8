import Mathlib

/-! A path is a walk from the root: down to a name, up to the parent, or nowhere. A walk from
some place first climbs out of it a number of times and then goes down. -/

set_option autoImplicit false

namespace ClusterRouter.Foundation

inductive Move (Name : Type) where
  | stay
  | up
  | down (name : Name)
  deriving DecidableEq, Repr

variable {Name : Type}

/-- The place next to `place`, a place being the names on the way to it from the root. -/
def Move.apply (place : List Name) : Move Name → List Name
  | .stay => place
  | .up => place.dropLast
  | .down name => place ++ [name]

def walk (start : List Name) (moves : List (Move Name)) : List Name := moves.foldl Move.apply start

theorem walk_append (start : List Name) (first second : List (Move Name)) :
    walk start (first ++ second) = walk (walk start first) second :=
  List.foldl_append

theorem walk_downs (start names : List Name) : walk start (names.map .down) = start ++ names := by
  induction names generalizing start with
  | nil => simp [walk]
  | cons name rest ih =>
    have later := ih (start ++ [name])
    simpa [walk, Move.apply] using later

/-- How far a walk leads up before the names it leads down to afterwards. -/
structure Climb (Name : Type) where
  climbs : Nat
  names : List Name
  deriving DecidableEq, Repr

namespace Climb

def apply (climb : Climb Name) : Move Name → Climb Name
  | .stay => climb
  | .up => if climb.names.isEmpty then ⟨climb.climbs + 1, []⟩ else ⟨climb.climbs, climb.names.dropLast⟩
  | .down name => ⟨climb.climbs, climb.names ++ [name]⟩

def ofMoves (moves : List (Move Name)) : Climb Name := moves.foldl apply ⟨0, []⟩

def goal (climb : Climb Name) (start : List Name) : List Name :=
  start.take (start.length - climb.climbs) ++ climb.names

theorem goal_apply (climb : Climb Name) (start : List Name) (move : Move Name) :
    (climb.apply move).goal start = Move.apply (climb.goal start) move := by
  cases move with
  | stay => rfl
  | down name => simp [apply, goal, Move.apply]
  | up =>
    obtain ⟨climbs, names⟩ := climb
    cases names with
    | nil =>
      simp only [apply, List.isEmpty_nil, if_true, goal, Move.apply, List.append_nil]
      rw [List.dropLast_eq_take, List.take_take, List.length_take]
      congr 1
      omega
    | cons name rest => simp [apply, goal, Move.apply, List.dropLast_append_of_ne_nil]

end Climb

theorem walk_eq_goal (start : List Name) (moves : List (Move Name)) :
    walk start moves = (Climb.ofMoves moves).goal start := by
  have follows : ∀ (climb : Climb Name),
      walk (climb.goal start) moves = (moves.foldl Climb.apply climb).goal start := by
    induction moves with
    | nil =>
      intro climb
      rfl
    | cons move rest ih =>
      intro climb
      rw [List.foldl_cons, ← ih, climb.goal_apply]
      rfl
  have whole := follows ⟨0, []⟩
  simpa [Climb.goal, Climb.ofMoves] using whole

end ClusterRouter.Foundation
