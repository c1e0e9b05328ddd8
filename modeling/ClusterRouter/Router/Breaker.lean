import ClusterRouter.Foundation.Time

/-! `internal/circuit/breaker.go`: one breaker for each upstream. Every reading of the clock is
an argument. -/

set_option autoImplicit false

namespace ClusterRouter.Router

open Foundation

inductive BreakerState where
  | closed
  | opened
  | halfOpen
  deriving DecidableEq, Repr

structure Breaker where
  state : BreakerState
  failures : Nat
  threshold : Int
  cooldown : Int
  openedAt : Int
  deriving DecidableEq, Repr

namespace Breaker

def new (threshold cooldown : Int) : Breaker where
  state := .closed
  failures := 0
  threshold := if threshold ≤ 0 then 5 else threshold
  cooldown := if cooldown ≤ 0 then 30 * Duration.second else cooldown
  openedAt := 0

/-- The routing-time check; an open breaker whose cooldown is over lets a probe
through. -/
def allow (breaker : Breaker) (now : Int) : Bool × Breaker :=
  match breaker.state with
  | .closed => (true, breaker)
  | .opened =>
    if breaker.cooldown ≤ Time.sub now breaker.openedAt then
      (true, { breaker with state := .halfOpen })
    else (false, breaker)
  | .halfOpen => (true, breaker)

def recordSuccess (breaker : Breaker) : Breaker := { breaker with failures := 0, state := .closed }

def recordFailure (breaker : Breaker) (now : Int) : Breaker :=
  match breaker.state with
  | .halfOpen => { breaker with openedAt := now, state := .opened }
  | .closed =>
    let failures := breaker.failures + 1
    if breaker.threshold ≤ failures then { breaker with failures, openedAt := now, state := .opened }
    else { breaker with failures }
  | .opened => breaker

theorem allow_allow (breaker : Breaker) (now : Int) :
    (breaker.allow now).2.allow now = breaker.allow now := by
  obtain ⟨state, failures, threshold, cooldown, openedAt⟩ := breaker
  cases state with
  | closed | halfOpen => rfl
  | opened =>
    by_cases elapsed : cooldown ≤ Time.sub now openedAt
    · simp only [allow, if_pos elapsed]
    · simp only [allow, if_neg elapsed]

end Breaker

end ClusterRouter.Router
