import ClusterRouter.Foundation.Machine
import ClusterRouter.Router.Breaker

/-! Any number of requests ask a breaker and report to it (`internal/circuit/breaker.go`).
Nothing ties a result to its call, so a late success closes a breaker that others have opened.
-/

set_option autoImplicit false

namespace ClusterRouter.Router

open Foundation

inductive BreakerCall where
  | allow
  | recordSuccess
  | recordFailure
  deriving DecidableEq, Repr

structure TimedCall where
  call : BreakerCall
  now : Int
  deriving DecidableEq, Repr

structure TimedBreaker where
  breaker : Breaker
  clock : Int
  deriving DecidableEq, Repr

inductive BreakerNote where
  | opened (instant : Int)
  | admitted (instant : Int)
  deriving DecidableEq, Repr

namespace Breaker

def answer (breaker : Breaker) (timed : TimedCall) : Breaker :=
  match timed.call with
  | .allow => (breaker.allow timed.now).2
  | .recordSuccess => breaker.recordSuccess
  | .recordFailure => breaker.recordFailure timed.now

def notes (breaker : Breaker) (timed : TimedCall) : List BreakerNote :=
  match timed.call with
  | .allow => if (breaker.allow timed.now).1 then [.admitted timed.now] else []
  | .recordSuccess => []
  | .recordFailure =>
    if breaker.state ≠ .opened ∧ (breaker.recordFailure timed.now).state = .opened then
      [.opened timed.now]
    else []

end Breaker

/-- The calls on one breaker, in the order in which they get its lock. -/
def breakerMachine : Machine TimedBreaker TimedCall where
  step timed call :=
    if timed.clock ≤ call.now then some ⟨timed.breaker.answer call, call.now⟩ else none

/-- No call is let through within the cooldown of an opening before it. -/
def HoldsCooldown (cooldown : Int) (notes : List BreakerNote) : Prop :=
  notes.Pairwise (fun earlier later => ∀ opened admitted, earlier = .opened opened →
    later = .admitted admitted → opened + cooldown ≤ admitted)

def successAfterCooldown (timed : TimedBreaker) (call : TimedCall) : Bool :=
  decide (call.call ≠ .recordSuccess ∨ timed.breaker.state ≠ .opened ∨
    timed.breaker.openedAt + timed.breaker.cooldown ≤ call.now)

/-! ## What a call does -/

namespace Breaker

theorem answer_cooldown (breaker : Breaker) (timed : TimedCall) :
    (breaker.answer timed).cooldown = breaker.cooldown := by
  obtain ⟨call, now⟩ := timed
  cases call with
  | allow =>
    simp only [answer, allow]
    split
    · rfl
    · split <;> rfl
    · rfl
  | recordSuccess => rfl
  | recordFailure =>
    simp only [answer, recordFailure]
    split
    · rfl
    · split <;> rfl
    · rfl

variable {breaker : Breaker} {now : Int}

theorem cooldown_le_of_allow (isOpen : breaker.state = .opened) (before : breaker.openedAt ≤ now)
    (admitted : (breaker.allow now).1 = true) :
    breaker.openedAt + breaker.cooldown ≤ now := by
  unfold allow at admitted
  rw [isOpen] at admitted
  dsimp only at admitted
  split at admitted
  next elapsed =>
    have bound := Time.sub_le before
    omega
  next => cases admitted

theorem allow_refused (refused : (breaker.allow now).1 = false) :
    (breaker.allow now).2 = breaker := by
  unfold allow at refused ⊢
  split at refused
  · cases refused
  · split at refused
    · cases refused
    next early =>
      simp only [if_neg early]
  · cases refused

theorem allow_admitted (admitted : (breaker.allow now).1 = true) :
    (breaker.allow now).2.state ≠ .opened := by
  unfold allow at admitted ⊢
  split at admitted
  next closed => simp [closed]
  next =>
    split at admitted
    next elapsed => simp [elapsed]
    next => cases admitted
  next halfOpen => simp [halfOpen]

theorem recordFailure_cases (breaker : Breaker) (now : Int) :
    (breaker.state = .opened ∧ breaker.recordFailure now = breaker) ∨
      (breaker.state ≠ .opened ∧ (breaker.recordFailure now).state = .opened ∧
        (breaker.recordFailure now).openedAt = now) ∨
      (breaker.state ≠ .opened ∧ (breaker.recordFailure now).state ≠ .opened) := by
  obtain ⟨state, failures, threshold, cooldown, openedAt⟩ := breaker
  cases state with
  | opened => exact .inl ⟨rfl, rfl⟩
  | halfOpen => exact .inr (.inl ⟨by simp, rfl, rfl⟩)
  | closed =>
    simp only [recordFailure]
    split
    · exact .inr (.inl ⟨by simp, rfl, rfl⟩)
    · exact .inr (.inr ⟨by simp, by simp⟩)

end Breaker

/-! ## Every run -/

/-- Every opening so far is either behind its cooldown or no later than the one in
force. -/
structure Cooling (cooldown : Int) (timed : TimedBreaker) (notes : List BreakerNote) : Prop where
  positive : 0 < cooldown
  fixed : timed.breaker.cooldown = cooldown
  holds : HoldsCooldown cooldown notes
  shut : timed.breaker.state ≠ .opened → ∀ instant, .opened instant ∈ notes →
    instant + cooldown ≤ timed.clock
  opened : timed.breaker.state = .opened → timed.breaker.openedAt ≤ timed.clock ∧
    ∀ instant, .opened instant ∈ notes → instant ≤ timed.breaker.openedAt

namespace Cooling

variable {cooldown : Int} {timed : TimedBreaker} {notes : List BreakerNote} {now : Int}

section

variable (cooling : Cooling cooldown timed notes)

include cooling

theorem elapsed (later : timed.clock ≤ now) (admitted : (timed.breaker.allow now).1 = true) :
    ∀ instant, .opened instant ∈ notes → instant + cooldown ≤ now := by
  intro instant member
  by_cases isOpen : timed.breaker.state = .opened
  · obtain ⟨before, last⟩ := cooling.opened isOpen
    have elapsed := Breaker.cooldown_le_of_allow isOpen (Int.le_trans before later) admitted
    rw [cooling.fixed] at elapsed
    have earlier := last instant member
    omega
  · exact Int.le_trans (cooling.shut isOpen instant member) later

theorem holds_admitted (later : timed.clock ≤ now) (admitted : (timed.breaker.allow now).1 = true) :
    HoldsCooldown cooldown (notes ++ [.admitted now]) := by
  refine List.pairwise_append.mpr ⟨cooling.holds, List.pairwise_singleton _ _, ?_⟩
  rintro earlier member last isLast opened instant rfl rfl
  cases List.mem_singleton.mp isLast
  exact cooling.elapsed later admitted opened member

theorem allow (later : timed.clock ≤ now) :
    Cooling cooldown ⟨timed.breaker.answer ⟨.allow, now⟩, now⟩
      (notes ++ timed.breaker.notes ⟨.allow, now⟩) := by
  have fixed := (timed.breaker.answer_cooldown ⟨.allow, now⟩).trans cooling.fixed
  cases admitted : (timed.breaker.allow now).1 with
  | true =>
    have shut := Breaker.allow_admitted admitted
    simp only [Breaker.notes, admitted, if_true]
    refine ⟨cooling.positive, fixed, cooling.holds_admitted later admitted, ?_, fun isOpen => absurd isOpen shut⟩
    intro _ instant member
    refine cooling.elapsed later admitted instant ?_
    simpa using member
  | false =>
    simp only [Breaker.notes, admitted, Bool.false_eq_true, if_false, List.append_nil]
    simp only [Breaker.answer, Breaker.allow_refused admitted]
    refine ⟨cooling.positive, cooling.fixed, cooling.holds, ?_, ?_⟩
    · intro notOpen instant member
      exact Int.le_trans (cooling.shut notOpen instant member) later
    · intro isOpen
      obtain ⟨before, last⟩ := cooling.opened isOpen
      exact ⟨Int.le_trans before later, last⟩

theorem recordSuccess (later : timed.clock ≤ now)
    (met : successAfterCooldown timed ⟨.recordSuccess, now⟩ = true) :
    Cooling cooldown ⟨timed.breaker.answer ⟨.recordSuccess, now⟩, now⟩
      (notes ++ timed.breaker.notes ⟨.recordSuccess, now⟩) := by
  simp only [Breaker.notes, List.append_nil]
  refine ⟨cooling.positive, cooling.fixed, cooling.holds, ?_, fun isOpen => by cases isOpen⟩
  intro _ instant member
  by_cases isOpen : timed.breaker.state = .opened
  · obtain ⟨before, last⟩ := cooling.opened isOpen
    have elapsed : timed.breaker.openedAt + timed.breaker.cooldown ≤ now := by
      simpa [successAfterCooldown, isOpen] using met
    rw [cooling.fixed] at elapsed
    have earlier := last instant member
    dsimp only
    omega
  · exact Int.le_trans (cooling.shut isOpen instant member) later

theorem recordFailure (later : timed.clock ≤ now) :
    Cooling cooldown ⟨timed.breaker.answer ⟨.recordFailure, now⟩, now⟩
      (notes ++ timed.breaker.notes ⟨.recordFailure, now⟩) := by
  have fixed := (timed.breaker.answer_cooldown ⟨.recordFailure, now⟩).trans cooling.fixed
  simp only [Breaker.answer, Breaker.notes] at fixed ⊢
  rcases timed.breaker.recordFailure_cases now with ⟨isOpen, same⟩ | ⟨notOpen, opens, openedAt⟩ |
      ⟨notOpen, shut⟩
  · obtain ⟨before, last⟩ := cooling.opened isOpen
    rw [same, if_neg (by simp [isOpen]), List.append_nil]
    exact ⟨cooling.positive, cooling.fixed, cooling.holds, fun notOpen => absurd isOpen notOpen,
      fun _ => ⟨Int.le_trans before later, last⟩⟩
  · rw [if_pos ⟨notOpen, opens⟩]
    refine ⟨cooling.positive, fixed, ?_, fun notOpen => absurd opens notOpen, fun _ => ?_⟩
    · refine List.pairwise_append.mpr ⟨cooling.holds, List.pairwise_singleton _ _, ?_⟩
      rintro earlier member last isLast opened instant rfl rfl
      cases List.mem_singleton.mp isLast
    · refine ⟨Int.le_of_eq openedAt, fun instant member => ?_⟩
      rw [openedAt]
      rcases List.mem_append.mp member with earlier | latest
      · have behind := cooling.shut notOpen instant earlier
        have positive := cooling.positive
        omega
      · cases List.mem_singleton.mp latest
        exact Int.le_refl _
  · rw [if_neg (fun opens => shut opens.2), List.append_nil]
    refine ⟨cooling.positive, fixed, cooling.holds, ?_, fun isOpen => absurd isOpen shut⟩
    intro _ instant member
    exact Int.le_trans (cooling.shut notOpen instant member) later

end

theorem step {next : TimedBreaker} {call : TimedCall}
    (met : successAfterCooldown timed call = true) (stepped : breakerMachine.step timed call = some next)
    (cooling : Cooling cooldown timed notes) :
    Cooling cooldown next (notes ++ timed.breaker.notes call) := by
  obtain ⟨call, now⟩ := call
  simp only [breakerMachine] at stepped
  split at stepped
  next later =>
    cases stepped
    cases call with
    | allow => exact cooling.allow later
    | recordSuccess => exact cooling.recordSuccess later met
    | recordFailure => exact cooling.recordFailure later
  next => cases stepped

end Cooling

theorem Breaker.new_cooldown_pos (threshold cooldown : Int) :
    0 < (Breaker.new threshold cooldown).cooldown := by
  simp only [Breaker.new, Duration.second]
  split <;> omega

def breakerRun (breaker : Breaker) (clock : Int) (trace : List TimedCall) :
    Option (TimedBreaker × List BreakerNote) :=
  (breakerMachine.recording (fun timed => timed.breaker.notes)).run (⟨breaker, clock⟩, []) trace

/-- However the calls on a breaker are interleaved, once it opens it lets nothing through
before its cooldown is over, if no success finds it open within its cooldown. -/
theorem opened_breaker_holds_cooldown {threshold cooldown clock : Int} {trace : List TimedCall}
    {final : TimedBreaker} {notes : List BreakerNote}
    (met : breakerMachine.Meets (fun timed call => successAfterCooldown timed call = true)
      ⟨.new threshold cooldown, clock⟩ trace)
    (ran : breakerRun (.new threshold cooldown) clock trace = some (final, notes)) :
    HoldsCooldown (Breaker.new threshold cooldown).cooldown notes := by
  have start : Cooling (Breaker.new threshold cooldown).cooldown
      ⟨.new threshold cooldown, clock⟩ [] := by
    refine ⟨Breaker.new_cooldown_pos threshold cooldown, rfl, List.Pairwise.nil, ?_, ?_⟩
    · intro _ instant member
      cases member
    · intro isOpen
      cases isOpen
  have final := breakerMachine.recording_invariant_of_meets (fun timed => timed.breaker.notes)
    (Cooling (Breaker.new threshold cooldown).cooldown)
    (fun _ _ _ _ met stepped cooling => cooling.step met stepped) met ran start
  exact final.holds

/-- Two calls are let through; the second fails and opens the breaker, the first then
succeeds. -/
def lateSuccess : List TimedCall :=
  [⟨.allow, 0⟩, ⟨.allow, 1⟩, ⟨.recordFailure, 2⟩, ⟨.recordSuccess, 3⟩, ⟨.allow, 4⟩]

/-- The cooldown passes, and the probe behind it closes the breaker. -/
def probedRecovery : List TimedCall :=
  [⟨.allow, 0⟩, ⟨.recordFailure, 2⟩, ⟨.allow, 7⟩, ⟨.allow, 12⟩, ⟨.recordSuccess, 13⟩, ⟨.allow, 14⟩]

theorem opened_breaker_holds_cooldown_probed :
    ∃ final, breakerRun (.new 1 10) 0 probedRecovery =
        some (final, [.admitted 0, .opened 2, .admitted 12, .admitted 14]) ∧
      HoldsCooldown 10 [.admitted 0, .opened 2, .admitted 12, .admitted 14] := by
  have met : breakerMachine.Meets (fun timed call => successAfterCooldown timed call = true)
      ⟨.new 1 10, 0⟩ probedRecovery := by decide +kernel
  have ran : breakerRun (.new 1 10) 0 probedRecovery =
      some (⟨⟨.closed, 0, 1, 10, 2⟩, 14⟩, [.admitted 0, .opened 2, .admitted 12, .admitted 14]) := by
    decide +kernel
  exact ⟨_, ran, opened_breaker_holds_cooldown met ran⟩

/-- The success of a call that was let through before the breaker opened closes it, and
the next call goes through within the cooldown. -/
theorem late_success_ends_cooldown :
    ∃ final, breakerRun (.new 1 10) 0 lateSuccess =
        some (final, [.admitted 0, .admitted 1, .opened 2, .admitted 4]) ∧
      ¬ HoldsCooldown 10 [.admitted 0, .admitted 1, .opened 2, .admitted 4] := by
  have ran : breakerRun (.new 1 10) 0 lateSuccess =
      some (⟨⟨.closed, 0, 1, 10, 2⟩, 4⟩, [.admitted 0, .admitted 1, .opened 2, .admitted 4]) := by
    decide +kernel
  refine ⟨_, ran, fun holds => ?_⟩
  have early := List.pairwise_iff_getElem.mp holds 2 3 (by decide) (by decide) (by decide) 2 4 rfl rfl
  omega

end ClusterRouter.Router
