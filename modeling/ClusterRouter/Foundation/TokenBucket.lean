import Mathlib

/-! A bucket refills with time up to a capacity, and an admitted call takes one token. Only what
a call leaves at most is assumed, so buckets that round down or refill late and clocks that step
back are covered. -/

set_option autoImplicit false

namespace ClusterRouter.Foundation.TokenBucket

/-- What a bucket holds, and the reading up to which it has been refilled. -/
structure Level where
  tokens : ℚ
  last : ℚ

/-- A call at a reading: tokens arrive at a rate, the bucket never holds more than its
capacity, and a call is admitted only where a token is left for it. -/
structure Draws (capacity rate : ℚ) (before : Level) (now : ℚ) (admitted : Bool) (after : Level) :
    Prop where
  advances : after.last = max before.last now
  refills : after.tokens + (if admitted then 1 else 0) ≤
    before.tokens + rate * (max before.last now - before.last)
  capped : before.tokens ≤ capacity → after.tokens + (if admitted then 1 else 0) ≤ capacity
  paid : admitted = true → 0 ≤ after.tokens

/-- Between calls a bucket is refilled, or another one with no more in it takes its place. -/
structure Yields (capacity rate : ℚ) (before after : Level) : Prop where
  advances : before.last ≤ after.last
  refills : after.tokens ≤ before.tokens + rate * (after.last - before.last)
  capped : after.tokens ≤ capacity

/-- Calls one after the other, each with its reading and whether it was admitted. -/
inductive Drawn (capacity rate : ℚ) : Level → List (ℚ × Bool) → Level → Prop where
  | nil (level : Level) : Drawn capacity rate level [] level
  | cons {before middle after : Level} {now : ℚ} {admitted : Bool} {rest : List (ℚ × Bool)} :
      Draws capacity rate before now admitted middle → Drawn capacity rate middle rest after →
      Drawn capacity rate before ((now, admitted) :: rest) after

namespace Yields

variable {capacity rate : ℚ} {before middle after : Level}

theorem refl (capped : before.tokens ≤ capacity) : Yields capacity rate before before :=
  ⟨le_rfl, by simp, capped⟩

theorem draws {now : ℚ} {admitted : Bool} (yields : Yields capacity rate before middle)
    (draws : Draws capacity rate middle now admitted after) (later : middle.last ≤ now) :
    Draws capacity rate before now admitted after := by
  have refilled := yields.refills
  have drawn := draws.refills
  have latest := yields.advances.trans later
  refine ⟨?_, ?_, fun _ => draws.capped yields.capped, draws.paid⟩
  · rw [draws.advances, max_eq_right later, max_eq_right latest]
  · rw [max_eq_right later] at drawn
    rw [max_eq_right latest, show now - before.last = middle.last - before.last + (now - middle.last) by
      ring, mul_add]
    linarith

end Yields

def admissions (calls : List (ℚ × Bool)) : Nat := calls.countP Prod.snd

theorem admissions_cons (now : ℚ) (admitted : Bool) (rest : List (ℚ × Bool)) :
    (admissions ((now, admitted) :: rest) : ℚ) = (if admitted then 1 else 0) + admissions rest := by
  cases admitted with
  | true => simp [admissions, add_comm]
  | false => simp [admissions]

section

variable {capacity rate : ℚ} {before after : Level} {calls : List (ℚ × Bool)}

theorem Drawn.append {middle : Level} {more : List (ℚ × Bool)}
    (first : Drawn capacity rate before calls middle) (second : Drawn capacity rate middle more after) :
    Drawn capacity rate before (calls ++ more) after := by
  induction first with
  | nil level => exact second
  | cons draws _ ih => exact .cons draws (ih second)

theorem Drawn.exists_of_append {first second : List (ℚ × Bool)}
    (drawn : Drawn capacity rate before (first ++ second) after) :
    ∃ middle, Drawn capacity rate before first middle ∧ Drawn capacity rate middle second after := by
  generalize whole : first ++ second = calls at drawn
  induction drawn generalizing first with
  | nil level =>
    obtain ⟨rfl, rfl⟩ := List.append_eq_nil_iff.mp whole
    exact ⟨level, .nil _, .nil _⟩
  | cons draws drawn ih =>
    cases first with
    | nil =>
      cases whole
      exact ⟨_, .nil _, .cons draws drawn⟩
    | cons call first =>
      obtain ⟨rfl, remaining⟩ := List.cons.inj whole
      obtain ⟨middle, front, back⟩ := ih remaining
      exact ⟨middle, .cons draws front, back⟩

theorem Drawn.capped (drawn : Drawn capacity rate before calls after)
    (start : before.tokens ≤ capacity) : after.tokens ≤ capacity := by
  induction drawn with
  | nil level => exact start
  | @cons before middle after now admitted rest draws _ ih =>
    apply ih
    have left := draws.capped start
    split at left
    · linarith
    · linarith

/-- What can still be admitted up to a reading: the tokens in the bucket and those that
arrive until then. -/
def Level.reserve (rate deadline : ℚ) (level : Level) : ℚ :=
  level.tokens + rate * max 0 (deadline - level.last)

theorem Draws.reserve_le {middle : Level} {now deadline : ℚ} {admitted : Bool}
    (draws : Draws capacity rate before now admitted middle) (nonneg : 0 ≤ rate)
    (early : now ≤ deadline) :
    (if admitted then 1 else 0) + middle.reserve rate deadline ≤ before.reserve rate deadline := by
  have refills := draws.refills
  have arrived : max before.last now - before.last + max 0 (deadline - max before.last now) ≤
      max 0 (deadline - before.last) := by
    rcases le_total before.last now with later | earlier
    · rw [max_eq_right later, max_eq_right (by linarith), max_eq_right (by linarith)]
      linarith
    · rw [max_eq_left earlier, sub_self, zero_add]
  have scaled := mul_le_mul_of_nonneg_left arrived nonneg
  unfold Level.reserve
  rw [draws.advances]
  rw [mul_add] at scaled
  linarith

theorem Drawn.admissions_le_reserve (drawn : Drawn capacity rate before calls after)
    (nonneg : 0 ≤ rate) {deadline : ℚ} (early : ∀ call ∈ calls, call.1 ≤ deadline) :
    (admissions calls : ℚ) ≤ max 0 (before.reserve rate deadline) := by
  induction drawn with
  | nil level => simp [admissions]
  | @cons before middle after now admitted rest draws drawn ih =>
    have later := ih fun call member => early call (List.mem_cons_of_mem _ member)
    have taken := draws.reserve_le nonneg (early _ List.mem_cons_self)
    rw [admissions_cons]
    cases admitted with
    | false =>
      simp only [Bool.false_eq_true, if_false, zero_add] at taken ⊢
      exact later.trans (max_le_max le_rfl taken)
    | true =>
      -- The token was there, so what is left is not negative.
      have left : 0 ≤ middle.reserve rate deadline :=
        add_nonneg (draws.paid rfl) (mul_nonneg nonneg (le_max_left _ _))
      simp only [if_true] at taken ⊢
      rw [max_eq_right left] at later
      exact (add_le_add_right later 1).trans (taken.trans (le_max_right _ _))

/-- Calls whose readings lie within a span are admitted at most as often as the bucket has
capacity and tokens arrive in the span. -/
theorem Drawn.admissions_le (drawn : Drawn capacity rate before calls after)
    (start : before.tokens ≤ capacity) (room : 0 ≤ capacity) (nonneg : 0 ≤ rate) {lo hi : ℚ}
    (span : lo ≤ hi) (within : ∀ call ∈ calls, lo ≤ call.1 ∧ call.1 ≤ hi) :
    (admissions calls : ℚ) ≤ capacity + rate * (hi - lo) := by
  have arriving : 0 ≤ rate * (hi - lo) := mul_nonneg nonneg (by linarith)
  cases drawn with
  | nil => simpa [admissions] using add_nonneg room arriving
  | @cons _ middle _ now admitted rest draws drawn =>
    have later := drawn.admissions_le_reserve nonneg
      fun call member => (within call (List.mem_cons_of_mem _ member)).2
    have left := draws.capped start
    -- The first call has brought the bucket up to a reading within the span.
    have reached : lo ≤ middle.last := by
      rw [draws.advances]
      exact (within _ List.mem_cons_self).1.trans (le_max_right _ _)
    have refilled : rate * max 0 (hi - middle.last) ≤ rate * (hi - lo) :=
      mul_le_mul_of_nonneg_left (max_le (by linarith) (by linarith)) nonneg
    have reserve : middle.reserve rate hi ≤ middle.tokens + rate * (hi - lo) := by
      unfold Level.reserve
      linarith
    rw [admissions_cons]
    cases admitted with
    | false =>
      simp only [Bool.false_eq_true, if_false, zero_add, add_zero] at left ⊢
      exact later.trans (max_le (add_nonneg room arriving) (by linarith))
    | true =>
      have paid := draws.paid rfl
      simp only [if_true] at left ⊢
      have bounded : max 0 (middle.reserve rate hi) ≤ middle.tokens + rate * (hi - lo) :=
        max_le (by linarith) reserve
      linarith

/-! ## Clocks that never go back -/

theorem exists_up_to (hi : ℚ) (ordered : (calls.map Prod.fst).Pairwise (· ≤ ·)) :
    ∃ back, calls = calls.filter (fun call => decide (call.1 ≤ hi)) ++ back := by
  induction calls with
  | nil => exact ⟨[], rfl⟩
  | cons first rest ih =>
    rw [List.map_cons, List.pairwise_cons] at ordered
    by_cases early : first.1 ≤ hi
    · obtain ⟨back, isBack⟩ := ih ordered.2
      refine ⟨back, ?_⟩
      rw [List.filter_cons_of_pos (by simpa using early), List.cons_append, ← isBack]
    · refine ⟨first :: rest, ?_⟩
      have tooLate : (first :: rest).filter (fun call => decide (call.1 ≤ hi)) = [] := by
        refine List.filter_eq_nil_iff.mpr fun call member => ?_
        rw [decide_eq_true_eq]
        rcases List.mem_cons.mp member with rfl | among
        · exact early
        · exact fun before => early ((ordered.1 _ (List.mem_map_of_mem among)).trans before)
      rw [tooLate, List.nil_append]

theorem exists_between (lo hi : ℚ) (ordered : (calls.map Prod.fst).Pairwise (· ≤ ·)) :
    ∃ front back, calls =
      front ++ (calls.filter (fun call => decide (lo ≤ call.1 ∧ call.1 ≤ hi)) ++ back) := by
  induction calls with
  | nil => exact ⟨[], [], rfl⟩
  | cons first rest ih =>
    by_cases early : first.1 < lo
    · rw [List.map_cons, List.pairwise_cons] at ordered
      obtain ⟨front, back, isWhole⟩ := ih ordered.2
      refine ⟨first :: front, back, ?_⟩
      rw [List.filter_cons_of_neg (by simp [early]), List.cons_append, ← isWhole]
    · obtain ⟨back, isWhole⟩ := exists_up_to hi ordered
      refine ⟨[], back, ?_⟩
      have same : (first :: rest).filter (fun call => decide (lo ≤ call.1 ∧ call.1 ≤ hi)) =
          (first :: rest).filter (fun call => decide (call.1 ≤ hi)) := by
        refine List.filter_congr fun call member => ?_
        rw [List.map_cons, List.pairwise_cons] at ordered
        have late : lo ≤ call.1 := by
          rcases List.mem_cons.mp member with rfl | among
          · exact not_lt.mp early
          · exact (not_lt.mp early).trans (ordered.1 _ (List.mem_map_of_mem among))
        simp [late]
      rw [same, List.nil_append, ← isWhole]

theorem Drawn.admissions_between_le (drawn : Drawn capacity rate before calls after)
    (start : before.tokens ≤ capacity) (room : 0 ≤ capacity) (nonneg : 0 ≤ rate)
    (ordered : (calls.map Prod.fst).Pairwise (· ≤ ·)) {lo hi : ℚ} (span : lo ≤ hi) :
    (admissions (calls.filter (fun call => decide (lo ≤ call.1 ∧ call.1 ≤ hi))) : ℚ) ≤
      capacity + rate * (hi - lo) := by
  obtain ⟨front, back, whole⟩ := exists_between lo hi ordered
  rw [whole] at drawn
  obtain ⟨middle, earlier, drawn⟩ := drawn.exists_of_append
  obtain ⟨_, within, _⟩ := drawn.exists_of_append
  refine within.admissions_le (earlier.capped start) room nonneg span fun call member => ?_
  simpa using (List.mem_filter.mp member).2

end

end ClusterRouter.Foundation.TokenBucket
