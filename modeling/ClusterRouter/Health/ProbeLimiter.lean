import ClusterRouter.Foundation.Time
import ClusterRouter.Foundation.TokenBucket

/-! `internal/health/liveprobe.go`: the one bucket that all callers of the forced probe share.
Tokens are exact rationals here. The clock may step back. -/

set_option autoImplicit false

namespace ClusterRouter.Health

open Foundation

structure ProbeLimiter where
  interval : Int
  burst : Int
  tokens : ℚ
  last : Int
  deriving DecidableEq, Repr

def defaultLiveProbeInterval : Int := 10 * Duration.second

def defaultLiveProbeBurst : Int := 3

namespace ProbeLimiter

/-- `NewProbeLimiterWithClock`; the clock is read once. -/
def new (interval burst now : Int) : ProbeLimiter :=
  let interval := if interval ≤ 0 then defaultLiveProbeInterval else interval
  let burst := if burst ≤ 0 then defaultLiveProbeBurst else burst
  ⟨interval, burst, burst, now⟩

def refill (l : ProbeLimiter) (now : Int) : ProbeLimiter :=
  let elapsed := Time.sub now l.last
  if 0 < elapsed then
    { l with tokens := min (l.tokens + elapsed / l.interval) l.burst, last := now }
  else l

/-- A nil limiter answers false. -/
def allow (handle : Option ProbeLimiter) (now : Int) : Bool × Option ProbeLimiter :=
  match handle with
  | none => (false, none)
  | some l =>
    let l := l.refill now
    if l.tokens < 1 then (false, some l) else (true, some { l with tokens := l.tokens - 1 })

/-- Calls at readings of the clock, each with its answer, and what they leave. -/
def allowAll (handle : Option ProbeLimiter) : List Int → List (Int × Bool) × Option ProbeLimiter
  | [] => ([], handle)
  | now :: rest =>
    let (admitted, next) := allow handle now
    let (answers, final) := allowAll next rest
    ((now, admitted) :: answers, final)

/-! ## The limiter as a bucket -/

def level (l : ProbeLimiter) : TokenBucket.Level := ⟨l.tokens, l.last⟩

structure Valid (l : ProbeLimiter) : Prop where
  interval : 0 < l.interval
  burst : 0 < l.burst
  capped : l.tokens ≤ l.burst

theorem valid_new (interval burst now : Int) : (new interval burst now).Valid := by
  refine ⟨?_, ?_, le_rfl⟩
  · show 0 < if interval ≤ 0 then defaultLiveProbeInterval else interval
    split
    · decide
    · omega
  · show 0 < if burst ≤ 0 then defaultLiveProbeBurst else burst
    split
    · decide
    · omega

section

variable {l : ProbeLimiter}

theorem elapsed_pos_iff (later earlier : Int) : 0 < Time.sub later earlier ↔ earlier < later := by
  simp only [Time.sub, Duration.maximum, Duration.minimum]
  omega

theorem refill_spec (valid : l.Valid) (now : Int) :
    (l.refill now).interval = l.interval ∧ (l.refill now).burst = l.burst ∧
      (l.refill now).last = max l.last now ∧ (l.refill now).tokens ≤ l.burst ∧
      (l.refill now).tokens ≤ l.tokens + 1 / l.interval * ((max l.last now : Int) - l.last) := by
  have positive : (0 : ℚ) < l.interval := by exact_mod_cast valid.interval
  simp only [refill]
  split
  next passed =>
    have later := (elapsed_pos_iff now l.last).mp passed
    have short : (Time.sub now l.last : ℚ) ≤ now - l.last := by
      exact_mod_cast Time.sub_le later.le
    refine ⟨rfl, rfl, (max_eq_right later.le).symm, min_le_right _ _, ?_⟩
    rw [max_eq_right later.le]
    have arrived : (Time.sub now l.last : ℚ) / l.interval ≤ 1 / l.interval * (now - l.last) := by
      rw [one_div_mul_eq_div]
      exact div_le_div_of_nonneg_right short positive.le
    exact (min_le_left _ _).trans (by linarith)
  next still =>
    have earlier : now ≤ l.last := not_lt.mp fun later => still ((elapsed_pos_iff now l.last).mpr later)
    refine ⟨rfl, rfl, (max_eq_left earlier).symm, valid.capped, ?_⟩
    rw [max_eq_left earlier]
    simp

theorem allow_draws (valid : l.Valid) (now : Int) :
    ∃ after, (allow (some l) now).2 = some after ∧ after.Valid ∧ after.interval = l.interval ∧
      after.burst = l.burst ∧
      TokenBucket.Draws l.burst (1 / l.interval) l.level now (allow (some l) now).1 after.level := by
  obtain ⟨interval, burst, last, capped, refills⟩ := refill_spec valid now
  have cast : ((max l.last now : Int) : ℚ) = max (l.last : ℚ) now := by push_cast; rfl
  rw [cast] at refills
  have dated : ((l.refill now).last : ℚ) = max (l.last : ℚ) now := by rw [last, cast]
  simp only [allow]
  split
  · refine ⟨_, rfl, ⟨interval ▸ valid.interval, burst ▸ valid.burst, ?_⟩, interval, burst, ?_⟩
    · rw [burst]
      exact capped
    · exact ⟨dated, by simpa [level] using refills, fun _ => by simpa [level] using capped,
        fun admitted => absurd admitted Bool.false_ne_true⟩
  next enough =>
    refine ⟨_, rfl, ⟨interval ▸ valid.interval, burst ▸ valid.burst, ?_⟩, interval, burst, ?_⟩
    · show (l.refill now).tokens - 1 ≤ (l.refill now).burst
      rw [burst]
      linarith
    · exact ⟨dated, by simpa [level] using refills, fun _ => by simpa [level] using capped,
        fun _ => by simpa [level] using enough⟩

theorem allowAll_drawn (valid : l.Valid) (readings : List Int) :
    ∃ after, (allowAll (some l) readings).2 = some after ∧ after.Valid ∧
      after.interval = l.interval ∧ after.burst = l.burst ∧
      TokenBucket.Drawn l.burst (1 / l.interval) l.level
        ((allowAll (some l) readings).1.map (fun answer => ((answer.1 : ℚ), answer.2))) after.level := by
  induction readings generalizing l with
  | nil => exact ⟨l, rfl, valid, rfl, rfl, .nil _⟩
  | cons now rest ih =>
    obtain ⟨middle, isMiddle, middleValid, interval, burst, draws⟩ := allow_draws valid now
    obtain ⟨after, isAfter, afterValid, intervalAfter, burstAfter, drawn⟩ := ih middleValid
    rw [← isMiddle] at isAfter drawn
    rw [interval, burst] at drawn
    exact ⟨after, isAfter, afterValid, intervalAfter.trans interval, burstAfter.trans burst,
      .cons draws drawn⟩

end

theorem readings_allowAll (handle : Option ProbeLimiter) (readings : List Int) :
    (allowAll handle readings).1.map Prod.fst = readings := by
  induction readings generalizing handle with
  | nil => rfl
  | cons now rest ih => exact congrArg (now :: ·) (ih (allow handle now).2)

def answers (handle : Option ProbeLimiter) (before window : List Int) : List (Int × Bool) :=
  (allowAll (allowAll handle before).2 window).1

/-- Calls in a row whose readings lie within a span are allowed at most as often as the
burst and the intervals of the span say, whatever the clock does in between. -/
theorem forced_probes_limited (interval burst start : Int) (before window : List Int) {lo hi : ℚ}
    (span : lo ≤ hi) (within : ∀ reading ∈ window, lo ≤ (reading : ℚ) ∧ (reading : ℚ) ≤ hi) :
    ((answers (some (new interval burst start)) before window).countP Prod.snd : ℚ) ≤
      (new interval burst start).burst + (hi - lo) / (new interval burst start).interval := by
  obtain ⟨middle, isMiddle, valid, sameInterval, sameBurst, _⟩ :=
    allowAll_drawn (valid_new interval burst start) before
  obtain ⟨_, _, _, _, _, drawn⟩ := allowAll_drawn valid window
  have inside : ∀ call ∈ (allowAll (some middle) window).1.map
      (fun answer => ((answer.1 : ℚ), answer.2)), lo ≤ call.1 ∧ call.1 ≤ hi := by
    intro call member
    obtain ⟨answer, among, rfl⟩ := List.mem_map.mp member
    refine within answer.1 ?_
    rw [← readings_allowAll (some middle) window]
    exact List.mem_map_of_mem among
  have bound := drawn.admissions_le valid.capped (by exact_mod_cast valid.burst.le)
    (one_div_nonneg.mpr (by exact_mod_cast valid.interval.le)) span inside
  rw [TokenBucket.admissions, List.countP_map, one_div_mul_eq_div, sameInterval, sameBurst] at bound
  rw [answers, isMiddle]
  exact bound

/-- The clock steps back after the bucket has been emptied. -/
theorem forced_probes_limited_backwards :
    (answers (some (new 10 2 0)) [] [5, 5, 3, 25]).map Prod.snd = [true, true, false, true] ∧
      ((answers (some (new 10 2 0)) [] [5, 5, 3, 25]).countP Prod.snd : ℚ) ≤ 2 + (25 - 3) / 10 := by
  refine ⟨by decide +kernel, ?_⟩
  exact forced_probes_limited 10 2 0 [] [5, 5, 3, 25] (by norm_num) (by simp; norm_num)

end ProbeLimiter

end ClusterRouter.Health
