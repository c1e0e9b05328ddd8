import Mathlib

/-! `time.Time` and `time.Duration` are counts of nanoseconds. An instant is read on the
monotonic clock; the zero `time.Time` lies before every reading and is `none` wherever the
source stores one. -/

set_option autoImplicit false

namespace ClusterRouter.Foundation

namespace Duration

def second : Int := 1000000000

def minute : Int := 60 * second

def hour : Int := 60 * minute

def maximum : Int := 2 ^ 63 - 1

def minimum : Int := -(2 ^ 63)

end Duration

namespace Time

/-- `Time.Sub`: the difference, saturated at the ends of the duration range. -/
def sub (later earlier : Int) : Int :=
  max Duration.minimum (min Duration.maximum (later - earlier))

def deadlineAfter (deadline : Option Int) (now : Int) : Bool :=
  match deadline with
  | none => false
  | some instant => decide (now < instant)

/-- `t.After(deadline)`: every instant is after the zero time. -/
def afterDeadline (t : Int) : Option Int → Bool
  | none => true
  | some deadline => decide (deadline < t)

variable {later earlier : Int}

theorem sub_nonneg (ordered : earlier ≤ later) : 0 ≤ sub later earlier := by
  simp only [sub, Duration.maximum, Duration.minimum]
  omega

theorem sub_le (ordered : earlier ≤ later) :
    sub later earlier ≤ later - earlier := by
  simp only [sub, Duration.maximum, Duration.minimum]
  omega

theorem sub_eq (ordered : earlier ≤ later) (representable : later - earlier ≤ Duration.maximum) :
    sub later earlier = later - earlier := by
  simp only [sub, Duration.maximum, Duration.minimum] at *
  omega

/-- The readings of a clock that never goes back. A monotonic reading is an `int64`
count of nanoseconds, so a duration holds the time between any two of them. -/
structure MonotonicClock (start : Int) (readings : List Int) : Prop where
  ordered : (start :: readings).Pairwise (· ≤ ·)
  representable : ∀ reading ∈ readings, reading - start ≤ Duration.maximum

end Time

end ClusterRouter.Foundation
