import Mathlib

/-! Signed 64-bit wrap-around and the binary64 operations used with it. Finite values are named
by the rational they denote; rounding is to nearest with ties to even. -/

set_option autoImplicit false

namespace ClusterRouter.Foundation

/-- The representative of `n` modulo `2 ^ 64` in the signed 64-bit range. -/
def int64 (n : Int) : Int := Int.bmod n (2 ^ 64)

theorem int64_of_nonneg {n : Int} (nonneg : 0 ≤ n) (small : n < 2 ^ 63) : int64 n = n := by
  unfold int64
  exact Int.bmod_eq_of_le (by omega) (by omega)

theorem int64_add_sub_cancel (n added : Int) : int64 (int64 (n + added) - n) = int64 added := by
  unfold int64
  rw [Int.bmod_sub_bmod]
  congr 1
  omega

inductive Binary64 where
  | nan
  | negInf
  | posInf
  | finite (value : Rat)
  deriving DecidableEq

namespace Binary64

def roundEven (q : Rat) : Int :=
  let k := q.floor
  if q - k < 1 / 2 then k
  else if 1 / 2 < q - k then k + 1
  else k + k % 2

def pow2 (e : Int) : Rat :=
  if 0 ≤ e then (2 ^ e.toNat : Nat) else 1 / (2 ^ (-e).toNat : Nat)

/-- The exponent of the leading bit of a non-zero rational. -/
def leadingBit (q : Rat) : Int :=
  let guess : Int := (Nat.log2 q.num.natAbs : Int) - Nat.log2 q.den
  if pow2 guess ≤ (q.num.natAbs : Rat) / q.den then guess else guess - 1

/-- The nearest binary64 value: 53 significant bits, gradual underflow at
`2 ^ (-1074)`, and an infinity from `2 ^ 1024` on. -/
def round (q : Rat) : Binary64 :=
  if q = 0 then finite 0
  else
    let unit := pow2 (max (leadingBit q - 52) (-1074))
    let rounded := roundEven (q / unit) * unit
    if pow2 1024 ≤ rounded then posInf
    else if rounded ≤ -pow2 1024 then negInf
    else finite rounded

def ofInt (n : Int) : Binary64 := round n

def mul : Binary64 → Binary64 → Binary64
  | finite a, finite b => round (a * b)
  | nan, _ => nan
  | _, nan => nan
  | posInf, posInf => posInf
  | negInf, negInf => posInf
  | posInf, negInf => negInf
  | negInf, posInf => negInf
  | posInf, finite b => if b = 0 then nan else if 0 < b then posInf else negInf
  | negInf, finite b => if b = 0 then nan else if 0 < b then negInf else posInf
  | finite a, posInf => if a = 0 then nan else if 0 < a then posInf else negInf
  | finite a, negInf => if a = 0 then nan else if 0 < a then negInf else posInf

/-- `a >= b`; every comparison with NaN is false. -/
def ge : Binary64 → Binary64 → Bool
  | nan, _ => false
  | _, nan => false
  | posInf, _ => true
  | _, negInf => true
  | negInf, _ => false
  | _, posInf => false
  | finite a, finite b => decide (b ≤ a)

def gt (a b : Binary64) : Bool := ge a b && !ge b a

end Binary64

end ClusterRouter.Foundation
