import ClusterRouter.Foundation.Binary64
import ClusterRouter.Foundation.Json
import ClusterRouter.Foundation.Scan

/-! A literal is read as the nearest binary64 number, and a float is written with the fewest
digits that are read as itself (`strconv`). -/

set_option autoImplicit false

namespace ClusterRouter.Foundation

def pow10 (e : Int) : Rat :=
  if 0 ≤ e then (10 ^ e.toNat : Nat) else 1 / (10 ^ (-e).toNat : Nat)

namespace Numeral

/-- Digits of an exponent are no longer counted once it has passed 10000. -/
def exponentValue (n : Numeral) : Int :=
  match n.exponent with
  | none => 0
  | some (_, sign, digits) =>
    let size : Nat :=
      digits.foldl (fun e b => if e < 10000 then e * 10 + (b.toNat - 48) else e) 0
    if sign = some 45 then -size else size

def magnitude (n : Numeral) : Rat :=
  Bytes.decimal (n.whole ++ n.fraction) * pow10 (n.exponentValue - n.fraction.length)

/-- `strconv.ParseFloat`, which fails where the number is out of range. -/
def parseFloat (n : Numeral) : Option Rat :=
  match Binary64.round n.magnitude with
  | .finite value => some value
  | _ => none

end Numeral

namespace Binary64

/-- The exponent of the leading digit of a positive rational. -/
def leadingDigit (q : Rat) : Int :=
  let guess : Int := (Nat.log 10 q.num.natAbs : Int) - Nat.log 10 q.den
  if pow10 guess ≤ q then guess else guess - 1

/-- The decimals of `count` digits next to `q`, the nearest first, with the exponent of
their last digit. -/
def neighbours (q : Rat) (count : Nat) : List (Nat × Int) :=
  let last := leadingDigit q - (count - 1)
  let scaled := q / pow10 last
  let below := scaled.floor.toNat
  if scaled = below then [(below, last)]
  else if roundEven scaled = below then [(below, last), (below + 1, last)]
  else [(below + 1, last), (below, last)]

/-- The fewest digits that are read as `q`. Seventeen digits are enough for every float. -/
def shortest (q : Rat) : Nat × Int :=
  (((List.range 17).flatMap (fun n => neighbours q (n + 1))).find?
    (fun (digits, last) => decide (round (digits * pow10 last) = .finite q))).getD (0, 0)

/-- Digits, the first of them first, without the zeros at their end, and the exponent of
the last. -/
def trimZeros : Nat → Nat × Int → Nat × Int
  | 0, decimal => decimal
  | fuel + 1, (digits, last) =>
    if digits ≠ 0 ∧ digits % 10 = 0 then trimZeros fuel (digits / 10, last + 1)
    else (digits, last)

def padded (width : Nat) (digits : Bytes) : Bytes :=
  List.replicate (width - digits.length) 48 ++ digits

/-- `%f` with as many digits as there are. -/
def plain (digits : Nat) (last : Int) : Bytes :=
  if 0 ≤ last then Bytes.itoa (digits * 10 ^ last.toNat)
  else
    let places := (-last).toNat
    Bytes.itoa (digits / 10 ^ places) ++ [Bytes.dot] ++
      padded places (Bytes.itoa (digits % 10 ^ places))

/-- `%e` with as many digits as there are, and no zero in front of the exponent. -/
def scientific (digits : Nat) (last : Int) : Bytes :=
  let text := Bytes.itoa digits
  let exponent := last + (text.length - 1)
  text.take 1 ++ (if text.length = 1 then [] else Bytes.dot :: text.drop 1) ++ [101] ++
    (if exponent < 0 then [45] else [43]) ++ Bytes.itoa exponent.natAbs

/-- How `Marshal` writes a float that is not negative. -/
def marshal (q : Rat) : Bytes :=
  if q = 0 then [48]
  else
    let (digits, last) := trimZeros 17 (shortest q)
    -- The bounds are floats: the one next to a millionth is a little below it.
    if gt (round (pow10 (-6))) (finite q) ∨ ge (finite q) (round (pow10 21)) then
      scientific digits last
    else plain digits last

end Binary64

end ClusterRouter.Foundation
