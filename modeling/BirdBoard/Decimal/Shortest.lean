import BirdBoard.Decimal.Binary64

/-! # The shortest decimal of a magnitude

  The decimal with the fewest digits that reads back as a given magnitude, and among those the one nearest to it.

  A decimal reads back as a magnitude when it lies in the interval of numbers that round to it. For one digit, two
  digits and so on, the two neighbours of the magnitude on the grid of decimals with that many digits are tested; the
  first grid that holds a point of the interval wins. Of two hits the nearer is taken, and of two equally near ones the
  even one.
-/

namespace BirdBoard.Decimal

/-- A decimal: a whole number of digits times a power of ten. -/
structure Digits where
  /-- The digits as one number, without zeros at the end unless it is zero. -/
  digits : Nat
  /-- The power of ten of the last digit. -/
  exponent : Int
  deriving DecidableEq, Repr

/-- The quotient `a / b` times ten to the power `k`, as a numerator and a denominator. -/
def timesPow10 (a b : Nat) (k : Int) : Nat × Nat := (a * Nat.pow 10 k.toNat, b * Nat.pow 10 (-k).toNat)

/-- The power of ten of the first digit of a positive quotient. -/
def leadingExponent (num den : Nat) : Int :=
  if den ≤ num then (Nat.toDigits 10 (num / den)).length - 1
  else -(((List.range 400).find? fun j => den ≤ num * Nat.pow 10 j).getD 0 : Int)

/-- The interval of the quotients that round to a magnitude: its two ends as numerators over one denominator, and
whether the ends belong to it. -/
structure Interval where
  /-- The numerator of the lower end. -/
  low : Nat
  mid : Nat
  /-- The numerator of the upper end. -/
  high : Nat
  den : Nat
  /-- Whether both ends round to the magnitude. -/
  closed : Bool

/-- The interval of a magnitude: half a step in both directions, but only a quarter of the step downwards at the
smallest significand of a binade. -/
def Interval.of (x : Binary64) : Interval :=
  let down := if x.significand == Binary64.leastNormal && x.exponent > -1074 then 1 else 2
  let scale := Nat.pow 2 (x.exponent - 2).toNat
  { low := (4 * x.significand - down) * scale
    mid := 4 * x.significand * scale
    high := (4 * x.significand + 2) * scale
    den := Nat.pow 2 (2 - x.exponent).toNat
    closed := x.significand % 2 == 0 }

/-- Whether the decimal `n · 10 ^ k` lies in the interval. -/
def Interval.holds (i : Interval) (n : Nat) (k : Int) : Bool :=
  let (a, b) := timesPow10 (n * i.den) 1 k
  if i.closed then i.low * b ≤ a && a ≤ i.high * b else i.low * b < a && a < i.high * b

/-- The better of the two neighbours on the grid of ten to the power `k`, if one of them lies in the interval. -/
def Interval.gridPoint? (i : Interval) (k : Int) : Option Nat :=
  let (a, b) := timesPow10 i.mid i.den (-k)
  let n := a / b
  let r := a % b
  match i.holds n k, i.holds (n + 1) k with
  | true, true => some (if 2 * r < b || (2 * r == b && n % 2 == 0) then n else n + 1)
  | true, false => some n
  | false, true => some (n + 1)
  | false, false => none

/-- Drops zeros at the end, at most `fuel` of them. -/
def stripZeros : Nat → Nat → Int → Digits
  | 0, n, k => { digits := n, exponent := k }
  | fuel + 1, n, k =>
    if n % 10 == 0 && n != 0 then stripZeros fuel (n / 10) (k + 1) else { digits := n, exponent := k }

/-- The shortest decimal that reads back as a magnitude. Seventeen digits always do. -/
def shortest (x : Binary64) : Digits :=
  if x.isZero then { digits := 0, exponent := 0 } else
    let i := Interval.of x
    let top := leadingExponent i.mid i.den
    let hit := (List.range 17).findSome? fun (j : Nat) => (i.gridPoint? (top - j)).map fun n => (n, top - (j : Int))
    match hit with
    | some (n, k) => stripZeros 20 n k
    | none => { digits := 0, exponent := 0 }

end BirdBoard.Decimal
