/-! # Binary floating point numbers

  Finite magnitudes in the 64-bit binary format, computed exactly: a magnitude is a significand times a power of two.

  - `Binary64.round` rounds a quotient of natural numbers to the nearest magnitude, a tie to the even significand; a
    quotient beyond the largest finite magnitude has none.
  - `mul` and `div` are rounded products and quotients, and `pow10` is a rounded power of ten.
-/

namespace BirdBoard.Decimal

/-- A finite magnitude: the significand times two to the exponent. -/
structure Binary64 where
  /-- The significand, below 2 to the 53. -/
  significand : Nat
  /-- The exponent of two, between -1074 and 971. -/
  exponent : Int
  deriving DecidableEq, Repr

namespace Binary64

/-- The least significand of a magnitude that is not near zero: 2 to the 52. -/
def leastNormal : Nat := 0x10000000000000

/-- The magnitude zero. -/
def zero : Binary64 := { significand := 0, exponent := -1074 }

/-- Whether a magnitude is zero. -/
def isZero (x : Binary64) : Bool := x.significand == 0

/-- The numerator of a magnitude as a quotient. -/
def num (x : Binary64) : Nat := x.significand * Nat.pow 2 x.exponent.toNat

/-- The denominator of a magnitude as a quotient. -/
def den (x : Binary64) : Nat := Nat.pow 2 (-x.exponent).toNat

/-- The quotient rounded to the nearest natural number, a tie to the even one. -/
def divRound (num den : Nat) : Nat :=
  let q := num / den
  let r := num % den
  if 2 * r > den || (2 * r == den && q % 2 == 1) then q + 1 else q

/-- The quotient over two to the exponent, as a numerator and a denominator. -/
def scaled (num den : Nat) (exponent : Int) : Nat × Nat :=
  (num * Nat.pow 2 (-exponent).toNat, den * Nat.pow 2 exponent.toNat)

/-- The exponent that gives the whole part of a positive quotient 53 bits, but not below -1074. -/
def exponentOf (num den : Nat) : Int :=
  let guess : Int := (Nat.log2 num : Int) - (Nat.log2 den : Int) - 52
  let (n, d) := scaled num den guess
  let exponent := if n / d < leastNormal then guess - 1 else guess
  if exponent < -1074 then -1074 else exponent

/-- The magnitude nearest to a quotient, a tie to the even significand; nothing when it is too large. -/
def round (num den : Nat) : Option Binary64 :=
  if num == 0 then some zero else
    let exponent := exponentOf num den
    let (n, d) := scaled num den exponent
    let significand := divRound n d
    let x : Binary64 :=
      if significand == 2 * leastNormal then { significand := leastNormal, exponent := exponent + 1 }
      else { significand, exponent }
    if x.exponent > 971 then none else some x

/-- The magnitude nearest to a natural number. -/
def ofNat (n : Nat) : Option Binary64 := round n 1

/-- The magnitude nearest to a power of ten. -/
def pow10 (n : Nat) : Option Binary64 := round (Nat.pow 10 n) 1

/-- The rounded product. -/
def mul (x y : Binary64) : Option Binary64 := round (x.num * y.num) (x.den * y.den)

/-- The rounded quotient by a magnitude that is not zero. -/
def div (x y : Binary64) : Option Binary64 := round (x.num * y.den) (x.den * y.num)

end Binary64

end BirdBoard.Decimal
