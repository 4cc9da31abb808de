import BirdBoard.Decimal.Shortest

/-! # Writing decimals

  How a shortest decimal is written: positionally while its leading digit stands near the point, otherwise with an
  exponent. The choices of a format are one record.
-/

namespace BirdBoard.Decimal

/-- The choices of a decimal format. -/
structure Notation where
  /-- The least exponent of the leading digit that is written positionally. -/
  positionalFrom : Int
  /-- The greatest exponent of the leading digit that is written positionally. -/
  positionalTo : Int
  /-- What stands before the digits of a positive exponent. -/
  positiveMark : String
  /-- What stands before the digits of a negative exponent. -/
  negativeMark : String
  deriving DecidableEq, Repr

namespace Notation

/-- A positional text. A point always stands between digits, so a whole number ends in `.0`. -/
def positional (digits : List Char) (leading : Int) : List Char :=
  if leading < 0 then
    ['0', '.'] ++ List.replicate ((-leading).toNat - 1) '0' ++ digits
  else
    let whole := leading.toNat + 1
    let padded := digits ++ List.replicate (whole - digits.length) '0'
    let fraction := padded.drop whole
    padded.take whole ++ ['.'] ++ (if fraction.isEmpty then ['0'] else fraction)

/-- A text with an exponent: one digit, the point and the other digits if there are any, the exponent. -/
def scientific (f : Notation) (digits : List Char) (leading : Int) : List Char :=
  let mantissa := match digits with
    | d :: e :: rest => d :: '.' :: e :: rest
    | _ => digits
  let mark := if leading < 0 then f.negativeMark else f.positiveMark
  mantissa ++ mark.toList ++ Nat.toDigits 10 leading.natAbs

/-- The text of a decimal. -/
def write (f : Notation) (d : Digits) : String :=
  let digits := Nat.toDigits 10 d.digits
  let leading := d.exponent + (digits.length : Int) - 1
  String.ofList
    (if f.positionalFrom ≤ leading && leading ≤ f.positionalTo then positional digits leading
    else f.scientific digits leading)

end Notation

end BirdBoard.Decimal
