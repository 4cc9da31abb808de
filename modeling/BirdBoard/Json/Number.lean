import BirdBoard.Decimal.Notation
import BirdBoard.Text.Digits

/-! # JSON numbers

  Number literals and the numbers that they stand for.

  - `Literal.scan` takes a literal off the front of a text. A leading zero stands alone, and a point or an exponent
    mark needs a digit behind it.
  - `Literal.number?` is the number of a literal. A literal without point and exponent is an integer if it fits into 64
    bits, a negative one into 64 bits with sign; `-0` and everything else is a binary fraction. Only the digits that
    fit into 64 bits are counted, and the result is scaled in one rounded step, or in several steps when the power of
    ten is below -308. A number beyond the largest finite fraction has none.
-/

namespace BirdBoard.Json

/-- A number literal. -/
structure Literal where
  /-- Whether it begins with a minus sign. -/
  negative : Bool
  /-- The digits before the point. -/
  whole : List Char
  /-- The digits behind the point, if there is one. -/
  fraction : Option (List Char)
  /-- Whether the exponent is negative, and its digits, if there is one. -/
  exponent : Option (Bool × List Char)
  deriving DecidableEq, Repr

/-- The number of a literal. -/
inductive Number where
  | integer (n : Int)
  /-- A binary fraction with its sign, which may be the sign of zero. -/
  | float (negative : Bool) (magnitude : Decimal.Binary64)
  deriving DecidableEq, Repr

/-! ### Literals -/

namespace Literal

/-- Takes the digits off the front of a text. -/
def scanDigits (cs : List Char) : List Char × List Char := (cs.takeWhile Char.isDigit, cs.dropWhile Char.isDigit)

/-- Takes the point and the digits behind it off the front of a text, if they are there. -/
def scanFraction : List Char → Option (Option (List Char) × List Char)
  | '.' :: rest =>
    match scanDigits rest with
    | ([], _) => none
    | (digits, rest) => some (some digits, rest)
  | cs => some (none, cs)

/-- Takes the sign of an exponent off the front of a text. -/
def scanSign : List Char → Bool × List Char
  | '+' :: rest => (false, rest)
  | '-' :: rest => (true, rest)
  | cs => (false, cs)

/-- Takes the exponent off the front of a text, if it is there. -/
def scanExponent : List Char → Option (Option (Bool × List Char) × List Char)
  | c :: rest =>
    if c == 'e' || c == 'E' then
      let (negative, rest) := scanSign rest
      match scanDigits rest with
      | ([], _) => none
      | (digits, rest) => some (some (negative, digits), rest)
    else some (none, c :: rest)
  | [] => some (none, [])

/-- Takes the digits before the point off the front of a text: a zero, or digits that begin with no zero. -/
def scanWhole (cs : List Char) : Option (List Char × List Char) :=
  match scanDigits cs with
  | ([], _) => none
  | ('0' :: _ :: _, _) => none
  | (digits, rest) => some (digits, rest)

/-- Takes the minus sign off the front of a text, if it is there. -/
def scanMinus : List Char → Bool × List Char
  | '-' :: rest => (true, rest)
  | cs => (false, cs)

/-- Takes a literal off the front of a text. -/
def scan (cs : List Char) : Option (Literal × List Char) := do
  let (negative, cs) := scanMinus cs
  let (whole, cs) ← scanWhole cs
  let (fraction, cs) ← scanFraction cs
  let (exponent, cs) ← scanExponent cs
  return ({ negative, whole, fraction, exponent }, cs)

end Literal

/-! ### Numbers -/

/-- The first number that does not fit into 64 bits. -/
def wordSize : Nat := 0x10000000000000000

/-- Counts digits into a significand as long as it fits into 64 bits; also gives the digits that are left. -/
def takeSignificand : Nat → List Char → Nat × List Char
  | s, [] => (s, [])
  | s, c :: cs =>
    let next := 10 * s + Text.digitValue c
    if next < wordSize then takeSignificand next cs else (s, c :: cs)

/-- The largest power of ten that is used in one step. -/
def largestStep : Nat := 308

/-- Divides by ten to the power `last` after `steps` divisions by the largest step. Zero stays zero. -/
def divideSteps (last : Nat) : Nat → Decimal.Binary64 → Option Decimal.Binary64
  | 0, x => (Decimal.Binary64.pow10 last).bind x.div
  | steps + 1, x =>
    if x.isZero then some x
    else ((Decimal.Binary64.pow10 largestStep).bind x.div).bind (divideSteps last steps)

/-- Divides by ten to the power `n`, in as few steps as there have to be. -/
def scaleDown (x : Decimal.Binary64) (n : Nat) : Option Decimal.Binary64 :=
  let steps := (n - 1) / largestStep
  divideSteps (n - steps * largestStep) steps x

/-- Multiplies by ten to the power `n`; nothing when the result is too large. -/
def scaleUp (x : Decimal.Binary64) (n : Nat) : Option Decimal.Binary64 :=
  if n ≤ largestStep then (Decimal.Binary64.pow10 n).bind x.mul
  else if x.isZero then some x
  else none

/-- A significand times a power of ten as a binary fraction. -/
def scale (significand : Nat) (exponent : Int) : Option Decimal.Binary64 := do
  let x ← Decimal.Binary64.ofNat significand
  if exponent < 0 then scaleDown x exponent.natAbs else scaleUp x exponent.natAbs

/-- The largest exponent that is counted: 31 bits. -/
def exponentLimit : Nat := 0x7fffffff

/-- The binary fraction of a literal. An exponent beyond 31 bits is not counted: the result is zero if the exponent is
negative or the significand is zero, and too large otherwise. -/
def Literal.magnitude? (l : Literal) : Option Decimal.Binary64 :=
  let (whole, dropped) := takeSignificand 0 l.whole
  let fraction := l.fraction.getD []
  let (significand, unused) := takeSignificand whole fraction
  let shift : Int := (dropped.length : Int) - ((fraction.length - unused.length : Nat) : Int)
  match l.exponent with
  | none => scale significand shift
  | some (negative, digits) =>
    let n := Text.digitsValue digits
    if n > exponentLimit then
      if negative || significand == 0 then some Decimal.Binary64.zero else none
    else scale significand (if negative then shift - n else shift + n)

/-- The number of a literal; nothing when it is too large for a binary fraction. -/
def Literal.number? (l : Literal) : Option Number :=
  let n := Text.digitsValue l.whole
  let plain := l.fraction.isNone && l.exponent.isNone
  if plain && !l.negative && n < wordSize then some (.integer n)
  else if plain && l.negative && n != 0 && 2 * n ≤ wordSize then some (.integer (-n))
  else l.magnitude?.map (.float l.negative)

/-! ### Texts of numbers -/

/-- Fractions are written positionally from 0.00001 up to sixteen digits before the point, and with a signed exponent
otherwise. -/
def floatNotation : Decimal.Notation :=
  { positionalFrom := -5, positionalTo := 15, positiveMark := "e+", negativeMark := "e-" }

/-- The text of a fraction with its sign. -/
def floatText (negative : Bool) (magnitude : Decimal.Binary64) : String :=
  (if negative then "-" else "") ++ floatNotation.write (Decimal.shortest magnitude)

end BirdBoard.Json
