/-! # Decimal digit runs

  Reading plain decimal numbers: a run is one or more of the ten ASCII digits, with any number of leading zeros and no
  sign.

  - `digitsValue` is the value of a run, most significant digit first.
  - `decimal?` refuses the empty run and every other character.
  - `byte?` moreover refuses a value above 255.
-/

namespace BirdBoard.Text

/-- The value of a decimal digit. -/
def digitValue (c : Char) : Nat := c.toNat - '0'.toNat

/-- The value of a digit run, most significant digit first. -/
def digitsValue (cs : List Char) : Nat := cs.foldl (fun n c => 10 * n + digitValue c) 0

/-- The value of a non-empty run of ASCII digits; nothing for any other text. -/
def decimal? (cs : List Char) : Option Nat :=
  if !cs.isEmpty && cs.all Char.isDigit then some (digitsValue cs) else none

/-- The value of a non-empty run of ASCII digits if it fits into a byte. -/
def byte? (cs : List Char) : Option UInt8 :=
  match decimal? cs with
  | some n => if n < 256 then some (UInt8.ofNat n) else none
  | none => none

/-- A run fits into a byte exactly if its value is the number of a byte. -/
theorem byte?_eq_some_iff {cs : List Char} {b : UInt8} :
    byte? cs = some b ↔ decimal? cs = some b.toNat := by
  unfold byte?
  split
  · next n h =>
    rw [h]
    split
    · next hn =>
      simp only [Option.some.injEq]
      constructor
      · rintro rfl
        simp [UInt8.toNat_ofNat', Nat.mod_eq_of_lt hn]
      · intro h
        simp [h]
    · have := b.toNat_lt
      simp
      omega
  · next h => simp [h]

end BirdBoard.Text
