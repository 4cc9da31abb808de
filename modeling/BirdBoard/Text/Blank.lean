/-! # Blank characters and trimming

  Which characters count as blank, and what is left of a text once the blanks at its two ends are gone.

  - `isBlank` is the Unicode property White_Space: 25 characters, given by the ranges `whiteSpace`. The zero-width
    space U+200B and the byte order mark U+FEFF are not among them.
  - `trim` drops every leading and every trailing blank, and nothing in between.
-/

namespace BirdBoard.Text

/-- Whether the code point of `c` lies in one of the given ranges, both ends included. -/
def inRanges (ranges : List (Nat × Nat)) (c : Char) : Bool :=
  ranges.any fun r => r.1 ≤ c.toNat && c.toNat ≤ r.2

/-! ### White space -/

/-- The code point ranges of the Unicode property White_Space. -/
def whiteSpace : List (Nat × Nat) :=
  [(0x09, 0x0D), (0x20, 0x20), (0x85, 0x85), (0xA0, 0xA0), (0x1680, 0x1680), (0x2000, 0x200A),
    (0x2028, 0x2029), (0x202F, 0x202F), (0x205F, 0x205F), (0x3000, 0x3000)]

/-- A blank is a character of the Unicode property White_Space. -/
def isBlank (c : Char) : Bool := inRanges whiteSpace c

/-- The ranges hold 25 code points in all. -/
example : (whiteSpace.map fun r => r.2 + 1 - r.1).sum = 25 := by decide

/-! ### Trimming -/

/-- Drops the blanks at both ends of a character list. -/
def trimChars (cs : List Char) : List Char :=
  ((cs.dropWhile isBlank).reverse.dropWhile isBlank).reverse

/-- Drops the blanks at both ends of a text. -/
def trim (s : String) : String := String.ofList (trimChars s.toList)

/-- Lower-cases the letters A to Z and leaves every other character alone. -/
def lowerAscii (s : String) : String := s.map Char.toLower

end BirdBoard.Text
