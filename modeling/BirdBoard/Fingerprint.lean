import BirdBoard.Hash.Xxh3

/-! # Fingerprints

  A short stand-in for a stylesheet: the 64-bit XXH3 hash of its UTF-8 bytes under a fixed seed. Equal texts have equal
  fingerprints. It is shown as sixteen lower-case hexadecimal digits.
-/

namespace BirdBoard

/-- The fingerprint of a text. -/
structure Fingerprint where
  value : UInt64
  deriving DecidableEq, Repr

namespace Fingerprint

/-- The seed of all fingerprints. -/
def seed : UInt64 := 0x8b5ad4a0c7d8e9f1

/-- The fingerprint of a text. -/
def ofText (s : String) : Fingerprint := { value := Hash.Xxh3.hash s.toUTF8 seed }

/-- Sixteen lower-case hexadecimal digits, with zeros in front. -/
def text (f : Fingerprint) : String :=
  let digits := Nat.toDigits 16 f.value.toNat
  String.ofList (List.replicate (16 - digits.length) '0' ++ digits)

end Fingerprint

end BirdBoard
