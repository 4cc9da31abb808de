import BirdBoard.Fault
import BirdBoard.Text.Blank

/-! # The coordinate space

  The three axes of the board. A `Level` or a `Position` carries the proof that it is on the board, so a value that is
  held anywhere is always inside the space; raw bytes come in through `Level.ofByte` and `Position.ofByte`.

  - Levels run from 0 to 4, upwards. Positions run from 13 to 18, from left to right.
  - There are three variants. The base variant is permanent; the other two are overlays.
-/

namespace BirdBoard

/-! ### Levels -/

/-- The vertical coordinate. Higher levels are drawn nearer the top. -/
structure Level where
  val : Nat
  /-- Levels end at 4. -/
  val_le : val ≤ 4
  deriving DecidableEq, Repr

namespace Level

/-- Checks a raw level. -/
def ofByte (value : UInt8) : Except Fault Level :=
  if h : value.toNat ≤ 4 then .ok ⟨value.toNat, h⟩ else .error (.levelOutside value)

/-- The levels in ascending order. -/
def all : List Level :=
  [⟨0, by decide⟩, ⟨1, by decide⟩, ⟨2, by decide⟩, ⟨3, by decide⟩, ⟨4, by decide⟩]

/-- The raw byte of a level. -/
def toByte (l : Level) : UInt8 := UInt8.ofNat l.val

/-- The decimal text of a level. -/
def text (l : Level) : String := toString l.val

/-- The grid row of a level, counted from 1 at the top. -/
def gridRow (l : Level) : Nat := 5 - l.val

/-- Every level is listed. -/
theorem mem_all (l : Level) : l ∈ all := by
  obtain ⟨n, h⟩ := l
  have : n = 0 ∨ n = 1 ∨ n = 2 ∨ n = 3 ∨ n = 4 := by omega
  rcases this with rfl | rfl | rfl | rfl | rfl <;> simp [all]

/-- A raw level is read as the level with its number. -/
theorem ofByte_eq_ok_iff {b : UInt8} {l : Level} : ofByte b = .ok l ↔ b.toNat = l.val := by
  obtain ⟨n, hn⟩ := l
  unfold ofByte
  split
  · simp
  · simp only [reduceCtorEq, false_iff]
    omega

/-- Reading the byte of a level gives the level back. -/
theorem ofByte_toByte (l : Level) : ofByte l.toByte = .ok l := by
  have h := l.val_le
  rw [ofByte_eq_ok_iff, toByte, UInt8.toNat_ofNat']
  omega

end Level

/-! ### Positions -/

/-- The horizontal coordinate. -/
structure Position where
  val : Nat
  /-- Positions begin at 13. -/
  le_val : 13 ≤ val
  /-- Positions end at 18. -/
  val_le : val ≤ 18
  deriving DecidableEq, Repr

namespace Position

/-- Checks a raw position. -/
def ofByte (value : UInt8) : Except Fault Position :=
  if h : 13 ≤ value.toNat ∧ value.toNat ≤ 18 then .ok ⟨value.toNat, h.1, h.2⟩
  else .error (.positionOutside value)

/-- The positions in ascending order. -/
def all : List Position :=
  [⟨13, by decide, by decide⟩, ⟨14, by decide, by decide⟩, ⟨15, by decide, by decide⟩,
    ⟨16, by decide, by decide⟩, ⟨17, by decide, by decide⟩, ⟨18, by decide, by decide⟩]

/-- The raw byte of a position. -/
def toByte (p : Position) : UInt8 := UInt8.ofNat p.val

/-- The decimal text of a position. -/
def text (p : Position) : String := toString p.val

/-- The grid column of a position, counted from 1 at the left. -/
def gridColumn (p : Position) : Nat := p.val - 12

/-- Every position is listed. -/
theorem mem_all (p : Position) : p ∈ all := by
  obtain ⟨n, h₁, h₂⟩ := p
  have : n = 13 ∨ n = 14 ∨ n = 15 ∨ n = 16 ∨ n = 17 ∨ n = 18 := by omega
  rcases this with rfl | rfl | rfl | rfl | rfl | rfl <;> simp [all]

/-- A raw position is read as the position with its number. -/
theorem ofByte_eq_ok_iff {b : UInt8} {p : Position} : ofByte b = .ok p ↔ b.toNat = p.val := by
  obtain ⟨n, h₁, h₂⟩ := p
  unfold ofByte
  split
  · simp
  · simp only [reduceCtorEq, false_iff]
    omega

/-- Reading the byte of a position gives the position back. -/
theorem ofByte_toByte (p : Position) : ofByte p.toByte = .ok p := by
  have h := p.val_le
  rw [ofByte_eq_ok_iff, toByte, UInt8.toNat_ofNat']
  omega

end Position

/-! ### Variants -/

/-- The variants of the board. -/
inductive Variant where
  /-- The base variant, whose full grid is always there. -/
  | normal
  | zeta
  | eta
  deriving DecidableEq, Repr

namespace Variant

/-- The permanent variant. -/
def base : Variant := .normal

/-- The variants in display order, the base first. -/
def all : List Variant := [.normal, .zeta, .eta]

/-- Whether a variant is the permanent one. -/
def isBase (v : Variant) : Bool := v == base

/-- The overlays in display order. -/
def overlays : List Variant := all.filter fun v => !v.isBase

/-- The name of a variant, which is also the value of its radio button. -/
def name : Variant → String
  | .normal => "normaal"
  | .zeta => "ζ"
  | .eta => "η"

/-- A mark of one character. -/
def mark : Variant → String
  | .normal => "N"
  | .zeta => "ζ"
  | .eta => "η"

/-- The display colour of a variant. -/
def color : Variant → String
  | .normal => "#22d3ee"
  | .zeta => "#a78bfa"
  | .eta => "#f472b6"

/-- What a short label puts before the level: nothing for the base, the name for an overlay. -/
def labelPrefix (v : Variant) : String := if v.isBase then "" else v.name

/-- The variant that a text names: blanks around the name do not count, case does. -/
def ofText (s : String) : Except Fault Variant :=
  match Text.trim s with
  | "normaal" | "N" => .ok .normal
  | "ζ" | "zeta" => .ok .zeta
  | "η" | "eta" => .ok .eta
  | t => .error (.unknownVariant t)

/-- The place of a variant in display order. -/
def index : Variant → Nat
  | .normal => 0
  | .zeta => 1
  | .eta => 2

end Variant

/-- Whether a raw level, a raw position and the text of a variant lie in the coordinate space. -/
def isValidTriple (level position : UInt8) (variant : String) : Bool :=
  (Level.ofByte level).isOk && (Position.ofByte position).isOk && (Variant.ofText variant).isOk

end BirdBoard
