import BirdBoard.Coordinate
import BirdBoard.Text.Digits

/-! # State keys

  A state is named by its variant, level and position. Keys are plain values: edges refer to states through them.

  - The order of keys compares variants first, then levels, then positions; `StateKey.rank` counts keys in that order.
  - Four texts are made from a key: the display label `L2 P15`, the full label `L2 P15 [ζ]`, the short label `ζL2P15`
    and the dashed text `ζ-2-15`.
  - `StateKey.ofLabel` reads short labels and `StateKey.ofDashed` reads dashed texts.
-/

namespace BirdBoard

/-- The name of a state. -/
structure StateKey where
  variant : Variant
  level : Level
  position : Position
  deriving DecidableEq, Repr

namespace StateKey

/-- Checks a raw level, then a raw position, and builds the key. -/
def ofBytes (level position : UInt8) (variant : Variant) : Except Fault StateKey := do
  let level ← Level.ofByte level
  let position ← Position.ofByte position
  return { variant, level, position }

/-- The 30 keys of a variant, level by level. -/
def grid (v : Variant) : List StateKey :=
  Level.all.flatMap fun l => Position.all.map fun p => { variant := v, level := l, position := p }

/-- The grid of a variant holds exactly its keys. -/
theorem mem_grid {k : StateKey} {v : Variant} : k ∈ grid v ↔ k.variant = v := by
  obtain ⟨w, l, p⟩ := k
  simp only [grid, List.mem_flatMap, List.mem_map, mk.injEq]
  constructor
  · rintro ⟨_, _, _, _, h, _, _⟩
    exact h.symm
  · intro h
    exact ⟨l, l.mem_all, p, p.mem_all, h.symm, rfl, rfl⟩

/-- No key occurs twice in a grid. -/
theorem nodup_grid (v : Variant) : (grid v).Nodup := by cases v <;> decide

/-! ### Order -/

/-- The number of keys that come before this one: variants first, then levels, then positions. -/
def rank (k : StateKey) : Nat := (k.variant.index * 5 + k.level.val) * 6 + (k.position.val - 13)

/-- Sorts keys in ascending order; equal keys stay. -/
def sort (keys : List StateKey) : List StateKey := keys.mergeSort fun a b => a.rank ≤ b.rank

/-! ### Labels -/

/-- What the player sees. The variant is not shown. -/
def displayLabel (k : StateKey) : String := "L" ++ k.level.text ++ " P" ++ k.position.text

/-- The display label, with the variant in brackets for overlays. -/
def fullLabel (k : StateKey) : String :=
  if k.variant.isBase then k.displayLabel else k.displayLabel ++ " [" ++ k.variant.name ++ "]"

/-- The compact label of tables and documents. -/
def shortLabel (k : StateKey) : String :=
  k.variant.labelPrefix ++ "L" ++ k.level.text ++ "P" ++ k.position.text

/-- The variant, the level and the position, joined by dashes. -/
def dashed (k : StateKey) : String :=
  k.variant.name ++ "-" ++ k.level.text ++ "-" ++ k.position.text

/-! ### Reading labels -/

/-- Splits a label into the variant that its first character names and the rest; without an overlay mark the whole
label belongs to the base variant. -/
def splitVariant : List Char → Variant × List Char
  | 'ζ' :: rest => (.zeta, rest)
  | 'η' :: rest => (.eta, rest)
  | cs => (.base, cs)

/-- The two raw numbers of `L<level>P<position>`. The first `P` ends the level. -/
def labelNumbers? : List Char → Option (UInt8 × UInt8)
  | 'L' :: rest =>
    match rest.dropWhile (· != 'P') with
    | _ :: position =>
      match Text.byte? (rest.takeWhile (· != 'P')), Text.byte? position with
      | some l, some p => some (l, p)
      | _, _ => none
    | [] => none
  | _ => none

/-- Reads a short label. Blanks around it do not count; the message of a malformed label quotes it without them. -/
def ofLabel (label : String) : Except Fault StateKey :=
  let trimmed := Text.trimChars label.toList
  let (variant, rest) := splitVariant trimmed
  match labelNumbers? rest with
  | some (level, position) => ofBytes level position variant
  | none => .error (.malformedLabel (String.ofList trimmed))

/-! ### Reading dashed keys -/

/-- Splits a text at its last dash. -/
def splitLastDash? (cs : List Char) : Option (List Char × List Char) :=
  match cs.reverse.dropWhile (· != '-') with
  | _ :: before => some (before.reverse, (cs.reverse.takeWhile (· != '-')).reverse)
  | [] => none

/-- The text before the last two dashes and the raw numbers behind them. -/
def dashedParts? (cs : List Char) : Option (List Char × UInt8 × UInt8) := do
  let (rest, position) ← splitLastDash? cs
  let (variant, level) ← splitLastDash? rest
  return (variant, ← Text.byte? level, ← Text.byte? position)

/-- Reads a dashed key. The shape is checked first, then the variant, the level and the position. Blanks around the
text do not count, but the message of a malformed key quotes the text as it came. -/
def ofDashed (text : String) : Except Fault StateKey :=
  match dashedParts? (Text.trimChars text.toList) with
  | some (variant, level, position) => do
    ofBytes level position (← Variant.ofText (String.ofList variant))
  | none => .error (.malformedKey text)

end StateKey

end BirdBoard
