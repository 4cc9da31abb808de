import BirdBoard.StateKey

/-! # Axes

  Which coordinate an edge changes. An edge may change several: the level then counts before the position, and the
  position before the variant. Each axis has a colour and an icon.
-/

namespace BirdBoard

/-- The coordinate that tells the two ends of an edge apart. -/
inductive Axis where
  /-- The level differs. -/
  | level
  /-- The level is the same and the position differs. -/
  | position
  /-- The cell is the same and the variant differs. The player does not see it. -/
  | variant
  /-- Nothing differs. No edge of a model has this axis. -/
  | unchanged
  deriving DecidableEq, Repr

namespace Axis

/-- The axes in order of priority. -/
def all : List Axis := [.level, .position, .variant, .unchanged]

/-- The name of an axis. -/
def name : Axis → String
  | .level => "level"
  | .position => "position"
  | .variant => "variant"
  | .unchanged => "none"

/-- The display colour of an axis. -/
def color : Axis → String
  | .level => "#22d3ee"
  | .position => "#f59e0b"
  | .variant => "#e879f9"
  | .unchanged => "#3b82f6"

/-- The icon of an axis, which is also the label of an edge that has none of its own. -/
def icon : Axis → String
  | .level => "↕"
  | .position => "↔"
  | .variant => "⟳"
  | .unchanged => "→"

/-- The axis that a text names: neither blanks around the name nor the case of its letters count. -/
def ofText (s : String) : Except Fault Axis :=
  match Text.lowerAscii (Text.trim s) with
  | "level" => .ok .level
  | "position" => .ok .position
  | "variant" => .ok .variant
  | "none" => .ok .unchanged
  | t => .error (.unknownAxis t)

/-- The axis of the edge between two keys. -/
def between (source target : StateKey) : Axis :=
  if source.level ≠ target.level then .level
  else if source.position ≠ target.position then .position
  else if source.variant ≠ target.variant then .variant
  else .unchanged

/-- Only a loop changes nothing. -/
theorem between_eq_unchanged_iff {a b : StateKey} : between a b = .unchanged ↔ a = b := by
  obtain ⟨v, l, p⟩ := a
  obtain ⟨w, l', p'⟩ := b
  unfold between
  repeat' split
  all_goals simp_all

end Axis

end BirdBoard
