/-! # Faults

  Why a piece of raw input is refused. Commands on a model never fail; faults arise only while raw numbers, names and
  labels are turned into typed values, or when a document names a state that its model does not hold.

  - `FaultKind` is the coarse class of a fault, and `FaultKind.message` puts the class in front of the text.
  - `Fault` lists the causes, each with the values that its text quotes; `Fault.detail` is the wording.
-/

namespace BirdBoard

/-- The classes of faults. -/
inductive FaultKind where
  /-- Malformed authoring input, such as an unknown label. -/
  | validation
  /-- A level, position or variant outside the coordinate space. -/
  | coordinate
  /-- Text that cannot be read as structured data. -/
  | serialization
  /-- A fault of something underneath, reported in its own words. -/
  | other
  deriving DecidableEq, Repr

/-- The full message of a fault: its class, then the text. Foreign faults keep their bare text. -/
def FaultKind.message (kind : FaultKind) (text : String) : String :=
  match kind with
  | .validation => "validation error: " ++ text
  | .coordinate => "coordinate error: " ++ text
  | .serialization => "serialization error: " ++ text
  | .other => text

/-- The causes for which raw input is refused. -/
inductive Fault where
  /-- A raw level that is not on the board. -/
  | levelOutside (value : UInt8)
  /-- A raw position that is not on the board. -/
  | positionOutside (value : UInt8)
  /-- A text that names no variant. -/
  | unknownVariant (text : String)
  /-- A text that is not a short state label. -/
  | malformedLabel (text : String)
  /-- A text that is not a dashed state key. -/
  | malformedKey (text : String)
  /-- A text that names no bird mode. -/
  | unknownBirdMode (text : String)
  /-- A text that names no axis. -/
  | unknownAxis (text : String)
  /-- A well-formed label of a state that the model does not hold. -/
  | unknownState (label : String)
  deriving DecidableEq, Repr

namespace Fault

/-- The class of a fault. -/
def kind : Fault → FaultKind
  | levelOutside _ | positionOutside _ | unknownVariant _ => .coordinate
  | malformedLabel _ | malformedKey _ | unknownBirdMode _ | unknownAxis _ | unknownState _ => .validation

/-- The wording of a fault, without its class. -/
def detail : Fault → String
  | levelOutside v => "level " ++ toString v.toNat ++ " outside 0..=4"
  | positionOutside v => "position " ++ toString v.toNat ++ " outside 13..=18"
  | unknownVariant t => "unknown variant '" ++ t ++ "'"
  | malformedLabel t => "malformed state label '" ++ t ++ "'"
  | malformedKey t => "malformed state key '" ++ t ++ "'"
  | unknownBirdMode t => "unknown bird mode '" ++ t ++ "'"
  | unknownAxis t => "unknown axis '" ++ t ++ "'"
  | unknownState l => "unknown state '" ++ l ++ "'"

/-- The full message of a fault. -/
def message (f : Fault) : String := f.kind.message f.detail

end Fault

end BirdBoard
