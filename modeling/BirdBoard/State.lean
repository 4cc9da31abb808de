import BirdBoard.StateKey

/-! # States and their birds

  A state is a key together with what the bird does while the state is active.

  - A bird has a level and a position of its own, each of which may be unset, and a mode. It is visible only when both
    coordinates are set.
  - A `BirdPatch` is a partial update: a field that it does not give is left alone, and a coordinate that it gives as
    `none` is unset.
-/

namespace BirdBoard

/-! ### Modes -/

/-- How the bird behaves. -/
inductive BirdMode where
  | flying
  /-- Attacking; drawn like a flying bird. -/
  | attacking
  /-- Grabbing; drawn with the grab animation. -/
  | grabbing
  deriving DecidableEq, Repr

namespace BirdMode

/-- The modes in display order. -/
def all : List BirdMode := [.flying, .attacking, .grabbing]

/-- The name of a mode. -/
def name : BirdMode → String
  | .flying => "flying"
  | .attacking => "attacking"
  | .grabbing => "grabbing"

/-- The mode that a text names: neither blanks around the name nor the case of its letters count. -/
def ofText (s : String) : Except Fault BirdMode :=
  match Text.lowerAscii (Text.trim s) with
  | "flying" => .ok .flying
  | "attacking" => .ok .attacking
  | "grabbing" => .ok .grabbing
  | t => .error (.unknownBirdMode t)

end BirdMode

/-! ### Birds and states -/

/-- The bird of a state. -/
structure Bird where
  /-- The level of the bird, independent of the level of its state. -/
  level : Option Level := none
  /-- The position of the bird, independent of the position of its state. -/
  position : Option Position := none
  mode : BirdMode := .flying
  deriving DecidableEq, Repr

/-- The cell on which the bird is seen, when both of its coordinates are set. -/
def Bird.cell? (b : Bird) : Option (Level × Position) :=
  match b.level, b.position with
  | some l, some p => some (l, p)
  | _, _ => none

/-- A node of the state table. -/
structure State where
  /-- The name of the state, which never changes. -/
  key : StateKey
  bird : Bird := {}
  deriving DecidableEq, Repr

namespace State

/-- A new state, whose bird is unset and flying. -/
def fresh (key : StateKey) : State := { key }

/-- Whether the state belongs to the permanent grid. -/
def isBase (s : State) : Bool := s.key.variant.isBase

/-- Whether the bird is visible. -/
def hasBird (s : State) : Bool := s.bird.cell?.isSome

end State

/-! ### Patches -/

/-- A partial update of a bird. -/
structure BirdPatch where
  /-- The new level if it changes; `none` inside unsets it. -/
  level : Option (Option Level) := none
  /-- The new position if it changes; `none` inside unsets it. -/
  position : Option (Option Position) := none
  mode : Option BirdMode := none
  deriving DecidableEq, Repr

namespace BirdPatch

/-- Puts the bird on a cell. -/
def place (level : Level) (position : Position) : BirdPatch :=
  { level := some (some level), position := some (some position) }

/-- Takes the bird off the board. -/
def clear : BirdPatch := { level := some none, position := some none }

/-- Also sets the mode. -/
def withMode (p : BirdPatch) (mode : BirdMode) : BirdPatch := { p with mode := some mode }

/-- The bird after the patch: each given field replaces the old value. -/
def apply (p : BirdPatch) (b : Bird) : Bird :=
  { level := p.level.getD b.level
    position := p.position.getD b.position
    mode := p.mode.getD b.mode }

end BirdPatch

end BirdBoard
