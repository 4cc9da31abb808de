import BirdBoard.Json.Decoder
import BirdBoard.Json.Value
import BirdBoard.Stylesheet

/-! # The JSON forms of board data

  How coordinates, keys, names of edges, states, edges and counts are written as JSON, and how those of them that are
  ever read are read.

  - Levels and positions are bare numbers, and variants, modes and axes are names. A variant may also be read from the
    Latin name of its glyph.
  - Keys and names of edges skip members that they do not know.
-/

namespace BirdBoard

open Json

/-! ### Coordinates -/

/-- The JSON form of a level. -/
def Level.json (l : Level) : Value := .nat l.val

/-- Reads a level: a byte on the board. -/
def Level.decoder : Decoder Level := Decoder.checked Level.ofByte

/-- The JSON form of a position. -/
def Position.json (p : Position) : Value := .nat p.val

/-- Reads a position: a byte on the board. -/
def Position.decoder : Decoder Position := Decoder.checked Position.ofByte

/-- The JSON form of a variant. -/
def Variant.json (v : Variant) : Value := .string v.name

/-- Reads a variant. -/
def Variant.decoder : Decoder Variant :=
  Decoder.choice [("normaal", .normal), ("zeta", .zeta), ("ζ", .zeta), ("eta", .eta), ("η", .eta)]

/-- The JSON form of a mode. -/
def BirdMode.json (m : BirdMode) : Value := .string m.name

/-- Reads a mode. -/
def BirdMode.decoder : Decoder BirdMode := Decoder.choice (BirdMode.all.map fun m => (m.name, m))

/-- The JSON form of an axis. -/
def Axis.json (a : Axis) : Value := .string a.name

/-- Reads an axis. -/
def Axis.decoder : Decoder Axis := Decoder.choice (Axis.all.map fun a => (a.name, a))

/-! ### Keys -/

/-- The members of the JSON form of a key. -/
def StateKey.members (k : StateKey) : List (String × Value) :=
  [("variant", k.variant.json), ("level", k.level.json), ("position", k.position.json)]

/-- The JSON form of a key. -/
def StateKey.json (k : StateKey) : Value := .object k.members

/-- The fields of a key that have been read. -/
structure StateKey.Draft where
  variant : Option Variant := none
  level : Option Level := none
  position : Option Position := none

/-- How a key is read. -/
def StateKey.record : Record StateKey.Draft StateKey where
  name := "StateKey"
  fields :=
    [.of "variant" true Variant.decoder fun a s => { s with variant := some a },
      .of "level" true Level.decoder fun a s => { s with level := some a },
      .of "position" true Position.decoder fun a s => { s with position := some a }]
  lenient := true
  start := {}
  finish s := do
    let variant ← require "variant" s.variant
    let level ← require "level" s.level
    let position ← require "position" s.position
    return { variant, level, position }

/-- Reads a key. -/
def StateKey.decoder : Decoder StateKey := StateKey.record.decoder

/-! ### Edges -/

/-- The JSON form of the name of an edge. -/
def TransitionId.json (id : TransitionId) : Value :=
  .object [("from", id.source.json), ("to", id.target.json)]

/-- The fields of the name of an edge that have been read. -/
structure TransitionId.Draft where
  source : Option StateKey := none
  target : Option StateKey := none

/-- How the name of an edge is read. -/
def TransitionId.record : Record TransitionId.Draft TransitionId where
  name := "TransitionId"
  fields :=
    [.of "from" true StateKey.decoder fun a s => { s with source := some a },
      .of "to" true StateKey.decoder fun a s => { s with target := some a }]
  lenient := true
  start := {}
  finish s := do
    let source ← require "from" s.source
    let target ← require "to" s.target
    return { source, target }

/-- Reads the name of an edge. -/
def TransitionId.decoder : Decoder TransitionId := TransitionId.record.decoder

/-- The JSON form of an edge. -/
def Transition.json (t : Transition) : Value :=
  .object [("id", t.id.json), ("axis", t.axis.json), ("label", .string t.label)]

/-! ### States and counts -/

/-- The JSON form of a state: the members of its key, then its bird. -/
def State.json (s : State) : Value :=
  .object (s.key.members ++
    [("bird_level", .ofOption Level.json s.bird.level),
      ("bird_position", .ofOption Position.json s.bird.position),
      ("bird_mode", s.bird.mode.json)])

/-- The JSON form of the counts. -/
def Summary.json (s : Summary) : Value :=
  .object [("states", .nat s.states), ("bird_states", .nat s.birdStates), ("transitions", .nat s.transitions)]

end BirdBoard
