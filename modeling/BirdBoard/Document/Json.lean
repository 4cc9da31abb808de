import BirdBoard.Document
import BirdBoard.Json.Board

/-! # The JSON form of documents

  A document and its entries as JSON, both ways.

  - Every record refuses members that it does not know. The sections of a document, and the optional members of an
    entry, may be left out; null stands for an optional member of an entry that is not given.
  - Writing leaves out what has its default in an entry, but always writes all six sections.
  - `Document.ofBytes` reads bytes. Where they stop being UTF-8 the text ends, and it is malformed unless something was
    wrong with it before.
-/

namespace BirdBoard

open Json

/-! ### States -/

/-- The JSON form of a state entry. -/
def StateEntry.json (e : StateEntry) : Value :=
  .object [("level", .nat e.level.toNat), ("position", .nat e.position.toNat), ("variant", e.variant.json)]

/-- The fields of a state entry that have been read. -/
structure StateEntry.Draft where
  level : Option UInt8 := none
  position : Option UInt8 := none
  variant : Option Variant := none

/-- How a state entry is read. -/
def StateEntry.record : Record StateEntry.Draft StateEntry where
  name := "StateDoc"
  fields :=
    [.of "level" true Decoder.byte fun a s => { s with level := some a },
      .of "position" true Decoder.byte fun a s => { s with position := some a },
      .of "variant" true Variant.decoder fun a s => { s with variant := some a }]
  lenient := false
  start := {}
  finish s := do
    let level ← require "level" s.level
    let position ← require "position" s.position
    let variant ← require "variant" s.variant
    return { level, position, variant }

/-- Reads a state entry. -/
def StateEntry.decoder : Decoder StateEntry := StateEntry.record.decoder

/-! ### Birds -/

/-- A member for a value that is given, and none otherwise. -/
def memberIfGiven {α : Type} (name : String) (f : α → Value) : Option α → List (String × Value)
  | some a => [(name, f a)]
  | none => []

/-- The JSON form of a raw byte. -/
def byteJson (b : UInt8) : Value := .nat b.toNat

/-- The JSON form of a bird entry. -/
def BirdEntry.json (e : BirdEntry) : Value :=
  .object ([("state", .string e.state)] ++ (if e.clear then [("clear", .bool true)] else []) ++
    memberIfGiven "level" byteJson e.level ++ memberIfGiven "position" byteJson e.position ++
    memberIfGiven "mode" BirdMode.json e.mode)

/-- The fields of a bird entry that have been read. -/
structure BirdEntry.Draft where
  state : Option String := none
  clear : Bool := false
  level : Option UInt8 := none
  position : Option UInt8 := none
  mode : Option BirdMode := none

/-- How a bird entry is read. -/
def BirdEntry.record : Record BirdEntry.Draft BirdEntry where
  name := "BirdDoc"
  fields :=
    [.of "state" true Decoder.text fun a s => { s with state := some a },
      .of "clear" false Decoder.flag fun a s => { s with clear := a },
      .of "level" false (Decoder.optional Decoder.byte) fun a s => { s with level := a },
      .of "position" false (Decoder.optional Decoder.byte) fun a s => { s with position := a },
      .of "mode" false (Decoder.optional BirdMode.decoder) fun a s => { s with mode := a }]
  lenient := false
  start := {}
  finish s := do
    let state ← require "state" s.state
    return { state, clear := s.clear, level := s.level, position := s.position, mode := s.mode }

/-- Reads a bird entry. -/
def BirdEntry.decoder : Decoder BirdEntry := BirdEntry.record.decoder

/-! ### Edges -/

/-- The JSON form of an edge to add. -/
def TransitionEntry.json (e : TransitionEntry) : Value :=
  .object ([("from", .string e.source), ("to", .string e.target)] ++ memberIfGiven "label" Value.string e.label)

/-- The fields of an edge that have been read. -/
structure TransitionEntry.Draft where
  source : Option String := none
  target : Option String := none
  label : Option String := none

/-- How an edge to add is read. -/
def TransitionEntry.record : Record TransitionEntry.Draft TransitionEntry where
  name := "TransitionDoc"
  fields :=
    [.of "from" true Decoder.text fun a s => { s with source := some a },
      .of "to" true Decoder.text fun a s => { s with target := some a },
      .of "label" false (Decoder.optional Decoder.text) fun a s => { s with label := a }]
  lenient := false
  start := {}
  finish s := do
    let source ← require "from" s.source
    let target ← require "to" s.target
    return { source, target, label := s.label }

/-- Reads an edge to add. -/
def TransitionEntry.decoder : Decoder TransitionEntry := TransitionEntry.record.decoder

/-- The JSON form of the ends of an edge to remove. -/
def EndpointPair.json (e : EndpointPair) : Value :=
  .object [("from", .string e.source), ("to", .string e.target)]

/-- The ends of an edge that have been read. -/
structure EndpointPair.Draft where
  source : Option String := none
  target : Option String := none

/-- How the ends of an edge to remove are read. -/
def EndpointPair.record : Record EndpointPair.Draft EndpointPair where
  name := "TransitionRefDoc"
  fields :=
    [.of "from" true Decoder.text fun a s => { s with source := some a },
      .of "to" true Decoder.text fun a s => { s with target := some a }]
  lenient := false
  start := {}
  finish s := do
    let source ← require "from" s.source
    let target ← require "to" s.target
    return { source, target }

/-- Reads the ends of an edge to remove. -/
def EndpointPair.decoder : Decoder EndpointPair := EndpointPair.record.decoder

/-! ### Documents -/

namespace Document

/-- The JSON form of a document. -/
def json (d : Document) : Value :=
  .object [("variants", .array (d.variants.map Variant.json)),
    ("states", .array (d.states.map StateEntry.json)),
    ("birds", .array (d.birds.map BirdEntry.json)),
    ("transitions", .array (d.transitions.map TransitionEntry.json)),
    ("remove_transitions", .array (d.removeTransitions.map EndpointPair.json)),
    ("remove_states", .array (d.removeStates.map Value.string))]

/-- How a document is read. All of its sections may be missing, so it is its own draft. -/
def record : Record Document Document where
  name := "ModelDocument"
  fields :=
    [.of "variants" false (Decoder.list Variant.decoder) fun a s => { s with variants := a },
      .of "states" false (Decoder.list StateEntry.decoder) fun a s => { s with states := a },
      .of "birds" false (Decoder.list BirdEntry.decoder) fun a s => { s with birds := a },
      .of "transitions" false (Decoder.list TransitionEntry.decoder) fun a s => { s with transitions := a },
      .of "remove_transitions" false (Decoder.list EndpointPair.decoder) fun a s => { s with removeTransitions := a },
      .of "remove_states" false (Decoder.list Decoder.text) fun a s => { s with removeStates := a }]
  lenient := false
  start := {}
  finish s := .ok s

/-- Reads a document. -/
def decoder : Decoder Document := record.decoder

/-- The compact JSON text of a document. -/
def text (d : Document) : String := d.json.text

/-- Reads the JSON text of a document. -/
def ofText (s : String) : Except ReadError Document := decoder.ofText s

/-- The longest prefix of bytes that is UTF-8. -/
def validPrefix (bytes : ByteArray) : String :=
  ((List.range (bytes.size + 1)).reverse.findSome? fun n => String.fromUTF8? (bytes.extract 0 n)).getD ""

/-- Reads the bytes of the JSON text of a document. -/
def ofBytes (bytes : ByteArray) : Except ReadError Document :=
  match String.fromUTF8? bytes with
  | some s => ofText s
  | none =>
    match ofText (validPrefix bytes) with
    | .error e => .error e
    | .ok _ => .error .malformed

end Document

end BirdBoard
