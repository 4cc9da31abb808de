import BirdBoard.State

/-! # Authoring documents

  A document is not a picture of a model but a list of intents in six sections. Labels in it are texts and numbers are
  raw bytes: both are checked when the document is replayed.
-/

namespace BirdBoard

/-- A state to add. -/
structure StateEntry where
  level : UInt8
  position : UInt8
  variant : Variant
  deriving DecidableEq, Repr

/-- Changes to the bird of a state. What is not given stays as it is. -/
structure BirdEntry where
  state : String
  /-- Whether the bird is taken off the board and set to flying first. -/
  clear : Bool := false
  level : Option UInt8 := none
  position : Option UInt8 := none
  mode : Option BirdMode := none
  deriving DecidableEq, Repr

/-- An edge to add. -/
structure TransitionEntry where
  source : String
  target : String
  label : Option String := none
  deriving DecidableEq, Repr

/-- The ends of an edge to remove. -/
structure EndpointPair where
  source : String
  target : String
  deriving DecidableEq, Repr

/-- Intents in six sections. -/
structure Document where
  /-- Variants whose full grid is added. -/
  variants : List Variant := []
  states : List StateEntry := []
  birds : List BirdEntry := []
  transitions : List TransitionEntry := []
  removeTransitions : List EndpointPair := []
  /-- Short labels of states to remove. -/
  removeStates : List String := []
  deriving DecidableEq, Repr

/-- One entry of a document. -/
inductive Intent where
  | addGrid (variant : Variant)
  | addState (entry : StateEntry)
  | changeBird (entry : BirdEntry)
  | addTransition (entry : TransitionEntry)
  | removeTransition (entry : EndpointPair)
  | removeState (label : String)
  deriving DecidableEq, Repr

/-- The entries of all sections, section by section. -/
def Document.intents (d : Document) : List Intent :=
  d.variants.map .addGrid ++ d.states.map .addState ++ d.birds.map .changeBird ++ d.transitions.map .addTransition ++
    d.removeTransitions.map .removeTransition ++ d.removeStates.map .removeState

end BirdBoard
