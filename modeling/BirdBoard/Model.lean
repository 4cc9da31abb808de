import BirdBoard.Transition

/-! # Models and edits

  A model is a registry of states with the edges between them. Six commands change it; each answers with a value that
  tells whether it was refused, and a refused command leaves the model as it was.

  `Edit` writes a command down as data, and `Model.run` carries out a list of them.
-/

namespace BirdBoard

/-- The states of a board and the edges between them. -/
structure Model where
  states : Registry
  transitions : TransitionSet
  deriving DecidableEq, Repr

namespace Model

/-- The model that holds the base grid and no edges. -/
def initial : Model := { states := .baseGrid, transitions := .empty }

/-! ### Commands -/

/-- Adds a state unless it is there; answers with the state of the key. -/
def addState (m : Model) (k : StateKey) : State × Model :=
  let (s, states) := m.states.insert k
  (s, { m with states })

/-- Adds the missing states of a variant; answers with their number. -/
def addGrid (m : Model) (v : Variant) : Nat × Model :=
  let (added, states) := m.states.insertGrid v
  (added, { m with states })

/-- Removes an overlay state and every edge at it; answers whether there was such a state. -/
def removeState (m : Model) (k : StateKey) : Bool × Model :=
  match m.states.erase? k with
  | some states => (true, { states, transitions := m.transitions.eraseTouching k })
  | none => (false, m)

/-- Updates the bird of a state; answers whether there was such a state. -/
def updateBird (m : Model) (k : StateKey) (p : BirdPatch) : Bool × Model :=
  match m.states.patch? k p with
  | some states => (true, { m with states })
  | none => (false, m)

/-- Adds an edge; answers with it, or with nothing when it is refused. -/
def addTransition (m : Model) (id : TransitionId) (label : Option String) : Option Transition × Model :=
  match m.transitions.draft? m.states id label with
  | some t => (some t, { m with transitions := m.transitions.push t })
  | none => (none, m)

/-- Removes an edge; answers whether there was such an edge. -/
def removeTransition (m : Model) (id : TransitionId) : Bool × Model :=
  match m.transitions.erase? id with
  | some transitions => (true, { m with transitions })
  | none => (false, m)

end Model

/-! ### Edits as data -/

/-- A command with its arguments. -/
inductive Edit where
  | addState (key : StateKey)
  /-- Adds the full grid of a variant. -/
  | addGrid (variant : Variant)
  /-- Removes an overlay state and the edges at it. -/
  | removeState (key : StateKey)
  | updateBird (key : StateKey) (patch : BirdPatch)
  | addTransition (id : TransitionId) (label : Option String)
  | removeTransition (id : TransitionId)
  deriving DecidableEq, Repr

namespace Model

/-- The model after one edit. -/
def edit (m : Model) : Edit → Model
  | .addState k => (m.addState k).2
  | .addGrid v => (m.addGrid v).2
  | .removeState k => (m.removeState k).2
  | .updateBird k p => (m.updateBird k p).2
  | .addTransition id label => (m.addTransition id label).2
  | .removeTransition id => (m.removeTransition id).2

/-- The model after a list of edits, carried out from left to right. -/
def run (m : Model) (edits : List Edit) : Model := edits.foldl edit m

/-- Edits in two parts are carried out part by part. -/
theorem run_append (m : Model) (es fs : List Edit) : m.run (es ++ fs) = (m.run es).run fs :=
  List.foldl_append

end Model

end BirdBoard
