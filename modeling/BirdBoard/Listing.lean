import BirdBoard.Json.Board
import BirdBoard.Text.Column

/-! # Listings

  Tables and JSON lists of the states and the edges of a model, each with two filters that can be combined.

  - A table begins with a line of headings, and its columns are aligned by character count. An unset coordinate of a
    bird is a dash.
  - A JSON list is in the pretty form and ends in a newline.
-/

namespace BirdBoard

/-! ### States -/

/-- Which states are listed. -/
structure StateFilter where
  /-- Only the states of this variant. -/
  variant : Option Variant := none
  /-- Only the states with a visible bird. -/
  birdsOnly : Bool := false
  deriving DecidableEq, Repr

namespace StateFilter

/-- Whether a state is listed. -/
def accepts (f : StateFilter) (s : State) : Bool :=
  f.variant.all (s.key.variant == ·) && (!f.birdsOnly || s.hasBird)

/-- The listed states, in the order of the registry. -/
def select (f : StateFilter) (m : Model) : List State := m.states.states.filter f.accepts

end StateFilter

/-- The widths of the columns of the table of states, without the last. -/
def stateWidths : List Nat := [10, 8, 10, 6, 6]

/-- The headings of the table of states. -/
def stateHeadings : List String := ["STATE", "VARIANT", "SPELER", "B.LVL", "B.POS", "MODE"]

/-- The cells of a state. -/
def State.cells (s : State) : List String :=
  [s.key.shortLabel, s.key.variant.name, s.key.displayLabel, (s.bird.level.map Level.text).getD "-",
    (s.bird.position.map Position.text).getD "-", s.bird.mode.name]

/-- The lines of the table of states. -/
def stateTable (states : List State) : List String :=
  (stateHeadings :: states.map State.cells).map (Text.row stateWidths)

/-! ### Edges -/

/-- Which edges are listed. -/
structure TransitionFilter where
  /-- Only the edges at this state. -/
  state : Option StateKey := none
  /-- Only the edges of this axis. -/
  axis : Option Axis := none
  deriving DecidableEq, Repr

namespace TransitionFilter

/-- Whether an edge is listed. -/
def accepts (f : TransitionFilter) (t : Transition) : Bool := f.state.all t.id.touches && f.axis.all (t.axis == ·)

/-- The listed edges, in the order of their insertion. -/
def select (f : TransitionFilter) (m : Model) : List Transition := m.transitions.edges.filter f.accepts

end TransitionFilter

/-- The widths of the columns of the table of edges, without the last. -/
def transitionWidths : List Nat := [10, 10, 9, 8]

/-- The headings of the table of edges. -/
def transitionHeadings : List String := ["FROM", "TO", "AXIS", "COLOR", "LABEL"]

/-- The cells of an edge. -/
def Transition.cells (t : Transition) : List String :=
  [t.id.source.shortLabel, t.id.target.shortLabel, t.axis.icon ++ " " ++ t.axis.name, t.axis.color, t.label]

/-- The lines of the table of edges. -/
def transitionTable (edges : List Transition) : List String :=
  (transitionHeadings :: edges.map Transition.cells).map (Text.row transitionWidths)

/-! ### Texts -/

/-- The text of a list as pretty JSON. -/
def jsonListing (items : List Json.Value) : String := (Json.Value.array items).prettyText ++ "\n"

/-- The listing of the states that a filter accepts. -/
def Model.stateListing (m : Model) (f : StateFilter) (json : Bool) : String :=
  let states := f.select m
  if json then jsonListing (states.map State.json) else Stylesheet.unlines (stateTable states)

/-- The listing of the edges that a filter accepts. -/
def Model.transitionListing (m : Model) (f : TransitionFilter) (json : Bool) : String :=
  let edges := f.select m
  if json then jsonListing (edges.map Transition.json) else Stylesheet.unlines (transitionTable edges)

end BirdBoard
