import BirdBoard.Model

/-! # The stylesheet

  The static stylesheet of a board. Three groups of hidden radio buttons select a level, a position and a variant; for
  every state with a visible bird one rule shows the bird and puts it on its cell. Edges add nothing but comments on
  switches of the variant.

  A stylesheet is a list of lines, and its text ends every line with a newline. Its parts stand in this order: a header
  with the counts, the fixed scaffolding, the bird rules in registry order, the notes on variant switches if there is
  any such edge, and the keyframes of the grab animation.
-/

namespace BirdBoard

/-- The counts of a model. -/
structure Summary where
  states : Nat
  /-- The number of states with a visible bird. -/
  birdStates : Nat
  transitions : Nat
  deriving DecidableEq, Repr

/-- Counts states and edges, which need not belong together. -/
def Summary.of (r : Registry) (ts : TransitionSet) : Summary :=
  { states := r.size, birdStates := r.withBird.length, transitions := ts.size }

namespace Stylesheet

/-! ### Header and scaffolding -/

/-- The rule of 54 double strokes above and below the title. -/
def banner : String := String.ofList (List.replicate 54 '═')

/-- The title comment with the counts. -/
def header (s : Summary) : List String :=
  ["/* " ++ banner,
    "   ROOFVOGEL NPC — GEGENEREERDE CSS",
    "   Drie-assen model: Level × Positie × Variant",
    "   States met vogel: " ++ toString s.birdStates ++ " / " ++ toString s.states,
    "   Transitions: " ++ toString s.transitions,
    "   " ++ banner ++ " */",
    ""]

/-- The rules that hide the radio buttons and the bird. -/
def scaffolding : List String :=
  ["/* --- Radiogroepen (verborgen) --- */",
    "input[name=\"level\"],",
    "input[name=\"position\"],",
    "input[name=\"variant\"] \x7b display: none; \x7d",
    "",
    "/* --- Vogel basis --- */",
    ".bird \x7b display: none; position: absolute; \x7d",
    "",
    "/* --- Vogel positionering per state --- */"]

/-! ### Bird rules -/

/-- The line that opens the rule of a state: the bird is shown while the three radio buttons of the state are
checked. -/
def selector (k : StateKey) : String :=
  "#level-" ++ k.level.text ++ ":checked ~ #pos-" ++ k.position.text ++ ":checked ~ #var-" ++ k.variant.name ++
    ":checked ~ .game-board .bird \x7b"

/-- The rule for a bird on a cell: a comment, the selector, the declarations and a blank line. Only a grabbing bird is
animated. -/
def cellRule (k : StateKey) (level : Level) (position : Position) (grabbing : Bool) : List String :=
  ["/* " ++ k.fullLabel ++ " → vogel op L" ++ level.text ++ " P" ++ position.text ++ " " ++
      (if grabbing then "⚠ GEVAAR" else "") ++ " */",
    selector k,
    "  display: block;",
    "  grid-column: " ++ toString position.gridColumn ++ ";",
    "  grid-row: " ++ toString level.gridRow ++ ";"] ++
  (if grabbing then ["  animation: bird-grab 0.3s ease-in-out;"] else []) ++
  ["\x7d", ""]

/-- The rule of a state; none while its bird is not visible. -/
def birdRule (s : State) : List String :=
  match s.bird.cell? with
  | some (level, position) => cellRule s.key level position (s.bird.mode == .grabbing)
  | none => []

/-! ### Notes on variant switches -/

/-- The heading of the notes. -/
def notesHeading : String := "/* --- Variant-wisselende navigatielabels --- */"

/-- The note on one edge: its short labels, then the names of its variants. -/
def note (id : TransitionId) : List String :=
  ["/* " ++ id.source.shortLabel ++ " ⟳ " ++ id.target.shortLabel ++ " — onzichtbaar voor speler */",
    "/* Label verandert variant-radio van \"" ++ id.source.variant.name ++ "\" naar \"" ++ id.target.variant.name ++
      "\" */",
    ""]

/-- The notes on the edges that switch the variant. Such an edge brings the heading even if an end of it has no
state, but then it brings no note. -/
def notes (r : Registry) (ts : TransitionSet) : List String :=
  match ts.ofAxis .variant with
  | [] => []
  | switches =>
    notesHeading ::
      (switches.filter fun t => r.contains t.id.source && r.contains t.id.target).flatMap fun t => note t.id

/-! ### The whole -/

/-- The grab animation. -/
def keyframes : List String :=
  ["@keyframes bird-grab \x7b",
    "  0% \x7b transform: scale(1); \x7d",
    "  50% \x7b transform: scale(1.3) translateY(10px); \x7d",
    "  100% \x7b transform: scale(1); \x7d",
    "\x7d"]

/-- The lines of the stylesheet of a registry and of edges that need not belong to it. -/
def lines (r : Registry) (ts : TransitionSet) : List String :=
  header (Summary.of r ts) ++ scaffolding ++ r.withBird.flatMap birdRule ++ notes r ts ++ keyframes

/-- Ends every line with a newline. -/
def unlines (ls : List String) : String := String.join (ls.map (· ++ "\n"))

/-- Lines in two parts make a text in two parts. -/
theorem unlines_append (as bs : List String) : unlines (as ++ bs) = unlines as ++ unlines bs := by
  simp [unlines, String.join_append]

/-- The stylesheet of a registry and of edges that need not belong to it. -/
def compile (r : Registry) (ts : TransitionSet) : String := unlines (lines r ts)

end Stylesheet

namespace Model

/-- The counts of a model. -/
def summary (m : Model) : Summary := Summary.of m.states m.transitions

/-- The stylesheet of a model. -/
def stylesheet (m : Model) : String := Stylesheet.compile m.states m.transitions

end Model

end BirdBoard
