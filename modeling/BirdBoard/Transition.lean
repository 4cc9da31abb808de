import BirdBoard.Axis
import BirdBoard.Registry

/-! # Transitions

  Directed edges between states, at most one for each ordered pair of keys, in the order of their insertion. An edge
  keeps the axis that it was given when it was made, and a label that is never empty.

  - `TransitionSet.draft?` says which edge an insertion would add; it refuses loops, duplicates and unknown ends.
  - Edges refer to states by key, so removing a state takes the edges at it along (`eraseTouching`).
-/

namespace BirdBoard

/-! ### Names of edges -/

/-- The name of an edge: its two ends, in order. -/
structure TransitionId where
  /-- The state that the edge leaves. -/
  source : StateKey
  /-- The state that the edge enters. -/
  target : StateKey
  deriving DecidableEq, Repr

namespace TransitionId

/-- Whether a key is one of the two ends. -/
def touches (id : TransitionId) (k : StateKey) : Bool := id.source == k || id.target == k

/-- The dashed texts of the two ends, joined by an arrow. -/
def text (id : TransitionId) : String := id.source.dashed ++ "→" ++ id.target.dashed

/-- The number of names that come before this one: sources first, then targets. -/
def rank (id : TransitionId) : Nat := id.source.rank * 90 + id.target.rank

/-- Sorts names in ascending order; equal names stay. -/
def sort (ids : List TransitionId) : List TransitionId := ids.mergeSort fun a b => a.rank ≤ b.rank

end TransitionId

/-! ### Edges -/

/-- An edge with its axis and its label. -/
structure Transition where
  id : TransitionId
  axis : Axis
  /-- The text shown at the edge. -/
  label : String
  deriving DecidableEq, Repr

/-- A new edge: its axis is read off its ends, and the axis icon stands in for a missing or empty label. -/
def Transition.make (id : TransitionId) (label : Option String) : Transition :=
  let axis := Axis.between id.source id.target
  { id, axis, label := (label.filter (!·.isEmpty)).getD axis.icon }

/-- A new edge bears the name that it was made for. -/
@[simp] theorem Transition.id_make (id : TransitionId) (label : Option String) : (make id label).id = id := rfl

/-- The label of a new edge is the given text; a missing and an empty one leave the icon. -/
theorem Transition.label_make (id : TransitionId) (label : Option String) :
    (make id label).label =
      match label with
      | some text => if text = "" then (Axis.between id.source id.target).icon else text
      | none => (Axis.between id.source id.target).icon := by
  cases label with
  | none => rfl
  | some text =>
    by_cases h : text = ""
    · subst h
      rfl
    · have hgiven : text.isEmpty = false := by simpa using h
      simp [make, Option.filter, hgiven, h]

/-- So it is never empty. -/
theorem Transition.label_make_ne (id : TransitionId) (label : Option String) : (make id label).label ≠ "" := by
  have icon (a : Axis) : a.icon ≠ "" := by cases a <;> decide
  rw [label_make]
  cases label with
  | none => exact icon _
  | some text =>
    dsimp only
    split
    · exact icon _
    · assumption

/-- Edges in insertion order. -/
structure TransitionSet where
  /-- The edges, oldest first. -/
  edges : List Transition
  deriving DecidableEq, Repr

namespace TransitionSet

/-- No edges. -/
def empty : TransitionSet := { edges := [] }

/-! ### Queries -/

/-- The edge between an ordered pair of keys. -/
def get? (ts : TransitionSet) (id : TransitionId) : Option Transition := ts.edges.find? (·.id == id)

/-- Whether an ordered pair of keys has an edge. -/
def contains (ts : TransitionSet) (id : TransitionId) : Bool := ts.edges.any (·.id == id)

/-- The edges that leave a key. -/
def outgoing (ts : TransitionSet) (k : StateKey) : List Transition := ts.edges.filter (·.id.source == k)

/-- The edges that enter a key. -/
def incoming (ts : TransitionSet) (k : StateKey) : List Transition := ts.edges.filter (·.id.target == k)

/-- The edges at a key, in either direction. -/
def touching (ts : TransitionSet) (k : StateKey) : List Transition := ts.edges.filter (·.id.touches k)

/-- The edges of one axis. -/
def ofAxis (ts : TransitionSet) (a : Axis) : List Transition := ts.edges.filter (·.axis == a)

/-- The number of edges. -/
def size (ts : TransitionSet) : Nat := ts.edges.length

/-! ### Changes -/

/-- The edge that an insertion would add: nothing for a loop, for a pair that has an edge, and for an end without a
state. -/
def draft? (ts : TransitionSet) (r : Registry) (id : TransitionId) (label : Option String) : Option Transition :=
  if id.source == id.target || ts.contains id || !r.contains id.source || !r.contains id.target then none
  else some (Transition.make id label)

/-- Adds an edge at the end. -/
def push (ts : TransitionSet) (t : Transition) : TransitionSet := { edges := ts.edges ++ [t] }

/-- Removes the edge of an ordered pair: the first one that bears it. Pairs without an edge are refused. -/
def erase? (ts : TransitionSet) (id : TransitionId) : Option TransitionSet :=
  (ts.edges.findIdx? (·.id == id)).map fun i => { edges := ts.edges.eraseIdx i }

/-- Removes every edge at a key. -/
def eraseTouching (ts : TransitionSet) (k : StateKey) : TransitionSet :=
  { edges := ts.edges.filter fun t => !t.id.touches k }

end TransitionSet

end BirdBoard
