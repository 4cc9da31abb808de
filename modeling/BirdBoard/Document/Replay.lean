import BirdBoard.Document
import BirdBoard.Model

/-! # Replaying documents

  A document is replayed intent by intent. Each intent is checked against the model that the intents before it have
  left, and turned into edits; only when all of it is in order are its edits carried out.

  - The first intent that is not in order stops the replay. What was done before it stays done.
  - An edit that the model refuses is no fault: the replay goes on.
-/

namespace BirdBoard

/-- The key of a state that the model holds. -/
def Model.resolve (m : Model) (label : String) : Except Fault StateKey := do
  let k ← StateKey.ofLabel label
  if m.states.contains k then return k else throw (.unknownState label)

/-- Checks a raw coordinate if it is given. -/
def checkGiven {α : Type} (check : UInt8 → Except Fault α) : Option UInt8 → Except Fault (Option α)
  | some b => (check b).map some
  | none => .ok none

/-! ### Intents -/

/-- The patch that a bird entry asks for. -/
def BirdEntry.patch (e : BirdEntry) : Except Fault BirdPatch := do
  let level ← checkGiven Level.ofByte e.level
  let position ← checkGiven Position.ofByte e.position
  return { level := level.map some, position := position.map some, mode := e.mode }

/-- Takes the bird off the board and sets it to flying. -/
def BirdPatch.reset : BirdPatch := BirdPatch.clear.withMode .flying

/-- The edits of an intent on a model, or the first thing in it that is not in order. -/
def Intent.edits (m : Model) : Intent → Except Fault (List Edit)
  | .addGrid v => .ok [.addGrid v]
  | .addState e => do
    let k ← StateKey.ofBytes e.level e.position e.variant
    return [.addState k]
  | .changeBird e => do
    let k ← m.resolve e.state
    let p ← e.patch
    return if e.clear then [.updateBird k BirdPatch.reset, .updateBird k p] else [.updateBird k p]
  | .addTransition e => do
    let source ← m.resolve e.source
    let target ← m.resolve e.target
    return [.addTransition { source, target } e.label]
  | .removeTransition e => do
    let source ← StateKey.ofLabel e.source
    let target ← StateKey.ofLabel e.target
    return [.removeTransition { source, target }]
  | .removeState label => do
    let k ← StateKey.ofLabel label
    return [.removeState k]

/-! ### Documents -/

/-- Replays intents in order: the model that is left, and the fault that stopped the replay, if any. -/
def Model.replay (m : Model) : List Intent → Model × Option Fault
  | [] => (m, none)
  | i :: is =>
    match i.edits m with
    | .ok edits => replay (m.run edits) is
    | .error f => (m, some f)

/-- Intents in two parts are replayed part by part, the second part only if nothing stops the first. -/
theorem Model.replay_append (m : Model) (is js : List Intent) :
    m.replay (is ++ js) =
      match m.replay is with
      | (m', none) => m'.replay js
      | stopped => stopped := by
  induction is generalizing m with
  | nil => rfl
  | cons i is ih =>
    simp only [List.cons_append, replay]
    split
    · exact ih _
    · rfl

/-- Replays a document on a model. -/
def Document.apply (d : Document) (m : Model) : Model × Option Fault := m.replay d.intents

/-- The model that a document builds from the base grid. -/
def Document.build (d : Document) : Except Fault Model :=
  match d.apply Model.initial with
  | (m, none) => .ok m
  | (_, some f) => .error f

end BirdBoard
