import BirdBoard.Proofs.Replay.Fixpoint

/-! # The order of independent entries

  Two documents that list the same entries in another order build the same board, as long as birds and new edges keep
  their order.

  - `Document.Reordered` relates the documents. What they ask for is then the same, up to the order of the keys
    (`Reordered.wantedKeys_perm`, `Reordered.mem_removedOverlays`).
  - `Document.build_reordered`: both documents build or neither does. The models have the same edges in the same order
    and the same states, which keep their order too if only removals have changed places.
-/

namespace BirdBoard

namespace Document

/-! ### Reordered documents -/

/-- Two documents with the same entries, which may have changed places within the sections that add states and within
those that remove something. -/
structure Reordered (d e : Document) : Prop where
  variants : d.variants.Perm e.variants
  states : d.states.Perm e.states
  birds : d.birds = e.birds
  transitions : d.transitions = e.transitions
  removeTransitions : d.removeTransitions.Perm e.removeTransitions
  removeStates : d.removeStates.Perm e.removeStates

namespace Reordered

variable {d e : Document} {m : Model}

theorem intents_perm (h : d.Reordered e) : d.intents.Perm e.intents := by
  rw [Document.intents, Document.intents, h.birds, h.transitions]
  exact ((((h.variants.map _).append (h.states.map _)).append_right _).append_right _).append
    (h.removeTransitions.map _) |>.append (h.removeStates.map _)

theorem wantedKeys_perm (h : d.Reordered e) : d.wantedKeys.Perm e.wantedKeys :=
  (h.variants.flatMap_right _).append (h.states.filterMap _)

theorem mem_removedPairs (h : d.Reordered e) {id : TransitionId} : id ∈ d.removedPairs ↔ id ∈ e.removedPairs :=
  (h.removeTransitions.filterMap _).mem_iff

theorem mem_removedOverlays (h : d.Reordered e) {k : StateKey} : k ∈ d.removedOverlays ↔ k ∈ e.removedOverlays :=
  ((h.removeStates.filterMap _).filter _).mem_iff

/-- An entry passes its checks on the stage of the one document exactly if it does on the stage of the other. -/
theorem edits_stage (h : d.Reordered e) (m : Model) (i : Intent) : i.edits (d.stage m) = i.edits (e.stage m) := by
  apply Intent.edits_congr
  intro k
  rw [mem_keys_stage, mem_keys_stage, h.wantedKeys_perm.mem_iff]

/-! ### Reordered outcomes -/

theorem outcomeEdges (h : d.Reordered e) (ts : List Transition) : d.outcomeEdges ts = e.outcomeEdges ts := by
  simp only [Document.outcomeEdges, h.transitions, h.mem_removedPairs, h.mem_removedOverlays]

/-- What the removals and the birds make of a list of states does not depend on the order of the removals. -/
theorem outcomeStates_eq (h : d.Reordered e) (hkeys : d.wantedKeys = e.wantedKeys) (ss : List State) :
    d.outcomeStates ss = e.outcomeStates ss := by
  simp only [Document.outcomeStates, entriesFor, hkeys, h.birds, h.mem_removedOverlays]

theorem outcomeStates_perm (h : d.Reordered e) {ss : List State} (hss : (ss.map State.key).Nodup) :
    (d.outcomeStates ss).Perm (e.outcomeStates ss) := by
  -- New states are told apart by their keys.
  have hfresh : ∀ s ∈ d.wantedKeys.map State.fresh, ∀ t ∈ d.wantedKeys.map State.fresh, s.key = t.key → s = t := by
    intro s hs t ht hkey
    obtain ⟨k, _, rfl⟩ := List.mem_map.mp hs
    obtain ⟨j, _, rfl⟩ := List.mem_map.mp ht
    exact congrArg State.fresh hkey
  simp only [Document.outcomeStates, entriesFor, h.birds, h.mem_removedOverlays]
  exact ((perm_appendNew hfresh hss (h.wantedKeys_perm.map _)).filter _).map _

end Reordered

/-- **The order of independent entries does not matter.** Of two documents that differ in the order of the entries in
the sections that add states and in those that remove something, both build a model or neither does. The two models have
the same list of edges, with the same axes and labels, and the same states with the same birds; the states are in the
same order too if only removals have changed places. -/
theorem build_reordered {d e : Document} (h : d.Reordered e) :
    ((∃ m, d.build = .ok m) ↔ ∃ n, e.build = .ok n) ∧
    ∀ m n, d.build = .ok m → e.build = .ok n →
      m.transitions.edges = n.transitions.edges ∧ m.states.states.Perm n.states.states ∧
      (d.variants = e.variants → d.states = e.states → m = n) := by
  simp only [build_eq_ok_iff, apply_eq_outcome_iff Model.Legal.initial]
  refine ⟨?_, ?_⟩
  · -- Whether a document builds is a matter of its entries, each on its own.
    simp only [exists_and_left, exists_eq, and_true, h.intents_perm.mem_iff, h.edits_stage]
  · rintro m n ⟨_, rfl⟩ ⟨_, rfl⟩
    refine ⟨h.outcomeEdges _, h.outcomeStates_perm Model.Legal.initial.keys_nodup, ?_⟩
    intro hvariants hstates
    have hkeys : d.wantedKeys = e.wantedKeys := by rw [wantedKeys, wantedKeys, hvariants, hstates]
    rw [outcome, outcome, h.outcomeStates_eq hkeys, h.outcomeEdges]

/-- Overlay states that come twice, and removals of states and of an edge. -/
def tidy : Document where
  variants := [.zeta, .eta]
  states := [⟨0, 13, .zeta⟩, ⟨4, 18, .eta⟩]
  birds := [{ state := "ζL0P13", level := some 2, position := some 15 }]
  transitions :=
    [⟨"L0P13", "ζL0P13", some "in"⟩, ⟨"ζL0P13", "ηL0P13", none⟩, ⟨"ηL0P13", "L0P13", none⟩, ⟨"L0P13", "L0P14", none⟩]
  removeTransitions := [⟨"L0P13", "L0P14"⟩, ⟨"L0P14", "L0P13"⟩]
  removeStates := ["ηL0P13", "L0P13", "ηL4P18"]

/-- The same entries with those of four sections in reverse. -/
def shuffled : Document :=
  { tidy with
    variants := tidy.variants.reverse
    states := tidy.states.reverse
    removeTransitions := tidy.removeTransitions.reverse
    removeStates := tidy.removeStates.reverse }

/-- The two orders build models that differ, but only in the order of their states. -/
theorem build_reordered_shuffled :
    tidy.build = .ok (tidy.apply Model.initial).1 ∧ shuffled.build = .ok (shuffled.apply Model.initial).1 ∧
      (tidy.apply Model.initial).1 ≠ (shuffled.apply Model.initial).1 ∧
      (tidy.apply Model.initial).1.transitions.edges = (shuffled.apply Model.initial).1.transitions.edges ∧
      (tidy.apply Model.initial).1.states.states.Perm (shuffled.apply Model.initial).1.states.states := by
  have htidy : tidy.build = .ok (tidy.apply Model.initial).1 := build_of_noFault (by decide +kernel)
  have hshuffled : shuffled.build = .ok (shuffled.apply Model.initial).1 := build_of_noFault (by decide +kernel)
  have hreordered : tidy.Reordered shuffled :=
    ⟨(List.reverse_perm _).symm, (List.reverse_perm _).symm, rfl, rfl, (List.reverse_perm _).symm,
      (List.reverse_perm _).symm⟩
  obtain ⟨hedges, hstates, _⟩ := (build_reordered hreordered).2 _ _ htidy hshuffled
  exact ⟨htidy, hshuffled, by decide +kernel, hedges, hstates⟩

end Document

end BirdBoard
