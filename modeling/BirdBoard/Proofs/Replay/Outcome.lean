import Mathlib.Data.List.Induction
import BirdBoard.Proofs.Replay.Reading

/-! # The outcome of a replay

  What a document leaves of a model when no fault stops it, without a word on the order of its edits.

  - Birds: of the entries for a state only those from the last clearing one on count, and of what these give the last
    value of each field (`Bird.afterEntries`). The patches of the entries leave the same bird
    (`afterPatches_flatMap_patches`).
  - `Document.outcome` puts the two lists of the model together, and `run_readings` shows that the edits of a document
    leave it whenever the ends of its edges are registered.
  - `Document.apply_outcome` is the closed form of a replay that no fault stops.
-/

namespace BirdBoard

/-! ### Birds -/

/-- The entries from the last one on that clears the bird; all of them if none does. -/
def sinceClear : List BirdEntry → List BirdEntry
  | [] => []
  | e :: es => if es.any (·.clear) then sinceClear es else e :: es

/-- The last value that entries give. -/
def lastGiven {α : Type} (f : BirdEntry → Option α) (es : List BirdEntry) : Option α := (es.filterMap f).getLast?

/-- The bird that entries leave. A field that none of them gives is as after the clearing, or as before if there is
none. -/
def Bird.afterEntries (b : Bird) (es : List BirdEntry) : Bird :=
  let start : Bird := if es.any (·.clear) then { level := none, position := none, mode := .flying } else b
  { level := (lastGiven BirdEntry.level? (sinceClear es)).or start.level
    position := (lastGiven BirdEntry.position? (sinceClear es)).or start.position
    mode := (lastGiven BirdEntry.mode (sinceClear es)).getD start.mode }

theorem lastGiven_concat {α : Type} (f : BirdEntry → Option α) (es : List BirdEntry) (e : BirdEntry) :
    lastGiven f (es ++ [e]) = (f e).or (lastGiven f es) := by
  unfold lastGiven
  cases hf : f e <;> simp [hf]

theorem sinceClear_concat (es : List BirdEntry) (e : BirdEntry) :
    sinceClear (es ++ [e]) = if e.clear then [e] else sinceClear es ++ [e] := by
  induction es with
  | nil => simp [sinceClear]
  | cons x es ih =>
    rw [List.cons_append, sinceClear, ih]
    by_cases he : e.clear
    · simp [he]
    · by_cases hes : es.any (·.clear) <;> simp [sinceClear, he, hes]

/-- What an entry gives goes before what the bird has. -/
theorem BirdEntry.apply_given (e : BirdEntry) (b : Bird) :
    e.given.apply b =
      { level := e.level?.or b.level, position := e.position?.or b.position, mode := e.mode.getD b.mode } := by
  unfold BirdPatch.apply given
  cases e.level? <;> cases e.position? <;> rfl

/-- One more entry patches the bird once more. -/
theorem Bird.afterEntries_concat (b : Bird) (es : List BirdEntry) (e : BirdEntry) :
    b.afterEntries (es ++ [e]) = (b.afterEntries es).afterPatches e.patches := by
  by_cases he : e.clear
  · -- Nothing from before a clearing is left.
    have hpatches : (b.afterEntries es).afterPatches e.patches =
        e.given.apply { level := none, position := none, mode := .flying } := by
      rw [BirdEntry.patches, if_pos he]
      rfl
    rw [hpatches, BirdEntry.apply_given]
    simp [afterEntries, sinceClear_concat, he, lastGiven]
  · have hpatches : (b.afterEntries es).afterPatches e.patches = e.given.apply (b.afterEntries es) := by
      rw [BirdEntry.patches, if_neg he]
      rfl
    rw [hpatches, BirdEntry.apply_given]
    simp only [afterEntries, sinceClear_concat, he, List.any_append, List.any_cons, List.any_nil, Bool.or_false,
      Bool.false_eq_true, if_false, lastGiven_concat, Option.or_assoc]
    cases e.mode <;> rfl

/-- The patches of entries leave the bird that the entries leave. -/
theorem afterPatches_flatMap_patches (b : Bird) (es : List BirdEntry) :
    b.afterPatches (es.flatMap BirdEntry.patches) = b.afterEntries es := by
  induction es using List.reverseRecOn with
  | nil => simp [Bird.afterPatches, Bird.afterEntries, sinceClear, lastGiven]
  | append_singleton es e ih =>
    rw [Bird.afterEntries_concat, ← ih]
    simp [Bird.afterPatches]

/-- A second pass of the same entries changes nothing. -/
theorem Bird.afterEntries_afterEntries (b : Bird) (es : List BirdEntry) :
    (b.afterEntries es).afterEntries es = b.afterEntries es := by
  unfold afterEntries
  by_cases hc : es.any (·.clear)
  · simp [hc]
  · -- Without a clearing every value is given by the entries or is the old one.
    simp only [hc, Bool.false_eq_true, if_false]
    cases lastGiven BirdEntry.level? (sinceClear es) <;> cases lastGiven BirdEntry.position? (sinceClear es) <;>
      cases lastGiven BirdEntry.mode (sinceClear es) <;> rfl

/-! ### The two lists -/

/-- The edge that an entry asks for; nothing if its two labels name the same state. An entry without a label gets the
icon of the axis. -/
def TransitionEntry.edge? (e : TransitionEntry) : Option Transition :=
  match labelPair? e.source e.target with
  | some id =>
    if id.source = id.target then none
    else
      let axis := Axis.between id.source id.target
      let label :=
        match e.label with
        | none | some "" => axis.icon
        | some label => label
      some { id, axis, label }
  | none => none

/-- The overlay keys whose states a document removes. -/
def Document.removedOverlays (d : Document) : List StateKey := overlayKeys d.removedKeys

/-- The entries of a document for the bird of a state, in order. -/
def Document.entriesFor (d : Document) (k : StateKey) : List BirdEntry :=
  d.birds.filter fun e => labelKey? e.state = some k

namespace Document

/-- The states that a document leaves: the old ones and then the new ones, each with its bird, but for the removed
overlay states. -/
def outcomeStates (d : Document) (ss : List State) : List State :=
  ((appendNew State.key ss (d.wantedKeys.map State.fresh)).filter fun s => s.key ∉ d.removedOverlays).map fun s =>
    { s with bird := s.bird.afterEntries (d.entriesFor s.key) }

/-- The edges that a document leaves: the old ones and then the new ones, but for the removed ones and those at a
removed overlay state. -/
def outcomeEdges (d : Document) (ts : List Transition) : List Transition :=
  (appendNew Transition.id ts (d.transitions.filterMap TransitionEntry.edge?)).filter fun t =>
    t.id ∉ d.removedPairs ∧ ∀ k ∈ d.removedOverlays, ¬ t.id.touches k

/-- The model that a document leaves. -/
def outcome (d : Document) (m : Model) : Model :=
  (m.withStates (d.outcomeStates m.states.states)).withEdges (d.outcomeEdges m.transitions.edges)

theorem patchesFor_wantedPatches (d : Document) (k : StateKey) :
    patchesFor k d.wantedPatches = (d.entriesFor k).flatMap BirdEntry.patches := by
  unfold patchesFor wantedPatches entriesFor
  induction d.birds with
  | nil => rfl
  | cons e es ih =>
    rw [List.flatMap_cons, List.filter_append, List.map_append, ih, List.filter_cons]
    cases he : labelKey? e.state with
    | none => simp
    | some j =>
      -- The patches of an entry all bear its key, so they are kept or dropped together.
      by_cases hj : j = k
      · simp [hj, List.filter_map, Function.comp_def]
      · simp [hj, List.filter_map, Function.comp_def]

theorem edge?_eq (e : TransitionEntry) :
    e.edge? = (labelPair? e.source e.target).bind fun id =>
      if id.source = id.target then none else some (Transition.make id e.label) := by
  unfold TransitionEntry.edge?
  cases labelPair? e.source e.target with
  | none => rfl
  | some id =>
    simp only [Option.bind_some]
    split
    · rfl
    · cases e.label with
      | none => rfl
      | some label =>
        by_cases hl : label = ""
        · subst hl
          rfl
        · simp [Transition.make, Option.filter, hl]

/-- The edges that the entries ask for are made from what they ask for, loops left out. -/
theorem filterMap_edge?_eq (d : Document) :
    d.transitions.filterMap TransitionEntry.edge? =
      (d.wantedEdges.filter fun u => u.1.source ≠ u.1.target).map fun u => Transition.make u.1 u.2 := by
  unfold wantedEdges
  induction d.transitions with
  | nil => rfl
  | cons e es ih =>
    rw [List.filterMap_cons, List.filterMap_cons, edge?_eq]
    cases labelPair? e.source e.target with
    | none => exact ih
    | some id =>
      by_cases hloop : id.source = id.target
      · simp [hloop, ih]
      · simp [hloop, ih]

theorem afterPatches_wantedPatches (d : Document) (k : StateKey) (b : Bird) :
    b.afterPatches (patchesFor k d.wantedPatches) = b.afterEntries (d.entriesFor k) := by
  rw [patchesFor_wantedPatches, afterPatches_flatMap_patches]

/-! ### The outcome of the edits -/

/-- The sections that change birds and edges, as one operation on each list. -/
theorem run_changes {n : Model} (h : n.Legal) {d : Document}
    (hends : ∀ u ∈ d.wantedEdges, u.1.source ∈ n.states.keys ∧ u.1.target ∈ n.states.keys) :
    n.run (d.changes.flatMap Intent.reading) =
      (n.withStates (n.states.states.map fun s =>
        { s with bird := s.bird.afterEntries (d.entriesFor s.key) })).withEdges
        ((appendNew Transition.id n.transitions.edges (d.transitions.filterMap TransitionEntry.edge?)).filter
          fun t => t.id ∉ d.removedPairs) := by
  have hkeys := n.states.keys_map (f := fun s => { s with bird := s.bird.afterEntries (d.entriesFor s.key) })
    fun s => rfl
  have hwanted : (d.wantedEdges.filter fun u => u.1.source ≠ u.1.target ∧ u.1.source ∈ n.states.keys ∧
      u.1.target ∈ n.states.keys) = d.wantedEdges.filter fun u => u.1.source ≠ u.1.target := by
    apply List.filter_congr
    intro u hu
    simp [hends u hu]
  rw [reading_changes, Model.run_append, Model.run_append, Model.run_updateBirds h.keys_nodup]
  simp only [afterPatches_wantedPatches]
  -- The birds have changed, but not the keys by which the ends of edges are judged.
  rw [Model.run_addTransitions, Model.states_withStates, hkeys, hwanted, ← filterMap_edge?_eq,
    Model.run_removeTransitions]
  · rfl
  · exact nodup_map_appendNew _ h.ids_nodup

/-- The edits that a document asks for leave its outcome, as long as the ends of its edges are registered. -/
theorem run_readings {d : Document} {m : Model} (h : m.Legal)
    (hends : ∀ u ∈ d.wantedEdges, u.1.source ∈ (d.stage m).states.keys ∧ u.1.target ∈ (d.stage m).states.keys) :
    m.run (d.intents.flatMap Intent.reading) = d.outcome m := by
  -- The removals start from a legal model, so that no edge dangles when they begin.
  have hstage : (d.stage m).Legal := h.appendFresh d.wantedKeys
  have hchanged := hstage.run (d.changes.flatMap Intent.reading)
  rw [run_changes hstage hends] at hchanged
  rw [intents_eq, List.flatMap_append, List.flatMap_append, Model.run_append, Model.run_append, run_additions,
    run_changes hstage hends, reading_removals, Model.run_removeStates hchanged]
  simp only [outcome, outcomeStates, outcomeEdges, removedOverlays, stage, Model.states_withEdges,
    Model.states_withStates, Model.transitions_withEdges, Model.transitions_withStates, Model.withStates_withEdges,
    Model.withStates_withStates, Model.withEdges_withEdges, List.filter_filter, List.filter_map]
  -- What is left is the order of the two filters on the edges.
  congr 1
  apply List.filter_congr
  intro t _
  rw [Bool.eq_iff_iff]
  simp [and_comm]

/-- The ends of the edges of a document that passes its checks are registered on the stage. -/
theorem wantedEdges_registered {d : Document} {n : Model} (h : ∀ i ∈ d.intents, (i.edits n).isOk) :
    ∀ u ∈ d.wantedEdges, u.1.source ∈ n.states.keys ∧ u.1.target ∈ n.states.keys := by
  intro u hu
  obtain ⟨e, he, hu⟩ := List.mem_filterMap.mp hu
  have hi : Intent.addTransition e ∈ d.intents := by
    simp [intents, he]
  have hok := h _ hi
  cases hes : (Intent.addTransition e).edits n with
  | error f =>
    rw [hes] at hok
    cases hok
  | ok es =>
    obtain ⟨a, ha, hes⟩ := bind_eq_ok_iff.mp hes
    obtain ⟨b, hb, hes⟩ := bind_eq_ok_iff.mp hes
    rw [Model.resolve_eq_ok_iff] at ha hb
    rw [labelPair?_of_ok ha.1 hb.1] at hu
    cases hu
    exact ⟨ha.2, hb.2⟩

/-- A replay ends without a fault exactly if every intent passes its checks on the stage, and then it leaves the
outcome. -/
theorem apply_eq_outcome_iff {d : Document} {m m' : Model} (h : m.Legal) :
    d.apply m = (m', none) ↔ (∀ i ∈ d.intents, (i.edits (d.stage m)).isOk) ∧ m' = d.outcome m := by
  rw [apply_eq_none_iff h]
  constructor
  · rintro ⟨hok, hm'⟩
    rw [run_readings h (wantedEdges_registered hok)] at hm'
    exact ⟨hok, hm'⟩
  · rintro ⟨hok, hm'⟩
    rw [run_readings h (wantedEdges_registered hok)]
    exact ⟨hok, hm'⟩

/-! ### The closed form -/

theorem eraseDupsBy_fresh (ks : List StateKey) :
    (ks.map State.fresh).eraseDupsBy (fun s s' => s.key == s'.key) = ks.eraseDups.map State.fresh := by
  -- Each step drops the later copies of the first key, so the induction is on the length.
  induction hn : ks.length using Nat.strongRecOn generalizing ks with
  | _ n ih =>
    cases ks with
    | nil => rfl
    | cons k ks =>
      have hlen : (ks.filter fun j => !j == k).length < n := by
        rw [← hn, List.length_cons, Nat.lt_succ_iff]
        exact List.length_filter_le _ _
      rw [List.map_cons, List.eraseDupsBy_cons, List.eraseDups_cons, List.map_cons, ← ih _ hlen _ rfl,
        List.filter_map]
      congr 3
      apply List.filter_congr
      intro j _
      by_cases hj : j = k <;> simp [State.fresh, hj]

theorem appendNew_fresh (ss : List State) (ks : List StateKey) :
    appendNew State.key ss (ks.map State.fresh) =
      ss ++ (ks.filter fun k => k ∉ ss.map State.key).eraseDups.map State.fresh := by
  rw [appendNew, List.filter_map, eraseDupsBy_fresh]
  rfl

/-- **The closed form of a replay.** When no fault stops it, a document leaves

* the states of the model, then one new state for each wanted key that was missing, in the order of the grids and then
  the single states; without the overlay states that the document removes; each with the bird that its entries leave;
* the edges of the model, then the first wanted edge of each pair that had none, with the axis between its ends; without
  the removed pairs and without the edges at an overlay state that the document removes. -/
theorem apply_outcome {d : Document} {m m' : Model} (hm : m.Reachable) (h : d.apply m = (m', none)) :
    m'.states.states =
      (((m.states.states ++ (d.wantedKeys.filter fun k => ¬ m.states.contains k).eraseDups.map State.fresh).filter
        fun s => s.isBase ∨ s.key ∉ d.removedKeys).map
          fun s => { s with bird := s.bird.afterEntries (d.entriesFor s.key) }) ∧
    m'.transitions.edges =
      ((m.transitions.edges ++
        ((d.transitions.filterMap TransitionEntry.edge?).filter fun t => ¬ m.transitions.contains t.id).eraseDupsBy
          fun t t' => t.id == t'.id).filter
        fun t => t.id ∉ d.removedPairs ∧ ∀ k ∈ d.removedKeys, t.id.touches k → k.variant.isBase) := by
  obtain ⟨_, rfl⟩ := (apply_eq_outcome_iff hm.legal).mp h
  constructor
  · have hkeep (s : State) : s.key ∉ d.removedOverlays ↔ s.isBase ∨ s.key ∉ d.removedKeys := by
      rw [removedOverlays, overlayKeys, List.mem_filter, not_and_or, or_comm]
      simp [State.isBase]
    simp only [outcome, Model.states_withEdges, Model.states_withStates, outcomeStates, appendNew_fresh, hkeep,
      Registry.contains_iff_mem_keys, Registry.keys]
  · have hkeep (t : Transition) : (∀ k ∈ d.removedOverlays, ¬ t.id.touches k) ↔
        ∀ k ∈ d.removedKeys, t.id.touches k → k.variant.isBase := by
      simp only [removedOverlays, overlayKeys, List.mem_filter, and_imp]
      refine forall₂_congr fun k _ => ?_
      cases k.variant.isBase <;> simp
    simp only [outcome, Model.transitions_withEdges, outcomeEdges, appendNew, hkeep,
      TransitionSet.contains_iff_mem_ids, TransitionSet.ids]

/-- An overlay state takes a bird and an edge and goes again with both; two birds and an edge stay on the base grid. -/
def detour : Document where
  states := [⟨0, 13, .zeta⟩]
  birds :=
    [{ state := "ζL0P13", level := some 2 }, { state := "L0P13", level := some 1, mode := some .grabbing },
      { state := "L0P13", clear := true, position := some 15 }, { state := "L0P13", level := some 4 }]
  transitions := [⟨"L0P13", "ζL0P13", none⟩, ⟨"L0P13", "L1P13", some ""⟩, ⟨"L0P13", "L1P13", some "up"⟩]
  removeStates := ["ζL0P13", "L1P13"]

/-- What the detour leaves of the initial model: the base grid with one bird, and one edge. -/
theorem apply_outcome_detour :
    (detour.apply Model.initial).2 = none ∧
      (detour.apply Model.initial).1.states.states.map State.key = StateKey.grid .base ∧
      ((detour.apply Model.initial).1.states.states.filter State.hasBird).map
        (fun s => (s.key.shortLabel, s.bird.level.map Level.val, s.bird.position.map Position.val, s.bird.mode)) =
          [("L0P13", some 4, some 15, .flying)] ∧
      (detour.apply Model.initial).1.transitions.edges.map
        (fun t => (t.id.source.shortLabel, t.id.target.shortLabel, t.label)) = [("L0P13", "L1P13", "↕")] := by
  have hnone : (detour.apply Model.initial).2 = none := by decide +kernel
  obtain ⟨hstates, hedges⟩ := apply_outcome .initial (Prod.ext rfl hnone)
  rw [hstates, hedges]
  exact ⟨hnone, by decide +kernel, by decide +kernel, by decide +kernel⟩

end Document

end BirdBoard
