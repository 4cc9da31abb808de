import Mathlib.Data.List.Induction
import BirdBoard.Proofs.Legal

/-! # Runs of one kind of edit

  What a list of edits of the same kind leaves, as one operation on the two lists of a model. Each is found by an
  induction along the list from the closed form of a single edit.

  - Additions add the first new entry of each missing key (`run_addStates`, `run_addGrids`, `run_addTransitions`).
  - Patches map the states (`run_updateBirds`): a bird sees the patches for its own state, in order. Field by field the
    last patch that gives a value has its way (`Bird.afterPatches_eq`).
  - Removals filter (`run_removeTransitions`, `run_removeStates`).
-/

namespace BirdBoard

/-- The bird after a list of patches, applied in order. -/
def Bird.afterPatches (b : Bird) (ps : List BirdPatch) : Bird := ps.foldl (fun b p => p.apply b) b

/-- The last value that patches give for a field; nothing if none of them gives it. -/
def lastSet {α : Type} (field : BirdPatch → Option α) (ps : List BirdPatch) : Option α := (ps.filterMap field).getLast?

/-- The patches for one key, in order. -/
def patchesFor (k : StateKey) (us : List (StateKey × BirdPatch)) : List BirdPatch :=
  (us.filter (·.1 == k)).map (·.2)

/-- The keys of overlay states among some keys. -/
def overlayKeys (ks : List StateKey) : List StateKey := ks.filter fun k => !k.variant.isBase

/-- Whether an edit leaves the keys alone. -/
def Edit.keepsKeys : Edit → Bool
  | .updateBird _ _ | .addTransition _ _ | .removeTransition _ => true
  | .addState _ | .addGrid _ | .removeState _ => false

/-! ### Patches -/

section

variable {α : Type} (field : BirdPatch → Option α)

/-- What the second list of patches gives goes before what the first one gives. -/
theorem lastSet_append (ps qs : List BirdPatch) :
    lastSet field (ps ++ qs) = (lastSet field qs).or (lastSet field ps) := by
  unfold lastSet
  rw [List.filterMap_append, List.getLast?_append]

theorem lastSet_singleton (p : BirdPatch) : lastSet field [p] = field p := by
  unfold lastSet
  cases h : field p <;> simp [h]

/-- What one more patch gives goes before what the patches give, and this before the old value. -/
theorem getD_lastSet_concat (ps : List BirdPatch) (p : BirdPatch) (old : α) :
    (lastSet field (ps ++ [p])).getD old = (field p).getD ((lastSet field ps).getD old) := by
  rw [lastSet_append, lastSet_singleton]
  cases field p <;> rfl

end

/-- **Step**: one more patch is applied last. -/
theorem Bird.afterPatches_concat (b : Bird) (ps : List BirdPatch) (p : BirdPatch) :
    b.afterPatches (ps ++ [p]) = p.apply (b.afterPatches ps) := by
  unfold afterPatches
  rw [List.foldl_append]
  rfl

/-- **Run**: each field has the last value that the patches give for it, or the old one if they give none. -/
theorem Bird.afterPatches_eq (b : Bird) (ps : List BirdPatch) :
    b.afterPatches ps =
      { level := (lastSet BirdPatch.level ps).getD b.level
        position := (lastSet BirdPatch.position ps).getD b.position
        mode := (lastSet BirdPatch.mode ps).getD b.mode } := by
  induction ps using List.reverseRecOn with
  | nil => rfl
  | append_singleton ps p ih =>
    rw [afterPatches_concat, ih, getD_lastSet_concat, getD_lastSet_concat, getD_lastSet_concat]
    rfl

namespace Model

variable {m : Model}

theorem run_cons (m : Model) (e : Edit) (es : List Edit) : m.run (e :: es) = (m.edit e).run es := rfl

/-! ### Additions -/

theorem run_addStates (m : Model) (ks : List StateKey) :
    m.run (ks.map .addState) = m.withStates (appendNew State.key m.states.states (ks.map State.fresh)) := by
  induction ks generalizing m with
  | nil => simp [run]
  | cons k ks ih =>
    rw [List.map_cons, run_cons, edit_addState, ih, List.map_cons, appendNew_cons _ _ _ (ks.map _)]
    rfl

theorem run_addGrids (m : Model) (vs : List Variant) :
    m.run (vs.map .addGrid) =
      m.withStates (appendNew State.key m.states.states ((vs.flatMap StateKey.grid).map State.fresh)) := by
  induction vs generalizing m with
  | nil => simp [run]
  | cons v vs ih =>
    rw [List.map_cons, run_cons, edit_addGrid, ih, List.flatMap_cons, List.map_append, appendNew_append]
    rfl

/-- Of the wanted edges those between two different registered states are added, unless their pair has one. -/
theorem run_addTransitions (m : Model) (us : List (TransitionId × Option String)) :
    m.run (us.map fun u => .addTransition u.1 u.2) =
      m.withEdges (appendNew Transition.id m.transitions.edges
        ((us.filter fun u => u.1.source ≠ u.1.target ∧ u.1.source ∈ m.states.keys ∧ u.1.target ∈ m.states.keys).map
          fun u => Transition.make u.1 u.2)) := by
  induction us generalizing m with
  | nil => simp [run]
  | cons u us ih =>
    -- New edges leave the registry alone, so all ends are judged by the registry of the start.
    rw [List.map_cons, run_cons, edit_addTransition, ih, List.filter_cons]
    by_cases hends : u.1.source ≠ u.1.target ∧ u.1.source ∈ m.states.keys ∧ u.1.target ∈ m.states.keys
    · rw [if_pos hends, if_pos (decide_eq_true hends), List.map_cons,
        appendNew_cons _ _ _ (List.map _ _)]
      rfl
    · rw [if_neg hends, if_neg (by simpa using hends)]

/-! ### Birds -/

/-- Each bird takes the patches for its own state. -/
theorem run_updateBirds (h : m.states.keys.Nodup) (us : List (StateKey × BirdPatch)) :
    m.run (us.map fun u => .updateBird u.1 u.2) =
      m.withStates (m.states.states.map fun s => { s with bird := s.bird.afterPatches (patchesFor s.key us) }) := by
  induction us generalizing m with
  | nil => simp [run, patchesFor, Bird.afterPatches]
  | cons u us ih =>
    have hkeys := m.states.keys_map (f := fun s => if s.key = u.1 then { s with bird := u.2.apply s.bird } else s)
      fun s => by split <;> rfl
    rw [List.map_cons, run_cons, edit_updateBird h, ih (by rw [states_withStates, hkeys]; exact h)]
    rw [states_withStates, withStates_withStates, List.map_map]
    congr 1
    apply List.map_congr_left
    intro s _
    -- The first patch stands at the head of the patches for its own key and of no other.
    by_cases hs : s.key = u.1
    · simp [hs, patchesFor, Bird.afterPatches]
    · simp [hs, Ne.symm hs, patchesFor]

/-! ### Removals -/

theorem run_removeTransitions (h : m.transitions.ids.Nodup) (ids : List TransitionId) :
    m.run (ids.map .removeTransition) = m.withEdges (m.transitions.edges.filter fun t => t.id ∉ ids) := by
  induction ids generalizing m with
  | nil => simp [run]
  | cons id ids ih =>
    have hnd : (m.withEdges (m.transitions.edges.filter (·.id != id))).transitions.ids.Nodup :=
      h.sublist (List.filter_sublist.map _)
    rw [List.map_cons, run_cons, edit_removeTransition h, ih hnd, transitions_withEdges, withEdges_withEdges,
      List.filter_filter]
    congr 1
    apply List.filter_congr
    intro t _
    rw [Bool.eq_iff_iff]
    simp [and_comm]

/-- Base states stay; overlay states go with the edges at them. -/
theorem run_removeStates (h : m.Legal) (ks : List StateKey) :
    m.run (ks.map .removeState) =
      (m.withStates (m.states.states.filter fun s => s.key ∉ overlayKeys ks)).withEdges
        (m.transitions.edges.filter fun t => ∀ k ∈ overlayKeys ks, ¬ t.id.touches k) := by
  induction ks generalizing m with
  | nil => simp [run, overlayKeys]
  | cons k ks ih =>
    -- The closed form of the next removal needs that this one has left no dangling edge.
    have hstep := h.edit (.removeState k)
    rw [List.map_cons, run_cons, ih hstep, edit_removeState h]
    simp only [states_withEdges, states_withStates, transitions_withEdges, withStates_withEdges, withEdges_withEdges,
      withStates_withStates, List.filter_filter]
    congr 1
    · congr 1
      apply List.filter_congr
      intro s _
      rw [Bool.eq_iff_iff]
      by_cases hk : k.variant.isBase <;> simp [overlayKeys, hk, and_comm]
    · apply List.filter_congr
      intro t _
      rw [Bool.eq_iff_iff]
      by_cases hk : k.variant.isBase <;> simp [overlayKeys, hk, and_comm]

/-! ### Keys -/

/-- Edits of birds and edges leave the keys alone. -/
theorem keys_run (h : m.Legal) {es : List Edit} (hes : ∀ e ∈ es, e.keepsKeys) :
    (m.run es).states.keys = m.states.keys := by
  induction es generalizing m with
  | nil => rfl
  | cons e es ih =>
    rw [run_cons, ih (h.edit e) fun e he => hes e (List.mem_cons_of_mem _ he)]
    have hkeeps := hes e List.mem_cons_self
    cases e with
    | updateBird k p =>
      rw [edit_updateBird h.keys_nodup, states_withStates, Registry.keys_map]
      exact fun s => by split <;> rfl
    | addTransition id label =>
      rw [edit_addTransition]
      split <;> rfl
    | removeTransition id => rw [edit_removeTransition h.ids_nodup, states_withEdges]
    | _ => cases hkeeps

end Model

end BirdBoard
