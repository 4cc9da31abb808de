import BirdBoard.Proofs.Census
import BirdBoard.Proofs.Refusals

/-! # A grid at once or cell by cell

  The grid of a variant is added by a loop over its keys; its states can also be added by a command for each of them.

  - `Model.addStates` adds states one after the other and counts the keys that were missing when their turn came.
  - A turn of the loop does what the command does (`fill_eq_addState`), and so does the whole loop
    (`foldl_fill_eq_addStates`).
  - `Model.addGrid_cellByCell` adds what the answer is, what stays and what a second grid does.
-/

namespace BirdBoard.Model

/-- Adds states one after the other; answers with the number of keys that had no state when their turn came. -/
def addStates (m : Model) : List StateKey → Nat × Model
  | [] => (0, m)
  | k :: ks =>
    let (added, m') := (m.addState k).2.addStates ks
    ((if m.states.contains k then 0 else 1) + added, m')

variable {m : Model}

/-- Additions of states leave the edges alone. -/
theorem transitions_addStates (m : Model) (ks : List StateKey) : (m.addStates ks).2.transitions = m.transitions := by
  induction ks generalizing m with
  | nil => rfl
  | cons k ks ih => exact ih (m.addState k).2

/-- **Step**: a turn of the loop does to the registry what the addition of the state does, and counts a new state. -/
theorem fill_eq_addState (n : Nat) (m : Model) (k : StateKey) :
    Registry.fill (n, m.states) k = (n + (if m.states.contains k then 0 else 1), (m.addState k).2.states) := by
  unfold Registry.fill
  by_cases hk : m.states.contains k
  · rw [if_pos hk, if_pos hk, addState_of_contains hk, Nat.add_zero]
  · rw [if_neg hk, if_neg hk, addState_of_not_contains hk, states_withStates]

/-- **Run**: the whole loop does what the additions do, and counts what they answer. -/
theorem foldl_fill_eq_addStates (n : Nat) (m : Model) (ks : List StateKey) :
    ks.foldl Registry.fill (n, m.states) = (n + (m.addStates ks).1, (m.addStates ks).2.states) := by
  induction ks generalizing n m with
  | nil => rfl
  | cons k ks ih =>
    rw [List.foldl_cons, fill_eq_addState, ih, Nat.add_assoc]
    rfl

/-- A grid is added as its states are, one by one. -/
theorem addGrid_eq_addStates (m : Model) (v : Variant) : m.addGrid v = m.addStates (StateKey.grid v) := by
  rw [addGrid, Registry.insertGrid_eq_foldl]
  generalize StateKey.grid v = ks
  rw [foldl_fill_eq_addStates, Nat.zero_add]
  exact Prod.ext rfl (congrArg (Model.mk _) (m.transitions_addStates ks).symm)

/-- Behind a grid all of its keys are registered. -/
theorem contains_addGrid (m : Model) {v : Variant} {k : StateKey} (hk : k.variant = v) :
    (m.addGrid v).2.states.contains k := by
  rw [Registry.contains_iff_mem_keys, addGrid_snd]
  refine mem_map_appendNew.mpr (.inr ?_)
  rw [map_key_fresh]
  exact StateKey.mem_grid.mpr hk

/-- So a second grid of the variant is refused. -/
theorem addGrid_addGrid (m : Model) (v : Variant) : (m.addGrid v).2.addGrid v = (0, (m.addGrid v).2) :=
  addGrid_of_full fun _ hk => contains_addGrid m hk

/-- **A grid is added as its 30 states are, one by one.** On a reachable model, adding the grid of a variant

* leaves the same model and gives the same answer as adding its 30 states, level by level;
* answers with what the states of the variant lacked of 30;
* leaves the old states in front with their birds, and the edges as they were;
* does nothing the second time, and answers that nothing was added. -/
theorem addGrid_cellByCell (hm : m.Reachable) (v : Variant) :
    (StateKey.grid v).map (fun k => (k.variant, k.level.val, k.position.val)) =
        (List.range' 0 5).flatMap (fun l => (List.range' 13 6).map fun p => (v, l, p)) ∧
      m.addGrid v = m.addStates (StateKey.grid v) ∧
      (m.addGrid v).1 + (m.states.ofVariant v).length = 30 ∧
      m.states.states <+: (m.addGrid v).2.states.states ∧
      (m.addGrid v).2.transitions = m.transitions ∧
      (m.addGrid v).2.addGrid v = (0, (m.addGrid v).2) := by
  refine ⟨rfl, addGrid_eq_addStates m v, ?_, ?_, ?_, addGrid_addGrid m v⟩
  · rw [addGrid_eq]
    exact Registry.length_missing_add hm.legal.keys_nodup v
  · rw [addGrid_eq]
    exact List.prefix_append _ _
  · rw [addGrid_eq, transitions_withStates]

/-- One corner of the overlay is there already, so 29 states are added behind it. -/
theorem addGrid_cellByCell_corners :
    (corners.addStates (StateKey.grid .eta)).1 = 29 ∧
      (corners.addStates (StateKey.grid .eta)).2.addGrid .eta = (0, (corners.addStates (StateKey.grid .eta)).2) ∧
      (corners.addStates (StateKey.grid .eta)).2.transitions.size = 1 := by
  obtain ⟨_, hsame, hcount, _, hedges, hagain⟩ := addGrid_cellByCell reachable_corners .eta
  have hpresent : (corners.states.ofVariant .eta).length = 1 := by decide +kernel
  rw [← hsame, hedges]
  exact ⟨by omega, hagain, by decide +kernel⟩

end BirdBoard.Model
