import BirdBoard.Proofs.Removal

/-! # What the answers of commands tell

  The caller of a command sees its answer only. The answer tells whether the model has changed, and what is new or gone.

  - `Model.Refuses` ties the two together: a command answers with its refusal exactly under a condition, and exactly
    then the model stays as it was.
  - Each command gets its condition: `refuses_addTransition` and the lemmas after it. A command that is carried out
    makes a list longer or shorter, so it cannot leave the model as it was.
  - `Model.answers_faithful` puts the six commands together.
-/

namespace BirdBoard

/-- A command on a model, given by its answer and the model it leaves, answers with the refusal exactly under a
condition, and changes nothing exactly under the same condition. -/
structure Model.Refuses {α : Type} (m : Model) (result : α × Model) (refusal : α) (p : Prop) : Prop where
  /-- The answer is the refusal exactly under the condition. -/
  answer : result.1 = refusal ↔ p
  /-- The model stays as it was exactly under the condition. -/
  unchanged : result.2 = m ↔ p

namespace Model

variable {m : Model}

/-- It is enough to look at both sides of the condition: refused without a change there, changed with another answer
elsewhere. -/
theorem Refuses.of_cases {α : Type} {result : α × Model} {refusal : α} {p : Prop} (hrefused : p → result = (refusal, m))
    (hdone : ¬ p → result.1 ≠ refusal ∧ result.2 ≠ m) : m.Refuses result refusal p := by
  by_cases hp : p
  · have hresult := hrefused hp
    exact ⟨iff_of_true (congrArg Prod.fst hresult) hp, iff_of_true (congrArg Prod.snd hresult) hp⟩
  · obtain ⟨hanswer, hchanged⟩ := hdone hp
    exact ⟨iff_of_false hanswer hp, iff_of_false hchanged hp⟩

/-- A model with another number of states is another model. -/
theorem ne_of_size_states {n : Model} (h : n.states.size ≠ m.states.size) : n ≠ m := by
  intro hnm
  rw [hnm] at h
  exact h rfl

/-- So is a model with another number of edges. -/
theorem ne_of_size_transitions {n : Model} (h : n.transitions.size ≠ m.transitions.size) : n ≠ m := by
  intro hnm
  rw [hnm] at h
  exact h rfl

/-! ### Edges -/

/-- The edge that an insertion adds is the one that it was asked for, and it stands at the end. -/
theorem addTransition_of_some {id : TransitionId} {label : Option String} {t : Transition}
    (h : (m.addTransition id label).1 = some t) :
    t = Transition.make id label ∧ (m.addTransition id label).2 = m.withEdges (m.transitions.edges ++ [t]) := by
  unfold addTransition at h ⊢
  rw [TransitionSet.draft?_eq] at h ⊢
  split_ifs at h ⊢
  cases h
  exact ⟨rfl, rfl⟩

/-- Loops, pairs that have an edge and ends without a state are refused. -/
theorem refuses_addTransition (m : Model) (id : TransitionId) (label : Option String) :
    m.Refuses (m.addTransition id label) none
      (id.source = id.target ∨ m.transitions.contains id ∨ ¬ m.states.contains id.source ∨
        ¬ m.states.contains id.target) := by
  refine .of_cases (fun hp => ?_) fun hp => ?_
  · rw [addTransition, TransitionSet.draft?_eq, if_pos hp]
  · have hanswer : (m.addTransition id label).1 = some (Transition.make id label) := by
      rw [addTransition, TransitionSet.draft?_eq, if_neg hp]
    obtain ⟨_, hmodel⟩ := addTransition_of_some hanswer
    refine ⟨by simp [hanswer], ne_of_size_transitions ?_⟩
    simp [hmodel, TransitionSet.size]

/-- A removal that is not refused takes one edge out of the list: the edge of the pair. -/
theorem removeTransition_of_contains (h : m.Legal) {id : TransitionId} (hid : m.transitions.contains id) :
    ∃ before t after, m.transitions.edges = before ++ t :: after ∧ t.id = id ∧
      m.removeTransition id = (true, m.withEdges (before ++ after)) := by
  have hmem := TransitionSet.contains_iff_mem_ids.mp hid
  obtain ⟨t, ht, hti⟩ := List.mem_map.mp hmem
  obtain ⟨before, after, hsplit⟩ := List.append_of_mem ht
  refine ⟨before, t, after, hsplit, hti, ?_⟩
  -- No other edge has the same name, so the filter of the closed form drops this one only.
  have hnodup : ((before ++ t :: after).map Transition.id).Nodup := hsplit ▸ h.ids_nodup
  rw [List.map_append, List.map_cons, List.nodup_middle, List.nodup_cons, ← List.map_append] at hnodup
  have hothers : ∀ u ∈ before ++ after, u.id ≠ id := by
    intro u hu hui
    exact hnodup.1 (hti ▸ hui ▸ List.mem_map_of_mem hu)
  have hkeep : (before ++ t :: after).filter (·.id != id) = before ++ after := by
    rw [List.filter_append, List.filter_cons_of_neg (by simp [hti]), ← List.filter_append, List.filter_eq_self]
    simpa using hothers
  rw [removeTransition, TransitionSet.erase?_eq h.ids_nodup, if_pos hmem, hsplit, hkeep]
  rfl

/-- Pairs without an edge are refused. -/
theorem refuses_removeTransition (h : m.Legal) (id : TransitionId) :
    m.Refuses (m.removeTransition id) false (¬ m.transitions.contains id) := by
  refine .of_cases (fun hp => ?_) fun hp => ?_
  · have hmem : id ∉ m.transitions.ids := by rwa [← TransitionSet.contains_iff_mem_ids]
    rw [removeTransition, TransitionSet.erase?_eq h.ids_nodup, if_neg hmem]
  · obtain ⟨before, t, after, hsplit, _, hresult⟩ := removeTransition_of_contains h (not_not.mp hp)
    rw [hresult]
    refine ⟨Bool.noConfusion, ne_of_size_transitions ?_⟩
    simp [TransitionSet.size, hsplit]

/-! ### States -/

/-- Base keys and keys without a state are refused. -/
theorem refuses_removeState (h : m.Legal) (k : StateKey) :
    m.Refuses (m.removeState k) false (k.variant.isBase ∨ ¬ m.states.contains k) := by
  rw [Registry.contains_iff_mem_keys]
  refine .of_cases (fun hp => ?_) fun hp => ?_
  · exact removeState_refused h (by tauto)
  · have hk : ¬ k.variant.isBase ∧ k ∈ m.states.keys := by tauto
    refine ⟨by simp [removeState_fst h hk], ?_⟩
    -- The key itself is gone.
    intro hsame
    have hkeys := keys_edit_removeState h k
    rw [edit, hsame] at hkeys
    have hgone := hkeys ▸ hk.2
    simp [hk.1] at hgone

/-- A grid adds what is missing of it, and answers how much that is. -/
theorem addGrid_eq (m : Model) (v : Variant) :
    m.addGrid v =
      ((m.states.missing v).length,
        m.withStates (m.states.states ++ (m.states.missing v).map State.fresh)) := by
  rw [addGrid, Registry.insertGrid_eq]
  rfl

theorem addGrid_of_full {v : Variant} (h : ∀ k, k.variant = v → m.states.contains k) : m.addGrid v = (0, m) := by
  rw [addGrid_eq, Registry.missing_eq_nil_iff.mpr h, List.map_nil, List.append_nil]
  rfl

/-- A grid of which every state is there is refused. -/
theorem refuses_addGrid (m : Model) (v : Variant) :
    m.Refuses (m.addGrid v) 0 (∀ k, k.variant = v → m.states.contains k) := by
  refine .of_cases addGrid_of_full fun hp => ?_
  rw [← Registry.missing_eq_nil_iff] at hp
  rw [addGrid_eq]
  refine ⟨by simpa using hp, ne_of_size_states ?_⟩
  simpa [Registry.size] using hp

/-- The answer for a grid is the number of new states. -/
theorem size_states_addGrid (m : Model) (v : Variant) :
    (m.addGrid v).2.states.size = m.states.size + (m.addGrid v).1 := by
  simp [addGrid_eq, Registry.size]

/-- Keys without a state are refused; a patch that is carried out may still change nothing. -/
theorem updateBird_fst_eq_false_iff (m : Model) (k : StateKey) (p : BirdPatch) :
    (m.updateBird k p).1 = false ↔ ¬ m.states.contains k := by
  rw [Registry.contains_iff_mem_keys, ← Registry.indexOf?_eq_none_iff, updateBird, Registry.patch?]
  cases m.states.indexOf? k <;> simp

theorem updateBird_of_not_contains {k : StateKey} (hk : ¬ m.states.contains k) (p : BirdPatch) :
    m.updateBird k p = (false, m) := by
  rw [Registry.contains_iff_mem_keys, ← Registry.indexOf?_eq_none_iff] at hk
  rw [updateBird, Registry.patch?, hk]
  rfl

/-- The answer of an addition is the state that is found from then on. -/
theorem get?_addState (m : Model) (k : StateKey) :
    (m.addState k).2.states.get? k = some (m.addState k).1 := by
  show (m.states.insert k).2.get? k = some (m.states.insert k).1
  unfold Registry.insert
  cases h : m.states.get? k with
  | some s => exact h
  | none =>
    unfold Registry.get? at h ⊢
    rw [List.find?_append, h]
    simp [State.fresh]

/-- A present state is left alone. -/
theorem addState_of_contains {k : StateKey} (hk : m.states.contains k) : (m.addState k).2 = m := by
  have hmem := Registry.contains_iff_mem_keys.mp hk
  show m.edit (.addState k) = m
  rw [edit_addState, appendNew_cons_of_mem [] hmem, appendNew_nil, withStates_self]

/-- A missing state is added at the end. -/
theorem addState_of_not_contains {k : StateKey} (hk : ¬ m.states.contains k) :
    (m.addState k).2 = m.withStates (m.states.states ++ [State.fresh k]) := by
  have hmem : k ∉ m.states.keys := by rwa [← Registry.contains_iff_mem_keys]
  show m.edit (.addState k) = _
  rw [edit_addState, appendNew_cons_of_notMem [] hmem, appendNew_nil]

/-- An addition changes nothing exactly if the key has a state. -/
theorem addState_snd_eq_self_iff (m : Model) (k : StateKey) : (m.addState k).2 = m ↔ m.states.contains k := by
  by_cases hk : m.states.contains k
  · exact iff_of_true (addState_of_contains hk) hk
  · refine iff_of_false (ne_of_size_states ?_) hk
    rw [addState_of_not_contains hk]
    simp [Registry.size]

/-! ### All commands -/

/-- **Answers are faithful.** On a reachable model:

* an edge is refused exactly if it is a loop, its pair has an edge or an end has no state; otherwise it is appended;
* the removal of an edge is refused exactly if the pair has none; otherwise this edge is gone and no other;
* the removal of a state is refused exactly for a base key and for a key without a state;
* a grid adds nothing exactly if all of it is there, and the answer is the number of states that it adds;
* a patch is refused exactly for a key without a state;
* the addition of a state answers with the state that is found from then on.

What is refused changes nothing, and, patches apart, everything else changes the model. -/
theorem answers_faithful (hm : m.Reachable) :
    (∀ id label,
      m.Refuses (m.addTransition id label) none
        (id.source = id.target ∨ m.transitions.contains id ∨ ¬ m.states.contains id.source ∨
          ¬ m.states.contains id.target) ∧
      ∀ t, (m.addTransition id label).1 = some t → t = Transition.make id label ∧
        (m.addTransition id label).2 =
          { states := m.states, transitions := { edges := m.transitions.edges ++ [t] } }) ∧
    (∀ id,
      m.Refuses (m.removeTransition id) false (¬ m.transitions.contains id) ∧
      (m.transitions.contains id → ∃ before t after, m.transitions.edges = before ++ t :: after ∧ t.id = id ∧
        m.removeTransition id =
          (true, { states := m.states, transitions := { edges := before ++ after } }))) ∧
    (∀ k, m.Refuses (m.removeState k) false (k.variant.isBase ∨ ¬ m.states.contains k)) ∧
    (∀ v,
      m.Refuses (m.addGrid v) 0 (∀ k, k.variant = v → m.states.contains k) ∧
      (m.addGrid v).2.states.size = m.states.size + (m.addGrid v).1) ∧
    (∀ k p,
      ((m.updateBird k p).1 = false ↔ ¬ m.states.contains k) ∧
      (¬ m.states.contains k → (m.updateBird k p).2 = m)) ∧
    ∀ k,
      (m.addState k).2.states.get? k = some (m.addState k).1 ∧
      ((m.addState k).2 = m ↔ m.states.contains k) := by
  refine ⟨fun id label => ⟨refuses_addTransition m id label, fun t ht => addTransition_of_some ht⟩,
    fun id => ⟨refuses_removeTransition hm.legal id, fun hid => removeTransition_of_contains hm.legal hid⟩,
    refuses_removeState hm.legal,
    fun v => ⟨refuses_addGrid m v, size_states_addGrid m v⟩,
    fun k p => ⟨updateBird_fst_eq_false_iff m k p, fun hk => ?_⟩,
    fun k => ⟨get?_addState m k, addState_snd_eq_self_iff m k⟩⟩
  rw [updateBird_of_not_contains hk p]

/-- Between the two corners a second edge is refused and the way back is not; the edge can be removed, and so can a
corner, but not the base state on the same cell; the overlay of the corner lacks 29 states. -/
theorem answers_faithful_corners :
    (corners.addTransition ⟨zetaCorner, etaCorner⟩ (some "again")).2 = corners ∧
      (corners.addTransition ⟨etaCorner, zetaCorner⟩ none).2.transitions.edges =
        corners.transitions.edges ++ [Transition.make ⟨etaCorner, zetaCorner⟩ none] ∧
      (∃ before t after, corners.transitions.edges = before ++ t :: after ∧ t.id = ⟨zetaCorner, etaCorner⟩ ∧
        corners.removeTransition ⟨zetaCorner, etaCorner⟩ =
          (true, { states := corners.states, transitions := { edges := before ++ after } })) ∧
      (corners.removeState etaCorner).2 ≠ corners ∧
      (corners.removeState { etaCorner with variant := .base }).1 = false ∧
      (corners.addGrid .eta).2.states.size = 32 + 29 ∧
      (corners.addState zetaCorner).2 = corners := by
  obtain ⟨hadd, hremove, hstate, hgrid, _, hfresh⟩ := answers_faithful reachable_corners
  refine ⟨(hadd _ _).1.unchanged.mpr (by decide +kernel), ?_, (hremove _).2 (by decide +kernel), ?_,
    (hstate _).answer.mpr (by decide +kernel), (hgrid _).2.trans (by decide +kernel),
    (hfresh _).2.mpr (by decide +kernel)⟩
  · have hanswer : (corners.addTransition ⟨etaCorner, zetaCorner⟩ none).1 =
        some (Transition.make ⟨etaCorner, zetaCorner⟩ none) := by decide +kernel
    rw [((hadd _ _).2 _ hanswer).2]
  · rw [ne_eq, (hstate _).unchanged]
    decide +kernel

end Model

end BirdBoard
