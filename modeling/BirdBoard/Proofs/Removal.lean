import Mathlib.Data.Finset.Card
import BirdBoard.Proofs.Runs

/-! # Removing many states

  Removals that are asked for one after the other, with repeats, base keys and unknown keys among them.

  - `Model.removeStates` carries them out and keeps their answers.
  - A removal is not refused exactly if its key is registered and no base key (`removeState_fst`), so each key that can
    be removed is removed once: by the first removal that asks for it (`count_true_removeStates`).
  - `Model.removeStates_of_perm`: the order of the removals does not matter.
-/

namespace BirdBoard.Model

/-- Removes states one after the other; answers with the answers of the removals, in order. -/
def removeStates (m : Model) : List StateKey → List Bool × Model
  | [] => ([], m)
  | k :: ks =>
    let (answer, m') := m.removeState k
    let (answers, m'') := m'.removeStates ks
    (answer :: answers, m'')

/-- The keys among these whose state can be removed. -/
def removable (m : Model) (ks : List StateKey) : Finset StateKey :=
  ks.toFinset.filter fun k => ¬ k.variant.isBase ∧ k ∈ m.states.keys

variable {m : Model} {k : StateKey}

theorem removeStates_snd (m : Model) (ks : List StateKey) : (m.removeStates ks).2 = m.run (ks.map .removeState) := by
  induction ks generalizing m with
  | nil => rfl
  | cons k ks ih => exact ih (m.removeState k).2

/-! ### Answers -/

/-- The keys that stay registered. -/
theorem keys_edit_removeState (h : m.Legal) (k : StateKey) :
    (m.edit (.removeState k)).states.keys = m.states.keys.filter fun j => k.variant.isBase || j != k := by
  rw [edit_removeState h, states_withEdges, states_withStates, Registry.keys, Registry.keys, List.filter_map]
  rfl

/-- A base key and a key without a state are refused, and nothing happens. -/
theorem removeState_refused (h : m.Legal) (hk : ¬ (¬ k.variant.isBase ∧ k ∈ m.states.keys)) :
    m.removeState k = (false, m) := by
  have hrefused : k.variant.isBase ∨ k ∉ m.states.keys := by
    by_contra hnot
    exact hk (by simpa using hnot)
  rw [removeState, Registry.erase?_eq h.keys_nodup, if_pos hrefused]

/-- Every other removal is carried out. -/
theorem removeState_fst (h : m.Legal) (hk : ¬ k.variant.isBase ∧ k ∈ m.states.keys) : (m.removeState k).1 = true := by
  have hnot : ¬ (k.variant.isBase ∨ k ∉ m.states.keys) := by simpa using hk
  rw [removeState, Registry.erase?_eq h.keys_nodup, if_neg hnot]

/-- What can still be removed behind a removal is what could be removed before, less its key. -/
theorem removable_cons (h : m.Legal) (hk : ¬ k.variant.isBase ∧ k ∈ m.states.keys) (ks : List StateKey) :
    m.removable (k :: ks) = insert k ((m.edit (.removeState k)).removable ks) := by
  ext j
  have hbase : k.variant.isBase = false := by simpa using hk.1
  simp only [removable, keys_edit_removeState h, Finset.mem_filter, List.toFinset_cons, Finset.mem_insert,
    List.mem_toFinset, List.mem_filter, hbase, Bool.false_or, bne_iff_ne]
  by_cases hj : j = k
  · simp [hj, hk]
  · simp [hj]

/-- As many removals are carried out as there are keys that can be removed. -/
theorem count_true_removeStates (h : m.Legal) (ks : List StateKey) :
    (m.removeStates ks).1.count true = (m.removable ks).card := by
  induction ks generalizing m with
  | nil => rfl
  | cons k ks ih =>
    show ((m.removeState k).1 :: ((m.edit (.removeState k)).removeStates ks).1).count true = _
    by_cases hk : ¬ k.variant.isBase ∧ k ∈ m.states.keys
    · have hgone : k ∉ (m.edit (.removeState k)).removable ks := by
        simp [removable, keys_edit_removeState h, hk.1]
      rw [removeState_fst h hk, List.count_cons_self, ih (h.edit _), removable_cons h hk,
        Finset.card_insert_of_notMem hgone]
    · have hsame : m.removable (k :: ks) = m.removable ks := by
        rw [removable, List.toFinset_cons, Finset.filter_insert, if_neg hk]
        rfl
      have hstep := removeState_refused h hk
      rw [edit, hstep, List.count_cons_of_ne Bool.false_ne_true, ih h, hsame]

/-! ### Order -/

/-- **Removals in any order.** Of a reachable model the same is left, in whatever order the states of some keys are
removed: the states whose key is no overlay key among these, and the edges without such an end, as they were and in the
order in which they stood. As many of the removals answer that there was a state as there are different overlay keys
with a state among them. -/
theorem removeStates_of_perm (hm : m.Reachable) {js ks : List StateKey} (h : js.Perm ks) :
    (m.removeStates js).2 =
        { states := { states := m.states.states.filter fun s => s.key ∉ overlayKeys ks }
          transitions := { edges := m.transitions.edges.filter fun t =>
            t.id.source ∉ overlayKeys ks ∧ t.id.target ∉ overlayKeys ks } } ∧
      (m.removeStates js).1.count true =
        (ks.toFinset.filter fun k => ¬ k.variant.isBase ∧ m.states.contains k).card := by
  have hmem (k : StateKey) : k ∈ overlayKeys js ↔ k ∈ overlayKeys ks := (h.filter _).mem_iff
  constructor
  · have hstates : (m.states.states.filter fun s => s.key ∉ overlayKeys js) =
        m.states.states.filter fun s => s.key ∉ overlayKeys ks := by
      simp only [hmem]
    have hedges : (m.transitions.edges.filter fun t => ∀ k ∈ overlayKeys js, ¬ t.id.touches k) =
        m.transitions.edges.filter fun t => t.id.source ∉ overlayKeys ks ∧ t.id.target ∉ overlayKeys ks := by
      apply List.filter_congr
      intro t _
      rw [decide_eq_decide]
      simp only [hmem, TransitionId.touches, Bool.or_eq_true, beq_iff_eq]
      constructor
      · intro hends
        exact ⟨fun hs => hends _ hs (.inl rfl), fun ht => hends _ ht (.inr rfl)⟩
      · rintro ⟨hs, ht⟩ k hk (rfl | rfl)
        · exact hs hk
        · exact ht hk
    rw [removeStates_snd, run_removeStates hm.legal, hstates, hedges]
    rfl
  · rw [count_true_removeStates hm.legal, removable, List.toFinset_eq_of_perm _ _ h]
    simp only [Registry.contains_iff_mem_keys]

/-- The last cell of one overlay. -/
def etaCorner : StateKey := (StateKey.grid .eta).getLast (by decide)

/-- The same cell of the other one. -/
def zetaCorner : StateKey := { etaCorner with variant := .zeta }

/-- The model with a state for each of the two and with an edge between them. -/
def corners : Model :=
  ((initial.edit (.addState zetaCorner)).edit (.addState etaCorner)).edit (.addTransition ⟨zetaCorner, etaCorner⟩ none)

theorem reachable_corners : corners.Reachable := .edit (.edit (.edit .initial _) _) _

/-- Keys to be removed: the two with a repeat, a base key and a key without a state. -/
def cornersAsked : List StateKey :=
  [zetaCorner, { zetaCorner with variant := .base }, etaCorner, zetaCorner, (StateKey.grid .eta).head (by decide)]

/-- Asked for in the reverse order, two removals are carried out, and the base grid is left. -/
theorem removeStates_of_perm_corners :
    (corners.removeStates cornersAsked.reverse).2 = initial ∧
      (corners.removeStates cornersAsked.reverse).1.count true = 2 := by
  have hreachable : corners.Reachable := .edit (.edit (.edit .initial _) _) _
  have hleft := removeStates_of_perm hreachable cornersAsked.reverse_perm
  exact ⟨hleft.1.trans (by decide +kernel), hleft.2.trans (by decide +kernel)⟩

end BirdBoard.Model
