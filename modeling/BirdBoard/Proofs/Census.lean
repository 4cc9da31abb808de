import Mathlib.Algebra.GroupWithZero.Nat
import Mathlib.Data.Finset.Prod
import BirdBoard.Proofs.Removal
import BirdBoard.Proofs.Rollback
import BirdBoard.Stylesheet

/-! # The census of a model

  How many states and edges there are, and how the listings of the queries share them out.

  - Every listing keeps the entries of one class. If the classes are distinct and every entry belongs to one of them,
    the listings together are as long as the list (`sum_length_filter`): so it is with the states of each variant, the
    edges of each axis, and the edges that leave or enter each key.
  - A variant has 30 cells, and what is missing of its grid is what its listing lacks (`length_missing_add`). So a model
    has at most 90 states.
  - The names of the edges are pairs of different keys of states, and no name occurs twice (`size_transitions_le`).
  - `Model.census` puts the counts together.
-/

namespace BirdBoard

/-! ### Classes -/

/-- The classes of a list share out its entries: each entry is counted in the listing of its own class. -/
theorem sum_length_filter {α β : Type} [DecidableEq β] (f : α → β) {ks : List β} (hks : ks.Nodup) (xs : List α)
    (h : ∀ x ∈ xs, f x ∈ ks) : (ks.map fun k => (xs.filter (f · == k)).length).sum = xs.length := by
  -- The induction takes the classes one by one out of the list.
  induction ks generalizing xs with
  | nil =>
    have hxs : xs = [] := List.eq_nil_iff_forall_not_mem.mpr fun x hx => List.not_mem_nil (h x hx)
    simp [hxs]
  | cons k ks ih =>
    obtain ⟨hk, hks⟩ := List.nodup_cons.mp hks
    -- The other classes do not notice when the entries of the first one are taken out.
    have hothers : ∀ j ∈ ks, (xs.filter (f · == j)).length = ((xs.filter (!f · == k)).filter (f · == j)).length := by
      intro j hj
      rw [List.filter_filter]
      congr 1
      apply List.filter_congr
      intro x _
      by_cases hx : f x = j
      · have hxk : f x ≠ k := fun hxk => hk (hxk ▸ hx ▸ hj)
        simp [hxk]
      · simp [hx]
    have hrest : ∀ x ∈ xs.filter (!f · == k), f x ∈ ks := by
      intro x hx
      obtain ⟨hx, hxk⟩ := List.mem_filter.mp hx
      exact (List.mem_cons.mp (h x hx)).resolve_left (by simpa using hxk)
    rw [List.map_cons, List.sum_cons, List.map_congr_left hothers, ih hks _ hrest]
    exact (List.length_eq_length_filter_add (f · == k)).symm

/-- Every variant is listed. -/
theorem Variant.mem_all (v : Variant) : v ∈ all := by cases v <;> decide

/-- Every axis is listed. -/
theorem Axis.mem_all (a : Axis) : a ∈ all := by cases a <;> decide

/-- The two ends of an edge as a pair. -/
def TransitionId.ends (id : TransitionId) : StateKey × StateKey := (id.source, id.target)

theorem TransitionId.ends_injective : Function.Injective ends := by
  intro a b hab
  cases a
  cases b
  simpa [ends] using hab

/-! ### States -/

/-- Every variant has 30 cells. -/
@[simp] theorem StateKey.length_grid (v : Variant) : (grid v).length = 30 := rfl

namespace Registry

variable {r : Registry} {v : Variant}

/-- The keys of the states of a variant. -/
theorem map_key_ofVariant (r : Registry) (v : Variant) :
    (r.ofVariant v).map State.key = r.keys.filter (·.variant == v) := by
  rw [ofVariant, keys, List.filter_map]
  rfl

/-- The states of a variant are those of its cells that are not missing. -/
theorem length_missing_add (h : r.keys.Nodup) (v : Variant) :
    (r.missing v).length + (r.ofVariant v).length = 30 := by
  have hperm : ((r.ofVariant v).map State.key).Perm ((StateKey.grid v).filter fun k => r.contains k) := by
    rw [map_key_ofVariant, List.perm_ext_iff_of_nodup (h.filter _) ((StateKey.nodup_grid v).filter _)]
    intro k
    simp only [List.mem_filter, StateKey.mem_grid, contains_iff_mem_keys, beq_iff_eq]
    exact and_comm
  have hpresent : (r.ofVariant v).length = ((StateKey.grid v).filter fun k => r.contains k).length := by
    rw [← hperm.length_eq, List.length_map]
  have hgrid := List.length_eq_length_filter_add (l := StateKey.grid v) fun k => r.contains k
  rw [StateKey.length_grid] at hgrid
  unfold missing
  omega

/-- The listings of the variants share out the states. -/
theorem length_ofVariant_add (r : Registry) :
    (r.ofVariant .normal).length + (r.ofVariant .zeta).length + (r.ofVariant .eta).length = r.size := by
  have hsum := sum_length_filter (fun s : State => s.key.variant) (show Variant.all.Nodup by decide) r.states
    fun s _ => s.key.variant.mem_all
  simpa [Variant.all, ofVariant, size, Nat.add_assoc] using hsum

end Registry

namespace Model

variable {m : Model} {k : StateKey}

/-- The base variant is complete. -/
theorem Legal.missing_base (h : m.Legal) : m.states.missing .base = [] := by
  rw [Registry.missing_eq_nil_iff]
  intro k hk
  exact Registry.contains_iff_mem_keys.mpr (h.mem_keys_of_isBase (by simp [hk, Variant.isBase]))

/-- There are at most three full grids of states. -/
theorem Legal.size_states_le (h : m.Legal) : m.states.size ≤ 90 := by
  have hadd := m.states.length_ofVariant_add
  have hnormal := Registry.length_missing_add h.keys_nodup .normal
  have hzeta := Registry.length_missing_add h.keys_nodup .zeta
  have heta := Registry.length_missing_add h.keys_nodup .eta
  omega

/-! ### Edges -/

/-- No edge is listed under the axis that changes nothing. -/
theorem Legal.ofAxis_unchanged (h : m.Legal) : m.transitions.ofAxis .unchanged = [] := by
  rw [TransitionSet.ofAxis, List.filter_eq_nil_iff]
  intro t ht
  have htl := h.edge t ht
  rw [beq_iff_eq, htl.axis_eq, Axis.between_eq_unchanged_iff]
  exact htl.proper

/-- The listings of the other three axes share out the edges. -/
theorem Legal.length_ofAxis_add (h : m.Legal) :
    (m.transitions.ofAxis .level).length + (m.transitions.ofAxis .position).length +
      (m.transitions.ofAxis .variant).length = m.transitions.size := by
  have hsum := sum_length_filter Transition.axis (show Axis.all.Nodup by decide) m.transitions.edges
    fun t _ => t.axis.mem_all
  have hnone : (m.transitions.edges.filter (·.axis == .unchanged)).length = 0 := by
    rw [← TransitionSet.ofAxis, h.ofAxis_unchanged, List.length_nil]
  simpa [Axis.all, TransitionSet.ofAxis, TransitionSet.size, Nat.add_assoc, hnone] using hsum

/-- The edges at a key leave it or enter it, and none does both. -/
theorem Legal.length_touching (h : m.Legal) (k : StateKey) :
    (m.transitions.touching k).length = (m.transitions.outgoing k).length + (m.transitions.incoming k).length := by
  have hout : (m.transitions.touching k).filter (·.id.source == k) = m.transitions.outgoing k := by
    rw [TransitionSet.touching, List.filter_filter, TransitionSet.outgoing]
    apply List.filter_congr
    intro t _
    by_cases hs : t.id.source = k <;> simp [TransitionId.touches, hs]
  have hin : (m.transitions.touching k).filter (!·.id.source == k) = m.transitions.incoming k := by
    rw [TransitionSet.touching, List.filter_filter, TransitionSet.incoming]
    apply List.filter_congr
    intro t ht
    have hproper := (h.edge t ht).proper
    by_cases hs : t.id.source = k
    · have htarget : t.id.target ≠ k := fun htarget => hproper (hs.trans htarget.symm)
      simp [hs, htarget]
    · simp [TransitionId.touches, beq_false_of_ne hs]
  rw [← hout, ← hin]
  exact List.length_eq_length_filter_add _

/-- A key without a state has no edges. -/
theorem Legal.touching_eq_nil (h : m.Legal) (hk : ¬ m.states.contains k) : m.transitions.touching k = [] := by
  rw [Registry.contains_iff_mem_keys] at hk
  rw [TransitionSet.touching, List.filter_eq_nil_iff]
  intro t ht
  simp [h.not_touches hk t ht]

/-- The registered keys share out the edges that leave them. -/
theorem Legal.sum_length_outgoing (h : m.Legal) :
    (m.states.keys.map fun k => (m.transitions.outgoing k).length).sum = m.transitions.size :=
  sum_length_filter (fun t : Transition => t.id.source) h.keys_nodup m.transitions.edges
    fun t ht => (h.edge t ht).source_mem

/-- The registered keys share out the edges that enter them. -/
theorem Legal.sum_length_incoming (h : m.Legal) :
    (m.states.keys.map fun k => (m.transitions.incoming k).length).sum = m.transitions.size :=
  sum_length_filter (fun t : Transition => t.id.target) h.keys_nodup m.transitions.edges
    fun t ht => (h.edge t ht).target_mem

/-- There is at most one edge for each ordered pair of different states. -/
theorem Legal.size_transitions_le (h : m.Legal) : m.transitions.size ≤ m.states.size * (m.states.size - 1) := by
  have hnodup : (m.transitions.ids.map TransitionId.ends).Nodup := h.ids_nodup.map TransitionId.ends_injective
  have hsub : (m.transitions.ids.map TransitionId.ends).toFinset ⊆ m.states.keys.toFinset.offDiag := by
    intro p hp
    rw [List.mem_toFinset, TransitionSet.ids, List.map_map] at hp
    obtain ⟨t, ht, rfl⟩ := List.mem_map.mp hp
    have htl := h.edge t ht
    simp only [Function.comp_apply, TransitionId.ends, Finset.mem_offDiag, List.mem_toFinset]
    exact ⟨htl.source_mem, htl.target_mem, htl.proper⟩
  calc m.transitions.size
      = (m.transitions.ids.map TransitionId.ends).toFinset.card := by
        rw [List.toFinset_card_of_nodup hnodup, List.length_map, TransitionSet.ids, List.length_map]
        rfl
    _ ≤ m.states.keys.toFinset.offDiag.card := Finset.card_le_card hsub
    _ = m.states.size * (m.states.size - 1) := by
        rw [Finset.offDiag_card, List.toFinset_card_of_nodup h.keys_nodup, Registry.keys, List.length_map,
          Nat.mul_sub_one]
        rfl

/-! ### All counts -/

/-- **The census.** On a reachable model:

* the base variant has 30 states and no variant has more; the three together are all states, at most 90;
* no edge is on the axis `unchanged`, and the other three axes together have all edges;
* the edges at a key are those that leave it and those that enter it, none for a key without a state; over the
  registered keys, those that leave are all edges, and so are those that enter;
* there are at most as many edges as ordered pairs of different states, and so at most 8010;
* the summary counts the states, the states with a visible bird, which are not more, and the edges. -/
theorem census (hm : m.Reachable) :
    ((m.states.ofVariant .normal).length = 30 ∧
      (m.states.ofVariant .normal).length + (m.states.ofVariant .zeta).length + (m.states.ofVariant .eta).length =
        m.states.size ∧
      (∀ v, (m.states.ofVariant v).length ≤ 30) ∧
      m.states.size ≤ 90) ∧
    (m.transitions.ofAxis .unchanged = [] ∧
      (m.transitions.ofAxis .level).length + (m.transitions.ofAxis .position).length +
        (m.transitions.ofAxis .variant).length = m.transitions.size) ∧
    (∀ k,
      (m.transitions.touching k).length = (m.transitions.outgoing k).length + (m.transitions.incoming k).length ∧
      (¬ m.states.contains k → m.transitions.touching k = [])) ∧
    ((m.states.states.map fun s => (m.transitions.outgoing s.key).length).sum = m.transitions.size ∧
      (m.states.states.map fun s => (m.transitions.incoming s.key).length).sum = m.transitions.size) ∧
    (m.transitions.size ≤ m.states.size * (m.states.size - 1) ∧ m.transitions.size ≤ 8010) ∧
    m.summary =
        { states := m.states.size, birdStates := m.states.withBird.length, transitions := m.transitions.size } ∧
      m.states.withBird.length ≤ m.states.size := by
  have h := hm.legal
  have hnormal := Registry.length_missing_add h.keys_nodup .normal
  rw [show m.states.missing .normal = [] from h.missing_base, List.length_nil] at hnormal
  have hpairs : m.states.size * (m.states.size - 1) ≤ 90 * 89 :=
    Nat.mul_le_mul h.size_states_le (Nat.sub_le_sub_right h.size_states_le 1)
  refine ⟨⟨by omega, m.states.length_ofVariant_add, fun v => ?_, h.size_states_le⟩,
    ⟨h.ofAxis_unchanged, h.length_ofAxis_add⟩, fun k => ⟨h.length_touching k, h.touching_eq_nil⟩, ⟨?_, ?_⟩,
    ⟨h.size_transitions_le, h.size_transitions_le.trans hpairs⟩, rfl, List.length_filter_le _ _⟩
  · have hv := Registry.length_missing_add h.keys_nodup v
    omega
  · simpa [Registry.keys, Function.comp_def] using h.sum_length_outgoing
  · simpa [Registry.keys, Function.comp_def] using h.sum_length_incoming

/-- The two corners with a bird on one of them; the bird of the other one has a level and no position. -/
def birdCorners : Model :=
  (corners.edit (.updateBird zetaCorner (.place zetaCorner.level zetaCorner.position))).edit
    (.updateBird etaCorner { level := some (some etaCorner.level) })

/-- Two overlay states stand beside the base grid, the one edge is at both, and one bird is visible. -/
theorem census_birdCorners :
    birdCorners.states.size = 32 ∧ birdCorners.transitions.size = 1 ∧
      (birdCorners.states.ofVariant .normal).length = 30 ∧
      (birdCorners.transitions.ofAxis .variant).length = 1 ∧
      (birdCorners.transitions.touching zetaCorner).length = 1 ∧
      (birdCorners.states.states.map fun s => (birdCorners.transitions.incoming s.key).length).sum = 1 ∧
      birdCorners.summary = { states := 32, birdStates := 1, transitions := 1 } := by
  have hreachable : birdCorners.Reachable := .edit (.edit reachable_corners _) _
  obtain ⟨⟨hbase, _⟩, ⟨_, haxes⟩, htouching, ⟨_, hincoming⟩, _, hsummary, _⟩ := census hreachable
  have hstates : birdCorners.states.size = 32 := by decide +kernel
  have hedges : birdCorners.transitions.size = 1 := by decide +kernel
  have hbirds : birdCorners.states.withBird.length = 1 := by decide +kernel
  refine ⟨hstates, hedges, hbase, ?_, (htouching _).1.trans (by decide +kernel), hincoming.trans hedges, ?_⟩
  · have hlevel : (birdCorners.transitions.ofAxis .level).length = 0 := by decide +kernel
    have hposition : (birdCorners.transitions.ofAxis .position).length = 0 := by decide +kernel
    omega
  · rw [hsummary, hstates, hbirds, hedges]

end Model

end BirdBoard
