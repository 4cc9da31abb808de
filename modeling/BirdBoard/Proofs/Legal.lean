import Mathlib.Data.List.Nodup
import BirdBoard.Document.Replay
import BirdBoard.Proofs.FirstComer

/-! # Legal models

  What holds of every model that edits and replays can reach.

  - `Model.Legal` is the invariant: the base grid stands first, keys and names of edges are distinct, and every edge is
    proper, has two registered ends, the axis between them and a label.
  - On a legal model each edit has a closed form on the two lists (`edit_addState` and the lemmas after it): it adds
    what is missing, maps, or filters.
  - `Legal.edit` is the step, `Legal.run` and `Legal.replay` carry it along, and `Reachable.legal` is the invariant of
    all reachable models.
-/

namespace BirdBoard

/-! ### Keys -/

/-- The keys of the states, in the order of the registry. -/
def Registry.keys (r : Registry) : List StateKey := r.states.map State.key

/-- The names of the edges, oldest first. -/
def TransitionSet.ids (ts : TransitionSet) : List TransitionId := ts.edges.map Transition.id

theorem Registry.contains_iff_mem_keys {r : Registry} {k : StateKey} : r.contains k ↔ k ∈ r.keys := by
  rw [contains_iff, keys, List.mem_map]

theorem TransitionSet.contains_iff_mem_ids {ts : TransitionSet} {id : TransitionId} :
    ts.contains id ↔ id ∈ ts.ids := by
  simp [contains, ids]

/-- New states bear the keys that they were made for. -/
@[simp] theorem map_key_fresh (ks : List StateKey) : (ks.map State.fresh).map State.key = ks := by
  simp [List.map_map, Function.comp_def, State.fresh]

@[simp] theorem Registry.keys_baseGrid : Registry.baseGrid.keys = StateKey.grid .base := by
  rw [baseGrid_eq]
  exact map_key_fresh _

/-- Changes of birds leave the keys alone. -/
theorem Registry.keys_map (r : Registry) {f : State → State} (hf : ∀ s, (f s).key = s.key) :
    ({ states := r.states.map f } : Registry).keys = r.keys := by
  simp [keys, Function.comp_def, hf]

/-! ### Other lists in a model -/

/-- The model with other states. -/
def Model.withStates (m : Model) (states : List State) : Model := { m with states := { states } }

/-- The model with other edges. -/
def Model.withEdges (m : Model) (edges : List Transition) : Model := { m with transitions := { edges } }

namespace Model

variable (m : Model) (ss : List State) (ts : List Transition)

@[simp] theorem states_withStates : (m.withStates ss).states = { states := ss } := rfl

@[simp] theorem transitions_withStates : (m.withStates ss).transitions = m.transitions := rfl

@[simp] theorem states_withEdges : (m.withEdges ts).states = m.states := rfl

@[simp] theorem transitions_withEdges : (m.withEdges ts).transitions = { edges := ts } := rfl

@[simp] theorem withStates_withStates (ss' : List State) : (m.withStates ss).withStates ss' = m.withStates ss' := rfl

@[simp] theorem withEdges_withEdges (ts' : List Transition) : (m.withEdges ts).withEdges ts' = m.withEdges ts' := rfl

@[simp] theorem withStates_withEdges : (m.withEdges ts).withStates ss = (m.withStates ss).withEdges ts := rfl

@[simp] theorem withStates_self : m.withStates m.states.states = m := rfl

@[simp] theorem withEdges_self : m.withEdges m.transitions.edges = m := rfl

end Model

/-! ### Legality -/

/-- An edge that belongs on a registry. -/
structure Transition.Legal (r : Registry) (t : Transition) : Prop where
  /-- The edge is no loop. -/
  proper : t.id.source ≠ t.id.target
  /-- The state that the edge leaves is registered. -/
  source_mem : t.id.source ∈ r.keys
  /-- The state that the edge enters is registered. -/
  target_mem : t.id.target ∈ r.keys
  /-- The edge has the axis between its ends. -/
  axis_eq : t.axis = Axis.between t.id.source t.id.target
  /-- The edge has a label. -/
  label_ne : t.label ≠ ""

/-- The invariant of models. -/
structure Model.Legal (m : Model) : Prop where
  /-- The base grid stands first, and overlay states follow it. -/
  gridFirst : ∃ overlays, m.states.keys = StateKey.grid .base ++ overlays ∧ ∀ k ∈ overlays, ¬ k.variant.isBase
  /-- No key has two states. -/
  keys_nodup : m.states.keys.Nodup
  /-- No ordered pair of keys has two edges. -/
  ids_nodup : m.transitions.ids.Nodup
  /-- Every edge belongs on the registry. -/
  edge : ∀ t ∈ m.transitions.edges, t.Legal m.states

/-- An edge stays where it belongs as long as both of its ends do. -/
theorem Transition.Legal.of_mem {r r' : Registry} {t : Transition} (h : t.Legal r)
    (hs : t.id.source ∈ r'.keys) (ht : t.id.target ∈ r'.keys) : t.Legal r' :=
  { h with source_mem := hs, target_mem := ht }

/-- An edge between two different registered states belongs on the registry as soon as it is made. -/
theorem Transition.legal_make {r : Registry} {id : TransitionId} (label : Option String)
    (hne : id.source ≠ id.target) (hs : id.source ∈ r.keys) (ht : id.target ∈ r.keys) : (make id label).Legal r :=
  { proper := hne, source_mem := hs, target_mem := ht, axis_eq := rfl, label_ne := label_make_ne id label }

namespace Model.Legal

variable {m : Model}

/-- Every base key is registered. -/
theorem mem_keys_of_isBase (h : m.Legal) {k : StateKey} (hk : k.variant.isBase) : k ∈ m.states.keys := by
  obtain ⟨overlays, hkeys, _⟩ := h.gridFirst
  rw [hkeys]
  exact List.mem_append_left _ (StateKey.mem_grid.mpr (by simpa [Variant.isBase] using hk))

/-- The ends of an edge are registered. -/
theorem mem_keys_of_touches (h : m.Legal) {t : Transition} (ht : t ∈ m.transitions.edges) {k : StateKey}
    (hk : t.id.touches k) : k ∈ m.states.keys := by
  have ⟨_, hs, ht, _, _⟩ := h.edge t ht
  simp only [TransitionId.touches, Bool.or_eq_true, beq_iff_eq] at hk
  rcases hk with rfl | rfl
  · exact hs
  · exact ht

end Model.Legal

/-! ### Commands on the registry -/

namespace Registry

variable {r : Registry} {k : StateKey}

theorem indexOf?_eq_none_iff : r.indexOf? k = none ↔ k ∉ r.keys := by
  simp [indexOf?, keys]

theorem mem_keys_of_indexOf? {i : Nat} (hi : r.indexOf? k = some i) : k ∈ r.keys := by
  by_contra hk
  rw [indexOf?_eq_none_iff.mpr hk] at hi
  cases hi

theorem key_ne_of_notMem (hk : k ∉ r.keys) : ∀ s ∈ r.states, s.key ≠ k := by
  rintro s hs rfl
  exact hk (List.mem_map_of_mem hs)

/-- An insertion adds a new state if the key is missing. -/
theorem insert_eq (r : Registry) (k : StateKey) :
    (r.insert k).2 = { states := appendNew State.key r.states [State.fresh k] } := by
  have hk := r.isSome_get? k
  unfold insert
  cases h : r.get? k with
  | some s =>
    have hmem : k ∈ r.keys := contains_iff_mem_keys.mp (by rw [← hk, h]; rfl)
    rw [appendNew_cons_of_mem [] hmem, appendNew_nil]
  | none =>
    have hmem : k ∉ r.keys := fun hmem => by
      rw [contains_iff_mem_keys.mpr hmem, h] at hk
      cases hk
    rw [appendNew_cons_of_notMem [] hmem, appendNew_nil]

/-- **Step**: a turn of the loop over a grid adds a new state if the key is missing. -/
theorem fill_snd (added : Nat × Registry) (k : StateKey) :
    (fill added k).2 = { states := appendNew State.key added.2.states [State.fresh k] } := by
  unfold fill
  split
  · next hk => rw [appendNew_cons_of_mem [] (contains_iff_mem_keys.mp hk), appendNew_nil]
  · next hk => rw [appendNew_cons_of_notMem [] (mt contains_iff_mem_keys.mpr hk), appendNew_nil]

/-- **Run**: the loop adds a new state for each key that is missing when its turn comes. -/
theorem foldl_fill_snd (ks : List StateKey) (added : Nat × Registry) :
    (ks.foldl fill added).2 = { states := appendNew State.key added.2.states (ks.map State.fresh) } := by
  induction ks generalizing added with
  | nil => simp
  | cons k ks ih => rw [List.foldl_cons, ih, fill_snd, List.map_cons, appendNew_cons _ _ _ (ks.map _)]

theorem insertGrid_snd (r : Registry) (v : Variant) :
    (r.insertGrid v).2 = { states := appendNew State.key r.states ((StateKey.grid v).map State.fresh) } := by
  rw [insertGrid_eq_foldl, foldl_fill_snd]

/-- An erasure drops the state of an overlay key. -/
theorem erase?_eq (h : r.keys.Nodup) (k : StateKey) :
    r.erase? k =
      if k.variant.isBase ∨ k ∉ r.keys then none else some { states := r.states.filter (·.key != k) } := by
  unfold erase?
  by_cases hb : k.variant.isBase
  · simp [hb]
  · cases hi : r.indexOf? k with
    | none => simp [indexOf?_eq_none_iff.mp hi]
    | some i => simp [hb, mem_keys_of_indexOf? hi, eraseIdx_first h hi]

/-- A patch changes the bird of the state of its key. -/
theorem patch?_eq (h : r.keys.Nodup) (k : StateKey) (p : BirdPatch) :
    r.patch? k p =
      if k ∈ r.keys then
        some { states := r.states.map fun s => if s.key = k then { s with bird := p.apply s.bird } else s }
      else none := by
  unfold patch?
  cases hi : r.indexOf? k with
  | none => simp [indexOf?_eq_none_iff.mp hi]
  | some i => simp [mem_keys_of_indexOf? hi, modify_first _ h hi]

end Registry

/-- An erasure drops the edge of its pair. -/
theorem TransitionSet.erase?_eq {ts : TransitionSet} (h : ts.ids.Nodup) (id : TransitionId) :
    ts.erase? id = if id ∈ ts.ids then some { edges := ts.edges.filter (·.id != id) } else none := by
  unfold erase?
  cases hi : ts.edges.findIdx? (·.id == id) with
  | none =>
    have hmem : id ∉ ts.ids := by simpa [ids] using hi
    simp [hmem]
  | some i =>
    have hmem : id ∈ ts.ids := by
      by_contra hmem
      have hnone : ts.edges.findIdx? (·.id == id) = none := by simpa [ids] using hmem
      simp [hnone] at hi
    simp [hmem, eraseIdx_first h hi]

/-- Loops, pairs that have an edge and ends without a state get no draft. -/
theorem TransitionSet.draft?_eq (ts : TransitionSet) (r : Registry) (id : TransitionId) (label : Option String) :
    ts.draft? r id label =
      if id.source = id.target ∨ ts.contains id ∨ ¬ r.contains id.source ∨ ¬ r.contains id.target then none
      else some (Transition.make id label) := by
  unfold draft?
  simp [or_assoc]

/-! ### Edits on a legal model -/

namespace Model

variable {m : Model}

theorem edit_addState (m : Model) (k : StateKey) :
    m.edit (.addState k) = m.withStates (appendNew State.key m.states.states [State.fresh k]) := by
  simp [edit, addState, Registry.insert_eq, withStates]

theorem addGrid_snd (m : Model) (v : Variant) :
    (m.addGrid v).2 =
      m.withStates (appendNew State.key m.states.states ((StateKey.grid v).map State.fresh)) := by
  simp [addGrid, Registry.insertGrid_snd, withStates]

theorem edit_addGrid (m : Model) (v : Variant) :
    m.edit (.addGrid v) =
      m.withStates (appendNew State.key m.states.states ((StateKey.grid v).map State.fresh)) :=
  m.addGrid_snd v

/-- Removing a state drops an overlay state and every edge at it. -/
theorem edit_removeState (h : m.Legal) (k : StateKey) :
    m.edit (.removeState k) =
      (m.withStates (m.states.states.filter fun s => k.variant.isBase || s.key != k)).withEdges
        (m.transitions.edges.filter fun t => k.variant.isBase || !t.id.touches k) := by
  simp only [edit, removeState, Registry.erase?_eq h.keys_nodup]
  by_cases hb : k.variant.isBase
  · simp [hb]
  by_cases hk : k ∈ m.states.keys
  · simp [hb, hk, TransitionSet.eraseTouching, withStates, withEdges]
  · -- A key without a state has no edges either, so both filters keep everything.
    have hstates := Registry.key_ne_of_notMem hk
    have hedges : ∀ t ∈ m.transitions.edges, t.id.touches k = false := fun t ht => by
      simpa using fun htk => hk (h.mem_keys_of_touches ht htk)
    have hfs : m.states.states.filter (fun s => k.variant.isBase || s.key != k) = m.states.states := by
      simpa [List.filter_eq_self, hb] using hstates
    have hfe : m.transitions.edges.filter (fun t => k.variant.isBase || !t.id.touches k) = m.transitions.edges := by
      simpa [List.filter_eq_self, hb] using hedges
    rw [hfs, hfe]
    simp [hb, hk]

/-- Updating a bird patches the state of the key. -/
theorem edit_updateBird (h : m.states.keys.Nodup) (k : StateKey) (p : BirdPatch) :
    m.edit (.updateBird k p) =
      m.withStates (m.states.states.map fun s => if s.key = k then { s with bird := p.apply s.bird } else s) := by
  simp only [edit, updateBird, Registry.patch?_eq h]
  by_cases hk : k ∈ m.states.keys
  · simp [hk, withStates]
  · have hstates := Registry.key_ne_of_notMem hk
    rw [List.map_congr_left fun s hs => if_neg (hstates s hs)]
    simp [hk]

/-- Adding an edge between two different registered states adds it if the pair has none. -/
theorem edit_addTransition (m : Model) (id : TransitionId) (label : Option String) :
    m.edit (.addTransition id label) =
      if id.source ≠ id.target ∧ id.source ∈ m.states.keys ∧ id.target ∈ m.states.keys then
        m.withEdges (appendNew Transition.id m.transitions.edges [Transition.make id label])
      else m := by
  simp only [edit, addTransition, TransitionSet.draft?_eq, TransitionSet.contains_iff_mem_ids,
    Registry.contains_iff_mem_keys]
  by_cases hends : id.source ≠ id.target ∧ id.source ∈ m.states.keys ∧ id.target ∈ m.states.keys
  · obtain ⟨hne, hs, ht⟩ := hends
    by_cases hid : id ∈ m.transitions.ids
    · rw [appendNew_cons_of_mem [] hid, appendNew_nil]
      simp [hid]
    · rw [appendNew_cons_of_notMem [] hid, appendNew_nil]
      simp [hne, hs, ht, hid, TransitionSet.push, withEdges]
  · have hrefused : id.source = id.target ∨ id ∈ m.transitions.ids ∨ id.source ∉ m.states.keys ∨
        id.target ∉ m.states.keys := by tauto
    rw [if_neg hends, if_pos hrefused]

/-- Removing an edge drops the edge of the pair. -/
theorem edit_removeTransition (h : m.transitions.ids.Nodup) (id : TransitionId) :
    m.edit (.removeTransition id) = m.withEdges (m.transitions.edges.filter (·.id != id)) := by
  simp only [edit, removeTransition, TransitionSet.erase?_eq h]
  by_cases hid : id ∈ m.transitions.ids
  · simp [hid, withEdges]
  · have hedges : ∀ t ∈ m.transitions.edges, t.id ≠ id := fun t ht e => hid (e ▸ List.mem_map_of_mem ht)
    have hfe : m.transitions.edges.filter (·.id != id) = m.transitions.edges := by
      simpa [List.filter_eq_self] using hedges
    rw [hfe]
    simp [hid]

end Model

/-! ### Preservation -/

namespace Model.Legal

variable {m : Model}

/-- The initial model is legal. -/
theorem initial : Model.initial.Legal where
  gridFirst := ⟨[], by simp [Model.initial], by simp⟩
  keys_nodup := by
    simpa [Model.initial] using StateKey.nodup_grid .base
  ids_nodup := List.nodup_nil
  edge := by simp [Model.initial, TransitionSet.empty]

/-- New states for missing keys come behind the base grid, and the edges do not notice them. -/
theorem appendFresh (h : m.Legal) (ks : List StateKey) :
    (m.withStates (appendNew State.key m.states.states (ks.map State.fresh))).Legal := by
  obtain ⟨overlays, hkeys, hover⟩ := h.gridFirst
  obtain ⟨new, hnew, hmem⟩ := appendNew_eq_append State.key m.states.states (ks.map State.fresh)
  have hsub : ∀ k ∈ m.states.keys, k ∈ (appendNew State.key m.states.states (ks.map State.fresh)).map State.key :=
    fun k hk => mem_map_appendNew.mpr (.inl hk)
  refine ⟨⟨overlays ++ new.map State.key, ?_, ?_⟩, nodup_map_appendNew _ h.keys_nodup, h.ids_nodup, ?_⟩
  · rw [← List.append_assoc, ← hkeys]
    simp [Registry.keys, hnew]
  · intro k hk
    rcases List.mem_append.mp hk with hk | hk
    · exact hover k hk
    · -- A key that was missing is no base key: those are all there.
      obtain ⟨s, hs, rfl⟩ := List.mem_map.mp hk
      exact fun hb => (hmem s hs).2 (h.mem_keys_of_isBase hb)
  · intro t ht
    have htl := h.edge t ht
    exact htl.of_mem (hsub _ htl.source_mem) (hsub _ htl.target_mem)

/-- A change of birds keeps a model legal. -/
theorem mapStates (h : m.Legal) {f : State → State} (hf : ∀ s, (f s).key = s.key) :
    (m.withStates (m.states.states.map f)).Legal := by
  have hkeys := m.states.keys_map hf
  refine ⟨?_, ?_, h.ids_nodup, ?_⟩
  · rw [states_withStates, hkeys]
    exact h.gridFirst
  · rw [states_withStates, hkeys]
    exact h.keys_nodup
  · intro t ht
    have htl := h.edge t ht
    exact htl.of_mem (hkeys ▸ htl.source_mem) (hkeys ▸ htl.target_mem)

/-- Dropping an overlay state keeps a model legal, because the edges at it go with it. -/
theorem removeState (h : m.Legal) (k : StateKey) :
    ((m.withStates (m.states.states.filter fun s => k.variant.isBase || s.key != k)).withEdges
      (m.transitions.edges.filter fun t => k.variant.isBase || !t.id.touches k)).Legal := by
  have hkeys : ({ states := m.states.states.filter fun s => k.variant.isBase || s.key != k } : Registry).keys =
      m.states.keys.filter fun j => k.variant.isBase || j != k := by
    simp [Registry.keys, List.filter_map, Function.comp_def]
  obtain ⟨overlays, hsplit, hover⟩ := h.gridFirst
  refine ⟨⟨overlays.filter fun j => k.variant.isBase || j != k, ?_, ?_⟩, ?_, ?_, ?_⟩
  · -- A base key is never removed, and an overlay key is not in the grid.
    have hgrid : (StateKey.grid .base).filter (fun j => k.variant.isBase || j != k) = StateKey.grid .base := by
      rw [List.filter_eq_self]
      intro j hj
      by_cases hjk : j = k
      · have hjb := StateKey.mem_grid.mp hj
        simp [← hjk, hjb, Variant.isBase]
      · simp [hjk]
    rw [states_withEdges, states_withStates, hkeys, hsplit, List.filter_append, hgrid]
  · exact fun j hj => hover j (List.mem_filter.mp hj).1
  · rw [states_withEdges, states_withStates, hkeys]
    exact h.keys_nodup.filter _
  · exact h.ids_nodup.sublist (List.filter_sublist.map _)
  · intro t ht
    obtain ⟨ht, hkeep⟩ := List.mem_filter.mp ht
    have htl := h.edge t ht
    -- An edge that was kept does not touch the removed key.
    have hends : k.variant.isBase ∨ t.id.source ≠ k ∧ t.id.target ≠ k := by
      simpa [TransitionId.touches] using hkeep
    have hs : t.id.source ∈ m.states.keys.filter fun j => k.variant.isBase || j != k :=
      List.mem_filter.mpr ⟨htl.source_mem, by simpa using hends.imp_right And.left⟩
    have ht : t.id.target ∈ m.states.keys.filter fun j => k.variant.isBase || j != k :=
      List.mem_filter.mpr ⟨htl.target_mem, by simpa using hends.imp_right And.right⟩
    exact htl.of_mem (hkeys ▸ hs) (hkeys ▸ ht)

/-- A new edge between two different registered states keeps a model legal. -/
theorem appendEdge (h : m.Legal) {id : TransitionId} (label : Option String) (hne : id.source ≠ id.target)
    (hs : id.source ∈ m.states.keys) (ht : id.target ∈ m.states.keys) :
    (m.withEdges (appendNew Transition.id m.transitions.edges [Transition.make id label])).Legal := by
  obtain ⟨new, hnew, hmem⟩ := appendNew_eq_append Transition.id m.transitions.edges [Transition.make id label]
  refine ⟨h.gridFirst, h.keys_nodup, nodup_map_appendNew _ h.ids_nodup, ?_⟩
  rw [hnew]
  intro t htmem
  rcases List.mem_append.mp htmem with hold | hadd
  · exact h.edge t hold
  · rw [List.mem_singleton.mp (hmem t hadd).1]
    exact Transition.legal_make label hne hs ht

/-- Fewer edges keep a model legal. -/
theorem filterEdges (h : m.Legal) (p : Transition → Bool) : (m.withEdges (m.transitions.edges.filter p)).Legal :=
  ⟨h.gridFirst, h.keys_nodup, h.ids_nodup.sublist (List.filter_sublist.map _),
    fun t ht => h.edge t (List.mem_filter.mp ht).1⟩

/-- **Step**: every edit keeps a model legal. -/
theorem edit (h : m.Legal) (e : Edit) : (m.edit e).Legal := by
  cases e with
  | addState k =>
    rw [edit_addState]
    exact h.appendFresh [k]
  | addGrid v =>
    rw [edit_addGrid]
    exact h.appendFresh (StateKey.grid v)
  | removeState k =>
    rw [edit_removeState h]
    exact h.removeState k
  | updateBird k p =>
    rw [edit_updateBird h.keys_nodup]
    exact h.mapStates fun s => by split <;> rfl
  | addTransition id label =>
    rw [edit_addTransition]
    split
    · next hends => exact h.appendEdge label hends.1 hends.2.1 hends.2.2
    · exact h
  | removeTransition id =>
    rw [edit_removeTransition h.ids_nodup]
    exact h.filterEdges _

/-- **Run**: so does every list of edits. -/
theorem run (h : m.Legal) (es : List Edit) : (m.run es).Legal := by
  induction es generalizing m with
  | nil => exact h
  | cons e es ih => exact ih (h.edit e)

/-- A replay keeps a model legal wherever it stops. -/
theorem replay (h : m.Legal) (is : List Intent) : (m.replay is).1.Legal := by
  induction is generalizing m with
  | nil => exact h
  | cons i is ih =>
    unfold Model.replay
    split
    · exact ih (h.run _)
    · exact h

end Model.Legal

/-! ### Reachable models -/

/-- The models that edits and replays reach from the initial model. -/
inductive Model.Reachable : Model → Prop where
  /-- The initial model is reachable. -/
  | initial : Reachable Model.initial
  /-- An edit of a reachable model is reachable, whether or not it is refused. -/
  | edit {m : Model} (h : Reachable m) (e : Edit) : Reachable (m.edit e)
  /-- What a replay leaves of a reachable model is reachable, whether or not a fault stops it. -/
  | apply {m : Model} (h : Reachable m) (d : Document) : Reachable (d.apply m).1

/-- Every reachable model is legal. -/
theorem Model.Reachable.legal {m : Model} (h : m.Reachable) : m.Legal := by
  induction h with
  | initial => exact .initial
  | edit _ e ih => exact ih.edit e
  | apply _ d ih => exact ih.replay d.intents

/-- **What holds of every reachable model.** The first 30 states are those of the base variant, level by level, every
later one is an overlay state, and no key has two states; no pair has two edges, no edge is a loop, and both ends of
every edge are registered; every edge has the axis between its ends, which is never `unchanged`, and a label. -/
theorem Model.Reachable.invariant {m : Model} (h : m.Reachable) :
    ((m.states.states.take 30).map (fun s => (s.key.variant, s.key.level.val, s.key.position.val)) =
        (List.range' 0 5).flatMap (fun l => (List.range' 13 6).map fun p => (.normal, l, p)) ∧
      (∀ s ∈ m.states.states.drop 30, s.key.variant = .zeta ∨ s.key.variant = .eta) ∧
      (m.states.states.map State.key).Nodup) ∧
    ((m.transitions.edges.map Transition.id).Nodup ∧
      ∀ t ∈ m.transitions.edges, t.id.source ≠ t.id.target ∧
        (∃ s ∈ m.states.states, s.key = t.id.source) ∧ ∃ s ∈ m.states.states, s.key = t.id.target) ∧
    ∀ t ∈ m.transitions.edges,
      t.axis = Axis.between t.id.source t.id.target ∧ t.axis ≠ .unchanged ∧ t.label ≠ "" := by
  have hl := h.legal
  obtain ⟨overlays, hkeys, hover⟩ := hl.gridFirst
  have htake : (m.states.states.take 30).map State.key = StateKey.grid .base := by
    rw [List.map_take, ← Registry.keys, hkeys]
    rfl
  have hdrop : (m.states.states.drop 30).map State.key = overlays := by
    rw [List.map_drop, ← Registry.keys, hkeys]
    rfl
  refine ⟨⟨?_, ?_, hl.keys_nodup⟩, ⟨hl.ids_nodup, ?_⟩, ?_⟩
  · have hcells := congrArg (List.map fun k : StateKey => (k.variant, k.level.val, k.position.val)) htake
    rw [List.map_map] at hcells
    exact hcells
  · intro s hs
    have hb := hover s.key (hdrop ▸ List.mem_map_of_mem hs)
    cases hv : s.key.variant with
    | normal => simp [hv, Variant.isBase, Variant.base] at hb
    | zeta => exact .inl rfl
    | eta => exact .inr rfl
  · intro t ht
    have htl := hl.edge t ht
    exact ⟨htl.proper, List.mem_map.mp htl.source_mem, List.mem_map.mp htl.target_mem⟩
  · intro t ht
    have htl := hl.edge t ht
    refine ⟨htl.axis_eq, ?_, htl.label_ne⟩
    rw [htl.axis_eq, ne_eq, Axis.between_eq_unchanged_iff]
    exact htl.proper

/-- A document whose second state is outside the board. -/
def Document.halfway : Document where
  states := [⟨0, 13, .zeta⟩, ⟨9, 13, .zeta⟩]

/-- A replay that a fault stops behind its first entry leaves distinct keys. -/
theorem Model.Reachable.invariant_halfway :
    (Document.halfway.apply Model.initial).2 = some (.levelOutside 9) ∧
      (Document.halfway.apply Model.initial).1.states.size = 31 ∧
      ((Document.halfway.apply Model.initial).1.states.states.map State.key).Nodup :=
  ⟨by decide, by decide, (invariant (.apply .initial _)).1.2.2⟩

end BirdBoard
