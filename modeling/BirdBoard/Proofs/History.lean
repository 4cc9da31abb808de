import Mathlib.Order.Lattice.Nat
import BirdBoard.Proofs.Ledger
import BirdBoard.Proofs.Runs

/-! # A model as the tale of its edits

  What edits have made of the initial model, told by the list of the edits and not by carrying them out.

  - `History.Registered`, `InsertedAt`, `JoinedAt` and `UndoneAfter` speak of the places of edits in the list alone.
  - The states and the edges of a model each are a list with a history: `stateLedger` and `edgeLedger` say what an edit
    does to them, and `states_run_concat` and `edges_run_concat` that it does just this.
  - `Model.run_history` reads the two accounts together. A state or an edge that is removed and made again starts anew:
    nothing of what an edit has done to it before the removal comes back.
-/

namespace BirdBoard

/-! ### Reading histories -/

namespace History

variable (es : List Edit) (k : StateKey) (id : TransitionId) (i : Nat)

/-- The edit at a place asks for the state of a key, alone or with the grid of its variant. -/
def AskedAt : Prop := es[i]? = some (.addState k) ∨ es[i]? = some (.addGrid k.variant)

/-- The key is on the base grid, or an edit has asked for its state that no later one has removed. -/
def Registered : Prop := k.variant.isBase ∨ ∃ i, AskedAt es k i ∧ ∀ j, i < j → es[j]? ≠ some (.removeState k)

/-- The edit at a place asks for the state of a key that is not registered by then. -/
def InsertedAt : Prop := AskedAt es k i ∧ ¬ Registered (es.take i) k

/-- The edit at a place asks for an edge between two different keys that are both registered by then. -/
def JoinedAt : Prop :=
  (∃ label, es[i]? = some (.addTransition id label)) ∧ id.source ≠ id.target ∧
    Registered (es.take i) id.source ∧ Registered (es.take i) id.target

/-- An edit behind a place removes an edge or the overlay state at one of its ends. -/
def UndoneAfter : Prop :=
  ∃ j, i < j ∧ (es[j]? = some (.removeTransition id) ∨
    ∃ k, id.touches k ∧ ¬ k.variant.isBase ∧ es[j]? = some (.removeState k))

/-- The patches for the bird of a key, in order. -/
def patchesOf : List BirdPatch :=
  es.filterMap fun
    | .updateBird j p => if j = k then some p else none
    | _ => none

end History

open History

/-! ### The two ledgers -/

/-- The keys whose states an edit asks for, in order. -/
def Edit.wantedKeys : Edit → List StateKey
  | .addState k => [k]
  | .addGrid v => StateKey.grid v
  | _ => []

theorem Edit.mem_wantedKeys {e : Edit} {k : StateKey} :
    k ∈ e.wantedKeys ↔ e = .addState k ∨ e = .addGrid k.variant := by
  cases e with
  | addState j => simp [wantedKeys, eq_comm]
  | addGrid v => simp [wantedKeys, StateKey.mem_grid, eq_comm]
  | _ => simp [wantedKeys]

/-- What an edit does to the list of states. -/
def stateLedger : Ledger Edit State StateKey where
  key := State.key
  adds _ e := e.wantedKeys.map State.fresh
  drops
    | .removeState j, k => !j.variant.isBase && j == k
    | _, _ => false
  revise
    | .updateBird k p, s => if s.key = k then { s with bird := p.apply s.bird } else s
    | _, s => s
  nodup_adds _ e := by
    rw [map_key_fresh]
    cases e with
    | addState k => exact List.nodup_singleton k
    | addGrid v => exact StateKey.nodup_grid v
    | _ => exact List.nodup_nil
  key_revise e s := by
    cases e with
    | updateBird k p =>
      dsimp only
      split <;> rfl
    | _ => rfl

/-- What an edit does to the list of edges. -/
def edgeLedger : Ledger Edit Transition TransitionId where
  key := Transition.id
  adds
    | es, .addTransition id label =>
      if id.source ≠ id.target ∧ id.source ∈ (Model.initial.run es).states.keys ∧
        id.target ∈ (Model.initial.run es).states.keys then [Transition.make id label] else []
    | _, _ => []
  drops
    | .removeTransition j, id => j == id
    | .removeState k, id => !k.variant.isBase && id.touches k
    | _, _ => false
  revise _ t := t
  nodup_adds es e := by
    cases e with
    | addTransition id label =>
      dsimp only
      split
      · exact List.nodup_singleton id
      · exact List.nodup_nil
    | _ => exact List.nodup_nil
  key_revise _ _ := rfl

namespace Model

variable {es : List Edit} {k : StateKey} {id : TransitionId} {i : Nat}

theorem run_concat (m : Model) (es : List Edit) (e : Edit) : m.run (es ++ [e]) = (m.run es).edit e :=
  run_append m es [e]

/-- An edit does to the states what their ledger says. -/
theorem states_run_concat (es : List Edit) (e : Edit) :
    (Model.initial.run (es ++ [e])).states.states =
      stateLedger.step es e (Model.initial.run es).states.states := by
  have h := Legal.initial.run es
  rw [run_concat]
  cases e with
  | addState k =>
    rw [edit_addState, Ledger.step_of_adding _ _ (fun _ => rfl) fun _ => rfl]
    rfl
  | addGrid v =>
    rw [edit_addGrid, Ledger.step_of_adding _ _ (fun _ => rfl) fun _ => rfl]
    rfl
  | removeState k =>
    rw [edit_removeState h]
    simp [stateLedger, Ledger.step, Ledger.kept, Edit.wantedKeys, bne, Bool.beq_comm]
  | updateBird k p =>
    rw [edit_updateBird h.keys_nodup]
    simp [stateLedger, Ledger.step, Ledger.kept, Edit.wantedKeys]
  | addTransition id label =>
    rw [edit_addTransition, Ledger.step_of_adding _ _ (fun _ => rfl) fun _ => rfl]
    split <;> exact (appendNew_nil _ _).symm
  | removeTransition id =>
    rw [edit_removeTransition h.ids_nodup, Ledger.step_of_adding _ _ (fun _ => rfl) fun _ => rfl]
    exact (appendNew_nil _ _).symm

/-- An edit does to the edges what their ledger says. -/
theorem edges_run_concat (es : List Edit) (e : Edit) :
    (Model.initial.run (es ++ [e])).transitions.edges =
      edgeLedger.step es e (Model.initial.run es).transitions.edges := by
  have h := Legal.initial.run es
  rw [run_concat]
  cases e with
  | addState k =>
    rw [edit_addState, Ledger.step_of_adding _ _ (fun _ => rfl) fun _ => rfl]
    exact (appendNew_nil _ _).symm
  | addGrid v =>
    rw [edit_addGrid, Ledger.step_of_adding _ _ (fun _ => rfl) fun _ => rfl]
    exact (appendNew_nil _ _).symm
  | removeState k =>
    rw [edit_removeState h]
    simp [edgeLedger, Ledger.step, Ledger.kept]
  | updateBird k p =>
    rw [edit_updateBird h.keys_nodup, Ledger.step_of_adding _ _ (fun _ => rfl) fun _ => rfl]
    exact (appendNew_nil _ _).symm
  | addTransition id label =>
    rw [edit_addTransition, Ledger.step_of_adding _ _ (fun _ => rfl) fun _ => rfl]
    split
    · next hends => simp [edgeLedger, hends]
    · next hends => simp [edgeLedger, hends]
  | removeTransition id =>
    rw [edit_removeTransition h.ids_nodup]
    simp [edgeLedger, Ledger.step, Ledger.kept, bne, Bool.beq_comm]

end Model

/-! ### Places in the ledgers -/

namespace History

variable {es : List Edit} {k : StateKey} {id : TransitionId} {i : Nat}

theorem askedAt_iff :
    AskedAt es k i ↔ ∃ e, es[i]? = some e ∧ k ∈ (stateLedger.adds (es.take i) e).map stateLedger.key := by
  have hkeys (e : Edit) : (stateLedger.adds (es.take i) e).map stateLedger.key = e.wantedKeys :=
    map_key_fresh e.wantedKeys
  simp only [AskedAt, hkeys, Edit.mem_wantedKeys, and_or_left, exists_or, exists_eq_right]

theorem drops_state_iff (hover : ¬ k.variant.isBase) {e : Edit} :
    stateLedger.drops e k = false ↔ e ≠ .removeState k := by
  cases e with
  | removeState j =>
    simp only [stateLedger, Bool.and_eq_false_iff, Bool.not_eq_false', ne_eq, Edit.removeState.injEq,
      beq_eq_false_iff_ne]
    constructor
    · rintro (hbase | hne) rfl
      · exact hover hbase
      · exact hne rfl
    · exact .inr
  | _ => simp [stateLedger]

/-- Lasting additions of an overlay state are those behind which the state is not removed. -/
theorem mem_lasting_state (hover : ¬ k.variant.isBase) :
    i ∈ stateLedger.lasting es k ↔ AskedAt es k i ∧ ∀ j, i < j → es[j]? ≠ some (.removeState k) := by
  have hkept : (∀ j f, i < j → es[j]? = some f → stateLedger.drops f k = false) ↔
      ∀ j, i < j → es[j]? ≠ some (.removeState k) := by
    simp only [drops_state_iff hover]
    constructor
    · exact fun h j hij hj => h j _ hij hj rfl
    · rintro h j f hij hf rfl
      exact h j hij hf
  simp only [Ledger.lasting, Set.mem_ofPred_eq, hkept, askedAt_iff, ← and_assoc, exists_and_right]

theorem registered_iff (hover : ¬ k.variant.isBase) : Registered es k ↔ (stateLedger.lasting es k).Nonempty := by
  simp only [Registered, or_iff_right hover, Set.Nonempty, mem_lasting_state hover]

/-- The first lasting addition of an overlay state is the last one that has found the key absent. -/
theorem isGreatest_insertedAt (hover : ¬ k.variant.isBase) (h : IsLeast (stateLedger.lasting es k) i) :
    IsGreatest {j | InsertedAt es k j} i := by
  simp only [InsertedAt, registered_iff hover, askedAt_iff]
  refine Ledger.isGreatest_of_isLeast_lasting (fun es e hk => ?_) h
  rw [drops_state_iff hover]
  rintro rfl
  cases hk

/-- So while the state is there, either determines the other. -/
theorem isLeast_lasting_state (hover : ¬ k.variant.isBase) (hk : (stateLedger.lasting es k).Nonempty)
    (h : IsGreatest {j | InsertedAt es k j} i) : IsLeast (stateLedger.lasting es k) i := by
  have hfirst := isLeast_csInf hk
  rwa [h.unique (isGreatest_insertedAt hover hfirst)]

/-- No edit of a history inserts a base key. -/
theorem not_insertedAt_of_isBase (hbase : k.variant.isBase) : ¬ InsertedAt es k i := fun h => h.2 (.inl hbase)

/-- The revisions of a state patch its bird. -/
theorem revised_state (es : List Edit) (s : State) :
    stateLedger.revised es s = { s with bird := s.bird.afterPatches (patchesOf es s.key) } := by
  induction es generalizing s with
  | nil => rfl
  | cons e es ih =>
    show stateLedger.revised es (stateLedger.revise e s) = _
    rw [ih]
    cases e with
    | updateBird k p =>
      by_cases hk : s.key = k
      · simp [stateLedger, patchesOf, Bird.afterPatches, hk]
      · simp [stateLedger, patchesOf, hk, Ne.symm hk]
    | _ => rfl

/-- Edits ask for the keys of a grid level by level. -/
theorem wantedKeys_pairwise (e : Edit) : e.wantedKeys.Pairwise fun a b =>
    a.level.val < b.level.val ∨ a.level = b.level ∧ a.position.val < b.position.val := by
  cases e with
  | addState k => exact List.pairwise_singleton _ k
  | addGrid v => cases v <;> decide
  | _ => exact .nil

/-- Nothing about an edge changes while it is there. -/
theorem revised_edge (es : List Edit) (t : Transition) : edgeLedger.revised es t = t := by
  induction es with
  | nil => rfl
  | cons e es ih => exact ih

/-- An edit asks for no edge or for one. -/
theorem adds_edge (es : List Edit) (e : Edit) :
    edgeLedger.adds es e = [] ∨
      ∃ id label, e = .addTransition id label ∧ edgeLedger.adds es e = [Transition.make id label] := by
  cases e with
  | addTransition id label =>
    simp only [edgeLedger]
    split
    · exact .inr ⟨id, label, rfl, rfl⟩
    · exact .inl rfl
  | _ => exact .inl rfl

theorem drops_edge_iff {e : Edit} :
    edgeLedger.drops e id = false ↔
      e ≠ .removeTransition id ∧ ∀ k, id.touches k → ¬ k.variant.isBase → e ≠ .removeState k := by
  cases e with
  | removeTransition j => simp [edgeLedger]
  | removeState j =>
    simp only [edgeLedger, Bool.and_eq_false_iff, Bool.not_eq_false', ne_eq, reduceCtorEq, not_false_eq_true, true_and,
      Edit.removeState.injEq]
    constructor
    · rintro (hbase | htouch) k hk hover rfl
      · exact hover hbase
      · rw [hk] at htouch
        cases htouch
    · intro h
      by_contra hnot
      rw [not_or, Bool.not_eq_false] at hnot
      exact h j hnot.2 hnot.1 rfl
  | _ => simp [edgeLedger]

end History

namespace Model

variable {es : List Edit} {k : StateKey} {id : TransitionId} {i : Nat}

/-! ### States -/

/-- The base grid stands in front, and the history tells the states behind it. -/
theorem states_run (es : List Edit) :
    ∃ new, (Model.initial.run es).states.states =
        (StateKey.grid .base).map (fun k => { key := k, bird := Bird.afterPatches {} (patchesOf es k) }) ++ new ∧
      stateLedger.Account Registry.baseGrid.states es new := by
  have hpermanent : ∀ e, ∀ s ∈ Registry.baseGrid.states, stateLedger.drops e (stateLedger.key s) = false := by
    intro e s hs
    rw [Registry.baseGrid_eq] at hs
    obtain ⟨k, hk, rfl⟩ := List.mem_map.mp hs
    have hbase : k.variant = .base := StateKey.mem_grid.mp hk
    cases e with
    | removeState j =>
      by_cases hj : j = k
      · simp [stateLedger, hj, hbase, Variant.isBase]
      · simp [stateLedger, State.fresh, hj]
    | _ => rfl
  obtain ⟨new, hstates, haccount⟩ :=
    Ledger.exists_account (f := fun es => (Model.initial.run es).states.states) hpermanent rfl states_run_concat es
  refine ⟨new, ?_, haccount⟩
  rw [hstates, Registry.baseGrid_eq, List.map_map]
  congr 2
  funext k
  exact revised_state es (State.fresh k)

theorem mem_keys_new_iff {new : List State} (h : stateLedger.Account Registry.baseGrid.states es new) :
    k ∈ new.map State.key ↔ ¬ k.variant.isBase ∧ Registered es k := by
  have hgrid : k ∉ Registry.baseGrid.states.map State.key ↔ ¬ k.variant.isBase := by
    rw [← Registry.keys, Registry.keys_baseGrid, StateKey.mem_grid, Variant.isBase, beq_iff_eq]
  refine (h.mem_keys k).trans ((and_congr_left fun _ => hgrid).trans (and_congr_right fun hover => ?_))
  exact (registered_iff hover).symm

theorem contains_run_iff : (Model.initial.run es).states.contains k ↔ Registered es k := by
  obtain ⟨new, hstates, haccount⟩ := states_run es
  have hkeys : (Model.initial.run es).states.keys = StateKey.grid .base ++ new.map State.key := by
    simp [Registry.keys, hstates, Function.comp_def]
  rw [Registry.contains_iff_mem_keys, hkeys, List.mem_append, StateKey.mem_grid, mem_keys_new_iff haccount]
  by_cases hbase : k.variant.isBase
  · exact iff_of_true (.inl (by simpa [Variant.isBase] using hbase)) (.inl hbase)
  · rw [and_iff_right hbase]
    exact or_iff_right (by simpa [Variant.isBase] using hbase)

/-- The place of a state behind the base grid is that of its first lasting addition. -/
theorem isLeast_of_mem_new {new : List State} (h : stateLedger.Account Registry.baseGrid.states es new) {s : State}
    (hs : s ∈ new) (hi : IsGreatest {i | InsertedAt es s.key i} i) : IsLeast (stateLedger.lasting es s.key) i := by
  obtain ⟨hover, hregistered⟩ := (mem_keys_new_iff h).mp (List.mem_map_of_mem hs)
  exact isLeast_lasting_state hover ((registered_iff hover).mp hregistered) hi

/-- The overlay states stand behind the base grid in the order of their last insertions. -/
theorem overlays_run (es : List Edit) :
    ∃ overlays, (Model.initial.run es).states.keys = StateKey.grid .base ++ overlays ∧
      (∀ k ∈ overlays, ¬ k.variant.isBase ∧ ∃ i, IsGreatest {i | InsertedAt es k i} i) ∧
      overlays.Pairwise fun a b => ∀ i j, IsGreatest {i | InsertedAt es a i} i → IsGreatest {i | InsertedAt es b i} j →
        i < j ∨ i = j ∧ (a.level.val < b.level.val ∨ a.level = b.level ∧ a.position.val < b.position.val) := by
  obtain ⟨new, hstates, hnew⟩ := states_run es
  refine ⟨new.map State.key, by simp [Registry.keys, hstates, Function.comp_def], ?_, ?_⟩
  · intro k hk
    obtain ⟨hover, hregistered⟩ := (mem_keys_new_iff hnew).mp hk
    have hfirst := isLeast_csInf ((registered_iff hover).mp hregistered)
    exact ⟨hover, _, isGreatest_insertedAt hover hfirst⟩
  · refine List.pairwise_map.mpr (hnew.order.imp_of_mem fun ha hb hab i j hi hj => ?_)
    refine (hab i j (isLeast_of_mem_new hnew ha hi) (isLeast_of_mem_new hnew hb hj)).imp_right (And.imp_right ?_)
    rintro ⟨e, _, hsub⟩
    exact List.pairwise_iff_forall_sublist.mp (wantedKeys_pairwise e) (map_key_fresh e.wantedKeys ▸ hsub)

/-- The bird of a base state has taken all patches for its key, and that of an overlay state those since its last
insertion. -/
theorem bird_run {s : State} (hs : s ∈ (Model.initial.run es).states.states) :
    (s.key.variant.isBase → s.bird = Bird.afterPatches {} (patchesOf es s.key)) ∧
      ∀ i, IsGreatest {i | InsertedAt es s.key i} i →
        s.bird = Bird.afterPatches {} (patchesOf (es.drop (i + 1)) s.key) := by
  obtain ⟨new, hstates, hnew⟩ := states_run es
  rw [hstates, List.mem_append] at hs
  rcases hs with hs | hs
  · obtain ⟨k, hk, rfl⟩ := List.mem_map.mp hs
    have hbase : k.variant.isBase := by simp [StateKey.mem_grid.mp hk, Variant.isBase]
    exact ⟨fun _ => rfl, fun i hi => absurd hi.1 (not_insertedAt_of_isBase hbase)⟩
  · have hover := ((mem_keys_new_iff hnew).mp (List.mem_map_of_mem hs)).1
    refine ⟨fun hbase => absurd hbase hover, fun i hi => ?_⟩
    -- The state was made anew at its place, and its key has not changed since.
    obtain ⟨e, b, _, hb, hrevised⟩ := hnew.origin s hs i (isLeast_of_mem_new hnew hs hi)
    obtain ⟨k, _, rfl⟩ := List.mem_map.mp hb
    rw [revised_state] at hrevised
    rw [hrevised]
    rfl

/-! ### Edges -/

/-- An edge behind which nothing undoes it has been added for good. -/
theorem mem_lasting_edge : i ∈ edgeLedger.lasting es id ↔ JoinedAt es id i ∧ ¬ UndoneAfter es id i := by
  have hadds (e : Edit) : id ∈ (edgeLedger.adds (es.take i) e).map edgeLedger.key ↔
      (∃ label, e = .addTransition id label) ∧ id.source ≠ id.target ∧
        Registered (es.take i) id.source ∧ Registered (es.take i) id.target := by
    simp only [← contains_run_iff, Registry.contains_iff_mem_keys]
    cases e with
    | addTransition j label =>
      by_cases hj : j = id
      · subst hj
        simp [edgeLedger]
      · simp only [edgeLedger]
        split <;> simp [hj, Ne.symm hj]
    | _ => simp [edgeLedger]
  have hkept : (∀ j f, i < j → es[j]? = some f → edgeLedger.drops f id = false) ↔ ¬ UndoneAfter es id i := by
    simp only [drops_edge_iff]
    constructor
    · rintro h ⟨j, hij, hj | ⟨k, htouch, hover, hj⟩⟩
      · exact (h j _ hij hj).1 rfl
      · exact (h j _ hij hj).2 k htouch hover rfl
    · intro h j f hij hf
      refine ⟨?_, fun k htouch hover => ?_⟩
      · rintro rfl
        exact h ⟨j, hij, .inl hf⟩
      · rintro rfl
        exact h ⟨j, hij, .inr ⟨k, htouch, hover, hf⟩⟩
  simp only [Ledger.lasting, Set.mem_ofPred_eq, hadds, hkept, JoinedAt]
  constructor
  · rintro ⟨_, he, ⟨⟨label, rfl⟩, hends⟩, hundone⟩
    exact ⟨⟨⟨label, he⟩, hends⟩, hundone⟩
  · rintro ⟨⟨⟨label, he⟩, hends⟩, hundone⟩
    exact ⟨_, he, ⟨⟨label, rfl⟩, hends⟩, hundone⟩

/-- The history tells all edges. -/
theorem edges_run (es : List Edit) : edgeLedger.Account [] es (Model.initial.run es).transitions.edges := by
  obtain ⟨new, hedges, haccount⟩ := Ledger.exists_account (L := edgeLedger)
    (f := fun es => (Model.initial.run es).transitions.edges) (fun _ _ h => absurd h List.not_mem_nil) rfl
    edges_run_concat es
  rw [List.map_nil, List.nil_append] at hedges
  rwa [hedges]

theorem lasting_edge (es : List Edit) (id : TransitionId) :
    edgeLedger.lasting es id = {i | JoinedAt es id i ∧ ¬ UndoneAfter es id i} :=
  Set.ext fun _ => mem_lasting_edge

/-- An edge is the one that the first of its lasting additions has asked for. -/
theorem edge_run {t : Transition} (ht : t ∈ (Model.initial.run es).transitions.edges) :
    ∃ i label, IsLeast {i | JoinedAt es t.id i ∧ ¬ UndoneAfter es t.id i} i ∧
      es[i]? = some (.addTransition t.id label) ∧ t = Transition.make t.id label := by
  rw [← lasting_edge]
  have hfirst := isLeast_csInf (((edges_run es).mem_keys t.id).mp (List.mem_map_of_mem ht)).2
  obtain ⟨e, b, he, hb, hrevised⟩ := (edges_run es).origin t ht _ hfirst
  rw [revised_edge] at hrevised
  subst hrevised
  rcases adds_edge (es.take _) e with hnone | ⟨id, label, rfl, hone⟩
  · rw [hnone] at hb
    cases hb
  · rw [hone, List.mem_singleton] at hb
    subst hb
    exact ⟨_, label, hfirst, he, rfl⟩

/-- The edges stand in the order of these additions. -/
theorem edges_pairwise (es : List Edit) :
    (Model.initial.run es).transitions.edges.Pairwise fun t u => ∀ i j,
      IsLeast {i | JoinedAt es t.id i ∧ ¬ UndoneAfter es t.id i} i →
      IsLeast {i | JoinedAt es u.id i ∧ ¬ UndoneAfter es u.id i} j → i < j := by
  simp only [← lasting_edge]
  refine (edges_run es).order.imp fun hab i j hi hj => (hab i j hi hj).resolve_right ?_
  -- One edit does not bring two edges.
  rintro ⟨_, e, _, hsub⟩
  rcases adds_edge (es.take i) e with hnone | ⟨id, label, _, hone⟩
  · simp [hnone] at hsub
  · rw [hone] at hsub
    exact absurd hsub.length_le (by simp)

/-! ### The tale -/

/-- **A model is told by its edits.** After any list of edits of the initial model

* a state is registered if its key is on the base grid, or an edit has asked for it that no later one has removed;
* behind the base grid the overlay states stand in the order of the last edits that have inserted them while they were
  absent, and level by level where it was one edit;
* the bird of a state has, field by field, the last value that the patches for its key have given since then, or from
the start for a base state; a field that they do not give is as on a new state, unset or flying;
* a pair has an edge if one was added between two different states, both registered by then, that no later edit undoes;
* the first such edit has given the edge its label, with the icon of its axis in the place of none and of an empty one,
and the edges stand in the order of these edits. -/
theorem run_history (es : List Edit) :
    (∀ k, (Model.initial.run es).states.contains k ↔ Registered es k) ∧
    (∃ overlays, (Model.initial.run es).states.keys = StateKey.grid .base ++ overlays ∧
      (∀ k ∈ overlays, ¬ k.variant.isBase ∧ ∃ i, IsGreatest {i | InsertedAt es k i} i) ∧
      overlays.Pairwise fun a b => ∀ i j, IsGreatest {i | InsertedAt es a i} i → IsGreatest {i | InsertedAt es b i} j →
        i < j ∨ i = j ∧ (a.level.val < b.level.val ∨ a.level = b.level ∧ a.position.val < b.position.val)) ∧
    (∀ s ∈ (Model.initial.run es).states.states, ∀ patches,
      (s.key.variant.isBase ∧ patches = patchesOf es s.key ∨
        ∃ i, IsGreatest {i | InsertedAt es s.key i} i ∧ patches = patchesOf (es.drop (i + 1)) s.key) →
      s.bird =
        { level := (lastSet BirdPatch.level patches).getD none
          position := (lastSet BirdPatch.position patches).getD none
          mode := (lastSet BirdPatch.mode patches).getD .flying }) ∧
    (∀ id, (Model.initial.run es).transitions.contains id ↔ ∃ i, JoinedAt es id i ∧ ¬ UndoneAfter es id i) ∧
    (∀ t ∈ (Model.initial.run es).transitions.edges,
      ∃ i label, IsLeast {i | JoinedAt es t.id i ∧ ¬ UndoneAfter es t.id i} i ∧
        es[i]? = some (.addTransition t.id label) ∧ t.axis = Axis.between t.id.source t.id.target ∧
        t.label =
          match label with
          | some text => if text = "" then t.axis.icon else text
          | none => t.axis.icon) ∧
    (Model.initial.run es).transitions.edges.Pairwise fun t u => ∀ i j,
      IsLeast {i | JoinedAt es t.id i ∧ ¬ UndoneAfter es t.id i} i →
      IsLeast {i | JoinedAt es u.id i ∧ ¬ UndoneAfter es u.id i} j → i < j := by
  refine ⟨fun k => contains_run_iff, overlays_run es, ?_, ?_, ?_, edges_pairwise es⟩
  · intro s hs patches hpatches
    obtain ⟨hbase, hoverlay⟩ := bird_run hs
    rw [← Bird.afterPatches_eq ⟨none, none, .flying⟩ patches]
    rcases hpatches with ⟨hisBase, rfl⟩ | ⟨i, hi, rfl⟩
    · exact hbase hisBase
    · exact hoverlay i hi
  · intro id
    rw [TransitionSet.contains_iff_mem_ids, TransitionSet.ids]
    refine ((edges_run es).mem_keys id).trans ?_
    simp only [List.map_nil, List.not_mem_nil, not_false_eq_true, true_and, Set.Nonempty, mem_lasting_edge]
  · intro t ht
    obtain ⟨i, label, hfirst, hedit, hmade⟩ := edge_run ht
    have haxis : t.axis = Axis.between t.id.source t.id.target := congrArg Transition.axis hmade
    refine ⟨i, label, hfirst, hedit, haxis, ?_⟩
    rw [haxis]
    exact (congrArg Transition.label hmade).trans (Transition.label_make t.id label)

end Model

end BirdBoard
