import BirdBoard.Proofs.Legal

/-! # Rollback of a scratch state

  An overlay state that is added, edited for a while and removed again leaves no trace.

  - `Edit.concerns` tells the edits in between: they deal with the scratch state, its bird and the edges at it, and may
    be refused.
  - `Model.Extends` is what they keep: the lists of the model at the start stand in front, and behind them come the
    scratch state alone and edges that touch it.
  - `Model.rollback`: removing the scratch state drops exactly what has come behind.
-/

namespace BirdBoard

/-- Whether an edit deals with the state of a key, its bird or an edge at it, and does not remove the state. -/
def Edit.concerns (k : StateKey) : Edit → Bool
  | .addState j | .updateBird j _ => j == k
  | .addTransition id _ | .removeTransition id => id.touches k
  | .addGrid _ | .removeState _ => false

/-- A model with one more state and with more edges at this state, all of them behind what was there. -/
structure Model.Extends (n m : Model) (k : StateKey) : Prop where
  /-- Behind the states comes the one of the key. -/
  states : ∃ bird, n.states.states = m.states.states ++ [⟨k, bird⟩]
  /-- Behind the edges come edges that touch the key. -/
  edges : ∃ new, n.transitions.edges = m.transitions.edges ++ new ∧ ∀ t ∈ new, t.id.touches k

namespace Model

variable {m n : Model} {k : StateKey}

/-- No edge of a legal model touches a key without a state. -/
theorem Legal.not_touches (h : m.Legal) (hk : k ∉ m.states.keys) :
    ∀ t ∈ m.transitions.edges, t.id.touches k = false := by
  intro t ht
  by_contra htouch
  exact hk (h.mem_keys_of_touches ht (by simpa using htouch))

theorem extends_addState (hk : k ∉ m.states.keys) : (m.edit (.addState k)).Extends m k := by
  rw [edit_addState, appendNew_cons_of_notMem [] hk, appendNew_nil]
  exact ⟨⟨{}, rfl⟩, ⟨[], (List.append_nil _).symm, by simp⟩⟩

namespace Extends

theorem mem_keys (h : n.Extends m k) : k ∈ n.states.keys := by
  obtain ⟨bird, hstates⟩ := h.states
  simp [Registry.keys, hstates]

/-- **Step**: an edit of the scratch state changes nothing that was there before. -/
theorem edit (hm : m.Legal) (hk : k ∉ m.states.keys) (hn : n.Legal) (h : n.Extends m k) {e : Edit}
    (he : e.concerns k) : (n.edit e).Extends m k := by
  obtain ⟨bird, hstates⟩ := h.states
  obtain ⟨new, hedges, hnew⟩ := h.edges
  cases e with
  | addState j =>
    obtain rfl : j = k := by simpa [Edit.concerns] using he
    rw [edit_addState, appendNew_cons_of_mem [] h.mem_keys, appendNew_nil]
    exact h
  | updateBird j p =>
    obtain rfl : j = k := by simpa [Edit.concerns] using he
    have hold := Registry.key_ne_of_notMem hk
    rw [edit_updateBird hn.keys_nodup]
    refine ⟨⟨p.apply bird, ?_⟩, ⟨new, hedges, hnew⟩⟩
    rw [states_withStates, hstates, List.map_append, List.map_congr_left fun s hs => if_neg (hold s hs), List.map_id']
    simp
  | addTransition id label =>
    rw [edit_addTransition]
    split
    · refine ⟨⟨bird, hstates⟩, ?_⟩
      by_cases hid : id ∈ n.transitions.ids
      · rw [appendNew_cons_of_mem [] hid, appendNew_nil]
        exact ⟨new, hedges, hnew⟩
      · rw [appendNew_cons_of_notMem [] hid, appendNew_nil]
        refine ⟨new ++ [Transition.make id label], by simp [hedges], ?_⟩
        intro t ht
        rcases List.mem_append.mp ht with ht | ht
        · exact hnew t ht
        · rw [List.mem_singleton.mp ht]
          exact he
    · exact h
  | removeTransition id =>
    -- An edge that was there before does not touch the key, so it is not the one to be removed.
    have hold : m.transitions.edges.filter (·.id != id) = m.transitions.edges := by
      rw [List.filter_eq_self]
      intro t ht
      have htouch := hm.not_touches hk t ht
      have hne : t.id ≠ id := by
        rintro rfl
        exact Bool.false_ne_true (htouch.symm.trans he)
      simpa using hne
    rw [edit_removeTransition hn.ids_nodup]
    refine ⟨⟨bird, hstates⟩, ⟨new.filter (·.id != id), ?_, fun t ht => hnew t (List.mem_filter.mp ht).1⟩⟩
    rw [transitions_withEdges, hedges, List.filter_append, hold]
  | addGrid v => cases he
  | removeState j => cases he

/-- **Run**: nor does a list of them, refused ones included. -/
theorem run (hm : m.Legal) (hk : k ∉ m.states.keys) (hn : n.Legal) (h : n.Extends m k) {es : List Edit}
    (hes : ∀ e ∈ es, e.concerns k) : (n.run es).Extends m k := by
  induction es generalizing n with
  | nil => exact h
  | cons e es ih =>
    have hstep := h.edit hm hk hn (hes e List.mem_cons_self)
    exact ih (hn.edit e) hstep fun f hf => hes f (List.mem_cons_of_mem _ hf)

/-- Removing the scratch state is not refused, and leaves what was there before. -/
theorem removeState_eq (hm : m.Legal) (hk : k ∉ m.states.keys) (hover : ¬ k.variant.isBase) (hn : n.Legal)
    (h : n.Extends m k) : n.removeState k = (true, m) := by
  obtain ⟨bird, hstates⟩ := h.states
  obtain ⟨new, hedges, hnew⟩ := h.edges
  have hkeep : n.states.states.filter (·.key != k) = m.states.states := by
    have hold : m.states.states.filter (·.key != k) = m.states.states := by
      simpa [List.filter_eq_self] using Registry.key_ne_of_notMem hk
    simp [hstates, List.filter_append, hold]
  have herase : n.transitions.eraseTouching k = m.transitions := by
    have hold : m.transitions.edges.filter (fun t => !t.id.touches k) = m.transitions.edges := by
      simpa [List.filter_eq_self] using hm.not_touches hk
    have hgone : new.filter (fun t => !t.id.touches k) = [] := by
      simpa [List.filter_eq_nil_iff] using hnew
    rw [TransitionSet.eraseTouching, hedges, List.filter_append, hold, hgone, List.append_nil]
  have herased : n.states.erase? k = some m.states := by
    rw [Registry.erase?_eq hn.keys_nodup, if_neg (by simp [hover, h.mem_keys]), hkeep]
  rw [removeState, herased, herase]

end Extends

/-- **Rollback.** An overlay state that a reachable model lacks is added, then edited for a while, its bird and the
edges at it included, and then removed. The removal is not refused, and the model is what it was before: the same
states with the same birds and the same edges with the same labels, both in the same order. -/
theorem rollback (hm : m.Reachable) (hover : ¬ k.variant.isBase) (habsent : ¬ m.states.contains k) {es : List Edit}
    (hes : ∀ e ∈ es, e.concerns k) : ((m.edit (.addState k)).run es).removeState k = (true, m) := by
  have hk : k ∉ m.states.keys := by rwa [← Registry.contains_iff_mem_keys]
  have hstart := hm.legal.edit (.addState k)
  have hrun := (extends_addState hk).run hm.legal hk hstart hes
  exact hrun.removeState_eq hm.legal hk hover (hstart.run es)

/-- The key of an overlay state for trials. -/
def scratchKey : StateKey := (StateKey.grid .zeta).head (by decide)

/-- The base state on the same cell. -/
def besideKey : StateKey := { scratchKey with variant := .base }

/-- Edits of the scratch state. Two edges at it are made; the loop, the second addition of the state and the removal of
an edge that is not there are refused. -/
def scribbles : List Edit :=
  [.addTransition ⟨besideKey, scratchKey⟩ (some "in"), .addState scratchKey,
    .updateBird scratchKey (.place besideKey.level besideKey.position),
    .addTransition ⟨scratchKey, scratchKey⟩ none, .addTransition ⟨scratchKey, besideKey⟩ none,
    .removeTransition ⟨besideKey, scratchKey⟩, .removeTransition ⟨besideKey, scratchKey⟩]

/-- The scribbles leave a state with a bird and an edge, and the removal takes both away again. -/
theorem rollback_scribbles :
    (((Model.initial.edit (.addGrid .eta)).edit (.addState scratchKey)).run scribbles).states.withBird.length = 1 ∧
      (((Model.initial.edit (.addGrid .eta)).edit (.addState scratchKey)).run scribbles).transitions.size = 1 ∧
      (((Model.initial.edit (.addGrid .eta)).edit (.addState scratchKey)).run scribbles).removeState scratchKey =
        (true, Model.initial.edit (.addGrid .eta)) :=
  ⟨by decide +kernel, by decide +kernel, rollback (.edit .initial _) (by decide) (by decide +kernel) (by decide)⟩

end Model

end BirdBoard
