import Mathlib.Tactic.TFAE
import BirdBoard.Proofs.Labels
import BirdBoard.Proofs.Replay.Checks
import BirdBoard.Proofs.Replay.Fixpoint

/-! # Documents of models

  Every legal model is built by a document, so legality is all that can be said of the models that documents build.

  - `Model.snapshot` writes a model down: its overlay states, the bird of every state, and its edges, each list in the
    order of the model.
  - `Document.build_snapshot`: the snapshot of a legal model builds the model.
  - `Model.legal_tfae`: documents build, and edits reach, the legal models and no others.
-/

namespace BirdBoard

/-! ### Entries of a snapshot -/

/-- The entry that adds the state of a key. -/
def StateKey.entry (k : StateKey) : StateEntry :=
  { level := k.level.toByte, position := k.position.toByte, variant := k.variant }

/-- The entry that gives a new state its bird. -/
def State.birdEntry (s : State) : BirdEntry where
  state := s.key.shortLabel
  level := s.bird.level.map Level.toByte
  position := s.bird.position.map Position.toByte
  mode := some s.bird.mode

/-- The entry that adds an edge. -/
def Transition.entry (t : Transition) : TransitionEntry :=
  { source := t.id.source.shortLabel, target := t.id.target.shortLabel, label := some t.label }

/-- The document that writes a model down. -/
def Model.snapshot (m : Model) : Document where
  states := (m.states.keys.filter (!·.variant.isBase)).map StateKey.entry
  birds := m.states.states.map State.birdEntry
  transitions := m.transitions.edges.map Transition.entry

theorem StateKey.key?_entry (k : StateKey) : k.entry.key? = some k := by
  rw [StateEntry.key?, entry, ofBytes_toByte]
  rfl

theorem labelKey?_shortLabel (k : StateKey) : labelKey? k.shortLabel = some k :=
  labelKey?_of_ok k.ofLabel_shortLabel

/-- A new bird takes all that the entry of a bird gives. -/
theorem State.afterEntries_birdEntry (s : State) : ({} : Bird).afterEntries [s.birdEntry] = s.bird := by
  have hlevel : s.birdEntry.level? = s.bird.level := by
    cases hl : s.bird.level <;> simp [birdEntry, BirdEntry.level?, hl, Level.ofByte_toByte, Except.toOption]
  have hposition : s.birdEntry.position? = s.bird.position := by
    cases hp : s.bird.position <;> simp [birdEntry, BirdEntry.position?, hp, Position.ofByte_toByte, Except.toOption]
  calc ({} : Bird).afterEntries [s.birdEntry] = s.birdEntry.given.apply {} :=
        Bird.afterEntries_concat {} [] s.birdEntry
    _ = { level := s.bird.level.or none, position := s.bird.position.or none, mode := s.bird.mode } := by
        rw [BirdEntry.apply_given, hlevel, hposition]
        rfl
    _ = s.bird := by rw [Option.or_none, Option.or_none]

/-- The entry of an edge that belongs on a registry asks for the edge. -/
theorem Transition.Legal.edge?_entry {r : Registry} {t : Transition} (h : t.Legal r) :
    t.entry.edge? = some t := by
  have hpair : labelPair? t.id.source.shortLabel t.id.target.shortLabel = some t.id := by
    simp [labelPair?, labelKey?_shortLabel]
  have hmake : Transition.make t.id (some t.label) = t := by
    have hlabel : (Transition.make t.id (some t.label)).label = t.label := by
      simp [Transition.make, Option.filter, h.label_ne]
    have haxis : (Transition.make t.id (some t.label)).axis = t.axis := h.axis_eq.symm
    cases t
    rw [mk.injEq]
    exact ⟨rfl, haxis, hlabel⟩
  rw [Document.edge?_eq, entry, hpair, Option.bind_some, if_neg h.proper, hmake]

/-! ### The outcome of a snapshot -/

namespace Model.Legal

variable {m : Model}

/-- A snapshot asks for the keys that the initial model lacks. -/
theorem keys_eq (h : m.Legal) : m.states.keys = StateKey.grid .base ++ m.snapshot.wantedKeys := by
  obtain ⟨overlays, hkeys, hover⟩ := h.gridFirst
  -- The snapshot asks for the states that are not on the base grid, and these are the overlays.
  have hgrid : (StateKey.grid .base).filter (!·.variant.isBase) = [] := by decide
  have hfilter : overlays.filter (!·.variant.isBase) = overlays := by
    rw [List.filter_eq_self]
    exact fun k hk => by simpa using hover k hk
  have hwanted : m.snapshot.wantedKeys = overlays := by
    simp only [Document.wantedKeys, snapshot, hkeys, List.filter_append, hgrid, hfilter, List.nil_append,
      List.flatMap_nil, List.filterMap_map, Function.comp_def, StateKey.key?_entry, List.filterMap_some]
  rw [hwanted, hkeys]

theorem stage_snapshot (h : m.Legal) :
    m.snapshot.stage Model.initial = Model.initial.withStates (m.states.keys.map State.fresh) := by
  have hnodup := h.keys_nodup
  rw [h.keys_eq, List.nodup_append] at hnodup
  obtain ⟨-, hwanted, hdisjoint⟩ := hnodup
  have hnew : ∀ s ∈ m.snapshot.wantedKeys.map State.fresh, s.key ∉ Model.initial.states.states.map State.key := by
    intro s hs hbase
    obtain ⟨k, hk, rfl⟩ := List.mem_map.mp hs
    rw [← Registry.keys, Model.initial, Registry.keys_baseGrid] at hbase
    exact hdisjoint _ hbase k hk rfl
  rw [Document.stage, appendNew_of_disjoint (by rwa [map_key_fresh]) hnew, h.keys_eq, List.map_append]
  rfl

theorem entriesFor_snapshot (h : m.Legal) {s : State} (hs : s ∈ m.states.states) :
    m.snapshot.entriesFor s.key = [s.birdEntry] := by
  -- Entries name their state by its label, and no two states share one.
  have hown : ∀ r ∈ m.states.states,
      decide (labelKey? r.birdEntry.state = some s.key) = decide (r.key = s.key) := by
    intro r _
    simp only [State.birdEntry, labelKey?_shortLabel, Option.some_inj]
  rw [Document.entriesFor, snapshot, List.filter_map, Function.comp_def, List.filter_congr hown,
    filter_first h.keys_nodup hs, List.map_singleton]

/-- A snapshot leaves its model. -/
theorem outcome_snapshot (h : m.Legal) : m.snapshot.outcome Model.initial = m := by
  have hstates : m.snapshot.outcomeStates Model.initial.states.states = m.states.states := by
    have hstage : appendNew State.key Model.initial.states.states (m.snapshot.wantedKeys.map State.fresh) =
        m.states.keys.map State.fresh := congrArg (·.states.states) h.stage_snapshot
    have hremoved : m.snapshot.removedOverlays = [] := rfl
    rw [Document.outcomeStates, hstage, hremoved]
    simp only [List.not_mem_nil, not_false_eq_true, decide_true, List.filter_true, Registry.keys, List.map_map]
    -- Each state is made anew and gets its bird from its one entry.
    conv_rhs => rw [← List.map_id m.states.states]
    apply List.map_congr_left
    intro s hs
    show State.mk s.key (({} : Bird).afterEntries (m.snapshot.entriesFor s.key)) = s
    rw [h.entriesFor_snapshot hs, s.afterEntries_birdEntry]
  have hedges : m.snapshot.outcomeEdges Model.initial.transitions.edges = m.transitions.edges := by
    have hasked : m.snapshot.transitions.filterMap TransitionEntry.edge? = m.transitions.edges := by
      rw [snapshot, List.filterMap_map, Function.comp_def,
        List.filterMap_congr (g := some) fun t ht => (h.edge t ht).edge?_entry]
      exact List.filterMap_some
    have hremoved : m.snapshot.removedOverlays = [] ∧ m.snapshot.removedPairs = [] := ⟨rfl, rfl⟩
    -- The initial model has no edges, so none of those asked for is there already.
    have hnew : appendNew Transition.id Model.initial.transitions.edges m.transitions.edges = m.transitions.edges :=
      appendNew_of_disjoint h.ids_nodup fun t _ => List.not_mem_nil
    rw [Document.outcomeEdges, hasked, hnew, hremoved.1, hremoved.2]
    simp
  rw [Document.outcome, hstates, hedges]
  rfl

theorem knownKeys_snapshot (h : m.Legal) : m.snapshot.knownKeys Model.initial = m.states.keys := by
  rw [h.keys_eq, Document.knownKeys, List.append_assoc, Model.initial, Registry.keys_baseGrid, Document.wantedKeys]

theorem sound_snapshot (h : m.Legal) : ∀ i ∈ m.snapshot.intents, i.Sound (m.snapshot.knownKeys Model.initial) := by
  have hlabel {k : StateKey} (hk : k ∈ m.states.keys) :
      ∃ j ∈ m.snapshot.knownKeys Model.initial, StateKey.ofLabel k.shortLabel = .ok j := by
    rw [h.knownKeys_snapshot]
    exact ⟨k, hk, k.ofLabel_shortLabel⟩
  have hlevel (l : Level) : l.toByte.toNat ≤ 4 := by
    rw [Level.ofByte_eq_ok_iff.mp l.ofByte_toByte]
    exact l.val_le
  have hposition (p : Position) : 13 ≤ p.toByte.toNat ∧ p.toByte.toNat ≤ 18 := by
    rw [Position.ofByte_eq_ok_iff.mp p.ofByte_toByte]
    exact ⟨p.le_val, p.val_le⟩
  rw [Document.forall_mem_intents]
  refine ⟨fun _ _ => trivial, ?_, ?_, ?_, fun _ he => absurd he List.not_mem_nil,
    fun _ ht => absurd ht List.not_mem_nil⟩
  · intro e he
    obtain ⟨k, _, rfl⟩ := List.mem_map.mp he
    exact ⟨hlevel k.level, hposition k.position⟩
  · intro e he
    obtain ⟨s, hs, rfl⟩ := List.mem_map.mp he
    refine ⟨hlabel (List.mem_map_of_mem hs), ?_, ?_⟩
    · intro b hb
      obtain ⟨l, _, rfl⟩ := Option.map_eq_some_iff.mp hb
      exact hlevel l
    · intro b hb
      obtain ⟨p, _, rfl⟩ := Option.map_eq_some_iff.mp hb
      exact hposition p
  · intro e he
    obtain ⟨t, ht, rfl⟩ := List.mem_map.mp he
    exact ⟨hlabel (h.edge t ht).source_mem, hlabel (h.edge t ht).target_mem⟩

end Model.Legal

/-- The snapshot of a legal model builds the model. -/
theorem Document.build_snapshot {m : Model} (h : m.Legal) : m.snapshot.build = .ok m := by
  rw [build_eq_ok_iff, apply_eq_outcome_iff Model.Legal.initial]
  exact ⟨fun i hi => (isOk_edits_stage_iff _ _ i).mpr (h.sound_snapshot i hi), h.outcome_snapshot.symm⟩

theorem Model.Reachable.run {m : Model} (h : m.Reachable) (es : List Edit) : (m.run es).Reachable := by
  induction es generalizing m with
  | nil => exact h
  | cons e es ih => exact ih (.edit h e)

/-- **Documents build every legal model.** For a model it is one and the same to be legal, to be built by a document, to
be left of the initial model by edits, and to be reachable by edits and replays in any order. -/
theorem Model.legal_tfae (m : Model) :
    [m.Legal, ∃ d : Document, d.build = .ok m, ∃ es : List Edit, Model.initial.run es = m, m.Reachable].TFAE := by
  tfae_have 1 → 2 := fun h => ⟨m.snapshot, Document.build_snapshot h⟩
  tfae_have 2 → 3 := by
    rintro ⟨d, hd⟩
    have happly := Document.build_eq_ok_iff.mp hd
    exact ⟨_, ((Document.apply_eq_none_iff Model.Legal.initial).mp happly).2.symm⟩
  tfae_have 3 → 4 := by
    rintro ⟨es, rfl⟩
    exact Reachable.initial.run es
  tfae_have 4 → 1 := Reachable.legal
  tfae_finish

end BirdBoard
