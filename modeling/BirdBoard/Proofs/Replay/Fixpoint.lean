import BirdBoard.Proofs.Replay.Outcome

/-! # Replaying twice

  A document that is replayed again changes nothing more.

  - `Document.outcome_outcome`: the outcome of a document is its own outcome. What the second pass adds is what the
    removals of the first have dropped, and the removals drop it again; the entries leave a bird where they left it.
  - `Document.apply_fixpoint`: a second replay that succeeds leaves the model as it is, and on a model that the document
    has built it does succeed.
-/

namespace BirdBoard

namespace Document

variable {d : Document} {m n : Model}

/-! ### The outcome of the outcome -/

theorem outcomeStates_outcomeStates (d : Document) (ss : List State) :
    d.outcomeStates (d.outcomeStates ss) = d.outcomeStates ss := by
  have hagain := filter_appendNew_again State.key (fun k => k ∉ d.removedOverlays)
    (f := fun s => { s with bird := s.bird.afterEntries (d.entriesFor s.key) }) (fun s => rfl) ss
    (d.wantedKeys.map State.fresh)
  rw [outcomeStates, outcomeStates, hagain, List.map_map]
  apply List.map_congr_left
  intro s _
  -- The key of a state stays, so the second pass reads the same entries.
  show State.mk s.key ((s.bird.afterEntries _).afterEntries _) = State.mk s.key _
  rw [Bird.afterEntries_afterEntries]

theorem outcomeEdges_outcomeEdges (d : Document) (ts : List Transition) :
    d.outcomeEdges (d.outcomeEdges ts) = d.outcomeEdges ts := by
  have hagain := filter_appendNew_again Transition.id
    (fun id => id ∉ d.removedPairs ∧ ∀ k ∈ d.removedOverlays, ¬ id.touches k) (f := id) (fun t => rfl) ts
    (d.transitions.filterMap TransitionEntry.edge?)
  rw [List.map_id] at hagain
  exact hagain

theorem outcome_outcome (d : Document) (m : Model) : d.outcome (d.outcome m) = d.outcome m := by
  simp [outcome, outcomeStates_outcomeStates, outcomeEdges_outcomeEdges]

/-! ### The stage of the second replay -/

/-- What passes on the stage of the initial model passes on the stage of every legal model, since base states stay. -/
theorem edits_isOk_stage (h : n.Legal) {i : Intent} (hi : (i.edits (d.stage Model.initial)).isOk) :
    (i.edits (d.stage n)).isOk := by
  have hkeys : ∀ k ∈ (d.stage Model.initial).states.keys, k ∈ (d.stage n).states.keys := by
    intro k hk
    rw [mem_keys_stage] at hk ⊢
    rcases hk with hk | hk
    · rw [Model.initial, Registry.keys_baseGrid, StateKey.mem_grid] at hk
      exact .inl (h.mem_keys_of_isBase (by simp [hk, Variant.isBase]))
    · exact .inr hk
  cases hes : i.edits (d.stage Model.initial) with
  | error f =>
    rw [hes] at hi
    cases hi
  | ok es =>
    rw [Intent.edits_mono hkeys hes]
    rfl

theorem build_eq_ok_iff : d.build = .ok m ↔ d.apply Model.initial = (m, none) := by
  unfold build
  split
  · next m' h => simp [h]
  · next f h => simp [h]

/-- A document that no fault stops builds what its replay leaves. -/
theorem build_of_noFault (h : (d.apply Model.initial).2 = none) : d.build = .ok (d.apply Model.initial).1 :=
  build_eq_ok_iff.mpr (apply_of_snd h)

/-- **Replaying a document is a fixpoint.** A model that a document has built takes the document again without a fault
and stays as it is; and a document that has been replayed on any reachable model changes nothing when it can be replayed
once more. -/
theorem apply_fixpoint (d : Document) :
    (∀ m, d.build = .ok m → d.apply m = (m, none)) ∧
    ∀ m m' m'' : Model, m.Reachable → d.apply m = (m', none) → d.apply m' = (m'', none) → m'' = m' := by
  constructor
  · intro m hbuild
    have happly := build_eq_ok_iff.mp hbuild
    obtain ⟨hok, hm⟩ := (apply_eq_outcome_iff Model.Legal.initial).mp happly
    have hlegal : m.Legal := by
      have hreplay := Model.Legal.initial.replay d.intents
      rw [show Model.initial.replay d.intents = (m, none) from happly] at hreplay
      exact hreplay
    rw [apply_eq_outcome_iff hlegal]
    refine ⟨fun i hi => edits_isOk_stage hlegal (hok i hi), ?_⟩
    rw [hm, outcome_outcome]
  · intro m m' m'' hm happly hagain
    have hlegal : m'.Legal := by
      have hreachable := Model.Reachable.apply hm d
      rw [happly] at hreachable
      exact hreachable.legal
    obtain ⟨_, hm'⟩ := (apply_eq_outcome_iff hm.legal).mp happly
    obtain ⟨_, hm''⟩ := (apply_eq_outcome_iff hlegal).mp hagain
    rw [hm'', hm', outcome_outcome]

/-- The detour changes nothing when it is taken again, neither on the model that it builds nor on another. -/
theorem apply_fixpoint_detour :
    detour.apply (detour.apply Model.initial).1 = ((detour.apply Model.initial).1, none) ∧
      (detour.apply (detour.apply (Model.initial.edit (.addGrid .eta))).1).1 =
        (detour.apply (Model.initial.edit (.addGrid .eta))).1 := by
  have hbuild : detour.build = .ok (detour.apply Model.initial).1 := build_of_noFault (by decide +kernel)
  exact ⟨(apply_fixpoint detour).1 _ hbuild,
    (apply_fixpoint detour).2 _ _ _ (.edit .initial _) (apply_of_snd (by decide +kernel))
      (apply_of_snd (by decide +kernel))⟩

end Document

end BirdBoard
