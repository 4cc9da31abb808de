import BirdBoard.Proofs.Runs

/-! # Reading documents

  What the entries of a document ask for once their labels and numbers are read, and when all of them can be.

  - `Intent.reading` gives the edits of an intent without a look at the model. Whenever an intent passes its checks, its
    edits are these (`Intent.edits_eq_reading`).
  - `Document.stage` is the model that the first two sections leave. No later section changes the keys before it checks
    them, so the whole document is checked against this one model (`apply_eq_replayAgainst`).
  - `apply_eq_none_iff`: a replay ends without a fault exactly if every intent passes on the stage, and then it has
    carried out the edits that the intents ask for.
-/

namespace BirdBoard

theorem bind_eq_ok_iff {ε α β : Type} {x : Except ε α} {f : α → Except ε β} {b : β} :
    x >>= f = .ok b ↔ ∃ a, x = .ok a ∧ f a = .ok b := by
  cases x <;> simp [bind, Except.bind]

theorem flatMap_toList_map {α β γ : Type} (f : α → Option β) (g : β → γ) (xs : List α) :
    xs.flatMap (fun x => (f x).toList.map g) = (xs.filterMap f).map g := by
  induction xs with
  | nil => rfl
  | cons x xs ih =>
    rw [List.flatMap_cons, ih, List.filterMap_cons]
    cases f x <;> rfl

/-! ### Entries -/

/-- The key of a short label. -/
def labelKey? (label : String) : Option StateKey := (StateKey.ofLabel label).toOption

/-- The key of a state to add. -/
def StateEntry.key? (e : StateEntry) : Option StateKey := (StateKey.ofBytes e.level e.position e.variant).toOption

/-- The bird level that an entry gives. -/
def BirdEntry.level? (e : BirdEntry) : Option Level := e.level.bind fun b => (Level.ofByte b).toOption

/-- The bird position that an entry gives. -/
def BirdEntry.position? (e : BirdEntry) : Option Position := e.position.bind fun b => (Position.ofByte b).toOption

/-- The patch of what an entry gives. -/
def BirdEntry.given (e : BirdEntry) : BirdPatch :=
  { level := e.level?.map some, position := e.position?.map some, mode := e.mode }

/-- The patches of an entry, in order. -/
def BirdEntry.patches (e : BirdEntry) : List BirdPatch := if e.clear then [BirdPatch.reset, e.given] else [e.given]

/-- The pair of two short labels. -/
def labelPair? (source target : String) : Option TransitionId := do
  return { source := ← labelKey? source, target := ← labelKey? target }

/-- The edits that an intent asks for. -/
def Intent.reading : Intent → List Edit
  | .addGrid v => [.addGrid v]
  | .addState e => e.key?.toList.map .addState
  | .changeBird e => (labelKey? e.state).toList.flatMap fun k => e.patches.map (.updateBird k)
  | .addTransition e => (labelPair? e.source e.target).toList.map fun id => .addTransition id e.label
  | .removeTransition e => (labelPair? e.source e.target).toList.map .removeTransition
  | .removeState label => (labelKey? label).toList.map .removeState

theorem labelKey?_of_ok {label : String} {k : StateKey} (h : StateKey.ofLabel label = .ok k) :
    labelKey? label = some k := by
  rw [labelKey?, h]
  rfl

theorem labelPair?_of_ok {source target : String} {a b : StateKey} (hs : StateKey.ofLabel source = .ok a)
    (ht : StateKey.ofLabel target = .ok b) : labelPair? source target = some ⟨a, b⟩ := by
  simp [labelPair?, labelKey?_of_ok hs, labelKey?_of_ok ht]

/-! ### Checks -/

namespace Model

variable {m n : Model}

/-- A label resolves to a key if it reads as the key and the key is registered. -/
theorem resolve_eq_ok_iff {label : String} {k : StateKey} :
    m.resolve label = .ok k ↔ StateKey.ofLabel label = .ok k ∧ k ∈ m.states.keys := by
  rw [resolve, bind_eq_ok_iff, ← Registry.contains_iff_mem_keys]
  constructor
  · rintro ⟨j, hj, h⟩
    split at h
    · next hc =>
      cases h
      exact ⟨hj, hc⟩
    · cases h
  · rintro ⟨hk, hc⟩
    exact ⟨k, hk, by rw [if_pos hc]; rfl⟩

/-- Resolution looks at nothing but the keys. -/
theorem resolve_congr (h : ∀ k, k ∈ m.states.keys ↔ k ∈ n.states.keys) (label : String) :
    m.resolve label = n.resolve label := by
  have hc : ∀ k, m.states.contains k = n.states.contains k := fun k => by
    rw [Bool.eq_iff_iff, Registry.contains_iff_mem_keys, Registry.contains_iff_mem_keys]
    exact h k
  simp only [resolve, hc]

end Model

/-- A patch that passes its checks is what the entry gives. -/
theorem BirdEntry.patch_eq_given {e : BirdEntry} {p : BirdPatch} (h : e.patch = .ok p) : p = e.given := by
  have hgiven {α : Type} {check : UInt8 → Except Fault α} {b : Option UInt8} {v : Option α}
      (h : checkGiven check b = .ok v) : b.bind (fun b => (check b).toOption) = v := by
    cases b with
    | none => cases h; rfl
    | some b =>
      simp only [checkGiven] at h
      cases hb : check b with
      | error f => rw [hb] at h; cases h
      | ok a =>
        rw [hb] at h
        cases h
        simp [hb, Except.toOption]
  obtain ⟨l, hl, h⟩ := bind_eq_ok_iff.mp h
  obtain ⟨q, hq, h⟩ := bind_eq_ok_iff.mp h
  cases h
  rw [given, level?, position?, hgiven hl, hgiven hq]

namespace Intent

variable {m n : Model}

/-- The checks of an intent look at nothing but the keys. -/
theorem edits_congr (h : ∀ k, k ∈ m.states.keys ↔ k ∈ n.states.keys) (i : Intent) : i.edits m = i.edits n := by
  cases i <;> simp only [edits, Model.resolve_congr h]

/-- What passes its checks goes on to pass them when keys are added. -/
theorem edits_mono (h : ∀ k ∈ m.states.keys, k ∈ n.states.keys) {i : Intent} {es : List Edit}
    (hi : i.edits m = .ok es) : i.edits n = .ok es := by
  have hresolve {label : String} {k : StateKey} (hk : m.resolve label = .ok k) : n.resolve label = .ok k := by
    rw [Model.resolve_eq_ok_iff] at hk ⊢
    exact ⟨hk.1, h k hk.2⟩
  cases i with
  | changeBird e =>
    obtain ⟨k, hk, hi⟩ := bind_eq_ok_iff.mp hi
    exact bind_eq_ok_iff.mpr ⟨k, hresolve hk, hi⟩
  | addTransition e =>
    obtain ⟨a, ha, hi⟩ := bind_eq_ok_iff.mp hi
    obtain ⟨b, hb, hi⟩ := bind_eq_ok_iff.mp hi
    exact bind_eq_ok_iff.mpr ⟨a, hresolve ha, bind_eq_ok_iff.mpr ⟨b, hresolve hb, hi⟩⟩
  | _ => exact hi

/-- The edits of an intent that passes its checks are those that it asks for. -/
theorem edits_eq_reading {i : Intent} {es : List Edit} (h : i.edits m = .ok es) : es = i.reading := by
  cases i with
  | addGrid v =>
    cases h
    rfl
  | addState e =>
    obtain ⟨k, hk, h⟩ := bind_eq_ok_iff.mp h
    cases h
    simp [reading, StateEntry.key?, hk, Except.toOption]
  | changeBird e =>
    obtain ⟨k, hk, h⟩ := bind_eq_ok_iff.mp h
    obtain ⟨p, hp, h⟩ := bind_eq_ok_iff.mp h
    rw [reading, labelKey?_of_ok (Model.resolve_eq_ok_iff.mp hk).1, BirdEntry.patches, ← BirdEntry.patch_eq_given hp]
    cases h
    cases e.clear <;> rfl
  | addTransition e =>
    obtain ⟨a, ha, h⟩ := bind_eq_ok_iff.mp h
    obtain ⟨b, hb, h⟩ := bind_eq_ok_iff.mp h
    rw [reading, labelPair?_of_ok (Model.resolve_eq_ok_iff.mp ha).1 (Model.resolve_eq_ok_iff.mp hb).1]
    cases h
    rfl
  | removeTransition e =>
    obtain ⟨a, ha, h⟩ := bind_eq_ok_iff.mp h
    obtain ⟨b, hb, h⟩ := bind_eq_ok_iff.mp h
    rw [reading, labelPair?_of_ok ha hb]
    cases h
    rfl
  | removeState label =>
    obtain ⟨k, hk, h⟩ := bind_eq_ok_iff.mp h
    rw [reading, labelKey?_of_ok hk]
    cases h
    rfl

end Intent

/-! ### Replays against one model -/

/-- Replays intents, each checked against the model `n` and not against what the intents before it have left. -/
def Model.replayAgainst (n m : Model) : List Intent → Model × Option Fault
  | [] => (m, none)
  | i :: is =>
    match i.edits n with
    | .ok es => replayAgainst n (m.run es) is
    | .error f => (m, some f)

namespace Model

variable {m n : Model}

theorem replayAgainst_append (n m : Model) (is js : List Intent) :
    n.replayAgainst m (is ++ js) =
      match n.replayAgainst m is with
      | (m', none) => n.replayAgainst m' js
      | stopped => stopped := by
  induction is generalizing m with
  | nil => rfl
  | cons i is ih =>
    simp only [List.cons_append, replayAgainst]
    split
    · exact ih _
    · rfl

/-- Intents that are checked alike on every model are checked alike on this one. -/
theorem replay_eq_replayAgainst (n m : Model) {is : List Intent} (h : ∀ i ∈ is, ∀ m : Model, i.edits m = i.edits n) :
    m.replay is = n.replayAgainst m is := by
  induction is generalizing m with
  | nil => rfl
  | cons i is ih =>
    rw [replay, replayAgainst, h i List.mem_cons_self m]
    cases i.edits n with
    | ok es => exact ih _ fun j hj => h j (List.mem_cons_of_mem _ hj)
    | error f => rfl

/-- While no edit changes the keys, the checks on the current model are those on the model at the start. -/
theorem replay_eq_replayAgainst_of_keys (hm : m.Legal) (hkeys : ∀ k, k ∈ m.states.keys ↔ k ∈ n.states.keys)
    {is : List Intent} (h : ∀ i ∈ is, ∀ m : Model, m.Legal → (m.run i.reading).states.keys = m.states.keys) :
    m.replay is = n.replayAgainst m is := by
  induction is generalizing m with
  | nil => rfl
  | cons i is ih =>
    -- The invariant is that the keys of the current model are those of the model `n`.
    rw [replay, replayAgainst, Intent.edits_congr hkeys]
    cases hes : i.edits n with
    | ok es =>
      have hrun := h i List.mem_cons_self m hm
      rw [← Intent.edits_eq_reading hes] at hrun
      exact ih (hm.run es) (by rwa [hrun]) fun j hj => h j (List.mem_cons_of_mem _ hj)
    | error f => rfl

/-- A replay against one model ends without a fault exactly if every intent passes on it, and then it has carried out
the edits that the intents ask for. -/
theorem replayAgainst_eq_none_iff {m' : Model} {is : List Intent} :
    n.replayAgainst m is = (m', none) ↔
      (∀ i ∈ is, (i.edits n).isOk) ∧ m' = m.run (is.flatMap Intent.reading) := by
  induction is generalizing m with
  | nil =>
    simp only [replayAgainst, Prod.mk.injEq, and_true, List.not_mem_nil, false_implies, implies_true, true_and,
      List.flatMap_nil]
    exact eq_comm
  | cons i is ih =>
    rw [replayAgainst, List.flatMap_cons, run_append, List.forall_mem_cons]
    cases hi : i.edits n with
    | ok es => simp [Except.isOk, Except.toBool, ih, Intent.edits_eq_reading hi]
    | error f => simp [Except.isOk, Except.toBool]

end Model

/-! ### Documents -/

/-- The keys that a document asks for: the grids of its variants, then its states. -/
def Document.wantedKeys (d : Document) : List StateKey :=
  d.variants.flatMap StateKey.grid ++ d.states.filterMap StateEntry.key?

/-- The patches that a document asks for, each with its key. -/
def Document.wantedPatches (d : Document) : List (StateKey × BirdPatch) :=
  d.birds.flatMap fun e => (labelKey? e.state).toList.flatMap fun k => e.patches.map fun p => (k, p)

/-- The edges that a document asks for. -/
def Document.wantedEdges (d : Document) : List (TransitionId × Option String) :=
  d.transitions.filterMap fun e => (labelPair? e.source e.target).map fun id => (id, e.label)

/-- The pairs whose edges a document removes. -/
def Document.removedPairs (d : Document) : List TransitionId :=
  d.removeTransitions.filterMap fun e => labelPair? e.source e.target

/-- The keys whose states a document removes, base keys included. -/
def Document.removedKeys (d : Document) : List StateKey := d.removeStates.filterMap labelKey?

/-- The model that the first two sections leave. -/
def Document.stage (d : Document) (m : Model) : Model :=
  m.withStates (appendNew State.key m.states.states (d.wantedKeys.map State.fresh))

namespace Document

variable {d : Document} {m : Model}

/-- A replay gives the model that is left together with its fault, if any. -/
theorem apply_of_snd {f : Option Fault} (h : (d.apply m).2 = f) : d.apply m = ((d.apply m).1, f) := Prod.ext rfl h

/-- The intents that add states. -/
def additions (d : Document) : List Intent := d.variants.map .addGrid ++ d.states.map .addState

/-- The intents that change birds and edges. -/
def changes (d : Document) : List Intent :=
  d.birds.map .changeBird ++ d.transitions.map .addTransition ++ d.removeTransitions.map .removeTransition

/-- The intents that remove states. -/
def removals (d : Document) : List Intent := d.removeStates.map .removeState

theorem intents_eq (d : Document) : d.intents = d.additions ++ d.changes ++ d.removals := by
  simp [intents, additions, changes, removals]

/-! ### What the sections ask for -/

theorem reading_additions (d : Document) :
    d.additions.flatMap Intent.reading =
      d.variants.map .addGrid ++ (d.states.filterMap StateEntry.key?).map .addState := by
  rw [additions, List.flatMap_append, List.flatMap_map, List.flatMap_map, ← flatMap_toList_map]
  simp only [Intent.reading, ← List.map_eq_flatMap]

theorem reading_changes (d : Document) :
    d.changes.flatMap Intent.reading =
      (d.wantedPatches.map fun u => .updateBird u.1 u.2) ++ (d.wantedEdges.map fun u => .addTransition u.1 u.2) ++
        d.removedPairs.map .removeTransition := by
  have hbirds : (d.birds.map .changeBird).flatMap Intent.reading =
      d.wantedPatches.map fun u => .updateBird u.1 u.2 := by
    simp [wantedPatches, List.flatMap_map, List.map_flatMap, Intent.reading, Function.comp_def]
  have hedges : (d.transitions.map .addTransition).flatMap Intent.reading =
      d.wantedEdges.map fun u => .addTransition u.1 u.2 := by
    rw [wantedEdges, ← flatMap_toList_map, List.flatMap_map]
    congr 1
    funext e
    rw [Intent.reading]
    cases labelPair? e.source e.target <;> rfl
  have hpairs : (d.removeTransitions.map .removeTransition).flatMap Intent.reading =
      d.removedPairs.map .removeTransition := by
    rw [removedPairs, ← flatMap_toList_map, List.flatMap_map]
    rfl
  rw [changes, List.flatMap_append, List.flatMap_append, hbirds, hedges, hpairs]

theorem reading_removals (d : Document) :
    d.removals.flatMap Intent.reading = d.removedKeys.map .removeState := by
  rw [removals, removedKeys, ← flatMap_toList_map, List.flatMap_map]
  rfl

theorem run_additions (d : Document) (m : Model) : m.run (d.additions.flatMap Intent.reading) = d.stage m := by
  rw [reading_additions, Model.run_append, Model.run_addGrids, Model.run_addStates, stage, wantedKeys, List.map_append,
    appendNew_append]
  rfl

/-- The stage has the keys of the model and those that the document asks for. -/
theorem mem_keys_stage {k : StateKey} : k ∈ (d.stage m).states.keys ↔ k ∈ m.states.keys ∨ k ∈ d.wantedKeys := by
  rw [stage, Model.states_withStates, Registry.keys, mem_map_appendNew, map_key_fresh]
  rfl

theorem keepsKeys_of_mem_changes {i : Intent} (hi : i ∈ d.changes) : ∀ e ∈ i.reading, e.keepsKeys := by
  intro e he
  simp only [changes, List.mem_append, List.mem_map] at hi
  rcases hi with (⟨b, _, rfl⟩ | ⟨t, _, rfl⟩) | ⟨t, _, rfl⟩
  all_goals
    simp only [Intent.reading, List.mem_flatMap, List.mem_map] at he
  · obtain ⟨k, _, p, _, rfl⟩ := he
    rfl
  · obtain ⟨id, _, rfl⟩ := he
    rfl
  · obtain ⟨id, _, rfl⟩ := he
    rfl

/-! ### One model to check against -/

/-- A document is checked against the model that its first two sections leave. -/
theorem apply_eq_replayAgainst (h : m.Legal) (d : Document) :
    d.apply m = (d.stage m).replayAgainst m d.intents := by
  have hadd : ∀ i ∈ d.additions, ∀ m' : Model, i.edits m' = i.edits (d.stage m) := by
    intro i hi m'
    simp only [additions, List.mem_append, List.mem_map] at hi
    rcases hi with ⟨v, _, rfl⟩ | ⟨e, _, rfl⟩ <;> rfl
  have hremove : ∀ i ∈ d.removals, ∀ m' : Model, i.edits m' = i.edits (d.stage m) := by
    intro i hi m'
    obtain ⟨label, _, rfl⟩ := List.mem_map.mp hi
    rfl
  rw [apply, intents_eq, Model.replay_append, Model.replay_append, Model.replayAgainst_append,
    Model.replayAgainst_append, Model.replay_eq_replayAgainst (d.stage m) m hadd]
  cases hstage : (d.stage m).replayAgainst m d.additions with
  | mk m₁ stop =>
    cases stop with
    | some f => rfl
    | none =>
      -- The sections that look at keys begin on the stage itself.
      obtain ⟨_, hm₁⟩ := Model.replayAgainst_eq_none_iff.mp hstage
      rw [run_additions] at hm₁
      have hlegal : m₁.Legal := by
        rw [hm₁]
        exact h.appendFresh d.wantedKeys
      have hchanges : m₁.replay d.changes = (d.stage m).replayAgainst m₁ d.changes :=
        Model.replay_eq_replayAgainst_of_keys hlegal (by simp [hm₁])
          fun i hi m' hm' => Model.keys_run hm' (keepsKeys_of_mem_changes hi)
      simp only [hchanges]
      cases (d.stage m).replayAgainst m₁ d.changes with
      | mk m₂ stop =>
        cases stop with
        | some f => rfl
        | none => exact Model.replay_eq_replayAgainst _ _ hremove

/-- A replay ends without a fault exactly if every intent passes its checks on the stage, and then it has carried out
the edits that the intents ask for. -/
theorem apply_eq_none_iff (h : m.Legal) {m' : Model} :
    d.apply m = (m', none) ↔
      (∀ i ∈ d.intents, (i.edits (d.stage m)).isOk) ∧ m' = m.run (d.intents.flatMap Intent.reading) := by
  rw [apply_eq_replayAgainst h, Model.replayAgainst_eq_none_iff]

end Document

end BirdBoard
