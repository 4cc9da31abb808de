import BirdBoard.Proofs.Replay.Reading

/-! # The checks of a replay

  Which fault stops a replay, read off the entries of a document without carrying out an edit.

  - `Intent.checks` lists the checks of an intent in the order in which they are made. `Check.fault?` judges a check by
    the keys that are known, and `firstFault` gives the fault of the first check that fails.
  - `Intent.faultOf_edits`: an intent is refused with its first fault, and with no other. It has none exactly if it is
    sound (`Intent.firstFault_checks_eq_none_iff`).
  - `Document.apply_snd_eq`: a replay stops with the first fault of its document. The known keys are those of the model
    and those that the document asks for, whatever the edits before a check have done.
-/

namespace BirdBoard

/-! ### Single checks -/

/-- What is asked of a coordinate or a label of an entry. -/
inductive Check where
  /-- The byte is a level. -/
  | level (byte : UInt8)
  /-- The byte is a position. -/
  | position (byte : UInt8)
  /-- The text is the short label of a key. -/
  | label (text : String)
  /-- The text is the short label of a known key. -/
  | known (text : String)
  deriving DecidableEq, Repr

/-- The fault of a check that fails. -/
def Check.fault? (keys : List StateKey) : Check → Option Fault
  | .level b => if b.toNat ≤ 4 then none else some (.levelOutside b)
  | .position b => if 13 ≤ b.toNat ∧ b.toNat ≤ 18 then none else some (.positionOutside b)
  | .label text =>
    match StateKey.ofLabel text with
    | .ok _ => none
    | .error f => some f
  | .known text => if ∃ k ∈ keys, StateKey.ofLabel text = .ok k then none else some (.unknownState text)

/-- The fault of the first check that fails. -/
def firstFault (keys : List StateKey) (cs : List Check) : Option Fault := cs.findSome? (Check.fault? keys)

/-- The fault of a refused result. -/
def faultOf {α : Type} : Except Fault α → Option Fault
  | .ok _ => none
  | .error f => some f

section

variable {α β : Type} {keys : List StateKey}

theorem firstFault_append (cs ds : List Check) :
    firstFault keys (cs ++ ds) = (firstFault keys cs).or (firstFault keys ds) :=
  List.findSome?_append

theorem firstFault_eq_none_iff {cs : List Check} : firstFault keys cs = none ↔ ∀ c ∈ cs, c.fault? keys = none :=
  List.findSome?_eq_none_iff

theorem firstFault_congr {keys' : List StateKey} (h : ∀ k, k ∈ keys ↔ k ∈ keys') (cs : List Check) :
    firstFault keys cs = firstFault keys' cs := by
  -- Only a look-up reads the keys, and it asks for membership, not for the order.
  have hfault : Check.fault? keys = Check.fault? keys' := by
    funext c
    cases c <;> simp only [Check.fault?, h]
  rw [firstFault, firstFault, hfault]

/-- Two results in a row are refused with the fault of the first one, and else with that of the second one. -/
theorem faultOf_bind {x : Except Fault α} {f : α → Except Fault β} {cs : List Check} (ds : List Check)
    (hx : faultOf x = firstFault keys cs) (hf : ∀ a, x = .ok a → faultOf (f a) = firstFault keys ds) :
    faultOf (x >>= f) = firstFault keys (cs ++ ds) := by
  rw [firstFault_append, ← hx]
  cases x with
  | error e => rfl
  | ok a => exact hf a rfl

theorem faultOf_level (b : UInt8) : faultOf (Level.ofByte b) = firstFault keys [.level b] := by
  unfold Level.ofByte
  split
  · next h => simp [faultOf, firstFault, Check.fault?, h]
  · next h => simp [faultOf, firstFault, Check.fault?, h]

theorem faultOf_position (b : UInt8) : faultOf (Position.ofByte b) = firstFault keys [.position b] := by
  unfold Position.ofByte
  split
  · next h => simp [faultOf, firstFault, Check.fault?, h]
  · next h => simp [faultOf, firstFault, Check.fault?, h]

theorem faultOf_label (text : String) : faultOf (StateKey.ofLabel text) = firstFault keys [.label text] := by
  cases h : StateKey.ofLabel text <;> simp [faultOf, firstFault, Check.fault?, h]

theorem faultOf_checkGiven {check : UInt8 → Except Fault α} {c : UInt8 → Check}
    (h : ∀ b, faultOf (check b) = firstFault keys [c b]) (b : Option UInt8) :
    faultOf (checkGiven check b) = firstFault keys (b.toList.map c) := by
  cases b with
  | none => rfl
  | some b =>
    show faultOf (checkGiven check (some b)) = firstFault keys [c b]
    rw [← h b, checkGiven]
    cases check b <;> rfl

/-- A label is read before its key is looked up. -/
theorem faultOf_resolve (m : Model) (text : String) :
    faultOf (m.resolve text) = firstFault m.states.keys [.label text, .known text] := by
  refine faultOf_bind [.known text] (faultOf_label text) fun k hk => ?_
  -- The label is that of `k`, so a known key with this label is `k` itself.
  have hknown : (∃ j ∈ m.states.keys, StateKey.ofLabel text = .ok j) ↔ m.states.contains k := by
    rw [Registry.contains_iff_mem_keys, hk]
    constructor
    · rintro ⟨j, hj, h⟩
      cases h
      exact hj
    · intro h
      exact ⟨k, h, rfl⟩
  simp only [firstFault, List.findSome?_cons, List.findSome?_nil, Check.fault?, hknown]
  by_cases hc : m.states.contains k
  · simp only [hc, if_true]
    rfl
  · simp only [hc]
    rfl

end

/-! ### Intents -/

/-- The checks of an intent, in order. -/
def Intent.checks : Intent → List Check
  | .addGrid _ => []
  | .addState e => [.level e.level, .position e.position]
  | .changeBird e =>
    [.label e.state, .known e.state] ++ (e.level.toList.map .level ++ e.position.toList.map .position)
  | .addTransition e => [.label e.source, .known e.source, .label e.target, .known e.target]
  | .removeTransition e => [.label e.source, .label e.target]
  | .removeState text => [.label text]

/-- What makes an intent pass: its coordinates are on the board, its labels are labels, and those of birds and of new
edges name known keys. -/
def Intent.Sound (keys : List StateKey) : Intent → Prop
  | .addGrid _ => True
  | .addState e => e.level.toNat ≤ 4 ∧ 13 ≤ e.position.toNat ∧ e.position.toNat ≤ 18
  | .changeBird e =>
    (∃ k ∈ keys, StateKey.ofLabel e.state = .ok k) ∧
      (∀ b ∈ e.level, b.toNat ≤ 4) ∧ ∀ b ∈ e.position, 13 ≤ b.toNat ∧ b.toNat ≤ 18
  | .addTransition e =>
    (∃ k ∈ keys, StateKey.ofLabel e.source = .ok k) ∧ ∃ k ∈ keys, StateKey.ofLabel e.target = .ok k
  | .removeTransition e => (∃ k, StateKey.ofLabel e.source = .ok k) ∧ ∃ k, StateKey.ofLabel e.target = .ok k
  | .removeState text => ∃ k, StateKey.ofLabel text = .ok k

namespace Intent

/-- An intent is refused with the fault of its first check that fails. -/
theorem faultOf_edits (m : Model) (i : Intent) : faultOf (i.edits m) = firstFault m.states.keys i.checks := by
  -- The binds of the edits follow the list of the checks; the last step of an intent checks nothing.
  cases i with
  | addGrid v => rfl
  | addState e =>
    have hkey : faultOf (StateKey.ofBytes e.level e.position e.variant) =
        firstFault m.states.keys [.level e.level, .position e.position] :=
      faultOf_bind [.position e.position] (faultOf_level e.level) fun _ _ =>
        faultOf_bind [] (faultOf_position e.position) fun _ _ => rfl
    exact faultOf_bind [] hkey fun _ _ => rfl
  | changeBird e =>
    have hpatch : faultOf e.patch =
        firstFault m.states.keys (e.level.toList.map .level ++ e.position.toList.map .position) := by
      refine faultOf_bind _ (faultOf_checkGiven faultOf_level e.level) fun _ _ => ?_
      rw [← List.append_nil (e.position.toList.map _)]
      exact faultOf_bind [] (faultOf_checkGiven faultOf_position e.position) fun _ _ => rfl
    refine faultOf_bind _ (faultOf_resolve m e.state) fun _ _ => ?_
    rw [← List.append_nil (_ ++ _)]
    exact faultOf_bind [] hpatch fun _ _ => rfl
  | addTransition e =>
    exact faultOf_bind [.label e.target, .known e.target] (faultOf_resolve m e.source) fun _ _ =>
      faultOf_bind [] (faultOf_resolve m e.target) fun _ _ => rfl
  | removeTransition e =>
    exact faultOf_bind [.label e.target] (faultOf_label e.source) fun _ _ =>
      faultOf_bind [] (faultOf_label e.target) fun _ _ => rfl
  | removeState text => exact faultOf_bind [] (faultOf_label text) fun _ _ => rfl

/-- The checks of an intent pass exactly if it is sound. -/
theorem firstFault_checks_eq_none_iff {keys : List StateKey} {i : Intent} :
    firstFault keys i.checks = none ↔ i.Sound keys := by
  have hlabel (text : String) :
      (Check.label text).fault? keys = none ↔ ∃ k, StateKey.ofLabel text = .ok k := by
    cases h : StateKey.ofLabel text <;> simp [Check.fault?, h]
  have hknown (text : String) :
      (Check.known text).fault? keys = none ↔ ∃ k ∈ keys, StateKey.ofLabel text = .ok k := by
    simp [Check.fault?]
  -- A label of a known key is a label.
  have hboth (text : String) : ((∃ k, StateKey.ofLabel text = .ok k) ∧ ∃ k ∈ keys, StateKey.ofLabel text = .ok k) ↔
      ∃ k ∈ keys, StateKey.ofLabel text = .ok k :=
    and_iff_right_of_imp fun ⟨k, _, hk⟩ => ⟨k, hk⟩
  rw [firstFault_eq_none_iff]
  cases i with
  | addGrid v => simp [checks, Sound]
  | addState e => simp [checks, Sound, Check.fault?]
  | changeBird e =>
    simp only [checks, Sound, List.forall_mem_append, List.forall_mem_cons, List.forall_mem_map, hlabel, hknown,
      ← and_assoc, hboth]
    simp [Check.fault?, and_assoc]
  | addTransition e =>
    simp only [checks, Sound, List.forall_mem_cons, hlabel, hknown, ← and_assoc, hboth]
    simp
  | removeTransition e => simp [checks, Sound, hlabel]
  | removeState text => simp [checks, Sound, hlabel]

end Intent

/-! ### Documents -/

namespace Document

variable {d : Document} {m : Model}

/-- The checks of a document, section by section and entry by entry. -/
def checks (d : Document) : List Check := d.intents.flatMap Intent.checks

/-- The keys of a model and those that a document asks for: the grids of its variants and its single states. -/
def knownKeys (d : Document) (m : Model) : List StateKey :=
  m.states.keys ++ d.variants.flatMap StateKey.grid ++ d.states.filterMap StateEntry.key?

theorem forall_mem_intents {p : Intent → Prop} :
    (∀ i ∈ d.intents, p i) ↔
      (∀ v ∈ d.variants, p (.addGrid v)) ∧ (∀ e ∈ d.states, p (.addState e)) ∧ (∀ e ∈ d.birds, p (.changeBird e)) ∧
        (∀ e ∈ d.transitions, p (.addTransition e)) ∧ (∀ e ∈ d.removeTransitions, p (.removeTransition e)) ∧
        ∀ text ∈ d.removeStates, p (.removeState text) := by
  simp only [intents, List.forall_mem_append, List.forall_mem_map, and_assoc]

theorem mem_keys_stage_iff_mem_knownKeys {k : StateKey} : k ∈ (d.stage m).states.keys ↔ k ∈ d.knownKeys m := by
  rw [mem_keys_stage, wantedKeys, knownKeys, List.append_assoc, ← List.mem_append]

theorem faultOf_edits_stage (d : Document) (m : Model) (i : Intent) :
    faultOf (i.edits (d.stage m)) = firstFault (d.knownKeys m) i.checks := by
  rw [Intent.faultOf_edits, firstFault_congr fun _ => mem_keys_stage_iff_mem_knownKeys]

theorem isOk_edits_stage_iff (d : Document) (m : Model) (i : Intent) :
    (i.edits (d.stage m)).isOk ↔ i.Sound (d.knownKeys m) := by
  rw [← Intent.firstFault_checks_eq_none_iff, ← faultOf_edits_stage]
  cases i.edits (d.stage m) <;> simp [faultOf, Except.isOk, Except.toBool]

/-- A replay against one model stops with the first fault of its intents. -/
theorem replayAgainst_snd (n m : Model) (is : List Intent) :
    (n.replayAgainst m is).2 = firstFault n.states.keys (is.flatMap Intent.checks) := by
  induction is generalizing m with
  | nil => rfl
  | cons i is ih =>
    -- The model checked against stays `n`, so the checks of the rest do not depend on the edits of `i`.
    rw [Model.replayAgainst, List.flatMap_cons, firstFault_append, ← Intent.faultOf_edits]
    cases i.edits n with
    | ok es => exact ih _
    | error f => rfl

/-- A replay stops with the first fault of its document. -/
theorem apply_snd_eq (h : m.Legal) (d : Document) : (d.apply m).2 = firstFault (d.knownKeys m) d.checks := by
  rw [apply_eq_replayAgainst h, replayAgainst_snd, firstFault_congr fun _ => mem_keys_stage_iff_mem_knownKeys, checks]

/-- **When a replay succeeds, and which fault stops it.** On a reachable model no fault stops a document exactly if the
coordinates of its states and birds are on the board, the labels of its birds and edges name known keys, and the labels
of its removals are labels. Otherwise the replay stops with the fault of the first check that fails: section by section
and entry by entry, the level before the position, a label before its look-up, the look-up before the coordinates of
the bird, and the source of an edge before its target. -/
theorem apply_verdict (hm : m.Reachable) (d : Document) :
    ((d.apply m).2 = none ↔
      (∀ e ∈ d.states, e.level.toNat ≤ 4 ∧ 13 ≤ e.position.toNat ∧ e.position.toNat ≤ 18) ∧
      (∀ e ∈ d.birds, (∃ k ∈ d.knownKeys m, StateKey.ofLabel e.state = .ok k) ∧
        (∀ b ∈ e.level, b.toNat ≤ 4) ∧ ∀ b ∈ e.position, 13 ≤ b.toNat ∧ b.toNat ≤ 18) ∧
      (∀ e ∈ d.transitions, (∃ k ∈ d.knownKeys m, StateKey.ofLabel e.source = .ok k) ∧
        ∃ k ∈ d.knownKeys m, StateKey.ofLabel e.target = .ok k) ∧
      (∀ e ∈ d.removeTransitions, (∃ k, StateKey.ofLabel e.source = .ok k) ∧ ∃ k, StateKey.ofLabel e.target = .ok k) ∧
      ∀ text ∈ d.removeStates, ∃ k, StateKey.ofLabel text = .ok k) ∧
    (d.apply m).2 = firstFault (d.knownKeys m) d.checks := by
  have hfault := apply_snd_eq hm.legal d
  refine ⟨?_, hfault⟩
  -- No fault in the whole list is no fault in any entry; the entries are then read section by section.
  have hsound : firstFault (d.knownKeys m) d.checks = none ↔ ∀ i ∈ d.intents, i.Sound (d.knownKeys m) := by
    simp only [← Intent.firstFault_checks_eq_none_iff, firstFault_eq_none_iff, checks, List.forall_mem_flatMap]
  rw [hfault, hsound, forall_mem_intents]
  -- A grid is always sound.
  exact and_iff_right fun _ _ => trivial

/-- A bird beside the board on a state that the document has just added; behind it an unknown state and a text that is
no label. -/
def mishaps : Document where
  states := [⟨0, 13, .zeta⟩]
  birds := [{ state := "ζL0P13", level := some 4 }, { state := " ζL0P13 ", level := some 4, position := some 12 }]
  transitions := [⟨"L0P13", "ζL1P13", none⟩]
  removeStates := ["somewhere"]

/-- Of the three faults the earliest stops the replay. -/
theorem apply_verdict_mishaps :
    (mishaps.apply (Model.initial.edit (.addGrid .eta))).2 = some (.positionOutside 12) := by
  rw [(apply_verdict (.edit .initial _) mishaps).2]
  decide +kernel

end Document

end BirdBoard
