import BirdBoard.Proofs.Replay.Checks

/-! # Where a replay stops

  A fault stops a replay between two entries, never inside one.

  - `Intent.program` writes an intent as commands and checks in a row, each of which finds the model as the ones before
    it have left it. A fault ends a program, and what was done before stays done. `Intent.program_eq` shows that none of
    the programs has done anything by the time a fault ends it.
  - `Document.cut` keeps the first entries of a document, and `Document.apply_cut` replays them.
  - `Document.apply_stop`: what a stopped replay leaves is what the document leaves that is cut before its first entry
    with a fault.
-/

namespace BirdBoard

/-! ### Programs -/

/-- Commands and checks in a row. -/
abbrev Program (α : Type) := ExceptT Fault (StateM Model) α

namespace Program

variable {α β : Type}

/-- The result of a program on a model, and the model that it leaves. -/
def on (p : Program α) (m : Model) : Except Fault α × Model := (ExceptT.run p).run m

/-- Carries out an edit on the current model. -/
def edit (e : Edit) : Program Unit := modify (·.edit e)

/-- Goes on with a value, or ends with a fault. -/
def demand (x : Except Fault α) : Program α := ofExcept x

/-- Looks up the key of a label in the current model. -/
def resolve (label : String) : Program StateKey := do demand ((← get).resolve label)

/-- Two programs in a row: the second one begins on the model that the first one leaves, unless a fault has ended it. -/
theorem on_bind (p : Program α) (q : α → Program β) (m : Model) :
    (p >>= q).on m =
      match p.on m with
      | (.ok a, m') => (q a).on m'
      | (.error f, m') => (.error f, m') := by
  have hcont : (p >>= q).on m = ExceptT.bindCont q (p.on m).1 (p.on m).2 := rfl
  rw [hcont]
  rcases p.on m with ⟨r, m'⟩
  cases r <;> rfl

@[simp] theorem on_demand (x : Except Fault α) (m : Model) : (demand x).on m = (x, m) := by
  cases x <;> rfl

@[simp] theorem on_resolve (label : String) (m : Model) : (resolve label).on m = (m.resolve label, m) :=
  on_demand _ m

end Program

open Program in
/-- The commands and checks of an intent, in order. -/
def Intent.program : Intent → Program Unit
  | .addGrid v => edit (.addGrid v)
  | .addState e => do
    let level ← demand (Level.ofByte e.level)
    let position ← demand (Position.ofByte e.position)
    edit (.addState { variant := e.variant, level, position })
  | .changeBird e => do
    let k ← resolve e.state
    let level ← demand (checkGiven Level.ofByte e.level)
    let position ← demand (checkGiven Position.ofByte e.position)
    if e.clear then edit (.updateBird k BirdPatch.reset)
    edit (.updateBird k { level := level.map some, position := position.map some, mode := e.mode })
  | .addTransition e => do
    let source ← resolve e.source
    let target ← resolve e.target
    edit (.addTransition { source, target } e.label)
  | .removeTransition e => do
    let source ← demand (StateKey.ofLabel e.source)
    let target ← demand (StateKey.ofLabel e.target)
    edit (.removeTransition { source, target })
  | .removeState label => do
    let k ← demand (StateKey.ofLabel label)
    edit (.removeState k)

/-- A program does all of its edits or, when a fault ends it, none of them. -/
theorem Intent.program_eq (i : Intent) (m : Model) :
    i.program.on m =
      match i.edits m with
      | .ok es => (.ok (), m.run es)
      | .error f => (.error f, m) := by
  cases i with
  | addGrid v => rfl
  | addState e =>
    simp only [program, edits, StateKey.ofBytes, Program.on_bind, Program.on_demand]
    cases Level.ofByte e.level with
    | error f => rfl
    | ok l => cases Position.ofByte e.position <;> rfl
  | changeBird e =>
    simp only [program, edits, BirdEntry.patch, Program.on_bind, Program.on_demand, Program.on_resolve]
    cases m.resolve e.state with
    | error f => rfl
    | ok k =>
      cases checkGiven Level.ofByte e.level with
      | error f => rfl
      | ok l =>
        cases checkGiven Position.ofByte e.position with
        | error f => rfl
        | ok p => cases e.clear <;> rfl
  | addTransition e =>
    simp only [program, edits, Program.on_bind, Program.on_resolve]
    cases m.resolve e.source with
    | error f => rfl
    | ok a =>
      dsimp only
      cases m.resolve e.target <;> rfl
  | removeTransition e =>
    simp only [program, edits, Program.on_bind, Program.on_demand]
    cases StateKey.ofLabel e.source with
    | error f => rfl
    | ok a => cases StateKey.ofLabel e.target <;> rfl
  | removeState label =>
    simp only [program, edits, Program.on_bind, Program.on_demand]
    cases StateKey.ofLabel label <;> rfl

/-- The programs of the entries of a document, one after the other. -/
def Document.program (d : Document) : Program Unit := forM d.intents Intent.program

/-- The programs of a document do what its replay does. -/
theorem Document.program_eq (d : Document) (m : Model) :
    d.program.on m =
      match d.apply m with
      | (m', none) => (.ok (), m')
      | (m', some f) => (.error f, m') := by
  unfold program apply
  induction d.intents generalizing m with
  | nil => rfl
  | cons i is ih =>
    rw [List.forM_cons, Program.on_bind, Intent.program_eq, Model.replay]
    cases i.edits m with
    | ok es => exact ih (m.run es)
    | error f => rfl

/-! ### Cut documents -/

namespace Document

variable {d : Document} {m m' : Model} {f : Fault}

/-- The document that ends behind its first `n` entries: what comes later in their section and all later sections are
dropped. -/
def cut (d : Document) (n : Nat) : Document where
  variants := d.variants.take n
  states := d.states.take (n - d.variants.length)
  birds := d.birds.take (n - d.variants.length - d.states.length)
  transitions := d.transitions.take (n - d.variants.length - d.states.length - d.birds.length)
  removeTransitions :=
    d.removeTransitions.take (n - d.variants.length - d.states.length - d.birds.length - d.transitions.length)
  removeStates :=
    d.removeStates.take (n - d.variants.length - d.states.length - d.birds.length - d.transitions.length -
      d.removeTransitions.length)

theorem intents_cut (d : Document) (n : Nat) : (d.cut n).intents = d.intents.take n := by
  simp [intents, cut, List.take_append, Nat.sub_sub]

/-- A cut document checks its entries against the same keys as the whole one: if an entry that looks keys up is left,
nothing has been cut from the sections that add states. -/
theorem edits_stage_cut (d : Document) (m : Model) (n : Nat) :
    ∀ i ∈ (d.cut n).intents, i.edits ((d.cut n).stage m) = i.edits (d.stage m) := by
  have hwhole (h : 0 < n - d.variants.length - d.states.length) : (d.cut n).stage m = d.stage m := by
    have hv : (d.cut n).variants = d.variants := List.take_of_length_le (by omega)
    have hs : (d.cut n).states = d.states := List.take_of_length_le (by omega)
    simp only [stage, wantedKeys, hv, hs]
  have htake {α : Type} {a : α} {as : List α} {k : Nat} (h : a ∈ as.take k) : 0 < k := by
    cases k with
    | zero => cases h
    | succ k => exact Nat.succ_pos k
  rw [forall_mem_intents]
  -- Only birds and new edges look keys up.
  refine ⟨fun _ _ => rfl, fun _ _ => rfl, fun e he => ?_, fun e he => ?_, fun _ _ => rfl, fun _ _ => rfl⟩
  · rw [hwhole (htake he)]
  · have hpos : 0 < n - d.variants.length - d.states.length - d.birds.length := htake he
    rw [hwhole (by omega)]

theorem replayAgainst_congr {n n' : Model} {is : List Intent} (h : ∀ i ∈ is, i.edits n = i.edits n') (m : Model) :
    n.replayAgainst m is = n'.replayAgainst m is := by
  induction is generalizing m with
  | nil => rfl
  | cons i is ih =>
    rw [Model.replayAgainst, Model.replayAgainst, h i List.mem_cons_self]
    cases i.edits n' with
    | ok es => exact ih (fun j hj => h j (List.mem_cons_of_mem _ hj)) _
    | error f => rfl

theorem apply_cut (h : m.Legal) (d : Document) (n : Nat) :
    (d.cut n).apply m = (d.stage m).replayAgainst m (d.intents.take n) := by
  rw [apply_eq_replayAgainst h, replayAgainst_congr (edits_stage_cut d m n), intents_cut]

/-! ### The entry that stops a replay -/

/-- A stopped replay has carried out the entries before the first one with a fault, and nothing of that one. -/
theorem replayAgainst_stop {n : Model} {is : List Intent} (h : n.replayAgainst m is = (m', some f)) :
    ∃ k i, is[k]? = some i ∧ n.replayAgainst m (is.take k) = (m', none) ∧ i.edits n = .error f := by
  induction is generalizing m with
  | nil => cases h
  | cons i is ih =>
    rw [Model.replayAgainst] at h
    cases hi : i.edits n with
    | error g =>
      rw [hi] at h
      cases h
      exact ⟨0, i, rfl, rfl, hi⟩
    | ok es =>
      rw [hi] at h
      obtain ⟨k, j, hj, hprefix, hfault⟩ := ih h
      refine ⟨k + 1, j, hj, ?_, hfault⟩
      rw [List.take_succ_cons, Model.replayAgainst, hi]
      exact hprefix

/-- The entry behind the ones that a stopped replay has carried out fails on the very model that they have left. -/
theorem edits_eq_error_of_cut {n : Nat} {i : Intent} (hi : d.intents[n]? = some i)
    (hbefore : (d.cut n).apply m = (m', none)) (hbehind : (d.cut (n + 1)).apply m = (m', some f)) :
    i.edits m' = .error f := by
  -- The longer cut is the shorter one and then `i`, replayed on what the shorter one has left.
  have hlast : m'.replay [i] = (m', some f) := by
    rw [apply, intents_cut, List.take_add_one, hi, Option.toList_some, Model.replay_append] at hbehind
    rw [apply, intents_cut] at hbefore
    rwa [hbefore] at hbehind
  rw [Model.replay] at hlast
  cases hes : i.edits m' with
  | ok es =>
    rw [hes] at hlast
    have hnone : none = some f := congrArg Prod.snd hlast
    cases hnone
  | error g =>
    rw [hes] at hlast
    cases hlast
    rfl

/-- **A stopped replay stops between entries.** When a fault stops a document on a reachable model, it stops the
commands and checks of the document where they stand, and no earlier edit is undone. There is a first entry that is not
sound, and the fault is its first one. Cut before this entry, the document is replayed without a fault and leaves the
same model; and the commands and checks of the entry, begun on this model, end with the fault and leave the model as it
is. -/
theorem apply_stop (hm : m.Reachable) (h : d.apply m = (m', some f)) :
    d.program.on m = (.error f, m') ∧
    ∃ n i, d.intents[n]? = some i ∧ (∀ j ∈ d.intents.take n, j.Sound (d.knownKeys m)) ∧
      firstFault (d.knownKeys m) i.checks = some f ∧
      (d.cut n).apply m = (m', none) ∧ i.program.on m' = (.error f, m') := by
  refine ⟨by rw [program_eq, h], ?_⟩
  rw [apply_eq_replayAgainst hm.legal] at h
  obtain ⟨n, i, hi, hprefix, hfault⟩ := replayAgainst_stop h
  -- The fault is known on the stage. Cutting before and behind the entry carries it over to the model that is left.
  have hbefore : (d.cut n).apply m = (m', none) := by rw [apply_cut hm.legal, hprefix]
  have hbehind : (d.cut (n + 1)).apply m = (m', some f) := by
    rw [apply_cut hm.legal, List.take_add_one, hi, Option.toList_some, Model.replayAgainst_append, hprefix]
    simp only [Model.replayAgainst, hfault]
  refine ⟨n, i, hi, ?_, ?_, hbefore, ?_⟩
  · intro j hj
    exact (isOk_edits_stage_iff d m j).mp ((Model.replayAgainst_eq_none_iff.mp hprefix).1 j hj)
  · rw [← faultOf_edits_stage, hfault, faultOf]
  · rw [Intent.program_eq, edits_eq_error_of_cut hi hbefore hbehind]

/-- The second entry would clear the bird that the first one has placed, but its level is not on the board. -/
def brokenClear : Document where
  birds :=
    [{ state := "L0P13", level := some 1, position := some 14 },
      { state := "L0P13", clear := true, level := some 9 }, { state := "L1P13", level := some 1, position := some 14 }]
  removeStates := ["L0P13"]

/-- The bird of the first entry stays. -/
theorem apply_stop_brokenClear :
    (brokenClear.apply Model.initial).2 = some (.levelOutside 9) ∧
      (brokenClear.apply Model.initial).1.states.withBird.map (·.key.shortLabel) = ["L0P13"] ∧
      ∃ n i, brokenClear.intents[n]? = some i ∧
        (brokenClear.cut n).apply Model.initial = ((brokenClear.apply Model.initial).1, none) ∧
        i.program.on (brokenClear.apply Model.initial).1 =
          (.error (.levelOutside 9), (brokenClear.apply Model.initial).1) := by
  have hfault : (brokenClear.apply Model.initial).2 = some (.levelOutside 9) := by decide +kernel
  obtain ⟨_, n, i, hi, _, _, hcut, hprogram⟩ := apply_stop .initial (apply_of_snd hfault)
  exact ⟨hfault, by decide +kernel, n, i, hi, hcut, hprogram⟩

end Document

end BirdBoard
