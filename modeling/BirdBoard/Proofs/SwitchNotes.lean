import BirdBoard.Proofs.Selection

/-! # Notes for edges of another model

  A stylesheet is made of a registry and of edges that may come from another model, so an edge may have an end that the
  registry lacks.

  - `Stylesheet.opening` is everything before the notes. Of the edges only their number stands in it, on one line.
  - `Stylesheet.lines_eq`: between the opening and the keyframes stand the notes, one for each switch of the variant
    whose two ends are registered. Only a note holds the turning arrow (`filter_arrow_lines`).
  - `Stylesheet.compile_switches` says what the edges do to the stylesheet of a registry that they need not belong to,
    and when two sets of edges do the same to it.
-/

namespace BirdBoard

/-- The switches of the variant that a registry can note: both of their ends are registered. -/
def Registry.notable (r : Registry) (ts : TransitionSet) : List TransitionId :=
  ts.switches.filter fun id => id.source ∈ r.keys ∧ id.target ∈ r.keys

theorem Registry.mem_notable_iff {r : Registry} {ts : TransitionSet} {id : TransitionId} :
    id ∈ r.notable ts ↔
      (∃ t ∈ ts.edges, t.id = id ∧ t.axis = .variant) ∧ id.source ∈ r.keys ∧ id.target ∈ r.keys := by
  have hswitch : id ∈ ts.switches ↔ ∃ t ∈ ts.edges, t.id = id ∧ t.axis = .variant := by
    simp only [TransitionSet.switches, List.mem_map, List.mem_filter, beq_iff_eq]
    constructor
    · rintro ⟨t, ⟨ht, haxis⟩, hid⟩
      exact ⟨t, ht, hid, haxis⟩
    · rintro ⟨t, ht, hid, haxis⟩
      exact ⟨t, ⟨ht, haxis⟩, hid⟩
  rw [notable, List.mem_filter, hswitch, decide_eq_true_iff]

namespace Stylesheet

variable (r : Registry) (ts : TransitionSet)

/-! ### The lines, block by block -/

/-- The lines before the notes, which know of the edges nothing but their number. -/
def opening (edges : Nat) : List String :=
  header { states := r.size, birdStates := r.withBird.length, transitions := edges } ++ scaffolding ++
    r.withBird.flatMap birdRule

/-- The number of edges stands on the fifth line and nowhere else. -/
theorem opening_eq_set (edges : Nat) :
    opening r edges = (opening r 0).set 4 ("   Transitions: " ++ toString edges) := rfl

/-- The first line of a note. -/
def noteLine (id : TransitionId) : String :=
  "/* " ++ id.source.shortLabel ++ " ⟳ " ++ id.target.shortLabel ++ " — onzichtbaar voor speler */"

/-- Whatever ends the edges have, only the notable switches bring notes, and any switch brings the heading. -/
theorem notes_eq_notable :
    notes r ts = if ts.switches = [] then [] else notesHeading :: (r.notable ts).flatMap note := by
  have hnotable : (r.notable ts).flatMap note =
      ((ts.ofAxis .variant).filter fun t => r.contains t.id.source && r.contains t.id.target).flatMap
        fun t => note t.id := by
    rw [Registry.notable, TransitionSet.switches, List.filter_map, List.flatMap_map]
    congr 1
    apply List.filter_congr
    intro t _
    simp only [Function.comp_apply, ← Registry.contains_iff_mem_keys, Bool.decide_and, Bool.decide_eq_true]
  rw [hnotable]
  unfold notes TransitionSet.switches
  show _ = if (ts.ofAxis .variant).map Transition.id = [] then _ else _
  cases ts.ofAxis .variant with
  | nil => rfl
  | cons t ts => rfl

/-- The notes stand between the opening and the keyframes. -/
theorem lines_eq : lines r ts = opening r ts.size ++ notes r ts ++ keyframes := rfl

/-! ### Letters of the lines -/

theorem lettered_birdRule (s : State) : ∀ x ∈ birdRule s, Lettered x := by
  unfold birdRule
  split
  · exact lettered_cellRule _ _ _ _
  · simp

theorem lettered_opening (edges : Nat) : ∀ x ∈ opening r edges, Lettered x := by
  intro x hx
  simp only [opening, List.mem_append, List.mem_flatMap] at hx
  rcases hx with (hx | hx) | ⟨s, _, hx⟩
  · exact lettered_header _ x hx
  · exact lettered_scaffolding x hx
  · exact lettered_birdRule s x hx

/-- What neither a letter of a stylesheet nor the arrow is stands in no note. -/
theorem notMem_notes {c : Char} (hc : ¬ Ordinary c) (harrow : c ≠ '⟳') :
    ∀ x ∈ notes r ts, c ∉ x.toList := by
  have hheading : Lettered notesHeading := madeOf_literal (by decide)
  intro x hx
  rw [notes_eq_notable] at hx
  split at hx
  · cases hx
  · rcases List.mem_cons.mp hx with rfl | hx
    · exact hheading.notMem hc
    · obtain ⟨id, _, hx⟩ := List.mem_flatMap.mp hx
      exact notMem_note hc harrow id x hx

/-- Every line is one line, whatever the edges are. -/
theorem oneLine_lines : ∀ x ∈ lines r ts, OneLine x := by
  intro x hx
  simp only [lines_eq, List.mem_append] at hx
  rcases hx with (hx | hx) | hx
  · exact (lettered_opening r _ x hx).oneLine
  · exact notMem_notes r ts (by decide) (by decide) x hx
  · exact oneLine_keyframes x hx

theorem linesOf_compile : linesOf (compile r ts) = opening r ts.size ++ notes r ts ++ keyframes := by
  rw [compile, linesOf_unlines (oneLine_lines r ts), lines_eq]

/-! ### Notes among the lines -/

/-- Whether a line holds the turning arrow. -/
def HasArrow (s : String) : Prop := '⟳' ∈ s.toList

instance : DecidablePred HasArrow := fun s => inferInstanceAs (Decidable ('⟳' ∈ s.toList))

theorem Lettered.not_hasArrow {s : String} (h : Lettered s) : ¬ HasArrow s := h.notMem (by decide)

theorem filter_arrow_of_lettered {xs : List String} (h : ∀ x ∈ xs, Lettered x) : xs.filter (HasArrow ·) = [] := by
  rw [List.filter_eq_nil_iff]
  intro x hx
  simpa using (h x hx).not_hasArrow

/-- Of the three lines of a note the first one holds the arrow. -/
theorem filter_arrow_note (id : TransitionId) : (note id).filter (HasArrow ·) = [noteLine id] := by
  have hfirst : HasArrow (noteLine id) := by simp [HasArrow, noteLine]
  show (noteLine id :: (note id).tail).filter (HasArrow ·) = _
  rw [List.filter_cons_of_pos (by simpa using hfirst), filter_arrow_of_lettered (lettered_tail_note id)]

/-- The lines with the arrow are the first lines of the notes. -/
theorem filter_arrow_lines : (lines r ts).filter (HasArrow ·) = (r.notable ts).map noteLine := by
  have hnotes : (notes r ts).filter (HasArrow ·) = (r.notable ts).map noteLine := by
    rw [notes_eq_notable]
    split
    · next hnone => simp [Registry.notable, hnone]
    · rw [List.filter_cons_of_neg (by decide), List.filter_flatMap]
      simp only [filter_arrow_note, List.map_eq_flatMap]
  have hkeyframes : keyframes.filter (HasArrow ·) = [] := by decide
  rw [lines_eq, List.filter_append, List.filter_append, filter_arrow_of_lettered (lettered_opening r _), hnotes,
    hkeyframes]
  simp

theorem noteLine_injective {id id' : TransitionId} (h : noteLine id = noteLine id') : id = id' := by
  obtain ⟨a, b⟩ := id
  obtain ⟨a', b'⟩ := id'
  have hblank (k : StateKey) : ' ' ∉ k.shortLabel.toList := by
    intro h
    simpa using StateKey.mem_shortLabel h
  simp only [noteLine, String.append_assoc, String.append_right_inj] at h
  obtain ⟨hsource, htarget⟩ := (append_separator_inj rfl (hblank _) (hblank _)).mp h
  rw [StateKey.shortLabel_injective hsource, StateKey.shortLabel_injective ((String.append_left_inj _).mp htarget)]

/-- A note begins once for each notable switch, as long as no pair of ends has two edges. -/
theorem count_noteLine (hids : ts.ids.Nodup) (id : TransitionId) :
    (lines r ts).count (noteLine id) = if id ∈ r.notable ts then 1 else 0 := by
  have harrow : decide (HasArrow (noteLine id)) = true := by simp [HasArrow, noteLine]
  have hswitches : ts.switches.Nodup := hids.sublist (List.filter_sublist.map Transition.id)
  have hnodup : (r.notable ts).Nodup := hswitches.filter _
  rw [← List.count_filter (p := fun x => decide (HasArrow x)) harrow, filter_arrow_lines,
    List.count_map_of_injective _ _ fun _ _ => noteLine_injective, hnodup.count]

/-! ### The heading among the lines -/

/-- The fourth character tells the heading from all lines but the titles of the scaffolding. -/
theorem notesHeading_notMem {xs : List String} (h : ∀ x ∈ xs, x.toList[3]? ≠ some '-') : notesHeading ∉ xs := by
  intro hmem
  exact h notesHeading hmem rfl

theorem notesHeading_notMem_header (s : Summary) : notesHeading ∉ header s := by
  have hbanner : banner.toList = '═' :: List.replicate 53 '═' := String.toList_ofList
  apply notesHeading_notMem
  simp [header, hbanner]

theorem notesHeading_notMem_cellRule (k : StateKey) (l : Level) (p : Position) (g : Bool) :
    notesHeading ∉ cellRule k l p g := by
  have hlabel : ∃ rest, k.fullLabel.toList = 'L' :: rest := by
    unfold StateKey.fullLabel StateKey.displayLabel
    split <;> simp
  obtain ⟨rest, hlabel⟩ := hlabel
  apply notesHeading_notMem
  cases g <;> simp [cellRule, selector, hlabel]

theorem notesHeading_notMem_note (id : TransitionId) : notesHeading ∉ note id := by
  have hlabel : ∃ c cs, id.source.shortLabel.toList = c :: cs ∧ c ≠ '-' := by
    unfold StateKey.shortLabel
    cases id.source.variant <;> simp [Variant.labelPrefix, Variant.isBase, Variant.base, Variant.name]
  obtain ⟨c, cs, hlabel, hc⟩ := hlabel
  apply notesHeading_notMem
  simp [note, hlabel, hc]

/-- The heading stands once if there is a switch, noted or not. -/
theorem count_notesHeading : (lines r ts).count notesHeading = if ts.switches = [] then 0 else 1 := by
  have hopening : notesHeading ∉ opening r ts.size := by
    simp only [opening, List.mem_append, List.mem_flatMap, not_or, not_exists, not_and]
    refine ⟨⟨notesHeading_notMem_header _, by decide⟩, ?_⟩
    intro s _
    unfold birdRule
    split
    · exact notesHeading_notMem_cellRule _ _ _ _
    · exact List.not_mem_nil
  have hrest : notesHeading ∉ (r.notable ts).flatMap note := by
    rw [List.mem_flatMap]
    rintro ⟨id, _, hid⟩
    exact notesHeading_notMem_note id hid
  have hkeyframes : notesHeading ∉ keyframes := by decide
  rw [lines_eq, List.count_append, List.count_append, List.count_eq_zero_of_not_mem hopening,
    List.count_eq_zero_of_not_mem hkeyframes, notes_eq_notable]
  split
  · rfl
  · rw [List.count_cons_self, List.count_eq_zero_of_not_mem hrest]

/-! ### What edges do to a stylesheet -/

theorem opening_inj {e e' : Nat} (h : opening r e = opening r e') : e = e' := by
  have hline : "   Transitions: " ++ toString e = "   Transitions: " ++ toString e' :=
    Option.some.inj (congrArg (·[4]?) h)
  exact natText_inj.mp ((String.append_right_inj _).mp hline)

variable {ts} in
/-- The notes tell whether there are switches, and which of them are notable. -/
theorem notes_inj {ts' : TransitionSet} (h : notes r ts = notes r ts') :
    (ts.switches = [] ↔ ts'.switches = []) ∧ r.notable ts = r.notable ts' := by
  rw [notes_eq_notable, notes_eq_notable] at h
  by_cases hnone : ts.switches = []
  · by_cases hnone' : ts'.switches = []
    · simp [Registry.notable, hnone, hnone']
    · simp [hnone, hnone'] at h
  · by_cases hnone' : ts'.switches = []
    · simp [hnone, hnone'] at h
    · rw [if_neg hnone, if_neg hnone'] at h
      have hblocks := congrArg (· ++ keyframes) (List.cons.inj h).2
      exact ⟨iff_of_false hnone hnone', flatMap_note_inj hblocks⟩

/-- Two sets of edges give a registry the same stylesheet exactly if they agree on their number, on whether there is a
switch, and on the notable switches. -/
theorem compile_eq_iff (ts' : TransitionSet) :
    compile r ts = compile r ts' ↔
      ts.size = ts'.size ∧ (ts.switches = [] ↔ ts'.switches = []) ∧ r.notable ts = r.notable ts' := by
  constructor
  · intro htext
    have hlines := unlines_inj (oneLine_lines r ts) (oneLine_lines r ts') htext
    rw [lines_eq, lines_eq] at hlines
    -- The opening has the same length whatever the number of edges is.
    obtain ⟨hopening, hnotes⟩ := List.append_inj (List.append_cancel_right hlines) rfl
    exact ⟨opening_inj r hopening, notes_inj r hnotes⟩
  · rintro ⟨hsize, hnone, hnotable⟩
    simp only [compile, lines_eq, notes_eq_notable, hsize, hnone, hnotable]

/-- **What edges do to the stylesheet of a registry that they need not belong to.** Their number stands on one line of
the opening. Between the opening, which ends with the last bird rule or else with the scaffolding, and the keyframes
stand the notes: nothing if no edge switches the variant, and else the heading, once, and then two comments and a blank
line for each switch with two registered ends, in the order of insertion and none of them twice. Nothing else of the
edges has any influence, and each of these things has. -/
theorem compile_switches {m : Model} (hm : m.Reachable) :
    linesOf (compile r m.transitions) =
        opening r m.transitions.size ++
          (if m.transitions.switches = [] then []
            else
              "/* --- Variant-wisselende navigatielabels --- */" :: (r.notable m.transitions).flatMap fun id =>
                ["/* " ++ id.source.shortLabel ++ " ⟳ " ++ id.target.shortLabel ++ " — onzichtbaar voor speler */",
                  "/* Label verandert variant-radio van \"" ++ id.source.variant.name ++ "\" naar \"" ++
                    id.target.variant.name ++ "\" */",
                  ""]) ++
          keyframes ∧
    (∀ edges, opening r edges = (opening r 0).set 4 ("   Transitions: " ++ toString edges)) ∧
    (∀ id, id ∈ r.notable m.transitions ↔
      (∃ t ∈ m.transitions.edges, t.id = id ∧ t.axis = .variant) ∧ r.contains id.source ∧ r.contains id.target) ∧
    (r.notable m.transitions).Sublist m.transitions.ids ∧
    (linesOf (compile r m.transitions)).count "/* --- Variant-wisselende navigatielabels --- */" =
      (if ∃ t ∈ m.transitions.edges, t.axis = .variant then 1 else 0) ∧
    (∀ id : TransitionId, (linesOf (compile r m.transitions)).count
        ("/* " ++ id.source.shortLabel ++ " ⟳ " ++ id.target.shortLabel ++ " — onzichtbaar voor speler */") =
      if id ∈ r.notable m.transitions then 1 else 0) ∧
    ∀ m' : Model, m'.Reachable →
      (compile r m.transitions = compile r m'.transitions ↔
        m.transitions.size = m'.transitions.size ∧
          (m.transitions.switches = [] ↔ m'.transitions.switches = []) ∧
          r.notable m.transitions = r.notable m'.transitions) := by
  have hlines : linesOf (compile r m.transitions) = lines r m.transitions := linesOf_compile r _
  have hsome : m.transitions.switches = [] ↔ ¬ ∃ t ∈ m.transitions.edges, t.axis = .variant := by
    simp [TransitionSet.switches, List.filter_eq_nil_iff]
  refine ⟨?_, opening_eq_set r, ?_, ?_, ?_, ?_, ?_⟩
  · rw [linesOf_compile, notes_eq_notable]
    rfl
  · intro id
    rw [Registry.mem_notable_iff, Registry.contains_iff_mem_keys, Registry.contains_iff_mem_keys]
  · exact List.filter_sublist.trans (List.filter_sublist.map Transition.id)
  · rw [hlines]
    refine (count_notesHeading r _).trans ?_
    simp only [hsome, ite_not]
  · intro id
    rw [hlines]
    exact count_noteLine r _ hm.legal.ids_nodup id
  · intro m' _
    exact compile_eq_iff r _ _

end Stylesheet

/-- A document with two switches between the base and an overlay. -/
def Document.twoSwitches : Document where
  variants := [.zeta]
  transitions := [{ source := "L0P13", target := "ζL0P13" }, { source := "ζL4P18", target := "L4P18", label := "*/" }]

/-- On the bare base grid both switches dangle, and the heading stands alone. -/
theorem Stylesheet.compile_switches_dangling :
    linesOf (compile .baseGrid (Document.twoSwitches.apply Model.initial).1.transitions) =
        opening .baseGrid 2 ++ ["/* --- Variant-wisselende navigatielabels --- */"] ++ keyframes ∧
      (linesOf (compile .baseGrid (Document.twoSwitches.apply Model.initial).1.transitions)).count
        "/* --- Variant-wisselende navigatielabels --- */" = 1 := by
  obtain ⟨hlines, _, _, _, hheading, _⟩ := compile_switches .baseGrid (.apply .initial Document.twoSwitches)
  have hsize : (Document.twoSwitches.apply Model.initial).1.transitions.size = 2 := by decide +kernel
  have hswitches : (Document.twoSwitches.apply Model.initial).1.transitions.switches ≠ [] := by decide +kernel
  have hnotable : Registry.baseGrid.notable (Document.twoSwitches.apply Model.initial).1.transitions = [] := by
    decide +kernel
  rw [hheading, hlines, hsize, if_neg hswitches, hnotable]
  exact ⟨rfl, by decide +kernel⟩

end BirdBoard
