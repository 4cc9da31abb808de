import Mathlib.Data.List.Count
import BirdBoard.Proofs.VisibleContent

/-! # What a selection shows

  A selection of one level, one position and one variant shows the bird of the state with that key, if it has one. In
  the stylesheet this is the business of one line, the selector of the key.

  - `Stylesheet.linesOf` reads the lines of a text, and `selectors` are the 90 lines that select a key. Only bird rules
    hold such lines, because no other line begins with a number sign (`filter_selectors_sheet`).
  - `Registry.map_key_sightings`: while keys are distinct, the visible birds stand for the keys that are shown, each
    once.
  - `Model.stylesheet_selection` says for every key whether and where its line stands, and what follows it.
-/

namespace BirdBoard

/-! ### Keys that are shown -/

/-- Whether a key has a state whose bird has both of its coordinates. -/
def Registry.Shows (r : Registry) (k : StateKey) : Prop :=
  ∃ s ∈ r.states, s.key = k ∧ s.bird.level.isSome ∧ s.bird.position.isSome

instance (r : Registry) : DecidablePred r.Shows := fun k =>
  inferInstanceAs (Decidable (∃ s ∈ r.states, s.key = k ∧ s.bird.level.isSome ∧ s.bird.position.isSome))

namespace Registry

variable {r : Registry} {k : StateKey}

theorem Shows.mem_keys (h : r.Shows k) : k ∈ r.keys := by
  obtain ⟨s, hs, rfl, _⟩ := h
  exact List.mem_map_of_mem hs

/-- While keys are distinct, the state of a shown key is the one that has the bird. -/
theorem shows_key_iff (h : r.keys.Nodup) {s : State} (hs : s ∈ r.states) :
    r.Shows s.key ↔ s.bird.level.isSome ∧ s.bird.position.isSome := by
  constructor
  · rintro ⟨s', hs', hkey, hbird⟩
    obtain rfl := List.inj_on_of_nodup_map h hs' hs hkey
    exact hbird
  · intro hbird
    exact ⟨s, hs, rfl, hbird⟩

/-- The visible birds stand for the shown keys, in the order of the registry. -/
theorem map_key_sightings (h : r.keys.Nodup) : r.sightings.map Sighting.key = r.keys.filter r.Shows := by
  -- A state has a sighting exactly if its key is shown, and both are asked of the same state.
  have hown : ∀ s ∈ r.states,
      s.sighting?.map Sighting.key = (Option.guard (fun k => decide (r.Shows k)) ∘ State.key) s := by
    intro s hs
    rw [Function.comp_apply, Option.guard]
    simp only [shows_key_iff h hs, State.sighting?]
    cases s.bird.level <;> cases s.bird.position <;> rfl
  rw [sightings, List.map_filterMap, List.filterMap_congr hown, ← List.filterMap_map, List.filterMap_eq_filter, keys]

end Registry

namespace Stylesheet

/-! ### Lines of a text -/

/-- The lines of a text, each of which a newline ends. -/
def linesOf (text : String) : List String := ((text.toList.splitOn '\n').dropLast).map String.ofList

theorem linesOf_unlines {xs : List String} (h : ∀ x ∈ xs, OneLine x) : linesOf (unlines xs) = xs := by
  have hsplit : (unlines xs).toList.splitOn '\n' = xs.map String.toList ++ [[]] := by
    induction xs with
    | nil => rfl
    | cons x xs ih =>
      have hx : '\n' ∉ x.toList := h x List.mem_cons_self
      have hchars : (unlines (x :: xs)).toList = x.toList ++ '\n' :: (unlines xs).toList := by
        simp [unlines_cons]
      -- The first line ends at the first newline, because it holds none itself.
      rw [hchars, List.splitOn_append_cons_self_of_not_mem hx, ih fun y hy => h y (List.mem_cons_of_mem _ hy)]
      rfl
  have hback : (String.ofList ∘ String.toList) = id := funext fun x => x.ofList_toList
  rw [linesOf, hsplit, List.dropLast_concat, List.map_map, hback, List.map_id]

/-! ### Selectors -/

/-- The lines that select a key. -/
def selectors : List String := (Variant.all.flatMap StateKey.grid).map selector

theorem selector_mem_selectors (k : StateKey) : selector k ∈ selectors := by
  refine List.mem_map_of_mem (List.mem_flatMap.mpr ⟨k.variant, ?_, StateKey.mem_grid.mpr rfl⟩)
  cases k.variant <;> decide

theorem notMem_selectors {x : String} (h : x.toList.head? ≠ some '#') : x ∉ selectors := by
  intro hx
  obtain ⟨k, _, rfl⟩ := List.mem_map.mp hx
  exact h (by simp [selector])

theorem filter_selectors_of_plain {xs : List String} (h : ∀ x ∈ xs, x.toList.head? ≠ some '#') :
    xs.filter (· ∈ selectors) = [] := by
  rw [List.filter_eq_nil_iff]
  intro x hx
  simpa using notMem_selectors (h x hx)

/-- A closed text shows its first character without being decoded. -/
theorem plain_literal {cs : List Char} (h : cs.head? ≠ some '#') : (String.ofList cs).toList.head? ≠ some '#' := by
  rwa [String.toList_ofList]

theorem plain_scaffolding : ∀ x ∈ scaffolding, x.toList.head? ≠ some '#' := by
  simp only [scaffolding, List.forall_mem_cons]
  and_intros
  all_goals first | exact plain_literal (by decide) | exact List.forall_mem_nil _

theorem plain_keyframes : ∀ x ∈ keyframes, x.toList.head? ≠ some '#' := by
  simp only [keyframes, List.forall_mem_cons]
  and_intros
  all_goals first | exact plain_literal (by decide) | exact List.forall_mem_nil _

theorem plain_header (s : Summary) : ∀ x ∈ header s, x.toList.head? ≠ some '#' := by
  simp [header]

theorem plain_note (id : TransitionId) : ∀ x ∈ note id, x.toList.head? ≠ some '#' := by
  simp [note]

/-- The lines of a bird rule from its selector to the brace that closes it. -/
def selection (b : Sighting) : List String :=
  [selector b.key, "  display: block;", "  grid-column: " ++ toString (b.position.val - 12) ++ ";",
    "  grid-row: " ++ toString (5 - b.level.val) ++ ";"] ++
  (if b.grabbing then ["  animation: bird-grab 0.3s ease-in-out;"] else []) ++ ["\x7d"]

/-- A bird rule is a comment, the selection and a blank line. -/
theorem sightingRule_eq (b : Sighting) :
    ∃ comment : String, comment.toList.head? ≠ some '#' ∧ sightingRule b = comment :: (selection b ++ [""]) := by
  refine ⟨_, ?_, by simp only [sightingRule, cellRule, selection, List.cons_append, List.append_assoc]; rfl⟩
  simp

theorem filter_selectors_sightingRule (b : Sighting) : (sightingRule b).filter (· ∈ selectors) = [selector b.key] := by
  obtain ⟨comment, hcomment, hrule⟩ := sightingRule_eq b
  have hplain : ∀ x ∈ (selection b).tail ++ [""], x.toList.head? ≠ some '#' := by
    cases hg : b.grabbing <;> simp [selection, hg]
  rw [hrule, List.filter_cons_of_neg (by simpa using notMem_selectors hcomment)]
  show (selector b.key :: ((selection b).tail ++ [""])).filter (· ∈ selectors) = _
  rw [List.filter_cons_of_pos (by simpa using selector_mem_selectors b.key), filter_selectors_of_plain hplain]

/-- Of the lines of a stylesheet only the bird rules hold selectors, one each. -/
theorem filter_selectors_sheet (n e : Nat) (bs : List Sighting) (ids : List TransitionId) :
    (sheet n e bs ids).filter (· ∈ selectors) = bs.map fun b => selector b.key := by
  have hnotes : ∀ x ∈ switchNotes ids, x.toList.head? ≠ some '#' := by
    cases ids with
    | nil => exact fun x hx => absurd hx List.not_mem_nil
    | cons id ids =>
      -- The title of the notes, and then a block of notes for each edge.
      intro x hx
      rcases List.mem_cons.mp hx with rfl | hx
      · exact plain_literal (by decide)
      · obtain ⟨i, _, hx⟩ := List.mem_flatMap.mp hx
        exact plain_note i x hx
  have hrules : (bs.flatMap sightingRule).filter (· ∈ selectors) = bs.map fun b => selector b.key := by
    rw [List.filter_flatMap]
    simp only [filter_selectors_sightingRule, List.map_eq_flatMap]
  rw [sheet, List.filter_append, List.filter_append, List.filter_append, List.filter_append,
    filter_selectors_of_plain (plain_header _), filter_selectors_of_plain plain_scaffolding, hrules,
    filter_selectors_of_plain hnotes, filter_selectors_of_plain plain_keyframes]
  simp

/-- The selection of each bird stands in one piece. -/
theorem selection_infix_sheet (n e : Nat) {bs : List Sighting} (ids : List TransitionId) {b : Sighting} (hb : b ∈ bs) :
    selection b <:+: sheet n e bs ids := by
  obtain ⟨comment, -, hrule⟩ := sightingRule_eq b
  have hselection : selection b <:+: sightingRule b := ⟨[comment], [""], by rw [hrule]; rfl⟩
  have hblock : sightingRule b <:+: bs.flatMap sightingRule := by
    obtain ⟨before, behind, rfl⟩ := List.append_of_mem hb
    rw [List.flatMap_append, List.flatMap_cons, ← List.append_assoc]
    exact List.infix_append _ _ _
  have hrules : bs.flatMap sightingRule <:+: sheet n e bs ids := by
    rw [sheet, List.append_assoc _ (switchNotes ids)]
    exact List.infix_append _ _ _
  exact (hselection.trans hblock).trans hrules

end Stylesheet

/-! ### Selections of a model -/

open Stylesheet

namespace Model

variable {m : Model}

theorem linesOf_stylesheet (h : m.Legal) :
    linesOf m.stylesheet =
      sheet m.states.size m.transitions.size m.states.sightings m.transitions.switches := by
  rw [stylesheet, compile, lines_eq_sheet h, linesOf_unlines (oneLine_sheet _ _ _ _)]

/-- The selecting lines are those of the shown keys, in the order of the registry. -/
theorem filter_selectors_stylesheet (h : m.Legal) :
    (linesOf m.stylesheet).filter (· ∈ selectors) = (m.states.keys.filter m.states.Shows).map selector := by
  rw [linesOf_stylesheet h, filter_selectors_sheet, ← Registry.map_key_sightings h.keys_nodup, List.map_map]
  rfl

/-- The line of a key stands once if the key is shown. -/
theorem count_selector_stylesheet (h : m.Legal) (k : StateKey) :
    (linesOf m.stylesheet).count (selector k) = if m.states.Shows k then 1 else 0 := by
  have hselector : decide (selector k ∈ selectors) = true := by simpa using selector_mem_selectors k
  have hnodup : (m.states.keys.filter m.states.Shows).Nodup := h.keys_nodup.filter _
  have hmem : k ∈ m.states.keys.filter m.states.Shows ↔ m.states.Shows k := by
    simpa using fun hk : m.states.Shows k => hk.mem_keys
  -- Among all selecting lines each key has one line, and the registry has each key once.
  rw [← List.count_filter (p := fun x => decide (x ∈ selectors)) hselector, filter_selectors_stylesheet h,
    List.count_map_of_injective _ _ fun _ _ => selector_injective, hnodup.count]
  simp only [hmem]

theorem selection_infix_stylesheet (h : m.Legal) {s : State} (hs : s ∈ m.states.states) {l : Level} {p : Position}
    (hlevel : s.bird.level = some l) (hposition : s.bird.position = some p) :
    selection ⟨s.key, l, p, s.bird.mode == .grabbing⟩ <:+: linesOf m.stylesheet := by
  rw [linesOf_stylesheet h]
  apply selection_infix_sheet
  refine List.mem_filterMap.mpr ⟨s, hs, ?_⟩
  rw [State.sighting?, hlevel, hposition]

/-- **What the stylesheet shows for a selection.** In the stylesheet of a reachable model the line that selects a key by
its three radio buttons stands once if the key is shown, and else not at all. The lines from it to the closing brace
show the bird, put it in one of six columns and one of five rows, and animate it exactly if it is grabbing. The lines
that select any key stand in the order of the registry, those of the base grid first, and their number is the one that
the header and the counts tell. -/
theorem stylesheet_selection (hm : m.Reachable) :
    let line (k : StateKey) : String :=
      "#level-" ++ toString k.level.val ++ ":checked ~ #pos-" ++ toString k.position.val ++ ":checked ~ #var-" ++
        k.variant.name ++ ":checked ~ .game-board .bird \x7b"
    let selecting : List String := (Variant.all.flatMap StateKey.grid).map line
    (∀ k, (linesOf m.stylesheet).count (line k) = if m.states.Shows k then 1 else 0) ∧
    (∀ s ∈ m.states.states, ∀ l p, s.bird.level = some l → s.bird.position = some p →
      [line s.key, "  display: block;", "  grid-column: " ++ toString (p.val - 12) ++ ";",
          "  grid-row: " ++ toString (5 - l.val) ++ ";"] ++
        (if s.bird.mode = .grabbing then ["  animation: bird-grab 0.3s ease-in-out;"] else []) ++ ["\x7d"] <:+:
          linesOf m.stylesheet ∧
      (1 ≤ p.val - 12 ∧ p.val - 12 ≤ 6) ∧ 1 ≤ 5 - l.val ∧ 5 - l.val ≤ 5) ∧
    (∃ overlays, m.states.keys = StateKey.grid .base ++ overlays ∧ (∀ k ∈ overlays, ¬ k.variant.isBase) ∧
      (linesOf m.stylesheet).filter (· ∈ selecting) =
        ((StateKey.grid .base).filter m.states.Shows ++ overlays.filter m.states.Shows).map line) ∧
    (linesOf m.stylesheet).countP (· ∈ selecting) = m.summary.birdStates ∧
    (linesOf m.stylesheet)[3]? =
      some ("   States met vogel: " ++ toString m.summary.birdStates ++ " / " ++ toString m.states.size) := by
  intro line selecting
  -- The generator writes these very lines.
  have hline : line = selector := rfl
  have hselecting : selecting = selectors := rfl
  clear_value line selecting
  subst hline hselecting
  have h := hm.legal
  have hselectors := filter_selectors_stylesheet h
  have hcount : m.summary.birdStates = m.states.sightings.length := length_withBird m.states
  refine ⟨count_selector_stylesheet h, ?_, ?_, ?_, ?_⟩
  · intro s hs l p hlevel hposition
    have hinfix := selection_infix_stylesheet h hs hlevel hposition
    have hrow := l.val_le
    have hcolumn := And.intro p.le_val p.val_le
    refine ⟨?_, by omega, by omega⟩
    simpa only [selection, beq_iff_eq] using hinfix
  · obtain ⟨overlays, hkeys, hover⟩ := h.gridFirst
    exact ⟨overlays, hkeys, hover, by rw [hselectors, hkeys, List.filter_append]⟩
  · rw [List.countP_eq_length_filter, hselectors, List.length_map, ← Registry.map_key_sightings h.keys_nodup,
      List.length_map, hcount]
  · -- The header is the first block of the sheet, and the count is in its fourth line.
    rw [linesOf_stylesheet h, hcount]
    rfl

/-- A document with one bird selects its state and no other. -/
theorem stylesheet_selection_oneBird :
    (linesOf ((Document.oneBird .grabbing).apply Model.initial).1.stylesheet).count
        "#level-2:checked ~ #pos-15:checked ~ #var-normaal:checked ~ .game-board .bird \x7b" = 1 ∧
      (linesOf ((Document.oneBird .grabbing).apply Model.initial).1.stylesheet).countP (· ∈ selectors) = 1 := by
  have hm : ((Document.oneBird .grabbing).apply Model.initial).1.Reachable := .apply .initial _
  obtain ⟨hcount, _, _, htotal, _⟩ := stylesheet_selection hm
  have hline : "#level-2:checked ~ #pos-15:checked ~ #var-normaal:checked ~ .game-board .bird \x7b" =
      selector ⟨.normal, ⟨2, by decide⟩, ⟨15, by decide, by decide⟩⟩ := by decide +kernel
  rw [hline]
  exact ⟨(hcount _).trans (by decide +kernel), htotal.trans (by decide +kernel)⟩

end Model

end BirdBoard
