import BirdBoard.Proofs.CommandLine.EdgeTable

/-! # The columns of the tables

  Each table has columns of fixed widths, and a field starts below its heading as long as no cell before it is wider
  than its column.

  - Every cell of a state fits, so the table of states is aligned (`State.fields_row_cells`).
  - An edge of the position axis has ten characters in a column of nine, and its colour and its label start one
    character further to the right. All other edges fit (`Transition.fields_row_cells`).
  - `run_columns`: what the program prints is aligned, but for the last two fields of these edges.
-/

namespace BirdBoard

open Stylesheet Text

/-! ### Widths of cells -/

theorem Level.length_text (l : Level) : l.text.length = 1 := by
  have hall : ∀ l ∈ Level.all, l.text.length = 1 := by decide
  exact hall l l.mem_all

theorem Position.length_text (p : Position) : p.text.length = 2 := by
  have hall : ∀ p ∈ Position.all, p.text.length = 2 := by decide
  exact hall p p.mem_all

theorem Variant.length_name_le (v : Variant) : v.name.length ≤ 7 := by cases v <;> decide

theorem Variant.length_labelPrefix_le (v : Variant) : v.labelPrefix.length ≤ 1 := by cases v <;> decide

theorem StateKey.length_shortLabel_le (k : StateKey) : k.shortLabel.length ≤ 6 := by
  have hprefix := k.variant.length_labelPrefix_le
  have hL : "L".length = 1 := rfl
  have hP : "P".length = 1 := rfl
  simp only [shortLabel, String.length_append, k.level.length_text, k.position.length_text, hL, hP]
  omega

theorem StateKey.length_displayLabel (k : StateKey) : k.displayLabel.length = 6 := by
  simp only [displayLabel, String.length_append, k.level.length_text, k.position.length_text]
  rfl

/-! ### Columns of rows -/

/-- The columns of the table of states. -/
def stateColumns : List Nat := [0, 11, 20, 31, 38, 45]

/-- The columns of the table of edges. -/
def edgeColumns : List Nat := [0, 11, 22, 32, 41]

/-- The columns at which the fields of an edge start. -/
def Transition.columns (t : Transition) : List Nat :=
  if t.axis = .position then [0, 11, 22, 33, 42] else edgeColumns

theorem State.starts_cells (s : State) : starts 0 stateWidths s.cells = stateColumns := by
  have hlevel : ((s.bird.level.map Level.text).getD "-").length ≤ 6 := by
    cases s.bird.level with
    | none => decide
    | some l => simp [l.length_text]
  have hposition : ((s.bird.position.map Position.text).getD "-").length ≤ 6 := by
    cases s.bird.position with
    | none => decide
    | some p => simp [p.length_text]
  have hlabel := s.key.length_shortLabel_le
  have hvariant := s.key.variant.length_name_le
  have hdisplay := s.key.length_displayLabel
  simp only [cells, stateWidths, starts, stateColumns, List.cons.injEq, and_true, true_and]
  omega

theorem Transition.starts_cells (t : Transition) : starts 0 transitionWidths t.cells = t.columns := by
  have hsource := t.id.source.length_shortLabel_le
  have htarget := t.id.target.length_shortLabel_le
  have hcolor : t.axis.color.length = 7 := by cases t.axis <;> decide
  have haxis : max 9 (t.axis.icon ++ " " ++ t.axis.name).length = if t.axis = .position then 10 else 9 := by
    cases t.axis <;> decide
  -- Only the axis moves what is behind it, so its two widths are the two cases.
  simp only [cells, transitionWidths, starts, haxis, hcolor, columns, edgeColumns]
  split <;> simp only [List.cons.injEq, and_true, true_and] <;> omega

theorem State.fields_row_cells (s : State) : Fields 0 (stateColumns.zip s.cells) (row stateWidths s.cells).toList := by
  rw [← s.starts_cells]
  exact fields_row rfl 0

theorem Transition.fields_row_cells (t : Transition) :
    Fields 0 (t.columns.zip t.cells) (row transitionWidths t.cells).toList := by
  rw [← t.starts_cells]
  exact fields_row rfl 0

/-- The row of an edge is aligned with the headings unless the edge changes the position. -/
theorem Transition.fields_edgeColumns_iff (t : Transition) :
    Fields 0 (edgeColumns.zip t.cells) (row transitionWidths t.cells).toList ↔ t.axis ≠ .position := by
  constructor
  · intro h haxis
    have hcell : Solid (t.axis.icon ++ " " ++ t.axis.name).toList := by
      rw [haxis]
      exact ⟨'↔', " position".toList, rfl, by decide⟩
    have hcolor : Solid t.axis.color.toList := by
      rw [haxis]
      exact ⟨'#', "f59e0b".toList, rfl, by decide⟩
    have hsolid : ∀ f ∈ (edgeColumns.zip t.cells).dropLast, Solid f.2.toList := by
      show ∀ f ∈ [(0, t.id.source.shortLabel), (11, t.id.target.shortLabel), (22, _), (32, _)], Solid f.2.toList
      simp only [List.forall_mem_cons]
      exact ⟨t.id.source.solid_shortLabel, t.id.target.solid_shortLabel, hcell, hcolor, List.forall_mem_nil _⟩
    -- The colour cannot start at two columns of one line.
    have hfields := t.fields_row_cells
    rw [columns, if_pos haxis] at hfields
    have hsame : edgeColumns = [0, 11, 22, 33, 42] :=
      congrArg (List.map Prod.fst) (h.unique hfields rfl hsolid)
    exact absurd hsame (by decide)
  · intro haxis
    have hfields := t.fields_row_cells
    rwa [columns, if_neg haxis] at hfields

/-! ### Columns of tables -/

/-- The lines of a text show fields, line by line, at the given columns. -/
def ShowsFields (text : String) (rows : List (List (Nat × String))) : Prop :=
  ∃ lines, HasLines text lines ∧ List.Forall₂ (fun fields line => Fields 0 fields line.toList) rows lines

theorem showsFields_unlines_iff {lines : List String} (h : ∀ x ∈ lines, OneLine x)
    {rows : List (List (Nat × String))} :
    ShowsFields (unlines lines) rows ↔ List.Forall₂ (fun fields line => Fields 0 fields line.toList) rows lines := by
  constructor
  · rintro ⟨lines', hlines', hfields⟩
    rwa [HasLines.unique ⟨rfl, h⟩ hlines']
  · intro hfields
    exact ⟨lines, ⟨rfl, h⟩, hfields⟩

theorem lettered_displayLabel (k : StateKey) : Lettered k.displayLabel := by
  simp only [StateKey.displayLabel, madeOf_append, lettered_levelText, lettered_positionText, and_true]
  exact ⟨madeOf_literal (by decide), madeOf_literal (by decide)⟩

theorem State.oneLine_row (s : State) : OneLine (row stateWidths s.cells) := by
  have hlevel : OneLine ((s.bird.level.map Level.text).getD "-") := by
    cases s.bird.level with
    | none => exact oneLine_literal (by decide)
    | some l => exact (lettered_levelText l).oneLine
  have hposition : OneLine ((s.bird.position.map Position.text).getD "-") := by
    cases s.bird.position with
    | none => exact oneLine_literal (by decide)
    | some p => exact (lettered_positionText p).oneLine
  have hmode : OneLine s.bird.mode.name := by cases s.bird.mode <;> exact oneLine_literal (by decide)
  refine s.fields_row_cells.oneLine ?_
  show ∀ f ∈ [(0, s.key.shortLabel), (11, s.key.variant.name), (20, s.key.displayLabel), (31, _), (38, _), (45, _)], _
  simp only [List.forall_mem_cons]
  exact ⟨(lettered_shortLabel _).oneLine, (lettered_variantName _).oneLine, (lettered_displayLabel _).oneLine, hlevel,
    hposition, hmode, List.forall_mem_nil _⟩

theorem showsFields_stateTable (states : List State) :
    ShowsFields (unlines (stateTable states))
      (stateColumns.zip stateHeadings :: states.map fun s => stateColumns.zip s.cells) := by
  have hheading : Fields 0 (stateColumns.zip stateHeadings) (row stateWidths stateHeadings).toList :=
    fields_row (show stateHeadings.length = stateWidths.length + 1 from rfl) 0
  have hone : ∀ x ∈ stateTable states, OneLine x := by
    rw [stateTable, List.map_cons, List.map_map, List.forall_mem_cons, List.forall_mem_map]
    exact ⟨by decide +kernel, fun s _ => s.oneLine_row⟩
  rw [showsFields_unlines_iff hone, stateTable, List.map_cons, List.map_map, List.forall₂_cons,
    List.forall₂_map_left_iff, List.forall₂_map_right_iff, List.forall₂_same]
  exact ⟨hheading, fun s _ => s.fields_row_cells⟩

/-- In the table of edges the headings have their columns, and every edge is looked at on its own. -/
theorem showsFields_transitionTable_iff {edges : List Transition} (h : ∀ t ∈ edges, OneLine t.label)
    (fields : Transition → List (Nat × String)) :
    ShowsFields (unlines (transitionTable edges)) (edgeColumns.zip transitionHeadings :: edges.map fields) ↔
      ∀ t ∈ edges, Fields 0 (fields t) (row transitionWidths t.cells).toList := by
  have hheading : Fields 0 (edgeColumns.zip transitionHeadings) (row transitionWidths transitionHeadings).toList :=
    fields_row (show transitionHeadings.length = transitionWidths.length + 1 from rfl) 0
  rw [showsFields_unlines_iff (oneLine_transitionTable h), transitionTable, List.map_cons, List.map_map,
    List.forall₂_cons, List.forall₂_map_left_iff, List.forall₂_map_right_iff, List.forall₂_same, and_iff_right hheading]
  rfl

/-! ### Printed tables -/

namespace CommandLine

/-- **Columns line up, but for the edges of the position axis.** Let the program print a table. It ends with 0. In the
table of states the fields of every row start at the columns of the headings. So they do in the table of edges, as long
as no label holds a newline, but the colour and the label of an edge of the position axis start one character further to
the right; so this table is aligned if and only if it lists no such edge. -/
theorem run_columns (d : Directory) (args : List String) :
    let o := ((run Directory.access args).run d).1
    (∀ input filter model, Invocation.ofArgs? args = some (.states input filter false) → d.Builds input model →
      o.exitCode = 0 ∧
        ShowsFields o.stdout (stateColumns.zip stateHeadings ::
          (model.states.states.filter fun s => decide (filter.Matches s)).map fun s => stateColumns.zip s.cells)) ∧
    (∀ edges, d.Tabulates args edges → (∀ t ∈ edges, OneLine t.label) →
      o.exitCode = 0 ∧
        ShowsFields o.stdout (edgeColumns.zip transitionHeadings :: edges.map fun t => t.columns.zip t.cells) ∧
        (ShowsFields o.stdout (edgeColumns.zip transitionHeadings :: edges.map fun t => edgeColumns.zip t.cells) ↔
          ∀ t ∈ edges, t.axis ≠ .position)) := by
  refine ⟨?_, ?_⟩
  · intro input filter model hargs hmodel
    rw [run_of_ofArgs? hargs, run_states, loadThen_of_builds hmodel, ← StateFilter.select_eq_filter]
    exact ⟨rfl, showsFields_stateTable _⟩
  · intro edges hedges hlabels
    rw [hedges.run_eq]
    refine ⟨rfl, ?_, ?_⟩
    · rw [showsFields_transitionTable_iff hlabels]
      exact fun t _ => t.fields_row_cells
    · rw [showsFields_transitionTable_iff hlabels]
      exact forall₂_congr fun t _ => t.fields_edgeColumns_iff

/-- A document with an overlay, two birds and an edge of each axis. -/
def mixedDocument : Document where
  variants := [.zeta]
  birds :=
    [{ state := "ζL2P15", level := some 3, position := some 16, mode := some .grabbing },
      { state := "L0P13", level := some 1 }]
  transitions :=
    [{ source := "L2P15", target := "ζL2P15" }, { source := "L0P13", target := "L4P18", label := "  up  " },
      { source := "L0P13", target := "L0P14" }]

/-- The states with a visible bird. -/
def birdsArgs : List String := ["states", "--in=board.json", "--birds-only"]

/-- Of the states one has a visible bird. The edge of the variant axis just fits; the one of the position axis, which
comes last, does not. -/
theorem run_columns_mixed :
    ShowsFields ((run Directory.access birdsArgs).run (shelfOf mixedDocument)).1.stdout
        [stateColumns.zip stateHeadings, stateColumns.zip ["ζL2P15", "ζ", "L2 P15", "3", "16", "grabbing"]] ∧
      ShowsFields ((run Directory.access tableArgs).run (shelfOf mixedDocument)).1.stdout
        [edgeColumns.zip transitionHeadings, edgeColumns.zip ["L2P15", "ζL2P15", "⟳ variant", "#e879f9", "⟳"],
          edgeColumns.zip ["L0P13", "L4P18", "↕ level", "#22d3ee", "  up  "],
          [0, 11, 22, 33, 42].zip ["L0P13", "L0P14", "↔ position", "#f59e0b", "↔"]] := by
  have hargs : Invocation.ofArgs? birdsArgs = some (.states (some "board.json") { birdsOnly := true } false) := by
    decide +kernel
  have hbuild : mixedDocument.build = .ok (mixedDocument.apply .initial).1 := by decide +kernel
  have hlabels : ∀ t ∈ (mixedDocument.apply .initial).1.transitions.edges, OneLine t.label := by decide +kernel
  refine ⟨?_, ?_⟩
  · have hstates := ((run_columns _ _).1 _ _ _ hargs (builds_shelfOf hbuild)).2
    rwa [show ((mixedDocument.apply .initial).1.states.states.filter fun s =>
      decide (StateFilter.Matches { birdsOnly := true } s)).map (fun s => stateColumns.zip s.cells) =
        [stateColumns.zip ["ζL2P15", "ζ", "L2 P15", "3", "16", "grabbing"]] by decide +kernel] at hstates
  · have hedges := ((run_columns _ _).2 _ (tabulates_shelfOf hbuild) hlabels).2.1
    rwa [show (mixedDocument.apply .initial).1.transitions.edges.map (fun t => t.columns.zip t.cells) =
      [edgeColumns.zip ["L2P15", "ζL2P15", "⟳ variant", "#e879f9", "⟳"],
        edgeColumns.zip ["L0P13", "L4P18", "↕ level", "#22d3ee", "  up  "],
        [0, 11, 22, 33, 42].zip ["L0P13", "L0P14", "↔ position", "#f59e0b", "↔"]] by decide +kernel] at hedges

/-- A document with one edge to the side. -/
def sideDocument : Document where
  transitions := [{ source := "L0P13", target := "L0P14" }]

/-- Its table is out of line. -/
theorem run_columns_shifted :
    (shelfOf sideDocument).Tabulates tableArgs (edgesOf sideDocument) ∧
      (∀ t ∈ edgesOf sideDocument, OneLine t.label) ∧
      ((run Directory.access tableArgs).run (shelfOf sideDocument)).1.stdout =
        "FROM       TO         AXIS      COLOR    LABEL\nL0P13      L0P14      ↔ position #f59e0b  ↔\n" ∧
      ¬ ShowsFields ((run Directory.access tableArgs).run (shelfOf sideDocument)).1.stdout
        (edgeColumns.zip transitionHeadings :: (edgesOf sideDocument).map fun t => edgeColumns.zip t.cells) := by
  have htable : (shelfOf sideDocument).Tabulates tableArgs (edgesOf sideDocument) :=
    tabulates_shelfOf (by decide +kernel)
  have hlabels : ∀ t ∈ edgesOf sideDocument, OneLine t.label := by decide +kernel
  refine ⟨htable, hlabels, ?_, ?_⟩
  · rw [htable.run_eq]
    decide +kernel
  · rw [htable.run_eq, showsFields_transitionTable_iff hlabels]
    simp only [Transition.fields_edgeColumns_iff]
    decide +kernel

end CommandLine

end BirdBoard
