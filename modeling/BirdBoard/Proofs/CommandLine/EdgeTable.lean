import Mathlib.Data.List.Forall2
import BirdBoard.Proofs.Rows
import BirdBoard.Proofs.CommandLine.Listings

/-! # The lines of the table of edges

  The table of edges has a row for every edge that is listed, and the label of the edge ends its row as it is. So a
  label may break its row into several lines, and such a line may look like the row of another edge.

  - `Transition.takesUp_linesIn`: the row of an edge takes up one line, which begins with the short labels of its two
    ends, and one more for each newline in its label.
  - `rowEach_iff`: a table has one line for each edge exactly if no label holds a newline. Such tables are the same only
    for the same edges (`transitionTable_inj`).
  - `run_edgeTable` says this of what the program prints, and `run_edgeTable_forged` shows a table of one edge that is
    also the table of two.
-/

namespace BirdBoard

open Stylesheet Text

/-! ### Ends at the front of a line -/

theorem StateKey.notMem_space_shortLabel (k : StateKey) : ' ' ∉ k.shortLabel.toList := fun h => by
  simpa using mem_shortLabel h

theorem StateKey.solid_shortLabel (k : StateKey) : Solid k.shortLabel.toList := by
  have hL : 'L' ∈ k.shortLabel.toList := by simp [shortLabel]
  obtain ⟨c, cs, hchars⟩ := List.exists_cons_of_ne_nil (List.ne_nil_of_mem hL)
  refine ⟨c, cs, hchars, ?_⟩
  rintro rfl
  exact k.notMem_space_shortLabel (hchars ▸ List.mem_cons_self)

/-- A line begins with the short labels of two keys, and spaces are behind each of them. -/
def TransitionId.Opens (id : TransitionId) (line : String) : Prop :=
  ∃ gap rest, line.toList = id.source.shortLabel.toList ++
    ' ' :: (List.replicate gap ' ' ++ (id.target.shortLabel.toList ++ ' ' :: rest))

/-- A line begins with the ends of one edge at most. -/
theorem TransitionId.Opens.unique {id id' : TransitionId} {line : String} (h : id.Opens line) (h' : id'.Opens line) :
    id = id' := by
  obtain ⟨source, target⟩ := id
  obtain ⟨source', target'⟩ := id'
  obtain ⟨gap, rest, hline⟩ := h
  obtain ⟨gap', rest', hline'⟩ := h'
  rw [hline] at hline'
  -- The first space ends the source, and the first one behind the gap ends the target.
  obtain ⟨hsource, hbehind⟩ :=
    (append_mark_inj source.notMem_space_shortLabel source'.notMem_space_shortLabel).mp hline'
  obtain ⟨-, hbehind⟩ :=
    (spaces_append_inj (target.solid_shortLabel.append _) (target'.solid_shortLabel.append _)).mp hbehind
  obtain ⟨htarget, -⟩ :=
    (append_mark_inj target.notMem_space_shortLabel target'.notMem_space_shortLabel).mp hbehind
  rw [StateKey.shortLabel_injective (String.toList_inj.mp hsource),
    StateKey.shortLabel_injective (String.toList_inj.mp htarget)]

/-! ### Rows of edges -/

namespace Transition

/-- The axis and the colour of an edge, as its row shows them. -/
def rowMiddle (a : Axis) : String := padRight 9 (a.icon ++ " " ++ a.name) ++ " " ++ (padRight 8 a.color ++ " ")

/-- The row of an edge up to its label. -/
def rowStart (t : Transition) : String :=
  padRight 10 t.id.source.shortLabel ++ " " ++ (padRight 10 t.id.target.shortLabel ++ " " ++ rowMiddle t.axis)

/-- The icon tells which axis it is. -/
theorem rowMiddle_append_inj {a a' : Axis} {rest rest' : String} :
    rowMiddle a ++ rest = rowMiddle a' ++ rest' ↔ a = a' ∧ rest = rest' := by
  constructor
  · intro h
    have hicon (a : Axis) (rest : String) : (rowMiddle a ++ rest).toList.head? = a.icon.toList.head? := by
      cases a <;> simp [rowMiddle, padRight, Axis.icon]
    have hicons : a.icon.toList.head? = a'.icon.toList.head? := by rw [← hicon a rest, h, hicon]
    have haxis : a = a' := by
      revert hicons
      cases a <;> cases a' <;> decide
    subst haxis
    exact ⟨rfl, String.append_right_inj _ |>.mp h⟩
  · rintro ⟨rfl, rfl⟩
    rfl

variable (t : Transition)

/-- The label ends the row as it is. -/
theorem row_cells : row transitionWidths t.cells = t.rowStart ++ t.label := by
  simp [transitionWidths, cells, row, rowStart, rowMiddle, String.append_assoc]

theorem oneLine_rowStart : OneLine t.rowStart := by
  have hspace : OneLine " " := oneLine_literal (by decide)
  have hmiddle : OneLine (rowMiddle t.axis) := by
    simp only [rowMiddle, oneLine_append, oneLine_padRight, hspace, and_true]
    cases t.axis <;> exact ⟨⟨oneLine_literal (by decide), oneLine_literal (by decide)⟩, oneLine_literal (by decide)⟩
  simp only [rowStart, oneLine_append, oneLine_padRight, hspace, hmiddle, (lettered_shortLabel _).oneLine, and_true]

theorem opens_rowStart (rest : String) : t.id.Opens (t.rowStart ++ rest) := by
  refine ⟨10 - t.id.source.shortLabel.length, List.replicate (10 - t.id.target.shortLabel.length) ' ' ++
    (rowMiddle t.axis ++ rest).toList, ?_⟩
  have hparts : t.rowStart ++ rest = (padRight 10 t.id.source.shortLabel ++ " ") ++
      ((padRight 10 t.id.target.shortLabel ++ " ") ++ (rowMiddle t.axis ++ rest)) := by
    simp only [rowStart, String.append_assoc]
  rw [hparts, String.toList_append, toList_padRight_space, String.toList_append, toList_padRight_space]
  simp only [List.replicate_succ, List.append_assoc, List.cons_append]

/-- An edge is read off its row. -/
theorem row_injective : Function.Injective fun t : Transition => row transitionWidths t.cells := by
  intro t t' h
  simp only [row_cells] at h
  have hid : t.id = t'.id := (t.opens_rowStart t.label).unique (h ▸ t'.opens_rowStart t'.label)
  obtain ⟨id, axis, label⟩ := t
  obtain ⟨id', axis', label'⟩ := t'
  -- The ends are the same, so both rows have the same front, and the rest begins with the icon.
  obtain rfl : id = id' := hid
  simp only [rowStart, String.append_assoc, String.append_right_inj] at h
  obtain ⟨rfl, rfl⟩ := rowMiddle_append_inj.mp h
  rfl

/-- Some lines are what an edge takes up in a table: a line that begins with its ends, and one more for each newline in
its label. -/
def TakesUp (lines : List String) : Prop :=
  ∃ line more, lines = line :: more ∧ t.id.Opens line ∧ more.length = t.label.toList.count '\n'

theorem oneLine_row (h : OneLine t.label) : OneLine (row transitionWidths t.cells) := by
  rw [row_cells]
  exact oneLine_append.mpr ⟨t.oneLine_rowStart, h⟩

/-- The lines of a row are counted by the newlines in its label. -/
theorem length_linesIn_row :
    (linesIn (row transitionWidths t.cells)).length = t.label.toList.count '\n' + 1 := by
  rw [length_linesIn, row_cells, String.toList_append, List.count_append, List.count_eq_zero.mpr t.oneLine_rowStart,
    Nat.zero_add]

theorem takesUp_linesIn : t.TakesUp (linesIn (row transitionWidths t.cells)) := by
  obtain ⟨line, more, hlabel⟩ : ∃ line more, linesIn t.label = line :: more :=
    List.exists_cons_of_length_eq_add_one (length_linesIn t.label)
  refine ⟨t.rowStart ++ line, more, ?_, t.opens_rowStart line, ?_⟩
  · rw [row_cells, linesIn_append t.oneLine_rowStart, hlabel, List.modifyHead_cons]
  · have hlength := length_linesIn t.label
    rw [hlabel, List.length_cons] at hlength
    omega

end Transition

/-! ### Tables of edges -/

/-- The line of headings of the table of edges. -/
def edgeHeading : String := "FROM       TO         AXIS      COLOR    LABEL"

/-- A text is the line of headings and one line for each edge, which begins with the ends of the edge. -/
def RowEach (text : String) (edges : List Transition) : Prop :=
  ∃ rows, HasLines text (edgeHeading :: rows) ∧ List.Forall₂ (fun t row => t.id.Opens row) edges rows

variable {edges : List Transition}

theorem transitionTable_eq (edges : List Transition) :
    transitionTable edges = edgeHeading :: edges.map fun t => row transitionWidths t.cells := by
  have hheading : row transitionWidths transitionHeadings = edgeHeading := by decide +kernel
  rw [transitionTable, List.map_cons, hheading, List.map_map, Function.comp_def]

/-- Below the headings stand the lines that the edges take up, one edge after the other. -/
theorem hasLines_transitionTable (edges : List Transition) :
    HasLines (unlines (transitionTable edges))
      (edgeHeading :: (edges.map fun t => linesIn (row transitionWidths t.cells)).flatten) := by
  have hheading : linesIn edgeHeading = [edgeHeading] := linesIn_of_oneLine (oneLine_literal (by decide))
  have hlines := hasLines_unlines (transitionTable edges)
  rw [transitionTable_eq, List.flatMap_cons, hheading, List.flatMap_map, ← transitionTable_eq] at hlines
  exact hlines

/-- Edges take up as many lines as there are edges and newlines in their labels. -/
theorem length_flatten_linesIn (edges : List Transition) :
    (edges.map fun t => linesIn (row transitionWidths t.cells)).flatten.length =
      (edges.flatMap fun t => t.label.toList).count '\n' + edges.length := by
  induction edges with
  | nil => rfl
  | cons t ts ih =>
    rw [List.map_cons, List.flatten_cons, List.length_append, ih, t.length_linesIn_row, List.flatMap_cons,
      List.count_append, List.length_cons]
    omega

/-- There is one line for each edge exactly if no label holds a newline. -/
theorem rowEach_iff : RowEach (unlines (transitionTable edges)) edges ↔ ∀ t ∈ edges, OneLine t.label := by
  constructor
  · rintro ⟨rows, hrows, hends⟩
    have hsame := (List.cons.inj (hrows.unique (hasLines_transitionTable edges))).2
    have hlength := length_flatten_linesIn edges
    rw [← hsame, ← hends.length_eq] at hlength
    -- As many lines as edges leave no newline to any label.
    have hbreaks : (edges.flatMap fun t => t.label.toList).count '\n' = 0 := by omega
    intro t ht hnewline
    exact List.count_eq_zero.mp hbreaks (List.mem_flatMap_of_mem ht hnewline)
  · intro h
    refine ⟨edges.map fun t => row transitionWidths t.cells, ?_, ?_⟩
    · have hrows : (edges.map fun t => linesIn (row transitionWidths t.cells)).flatten =
          edges.map fun t => row transitionWidths t.cells := by
        rw [← List.flatMap_def, List.map_eq_flatMap]
        exact List.flatMap_congr fun t ht => linesIn_of_oneLine (t.oneLine_row (h t ht))
      rw [← hrows]
      exact hasLines_transitionTable edges
    · rw [List.forall₂_map_right_iff, List.forall₂_same]
      intro t _
      rw [Transition.row_cells]
      exact t.opens_rowStart t.label

theorem oneLine_transitionTable (h : ∀ t ∈ edges, OneLine t.label) : ∀ x ∈ transitionTable edges, OneLine x := by
  rw [transitionTable_eq, List.forall_mem_cons, List.forall_mem_map]
  exact ⟨oneLine_literal (by decide), fun t ht => t.oneLine_row (h t ht)⟩

/-- Labels without newlines let the edges be read off their table. -/
theorem transitionTable_inj {edges' : List Transition} (h : ∀ t ∈ edges, OneLine t.label)
    (h' : ∀ t ∈ edges', OneLine t.label) :
    unlines (transitionTable edges) = unlines (transitionTable edges') ↔ edges = edges' := by
  constructor
  · intro htext
    have htable := unlines_inj (oneLine_transitionTable h) (oneLine_transitionTable h') htext
    rw [transitionTable_eq, transitionTable_eq] at htable
    exact Transition.row_injective.list_map (List.cons.inj htable).2
  · rintro rfl
    rfl

/-! ### Printed tables -/

namespace CommandLine

/-- The arguments ask for the table of edges, and these are its edges: those that match the filter, of the model that
the input path stands for, in the order of their insertion. -/
def Directory.Tabulates (d : Directory) (args : List String) (edges : List Transition) : Prop :=
  ∃ input label axis state model, Invocation.ofArgs? args = some (.transitions input label axis false) ∧
    label.map StateKey.ofLabel = state.map .ok ∧ d.Builds input model ∧
    edges = model.transitions.edges.filter fun t => decide (TransitionFilter.Matches { state, axis } t)

variable {d : Directory} {args : List String}

/-- The table is printed, and nothing else. -/
theorem Directory.Tabulates.run_eq (h : d.Tabulates args edges) :
    (run Directory.access args).run d = ({ stdout := unlines (transitionTable edges) }, d) := by
  obtain ⟨input, label, axis, state, model, hargs, hlabel, hmodel, rfl⟩ := h
  rw [← TransitionFilter.select_eq_filter, run_of_ofArgs? hargs, run_transitions, loadThen_of_builds hmodel,
    listTransitions_of_label hlabel]
  rfl

/-- **One line for each edge.** Let the program print the table of some edges. It ends with 0. The lines that it prints
are the headings and, edge by edge, a line that begins with the ends of the edge, with one more line behind it for each
newline in the label of the edge. So there is exactly one line for each edge if and only if no label holds a newline,
and then the table of other edges is another text. -/
theorem run_edgeTable (h : d.Tabulates args edges) :
    let o := ((run Directory.access args).run d).1
    o.exitCode = 0 ∧
    (∃ blocks, HasLines o.stdout (edgeHeading :: blocks.flatten) ∧ List.Forall₂ Transition.TakesUp edges blocks) ∧
    (RowEach o.stdout edges ↔ ∀ t ∈ edges, OneLine t.label) ∧
    ((∀ t ∈ edges, OneLine t.label) →
      ∀ d' args' edges', Directory.Tabulates d' args' edges' → (∀ t ∈ edges', OneLine t.label) →
        (((run Directory.access args').run d').1.stdout = o.stdout ↔ edges' = edges)) := by
  rw [h.run_eq]
  refine ⟨rfl, ⟨_, hasLines_transitionTable edges, ?_⟩, rowEach_iff, ?_⟩
  · rw [List.forall₂_map_right_iff, List.forall₂_same]
    intro t _
    exact t.takesUp_linesIn
  · intro hlabels d' args' edges' h' hlabels'
    rw [h'.run_eq]
    exact transitionTable_inj hlabels' hlabels

/-- A directory with the text of a document in it. -/
def shelfOf (doc : Document) : Directory := { entries := [(["board.json"], .file doc.text.toUTF8)] }

/-- The table of all edges of this document. -/
def tableArgs : List String := ["transitions", "--in", "board.json"]

theorem builds_shelfOf {doc : Document} {model : Model} (h : doc.build = .ok model) :
    (shelfOf doc).Builds (some "board.json") model :=
  (Directory.builds_file_iff rfl).mpr h

/-- Every document that builds has a table. -/
theorem tabulates_shelfOf {doc : Document} {model : Model} (h : doc.build = .ok model) :
    (shelfOf doc).Tabulates tableArgs model.transitions.edges := by
  have hargs : Invocation.ofArgs? tableArgs = some (.transitions (some "board.json") none none false) := by
    decide +kernel
  refine ⟨_, _, _, none, model, hargs, rfl, builds_shelfOf h, ?_⟩
  rw [List.filter_eq_self.mpr]
  intro t _
  exact decide_eq_true ⟨nofun, nofun⟩

/-- A document with two edges. -/
def pairDocument : Document where
  transitions :=
    [{ source := "L0P13", target := "L1P13", label := "x" }, { source := "L0P14", target := "L1P14", label := "y" }]

/-- A document with one edge, whose label goes on with the row of another. -/
def forgedDocument : Document where
  transitions := [{ source := "L0P13", target := "L1P13", label := "x\nL0P14      L1P14      ↕ level   #22d3ee  y" }]

/-- The edges of a document that builds. -/
def edgesOf (doc : Document) : List Transition := (doc.apply .initial).1.transitions.edges

theorem tabulates_pairDocument : (shelfOf pairDocument).Tabulates tableArgs (edgesOf pairDocument) :=
  tabulates_shelfOf (by decide +kernel)

theorem tabulates_forgedDocument : (shelfOf forgedDocument).Tabulates tableArgs (edgesOf forgedDocument) :=
  tabulates_shelfOf (by decide +kernel)

/-- Two edges have two lines, and another table than no edges. -/
theorem run_edgeTable_pair :
    RowEach ((run Directory.access tableArgs).run (shelfOf pairDocument)).1.stdout (edgesOf pairDocument) ∧
      ((run Directory.access tableArgs).run (shelfOf {})).1.stdout ≠
        ((run Directory.access tableArgs).run (shelfOf pairDocument)).1.stdout := by
  have hlabels : ∀ t ∈ edgesOf pairDocument, OneLine t.label := by decide +kernel
  have hnone : (shelfOf {}).Tabulates tableArgs (edgesOf {}) := tabulates_shelfOf (by decide +kernel)
  obtain ⟨-, -, hrows, hother⟩ := run_edgeTable tabulates_pairDocument
  refine ⟨hrows.mpr hlabels, ?_⟩
  rw [Ne, hother hlabels _ _ _ hnone (by decide +kernel)]
  decide +kernel

/-- The table of the one edge is the table of the two. -/
theorem run_edgeTable_forged :
    (edgesOf forgedDocument).length = 1 ∧ (edgesOf pairDocument).length = 2 ∧
      (shelfOf forgedDocument).Tabulates tableArgs (edgesOf forgedDocument) ∧
      (shelfOf pairDocument).Tabulates tableArgs (edgesOf pairDocument) ∧
      ((run Directory.access tableArgs).run (shelfOf forgedDocument)).1 =
        ((run Directory.access tableArgs).run (shelfOf pairDocument)).1 ∧
      ¬ RowEach ((run Directory.access tableArgs).run (shelfOf forgedDocument)).1.stdout (edgesOf forgedDocument) := by
  refine ⟨by decide +kernel, by decide +kernel, tabulates_forgedDocument, tabulates_pairDocument, ?_, ?_⟩
  · rw [tabulates_forgedDocument.run_eq, tabulates_pairDocument.run_eq]
    decide +kernel
  · rw [tabulates_forgedDocument.run_eq, rowEach_iff]
    decide +kernel

end CommandLine

end BirdBoard
