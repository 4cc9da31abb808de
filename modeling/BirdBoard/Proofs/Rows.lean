import BirdBoard.Text.Column
import BirdBoard.Proofs.VisibleContent

/-! # Rows and lines

  A row of a table is a line that shows fields from left to right, with spaces between one field and the next. The text
  of a table ends every row with a newline; a row that holds newlines itself takes up several lines.

  - `Fields` says which fields a line shows and at which columns they start. Fields that do not begin with a space start
    at one column only (`Fields.unique`).
  - `fields_row`: a padded row shows its cells at the columns that `starts` counts. A cell that is wider than its column
    pushes those behind it to the right.
  - `HasLines` says which lines a text consists of, and `hasLines_unlines` finds them in the text of some rows. A row
    takes up one line, and one more for each newline in it (`length_linesIn`).
-/

namespace BirdBoard.Text

/-! ### Spaces -/

/-- Characters of which the first is there and is not a space. -/
def Solid (cs : List Char) : Prop := ∃ c rest, cs = c :: rest ∧ c ≠ ' '

theorem Solid.append {cs : List Char} (h : Solid cs) (ds : List Char) : Solid (cs ++ ds) := by
  obtain ⟨c, rest, rfl, hc⟩ := h
  exact ⟨c, rest ++ ds, rfl, hc⟩

/-- Spaces in front of something solid end in one way only. -/
theorem spaces_append_inj {m n : Nat} {xs ys : List Char} (hx : Solid xs) (hy : Solid ys) :
    List.replicate m ' ' ++ xs = List.replicate n ' ' ++ ys ↔ m = n ∧ xs = ys := by
  constructor
  · intro h
    obtain ⟨c, xs, rfl, hc⟩ := hx
    obtain ⟨d, ys, rfl, hd⟩ := hy
    induction m generalizing n with
    | zero =>
      cases n with
      | zero => exact ⟨rfl, h⟩
      | succ n => exact absurd (List.cons.inj h).1 hc
    | succ m ih =>
      cases n with
      | zero => exact absurd (List.cons.inj h).1.symm hd
      | succ n =>
        obtain ⟨rfl, hrest⟩ := ih (List.cons.inj h).2
        exact ⟨rfl, hrest⟩
  · rintro ⟨rfl, rfl⟩
    rfl

/-! ### Fields -/

/-- The fields of a line and the columns at which they start, counted in characters; the first one starts at a given
column. -/
inductive Fields : Nat → List (Nat × String) → List Char → Prop where
  /-- The last field ends the line. -/
  | last (column : Nat) (field : String) : Fields column [(column, field)] field.toList
  /-- Spaces fill up the line from the end of a field to the start of the next one. -/
  | next {column gap : Nat} {field : String} {fields : List (Nat × String)} {line : List Char}
      (h : Fields (column + field.length + gap) fields line) :
      Fields column ((column, field) :: fields) (field.toList ++ (List.replicate gap ' ' ++ line))

namespace Fields

variable {column column' : Nat} {fields fields' : List (Nat × String)} {line line' : List Char}

theorem ne_nil (h : Fields column fields line) : fields ≠ [] := by
  cases h <;> exact List.cons_ne_nil _ _

/-- A line is made of its fields and of spaces. -/
theorem mem (h : Fields column fields line) {c : Char} (hc : c ∈ line) :
    c = ' ' ∨ ∃ f ∈ fields, c ∈ f.2.toList := by
  induction h with
  | last column field => exact .inr ⟨_, List.mem_cons_self, hc⟩
  | next _ ih =>
    rcases List.mem_append.mp hc with hc | hc
    · exact .inr ⟨_, List.mem_cons_self, hc⟩
    · rcases List.mem_append.mp hc with hc | hc
      · exact .inl (List.eq_of_mem_replicate hc)
      · rcases ih hc with hspace | ⟨f, hf, hcf⟩
        · exact .inl hspace
        · exact .inr ⟨f, List.mem_cons_of_mem _ hf, hcf⟩

/-- A line whose first field is solid is solid itself. -/
theorem solid {start : Nat} {field : String} (h : Fields column ((start, field) :: fields) line)
    (hfield : Solid field.toList) : Solid line := by
  cases h with
  | last => exact hfield
  | next => exact hfield.append _

/-- Spaces in front of the same fields are equally many, as long as none of the fields but the last begins with a
space. -/
theorem spaces_unique (h : Fields column fields line) (h' : Fields column' fields' line')
    (htexts : fields.map Prod.snd = fields'.map Prod.snd) (hsolid : ∀ f ∈ fields.dropLast, Solid f.2.toList) {m n : Nat}
    (hlines : List.replicate m ' ' ++ line = List.replicate n ' ' ++ line') : m = n ∧ line = line' := by
  cases h with
  | last column field =>
    cases h' with
    | last column' field' =>
      -- The last field may itself begin with spaces, so its length decides.
      obtain rfl : field = field' := (List.cons.inj htexts).1
      have hlength := congrArg List.length hlines
      simp only [List.length_append, List.length_replicate] at hlength
      exact ⟨by omega, rfl⟩
    | next h' => exact absurd (List.map_eq_nil_iff.mp (List.cons.inj htexts).2.symm) h'.ne_nil
  | @next _ gap field fields line h =>
    have hfirst : Solid field.toList := hsolid (column, field) (by simp [List.dropLast_cons_of_ne_nil h.ne_nil])
    cases h' with
    | last => exact absurd (List.map_eq_nil_iff.mp (List.cons.inj htexts).2) h.ne_nil
    | @next _ gap' field' fields' line' h' =>
      obtain rfl : field = field' := (List.cons.inj htexts).1
      exact (spaces_append_inj (h.next.solid hfirst) (h'.next.solid hfirst)).mp hlines

/-- The same fields start at the same columns of a line, as long as none of them but the last begins with a space. -/
theorem unique (h : Fields column fields line) (h' : Fields column fields' line)
    (htexts : fields.map Prod.snd = fields'.map Prod.snd) (hsolid : ∀ f ∈ fields.dropLast, Solid f.2.toList) :
    fields = fields' := by
  induction h generalizing fields' with
  | last column field =>
    generalize field.toList = line at h'
    cases h' with
    | last column field' =>
      obtain rfl : field = field' := (List.cons.inj htexts).1
      rfl
    | next h' => exact absurd (List.map_eq_nil_iff.mp (List.cons.inj htexts).2.symm) h'.ne_nil
  | @next column gap field fields line h ih =>
    rw [List.dropLast_cons_of_ne_nil h.ne_nil] at hsolid
    generalize hline : field.toList ++ (List.replicate gap ' ' ++ line) = shown at h'
    cases h' with
    | last => exact absurd (List.map_eq_nil_iff.mp (List.cons.inj htexts).2) h.ne_nil
    | @next _ gap' field' fields' line' h' =>
      obtain rfl : field = field' := (List.cons.inj htexts).1
      have hothers : fields.map Prod.snd = fields'.map Prod.snd := (List.cons.inj htexts).2
      have hrest : ∀ f ∈ fields.dropLast, Solid f.2.toList := fun f hf => hsolid f (List.mem_cons_of_mem _ hf)
      -- The same gap is behind the field in both readings, so what is left is one line again.
      obtain ⟨rfl, rfl⟩ := h.spaces_unique h' hothers hrest (List.append_cancel_left hline)
      rw [ih h' hothers hrest]

end Fields

/-! ### Rows -/

/-- A padded cell fills its column, and one more space is behind it. -/
theorem toList_padRight_space (width : Nat) (s : String) :
    (padRight width s ++ " ").toList = s.toList ++ List.replicate (width - s.length + 1) ' ' := by
  rw [padRight, List.replicate_succ']
  simp only [String.toList_append, String.toList_ofList, List.append_assoc]
  rfl

/-- The last cell is written as it is. -/
theorem row_singleton (cell : String) : row [] [cell] = cell := by simp [row]

/-- The columns at which the cells of a row start, from a given one on. -/
def starts (column : Nat) : List Nat → List String → List Nat
  | width :: widths, cell :: cells => column :: starts (column + max width cell.length + 1) widths cells
  | _, _ => [column]

/-- A padded row shows its cells where they start. -/
theorem fields_row {widths : List Nat} {cells : List String} (h : cells.length = widths.length + 1) (column : Nat) :
    Fields column ((starts column widths cells).zip cells) (row widths cells).toList := by
  induction widths generalizing cells column with
  | nil =>
    obtain ⟨cell, rfl⟩ := List.length_eq_one_iff.mp h
    rw [row_singleton]
    exact .last column cell
  | cons width widths ih =>
    match cells, h with
    | cell :: next :: cells, h =>
      have hlength : (next :: cells).length = widths.length + 1 := by simpa using h
      have hnext := ih hlength (column + max width cell.length + 1)
      -- The gap fills up a cell that fits, and is one space behind a cell that does not.
      have hgap : column + max width cell.length + 1 = column + cell.length + (width - cell.length + 1) := by omega
      rw [row, String.toList_append, toList_padRight_space, starts, List.zip_cons_cons, List.append_assoc]
      rw [hgap] at hnext ⊢
      exact .next hnext

/-! ### Lines -/

open Stylesheet

/-- A text consists of some lines, each of which a newline ends. -/
def HasLines (text : String) (lines : List String) : Prop := text = unlines lines ∧ ∀ x ∈ lines, OneLine x

theorem HasLines.unique {text : String} {lines lines' : List String} (h : HasLines text lines)
    (h' : HasLines text lines') : lines = lines' :=
  unlines_inj h.2 h'.2 (h.1.symm.trans h'.1)

theorem oneLine_append {s t : String} : OneLine (s ++ t) ↔ OneLine s ∧ OneLine t := by
  simp only [OneLine, String.toList_append, List.mem_append, not_or]

/-- Spaces break no line. -/
theorem oneLine_padRight {width : Nat} {s : String} : OneLine (padRight width s) ↔ OneLine s := by
  rw [padRight, oneLine_append, and_iff_left]
  rw [OneLine, String.toList_ofList]
  exact fun h => absurd (List.eq_of_mem_replicate h) (by decide)

/-- A line of fields none of which holds a newline holds none either. -/
theorem Fields.oneLine {column : Nat} {fields : List (Nat × String)} {line : String}
    (h : Fields column fields line.toList) (hfields : ∀ f ∈ fields, OneLine f.2) : OneLine line := by
  intro hnewline
  rcases h.mem hnewline with hspace | ⟨f, hf, hchar⟩
  · exact absurd hspace (by decide)
  · exact hfields f hf hchar

/-- No piece holds the mark at which a list is split. -/
theorem notMem_of_mem_splitOn {mark : Char} {cs piece : List Char} (h : piece ∈ cs.splitOn mark) : mark ∉ piece := by
  induction cs generalizing piece with
  | nil =>
    obtain rfl : piece = [] := by simpa using h
    exact List.not_mem_nil
  | cons c cs ih =>
    obtain ⟨first, pieces, hsplit⟩ := List.exists_cons_of_ne_nil (List.splitOn_ne_nil mark cs)
    rw [List.splitOn_cons_eq_if_modifyHead] at h
    split at h
    · rcases List.mem_cons.mp h with rfl | h
      · exact List.not_mem_nil
      · exact ih h
    · next hc =>
      rw [hsplit, List.modifyHead_cons] at h
      rw [hsplit] at ih
      rcases List.mem_cons.mp h with rfl | h
      · rw [List.mem_cons, not_or]
        exact ⟨fun hmark => hc (beq_iff_eq.mpr hmark.symm), ih List.mem_cons_self⟩
      · exact ih (List.mem_cons_of_mem _ h)

/-- What stands in front and does not hold the mark stands in front of the first piece. -/
theorem splitOn_append_of_notMem {mark : Char} {cs : List Char} (h : mark ∉ cs) (ds : List Char) :
    (cs ++ ds).splitOn mark = (ds.splitOn mark).modifyHead (cs ++ ·) := by
  induction cs with
  | nil => exact (congrFun List.modifyHead_id _).symm
  | cons c cs ih =>
    have hc : (c == mark) = false := beq_eq_false_iff_ne.mpr fun hmark => h (hmark ▸ List.mem_cons_self)
    rw [List.cons_append, List.splitOn_cons_eq_if_modifyHead, hc, if_neg Bool.false_ne_true,
      ih fun hmark => h (List.mem_cons_of_mem _ hmark), List.modifyHead_modifyHead]
    rfl

/-- The pieces between the newlines are the lines. -/
theorem unlines_splitOn (cs : List Char) :
    unlines ((cs.splitOn '\n').map String.ofList) = String.ofList cs ++ "\n" := by
  induction cs with
  | nil => rfl
  | cons c cs ih =>
    rw [List.splitOn_cons_eq_if_modifyHead]
    obtain ⟨piece, pieces, hsplit⟩ := List.exists_cons_of_ne_nil (List.splitOn_ne_nil '\n' cs)
    have hcons : String.ofList (c :: cs) = String.singleton c ++ String.ofList cs := by simp
    split
    · next hc =>
      obtain rfl : c = '\n' := by simpa using hc
      rw [List.map_cons, unlines_cons, ih, hcons, String.append_assoc]
      rfl
    · rw [hsplit, List.map_cons, unlines_cons] at ih
      rw [hsplit, List.modifyHead_cons, List.map_cons, unlines_cons, hcons, String.append_assoc, ← ih]
      simp [← String.toList_inj]

/-- The lines that a row takes up. -/
def linesIn (row : String) : List String := (row.toList.splitOn '\n').map String.ofList

theorem linesIn_of_oneLine {row : String} (h : OneLine row) : linesIn row = [row] := by
  rw [linesIn, List.splitOn_eq_singleton h, List.map_singleton, String.ofList_toList]

theorem length_linesIn (row : String) : (linesIn row).length = row.toList.count '\n' + 1 := by
  rw [linesIn, List.length_map]
  induction row.toList with
  | nil => rfl
  | cons c cs ih =>
    rw [List.splitOn_cons_eq_if_modifyHead, List.count_cons]
    split
    · rw [List.length_cons, ih]
    · rw [List.length_modifyHead, ih, Nat.add_zero]

theorem oneLine_of_mem_linesIn {row x : String} (h : x ∈ linesIn row) : OneLine x := by
  obtain ⟨piece, hpiece, rfl⟩ := List.mem_map.mp h
  rw [OneLine, String.toList_ofList]
  exact notMem_of_mem_splitOn hpiece

theorem unlines_linesIn (row : String) : unlines (linesIn row) = row ++ "\n" := by
  rw [linesIn, unlines_splitOn, String.ofList_toList]

/-- What stands in front of a row and is no newline stands in front of its first line. -/
theorem linesIn_append {start : String} (h : OneLine start) (row : String) :
    linesIn (start ++ row) = (linesIn row).modifyHead (start ++ ·) := by
  obtain ⟨piece, pieces, hsplit⟩ := List.exists_cons_of_ne_nil (List.splitOn_ne_nil '\n' row.toList)
  rw [linesIn, linesIn, String.toList_append, splitOn_append_of_notMem h, hsplit]
  simp

/-- The text of some rows consists of the lines that they take up, one row after the other. -/
theorem hasLines_unlines (rows : List String) : HasLines (unlines rows) (rows.flatMap linesIn) := by
  refine ⟨?_, ?_⟩
  · induction rows with
    | nil => rfl
    | cons row rows ih =>
      rw [List.flatMap_cons, unlines_append, ← ih, unlines_linesIn, unlines_cons, String.append_assoc]
  · intro x hx
    obtain ⟨row, -, hx⟩ := List.mem_flatMap.mp hx
    exact oneLine_of_mem_linesIn hx

end BirdBoard.Text
