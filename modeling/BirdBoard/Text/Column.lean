/-! # Table columns

  Cells of a table that is aligned by character count. A cell that is wider than its column is never cut: it pushes
  the rest of its row to the right.
-/

namespace BirdBoard.Text

/-- Fills `s` with spaces on the right up to `width` characters. -/
def padRight (width : Nat) (s : String) : String :=
  s ++ String.ofList (List.replicate (width - s.length) ' ')

/-- A row: every cell but the last is padded to its width, and single spaces stand between the cells. -/
def row (widths : List Nat) (cells : List String) : String :=
  match widths, cells with
  | w :: ws, c :: d :: cs => padRight w c ++ " " ++ row ws (d :: cs)
  | _, c :: cs => String.intercalate " " (c :: cs)
  | _, [] => ""

end BirdBoard.Text
