import LinearProgram.Cell
import LinearProgram.Grid
import LinearProgram.Label
import LinearProgram.Text.Table
/-!
# The final tableau as a table

One row for each basic variable, opened by its cost `Ci` and its label, then the rows `Cj` and `Δj`.
`tableauTable` is the table of a tableau of the method; `placedTable` makes the same table of raw data,
in which places may be counted from the end.
-/

namespace LinearProgram

variable {α : Type} [DecimalScalar α]

/-- The cells of a row of scalars. -/
def cellTexts (decimals : Int) (row : List α) : Except Fault (List String) :=
  row.mapM (cellText decimals)

/-- The row of the table for the constraint row at place `i`, in which a column is basic. -/
def basicRow (decimals : Int) (costs : List α) (rows : Grid α) (i column : Nat) :
    Except Fault (List String) := do
  let cost ← element costs column
  let costCell ← cellText decimals cost
  let row ← component rows i
  let cells ← cellTexts decimals row
  return costCell :: variableLabel column :: cells

/-- A row of the table for an objective row of the tableau. -/
def objectiveRow (decimals : Int) (label : String) (row : List α) : Except Fault (List String) := do
  let cells ← cellTexts decimals row
  return label :: "" :: cells

/-- The table of a tableau with `columns` variables over `m` constraint rows. -/
def tableauTable (decimals : Int) (costs : List α) (rows : Grid α) (basis : List Nat)
    (columns m : Nat) : Except Fault Table := do
  let basic ← basis.zipIdx.mapM fun place => basicRow decimals costs rows place.2 place.1
  let cj ← objectiveRow decimals "Cj" (← component rows m)
  let gains ← objectiveRow decimals "Δj" (← component rows (m + 1))
  return ⟨"Ci" :: "i" :: variableLabels columns ++ [limitLabel], basic ++ [cj, gains]⟩

/-! ## Raw data -/

/-- The label of a place that may also lie left of the first column. -/
def placeLabel (j : Int) : Except Fault String := (wholeText (j + 1)).map ("A" ++ ·)

/-- The row of the table for the row at place `i` of raw data, in which a column is basic. -/
def placedRow (decimals : Int) (costs : List α) (rows : Grid α) (i : Nat) (column : Int) :
    Except Fault (List String) := do
  let cost ← elementAt costs column
  let costCell ← cellText decimals cost
  let label ← placeLabel column
  let row ← component rows i
  let cells ← cellTexts decimals row
  return costCell :: label :: cells

/-- The table of raw data with `columns` variables, of which row `m` is the first objective row. -/
def placedTable (decimals : Int) (costs : List α) (rows : Grid α) (basis : List Int)
    (columns m : Int) : Except Fault Table := do
  let rows ← rectangle? rows
  let basic ← basis.zipIdx.mapM fun place => placedRow decimals costs rows place.2 place.1
  let cj ← objectiveRow decimals "Cj" (← rowAt rows m)
  let gains ← objectiveRow decimals "Δj" (← rowAt rows (m + 1))
  return ⟨"Ci" :: "i" :: variableLabels columns.toNat ++ [limitLabel], basic ++ [cj, gains]⟩

end LinearProgram
