import LinearProgram.Cell
import LinearProgram.Label
import LinearProgram.Solution
import LinearProgram.Tableau.Display
/-!
# The walkthrough of a solution

The pages that explain an answer: one for each snapshot of the trace, with the pivot in brackets and
the ratios at the right, then the final table and the optimum; or, without an optimum, the verdict and
whatever trace there is.

A page also writes whole numbers: its index, and the row and the column of a pivot.  `render` writes them
as numbers are written everywhere, with `wholeText`; `renderWith` takes the way to write them.
-/

namespace LinearProgram

/-- A label that may be missing. -/
def labelText (label : Option String) : String := label.getD "None"

namespace Snapshot

variable {α : Type} [DecimalScalar α]

/-- The number of columns of variables: all but the last of the first row. -/
def columns (s : Snapshot α) : Nat := (s.tableau.headD []).length - 1

/-- The headers of the table of a snapshot. -/
def headers (s : Snapshot α) : List String :=
  "Ci" :: "i" :: variableLabels s.columns ++ [limitLabel] ++
    if s.ratios.isSome then ["xi / xij"] else []

/-- The cost of a basic variable: that of the column with its label; zero if there is no such column
or no costs are known. -/
def cost (s : Snapshot α) (costs : Option (List α)) (label : String) : Except Fault α :=
  match costs with
  | none => .ok 0
  | some costs =>
    match (variableLabels s.columns).findIdx? (· == label) with
    | none => .ok 0
    | some j => element costs j

/-- Is the cell at a row and column the pivot? -/
def isPivot (s : Snapshot α) (i j : Nat) : Bool :=
  match s.pivot with
  | none => false
  | some pivot => pivot.row == i && pivot.col == j

/-- The cells of row `i`, the pivot in brackets. -/
def rowCells (s : Snapshot α) (decimals : Int) (i : Nat) (row : List α) :
    Except Fault (List String) :=
  row.zipIdx.mapM fun place => do
    let text ← cellText decimals place.1
    return if s.isPivot i place.2 then "[" ++ text ++ "]" else text

/-- The text of a ratio. -/
def ratioText (decimals : Int) : Ratio α → Except Fault String
  | .unlimited => .ok "∞"
  | .limit q => if Scalar.isInfinite q then .ok "∞" else cellText decimals q

/-- The ratio of row `i` as the last cell, if the snapshot has ratios. -/
def ratioCells (s : Snapshot α) (decimals : Int) (i : Nat) : Except Fault (List String) :=
  match s.ratios with
  | none => .ok []
  | some ratios => do
    let ratio ← element ratios i
    let text ← ratioText decimals ratio
    return [text]

/-- The row of the table for the constraint row at place `i`. -/
def tableRow (s : Snapshot α) (costs : Option (List α)) (decimals : Int) (i : Nat)
    (label : String) : Except Fault (List String) := do
  let cost ← s.cost costs label
  let row ← element s.tableau i
  let cells ← s.rowCells decimals i row
  let costCell ← cellText decimals cost
  let ratio ← s.ratioCells decimals i
  return costCell :: label :: cells ++ ratio

/-- The table of a snapshot. -/
def table (s : Snapshot α) (costs : Option (List α)) (decimals : Int) : Except Fault Table := do
  let m := s.basis.length
  let basic ← s.basis.zipIdx.mapM fun place => s.tableRow costs decimals place.2 place.1
  let cj ← objectiveRow decimals "Cj" (← element s.tableau m)
  let gains ← objectiveRow decimals "Δj" (← element s.tableau (m + 1))
  return ⟨s.headers, basic ++ [cj, gains]⟩

/-- The name of a page: the first tableau, or one after so many exchanges. -/
def name (number : Int → Except Fault String) (s : Snapshot α) : Except Fault String :=
  if s.index = 0 then .ok "Initial tableau" else (number s.index).map ("Iteration " ++ ·)

/-- The title of a page. -/
def title (number : Int → Except Fault String) (s : Snapshot α) : Except Fault String :=
  (s.name number).map (· ++ if s.isOptimal then " (optimal)" else "")

/-- The line that names the exchange, if there is one. -/
def exchangeLines (number : Int → Except Fault String) (s : Snapshot α) :
    Except Fault (List String) :=
  match s.pivot with
  | none => .ok []
  | some pivot => do
    let row ← number (pivot.row + 1)
    let col ← number (pivot.col + 1)
    return ["Entering: " ++ labelText s.entering ++ "  Leaving: " ++ labelText s.leaving ++
      "  Pivot: row " ++ row ++ ", column " ++ col]

/-- The page of a snapshot. -/
def renderWith (number : Int → Except Fault String) (s : Snapshot α) (costs : Option (List α))
    (decimals : Int) : Except Fault String := do
  let table ← s.table costs decimals
  let title ← s.title number
  let exchange ← s.exchangeLines number
  return "\n".intercalate (title :: exchange ++ [table.render])

/-- The page of a snapshot. -/
def render (s : Snapshot α) (costs : Option (List α)) (decimals : Int) : Except Fault String :=
  s.renderWith wholeText costs decimals

end Snapshot

namespace Solution

variable {α : Type} [DecimalScalar α]

/-- The pages of a trace. -/
def renderTrace (number : Int → Except Fault String) (s : Solution α) (decimals : Int)
    (snapshots : List (Snapshot α)) : Except Fault String := do
  let pages ← snapshots.mapM fun snapshot => snapshot.renderWith number s.costs decimals
  return "\n\n".intercalate pages

/-- The snapshots of an answer; an empty trace counts as none. -/
def trace (s : Solution α) : List (Snapshot α) := s.iterations.getD []

/-- A coordinate of the optimum. -/
def coordinateText (decimals : Int) (i : Nat) (x : α) : Except Fault String :=
  (cellText decimals x).map fun text => "x" ++ Nat.repr (i + 1) ++ " = " ++ text

/-- The coordinates of the optimum. -/
def pointText (s : Solution α) (decimals : Int) : Except Fault String := do
  let coordinates ← s.point.zipIdx.mapM fun place => coordinateText decimals place.2 place.1
  return ", ".intercalate coordinates

/-- The verdict of an answer without an optimum. -/
def verdictText (s : Solution α) : String :=
  "No solution (" ++ s.status.word ++ ")" ++ if s.message.isEmpty then "" else ": " ++ s.message

/-- The tables of an answer with an optimum. -/
def renderTables (number : Int → Except Fault String) (s : Solution α) (decimals : Int) :
    Except Fault String :=
  match s.trace with
  | [] => .ok s.table.render
  | snapshots =>
    (s.renderTrace number decimals snapshots).map (· ++ "\n\nFinal tableau\n" ++ s.table.render)

/-- The report on an answer. -/
def renderWith (number : Int → Except Fault String) (s : Solution α) (decimals : Int) :
    Except Fault String :=
  if s.valid then do
    let tables ← s.renderTables number decimals
    let point ← s.pointText decimals
    let value ← cellText decimals s.objectiveValue
    return tables ++ "\n\nOptimum: " ++ point ++ "; z = " ++ value
  else
    match s.trace with
    | [] => .ok s.verdictText
    | snapshots =>
      (s.renderTrace number decimals snapshots).map (s.verdictText ++ "\n\n" ++ ·)

/-- The report on an answer, its whole numbers written as everywhere. -/
def render (s : Solution α) (decimals : Int) : Except Fault String := s.renderWith wholeText decimals

end Solution

end LinearProgram
