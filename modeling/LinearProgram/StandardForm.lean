import LinearProgram.Grid
import LinearProgram.Label
import LinearProgram.Problem
/-!
# The standard form

Rows with mixed relations become equations over more columns: after the `n` columns of the variables
stand `m` columns for slacks (`+1`) and surpluses (`-1`) and `m` for artificial variables, one of
each kind for every row.  A row that is an upper limit has a slack, one that is a lower limit a
surplus and an artificial variable, an equation an artificial variable only.
-/

namespace LinearProgram

/-- The standard form of `rows` with the number of columns of the variables and the places of the
auxiliary columns in use. -/
structure StandardForm (α : Type) where
  matrix : Grid α
  limits : List α
  variableCount : Nat
  slack : List Nat
  surplus : List Nat
  artificial : List Nat
  deriving DecidableEq, Repr

namespace StandardForm

variable {α : Type}

/-- The number of columns. -/
def columns (f : StandardForm α) : Nat := f.variableCount + 2 * f.matrix.length

/-- The labels of the columns. -/
def columnLabels (f : StandardForm α) : List String := variableLabels f.columns

variable [Scalar α]

/-- The entries of a relation in the slack column and in the artificial column of its row. -/
def entries : Relation → α × α
  | .atMost => (1, 0)
  | .atLeast => (-1, 1)
  | .equal => (0, 1)
  | .other _ => (0, 0)

/-- A row of `size` zeros but for one entry. -/
def sparse (size place : Nat) (entry : α) : List α :=
  (List.range size).map fun k => if k = place then entry else 0

/-- The cells of the variables in row `i`; a single cell serves all columns. -/
def variableCells? (variableCount : Nat) (row : List α) : Except Fault (List α) :=
  valuesFor? variableCount row

/-- Row `i` of the standard form of `size` rows. -/
def row? (variableCount size i : Nat) (row : List α) (relation : Relation) : Except Fault (List α) := do
  let cells ← variableCells? variableCount row
  match relation with
  | .other symbol => throw (.unknownRelation (i + 1) symbol)
  | _ =>
    let entry : α × α := entries relation
    return cells ++ sparse size i entry.1 ++ sparse size i entry.2

/-- The rows of the standard form from row `i` on; a row without a relation is left empty. -/
def rowsFrom? (variableCount size : Nat) : Nat → Grid α → List Relation → Except Fault (Grid α)
  | _, [], _ => .ok []
  | _, rest, [] => .ok (rest.map fun _ => List.replicate (variableCount + 2 * size) 0)
  | i, row :: rows, relation :: relations => do
    let first ← row? variableCount size i row relation
    let rest ← rowsFrom? variableCount size (i + 1) rows relations
    return first :: rest

/-- The places, from a first column on, of the rows whose relation has a property. -/
def places (firstColumn : Nat) (relations : List Relation) (p : Relation → Bool) : List Nat :=
  relations.zipIdx.filterMap fun r => if p r.1 then some (firstColumn + r.2) else none

/-- The standard form of rows with their relations and limits.  The first row sets the number of
variables. -/
def of? (rows : Grid α) (relations : List Relation) (limits : List α) :
    Except Fault (StandardForm α) := do
  let variableCount := (rows.headD []).length
  let size := rows.length
  let matrix ← rowsFrom? variableCount size 0 rows relations
  let used := relations.take size
  return {
    matrix := matrix
    limits := if rows.isEmpty then [] else limits
    variableCount := variableCount
    slack := places variableCount used (· == .atMost)
    surplus := places variableCount used (· == .atLeast)
    artificial := places (variableCount + size) used (fun r => r == .atLeast || r == .equal) }

end StandardForm

end LinearProgram
