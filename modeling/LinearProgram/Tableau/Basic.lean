import LinearProgram.Grid
import LinearProgram.Label
import LinearProgram.Solution
/-!
# Tableaux

A tableau for `m` rows and `n` variables has `m + 2` rows of `n + m + 1` cells: the constraint rows
`[A | I | b]`, and twice the objective `[c | 0 | 0]`, of which the last row decides what enters the
basis.  The basis names for each constraint row the column that is solved for in it.

`Tableau.move` says what the method does next: it stops when no gain is above the tolerance, gives
up when nothing limits the entering column, and otherwise exchanges two variables.
-/

namespace LinearProgram

/-- The rows of a tableau with its basis, one column for each constraint row. -/
structure Tableau (α : Type) where
  rows : Grid α
  basis : List Nat
  deriving DecidableEq, Repr

namespace Tableau

variable {α : Type} [Scalar α]

/-- The row of a unit matrix with its one at place `i`. -/
def unitRow (size i : Nat) : List α := (List.range size).map fun k => if k = i then 1 else 0

/-- The constraint rows of the first tableau. -/
def startRows (rows : Grid α) (limits : List α) : Grid α :=
  List.zipWith (fun row limit => row.1 ++ unitRow rows.length row.2 ++ [limit]) rows.zipIdx limits

/-- The first tableau of a problem in which every row is an upper limit: the basis holds the slack
columns. -/
def start (objective : List α) (rows : Grid α) (limits : List α) : Tableau α :=
  let gains := objective ++ List.replicate (rows.length + 1) 0
  ⟨startRows rows limits ++ [gains, gains], List.range' objective.length rows.length⟩

/-- The constraint rows. -/
def constraintRows (t : Tableau α) : Grid α := t.rows.take t.basis.length

/-- What the objective gains per unit of each variable: the last row without its limit. -/
def gains (t : Tableau α) : List α := (t.rows.getD (t.basis.length + 1) []).dropLast

/-- The right-hand cells of the constraint rows. -/
def limits (t : Tableau α) : List α := t.constraintRows.map (·.getLastD 0)

/-- How far column `j` may grow in each constraint row; only entries above the tolerance limit it. -/
def ratios (tolerance : α) (t : Tableau α) (j : Nat) : List (Ratio α) :=
  t.constraintRows.map fun row =>
    if tolerance < row.getD j 0 then Ratio.ofQuotient (row.getLastD 0 / row.getD j 0)
    else .unlimited

/-- Exchange: column `j` enters the basis in row `r`. -/
def exchange (t : Tableau α) (r j : Nat) : Tableau α :=
  ⟨t.rows.pivot r j, t.basis.set r j⟩

/-- The labels of the basis. -/
def basisLabels (t : Tableau α) : List String := t.basis.map variableLabel

end Tableau

namespace Ratio

variable {α : Type} [Scalar α]

/-- Does the ratio stop the variable at a number? -/
def isFinite : Ratio α → Bool
  | .limit q => Scalar.isFinite q
  | .unlimited => false

/-- The order in the search for a least ratio, whether `y` leads `x`: nothing leads a NaN, a NaN leads every number, and
every limit leads the lack of one. -/
def below : Ratio α → Ratio α → Bool
  | .limit y, .limit x => !Scalar.isNaN x && (Scalar.isNaN y || decide (y < x))
  | .limit _, .unlimited => true
  | .unlimited, _ => false

end Ratio

/-- The row that a least ratio is in, if any ratio is a number. -/
def leavingRow? {α : Type} [Scalar α] (ratios : List (Ratio α)) : Option Nat :=
  if ratios.any Ratio.isFinite then (leaderIdx? Ratio.below ratios).map Prod.fst else none

/-- One exchange, as it is decided: the tableau before it, the entering column, the ratios and the
row of the leaving variable. -/
structure Turn (α : Type) where
  before : Tableau α
  entering : Nat
  ratios : List (Ratio α)
  row : Nat
  deriving DecidableEq, Repr

namespace Turn

variable {α : Type} [Scalar α]

/-- The tableau after an exchange. -/
def after (turn : Turn α) : Tableau α := turn.before.exchange turn.row turn.entering

/-- The column that leaves the basis. -/
def leaving (turn : Turn α) : Nat := turn.before.basis.getD turn.row 0

end Turn

/-- What the method does next. -/
inductive Move (α : Type) where
  /-- No gain is above the tolerance. -/
  | stop
  /-- The entering column may grow without bound. -/
  | unbounded (entering : Nat)
  /-- Two variables change places. -/
  | exchange (turn : Turn α)
  deriving DecidableEq, Repr

/-- The next move: the first column with the largest gain enters, unless that gain is within the
tolerance, and the first row with the least ratio lets its variable go. -/
def Tableau.move {α : Type} [Scalar α] (tolerance : α) (t : Tableau α) : Move α :=
  match leaderIdx? Scalar.above t.gains with
  | none => .stop
  | some (entering, gain) =>
    if gain ≤ tolerance then .stop
    else
      match leavingRow? (t.ratios tolerance entering) with
      | none => .unbounded entering
      | some row => .exchange ⟨t, entering, t.ratios tolerance entering, row⟩

end LinearProgram
