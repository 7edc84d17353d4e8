import LinearProgram.Tableau.Basic
import LinearProgram.Tableau.Display
/-!
# The tableau method

Every row is read as an upper limit and the slack columns are the first basis.  A run makes moves
until no gain is left, nothing limits the entering column, or the cap on exchanges is reached; it is
kept as the list of its exchanges with the last tableau and the way it ended, and everything that is
reported is read off this value.
-/

namespace LinearProgram

/-- How a run ended. -/
inductive Ending where
  | optimal
  | unbounded (entering : Nat)
  | capped
  deriving DecidableEq, Repr

/-- A run: its exchanges in order, the tableau it ended with, and how it ended. -/
structure Run (α : Type) where
  turns : List (Turn α)
  last : Tableau α
  ending : Ending
  deriving DecidableEq, Repr

namespace Simplex

variable {α : Type}

/-- Make moves from a tableau, at most `cap` exchanges. -/
def run [Scalar α] (tolerance : α) : (cap : Nat) → Tableau α → Run α
  | 0, t => ⟨[], t, .capped⟩
  | cap + 1, t =>
    match t.move tolerance with
    | .stop => ⟨[], t, .optimal⟩
    | .unbounded entering => ⟨[], t, .unbounded entering⟩
    | .exchange turn =>
      let rest := run tolerance cap turn.after
      ⟨turn :: rest.turns, rest.last, rest.ending⟩

/-- The objective in the sense of a maximum. -/
def maximized [Scalar α] (maximize : Bool) (objective : List α) : List α :=
  if maximize then objective else objective.map (-·)

/-- The first tableau of raw data, or what is wrong with the data. -/
def start? [Scalar α] (objective : List α) (constraints : Grid α) (rhs : List α) (maximize : Bool) :
    Except Fault (Tableau α) := do
  let rows ← gridOf? objective.length constraints
  let limits ← valuesFor? rows.length rhs
  return Tableau.start (maximized maximize objective) rows limits

/-- The run on raw data. -/
def run? [Scalar α] (objective : List α) (constraints : Grid α) (rhs : List α) (maximize : Bool)
    (options : Options α) : Except Fault (Run α) :=
  (start? objective constraints rhs maximize).map
    (run options.pivotTolerance options.maxIterations.toNat)

/-- The costs of all columns: the caller's objective, and zero for each slack. -/
def columnCosts [Zero α] (objective : List α) (rows : Nat) : List α :=
  objective ++ List.replicate rows 0

end Simplex

namespace Run

variable {α : Type}

/-! ## The trace -/

section Trace

variable [Scalar α]

/-- The tableau that a run began with. -/
def first (run : Run α) : Tableau α :=
  match run.turns with
  | [] => run.last
  | turn :: _ => turn.before

/-- The snapshot before any exchange. -/
def firstSnapshot (t : Tableau α) : Snapshot α where
  index := 0
  tableau := t.rows
  basis := t.basisLabels
  pivot := none
  ratios := none
  entering := none
  leaving := none
  isOptimal := false

/-- The snapshot before an exchange. -/
def turnSnapshot (index : Nat) (turn : Turn α) : Snapshot α where
  index := index
  tableau := turn.before.rows
  basis := turn.before.basisLabels
  pivot := some ⟨turn.row, turn.entering⟩
  ratios := some turn.ratios
  entering := some (variableLabel turn.entering)
  leaving := some (variableLabel turn.leaving)
  isOptimal := false

/-- Mark the last snapshot of a trace as the optimal one. -/
def markLast : List (Snapshot α) → List (Snapshot α)
  | [] => []
  | [s] => [{ s with isOptimal := true }]
  | s :: rest => s :: markLast rest

/-- The snapshots of a run before the mark. -/
def plainSnapshots (run : Run α) : List (Snapshot α) :=
  firstSnapshot run.first :: run.turns.mapIdx fun i turn => turnSnapshot (i + 1) turn

/-- The trace of a run: its snapshots, of which the last is marked if the run ended well. -/
def snapshots (run : Run α) : List (Snapshot α) :=
  if run.ending = .optimal then markLast run.plainSnapshots else run.plainSnapshots

end Trace

/-! ## The answer -/

section Answer

variable [DecimalScalar α]

/-- The values of the variables in the last tableau: the limit of its row for a basic one. -/
def point (run : Run α) (variableCount : Nat) : List α :=
  (run.last.basis.zip run.last.limits).foldl (fun point place => point.set place.1 place.2)
    (List.replicate variableCount 0)

/-- The size of the objective at the last tableau. -/
def objectiveValue (run : Run α) : α :=
  Scalar.abs ((run.last.rows.getD (run.last.basis.length + 1) []).getLastD 0)

/-- The table of the last tableau. -/
def table (run : Run α) (costs : List α) (decimals : Int) : Except Fault Table :=
  tableauTable decimals costs run.last.rows run.last.basis costs.length run.last.basis.length

/-- The answer that a run gives to a problem with these costs of columns and so many variables.  The table
of an optimum and the cap that was reached have to be written. -/
def solution (run : Run α) (costs : List α) (variableCount : Nat) (options : Options α) :
    Except Fault (Solution α) :=
  match run.ending with
  | .optimal =>
    (run.table costs options.decimals).map fun table =>
      { valid := true
        point := run.point variableCount
        objectiveValue := run.objectiveValue
        table := table
        iterations := some run.snapshots
        costs := some costs
        status := .optimal
        method := some .simplex
        message := "" }
  | .unbounded entering =>
    .ok (.invalid .unbounded
      ("Entering variable " ++ variableLabel entering ++ " can grow without bound.")
      (some .simplex) (some run.snapshots) (some costs))
  | .capped =>
    (wholeText options.maxIterations).map fun count =>
      .invalid .iterationLimit ("No optimal tableau after " ++ count ++ " iterations.")
        (some .simplex) (some run.snapshots) (some costs)

end Answer

end Run

/-- Solve raw data by the tableau method. -/
def Simplex.solve {α : Type} [DecimalScalar α] (objective : List α) (constraints : Grid α)
    (rhs : List α) (maximize : Bool) (options : Options α) : Except Fault (Solution α) := do
  let run ← Simplex.run? objective constraints rhs maximize options
  run.solution (Simplex.columnCosts objective constraints.length) objective.length options

end LinearProgram
