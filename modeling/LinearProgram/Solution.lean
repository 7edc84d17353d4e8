import LinearProgram.Problem
import LinearProgram.Text.Table
/-!
# Solutions

What a solver answers: a verdict, the optimum if there is one, a table to show, and for the tableau
method the trace of the run, one snapshot before the first exchange and one before each exchange.
-/

namespace LinearProgram

/-- How far the entering variable may grow before a row stops it. -/
inductive Ratio (α : Type) where
  /-- The row stops it at this value. -/
  | limit (value : α)
  /-- The row never stops it. -/
  | unlimited
  deriving DecidableEq, Repr

/-- A quotient of limit and entry as a ratio; one that runs off the upper end of the number line is
no limit. -/
def Ratio.ofQuotient {α : Type} [Scalar α] (q : α) : Ratio α :=
  if Scalar.isInfinite q ∧ 0 < q then .unlimited else .limit q

/-- A cell of a tableau that an exchange turns on, by row and column. -/
structure Pivot where
  row : Int
  col : Int
  deriving DecidableEq, Repr

/-- A tableau on record: the cells and the labels of the basis, and for an exchange the pivot, the
ratios and the labels of the two variables that change places. -/
structure Snapshot (α : Type) where
  index : Int
  tableau : List (List α)
  basis : List String
  pivot : Option Pivot
  ratios : Option (List (Ratio α))
  entering : Option String
  leaving : Option String
  isOptimal : Bool
  deriving DecidableEq, Repr

/-- The verdict on a problem. -/
inductive Status where
  | optimal
  | infeasible
  | unbounded
  | iterationLimit
  | error
  deriving DecidableEq, Repr, Inhabited

namespace Status

/-- The word for a status. -/
def word : Status → String
  | .optimal => "optimal"
  | .infeasible => "infeasible"
  | .unbounded => "unbounded"
  | .iterationLimit => "iteration_limit"
  | .error => "error"

/-- All statuses. -/
def all : List Status := [.optimal, .infeasible, .unbounded, .iterationLimit, .error]

/-- The status of a word. -/
def ofWord? (s : String) : Option Status := all.find? (·.word = s)

end Status

/-- The answer to a problem. -/
structure Solution (α : Type) where
  valid : Bool
  point : List α
  objectiveValue : α
  table : Table
  iterations : Option (List (Snapshot α))
  costs : Option (List α)
  status : Status
  method : Option Method
  message : String
  deriving DecidableEq, Repr

/-- An answer without an optimum: no point, the value zero and an empty table. -/
def Solution.invalid {α : Type} [Zero α] (status : Status) (message : String)
    (method : Option Method) (iterations : Option (List (Snapshot α)))
    (costs : Option (List α)) : Solution α where
  valid := false
  point := []
  objectiveValue := 0
  table := .empty
  iterations := iterations
  costs := costs
  status := status
  method := method
  message := message

end LinearProgram
