import LinearProgram.Simplex
import LinearProgram.StandardForm
/-!
# The general route

The rows are first brought to standard form, which may refuse them.  The standard form is made for
inspection only: the tableau method then works on the rows as they were given, and so reads every
row as an upper limit.
-/

namespace LinearProgram.General

/-- Solve raw data by the general route. -/
def solve {α : Type} [DecimalScalar α] (objective : List α) (constraints : Grid α)
    (relations : List Relation) (rhs : List α) (maximize : Bool) (options : Options α) :
    Except Fault (Solution α) := do
  let _ ← StandardForm.of? constraints relations rhs
  let solution ← Simplex.solve objective constraints rhs maximize options
  return { solution with method := some .general }

end LinearProgram.General
