import LinearProgram.Cell
import LinearProgram.Plane.Border
import LinearProgram.Text.Table
/-!
# The table of border lines

For each row its inequality, its border line, and the points where the line crosses the positive half
of an axis, filled up with dashes to three.  A closing row stands for the quadrant.
-/

namespace LinearProgram.Region

/-- The headers of the table of border lines. -/
def headers : List String := ["Constraint", "Boundary line", "Point 1", "Point 2", "Point 3"]

/-- The row for the quadrant. -/
def quadrantRow : List String := ["x₁, x₂ ≥ 0", "x₁ = 0, x₂ = 0", "(0, 0)", "-", "-"]

variable {α : Type} [DecimalScalar α]

/-- The left-hand side of a row as text. -/
def lhsText (b : Border α) : String :=
  coefficientText b.a₁ ++ "x₁ " ++ (if (0 : α) ≤ b.a₂ then "+" else "") ++
    coefficientText b.a₂ ++ "x₂"

/-- The points where a border line crosses the positive half of an axis, as texts. -/
def interceptTexts (b : Border α) : List String :=
  (if b.a₁ != 0 && decide ((0 : α) ≤ b.limit / b.a₁) then
    ["(" ++ interceptText (b.limit / b.a₁) ++ ", 0)"] else []) ++
  (if b.a₂ != 0 && decide ((0 : α) ≤ b.limit / b.a₂) then
    ["(0, " ++ interceptText (b.limit / b.a₂) ++ ")"] else [])

/-- The row of the table for a border. -/
def borderRow (b : Border α) : List String :=
  let points := interceptTexts b
  (lhsText b ++ " " ++ b.relation.symbol ++ " " ++ coefficientText b.limit) ::
    (lhsText b ++ " = " ++ coefficientText b.limit) ::
    (points ++ List.replicate (3 - points.length) "-")

/-- The table of the border lines of a problem. -/
def table (borders : List (Border α)) : Table :=
  ⟨headers, borders.map borderRow ++ [quadrantRow]⟩

end LinearProgram.Region
