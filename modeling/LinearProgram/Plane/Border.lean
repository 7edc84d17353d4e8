import LinearProgram.Grid
import LinearProgram.Problem
/-!
# Borders in the plane

A row of a problem with two variables draws a border line `a₁x₁ + a₂x₂ = limit` and keeps one side
of it, both, or the line alone.  Here are the points where borders meet each other and the axes, and
the test whether a point is on the kept side.  The test is a refusal: what no comparison rules out is
kept.
-/

namespace LinearProgram

/-- A row of a problem with two variables. -/
structure Border (α : Type) where
  a₁ : α
  a₂ : α
  relation : Relation
  limit : α
  deriving DecidableEq, Repr

namespace Border

variable {α : Type} [Scalar α]

/-- The left-hand side of a row at a point. -/
def lhs (b : Border α) (x : α × α) : α := b.a₁ * x.1 + b.a₂ * x.2

/-- The determinant of two rows, zero for parallel borders. -/
def det (p q : Border α) : α := p.a₁ * q.a₂ - q.a₁ * p.a₂

/-- Two borders count as parallel if their determinant is below the tolerance in size. -/
def parallel (detTolerance : α) (p q : Border α) : Bool :=
  decide (Scalar.abs (det p q) < detTolerance)

/-- The common point of two borders with a determinant that is not zero. -/
def common (p q : Border α) : α × α :=
  ((p.limit * q.a₂ - q.limit * p.a₂) / det p q, (p.a₁ * q.limit - q.a₁ * p.limit) / det p q)

/-- The point where two borders meet, unless they count as parallel. -/
def meet (detTolerance : α) (p q : Border α) : Option (α × α) :=
  if parallel detTolerance p q then none else some (common p q)

/-- The point where two borders meet; a vanishing determinant that does not count as parallel is a
fault. -/
def meet? (detTolerance : α) (p q : Border α) : Except Fault (Option (α × α)) :=
  if parallel detTolerance p q then .ok none
  else if det p q == 0 then .error .divisionByZero
  else .ok (some (common p q))

/-- The points where a border crosses the two axes.  A coefficient within the tolerance counts as
zero: the border then runs beside that axis. -/
def crossings (detTolerance : α) (b : Border α) : List (α × α) :=
  (if detTolerance < Scalar.abs b.a₂ then [(0, b.limit / b.a₂)] else []) ++
    (if detTolerance < Scalar.abs b.a₁ then [(b.limit / b.a₁, 0)] else [])

/-- Is a point kept by a row, up to the tolerance? -/
def keeps (tolerance : α) (b : Border α) (x : α × α) : Bool :=
  match b.relation with
  | .atMost => !decide (b.limit + tolerance < b.lhs x)
  | .atLeast => !decide (b.lhs x < b.limit - tolerance)
  | .equal => !decide (tolerance < Scalar.abs (b.lhs x - b.limit))
  | .other _ => true

end Border

/-! ## Regions -/

namespace Region

variable {α : Type} [Scalar α]

/-- Is a point in the positive quadrant, up to the tolerance? -/
def inQuadrant (tolerance : α) (x : α × α) : Bool :=
  !(decide (x.1 < -tolerance) || decide (x.2 < -tolerance))

/-- Is a point in the quadrant and kept by every row? -/
def holds (tolerance : α) (borders : List (Border α)) (x : α × α) : Bool :=
  inQuadrant tolerance x && borders.all (·.keeps tolerance x)

/-- The points where two of the borders meet, pair by pair. -/
def meetings (detTolerance : α) : List (Border α) → List (α × α)
  | [] => []
  | b :: rest => rest.filterMap (b.meet detTolerance) ++ meetings detTolerance rest

/-- The points that can be corners of the region: meetings of borders, crossings with the axes, and
the origin. -/
def candidates (detTolerance : α) (borders : List (Border α)) : List (α × α) :=
  meetings detTolerance borders ++ borders.flatMap (·.crossings detTolerance) ++ [(0, 0)]

/-- The rows of raw data as borders.  A row of a grid that is too short is a fault. -/
def border? (row : List α) (relation : Relation) (limit : α) : Except Fault (Border α) := do
  let a₁ ← component row 0
  let a₂ ← component row 1
  return ⟨a₁, a₂, relation, limit⟩

/-- The test of a point on rows, relations and limits as long as all three last. -/
def holdsRows? (tolerance : α) (x : α × α) :
    Grid α → List Relation → List α → Except Fault Bool
  | row :: rows, relation :: relations, limit :: limits => do
    let b ← border? row relation limit
    if b.keeps tolerance x then holdsRows? tolerance x rows relations limits else return false
  | _, _, _ => .ok true

/-- The two coordinates of a point. -/
def coordinates? : List α → Except Fault (α × α)
  | [x₁, x₂] => .ok (x₁, x₂)
  | _ :: _ :: _ :: _ => .error .extraCoordinates
  | point => .error (.missingCoordinates point.length)

/-- The test on raw data: rows that need not fill a grid, and a point that may come with a wrong
number of coordinates. -/
def holds? (tolerance : α) (point : List α) (rows : Grid α) (relations : List Relation)
    (limits : List α) : Except Fault Bool := do
  let rows ← rectangle? rows
  let x ← coordinates? point
  if inQuadrant tolerance x then holdsRows? tolerance x rows relations limits else return false

end Region

end LinearProgram
