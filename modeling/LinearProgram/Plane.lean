import LinearProgram.Plane.Display
import LinearProgram.Solution
/-!
# Problems in the plane

Two variables are solved by drawing: collect the points that can be corners of the region, keep those
that are in it, and take the first with the best value of the objective.  Only corners are looked at,
so the best corner is the answer even where the objective improves for ever along an edge.
-/

namespace LinearProgram.Plane

variable {α : Type}

/-- What was drawn: the borders, all candidate corners, and those in the region. -/
structure Survey (α : Type) where
  borders : List (Border α)
  candidates : List (α × α)
  feasible : List (α × α)
  deriving DecidableEq, Repr

/-- The borders of rows of two cells with their relations and limits. -/
def borders [Scalar α] (rows : Grid α) (relations : List Relation) (limits : List α) :
    List (Border α) :=
  (rows.zip (relations.zip limits)).map fun row =>
    ⟨row.1.getD 0 0, row.1.getD 1 0, row.2.1, row.2.2⟩

/-- The borders of raw data.  The first row needs its relation before its limit, and meets all later
rows before these need their relations. -/
def borders? [Scalar α] (constraints : Grid α) (relations : List Relation) (limits : List α) :
    Except Fault (List (Border α)) := do
  let rows ← gridOf? 2 constraints
  if relations.isEmpty && !rows.isEmpty then throw .beyondList
  if limits.length < rows.length then throw (.beyondAxis limits.length 0 limits.length)
  if relations.length < rows.length then throw .beyondList
  return borders rows relations limits

/-- Draw borders, with the tolerances of the options. -/
def surveyOf [Scalar α] (options : Options α) (borders : List (Border α)) : Survey α :=
  let candidates := Region.candidates options.determinantTolerance borders
  ⟨borders, candidates, candidates.filter (Region.holds options.feasibilityTolerance borders)⟩

/-- Draw raw data. -/
def survey? [Scalar α] (constraints : Grid α) (relations : List Relation) (limits : List α)
    (options : Options α) : Except Fault (Survey α) :=
  (borders? constraints relations limits).map (surveyOf options)

/-- The value of an objective at a point. -/
def value [Scalar α] (objective : α × α) (x : α × α) : α :=
  objective.1 * x.1 + objective.2 * x.2

/-- A value beats another only if it is strictly better in the sense of the problem. -/
def beats [Scalar α] (maximize : Bool) (y x : α × α × α) : Bool :=
  if maximize then decide (x.1 < y.1) else decide (y.1 < x.1)

/-- The first best of some points, with its value. -/
def best [Scalar α] (maximize : Bool) (objective : α × α) (x : α × α) (rest : List (α × α)) :
    α × α × α :=
  leaderFrom (beats maximize) (value objective x, x) (rest.map fun y => (value objective y, y))

/-- An objective of the plane.  It needs its two coefficients in turn. -/
def objective? [Scalar α] (objective : List α) : Except Fault (α × α) := do
  let c₁ ← component objective 0
  let c₂ ← component objective 1
  return (c₁, c₂)

/-- The answer when the region has no corner. -/
def infeasible [Zero α] : Solution α :=
  .invalid .infeasible "No candidate point satisfies every constraint." (some .graphical) none none

/-- The answer with a best corner and its value. -/
def optimum [DecimalScalar α] (borders : List (Border α)) (best : α × α × α) : Solution α where
  valid := true
  point := [best.2.1, best.2.2]
  objectiveValue := best.1
  table := Region.table borders
  iterations := none
  costs := none
  status := .optimal
  method := some .graphical
  message := ""

/-- The answer that a survey gives.  The objective is looked at only if there is a corner. -/
def Survey.solution [DecimalScalar α] (survey : Survey α) (objective : List α) (maximize : Bool) :
    Except Fault (Solution α) :=
  match survey.feasible with
  | [] => .ok infeasible
  | x :: rest =>
    (objective? objective).map fun c => optimum survey.borders (best maximize c x rest)

/-- Solve raw data in the plane. -/
def solve [DecimalScalar α] (objective : List α) (constraints : Grid α)
    (relations : List Relation) (rhs : List α) (maximize : Bool) (options : Options α) :
    Except Fault (Solution α) := do
  let survey ← survey? constraints relations rhs options
  survey.solution objective maximize

end LinearProgram.Plane
