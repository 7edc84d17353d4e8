import LinearProgram.Problem
/-!
# Two example problems

A small plan in the plane and a production plan with three products.
-/

namespace LinearProgram.Example

variable {α : Type} [DecimalScalar α]

/-- Whole numbers as scalars. -/
def numbers (ns : List Nat) : List α := ns.map DecimalScalar.ofNat

/-- A problem of upper limits with whole numbers. -/
def limited (objective : List Nat) (rows : List (List Nat)) (limits : List Nat) : Problem α where
  maximize := true
  objective := numbers objective
  constraints := rows.map numbers
  relations := rows.map fun _ => .atMost
  rhs := numbers limits
  objectiveSign := none
  constraintSigns := none

/-- Two variables and three rows. -/
def scenario : Problem α := limited [3, 5] [[1, 0], [0, 2], [3, 2]] [4, 12, 18]

/-- Three products and two resources. -/
def threeProducts : Problem α := limited [2, 3, 4] [[3, 2, 1], [2, 5, 3]] [10, 15]

/-- The examples with the names of their files. -/
def all : List (String × Problem α) :=
  [("scenario_a.json", scenario), ("three_products.json", threeProducts)]

/-- The example of a name. -/
def find? (name : String) : Option (Problem α) := all.lookup name

end LinearProgram.Example
