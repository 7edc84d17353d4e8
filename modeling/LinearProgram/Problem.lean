import LinearProgram.Decimal.Scalar
/-!
# Problems

A linear program: optimise `c · x` over `x ≥ 0` subject to rows `aᵢ · x (≤, =, ≥) bᵢ`.  The data
types of a problem and of the choices a caller has, with the words they are written in.
-/

namespace LinearProgram

/-- How a row is compared with its limit.  A sign that is none of the three constrains nothing. -/
inductive Relation where
  | atMost
  | equal
  | atLeast
  | other (symbol : String)
  deriving DecidableEq, Repr, Inhabited

namespace Relation

/-- The sign of a relation. -/
def symbol : Relation → String
  | .atMost => "<="
  | .equal => "="
  | .atLeast => ">="
  | .other symbol => symbol

/-- The relation of a sign, which must be spelled exactly. -/
def ofSymbol (s : String) : Relation :=
  if s = "<=" then .atMost
  else if s = "=" then .equal
  else if s = ">=" then .atLeast
  else .other s

/-- Other spellings of the three signs. -/
def aliases : List (String × Relation) :=
  [("==", .equal), ("≤", .atMost), ("≥", .atLeast), ("=<", .atMost), ("=>", .atLeast)]

/-- The relation of a sign in any of its spellings. -/
def ofSpelling (s : String) : Relation := (aliases.lookup s).getD (ofSymbol s)

/-- One of the three relations that constrain. -/
def isKnown : Relation → Bool
  | .other _ => false
  | _ => true

end Relation

/-- An operator entered in front of the later terms of a row. -/
inductive Sign where
  | plus
  | minus
  deriving DecidableEq, Repr, Inhabited

namespace Sign

/-- The character of a sign. -/
def symbol : Sign → String
  | .plus => "+"
  | .minus => "-"

/-- Only a minus sign is a minus; any other mark leaves a row as it is. -/
def ofMark (s : String) : Sign := if s = "-" then .minus else .plus

end Sign

/-- The ways to solve a problem. -/
inductive Method where
  | graphical
  | simplex
  | general
  deriving DecidableEq, Repr, Inhabited

namespace Method

/-- The word for a method. -/
def word : Method → String
  | .graphical => "graphical"
  | .simplex => "simplex"
  | .general => "general"

/-- All methods. -/
def all : List Method := [.graphical, .simplex, .general]

/-- The method of a word. -/
def ofWord? (s : String) : Option Method := all.find? (·.word = s)

/-- The method for a problem: two variables are always drawn in the plane; otherwise the general
route is taken when it is asked for by name, and the tableau whatever else was asked. -/
def choose (variableCount : Nat) (requested : Option String) : Method :=
  if variableCount = 2 then .graphical
  else if requested = some Method.general.word then .general
  else .simplex

end Method

/-- A linear program as it is handed in. -/
structure Problem (α : Type) where
  maximize : Bool
  objective : List α
  constraints : List (List α)
  relations : List Relation
  rhs : List α
  objectiveSign : Option Sign
  constraintSigns : Option (List Sign)
  deriving DecidableEq, Repr, Inhabited

namespace Problem

variable {α : Type}

/-- The number of variables. -/
def variableCount (p : Problem α) : Nat := p.objective.length

/-- An accepted problem has an objective, one relation and one limit for each row, and only
relations that constrain. -/
structure Admissible (p : Problem α) : Prop where
  objective_ne_nil : p.objective ≠ []
  length_relations : p.relations.length = p.constraints.length
  length_rhs : p.rhs.length = p.constraints.length
  isKnown : ∀ r ∈ p.relations, r.isKnown = true

end Problem

/-- What a caller can adjust: the cap on pivots, the tolerances of the tests, and the number of
decimal places that are shown. -/
structure Options (α : Type) where
  maxIterations : Int
  pivotTolerance : α
  feasibilityTolerance : α
  determinantTolerance : α
  decimals : Int
  deriving DecidableEq, Repr

/-- The options of a caller who adjusts nothing. -/
def Options.standard {α : Type} [DecimalScalar α] : Options α where
  maxIterations := 100
  pivotTolerance := DecimalScalar.ofDecimal false 1 (-10)
  feasibilityTolerance := DecimalScalar.ofDecimal false 1 (-8)
  determinantTolerance := DecimalScalar.ofDecimal false 1 (-8)
  decimals := 2

end LinearProgram
