import LinearProgram.Fault
import LinearProgram.Json.Schema
import LinearProgram.Random.Twister
/-!
# Random instances

Problems with positive coefficients, positive limits and upper limits only, so that the origin is
feasible and the optimum bounded.  An instance is a function of its draws from the unit interval:
row after row the coefficients and then the limit, at the end the objective; every number is spread
over its range and rounded to two decimal places.
-/

namespace LinearProgram.Instance

variable {α : Type} [DecimalScalar α]

/-- A number between two ends, as far along as a draw. -/
def uniform (low high draw : α) : α := low + (high - low) * draw

/-- A number between two ends, rounded to two places. -/
def spread (low high draw : α) : α := DecimalScalar.roundPlaces 2 (uniform low high draw)

/-- A coefficient of a row. -/
def coefficient (draw : α) : α :=
  spread (DecimalScalar.ofDecimal false 5 (-1)) (DecimalScalar.ofNat 5) draw

/-- The limit of a row for so many variables. -/
def limit (variableCount : Nat) (draw : α) : α :=
  spread (DecimalScalar.ofNat variableCount * DecimalScalar.ofNat 2)
    (DecimalScalar.ofNat variableCount * DecimalScalar.ofNat 6) draw

/-- A coefficient of the objective. -/
def gain (draw : α) : α := spread (DecimalScalar.ofNat 1) (DecimalScalar.ofNat 4) draw

/-- The instance of so many variables and rows for a sequence of draws. -/
def ofDraws (variableCount rows : Nat) (draw : Nat → α) : Problem α where
  maximize := true
  objective := (List.range variableCount).map fun j => gain (draw (rows * (variableCount + 1) + j))
  constraints := (List.range rows).map fun i =>
    (List.range variableCount).map fun j => coefficient (draw (i * (variableCount + 1) + j))
  relations := List.replicate rows .atMost
  rhs := (List.range rows).map fun i => limit variableCount (draw (i * (variableCount + 1) + variableCount))
  objectiveSign := none
  constraintSigns := none

/-- The number of draws of an instance. -/
def drawCount (variableCount rows : Nat) : Nat := rows * (variableCount + 1) + variableCount

/-- The draws of a seed in the unit interval. -/
def draws (seed : Int) (count : Nat) : Nat → α :=
  let words := Twister.wordsFor seed count
  fun k => DecimalScalar.ofNat (Twister.drawOf words k) / DecimalScalar.ofNat (2 ^ (53 : Nat))

/-- The instance of a seed. -/
def random (variableCount rows : Nat) (seed : Int) : Problem α :=
  ofDraws variableCount rows (draws seed (drawCount variableCount rows))

/-- What is wrong with sizes that are beyond all measure.  The number of variables is a factor of the
limit of each row, so it must be a double if there is a row. -/
def sizeFault? (variableCount rows : Int) : Option Fault :=
  if 0 < rows ∧ (Float.ofInt variableCount).isInf then some .numberTooLarge
  else if rows < -(2 ^ (63 : Nat)) then some .countTooLarge
  else none

/-- The instance of a seed for sizes as they are asked for; a negative size counts as zero.  Without
variables there is no problem. -/
def generate (variableCount rows seed : Int) : Except Fault (Verdict (Problem Float)) :=
  match sizeFault? variableCount rows with
  | some fault => .error fault
  | none => .ok (random variableCount.toNat rows.toNat seed).checked

end LinearProgram.Instance
