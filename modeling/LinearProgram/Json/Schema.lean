import LinearProgram.Json.Verdict
import LinearProgram.Solution
/-!
# Data values of the domain

For every type of the domain the way out as a data value and the way in.  The way out writes all
fields; the way in reads the fields in the same order, ignores others, and gives the optional ones
their defaults.  A problem has one rule across its fields, which is checked when all of them are
accepted.
-/

namespace LinearProgram

/-- A list of doubles. -/
def Decode.floats : Json → Verdict (List Float) := Decode.list Decode.float

/-- A list of texts. -/
def Decode.strings : Json → Verdict (List String) := Decode.list Decode.string

/-- Doubles as a data value. -/
def Json.ofFloats : List Float → Json := Json.ofList .number

/-- Texts as a data value. -/
def Json.ofStrings : List String → Json := Json.ofList .text

/-! ## Words -/

namespace Relation

/-- The three signs in the order in which they are named. -/
def choices : List String := ["<=", "=", ">="]

/-- A relation that constrains, in any spelling of its sign. -/
def ofSpelling? (s : String) : Option Relation :=
  if (ofSpelling s).isKnown then some (ofSpelling s) else none

/-- A relation from a data value. -/
def decode : Json → Verdict Relation := Decode.oneOf choices ofSpelling?

/-- A relation as a data value. -/
def encode (r : Relation) : Json := .text r.symbol

end Relation

namespace Sign

/-- The sign of a character. -/
def ofSymbol? (s : String) : Option Sign :=
  if s = "+" then some .plus else if s = "-" then some .minus else none

/-- A sign from a data value. -/
def decode : Json → Verdict Sign := Decode.oneOf ["+", "-"] ofSymbol?

/-- A sign as a data value. -/
def encode (s : Sign) : Json := .text s.symbol

end Sign

namespace Method

/-- A method from a data value. -/
def decode : Json → Verdict Method := Decode.oneOf (all.map word) ofWord?

/-- A method as a data value. -/
def encode (m : Method) : Json := .text m.word

end Method

namespace Status

/-- A status from a data value. -/
def decode : Json → Verdict Status := Decode.oneOf (all.map word) ofWord?

/-- A status as a data value. -/
def encode (s : Status) : Json := .text s.word

end Status

/-! ## Problems and options -/

namespace Problem

/-- The rule across the fields of a problem: it has an objective, and one relation and one limit for
each row. -/
def brokenRule? {α : Type} (p : Problem α) : Option String :=
  if p.objective.isEmpty then some "Objective must have at least one coefficient."
  else if p.relations.length ≠ p.constraints.length ∨ p.rhs.length ≠ p.constraints.length then
    some ("Got " ++ Nat.repr p.constraints.length ++ " constraint rows, " ++
      Nat.repr p.relations.length ++ " relations and " ++ Nat.repr p.rhs.length ++
      " right-hand sides.")
  else none

/-- A problem that keeps the rule across its fields. -/
def checked {α : Type} (p : Problem α) : Verdict (Problem α) :=
  match p.brokenRule? with
  | none => pure p
  | some rule => .refuse (.violated rule)

/-- A problem from its fields. -/
def ofFields (fields : List (String × Json)) : Verdict (Problem Float) :=
  Problem.mk
    <$> Decode.defaulted Decode.bool "maximize" true fields
    <*> Decode.required Decode.floats "objective" fields
    <*> Decode.required (Decode.list Decode.floats) "constraints" fields
    <*> Decode.required (Decode.list Relation.decode) "relations" fields
    <*> Decode.required Decode.floats "rhs" fields
    <*> Decode.defaulted (Decode.option Sign.decode) "objective_sign" none fields
    <*> Decode.defaulted (Decode.option (Decode.list Sign.decode)) "constraint_signs" none fields

/-- A problem from a data value. -/
def decode (v : Json) : Verdict (Problem Float) :=
  (Decode.object "Problem" ofFields v).andThen checked

/-- A problem as a data value. -/
def encode (p : Problem Float) : Json := .object
  [("maximize", .bool p.maximize),
   ("objective", Json.ofFloats p.objective),
   ("constraints", Json.ofList Json.ofFloats p.constraints),
   ("relations", Json.ofList Relation.encode p.relations),
   ("rhs", Json.ofFloats p.rhs),
   ("objective_sign", Json.ofOption Sign.encode p.objectiveSign),
   ("constraint_signs", Json.ofOption (Json.ofList Sign.encode) p.constraintSigns)]

end Problem

namespace Options

/-- Options from their fields. -/
def ofFields (fields : List (String × Json)) : Verdict (Options Float) :=
  Options.mk
    <$> Decode.defaulted Decode.int "max_iters" (standard (α := Float)).maxIterations fields
    <*> Decode.defaulted Decode.float "pivot_tol" standard.pivotTolerance fields
    <*> Decode.defaulted Decode.float "feas_tol" standard.feasibilityTolerance fields
    <*> Decode.defaulted Decode.float "det_tol" standard.determinantTolerance fields
    <*> Decode.defaulted Decode.int "decimals" (standard (α := Float)).decimals fields

/-- Options from a data value. -/
def decode : Json → Verdict (Options Float) := Decode.object "SolveOptions" ofFields

/-- Options as a data value. -/
def encode (o : Options Float) : Json := .object
  [("max_iters", .int o.maxIterations),
   ("pivot_tol", .number o.pivotTolerance),
   ("feas_tol", .number o.feasibilityTolerance),
   ("det_tol", .number o.determinantTolerance),
   ("decimals", .int o.decimals)]

end Options

/-! ## Solutions -/

namespace Pivot

/-- A pivot from its fields. -/
def ofFields (fields : List (String × Json)) : Verdict Pivot :=
  Pivot.mk
    <$> Decode.required Decode.int "row" fields
    <*> Decode.required Decode.int "col" fields

/-- A pivot from a data value. -/
def decode : Json → Verdict Pivot := Decode.object "Pivot" ofFields

/-- A pivot as a data value. -/
def encode (p : Pivot) : Json := .object [("row", .int p.row), ("col", .int p.col)]

end Pivot

namespace Ratio

/-- A ratio from a data value, where infinity is the lack of a limit. -/
def decode (v : Json) : Verdict (Ratio Float) := ofQuotient <$> Decode.float v

/-- A ratio as a data value. -/
def encode : Ratio Float → Json
  | .limit q => .number q
  | .unlimited => .number (1 / 0)

end Ratio

namespace Snapshot

/-- A snapshot from its fields. -/
def ofFields (fields : List (String × Json)) : Verdict (Snapshot Float) :=
  Snapshot.mk
    <$> Decode.required Decode.int "index" fields
    <*> Decode.required (Decode.list Decode.floats) "tableau" fields
    <*> Decode.required Decode.strings "basis" fields
    <*> Decode.defaulted (Decode.option Pivot.decode) "pivot" none fields
    <*> Decode.defaulted (Decode.option (Decode.list Ratio.decode)) "ratios" none fields
    <*> Decode.defaulted (Decode.option Decode.string) "entering_label" none fields
    <*> Decode.defaulted (Decode.option Decode.string) "leaving_label" none fields
    <*> Decode.defaulted Decode.bool "is_optimal" false fields

/-- A snapshot from a data value. -/
def decode : Json → Verdict (Snapshot Float) := Decode.object "IterationSnapshot" ofFields

/-- A snapshot as a data value. -/
def encode (s : Snapshot Float) : Json := .object
  [("index", .int s.index),
   ("tableau", Json.ofList Json.ofFloats s.tableau),
   ("basis", Json.ofStrings s.basis),
   ("pivot", Json.ofOption Pivot.encode s.pivot),
   ("ratios", Json.ofOption (Json.ofList Ratio.encode) s.ratios),
   ("entering_label", Json.ofOption .text s.entering),
   ("leaving_label", Json.ofOption .text s.leaving),
   ("is_optimal", .bool s.isOptimal)]

end Snapshot

namespace Table

/-- A table from its fields. -/
def ofFields (fields : List (String × Json)) : Verdict Table :=
  Table.mk
    <$> Decode.defaulted Decode.strings "headers" [] fields
    <*> Decode.defaulted (Decode.list Decode.strings) "rows" [] fields

/-- A table from a data value. -/
def decode : Json → Verdict Table := Decode.object "DisplayTable" ofFields

/-- A table as a data value. -/
def encode (t : Table) : Json := .object
  [("headers", Json.ofStrings t.headers), ("rows", Json.ofList Json.ofStrings t.rows)]

end Table

namespace Solution

/-- A solution from its fields. -/
def ofFields (fields : List (String × Json)) : Verdict (Solution Float) :=
  Solution.mk
    <$> Decode.required Decode.bool "valid" fields
    <*> Decode.defaulted Decode.floats "point" [] fields
    <*> Decode.defaulted Decode.float "objective_value" 0 fields
    <*> Decode.defaulted Table.decode "display_table" .empty fields
    <*> Decode.defaulted (Decode.option (Decode.list Snapshot.decode)) "iterations" none fields
    <*> Decode.defaulted (Decode.option Decode.floats) "costs" none fields
    <*> Decode.defaulted Status.decode "status" .optimal fields
    <*> Decode.defaulted (Decode.option Method.decode) "method" none fields
    <*> Decode.defaulted Decode.string "message" "" fields

/-- A solution from a data value. -/
def decode : Json → Verdict (Solution Float) := Decode.object "Solution" ofFields

/-- A solution as a data value. -/
def encode (s : Solution Float) : Json := .object
  [("valid", .bool s.valid),
   ("point", Json.ofFloats s.point),
   ("objective_value", .number s.objectiveValue),
   ("display_table", s.table.encode),
   ("iterations", Json.ofOption (Json.ofList Snapshot.encode) s.iterations),
   ("costs", Json.ofOption Json.ofFloats s.costs),
   ("status", s.status.encode),
   ("method", Json.ofOption Method.encode s.method),
   ("message", .text s.message)]

/-- An answer without an optimum from the data values of its parts. -/
def decodeInvalid (status message method iterations costs : Json) : Verdict (Solution Float) :=
  ofFields
    [("valid", .bool false), ("iterations", iterations), ("costs", costs), ("status", status),
     ("method", method), ("message", message)]

end Solution

end LinearProgram
