import LinearProgram.Decimal.Scalar
/-!
# Data values

The tree of values in which problems come in and answers go out: whole numbers of any size are kept
apart from doubles, and an object is a list of fields in the order in which they are written.
-/

namespace LinearProgram

/-- A data value. -/
inductive Json where
  | null
  | bool (b : Bool)
  | int (n : Int)
  | number (x : Float)
  | text (s : String)
  | list (xs : List Json)
  | object (fields : List (String × Json))
  deriving Inhabited

namespace Json

/-- A list of values of one kind. -/
def ofList {α : Type} (encode : α → Json) (xs : List α) : Json := .list (xs.map encode)

/-- A value that may be missing. -/
def ofOption {α : Type} (encode : α → Json) : Option α → Json
  | none => .null
  | some x => encode x

/-- The field of a name, if there is one. -/
def field? (fields : List (String × Json)) (name : String) : Option Json := fields.lookup name

end Json

end LinearProgram
