import LinearProgram.Json.Basic
import LinearProgram.Json.NumberText
/-!
# Verdicts on data values

A data value is accepted as a value of a type or refused with all its issues, each with the path to
the offending place.  Verdicts are combined side by side, so that one issue does not hide another.
The lax rules for single values are here: numbers may come as texts, whole numbers as doubles without
a fraction, truth values as zero and one or as words.
-/

namespace LinearProgram

/-- A step into a data value. -/
inductive Step where
  | field (name : String)
  | index (i : Nat)
  deriving DecidableEq, Repr

/-- Why a data value is refused. -/
inductive Cause where
  | missing
  | notFloat
  | notFloatText
  | notInt
  | notIntText
  | fraction
  | tooLarge
  | notFiniteNumber
  | notBool
  | notBoolWord
  | notString
  | notList
  | notObject (typeName : String)
  | notOneOf (choices : List String)
  | violated (rule : String)
  deriving DecidableEq, Repr

/-- The name of a kind of refusal. -/
def Cause.kind : Cause → String
  | .missing => "missing"
  | .notFloat => "float_type"
  | .notFloatText => "float_parsing"
  | .notInt => "int_type"
  | .notIntText => "int_parsing"
  | .fraction => "int_from_float"
  | .tooLarge => "int_parsing_size"
  | .notFiniteNumber => "finite_number"
  | .notBool => "bool_type"
  | .notBoolWord => "bool_parsing"
  | .notString => "string_type"
  | .notList => "list_type"
  | .notObject _ => "model_type"
  | .notOneOf _ => "literal_error"
  | .violated _ => "value_error"

/-- Choices in a sentence: in single quotes, commas between them, `or` before the last. -/
def choicesText (choices : List String) : String :=
  let quotedChoices := choices.map fun choice => "'" ++ choice ++ "'"
  match quotedChoices.reverse with
  | [] => ""
  | [only] => only
  | last :: rest => ", ".intercalate rest.reverse ++ " or " ++ last

/-- The wording of a refusal. -/
def Cause.message : Cause → String
  | .missing => "Field required"
  | .notFloat => "Input should be a valid number"
  | .notFloatText => "Input should be a valid number, unable to parse string as a number"
  | .notInt => "Input should be a valid integer"
  | .notIntText => "Input should be a valid integer, unable to parse string as an integer"
  | .fraction => "Input should be a valid integer, got a number with a fractional part"
  | .tooLarge => "Unable to parse input string as an integer, exceeded maximum size"
  | .notFiniteNumber => "Input should be a finite number"
  | .notBool => "Input should be a valid boolean"
  | .notBoolWord => "Input should be a valid boolean, unable to interpret input"
  | .notString => "Input should be a valid string"
  | .notList => "Input should be a valid list"
  | .notObject typeName => "Input should be a valid dictionary or instance of " ++ typeName
  | .notOneOf choices => "Input should be " ++ choicesText choices
  | .violated rule => "Value error, " ++ rule

/-- A refusal at a place. -/
structure Issue where
  path : List Step
  cause : Cause
  deriving DecidableEq, Repr

/-- A value, or the issues that stand against one. -/
inductive Verdict (α : Type) where
  | accepted (value : α)
  | refused (issues : List Issue)
  deriving DecidableEq, Repr

namespace Verdict

variable {α β : Type}

/-- A refusal at the place itself. -/
def refuse (cause : Cause) : Verdict α := .refused [⟨[], cause⟩]

/-- The verdict on a part, with the issues at their places in the whole. -/
def inside (step : Step) : Verdict α → Verdict α
  | .accepted x => .accepted x
  | .refused issues => .refused (issues.map fun issue => { issue with path := step :: issue.path })

/-- Two verdicts side by side: all issues of the first, then all of the second. -/
def apply (f : Verdict (α → β)) (x : Verdict α) : Verdict β :=
  match f, x with
  | .accepted f, .accepted x => .accepted (f x)
  | .refused issues, .accepted _ => .refused issues
  | .accepted _, .refused issues => .refused issues
  | .refused issues, .refused more => .refused (issues ++ more)

instance : Applicative Verdict where
  pure := .accepted
  seq f x := apply f (x ())

/-- A verdict on an accepted value decides further. -/
def andThen (x : Verdict α) (f : α → Verdict β) : Verdict β :=
  match x with
  | .accepted x => f x
  | .refused issues => .refused issues

/-- The verdicts on the elements of a list, from place `i` on. -/
def listFrom (decode : Json → Verdict α) : Nat → List Json → Verdict (List α)
  | _, [] => .accepted []
  | i, x :: xs =>
    List.cons <$> (decode x).inside (.index i) <*> listFrom decode (i + 1) xs

end Verdict

/-! ## Single values -/

namespace Decode

variable {α : Type}

/-- A number. -/
def float : Json → Verdict Float
  | .number x => pure x
  | .int n => if (Float.ofInt n).isInf then .refuse .notFloat else pure (Float.ofInt n)
  | .bool b => pure (if b then 1 else 0)
  | .text s =>
    match NumberText.decimal? s with
    | some written => pure written.toFloat
    | none => .refuse .notFloatText
  | _ => .refuse .notFloat

/-- A double as a whole number, if it is one and not beyond 64 bits. -/
def intOfFloat (x : Float) : Except Cause Int :=
  match Reading.ofFloat x with
  | .finite negative n d =>
    if n % d ≠ 0 then .error .fraction
    else if 2 ^ (63 : Nat) ≤ n / d then .error .tooLarge
    else .ok (Numeral.signed negative (n / d))
  | _ => .error .notFiniteNumber

/-- A whole number. -/
def int : Json → Verdict Int
  | .int n => pure n
  | .bool b => pure (if b then 1 else 0)
  | .number x =>
    match intOfFloat x with
    | .ok n => pure n
    | .error cause => .refuse cause
  | .text s =>
    if NumberText.isOverlong s.toList then .refuse .tooLarge
    else
      match NumberText.integer? s with
      | some n => pure n
      | none => .refuse .notIntText
  | _ => .refuse .notInt

/-- The words for the truth values, in lower case. -/
def boolWords : List (String × Bool) :=
  [("1", true), ("0", false), ("t", true), ("f", false), ("true", true), ("false", false),
   ("y", true), ("n", false), ("yes", true), ("no", false), ("on", true), ("off", false)]

/-- A whole number as a truth value. -/
def boolOfInt (n : Int) : Verdict Bool :=
  if n = 0 then pure false else if n = 1 then pure true else .refuse .notBoolWord

/-- A truth value. -/
def bool : Json → Verdict Bool
  | .bool b => pure b
  | .int n => if -(2 ^ (63 : Nat)) ≤ n ∧ n < 2 ^ (63 : Nat) then boolOfInt n else .refuse .notBool
  | .number x =>
    match intOfFloat x with
    | .ok n => boolOfInt n
    | .error _ => .refuse .notBool
  | .text s =>
    match boolWords.lookup (String.ofList (s.toList.map Char.toLower)) with
    | some b => pure b
    | none => .refuse .notBoolWord
  | _ => .refuse .notBool

/-- A text. -/
def string : Json → Verdict String
  | .text s => pure s
  | _ => .refuse .notString

/-- One of several words. -/
def oneOf (choices : List String) (ofWord? : String → Option α) : Json → Verdict α
  | .text s =>
    match ofWord? s with
    | some x => pure x
    | none => .refuse (.notOneOf choices)
  | _ => .refuse (.notOneOf choices)

/-- A list. -/
def list (decode : Json → Verdict α) : Json → Verdict (List α)
  | .list xs => Verdict.listFrom decode 0 xs
  | _ => .refuse .notList

/-- A value that may be missing. -/
def option (decode : Json → Verdict α) : Json → Verdict (Option α)
  | .null => pure none
  | v => some <$> decode v

/-- The fields of an object of a type. -/
def object (typeName : String) (decode : List (String × Json) → Verdict α) : Json → Verdict α
  | .object fields => decode fields
  | _ => .refuse (.notObject typeName)

/-- A field that must be there. -/
def required (decode : Json → Verdict α) (name : String) (fields : List (String × Json)) :
    Verdict α :=
  match Json.field? fields name with
  | some v => (decode v).inside (.field name)
  | none => (Verdict.refuse .missing).inside (.field name)

/-- A field that has a value of its own if it is not there. -/
def defaulted (decode : Json → Verdict α) (name : String) (default : α)
    (fields : List (String × Json)) : Verdict α :=
  match Json.field? fields name with
  | some v => (decode v).inside (.field name)
  | none => .accepted default

end Decode

end LinearProgram
