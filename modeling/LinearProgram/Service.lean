import LinearProgram.Json.Schema
import LinearProgram.Solve
import LinearProgram.Text.Quoted
import LinearProgram.Walkthrough
/-!
# The service

Two tools: one solves a problem, the other also explains the answer.  Both take a problem, optionally
a method and optionally options.  The service is reached over its standard channels unless the
environment names another transport and no argument asks for the standard one.
-/

namespace LinearProgram.Service

/-- The name of the service. -/
def name : String := "LP Tutor"

/-- The tools. -/
inductive Tool where
  | solve
  | explain
  deriving DecidableEq, Repr

/-- The name of a tool. -/
def Tool.name : Tool → String
  | .solve => "solve_linear_program"
  | .explain => "explain_linear_program"

/-- The tool of a name. -/
def Tool.ofName? (s : String) : Option Tool := [Tool.solve, .explain].find? (·.name = s)

/-- What a tool is called with. -/
structure Arguments where
  problem : Problem Float
  method : Option Method
  options : Option (Options Float)

/-- The arguments from their fields. -/
def Arguments.ofFields (fields : List (String × Json)) : Verdict Arguments :=
  Arguments.mk
    <$> Decode.required Problem.decode "problem" fields
    <*> Decode.defaulted (Decode.option Method.decode) "method" none fields
    <*> Decode.defaulted (Decode.option Options.decode) "options" none fields

/-- The arguments from a data value. -/
def Arguments.decode : Json → Verdict Arguments := Decode.object "dict" Arguments.ofFields

/-- The options in force. -/
def Arguments.inForce (a : Arguments) : Options Float := a.options.getD Options.standard

/-- The answer of the engine to arguments. -/
def Arguments.solution (a : Arguments) : Solution Float :=
  a.problem.solve (a.method.map Method.word) a.inForce

/-- The answer of a tool.  Explaining may fail where solving does not. -/
def Tool.answer (tool : Tool) (a : Arguments) : Except Fault Json :=
  match tool with
  | .solve => .ok a.solution.encode
  | .explain =>
    (a.solution.render a.inForce.decimals).map fun report =>
      .object [("solution", a.solution.encode), ("report", .text report)]

/-! ## Transport -/

/-- How the service is reached. -/
inductive Transport where
  /-- Over the standard channels. -/
  | standard
  /-- Over the network. -/
  | network (port : Int)
  deriving DecidableEq, Repr

/-- The word for the transport over the standard channels. -/
def standardWord : String := "stdio"

/-- The address at which the service listens. -/
def host : String := "0.0.0.0"

/-- The path at which the service answers. -/
def path : String := "/mcp"

/-- The hosts and origins that are let in. -/
def allowed : List String := ["*"]

/-- The port if none is named. -/
def defaultPort : String := "8081"

/-- The longest piece of a quoted text that is shown in a message. -/
def shownLength : Nat := 200

/-- A port in text. -/
def portOf (s : String) : Except Fault Int :=
  match Numeral.integer s with
  | .ok port => .ok port
  | .error .malformed =>
    .error (.notInteger (String.ofList ((Text.quoted s).toList.take shownLength)))
  | .error (.tooLong digits) => .error (.tooLongToRead digits)

/-- The transport for the arguments and the two settings of the environment.  The port is read only
if it is needed. -/
def transport (arguments : List String) (transportSetting portSetting : Option String) :
    Except Fault Transport :=
  if transportSetting.getD standardWord = standardWord ∨ "--stdio" ∈ arguments then .ok .standard
  else (portOf (portSetting.getD defaultPort)).map .network

end LinearProgram.Service
