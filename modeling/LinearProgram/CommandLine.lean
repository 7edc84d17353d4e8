import LinearProgram.Instance
import LinearProgram.Json.Printer
import LinearProgram.Text.Quoted
/-!
# The command line of the instance generator

Options are long words with one value each, given as the next argument or behind an equals sign, and
may be shortened as long as they stay unique; the last of repeated options counts.  Negative numbers
are values, other arguments with a dash are options.  Mistakes are reported in the order in which the
arguments are taken, and arguments that nothing takes only at the end.  A wish for help ends the
taking of arguments.
-/

namespace LinearProgram.CommandLine

/-- The options. -/
inductive Opt where
  | help
  | vars
  | constraints
  | seed
  | count
  | out
  deriving DecidableEq, Repr

namespace Opt

/-- All options in the order in which they are named. -/
def all : List Opt := [.help, .vars, .constraints, .seed, .count, .out]

/-- The long form of an option. -/
def long : Opt → String
  | .help => "--help"
  | .vars => "--vars"
  | .constraints => "--constraints"
  | .seed => "--seed"
  | .count => "--count"
  | .out => "--out"

/-- The name of an option in messages. -/
def shown : Opt → String
  | .help => "-h/--help"
  | option => option.long

/-- Does an option stand alone, without a value? -/
def standsAlone : Opt → Bool
  | .help => true
  | _ => false

end Opt

/-- A mistake on the command line. -/
inductive Mistake where
  | ambiguous (argument : String) (options : List Opt)
  | valueMissing (option : Opt)
  | valueUnwanted (option : Opt) (value : String)
  | notInteger (option : Opt) (value : String)
  | unrecognized (arguments : List String)
  deriving DecidableEq, Repr

/-- The wording of a mistake. -/
def Mistake.message : Mistake → String
  | .ambiguous argument options =>
    "ambiguous option: " ++ argument ++ " could match " ++ ", ".intercalate (options.map Opt.long)
  | .valueMissing option => "argument " ++ option.shown ++ ": expected one argument"
  | .valueUnwanted option value =>
    "argument " ++ option.shown ++ ": ignored explicit argument " ++ Text.quoted value
  | .notInteger option value =>
    "argument " ++ option.shown ++ ": invalid int value: " ++ Text.quoted value
  | .unrecognized arguments => "unrecognized arguments: " ++ " ".intercalate arguments

/-- The name of the program in messages. -/
def program : String := "generate_instances.py"

/-- What is shown for a mistake. -/
def Mistake.report (m : Mistake) : String := program ++ ": error: " ++ m.message

/-- The last line that is shown for a mistake: an argument may bring line ends into the report. -/
def Mistake.lastLine (m : Mistake) : String := Text.lastLine m.report

/-- Why the arguments do not lead to settings. -/
inductive Stop where
  | help
  | mistake (m : Mistake)
  deriving DecidableEq, Repr

/-! ## Arguments -/

/-- An argument as it is classified before values are taken. -/
inductive Argument where
  /-- Something that can be a value. -/
  | plain (text : String)
  /-- An option, with the value behind its equals sign if there is one. -/
  | option (option : Opt) (value : Option String)
  /-- Something that looks like an option and is none. -/
  | unknown (text : String)
  /-- The two dashes after which all arguments are plain. -/
  | separator
  deriving DecidableEq, Repr

/-- Drop one line feed at the end. -/
def withoutLineFeed (cs : List Char) : List Char :=
  if cs.getLast? = some '\n' then cs.dropLast else cs

/-- A dash with a whole number or a decimal; a line feed may follow. -/
def isNegativeNumber (s : String) : Bool :=
  match withoutLineFeed s.toList with
  | '-' :: cs =>
    let digit := fun c => (Text.digit? c).isSome
    match cs.dropWhile digit with
    | [] => !cs.isEmpty
    | '.' :: fraction => !fraction.isEmpty && fraction.all digit
    | _ => false
  | _ => false

/-- An argument at its first equals sign. -/
def splitEquals (cs : List Char) : String × Option String :=
  match cs.span (· != '=') with
  | (name, _ :: value) => (String.ofList name, some (String.ofList value))
  | (name, []) => (String.ofList name, none)

/-- The value that short options behind one dash bring with them, if they do: behind an equals sign or
a further dash.  Of letters that are no option, the first ends the search. -/
def shortValue? : List Char → Option String
  | 'h' :: '=' :: value => some (String.ofList value)
  | 'h' :: rest => shortValue? rest
  | '-' :: rest => some (String.ofList ('-' :: rest))
  | _ => none

/-- The options that an argument may stand for, with the values behind them: an option spelled out,
or all whose long form it begins. -/
def matching (s : String) : List (Opt × Option String) :=
  let (name, value) := splitEquals s.toList
  match s.toList with
  | '-' :: '-' :: _ =>
    match Opt.all.find? (·.long = name) with
    | some option => [(option, value)]
    | none => (Opt.all.filter fun option => name.toList.isPrefixOf option.long.toList).map (·, value)
  | '-' :: 'h' :: rest => [(.help, shortValue? ('h' :: rest))]
  | _ => []

/-- Classify an argument. -/
def classify (s : String) : Except Mistake Argument :=
  match s.toList with
  | '-' :: _ :: _ =>
    match matching s with
    | [(option, value)] => .ok (.option option value)
    | [] =>
      if isNegativeNumber s || s.toList.contains ' ' then .ok (.plain s) else .ok (.unknown s)
    | several => .error (.ambiguous s (several.map Prod.fst))
  | _ => .ok (.plain s)

/-- Classify all arguments; after two dashes all are plain. -/
def classifyAll : List String → Except Mistake (List Argument)
  | [] => .ok []
  | s :: rest =>
    if s = "--" then .ok (.separator :: rest.map .plain)
    else do
      let first ← classify s
      let others ← classifyAll rest
      return first :: others

/-! ## Settings -/

/-- What the options set. -/
structure Settings where
  variableCount : Int
  rows : Int
  seed : Option Int
  count : Int
  out : Option String
  deriving DecidableEq, Repr

/-- The settings without any option. -/
def Settings.standard : Settings := ⟨3, 3, none, 1, none⟩

/-- A value that must be a whole number. -/
def integer (option : Opt) (value : String) : Except Mistake Int :=
  match Numeral.integer value with
  | .ok n => .ok n
  | .error _ => .error (.notInteger option value)

/-- Apply an option with its value. -/
def Settings.set (s : Settings) (option : Opt) (value : String) : Except Mistake Settings :=
  match option with
  | .help => .ok s
  | .vars => (integer option value).map fun n => { s with variableCount := n }
  | .constraints => (integer option value).map fun n => { s with rows := n }
  | .seed => (integer option value).map fun n => { s with seed := some n }
  | .count => (integer option value).map fun n => { s with count := n }
  | .out => .ok { s with out := some value }

/-- The text of a classified argument that nothing takes. -/
def leftover : Argument → List String
  | .plain s => [s]
  | .unknown s => [s]
  | .separator => ["--"]
  | .option .. => []

/-- Take the arguments in order; the second part of the result is what nothing takes. -/
def take : Settings → List Argument → Except Stop (Settings × List String)
  | s, [] => .ok (s, [])
  | s, .option option (some value) :: rest =>
    if option.standsAlone then .error (.mistake (.valueUnwanted option value))
    else do
      let s ← (s.set option value).mapError .mistake
      take s rest
  | s, .option option none :: rest =>
    if option.standsAlone then .error .help
    else
      match rest with
      | .plain value :: rest => do
        let s ← (s.set option value).mapError .mistake
        take s rest
      | _ => .error (.mistake (.valueMissing option))
  | s, argument :: rest => do
    let (s, left) ← take s rest
    return (s, leftover argument ++ left)

/-- The settings of a command line. -/
def settings (arguments : List String) : Except Stop Settings := do
  let classified ← (classifyAll arguments).mapError .mistake
  let (s, left) ← take .standard classified
  if left.isEmpty then return s else throw (.mistake (.unrecognized left))

/-! ## Output -/

/-- The seeds of the instances: without a seed each comes from the given source. -/
def Settings.seeds (s : Settings) (fresh : Nat → Int) : List Int :=
  (List.range s.count.toNat).map fun k =>
    match s.seed with
    | some seed => seed + Int.ofNat k
    | none => fresh k

/-- The instances of seeds, as long as they are accepted. -/
def instancesOf (variableCount rows : Int) :
    List Int → Except Fault (Verdict (List (Problem Float)))
  | [] => .ok (.accepted [])
  | seed :: seeds => do
    match ← Instance.generate variableCount rows seed with
    | .refused issues => return .refused issues
    | .accepted p =>
      let rest ← instancesOf variableCount rows seeds
      return rest.andThen fun ps => .accepted (p :: ps)

/-- The instances of the settings. -/
def Settings.instances (s : Settings) (fresh : Nat → Int) :
    Except Fault (Verdict (List (Problem Float))) :=
  instancesOf s.variableCount s.rows (s.seeds fresh)

/-- Does a path name the directory that it starts from? -/
def isHere (path : String) : Bool :=
  path.toList.head? != some '/' && (path.splitOn "/").all fun step => step.isEmpty || step == "."

/-- The file that the instances go to, if they do not go to the output. -/
def Settings.target (s : Settings) : Except Fault (Option String) :=
  match s.out with
  | some path => if isHere path then .error (.directory ".") else .ok (some path)
  | none => .ok none

/-- The text of the help. -/
def helpText : String :=
  "usage: " ++ program ++ " [options]\n\noptions:\n" ++
    "\n".intercalate (Opt.all.map fun option => "  " ++ option.shown) ++ "\n"

/-- The text of instances. -/
def payload (instances : List (Problem Float)) : String :=
  (Json.ofList Problem.encode instances).render 0

end LinearProgram.CommandLine
