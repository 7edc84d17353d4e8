import LinearProgram.Solve
/-!
# The journal of a solution

What the parts of the library note down while a problem is solved, as data: which method was chosen,
what was drawn or exchanged, and whether the attempt failed.  Each event has a channel, a severity
and a wording.
-/

namespace LinearProgram

/-- The part of the library that notes an event down. -/
inductive Channel where
  | entryPoint
  | plane
  | tableau
  | generalRoute
  deriving DecidableEq, Repr

/-- How much an event matters. -/
inductive Severity where
  | detail
  | warning
  | failure
  deriving DecidableEq, Repr

/-- Something that happens while a problem is solved. -/
inductive Event where
  | chosen (variableCount : Nat) (requested : Option String) (method : Method)
  | drawn (candidates feasible : Nat)
  | standardised (rows columns slack surplus artificial : Nat)
  | readAsLimits (rows : Nat)
  | exchanged (iteration entering leaving : Nat)
  | unboundedColumn (entering : Nat)
  | failed
  deriving DecidableEq, Repr

namespace Event

/-- The part that an event happens in. -/
def channel : Event → Channel
  | chosen .. => .entryPoint
  | drawn .. => .plane
  | standardised .. => .generalRoute
  | readAsLimits _ => .generalRoute
  | exchanged .. => .tableau
  | unboundedColumn _ => .tableau
  | failed => .entryPoint

/-- How much an event matters. -/
def severity : Event → Severity
  | readAsLimits _ => .warning
  | failed => .failure
  | _ => .detail

/-- The wording of an event. -/
def message : Event → String
  | chosen variableCount requested method =>
    "solve: n=" ++ Nat.repr variableCount ++ ", requested=" ++ requested.getD "None" ++ ", using " ++
      method.word
  | drawn candidates feasible =>
    "graphical: " ++ Nat.repr candidates ++ " candidate points, " ++ Nat.repr feasible ++ " feasible"
  | standardised rows columns slack surplus artificial =>
    "general form: augmented system (" ++ Nat.repr rows ++ ", " ++ Nat.repr columns ++ "), " ++
      Nat.repr slack ++ " slack, " ++ Nat.repr surplus ++ " surplus, " ++ Nat.repr artificial ++
      " artificial columns"
  | readAsLimits rows =>
    "general form: " ++ Nat.repr rows ++ " row(s) with >= or = relations are solved as <= rows"
  | exchanged iteration entering leaving =>
    "simplex: iteration " ++ Nat.repr iteration ++ ", " ++ variableLabel entering ++ " enters, " ++
      variableLabel leaving ++ " leaves"
  | unboundedColumn entering =>
    "simplex: column " ++ variableLabel entering ++
      " has no positive entry, problem is unbounded"
  | failed => "solve: unexpected failure"

end Event

/-! ## What each part notes down -/

section Events

variable {α : Type} [Scalar α]

/-- The events of a run. -/
def Run.events (run : Run α) : List Event :=
  run.turns.mapIdx (fun i turn => .exchanged (i + 1) turn.entering turn.leaving) ++
    match run.ending with
    | .unbounded entering => [.unboundedColumn entering]
    | _ => []

/-- The event of a survey. -/
def Plane.Survey.events (survey : Plane.Survey α) : List Event :=
  [.drawn survey.candidates.length survey.feasible.length]

/-- The events of a standard form. -/
def StandardForm.events (f : StandardForm α) : List Event :=
  .standardised f.matrix.length f.columns f.slack.length f.surplus.length f.artificial.length ::
    if f.artificial.isEmpty then [] else [.readAsLimits f.artificial.length]

/-- The events of an attempt that may break off before there are any. -/
def eventsOf {β : Type} (events : β → List Event) : Except Fault β → List Event
  | .ok x => events x
  | .error _ => []

/-- The events of solving a problem by a method. -/
def Problem.eventsBy (p : Problem α) (method : Method) (options : Options α) : List Event :=
  let run := Simplex.run? p.signedObjective p.signedConstraints p.rhs p.maximize options
  match method with
  | .graphical =>
    eventsOf Plane.Survey.events (Plane.survey? p.signedConstraints p.relations p.rhs options)
  | .simplex => eventsOf Run.events run
  | .general =>
    eventsOf (fun f => StandardForm.events f ++ eventsOf Run.events run)
      (StandardForm.of? p.signedConstraints p.relations p.rhs)

end Events

/-- The journal of solving a problem. -/
def Problem.journal {α : Type} [DecimalScalar α] (p : Problem α) (requested : Option String)
    (options : Options α) : List Event :=
  let method := p.method requested
  .chosen p.variableCount requested method :: p.eventsBy method options ++
    match p.solveBy? method options with
    | .ok _ => []
    | .error _ => [.failed]

end LinearProgram
