import LinearProgram.Examples
import LinearProgram.Instance
import LinearProgram.Solve
/-!
# The benchmark list

The examples and three random instances, each solved with the tableau method asked for, in one line
per problem: name, method, status, objective and number of exchanges.
-/

namespace LinearProgram.Benchmark

/-- The columns of the list. -/
def header : List String := ["name", "method", "status", "objective", "iterations"]

/-- The problems of the list. -/
def cases : List (String × Problem Float) :=
  Example.all.map (fun entry => ("examples/" ++ entry.1, entry.2)) ++
    (List.range 3).map fun seed => ("random-" ++ Nat.repr seed, Instance.random 3 3 seed)

/-- The number of exchanges in the trace of a solution. -/
def exchanges (s : Solution Float) : Nat := (s.iterations.getD []).length - 1

/-- The word for the method of a solution. -/
def methodText (s : Solution Float) : String :=
  match s.method with
  | some method => method.word
  | none => "None"

/-- The fields of a problem's line. -/
def fields (name : String) (s : Solution Float) : List String :=
  [name, methodText s, s.status.word, shortestText s.objectiveValue, Nat.repr (exchanges s)]

/-- The solution of a problem on the list. -/
def solve (p : Problem Float) : Solution Float :=
  p.solve (some Method.simplex.word) Options.standard

/-- The lines of the list, the columns first. -/
def lines : List String :=
  ",".intercalate header ::
    cases.map fun problem => ",".intercalate (fields problem.1 (solve problem.2))

end LinearProgram.Benchmark
