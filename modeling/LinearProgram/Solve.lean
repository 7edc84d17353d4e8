import LinearProgram.General
import LinearProgram.Plane
import LinearProgram.Problem.Signs
/-!
# Solving a problem

The one entry point: apply the sign flags, choose a method, solve.  A fault on the way becomes an
answer with the status `error`, so there always is an answer.
-/

namespace LinearProgram

variable {α : Type} [DecimalScalar α]

/-- Solve a problem by a method, or say what is wrong with it. -/
def Problem.solveBy? (p : Problem α) (method : Method) (options : Options α) :
    Except Fault (Solution α) :=
  match method with
  | .graphical =>
    Plane.solve p.signedObjective p.signedConstraints p.relations p.rhs p.maximize options
  | .general =>
    General.solve p.signedObjective p.signedConstraints p.relations p.rhs p.maximize options
  | .simplex => Simplex.solve p.signedObjective p.signedConstraints p.rhs p.maximize options

/-- The answer to a fault. -/
def Solution.ofFault (fault : Fault) : Solution α :=
  .invalid .error ("Failed to solve problem: " ++ fault.message) none none none

/-- The method for a problem when one is asked for by name, or none is. -/
def Problem.method (p : Problem α) (requested : Option String) : Method :=
  Method.choose p.variableCount requested

/-- The answer to a problem. -/
def Problem.solve (p : Problem α) (requested : Option String) (options : Options α) : Solution α :=
  match p.solveBy? (p.method requested) options with
  | .ok solution => solution
  | .error fault => .ofFault fault

/-! ## Small facts -/

namespace Problem

theorem solve_of_ok {p : Problem α} {requested : Option String} {options : Options α}
    {solution : Solution α} (h : p.solveBy? (p.method requested) options = .ok solution) :
    p.solve requested options = solution := by
  rw [solve, h]

theorem solve_of_error {p : Problem α} {requested : Option String} {options : Options α}
    {fault : Fault} (h : p.solveBy? (p.method requested) options = .error fault) :
    p.solve requested options = .ofFault fault := by
  rw [solve, h]

variable {p : Problem α}

omit [DecimalScalar α] in
theorem method_eq_graphical_iff {requested : Option String} :
    p.method requested = .graphical ↔ p.variableCount = 2 := by
  unfold Problem.method Method.choose
  split
  · next hn => exact ⟨fun _ => hn, fun _ => rfl⟩
  · next hn =>
    split
    · exact ⟨nofun, fun h => absurd h hn⟩
    · exact ⟨nofun, fun h => absurd h hn⟩

omit [DecimalScalar α] in
theorem method_simplex (hn : p.variableCount ≠ 2) :
    p.method (some Method.simplex.word) = .simplex := by
  rw [method, Method.choose, if_neg hn, if_neg (by decide)]

omit [DecimalScalar α] in
theorem method_general (hn : p.variableCount ≠ 2) :
    p.method (some Method.general.word) = .general := by
  rw [method, Method.choose, if_neg hn, if_pos rfl]

end Problem

end LinearProgram
