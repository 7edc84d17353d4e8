import LinearProgram.Proofs.Plane.Answer
import LinearProgram.Proofs.Simplex.Answer
import LinearProgram.Proofs.Simplex.Snapshots
import LinearProgram.Solve
/-!
# What the parts of an answer say about each other

An answer has nine parts, and whoever shows it relies on them to fit: a status that goes with a table or
with none, a method that tells whether there is a trace, a table as wide as its headers.  `Coherent` says how
they fit, and every way out of every solver gives an answer that is coherent.  All of it holds over any
scalars and for problems that nobody checked.

Proved:
* `Run.coherent_of_solution`: what a run answers is coherent, for the tableau method and under the name of
  the general route.
* `Plane.coherent_of_solve`: what a drawing answers is coherent.
* `coherent_solve`: every answer to a problem is coherent.
-/

namespace LinearProgram

variable {α : Type}

/-- How the parts of an answer fit, for a problem with `n` variables, `m` rows and these costs of columns,
when it was to be solved by `method`. -/
structure Solution.Coherent [Scalar α] (n m : Nat) (costs : List α) (method : Method)
    (s : Solution α) : Prop where
  valid_iff : s.valid = true ↔ s.status = .optimal
  /-- Without an optimum there is nothing to show. -/
  blank : s.valid = false → s.point = [] ∧ s.objectiveValue = 0 ∧ s.table = .empty
  method_eq_none_iff : s.method = none ↔ s.status = .error
  method_eq : s.status ≠ .error → s.method = some method
  of_infeasible : s.status = .infeasible → s.method = some .graphical
  of_unsolved : s.status = .unbounded ∨ s.status = .iterationLimit →
    s.method = some .simplex ∨ s.method = some .general
  untraced_iff : s.iterations = none ∧ s.costs = none ↔
    s.status = .error ∨ s.method = some .graphical
  traced : ¬ (s.status = .error ∨ s.method = some .graphical) →
    (∃ log, s.iterations = some log ∧ log ≠ []) ∧ s.costs = some costs
  length_point : s.valid = true → s.point.length = n
  /-- A table of borders has five columns, and a last row for the quadrant. -/
  drawn : s.valid = true → s.method = some .graphical → s.table.Rectangular (m + 1) 5
  /-- A table of a tableau has a column for its costs and one for its labels, and two rows for the
  objective. -/
  tabulated : s.valid = true → s.method ≠ some .graphical → s.table.Rectangular (m + 2) (n + m + 3)

/-- An answer without an optimum is blank, so only its status, its method and its trace have to fit. -/
theorem Solution.coherent_invalid [Scalar α] {n m : Nat} {costs : List α} {method : Method}
    {status : Status} {message : String} {named : Option Method} {log : Option (List (Snapshot α))}
    {given : Option (List α)} (hstatus : status ≠ .optimal)
    (hnone : named = none ↔ status = .error) (hnamed : status ≠ .error → named = some method)
    (hinfeasible : status = .infeasible → named = some .graphical)
    (hunsolved : status = .unbounded ∨ status = .iterationLimit →
      named = some .simplex ∨ named = some .general)
    (huntraced : log = none ∧ given = none ↔ status = .error ∨ named = some .graphical)
    (htraced : ¬ (status = .error ∨ named = some .graphical) →
      (∃ snapshots, log = some snapshots ∧ snapshots ≠ []) ∧ given = some costs) :
    (Solution.invalid status message named log given).Coherent n m costs method where
  valid_iff := by simp [invalid, hstatus]
  blank _ := ⟨rfl, rfl, rfl⟩
  method_eq_none_iff := hnone
  method_eq := hnamed
  of_infeasible := hinfeasible
  of_unsolved := hunsolved
  untraced_iff := huntraced
  traced := htraced
  length_point := by simp [invalid]
  drawn := by simp [invalid]
  tabulated := by simp [invalid]

/-! ## The tableau method and the general route -/

section Tableau

variable [DecimalScalar α] {n m : Nat} {costs : List α} {options : Options α} {method : Method}
  {solution : Solution α}

@[simp]
theorem Run.length_point (run : Run α) (n : Nat) : (run.point n).length = n := by
  have hset : ∀ (places : List (Nat × α)) (point : List α),
      (places.foldl (fun point place => point.set place.1 place.2) point).length = point.length := by
    intro places
    induction places with
    | nil => exact fun _ => rfl
    | cons place places ih => exact fun point => (ih _).trans List.length_set
  exact (hset _ _).trans List.length_replicate

/-- An answer of a solver with a trace but without an optimum. -/
theorem Solution.coherent_unsolved {status : Status} {message : String} {log : List (Snapshot α)}
    (hstatus : status = .unbounded ∨ status = .iterationLimit) (hmethod : method ≠ .graphical)
    (hlog : log ≠ []) :
    (Solution.invalid status message (some method) (some log) (some costs)).Coherent n m costs
      method := by
  have herror : status ≠ .error := by rcases hstatus with rfl | rfl <;> decide
  refine Solution.coherent_invalid ?_ (by simp [herror]) (fun _ => rfl) ?_ (fun _ => ?_)
    (by simp [herror, hmethod]) fun _ => ⟨⟨log, rfl, hlog⟩, rfl⟩
  · rcases hstatus with rfl | rfl <;> decide
  · rcases hstatus with rfl | rfl <;> simp
  · cases method with
    | graphical => exact absurd rfl hmethod
    | simplex => exact .inl rfl
    | general => exact .inr rfl

/-- What a run answers is coherent, by whichever of the two methods that make runs it is named. -/
theorem Run.coherent_of_solution {run : Run α} (hshape : run.last.Shape n m)
    (hcosts : costs.length = n + m) (hmethod : method ≠ .graphical)
    (h : run.solution costs n options = .ok solution) :
    ({ solution with method := some method } : Solution α).Coherent n m costs method := by
  have hlog : run.snapshots ≠ [] := List.ne_nil_of_length_eq_add_one run.length_snapshots
  have hsome : some method ≠ some Method.graphical := fun h => hmethod (Option.some.inj h)
  rcases Run.solution_cases h with ⟨-, table, htable, rfl⟩ | ⟨_, -, rfl⟩ | ⟨-, _, -, rfl⟩
  · rw [Run.table, hcosts, hshape.basis_length] at htable
    have hrectangular := Tableau.rectangular_of_tableauTable hshape.width htable
    rw [hshape.basis_length] at hrectangular
    exact {
      valid_iff := ⟨fun _ => rfl, fun _ => rfl⟩
      blank := by simp
      method_eq_none_iff := by simp
      method_eq := fun _ => rfl
      of_infeasible := by simp
      of_unsolved := by simp
      untraced_iff := by simp [hmethod]
      traced := fun _ => ⟨⟨_, rfl, hlog⟩, rfl⟩
      length_point := fun _ => run.length_point n
      drawn := fun _ h => absurd h hsome
      tabulated := fun _ _ => hrectangular }
  · exact Solution.coherent_unsolved (.inl rfl) hmethod hlog
  · exact Solution.coherent_unsolved (.inr rfl) hmethod hlog

theorem Run.method_of_solution {run : Run α} (h : run.solution costs n options = .ok solution) :
    solution.method = some .simplex := by
  rcases Run.solution_cases h with ⟨-, _, -, rfl⟩ | ⟨_, -, rfl⟩ | ⟨-, _, -, rfl⟩ <;> rfl

variable {objective : List α} {constraints : Grid α} {relations : List Relation} {rhs : List α}
  {maximize : Bool}

theorem Simplex.method_of_solve
    (h : Simplex.solve objective constraints rhs maximize options = .ok solution) :
    solution.method = some .simplex := by
  obtain ⟨run, -, hsolution⟩ := Simplex.solve_eq_ok_iff.1 h
  exact Run.method_of_solution hsolution

/-- The general route answers what the tableau method answers, under its own name, if the rows have a
standard form. -/
theorem General.solve_eq_ok_iff :
    General.solve objective constraints relations rhs maximize options = .ok solution ↔
      (∃ form, StandardForm.of? constraints relations rhs = .ok form) ∧
        ∃ answer, Simplex.solve objective constraints rhs maximize options = .ok answer ∧
          { answer with method := some .general } = solution := by
  simp [General.solve]

/-- What the tableau method answers is coherent, and so it is under the name of the general route. -/
theorem Simplex.coherent_of_solve (hmethod : method ≠ .graphical)
    (h : Simplex.solve objective constraints rhs maximize options = .ok solution) :
    ({ solution with method := some method } : Solution α).Coherent objective.length
      constraints.length (Simplex.columnCosts objective constraints.length) method := by
  obtain ⟨run, hrun, hsolution⟩ := Simplex.solve_eq_ok_iff.1 h
  exact Run.coherent_of_solution (Simplex.shape_last hrun) (Simplex.length_columnCosts _ _) hmethod
    hsolution

end Tableau

/-! ## The drawing -/

section Plane

variable [DecimalScalar α]

@[simp]
theorem Region.length_borderRow (b : Border α) : (Region.borderRow b).length = 5 := by
  have hpoints : (Region.interceptTexts b).length ≤ 2 := by
    unfold Region.interceptTexts
    rw [List.length_append]
    split <;> split <;> simp
  simp only [Region.borderRow, List.length_cons, List.length_append, List.length_replicate]
  omega

theorem Region.rectangular_table (borders : List (Border α)) :
    (Region.table borders).Rectangular (borders.length + 1) 5 := by
  refine ⟨rfl, by simp [Region.table], fun row hrow => ?_⟩
  rcases List.mem_append.1 hrow with hrow | hrow
  · obtain ⟨b, -, rfl⟩ := List.mem_map.1 hrow
    exact Region.length_borderRow b
  · rw [List.mem_singleton.1 hrow]
    rfl

variable {objective rhs costs : List α} {rows : Grid α} {relations : List Relation}
  {maximize : Bool} {options : Options α} {solution : Solution α}

theorem Plane.method_of_solve
    (h : Plane.solve objective rows relations rhs maximize options = .ok solution) :
    solution.method = some .graphical := by
  obtain ⟨-, hsolution⟩ := Plane.solve_eq_ok_iff.1 h
  rcases Plane.Survey.solution_eq_ok_iff.1 hsolution with ⟨-, rfl⟩ | ⟨_, _, _, -, -, rfl⟩ <;> rfl

/-- What a drawing answers is coherent. -/
theorem Plane.coherent_of_solve
    (h : Plane.solve objective rows relations rhs maximize options = .ok solution) :
    solution.Coherent 2 rows.length costs .graphical := by
  obtain ⟨⟨-, hr, hl⟩, hsolution⟩ := Plane.solve_eq_ok_iff.1 h
  rcases Plane.Survey.solution_eq_ok_iff.1 hsolution with ⟨-, rfl⟩ | ⟨_, _, _, -, -, rfl⟩
  · exact Solution.coherent_invalid (by decide) (by simp) (fun _ => rfl) (fun _ => rfl) (by simp)
      (by simp) (by simp)
  · have hrectangular := Region.rectangular_table (Plane.borders rows relations rhs)
    rw [Plane.length_borders hr hl] at hrectangular
    exact {
      valid_iff := ⟨fun _ => rfl, fun _ => rfl⟩
      blank := by simp [Plane.optimum]
      method_eq_none_iff := by simp [Plane.optimum]
      method_eq := fun _ => rfl
      of_infeasible := fun _ => rfl
      of_unsolved := by simp [Plane.optimum]
      untraced_iff := ⟨fun _ => .inr rfl, fun _ => ⟨rfl, rfl⟩⟩
      traced := fun h => absurd (.inr rfl) h
      length_point := fun _ => rfl
      drawn := fun _ _ => hrectangular
      tabulated := fun _ h => absurd rfl h }

end Plane

/-! ## All answers -/

variable [DecimalScalar α]

theorem Solution.coherent_ofFault {n m : Nat} {costs : List α} {method : Method} (fault : Fault) :
    (Solution.ofFault fault : Solution α).Coherent n m costs method :=
  Solution.coherent_invalid (by decide) (by simp) (by simp) (by simp) (by simp) (by simp) (by simp)

namespace Problem

variable {p : Problem α} {method : Method} {options : Options α} {solution : Solution α}

/-- Whichever method solves a problem, its answer is coherent. -/
theorem coherent_of_solveBy? (hmethod : method = .graphical → p.variableCount = 2)
    (h : p.solveBy? method options = .ok solution) :
    solution.Coherent p.variableCount p.constraints.length
      (p.signedObjective ++ List.replicate p.constraints.length 0) method := by
  have hlen := p.length_signedObjective
  have hlen' := p.length_signedConstraints
  cases method with
  | graphical =>
    rw [hmethod rfl, ← hlen']
    exact Plane.coherent_of_solve h
  | simplex =>
    have hcoherent := Simplex.coherent_of_solve (show Method.simplex ≠ .graphical by decide) h
    rw [← Simplex.method_of_solve h, hlen, hlen'] at hcoherent
    exact hcoherent
  | general =>
    obtain ⟨-, answer, hanswer, rfl⟩ := General.solve_eq_ok_iff.1 h
    have hcoherent := Simplex.coherent_of_solve (show Method.general ≠ .graphical by decide) hanswer
    rw [hlen, hlen'] at hcoherent
    exact hcoherent

theorem method_of_solveBy? (h : p.solveBy? method options = .ok solution) :
    solution.method = some method := by
  cases method with
  | graphical => exact Plane.method_of_solve h
  | simplex => exact Simplex.method_of_solve h
  | general =>
    obtain ⟨-, answer, -, rfl⟩ := General.solve_eq_ok_iff.1 h
    rfl

/-- An answer is an error exactly if there is none of the method that was chosen. -/
theorem status_ne_error_iff {requested : Option String} :
    (p.solve requested options).status ≠ .error ↔
      ∃ solution, p.solveBy? (p.method requested) options = .ok solution := by
  cases h : p.solveBy? (p.method requested) options with
  | error fault =>
    rw [solve_of_error h]
    exact ⟨fun hstatus => absurd rfl hstatus, nofun⟩
  | ok solution =>
    rw [solve_of_ok h]
    refine ⟨fun _ => ⟨solution, rfl⟩, fun _ herror => ?_⟩
    have hnone := (coherent_of_solveBy? method_eq_graphical_iff.1 h).method_eq_none_iff.2 herror
    rw [method_of_solveBy? h] at hnone
    cases hnone

/-- Every answer to a problem is coherent.  It is valid exactly if it is an optimum, and otherwise blank; it
has a method unless it is an error, and then the method chosen for the problem; it has a trace and costs
exactly if that is not the drawing; and the point and the table of an optimum are as large as the problem
wants them. -/
theorem coherent_solve (p : Problem α) (requested : Option String) (options : Options α) :
    (p.solve requested options).Coherent p.variableCount p.constraints.length
      (p.signedObjective ++ List.replicate p.constraints.length 0) (p.method requested) := by
  unfold Problem.solve
  split
  · next solution h => exact coherent_of_solveBy? method_eq_graphical_iff.1 h
  · next fault _ => exact Solution.coherent_ofFault fault

end Problem

end LinearProgram
