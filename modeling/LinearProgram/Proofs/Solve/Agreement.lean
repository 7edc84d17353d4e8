import LinearProgram.Proofs.Plane.Optimum
import LinearProgram.Proofs.Simplex.Verdict
/-!
# The two methods on one problem

Two variables are always drawn, but the tableau method could solve them as well.  Over the rationals, with
both tolerances zero, every row an upper limit and no limit negative, it then comes to the same value.
The two methods need not come to the same point: on an edge of optima the drawing takes the first corner
it meets, and the tableau method the one its exchanges lead to.

Proved:
* `inRegion_iff_feasible`: rows that are all upper limits draw the region of the tableau method.
* `solve_agree`: where the tableau method finds an optimum, the drawing finds one of the same value.
-/

namespace LinearProgram

variable {rows : Grid ℚ} {relations : List Relation} {rhs objective : List ℚ} {maximize : Bool}
  {options : Options ℚ}

/-- Rows that are all upper limits draw the region that the tableau method works in. -/
theorem Plane.inRegion_iff_feasible (hr : relations.length = rows.length)
    (hupper : ∀ r ∈ relations, r = .atMost) {x : List ℚ} :
    Plane.InRegion rows relations rhs x ↔ Feasible 2 rows rhs x := by
  have hrelates : ∀ i < rows.length, relations.getD i (.other "") = .atMost := fun i hi => by
    have hi' : i < relations.length := hr.symm ▸ hi
    rw [List.getD_eq_getElem _ _ hi']
    exact hupper _ (List.getElem_mem hi')
  constructor
  · intro h
    refine ⟨h.length_eq, h.nonneg, fun i hi => ?_⟩
    have hwithin := h.within i hi
    rwa [hrelates i hi] at hwithin
  · intro h
    refine ⟨h.length_eq, h.nonneg, fun i hi => ?_⟩
    rw [hrelates i hi]
    exact h.within i hi

/-- Where the tableau method finds an optimum of a problem in two variables, the drawing finds one as
well: the objective has one value at both points, and the tableau method answers its size. -/
theorem solve_agree (hobjective : objective.length = 2) (hr : relations.length = rows.length)
    (hupper : ∀ r ∈ relations, r = .atMost) (hl : rhs.length = rows.length)
    (hrhs : ∀ b ∈ rhs, 0 ≤ b) (hpivot : options.pivotTolerance = 0)
    (hfeasibility : options.feasibilityTolerance = 0)
    (hsharp : Plane.Sharp options.determinantTolerance rows) {solution : Solution ℚ}
    (hsolve : Simplex.solve objective rows rhs maximize options = .ok solution)
    (hstatus : solution.status = .optimal) :
    ∃ drawn, Plane.solve objective rows relations rhs maximize options = .ok drawn ∧
      drawn.status = .optimal ∧ solution.objectiveValue = |drawn.objectiveValue| ∧
      dot objective solution.point = dot objective drawn.point ∧
      Feasible 2 rows rhs solution.point ∧ Feasible 2 rows rhs drawn.point := by
  have hregion : ∀ x, Plane.InRegion rows relations rhs x ↔ Feasible 2 rows rhs x := fun x =>
    Plane.inRegion_iff_feasible hr hupper
  have hw := Simplex.length_of_solve hsolve
  obtain ⟨hoptimum, hvalue⟩ := Simplex.isOptimum_of_optimal hw hl hrhs hpivot hsolve hstatus
  rw [hobjective] at hw hoptimum
  -- The optimum that the tableau method found bounds the objective over the drawn region.
  obtain ⟨drawn, hdrawn, hstatus', hvalue', hoptimum'⟩ :=
    Plane.isOptimum_of_bound hobjective hw hr hl hfeasibility hsharp
      ((hregion _).2 hoptimum.mem) fun y hy => hoptimum.best y ((hregion y).1 hy)
  have hfeasible := (hregion _).1 hoptimum'.mem
  have hdot : dot objective solution.point = dot objective drawn.point :=
    hoptimum.dot_eq ⟨hfeasible, fun y hy => hoptimum'.best y ((hregion y).2 hy)⟩
  refine ⟨drawn, hdrawn, hstatus', ?_, hdot, hoptimum.mem, hfeasible⟩
  rw [hvalue, hvalue', hdot]

/-- The maximum of `x₁ + x₂` over `x₁ + x₂ ≤ 4`, `x₂ ≤ 3`, `x₁ ≤ 3` is taken on a whole edge: the tableau
method answers its end `(3, 1)`, the drawing its end `(1, 3)`. -/
theorem solve_agree_on_edge :
    ∃ solution drawn,
      Simplex.solve (α := ℚ) [1, 1] [[1, 1], [0, 1], [1, 0]] [4, 3, 3] true ⟨100, 0, 0, 1 / 100, 2⟩ =
        .ok solution ∧
      Plane.solve (α := ℚ) [1, 1] [[1, 1], [0, 1], [1, 0]] [.atMost, .atMost, .atMost] [4, 3, 3] true
        ⟨100, 0, 0, 1 / 100, 2⟩ = .ok drawn ∧
      solution.point = [3, 1] ∧ drawn.point = [1, 3] ∧ drawn.status = .optimal ∧
      solution.objectiveValue = |drawn.objectiveValue| ∧
      dot [1, 1] solution.point = dot [1, 1] drawn.point := by
  have hsharp : Plane.Sharp (1 / 100) [[1, 1], [0, 1], [1, 0]] :=
    ⟨by decide +kernel, by decide +kernel⟩
  have hok : (Simplex.solve (α := ℚ) [1, 1] [[1, 1], [0, 1], [1, 0]] [4, 3, 3] true
      ⟨100, 0, 0, 1 / 100, 2⟩).map (fun solution => (solution.status, solution.point)) =
        .ok (.optimal, [3, 1]) := by
    decide +kernel
  obtain ⟨solution, hsolve, hpair⟩ := map_eq_ok_iff.1 hok
  obtain ⟨hstatus, hpoint⟩ := Prod.mk.inj hpair
  obtain ⟨drawn, hdrawn, hstatus', hvalue, hdot, -⟩ := @solve_agree [[1, 1], [0, 1], [1, 0]]
    [.atMost, .atMost, .atMost] [4, 3, 3] [1, 1] true ⟨100, 0, 0, 1 / 100, 2⟩ rfl rfl (by decide)
    rfl (by decide) rfl rfl hsharp solution hsolve hstatus
  have hdrawnPoint : (Plane.solve (α := ℚ) [1, 1] [[1, 1], [0, 1], [1, 0]]
      [.atMost, .atMost, .atMost] [4, 3, 3] true ⟨100, 0, 0, 1 / 100, 2⟩).map (·.point) =
        .ok [1, 3] := by
    decide +kernel
  rw [hdrawn] at hdrawnPoint
  exact ⟨solution, drawn, hsolve, hdrawn, hpoint, Except.ok.inj hdrawnPoint, hstatus', hvalue, hdot⟩

end LinearProgram
