import LinearProgram.Proofs.Simplex.Verdict
/-!
# What the answers of the tableau method mean

Over the rationals and with the tolerance zero.

Proved:
* `optimum_of_solve`: on limits that are not negative an optimal answer is an optimum of the problem.
* `ray_of_solve`: on limits that are not negative an unbounded answer is right.
-/

namespace LinearProgram

namespace Simplex

variable {objective : List ℚ} {constraints : Grid ℚ} {rhs : List ℚ} {maximize : Bool}
  {options : Options ℚ}

/-- An optimal answer holds an optimum: its point is in the region, its value is the size of the
objective there, and no point of the region is better.  With moderate options there is an answer. -/
theorem optimum_of_solve (maximize : Bool)
    (hw : ∀ row ∈ constraints, row.length = objective.length)
    (hl : rhs.length = constraints.length) (hrhs : ∀ b ∈ rhs, 0 ≤ b)
    (htol : options.pivotTolerance = 0) :
    (∀ solution, solve objective constraints rhs maximize options = .ok solution →
      solution.status = .optimal →
        Feasible objective.length constraints rhs solution.point ∧
          solution.objectiveValue = |dot objective solution.point| ∧
          ∀ y, Feasible objective.length constraints rhs y →
            ¬ Improves maximize (dot objective y) (dot objective solution.point)) ∧
      (options.Moderate →
        ∃ solution, solve objective constraints rhs maximize options = .ok solution) := by
  refine ⟨fun solution hsolution hstatus => ?_, fun hmoderate => exists_solve_iff.2
    ⟨_, run?_eq_ok hw hl maximize options, Run.answerable_of_moderate hmoderate _ _⟩⟩
  have hlen := length_maximized maximize objective
  rw [solve_eq hw hl, htol] at hsolution
  rw [← hlen] at hw
  set run := Simplex.run 0 options.maxIterations.toNat
    (Tableau.start (maximized maximize objective) constraints rhs) with hrun
  have hlast := canonical_last hw hl le_rfl options.maxIterations.toNat
  have hdot := dot_point hw hl le_rfl options.maxIterations.toNat
  have hfeasible := (feasible_point_iff hw hl le_rfl options.maxIterations.toNat).2
    (limitsNonneg_last hw hl hrhs _)
  rw [← hrun, hlen] at hlast hdot hfeasible
  obtain ⟨hending, hpoint, hvalue⟩ := Run.solution_optimal hsolution hstatus
  refine ⟨hpoint ▸ hfeasible, ?_, fun y hy => ?_⟩
  · rw [hvalue, Run.objectiveValue_eq hlast.toShape, ← abs_dot_maximized maximize, hpoint, hdot,
      abs_neg]
  · have hbound := dot_le_of_optimal hw hl hending (hlen ▸ hy)
    rw [← hrun, hlen, ← hdot, ← hpoint, dot_maximized maximize objective solution.point] at hbound
    rw [improves_iff]
    exact not_lt.2 hbound

/-- Three exchanges lead to the optimum of a minimum over four rows. -/
theorem optimum_of_solve_three_exchanges :
    ∃ solution, solve [-3, -5, -1] [[1, 0, 0], [0, 2, 0], [3, 2, 0], [0, 0, 1]] [4, 12, 18, 1] false
        ⟨100, 0, 0, 0, 2⟩ = .ok solution ∧ solution.status = .optimal ∧
      Feasible 3 [[1, 0, 0], [0, 2, 0], [3, 2, 0], [0, 0, 1]] [4, 12, 18, 1] solution.point ∧
      solution.objectiveValue = |dot [-3, -5, -1] solution.point| ∧
      ∀ y, Feasible 3 [[1, 0, 0], [0, 2, 0], [3, 2, 0], [0, 0, 1]] [4, 12, 18, 1] y →
        ¬ Improves false (dot [-3, -5, -1] y) (dot [-3, -5, -1] solution.point) := by
  obtain ⟨hoptimum, hexists⟩ := @optimum_of_solve [-3, -5, -1]
    [[1, 0, 0], [0, 2, 0], [3, 2, 0], [0, 0, 1]] [4, 12, 18, 1] ⟨100, 0, 0, 0, 2⟩ false (by decide) rfl
    (by decide) rfl
  obtain ⟨solution, hsolve⟩ := hexists ⟨by decide, by decide, by decide +kernel⟩
  have hstatus : solution.status = .optimal := by
    have hok : (solve (α := ℚ) [-3, -5, -1] [[1, 0, 0], [0, 2, 0], [3, 2, 0], [0, 0, 1]]
        [4, 12, 18, 1] false ⟨100, 0, 0, 0, 2⟩).map (·.status) = .ok .optimal := by
      decide +kernel
    rw [hsolve] at hok
    exact Except.ok.inj hok
  exact ⟨solution, hsolve, hstatus, hoptimum solution hsolve hstatus⟩

/-- An unbounded answer is right: the region has points better than any bound. -/
theorem ray_of_solve (hw : ∀ row ∈ constraints, row.length = objective.length)
    (hl : rhs.length = constraints.length) (hrhs : ∀ b ∈ rhs, 0 ≤ b)
    (htol : options.pivotTolerance = 0) {solution : Solution ℚ}
    (hsolve : solve objective constraints rhs maximize options = .ok solution)
    (hstatus : solution.status = .unbounded) (bound : ℚ) :
    ∃ x, Feasible objective.length constraints rhs x ∧
      Improves maximize (dot objective x) bound := by
  have hlen := length_maximized maximize objective
  rw [solve_eq hw hl, htol] at hsolve
  obtain ⟨entering, hending⟩ := Run.solution_unbounded hsolve hstatus
  rw [← hlen] at hw
  obtain ⟨x, hx, hbeyond⟩ := exists_feasible_gt hw hl hending (limitsNonneg_last hw hl hrhs _)
    (if maximize then bound else -bound)
  exact ⟨x, hlen ▸ hx, (improves_iff maximize objective x bound).2 hbeyond⟩

/-- After one exchange the second column of `x₁ - x₂ ≤ 1` grows without bound. -/
theorem ray_of_solve_after_exchange :
    ∃ solution, solve (α := ℚ) [1, 1] [[1, -1]] [1] true ⟨100, 0, 0, 0, 2⟩ = .ok solution ∧
      solution.status = .unbounded ∧
      ∀ bound, ∃ x, Feasible 2 [[1, -1]] [1] x ∧ Improves true (dot [1, 1] x) bound := by
  have hok : (solve (α := ℚ) [1, 1] [[1, -1]] [1] true ⟨100, 0, 0, 0, 2⟩).map (·.status) =
      .ok .unbounded := by decide +kernel
  cases hsolve : solve (α := ℚ) [1, 1] [[1, -1]] [1] true ⟨100, 0, 0, 0, 2⟩ with
  | error fault =>
    rw [hsolve] at hok
    cases hok
  | ok solution =>
    rw [hsolve] at hok
    have hstatus : solution.status = .unbounded := Except.ok.inj hok
    exact ⟨solution, rfl, hstatus,
      ray_of_solve (by decide) rfl (by decide) rfl hsolve hstatus⟩

end Simplex

end LinearProgram
