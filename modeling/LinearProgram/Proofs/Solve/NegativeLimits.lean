import LinearProgram.Proofs.Simplex.Verdict
import LinearProgram.Solve
/-!
# Problems with limits of any sign

Over the rationals and with the tolerance zero.  The tableau method starts from the basis of the slacks
and takes it to be in the region, which it is only if no limit is negative.  Nothing looks for another
basis to start from, so with a negative limit an optimal answer can lie outside the region
(`exists_optimal_not_feasible`).

Proved:
* `solve_feasible_iff`: the point of an optimal answer is in the region exactly if the last tableau of
  the run has no negative limit.
-/

namespace LinearProgram

namespace Problem

/-- An optimal answer is the answer of the method that was chosen. -/
theorem solveBy?_of_optimal {p : Problem ℚ} {requested : Option String} {options : Options ℚ}
    (hstatus : (p.solve requested options).status = .optimal) :
    p.solveBy? (p.method requested) options = .ok (p.solve requested options) := by
  rw [solve] at hstatus ⊢
  split at hstatus
  · next solution hsolve => rw [hsolve]
  · cases hstatus

variable {p : Problem ℚ} {options : Options ℚ}

/-- The point of an optimal answer of the tableau method is in the region exactly if the last tableau of
the run has no negative limit, and always if the problem has none. -/
theorem solve_feasible_iff (hadmissible : p.Admissible) (hn : p.variableCount ≠ 2)
    (hw : ∀ row ∈ p.constraints, row.length = p.variableCount)
    (hobjective : p.objectiveSign = none) (hsigns : p.constraintSigns = none)
    (htol : options.pivotTolerance = 0)
    (hstatus : (p.solve (some Method.simplex.word) options).status = .optimal) :
    ∃ run, Simplex.run? p.objective p.constraints p.rhs p.maximize options = .ok run ∧
      (Feasible p.variableCount p.constraints p.rhs
          (p.solve (some Method.simplex.word) options).point ↔ ∀ v ∈ run.last.limits, 0 ≤ v) ∧
      ((∀ b ∈ p.rhs, 0 ≤ b) → Feasible p.variableCount p.constraints p.rhs
          (p.solve (some Method.simplex.word) options).point) := by
  have hl := hadmissible.length_rhs
  have hlen := Simplex.length_maximized p.maximize p.objective
  have hsolve := solveBy?_of_optimal hstatus
  have hobjective' := signedObjective_of_none hobjective
  have hconstraints := signedConstraints_of_none hsigns
  rw [method_simplex hn, solveBy?, hobjective', hconstraints, Simplex.solve_eq hw hl, htol] at hsolve
  obtain ⟨-, hpoint, -⟩ := Run.solution_optimal hsolve hstatus
  refine ⟨_, Simplex.run?_eq_ok hw hl p.maximize options, ?_⟩
  rw [htol]
  set run := Simplex.run 0 options.maxIterations.toNat
    (Tableau.start (Simplex.maximized p.maximize p.objective) p.constraints p.rhs) with hrun
  have hw' : ∀ row ∈ p.constraints,
      row.length = (Simplex.maximized p.maximize p.objective).length := hlen ▸ hw
  have hiff := Simplex.feasible_point_iff hw' hl le_rfl options.maxIterations.toNat
  have hshape := (Simplex.canonical_last hw' hl le_rfl options.maxIterations.toNat).toShape
  rw [hshape.limitsNonneg_iff, ← hrun, hlen, ← hpoint] at hiff
  refine ⟨hiff, fun hrhs => hiff.2 ?_⟩
  exact hshape.limitsNonneg_iff.1 (Simplex.limitsNonneg_last hw' hl hrhs _)

/-- The maximum of `x₁` over `-x₁ ≤ -1` and `x₁ ≤ 4`: the one exchange repairs the negative limit. -/
theorem solve_feasible_iff_repaired :
    ∃ p : Problem ℚ, p.Admissible ∧ p.constraints = [[-1, 0, 0], [1, 0, 0]] ∧ p.rhs = [-1, 4] ∧
      (p.solve (some Method.simplex.word) ⟨100, 0, 0, 0, 2⟩).status = .optimal ∧
      Feasible 3 [[-1, 0, 0], [1, 0, 0]] [-1, 4]
        (p.solve (some Method.simplex.word) ⟨100, 0, 0, 0, 2⟩).point := by
  have hadmissible : (⟨true, [1, 0, 0], [[-1, 0, 0], [1, 0, 0]], [.atMost, .atMost], [-1, 4], none,
      none⟩ : Problem ℚ).Admissible := ⟨by decide, rfl, rfl, by decide⟩
  have hstatus : ((⟨true, [1, 0, 0], [[-1, 0, 0], [1, 0, 0]], [.atMost, .atMost], [-1, 4], none,
      none⟩ : Problem ℚ).solve (some Method.simplex.word) ⟨100, 0, 0, 0, 2⟩).status = .optimal := by
    decide +kernel
  obtain ⟨run, hrun, hiff, -⟩ := solve_feasible_iff hadmissible (by decide) (by decide) rfl rfl rfl
    hstatus
  have hlimits : (Simplex.run? (α := ℚ) [1, 0, 0] [[-1, 0, 0], [1, 0, 0]] [-1, 4] true
      ⟨100, 0, 0, 0, 2⟩).map (·.last.limits) = .ok [3, 4] := by decide +kernel
  rw [hrun] at hlimits
  have hlast : run.last.limits = [3, 4] := Except.ok.inj hlimits
  refine ⟨_, hadmissible, rfl, rfl, hstatus, hiff.2 ?_⟩
  rw [hlast]
  decide

/-- The minimum of `x₁ + x₂ + x₃` over `-x₁ ≤ -1` is answered by the origin, where `x₁` is not at least
one: a negative limit makes an optimal answer outside the region possible. -/
theorem exists_optimal_not_feasible :
    ¬ ∀ (p : Problem ℚ) (options : Options ℚ), p.Admissible → p.variableCount ≠ 2 →
      (∀ row ∈ p.constraints, row.length = p.variableCount) → (∀ r ∈ p.relations, r = .atMost) →
      p.objectiveSign = none → p.constraintSigns = none → options.pivotTolerance = 0 →
      (p.solve (some Method.simplex.word) options).status = .optimal →
      Feasible p.variableCount p.constraints p.rhs
        (p.solve (some Method.simplex.word) options).point := by
  intro hall
  have hfeasible := hall ⟨false, [1, 1, 1], [[-1, 0, 0]], [.atMost], [-1], none, none⟩
    ⟨100, 0, 0, 0, 2⟩ ⟨by decide, rfl, rfl, by decide⟩ (by decide) (by decide) (by decide) rfl rfl rfl
    (by decide +kernel)
  exact absurd (hfeasible.within 0 (by decide)) (by decide +kernel)

end Problem

end LinearProgram
