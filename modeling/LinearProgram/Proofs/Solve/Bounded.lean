import LinearProgram.Proofs.Plane.Region
import LinearProgram.Proofs.Plane.Tolerances
import LinearProgram.Proofs.Simplex.Verdict
import LinearProgram.Proofs.Solve.Faults
/-!
# Problems with a bound

Over the rationals, with the pivot tolerance zero, every row an upper limit and no limit negative, so that
the origin is in the region.  If the objective has a bound on the region, only two verdicts are left: the
tableau method can give up only along a ray of the region, and the drawing finds at least the origin.

Proved:
* `feasible_origin`: the origin is in the region.
* `Simplex.status_of_bounded`: the tableau method finds an optimum or runs into its cap.
* `Plane.status_of_origin`: the drawing finds an optimum.
* `Problem.status_of_bounded`: so does every method that can be asked for.
-/

namespace LinearProgram

/-- No point of a region has a better value than a bound. -/
def IsBound (maximize : Bool) (objective : List ℚ) (region : List ℚ → Prop) (bound : ℚ) : Prop :=
  ∀ x, region x → ¬ Improves maximize (dot objective x) bound

theorem getD_nonneg {xs : List ℚ} (h : ∀ v ∈ xs, 0 ≤ v) (i : ℕ) : 0 ≤ xs.getD i 0 := by
  rw [List.getD_eq_getElem?_getD]
  cases hi : xs[i]? with
  | none => exact le_rfl
  | some v => exact h v (List.mem_of_getElem? hi)

theorem dot_origin (a : List ℚ) (n : ℕ) : dot a (List.replicate n 0) = 0 := by
  rw [dot_eq_sum le_rfl]
  refine Finset.sum_eq_zero fun j _ => ?_
  have hzero : (List.replicate n (0 : ℚ)).getD j 0 = 0 := by
    rw [List.getD_eq_getElem?_getD, List.getElem?_replicate]
    split <;> rfl
  rw [hzero, mul_zero]

theorem feasible_origin {rows : Grid ℚ} {limits : List ℚ} (n : ℕ) (hlimits : ∀ b ∈ limits, 0 ≤ b) :
    Feasible n rows limits (List.replicate n 0) where
  length_eq := List.length_replicate
  nonneg v hv := (List.eq_of_mem_replicate hv).ge
  within i _ := by
    rw [dot_origin]
    exact getD_nonneg hlimits i

variable {objective rhs : List ℚ} {rows : Grid ℚ} {relations : List Relation} {maximize : Bool}
  {options : Options ℚ} {solution : Solution ℚ}

/-- An objective with a bound is never found to be without one. -/
theorem Simplex.status_of_bounded (hrhs : ∀ b ∈ rhs, 0 ≤ b) (hl : rhs.length = rows.length)
    (htol : options.pivotTolerance = 0) {bound : ℚ}
    (hbound : IsBound maximize objective (Feasible objective.length rows rhs) bound)
    (h : solve objective rows rhs maximize options = .ok solution) :
    solution.status = .optimal ∨ solution.status = .iterationLimit := by
  have hlen := length_maximized maximize objective
  have hw := length_of_solve h
  rw [solve_eq hw hl, htol] at h
  rcases Run.status_of_solution h with hoptimal | hunbounded | hcapped
  · exact .inl hoptimal
  · obtain ⟨entering, hending⟩ := Run.solution_unbounded h hunbounded
    rw [← hlen] at hw
    obtain ⟨x, hx, hbeyond⟩ := exists_feasible_gt hw hl hending (limitsNonneg_last hw hl hrhs _)
      (if maximize then bound else -bound)
    rw [hlen] at hx
    exact absurd ((improves_iff maximize objective x bound).2 hbeyond) (hbound x hx)
  · exact .inr hcapped

/-- Borders that are upper limits, none of them negative, keep the origin. -/
theorem Region.holds_origin {tolerance : ℚ} {borders : List (Border ℚ)} (htol : 0 ≤ tolerance)
    (hborders : ∀ b ∈ borders, b.relation = .atMost ∧ 0 ≤ b.limit) :
    holds tolerance borders (0, 0) = true := by
  refine holds_of_le htol (holds_iff.2 (contains_iff.2 ⟨⟨le_rfl, le_rfl⟩, fun b hb => ?_⟩))
  obtain ⟨hrelation, hlimit⟩ := hborders b hb
  rw [Border.Allows, hrelation, Border.lhs, mul_zero, mul_zero, add_zero]
  exact hlimit

/-- The origin is always a candidate, so a drawing whose region has it finds an optimum. -/
theorem Plane.status_of_origin
    (horigin : Region.holds options.feasibilityTolerance (borders rows relations rhs) (0, 0) = true)
    (h : solve objective rows relations rhs maximize options = .ok solution) :
    solution.status = .optimal := by
  obtain ⟨-, hsolution⟩ := solve_eq_ok_iff.1 h
  rcases Survey.solution_eq_ok_iff.1 hsolution with ⟨hnone, -⟩ | ⟨c, x, rest, -, -, rfl⟩
  · have hmem : ((0, 0) : ℚ × ℚ) ∈ (surveyOf options (borders rows relations rhs)).feasible :=
      List.mem_filter.2 ⟨List.mem_append_right _ List.mem_cons_self, horigin⟩
    rw [hnone] at hmem
    cases hmem
  · rfl

namespace Problem

variable {p : Problem ℚ} {method : Method}

theorem status_of_solveBy? (hl : p.rhs.length = p.constraints.length)
    (hr : p.relations.length = p.constraints.length) (hupper : ∀ r ∈ p.relations, r = .atMost)
    (hrhs : ∀ b ∈ p.rhs, 0 ≤ b) (htol : options.pivotTolerance = 0)
    (hfeasibility : 0 ≤ options.feasibilityTolerance) {bound : ℚ}
    (hbound : IsBound p.maximize p.signedObjective
      (Feasible p.variableCount p.signedConstraints p.rhs) bound)
    (h : p.solveBy? method options = .ok solution) :
    solution.status = .optimal ∨ solution.status = .iterationLimit := by
  have hlen := p.length_signedConstraints
  rw [variableCount, ← p.length_signedObjective] at hbound
  cases method with
  | graphical =>
    refine .inl (Plane.status_of_origin (Region.holds_origin hfeasibility fun b hb => ?_) h)
    obtain ⟨i, hi, rfl⟩ :=
      (Plane.mem_borders_iff (hr.trans hlen.symm) (hl.trans hlen.symm)).1 hb
    rw [hlen] at hi
    rw [Plane.borderAt, List.getD_eq_getElem _ _ (hr.symm ▸ hi), List.getD_eq_getElem _ _ (hl.symm ▸ hi)]
    exact ⟨hupper _ (List.getElem_mem _), hrhs _ (List.getElem_mem _)⟩
  | simplex => exact Simplex.status_of_bounded hrhs (hl.trans hlen.symm) htol hbound h
  | general =>
    obtain ⟨-, answer, hanswer, rfl⟩ := General.solve_eq_ok_iff.1 h
    have hstatus := Simplex.status_of_bounded hrhs (hl.trans hlen.symm) htol hbound hanswer
    exact hstatus

/-- A problem with a bound and with the origin in its region is solved by every method with moderate options,
unless the tableau method runs into its cap. -/
theorem status_of_bounded (hadmissible : p.Admissible)
    (hw : ∀ row ∈ p.constraints, row.length = p.variableCount)
    (hupper : ∀ r ∈ p.relations, r = .atMost) (hrhs : ∀ b ∈ p.rhs, 0 ≤ b)
    (htol : options.pivotTolerance = 0) (hfeasibility : 0 ≤ options.feasibilityTolerance)
    (hmoderate : options.Moderate) {bound : ℚ}
    (hbound : IsBound p.maximize p.signedObjective
      (Feasible p.variableCount p.signedConstraints p.rhs) bound) (requested : Option String) :
    (p.solve requested options).status = .optimal ∨
      (p.solve requested options).status = .iterationLimit := by
  have hmethod : p.method requested = .graphical ↔ p.variableCount = 2 := method_eq_graphical_iff
  obtain ⟨solution, hsolution⟩ := (exists_solveBy?_iff hadmissible hmethod).2
    ⟨hw, fun _ run _ => Run.answerable_of_moderate hmoderate run _⟩
  rw [solve_of_ok hsolution]
  exact status_of_solveBy? hadmissible.length_rhs hadmissible.length_relations hupper hrhs htol
    hfeasibility hbound hsolution

end Problem

end LinearProgram
