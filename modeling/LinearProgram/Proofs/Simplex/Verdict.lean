import LinearProgram.Proofs.Simplex.Answer
/-!
# The verdicts of the tableau method

Over the rationals, for a problem `x ≥ 0`, `A x ≤ b` whose rows all have the length of the objective.

Proved:
* `feasible_point_iff`: for limits of any sign, the point of a run is in the region exactly if no
  limit of the last tableau is negative.
* `dot_firsts_le_of_optimal`: at a run that ended well the value of the last tableau bounds the objective
  at every point of the region up to the tolerance, by weak duality; so with the tolerance zero it is a
  bound (`dot_le_of_optimal`).
* `exists_feasible_gt`: at a run that ended unbounded, with no negative limit, a ray of the region
  carries the objective above every bound.
* `limitsNonneg_last`: with limits that are not negative and the tolerance zero, every run stays in
  the region.
* `isOptimum_of_optimal`: so the point of an optimal answer is then a best point of the region.
-/

namespace LinearProgram.Simplex

open Tableau

section Runs

variable {gains : List ℚ} {rows : Grid ℚ} {limits : List ℚ} {tolerance : ℚ}
  (hw : ∀ row ∈ rows, row.length = gains.length) (hl : limits.length = rows.length)

include hw hl

theorem canonical_last (htol : 0 ≤ tolerance) (cap : Nat) :
    Canonical gains.length rows.length (run tolerance cap (start gains rows limits)).last :=
  reaches_canonical htol (reaches_last _ _ _) (canonical_start hw hl)

theorem equivalent_last (htol : 0 ≤ tolerance) (cap : Nat) :
    Equivalent gains.length rows.length (start gains rows limits)
      (run tolerance cap (start gains rows limits)).last :=
  reaches_equivalent htol (reaches_last _ _ _) (canonical_start hw hl)

/-- The point of a run is in the region exactly if no limit of the last tableau is negative. -/
theorem feasible_point_iff (htol : 0 ≤ tolerance) (cap : Nat) :
    Feasible gains.length rows limits
        ((run tolerance cap (start gains rows limits)).point gains.length) ↔
      LimitsNonneg gains.length rows.length (run tolerance cap (start gains rows limits)).last := by
  have hlast := canonical_last hw hl htol cap
  have hsolves := ((equivalent_last hw hl htol cap).solves_iff _).1 hlast.solves_basicValue
  rw [Run.point_eq hlast, feasible_firsts_iff hw hl hsolves]
  exact hlast.basicValue_nonneg_iff

/-- The objective at the point of a run is the value of its last tableau. -/
theorem dot_point (htol : 0 ≤ tolerance) (cap : Nat) :
    dot gains ((run tolerance cap (start gains rows limits)).point gains.length) =
      value gains.length rows.length (run tolerance cap (start gains rows limits)).last := by
  have hlast := canonical_last hw hl htol cap
  have hequiv := equivalent_last hw hl htol cap
  have hsolves := (hequiv.solves_iff _).1 hlast.solves_basicValue
  rw [Run.point_eq hlast, ← objectiveAt_start hl, ← hequiv.objectiveAt_eq _ hsolves,
    hlast.objectiveAt_basicValue]

/-- Weak duality: where no column gains more than the tolerance, the objective at a non-negative solution
is above the value of the tableau by at most the tolerance for each unit of its columns. -/
theorem dot_firsts_le_of_optimal (htol : 0 ≤ tolerance) {cap : Nat}
    (hending : (run tolerance cap (start gains rows limits)).ending = .optimal) {z : Nat → ℚ}
    (hz : Solves gains.length rows.length (start gains rows limits) z)
    (hnonneg : ∀ j < gains.length + rows.length, 0 ≤ z j) :
    dot gains (firsts gains.length z) ≤
      value gains.length rows.length (run tolerance cap (start gains rows limits)).last +
        tolerance * ∑ j ∈ Finset.range (gains.length + rows.length), z j := by
  have hlast := canonical_last hw hl htol cap
  have hequiv := equivalent_last hw hl htol cap
  have hgains := stop_spec hlast.toShape (move_last_of_optimal hending)
  have hsum : ∑ j ∈ Finset.range (gains.length + rows.length),
      (run tolerance cap (start gains rows limits)).last.rows.cell (rows.length + 1) j * z j ≤
        tolerance * ∑ j ∈ Finset.range (gains.length + rows.length), z j := by
    rw [Finset.mul_sum]
    refine Finset.sum_le_sum fun j hj => ?_
    have hj' := Finset.mem_range.1 hj
    exact mul_le_mul_of_nonneg_right (hgains j hj') (hnonneg j hj')
  rw [← objectiveAt_start hl, ← hequiv.objectiveAt_eq _ hz, objectiveAt, Grid.excess, value]
  linarith

/-- Where no column gains at all, the objective at a point of the region is at most the value of the
tableau. -/
theorem dot_le_of_optimal {cap : Nat}
    (hending : (run 0 cap (start gains rows limits)).ending = .optimal) {y : List ℚ}
    (hy : Feasible gains.length rows limits y) :
    dot gains y ≤ value gains.length rows.length (run 0 cap (start gains rows limits)).last := by
  obtain ⟨z, hz, rfl, hnonneg⟩ := exists_solves_of_feasible hw hl hy
  have hbound := dot_firsts_le_of_optimal hw hl le_rfl hending hz hnonneg
  rwa [zero_mul, add_zero] at hbound

/-- The method gives up only where the region has a ray along which the objective grows for ever: the
entering column can take any value, since no row has a positive entry in it. -/
theorem exists_feasible_gt {cap entering : Nat}
    (hending : (run 0 cap (start gains rows limits)).ending = .unbounded entering)
    (hlimits : LimitsNonneg gains.length rows.length (run 0 cap (start gains rows limits)).last)
    (bound : ℚ) : ∃ x, Feasible gains.length rows limits x ∧ bound < dot gains x := by
  have hlast := canonical_last hw hl le_rfl cap
  have hequiv := equivalent_last hw hl le_rfl cap
  obtain ⟨he, hgain, hentries⟩ := unbounded_spec hlast.toShape (move_last_of_unbounded hending)
  set t := (run 0 cap (start gains rows limits)).last
  set gain := t.rows.cell (rows.length + 1) entering
  set corner := t.rows.cell (rows.length + 1) (gains.length + rows.length)
  -- A push beyond `(bound + corner) / gain` carries the objective above the bound.
  obtain ⟨push, hpush, hbeyond⟩ : ∃ push : ℚ, 0 ≤ push ∧ bound + corner < gain * push := by
    refine ⟨max 0 ((bound + corner) / gain + 1), le_max_left _ _, ?_⟩
    have hlt : (bound + corner) / gain < max 0 ((bound + corner) / gain + 1) :=
      (lt_add_one _).trans_le (le_max_right _ _)
    rwa [div_lt_iff₀' hgain] at hlt
  have hsolves := (hequiv.solves_iff _).1 (hlast.solves_pushed he push)
  refine ⟨firsts gains.length (pushed gains.length rows.length t entering push), ?_, ?_⟩
  · rw [feasible_firsts_iff hw hl hsolves]
    intro j _
    refine add_nonneg (spread_nonneg (fun i hi => ?_) j) ?_
    · have hloss := mul_nonpos_of_nonpos_of_nonneg (hentries i hi) hpush
      exact sub_nonneg.2 (hloss.trans (hlimits i hi))
    · split
      · exact hpush
      · exact le_rfl
  · rw [← objectiveAt_start hl, ← hequiv.objectiveAt_eq _ hsolves, hlast.objectiveAt_pushed he push]
    linarith

/-- With limits that are not negative and the tolerance zero, every run stays in the region. -/
theorem limitsNonneg_last (hlimits : ∀ v ∈ limits, 0 ≤ v) (cap : Nat) :
    LimitsNonneg gains.length rows.length (run 0 cap (start gains rows limits)).last :=
  reaches_limitsNonneg (reaches_last _ _ _) (shape_start hw hl) (limitsNonneg_start hw hl hlimits)

end Runs

/-! ## Maxima and minima -/

theorem dot_maximized (maximize : Bool) (objective x : List ℚ) :
    dot (maximized maximize objective) x =
      if maximize then dot objective x else -dot objective x := by
  cases maximize with
  | true => rfl
  | false => exact dot_map_neg objective x

/-- Better in the sense of the problem is larger in the sense of a maximum. -/
theorem improves_iff (maximize : Bool) (objective x : List ℚ) (value : ℚ) :
    Improves maximize (dot objective x) value ↔
      (if maximize then value else -value) < dot (maximized maximize objective) x := by
  rw [dot_maximized]
  cases maximize with
  | true => exact Iff.rfl
  | false => exact neg_lt_neg_iff.symm

theorem abs_dot_maximized (maximize : Bool) (objective x : List ℚ) :
    |dot (maximized maximize objective) x| = |dot objective x| := by
  rw [dot_maximized]
  split
  · rfl
  · exact abs_neg _

/-- With limits that are not negative and the tolerance zero, the point of an optimal answer is a best
point of the region, and the answer's value is the size of the objective there. -/
theorem isOptimum_of_optimal {objective : List ℚ} {constraints : Grid ℚ} {rhs : List ℚ}
    {maximize : Bool} {options : Options ℚ} {solution : Solution ℚ}
    (hw : ∀ row ∈ constraints, row.length = objective.length)
    (hl : rhs.length = constraints.length) (hrhs : ∀ b ∈ rhs, 0 ≤ b)
    (htol : options.pivotTolerance = 0)
    (hsolve : solve objective constraints rhs maximize options = .ok solution)
    (hstatus : solution.status = .optimal) :
    IsOptimum maximize objective (Feasible objective.length constraints rhs) solution.point ∧
      solution.objectiveValue = |dot objective solution.point| := by
  have hlen := length_maximized maximize objective
  rw [solve_eq hw hl, htol] at hsolve
  obtain ⟨hending, hpoint, hvalue⟩ := Run.solution_optimal hsolve hstatus
  rw [← hlen] at hw
  have hdot := dot_point hw hl le_rfl options.maxIterations.toNat
  have hfeasible := (feasible_point_iff hw hl le_rfl options.maxIterations.toNat).2
    (limitsNonneg_last hw hl hrhs _)
  have hshape := (canonical_last hw hl le_rfl options.maxIterations.toNat).toShape
  rw [hlen, ← hpoint] at hdot hfeasible
  refine ⟨⟨hfeasible, fun y hy => ?_⟩, ?_⟩
  · have hbound := dot_le_of_optimal hw hl hending (hlen.symm ▸ hy)
    rw [hlen, ← hdot, dot_maximized maximize objective solution.point] at hbound
    rw [improves_iff]
    exact not_lt.2 hbound
  · rw [hvalue, Run.objectiveValue_eq hshape, hlen, ← hdot, abs_dot_maximized]

end LinearProgram.Simplex
