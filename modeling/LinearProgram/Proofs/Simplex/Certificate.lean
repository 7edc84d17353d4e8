import LinearProgram.Proofs.Simplex.Invariants
import LinearProgram.Proofs.Simplex.Verdict
/-!
# The certificate in the last tableau

Over the rationals, with limits of any sign and a tolerance that is not negative.  Where a run ends well,
its last row proves by itself how good its value is, whether or not its point is in the region: the slack
gains, with their signs turned, are multipliers of the rows.

Proved:
* `dualFeasible_multipliers`, `dot_multipliers`: where no column gains, the multipliers are in the dual
  region `u ≥ 0`, `u A ≥ c`, and the limits come to the value of the tableau under them.
* `certificate_of_run`: at the end of a run that ended well the value bounds the objective at every
  non-negative solution up to the tolerance; with the tolerance zero the multipliers are the certificate.
-/

namespace LinearProgram

/-- Multipliers of the rows in the dual region `u ≥ 0`, `u A ≥ c` of a maximum. -/
structure DualFeasible (gains : List ℚ) (rows : Grid ℚ) (u : Nat → ℚ) : Prop where
  nonneg : ∀ i < rows.length, 0 ≤ u i
  covers : ∀ j < gains.length,
    gains.getD j 0 ≤ ∑ i ∈ Finset.range rows.length, u i * (rows.getD i []).getD j 0

namespace Tableau

/-- The slack gains with their signs turned: what the last row has taken of each first row. -/
def multipliers (n m : Nat) (t : Tableau ℚ) (i : Nat) : ℚ := -t.rows.cell (m + 1) (n + i)

variable {gains : List ℚ} {rows : Grid ℚ} {limits : List ℚ} {t : Tableau ℚ}
  (hw : ∀ row ∈ rows, row.length = gains.length) (hl : limits.length = rows.length)
  (h : Combines gains.length rows.length (start gains rows limits) t)

include hw hl h

/-- The last row is the objective less the rows under their multipliers. -/
theorem gain_eq_sub {j : Nat} (hj : j < gains.length) :
    t.rows.cell (rows.length + 1) j = gains.getD j 0 -
      ∑ i ∈ Finset.range rows.length,
        multipliers gains.length rows.length t i * (rows.getD i []).getD j 0 := by
  rw [h (rows.length + 1) (by omega) j, if_neg (by omega), cell_start_gain hl (by omega) (by omega) hj,
    sub_eq_add_neg, ← Finset.sum_neg_distrib]
  congr 1
  refine Finset.sum_congr rfl fun i hi => ?_
  rw [cell_start_variable hw hl (Finset.mem_range.1 hi) hj, multipliers, neg_mul, neg_neg]

theorem dualFeasible_multipliers
    (hstop : ∀ j < gains.length + rows.length, t.rows.cell (rows.length + 1) j ≤ 0) :
    DualFeasible gains rows (multipliers gains.length rows.length t) where
  nonneg i hi := neg_nonneg.2 (hstop (gains.length + i) (by omega))
  covers j hj := by
    have hgain := hstop j (by omega)
    rw [gain_eq_sub hw hl h hj] at hgain
    exact sub_nonpos.1 hgain

theorem dot_multipliers :
    ∑ i ∈ Finset.range rows.length, multipliers gains.length rows.length t i * limits.getD i 0 =
      value gains.length rows.length t := by
  rw [value, h (rows.length + 1) (by omega) (gains.length + rows.length), if_neg (by omega),
    cell_start_gain_slack hl (by omega) (by omega) le_rfl, zero_add, ← Finset.sum_neg_distrib]
  refine Finset.sum_congr rfl fun i hi => ?_
  rw [cell_start_limit hw hl (Finset.mem_range.1 hi), multipliers, neg_mul]

end Tableau

namespace Simplex

open Tableau

variable {objective : List ℚ} {constraints : Grid ℚ} {rhs : List ℚ} {maximize : Bool}
  {options : Options ℚ} {r : Run ℚ}

/-- The last tableau of a run that ended well is its own certificate.  No `x ≥ 0` with slacks `s ≥ 0` and
`A x + s = b` has an objective above its value by more than the tolerance for each unit of `x` and `s`.
With the tolerance zero its multipliers `u` satisfy `u ≥ 0` and `u A ≥ c`, and `u b` is its value. -/
theorem certificate_of_run (htol : 0 ≤ options.pivotTolerance)
    (hrun : run? objective constraints rhs maximize options = .ok r) {limits : List ℚ}
    (hlimits : valuesFor? constraints.length rhs = .ok limits) (hending : r.ending = .optimal) :
    (∀ z : Nat → ℚ, (∀ j < objective.length + constraints.length, 0 ≤ z j) →
      (∀ i < constraints.length, dot (constraints.getD i []) (firsts objective.length z) +
        z (objective.length + i) = limits.getD i 0) →
      dot (maximized maximize objective) (firsts objective.length z) ≤
        value objective.length constraints.length r.last +
          options.pivotTolerance *
            ∑ j ∈ Finset.range (objective.length + constraints.length), z j) ∧
      (options.pivotTolerance = 0 →
        DualFeasible (maximized maximize objective) constraints
          (multipliers objective.length constraints.length r.last) ∧
        ∑ i ∈ Finset.range constraints.length,
            multipliers objective.length constraints.length r.last i * limits.getD i 0 =
          value objective.length constraints.length r.last) := by
  obtain ⟨hw, limits', hlimits', rfl⟩ := run?_eq_ok_iff.1 hrun
  obtain rfl : limits' = limits := Except.ok.inj (hlimits'.symm.trans hlimits)
  have hl := length_of_valuesFor? hlimits
  rw [← length_maximized maximize objective] at hw ⊢
  have hlast := canonical_last hw hl htol options.maxIterations.toNat
  have hcombines := reaches_combines (reaches_last options.pivotTolerance options.maxIterations.toNat _)
    (shape_start hw hl) (combines_start hw hl)
  refine ⟨fun z hnonneg hz => ?_, fun hzero => ⟨?_, dot_multipliers hw hl hcombines⟩⟩
  · refine dot_firsts_le_of_optimal hw hl htol hending (fun i hi => ?_) hnonneg
    rw [excess_start hw hl hi, hz i hi, sub_self]
  · have hgains := stop_spec hlast.toShape (move_last_of_optimal hending)
    rw [hzero] at hgains
    exact dualFeasible_multipliers hw hl (hzero ▸ hcombines) (hzero ▸ hgains)

/-- The maximum of `x₁ - x₂` over `x₁ ≤ 4` and `-x₂ ≤ -1`: the run ends at `(4, 0)`, outside the region, and
still its last row proves that no point of the region has more than `4`. -/
theorem certificate_of_run_outside_region :
    ∃ r, run? (α := ℚ) [1, -1] [[1, 0], [0, -1]] [4, -1] true ⟨100, 0, 0, 0, 2⟩ = .ok r ∧
      r.ending = .optimal ∧ r.point 2 = [4, 0] ∧ value 2 2 r.last = 4 ∧
      (∀ z : Nat → ℚ, (∀ j < 4, 0 ≤ z j) →
        (∀ i < 2, dot ([[1, 0], [0, -1]].getD i []) (firsts 2 z) + z (2 + i) = [4, -1].getD i 0) →
        dot [1, -1] (firsts 2 z) ≤ 4) ∧
      DualFeasible [1, -1] [[1, 0], [0, -1]] (multipliers 2 2 r.last) ∧
      ∑ i ∈ Finset.range 2, multipliers 2 2 r.last i * [4, -1].getD i 0 = 4 := by
  have hrun : run? (α := ℚ) [1, -1] [[1, 0], [0, -1]] [4, -1] true ⟨100, 0, 0, 0, 2⟩ =
      .ok (run 0 100 (start (maximized true [1, -1]) [[1, 0], [0, -1]] [4, -1])) :=
    run?_eq_ok (by decide) rfl _ _
  have hending : (run 0 100 (start (α := ℚ) (maximized true [1, -1]) [[1, 0], [0, -1]]
      [4, -1])).ending = .optimal := by decide +kernel
  have hvalue : value 2 2 (run 0 100 (start (maximized true [1, -1]) [[1, 0], [0, -1]]
      [4, -1])).last = 4 := by decide +kernel
  obtain ⟨hbound, hcertificate⟩ := certificate_of_run le_rfl hrun rfl hending
  obtain ⟨hdual, hsum⟩ := hcertificate rfl
  refine ⟨_, hrun, hending, by decide +kernel, hvalue, fun z hnonneg hz => ?_, hdual,
    hsum.trans hvalue⟩
  refine (hbound z hnonneg hz).trans ?_
  rw [zero_mul, add_zero]
  exact hvalue.le

end Simplex

end LinearProgram
