import LinearProgram.Proofs.Plane.Answer
import LinearProgram.Proofs.Plane.Region
import Mathlib.Data.List.Flatten
/-!
# The tolerances of a drawing

A drawing has two tolerances.  That for determinants says which borders count as parallel and which
coefficients as zero, so it decides on the candidates; that for rows says how far a point may be outside,
so it decides which candidates are corners.  Over the rationals each acts in one direction: a smaller
tolerance for determinants finds the same candidates and perhaps more between them, and a larger tolerance for
rows keeps the same points and perhaps more.  Both ways no corner is lost, so an optimum stays one and can
only get better.  None of this needs a positive tolerance; but with one that is not, the code would divide by
a determinant that is zero.

Proved:
* `Region.sublist_candidates`: the candidates under a smaller tolerance for determinants.
* `Region.holds_of_le`: the points that are kept under a larger tolerance for rows.
* `sublist_feasible`: so wider tolerances lose no corner.
* `solve_widened`: an optimum stays one when the tolerances are widened, and its value gets no worse.
-/

namespace LinearProgram

/-! ## More candidates -/

namespace Border

variable {tolerance tolerance' : ℚ}

/-- Borders that are not parallel by a tolerance are not parallel by a smaller one, and meet in the same
point. -/
theorem meet_of_le (h : tolerance' ≤ tolerance) {p q : Border ℚ} {x : ℚ × ℚ}
    (hmeet : p.meet tolerance q = some x) : p.meet tolerance' q = some x := by
  simp only [meet, parallel, decide_eq_true_iff] at hmeet ⊢
  split at hmeet
  · cases hmeet
  · next hlarge => rwa [if_neg fun hsmall => hlarge (hsmall.trans_le h)]

theorem sublist_filterMap_meet (h : tolerance' ≤ tolerance) (p : Border ℚ)
    (borders : List (Border ℚ)) :
    (borders.filterMap (p.meet tolerance)).Sublist (borders.filterMap (p.meet tolerance')) := by
  rw [List.filterMap_eq_flatMap_toList, List.filterMap_eq_flatMap_toList]
  refine List.Sublist.flatMap_right borders fun q _ => ?_
  cases hmeet : p.meet tolerance q with
  | none => exact List.nil_sublist _
  | some x => rw [meet_of_le h hmeet]

/-- A coefficient that is not zero by a tolerance is not zero by a smaller one. -/
theorem sublist_crossings (h : tolerance' ≤ tolerance) (b : Border ℚ) :
    (b.crossings tolerance).Sublist (b.crossings tolerance') := by
  have hcoefficient (a : ℚ) (x : ℚ × ℚ) :
      (if tolerance < Scalar.abs a then [x] else []).Sublist
        (if tolerance' < Scalar.abs a then [x] else []) := by
    split
    · next hlarge => rw [if_pos (h.trans_lt hlarge)]
    · exact List.nil_sublist _
  exact (hcoefficient b.a₂ _).append (hcoefficient b.a₁ _)

end Border

/-! ## More corners -/

namespace Region

variable {tolerance tolerance' : ℚ}

theorem sublist_meetings (h : tolerance' ≤ tolerance) (borders : List (Border ℚ)) :
    (meetings tolerance borders).Sublist (meetings tolerance' borders) := by
  induction borders with
  | nil => exact List.Sublist.refl _
  | cons b rest ih => exact (Border.sublist_filterMap_meet h b rest).append ih

/-- A smaller tolerance for determinants finds the same candidates in the same order, and perhaps more. -/
theorem sublist_candidates (h : tolerance' ≤ tolerance) (borders : List (Border ℚ)) :
    (candidates tolerance borders).Sublist (candidates tolerance' borders) := by
  have hcrossings := List.Sublist.flatMap_right borders fun b _ => Border.sublist_crossings h b
  exact ((sublist_meetings h borders).append hcrossings).append (List.Sublist.refl _)

variable {x : ℚ × ℚ}

theorem inQuadrant_of_le (h : tolerance ≤ tolerance') (hx : inQuadrant tolerance x = true) :
    inQuadrant tolerance' x = true := by
  simp only [inQuadrant, Bool.not_eq_true', Bool.or_eq_false_iff, decide_eq_false_iff_not,
    not_lt] at hx ⊢
  exact ⟨(neg_le_neg h).trans hx.1, (neg_le_neg h).trans hx.2⟩

/-- A row keeps the points that it keeps under a smaller tolerance. -/
theorem keeps_of_le (h : tolerance ≤ tolerance') {b : Border ℚ}
    (hx : b.keeps tolerance x = true) : b.keeps tolerance' x = true := by
  obtain ⟨a₁, a₂, relation, limit⟩ := b
  cases relation with
  | atMost =>
    simp only [Border.keeps, Bool.not_eq_true', decide_eq_false_iff_not, not_lt] at hx ⊢
    exact hx.trans (add_le_add_right h limit)
  | equal =>
    simp only [Border.keeps, Bool.not_eq_true', decide_eq_false_iff_not, not_lt] at hx ⊢
    exact hx.trans h
  | atLeast =>
    simp only [Border.keeps, Bool.not_eq_true', decide_eq_false_iff_not, not_lt] at hx ⊢
    exact (sub_le_sub_left h limit).trans hx
  | other _ => rfl

/-- A larger tolerance for rows keeps the same points, and perhaps more. -/
theorem holds_of_le (h : tolerance ≤ tolerance') {borders : List (Border ℚ)}
    (hx : holds tolerance borders x = true) : holds tolerance' borders x = true := by
  rw [holds, Bool.and_eq_true, List.all_eq_true] at hx ⊢
  exact ⟨inQuadrant_of_le h hx.1, fun b hb => keeps_of_le h (hx.2 b hb)⟩

end Region

namespace Plane

variable {options options' : Options ℚ}

/-- Wider tolerances lose no corner, and leave the corners in their order. -/
theorem sublist_feasible
    (hfeasibility : options.feasibilityTolerance ≤ options'.feasibilityTolerance)
    (hdeterminant : options'.determinantTolerance ≤ options.determinantTolerance)
    (borders : List (Border ℚ)) :
    (surveyOf options borders).feasible.Sublist (surveyOf options' borders).feasible := by
  have hkept : (surveyOf options borders).feasible.Sublist
      ((Region.candidates options.determinantTolerance borders).filter
        (Region.holds options'.feasibilityTolerance borders)) :=
    List.monotone_filter_right _ fun _ hx => Region.holds_of_le hfeasibility hx
  exact hkept.trans ((Region.sublist_candidates hdeterminant borders).filter _)

/-! ## A value that is no worse -/

/-- Whatever the rows, if the tolerance for rows is made larger and that for determinants smaller, an optimal
answer stays optimal, and its value stays or gets better. -/
theorem solve_widened {objective : List ℚ} {rows : Grid ℚ} {relations : List Relation}
    {rhs : List ℚ} {maximize : Bool} {solution : Solution ℚ}
    (hfeasibility : options.feasibilityTolerance ≤ options'.feasibilityTolerance)
    (hdeterminant : options'.determinantTolerance ≤ options.determinantTolerance)
    (h : solve objective rows relations rhs maximize options = .ok solution)
    (hstatus : solution.status = .optimal) :
    ∃ solution', solve objective rows relations rhs maximize options' = .ok solution' ∧
      solution'.status = .optimal ∧
      if maximize then solution.objectiveValue ≤ solution'.objectiveValue
      else solution'.objectiveValue ≤ solution.objectiveValue := by
  obtain ⟨hdrawn, hsolution⟩ := solve_eq_ok_iff.1 h
  rcases Survey.solution_eq_ok_iff.1 hsolution with ⟨-, rfl⟩ | ⟨c, x, rest, hc, hfeasible, rfl⟩
  · cases hstatus
  · have hsublist := sublist_feasible hfeasibility hdeterminant (borders rows relations rhs)
    rw [hfeasible] at hsublist
    obtain ⟨x', rest', hfeasible'⟩ :=
      List.exists_cons_of_ne_nil (List.ne_nil_of_mem (hsublist.subset List.mem_cons_self))
    rw [hfeasible'] at hsublist
    refine ⟨optimum (borders rows relations rhs) (best maximize c x' rest'), ?_, rfl, ?_⟩
    · refine solve_eq_ok_iff.2 ⟨hdrawn, Survey.solution_eq_ok_iff.2 (.inr ?_)⟩
      exact ⟨c, x', rest', hc, hfeasible', rfl⟩
    · have hbest := not_improves_best_of_subset maximize c fun y hy => hsublist.subset hy
      cases maximize with
      | true => exact not_lt.1 hbest
      | false => exact not_lt.1 hbest

/-- The maximum of `3x₁ + 4x₂` over `x₁ + x₂ ≤ 4` and `x₁ + 3/2 x₂ ≤ 5`, with a tolerance for determinants that
takes the two borders for parallel and a smaller one that does not: their common point is a better corner. -/
theorem solve_widened_past_parallel :
    ∃ s s', solve (α := ℚ) [3, 4] [[1, 1], [1, 3 / 2]] [.atMost, .atMost] [4, 5] true
        ⟨100, 0, 0, 1, 2⟩ = .ok s ∧ s.objectiveValue = 40 / 3 ∧
      solve (α := ℚ) [3, 4] [[1, 1], [1, 3 / 2]] [.atMost, .atMost] [4, 5] true
        ⟨100, 0, 1 / 100, 1 / 10, 2⟩ = .ok s' ∧ s'.status = .optimal ∧
      s.objectiveValue ≤ s'.objectiveValue ∧ s'.objectiveValue = 14 := by
  have hvalues : (solve (α := ℚ) [3, 4] [[1, 1], [1, 3 / 2]] [.atMost, .atMost] [4, 5] true
        ⟨100, 0, 0, 1, 2⟩).map (fun s => (s.status, s.objectiveValue)) = .ok (.optimal, 40 / 3) ∧
      (solve (α := ℚ) [3, 4] [[1, 1], [1, 3 / 2]] [.atMost, .atMost] [4, 5] true
        ⟨100, 0, 1 / 100, 1 / 10, 2⟩).map (·.objectiveValue) = .ok 14 := by
    decide +kernel
  obtain ⟨s, hs, hanswer⟩ := map_eq_ok_iff.1 hvalues.1
  obtain ⟨hstatus, hvalue⟩ := Prod.mk.inj hanswer
  obtain ⟨s', hs', hstatus', hle⟩ := @solve_widened ⟨100, 0, 0, 1, 2⟩
    ⟨100, 0, 1 / 100, 1 / 10, 2⟩ _ _ _ _ _ _ (by decide +kernel) (by decide +kernel) hs hstatus
  have hvalue' := hvalues.2
  rw [hs'] at hvalue'
  exact ⟨s, s', hs, hvalue, hs', hstatus', hle, Except.ok.inj hvalue'⟩

end Plane

end LinearProgram
