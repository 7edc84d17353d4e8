import LinearProgram.Proofs.Plane.Answer
import LinearProgram.Proofs.Plane.Candidates
/-!
# The order of the rows

A drawing goes through its rows in order, and through the pairs of rows with the earlier one first.  Over
the rationals it nevertheless sees them as a set.  Two borders meet in the same point whichever comes first,
and as long as the tolerance for determinants is positive no border meets a copy of itself; so the candidates
are determined by the set of rows, and so are the corners.  Which of several best corners is the first does
depend on the order, but their value does not.

Proved:
* `Region.mem_meetings_iff`: any two of the borders are met, in whichever order they stand.
* `Region.mem_feasible_congr`: the same rows have the same corners.
* `best_fst_congr`: the same corners have the same best value.
* `solve_same_rows`: the same rows have the same verdict and the same value, or fail alike.
-/

namespace LinearProgram

/-- Two answers with the same verdict and the same value. -/
structure Solution.SameOutcome (s s' : Solution ℚ) : Prop where
  status : s'.status = s.status
  objectiveValue : s'.objectiveValue = s.objectiveValue

namespace Border

variable {tolerance : ℚ}

theorem meet_comm (tolerance : ℚ) (p q : Border ℚ) : q.meet tolerance p = p.meet tolerance q := by
  rw [meet, meet, parallel, parallel, Scalar.abs_rat, Scalar.abs_rat, det_comm p q, abs_neg,
    common_comm p q]

theorem meet_self (hpos : 0 < tolerance) (p : Border ℚ) : p.meet tolerance p = none := by
  have hdet : det p p = 0 := sub_self _
  rw [meet, parallel, Scalar.abs_rat, hdet, abs_zero, decide_eq_true hpos, if_pos rfl]

end Border

namespace Region

variable {borders borders' : List (Border ℚ)} {tolerance : ℚ} {x : ℚ × ℚ}

/-- Any two of the borders are met: the one that stands later is met by the other. -/
theorem mem_meetings_iff (hpos : 0 < tolerance) :
    x ∈ meetings tolerance borders ↔
      ∃ p ∈ borders, ∃ q ∈ borders, p.meet tolerance q = some x := by
  refine ⟨mem_meetings, ?_⟩
  rintro ⟨p, hp, q, hq, hmeet⟩
  induction borders with
  | nil => exact absurd hp List.not_mem_nil
  | cons b rest ih =>
    have hfirst : ∀ b' ∈ rest, b.meet tolerance b' = some x → x ∈ meetings tolerance (b :: rest) :=
      fun b' hb' h => List.mem_append_left _ (List.mem_filterMap.2 ⟨b', hb', h⟩)
    rcases List.mem_cons.1 hp with rfl | hp'
    · rcases List.mem_cons.1 hq with rfl | hq'
      · rw [Border.meet_self hpos] at hmeet
        cases hmeet
      · exact hfirst q hq' hmeet
    · rcases List.mem_cons.1 hq with rfl | hq'
      · rw [Border.meet_comm] at hmeet
        exact hfirst p hp' hmeet
      · exact List.mem_append_right _ (ih hp' hq')

theorem mem_candidates_congr (hpos : 0 < tolerance) (hsame : ∀ b, b ∈ borders ↔ b ∈ borders') :
    x ∈ candidates tolerance borders ↔ x ∈ candidates tolerance borders' := by
  simp only [candidates, List.mem_append, List.mem_flatMap, mem_meetings_iff hpos, hsame]

theorem holds_congr (hsame : ∀ b, b ∈ borders ↔ b ∈ borders') (tolerance : ℚ) (x : ℚ × ℚ) :
    holds tolerance borders x = true ↔ holds tolerance borders' x = true := by
  simp only [holds, Bool.and_eq_true, List.all_eq_true, hsame]

/-- The same borders have the same corners. -/
theorem mem_feasible_congr {options : Options ℚ} (hpos : 0 < options.determinantTolerance)
    (hsame : ∀ b, b ∈ borders ↔ b ∈ borders') :
    x ∈ (Plane.surveyOf options borders).feasible ↔
      x ∈ (Plane.surveyOf options borders').feasible := by
  rw [Plane.surveyOf, Plane.surveyOf, List.mem_filter, List.mem_filter,
    mem_candidates_congr hpos hsame, holds_congr hsame]

end Region

namespace Plane

/-- The same corners have the same best value: neither of two best corners is better than the other. -/
theorem best_fst_congr (maximize : Bool) (c : ℚ × ℚ) {x x' : ℚ × ℚ} {rest rest' : List (ℚ × ℚ)}
    (hsame : ∀ y, y ∈ x :: rest ↔ y ∈ x' :: rest') :
    (best maximize c x' rest').1 = (best maximize c x rest).1 := by
  have hle := not_improves_best_of_subset maximize c fun y hy => (hsame y).2 hy
  have hle' := not_improves_best_of_subset maximize c fun y hy => (hsame y).1 hy
  exact eq_of_not_improves hle hle'

/-- Surveys with the same corners have the same outcome. -/
theorem Survey.agree_solution {survey survey' : Survey ℚ}
    (hsame : ∀ x, x ∈ survey.feasible ↔ x ∈ survey'.feasible) (objective : List ℚ)
    (maximize : Bool) :
    Agree Solution.SameOutcome (survey.solution objective maximize)
      (survey'.solution objective maximize) := by
  unfold Survey.solution
  cases hfeasible : survey.feasible with
  | nil =>
    have hnil : survey'.feasible = [] :=
      List.eq_nil_iff_forall_not_mem.2 fun x hx => by
        rw [← hsame, hfeasible] at hx
        exact List.not_mem_nil hx
    rw [hnil]
    exact .ok ⟨rfl, rfl⟩
  | cons x rest =>
    cases hfeasible' : survey'.feasible with
    | nil =>
      have hx : x ∈ survey'.feasible := (hsame x).1 (hfeasible ▸ List.mem_cons_self)
      rw [hfeasible'] at hx
      exact absurd hx List.not_mem_nil
    | cons x' rest' =>
      rw [hfeasible, hfeasible'] at hsame
      refine (Agree.refl (R := Eq) (fun _ => rfl) (objective? objective)).map ?_
      rintro c _ rfl
      exact ⟨rfl, best_fst_congr maximize c hsame⟩

variable {rows rows' : Grid ℚ} {relations relations' : List Relation} {rhs rhs' : List ℚ}
  {options : Options ℚ}

/-- Rows of two cells that are given again, in any order and any number, still have two cells. -/
theorem length_of_same_rows (hw : ∀ row ∈ rows, row.length = 2)
    (hr : relations'.length = rows'.length) (hl : rhs'.length = rows'.length)
    (hsame : ∀ row, row ∈ rows.zip (relations.zip rhs) ↔ row ∈ rows'.zip (relations'.zip rhs')) :
    ∀ row ∈ rows', row.length = 2 := by
  intro row hrow
  obtain ⟨i, hi, rfl⟩ := List.getElem_of_mem hrow
  have hi' : i < (rows'.zip (relations'.zip rhs')).length := by simp [hr, hl, hi]
  have hmem := (hsame _).2 (List.getElem_mem hi')
  rw [List.getElem_zip] at hmem
  exact hw _ (List.of_mem_zip hmem).1

/-- Two lists of rows, each with its relation and its limit, that hold the same rows, in whatever order and
however often, have the same outcome: the same verdict and the same value, or the same fault if the objective
is too short.  With an objective of the plane there is an answer. -/
theorem solve_same_rows (hw : ∀ row ∈ rows, row.length = 2) (hr : relations.length = rows.length)
    (hl : rhs.length = rows.length) (hr' : relations'.length = rows'.length)
    (hl' : rhs'.length = rows'.length)
    (hsame : ∀ row, row ∈ rows.zip (relations.zip rhs) ↔ row ∈ rows'.zip (relations'.zip rhs'))
    (hpos : 0 < options.determinantTolerance) (objective : List ℚ) (maximize : Bool) :
    Agree Solution.SameOutcome (solve objective rows relations rhs maximize options)
        (solve objective rows' relations' rhs' maximize options) ∧
      (2 ≤ objective.length →
        ∃ solution, solve objective rows relations rhs maximize options = .ok solution) := by
  have hw' := length_of_same_rows hw hr' hl' hsame
  have hborders : ∀ b, b ∈ borders rows relations rhs ↔ b ∈ borders rows' relations' rhs' := by
    intro b
    simp only [borders, List.mem_map, hsame]
  rw [solve_eq hw hr hl, solve_eq hw' hr' hl']
  refine ⟨Survey.agree_solution (fun x => ?_) objective maximize, fun hobjective => ?_⟩
  · exact Region.mem_feasible_congr hpos hborders
  · exact Survey.exists_solution _ hobjective maximize

/-- The maximum of `x₁ + x₂` over `x₁ + x₂ ≤ 2`, `x₁ ≤ 1` and `2x₂ ≤ 3` is taken at two corners, and the rows
backwards with one of them twice lead to the other one. -/
theorem solve_same_rows_backwards :
    ∃ s s', solve (α := ℚ) [1, 1] [[1, 1], [1, 0], [0, 2]] [.atMost, .atMost, .atMost] [2, 1, 3] true
        .standard = .ok s ∧
      solve (α := ℚ) [1, 1] [[0, 2], [1, 0], [0, 2], [1, 1]] [.atMost, .atMost, .atMost, .atMost]
        [3, 1, 3, 2] true .standard = .ok s' ∧
      s.status = .optimal ∧ s'.point ≠ s.point ∧ Solution.SameOutcome s s' := by
  have hpoints : (solve (α := ℚ) [1, 1] [[1, 1], [1, 0], [0, 2]] [.atMost, .atMost, .atMost]
        [2, 1, 3] true .standard).map (fun s => (s.status, s.point)) = .ok (.optimal, [1, 1]) ∧
      (solve (α := ℚ) [1, 1] [[0, 2], [1, 0], [0, 2], [1, 1]] [.atMost, .atMost, .atMost, .atMost]
        [3, 1, 3, 2] true .standard).map (·.point) = .ok [1 / 2, 3 / 2] := by
    decide +kernel
  obtain ⟨s, hs, hpoint⟩ := map_eq_ok_iff.1 hpoints.1
  obtain ⟨s', hs', hpoint'⟩ := map_eq_ok_iff.1 hpoints.2
  obtain ⟨hstatus, hpoint⟩ := Prod.mk.inj hpoint
  have hagree := (@solve_same_rows [[1, 1], [1, 0], [0, 2]] [[0, 2], [1, 0], [0, 2], [1, 1]]
    [.atMost, .atMost, .atMost] [.atMost, .atMost, .atMost, .atMost] [2, 1, 3] [3, 1, 3, 2] .standard
    (by decide) rfl rfl rfl rfl (by simp; tauto) (by decide +kernel) [1, 1] true).1
  rw [hs, hs'] at hagree
  refine ⟨s, s', hs, hs', hstatus, by rw [hpoint, hpoint']; decide +kernel, ?_⟩
  cases hagree with
  | ok h => exact h

end Plane

end LinearProgram
