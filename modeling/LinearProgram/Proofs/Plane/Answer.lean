import LinearProgram.Plane
import LinearProgram.Proofs.Attempt
import LinearProgram.Proofs.Leader
import LinearProgram.Proofs.Feasible
/-!
# The answer of a drawing

On rows of two cells with a relation and a limit each nothing can fail: the answer depends only on the
corners that were found (`solve_eq`).  Without a corner it is the verdict that the region is empty,
and otherwise the first best corner with its value.

Proved:
* `borders?_eq_ok_iff`: which rows draw borders, over any scalars.
* `solve_eq`: the answer is that of the survey, over any scalars.
* `exists_solve_iff`: which rows are drawn at all.
* `Survey.solution_eq_ok_iff`: what a survey answers, over any scalars.
* `best_mem`: the best corner is one of the corners, and comes with its own value.
* `Survey.mem_feasible_of_valid`: so the point of a valid answer is one of the corners.
* `not_improves_best`: over the rationals no corner is better.
* `not_improves_best_of_subset`: so a drawing with more corners has no worse optimum.
-/

namespace LinearProgram.Plane

section

variable {α : Type} [Scalar α] {rows : Grid α} {relations : List Relation} {limits : List α}

/-- Rows draw borders exactly if they have two cells each, and there are relations and limits for all. -/
theorem borders?_eq_ok_iff {result : List (Border α)} :
    borders? rows relations limits = .ok result ↔
      (∀ row ∈ rows, row.length = 2) ∧ rows.length ≤ relations.length ∧
        rows.length ≤ limits.length ∧ borders rows relations limits = result := by
  constructor
  · intro h
    rw [borders?, bind_eq_ok_iff] at h
    obtain ⟨grid, hgrid, h⟩ := h
    obtain ⟨rfl, hw⟩ := gridOf?_eq_ok_iff.1 hgrid
    dsimp only at h
    split at h
    · cases h
    · split at h
      · cases h
      · next hl =>
        split at h
        · cases h
        · next hr => exact ⟨hw, not_lt.1 hr, not_lt.1 hl, Except.ok.inj h⟩
  · rintro ⟨hw, hr, hl, rfl⟩
    have hfirst : (relations.isEmpty && !rows.isEmpty) = false := by
      cases rows with
      | nil => simp
      | cons row rows =>
        cases relations with
        | nil => simp at hr
        | cons r relations => rfl
    rw [borders?, gridOf?_eq_ok_iff.2 ⟨rfl, hw⟩]
    simp [bind, Except.bind, hfirst, hr.not_gt, hl.not_gt, pure, Except.pure]

theorem length_borders (hr : rows.length ≤ relations.length) (hl : rows.length ≤ limits.length) :
    (borders rows relations limits).length = rows.length := by
  simp [borders, hr, hl]

/-- The border of a row, its relation and its limit. -/
def borderAt (rows : Grid α) (relations : List Relation) (limits : List α) (i : Nat) : Border α :=
  ⟨rows.cell i 0, rows.cell i 1, relations.getD i (.other ""), limits.getD i 0⟩

theorem borders_eq (hr : rows.length ≤ relations.length) (hl : rows.length ≤ limits.length) :
    borders rows relations limits =
      (List.range rows.length).map (borderAt rows relations limits) := by
  apply List.ext_getElem
  · rw [length_borders hr hl, List.length_map, List.length_range]
  · intro i hi hi'
    rw [List.length_map, List.length_range] at hi'
    simp [borders, borderAt, Grid.cell, hi', hi'.trans_le hr, hi'.trans_le hl]

theorem mem_borders_iff (hr : relations.length = rows.length) (hl : limits.length = rows.length)
    {b : Border α} :
    b ∈ borders rows relations limits ↔ ∃ i < rows.length, borderAt rows relations limits i = b := by
  simp [borders_eq hr.ge hl.ge]

/-- The best point is one of the points, and comes with its own value. -/
theorem best_mem (maximize : Bool) (c x : α × α) (rest : List (α × α)) :
    ∃ y ∈ x :: rest, best maximize c x rest = (value c y, y) := by
  have hmem := leaderFrom_mem (beats maximize) (value c x, x) (rest.map fun y => (value c y, y))
  rw [← List.map_cons (f := fun y => (value c y, y))] at hmem
  obtain ⟨y, hy, hbest⟩ := List.mem_map.1 hmem
  exact ⟨y, hy, hbest.symm⟩

end

/-- What draws borders is answered from their survey. -/
theorem solve_of_borders? {α : Type} [DecimalScalar α] {rows : Grid α} {relations : List Relation}
    {rhs : List α} {drawn : List (Border α)} (h : borders? rows relations rhs = .ok drawn)
    (objective : List α) (maximize : Bool) (options : Options α) :
    solve objective rows relations rhs maximize options =
      (surveyOf options drawn).solution objective maximize := by
  rw [solve, survey?, h]
  rfl

theorem solve_eq {α : Type} [DecimalScalar α] {rows : Grid α} {relations : List Relation}
    {rhs : List α} (hw : ∀ row ∈ rows, row.length = 2) (hr : relations.length = rows.length)
    (hl : rhs.length = rows.length) (objective : List α) (maximize : Bool) (options : Options α) :
    solve objective rows relations rhs maximize options =
      (surveyOf options (borders rows relations rhs)).solution objective maximize :=
  solve_of_borders? (borders?_eq_ok_iff.2 ⟨hw, hr.ge, hl.ge, rfl⟩) objective maximize options

/-- A survey has an answer to every objective of the plane. -/
theorem Survey.exists_solution {α : Type} [DecimalScalar α] (survey : Survey α)
    {objective : List α} (hobjective : 2 ≤ objective.length) (maximize : Bool) :
    ∃ solution, survey.solution objective maximize = .ok solution := by
  obtain ⟨c₁, c₂, rest, rfl⟩ : ∃ c₁ c₂ rest, objective = c₁ :: c₂ :: rest := by
    match objective, hobjective with
    | c₁ :: c₂ :: rest, _ => exact ⟨c₁, c₂, rest, rfl⟩
  unfold Survey.solution
  split
  · exact ⟨infeasible, rfl⟩
  · exact ⟨_, rfl⟩

/-- A drawing has an answer exactly if the rows draw borders and the survey of these has it. -/
theorem solve_eq_ok_iff {α : Type} [DecimalScalar α] {objective : List α} {rows : Grid α}
    {relations : List Relation} {rhs : List α} {maximize : Bool} {options : Options α}
    {solution : Solution α} :
    solve objective rows relations rhs maximize options = .ok solution ↔
      ((∀ row ∈ rows, row.length = 2) ∧ rows.length ≤ relations.length ∧ rows.length ≤ rhs.length) ∧
        (surveyOf options (borders rows relations rhs)).solution objective maximize = .ok solution := by
  simp only [solve, survey?, bind_eq_ok_iff, map_eq_ok_iff, borders?_eq_ok_iff]
  constructor
  · rintro ⟨_, ⟨_, ⟨hw, hr, hl, rfl⟩, rfl⟩, h⟩
    exact ⟨⟨hw, hr, hl⟩, h⟩
  · rintro ⟨⟨hw, hr, hl⟩, h⟩
    exact ⟨_, ⟨_, ⟨hw, hr, hl, rfl⟩, rfl⟩, h⟩

/-- With an objective of the plane, and a relation and a limit for each row, rows are drawn exactly if they
have two cells each. -/
theorem exists_solve_iff {α : Type} [DecimalScalar α] {objective : List α} {rows : Grid α}
    {relations : List Relation} {rhs : List α} {maximize : Bool} {options : Options α}
    (hobjective : objective.length = 2) (hr : relations.length = rows.length)
    (hl : rhs.length = rows.length) :
    (∃ solution, solve objective rows relations rhs maximize options = .ok solution) ↔
      ∀ row ∈ rows, row.length = 2 := by
  constructor
  · rintro ⟨solution, h⟩
    exact (solve_eq_ok_iff.1 h).1.1
  · intro hw
    rw [solve_eq hw hr hl]
    exact Survey.exists_solution _ hobjective.ge maximize

/-- What a survey answers: that the region is empty if it found no corner, and otherwise the first best
corner, for which the objective needs its two coefficients. -/
theorem Survey.solution_eq_ok_iff {α : Type} [DecimalScalar α] {survey : Survey α}
    {objective : List α} {maximize : Bool} {solution : Solution α} :
    survey.solution objective maximize = .ok solution ↔
      (survey.feasible = [] ∧ infeasible = solution) ∨
        ∃ c x rest, objective? objective = .ok c ∧ survey.feasible = x :: rest ∧
          optimum survey.borders (best maximize c x rest) = solution := by
  unfold Survey.solution
  cases hfeasible : survey.feasible with
  | nil =>
    constructor
    · intro h
      exact .inl ⟨rfl, Except.ok.inj h⟩
    · rintro (⟨-, rfl⟩ | ⟨c, x, rest, -, hcons, -⟩)
      · rfl
      · cases hcons
  | cons x rest =>
    rw [map_eq_ok_iff]
    constructor
    · rintro ⟨c, hc, hbest⟩
      exact .inr ⟨c, x, rest, hc, rfl, hbest⟩
    · rintro (⟨hnil, -⟩ | ⟨c, x', rest', hc, hcons, hbest⟩)
      · cases hnil
      · obtain ⟨rfl, rfl⟩ := List.cons.inj hcons
        exact ⟨c, hc, hbest⟩

/-- A valid answer of a survey is one of the corners that were found. -/
theorem Survey.mem_feasible_of_valid {α : Type} [DecimalScalar α] {survey : Survey α}
    {objective : List α} {maximize : Bool} {solution : Solution α}
    (h : survey.solution objective maximize = .ok solution) (hvalid : solution.valid = true) :
    ∃ x ∈ survey.feasible, solution.point = [x.1, x.2] := by
  rcases Survey.solution_eq_ok_iff.1 h with ⟨-, rfl⟩ | ⟨c, x, rest, -, hfeasible, rfl⟩
  · cases hvalid
  · obtain ⟨y, hy, hbest⟩ := best_mem maximize c x rest
    refine ⟨y, hfeasible ▸ hy, ?_⟩
    simp only [optimum, hbest]

/-! ## The best corner over the rationals -/

theorem beats_iff {maximize : Bool} {y x : ℚ × ℚ × ℚ} :
    beats maximize y x = true ↔ Improves maximize y.1 x.1 := by
  cases maximize with
  | true => simp [beats, Improves]
  | false => simp [beats, Improves]

theorem ranking_beats (maximize : Bool) :
    Ranking (beats maximize : ℚ × ℚ × ℚ → ℚ × ℚ × ℚ → Bool) where
  asymm {x y} h := by
    rw [← Bool.not_eq_true, beats_iff]
    rw [beats_iff] at h
    exact h.asymm
  split {x y} z h := by
    simp only [beats_iff] at h ⊢
    by_contra hnone
    rw [not_or] at hnone
    exact not_improves_trans hnone.1 hnone.2 h

theorem not_improves_best (maximize : Bool) (c x : ℚ × ℚ) (rest : List (ℚ × ℚ)) :
    ∀ y ∈ x :: rest, ¬ Improves maximize (value c y) (best maximize c x rest).1 := by
  intro y hy
  have hmem : (value c y, y) ∈ (value c x, x) :: rest.map fun y => (value c y, y) :=
    List.mem_map_of_mem (f := fun y => (value c y, y)) hy
  have hbest := not_beats_leaderFrom (ranking_beats maximize) _ _ _ hmem
  rw [← Bool.not_eq_true, beats_iff] at hbest
  exact hbest

/-- With more corners the best value is no worse. -/
theorem not_improves_best_of_subset (maximize : Bool) (c : ℚ × ℚ) {x x' : ℚ × ℚ}
    {rest rest' : List (ℚ × ℚ)} (hsubset : ∀ y ∈ x :: rest, y ∈ x' :: rest') :
    ¬ Improves maximize (best maximize c x rest).1 (best maximize c x' rest').1 := by
  obtain ⟨y, hy, hbest⟩ := best_mem maximize c x rest
  rw [hbest]
  exact not_improves_best maximize c x' rest' y (hsubset y hy)

end LinearProgram.Plane
