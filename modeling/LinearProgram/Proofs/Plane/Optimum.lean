import LinearProgram.Proofs.Pivot
import LinearProgram.Proofs.Plane.Answer
import LinearProgram.Proofs.Plane.Candidates
import LinearProgram.Proofs.Plane.Corner
/-!
# What the answer of a drawing means

Over the rationals, with the tolerance zero for points and one for determinants that tells what is
zero (`Sharp`).  Every corner is a candidate, so a region that is not empty shows itself by one, and a
form with a bound is best at one.

Proved:
* `exists_corner_not_improves`: no point of the region is better than all corners that were found.
* `solve_spec`: the drawing finds the region empty or gives its best corner.
* `isOptimum_of_bound`: where there is a bound on how good a point can be, the drawing gives an optimum.
* `solve_complete`: the drawing is infeasible exactly if the region is empty, and otherwise gives the best
  corner, which is the optimum if there is one.
-/

namespace LinearProgram

namespace Region

open Plane

variable {borders : List (Border ℚ)} {options : Options ℚ} {x c : ℚ × ℚ} {bound : ℚ}

theorem mem_feasible_iff (htol : options.feasibilityTolerance = 0) :
    x ∈ (surveyOf options borders).feasible ↔
      x ∈ candidates options.determinantTolerance borders ∧ Contains borders x := by
  rw [surveyOf, List.mem_filter, htol, holds_iff]

theorem exists_feasible_ge (htol : options.feasibilityTolerance = 0)
    (hsharp : Border.Sharp options.determinantTolerance borders) (hx : Contains borders x)
    (hbound : ∀ y, Contains borders y → value c y ≤ bound) :
    ∃ v ∈ (surveyOf options borders).feasible, value c x ≤ value c v := by
  obtain ⟨v, hv, hle, p, hp, q, hq, hpv, hqv, hdet⟩ := exists_corner hx hbound
  refine ⟨v, (mem_feasible_iff htol).2 ⟨?_, hv⟩, hle⟩
  rw [Border.eq_common hpv hqv hdet]
  exact common_mem_candidates hsharp hp hq hdet

/-- A region that is not empty has a corner: the form that is zero everywhere has a bound. -/
theorem feasible_ne_nil (htol : options.feasibilityTolerance = 0)
    (hsharp : Border.Sharp options.determinantTolerance borders) (hx : Contains borders x) :
    (surveyOf options borders).feasible ≠ [] := by
  have hbound : ∀ y, Contains borders y → value ((0, 0) : ℚ × ℚ) y ≤ 0 := fun y _ => by
    simp [value]
  obtain ⟨v, hv, -⟩ := exists_feasible_ge htol hsharp hx hbound
  exact List.ne_nil_of_mem hv

theorem value_neg_left (c x : ℚ × ℚ) : value (-c) x = -value c x := by
  simp only [value, Prod.fst_neg, Prod.snd_neg]
  ring

/-- No point of the region is better than all corners that were found, if there is a bound on how
good a point can be. -/
theorem exists_corner_not_improves {maximize : Bool} (htol : options.feasibilityTolerance = 0)
    (hsharp : Border.Sharp options.determinantTolerance borders) (hx : Contains borders x)
    (hbound : ∀ y, Contains borders y → ¬ Improves maximize (value c y) bound) :
    ∃ v ∈ (surveyOf options borders).feasible, ¬ Improves maximize (value c x) (value c v) := by
  cases maximize with
  | true =>
    obtain ⟨v, hv, hle⟩ := exists_feasible_ge htol hsharp hx fun y hy => not_lt.1 (hbound y hy)
    exact ⟨v, hv, not_lt.2 hle⟩
  | false =>
    have hbound' : ∀ y, Contains borders y → value (-c) y ≤ -bound := fun y hy => by
      rw [value_neg_left]
      exact neg_le_neg (not_lt.1 (hbound y hy))
    obtain ⟨v, hv, hle⟩ := exists_feasible_ge htol hsharp hx hbound'
    rw [value_neg_left, value_neg_left, neg_le_neg_iff] at hle
    exact ⟨v, hv, not_lt.2 hle⟩

/-- The best of the corners that were found is in the region, and with a bound on how good a point can
be no point is better. -/
theorem best_spec (maximize : Bool) (c : ℚ × ℚ) {rest : List (ℚ × ℚ)}
    (htol : options.feasibilityTolerance = 0)
    (hsharp : Border.Sharp options.determinantTolerance borders)
    (hfeasible : (surveyOf options borders).feasible = x :: rest) :
    ∃ v, best maximize c x rest = (value c v, v) ∧ Contains borders v ∧
      ∀ bound, (∀ y, Contains borders y → ¬ Improves maximize (value c y) bound) →
        ∀ y, Contains borders y → ¬ Improves maximize (value c y) (value c v) := by
  obtain ⟨v, hv, hbest⟩ := best_mem maximize c x rest
  rw [← hfeasible] at hv
  refine ⟨v, hbest, ((mem_feasible_iff htol).1 hv).2, fun bound hbound y hy => ?_⟩
  obtain ⟨u, hu, hyu⟩ := exists_corner_not_improves htol hsharp hy hbound
  rw [hfeasible] at hu
  have huv := not_improves_best maximize c x rest u hu
  rw [hbest] at huv
  exact not_improves_trans hyu huv

end Region

namespace Plane

/-- A point of two coordinates in the quadrant that satisfies every row under its relation. -/
structure InRegion (rows : Grid ℚ) (relations : List Relation) (limits : List ℚ) (x : List ℚ) :
    Prop where
  length_eq : x.length = 2
  nonneg : ∀ v ∈ x, 0 ≤ v
  within : ∀ i < rows.length,
    (relations.getD i (.other "")).Relates (dot (rows.getD i []) x) (limits.getD i 0)

/-- A tolerance below the size of every coefficient and not above that of the determinant of any two
rows, except for those that are zero. -/
structure Sharp (tolerance : ℚ) (rows : Grid ℚ) : Prop where
  coefficient : ∀ row ∈ rows, ∀ a ∈ row, a ≠ 0 → tolerance < |a|
  determinant : ∀ p ∈ rows, ∀ q ∈ rows, p.getD 0 0 * q.getD 1 0 - q.getD 0 0 * p.getD 1 0 ≠ 0 →
    tolerance ≤ |p.getD 0 0 * q.getD 1 0 - q.getD 0 0 * p.getD 1 0|

variable {rows : Grid ℚ} {relations : List Relation} {rhs objective : List ℚ} {options : Options ℚ}

theorem dot_pair {a : List ℚ} (ha : a.length = 2) (x : ℚ × ℚ) :
    dot a [x.1, x.2] = a.getD 0 0 * x.1 + a.getD 1 0 * x.2 := by
  obtain ⟨a₁, a₂, rfl⟩ := List.length_eq_two.1 ha
  simp [dot]

theorem inRegion_pair_iff (hw : ∀ row ∈ rows, row.length = 2) (hr : relations.length = rows.length)
    (hl : rhs.length = rows.length) (x : ℚ × ℚ) :
    InRegion rows relations rhs [x.1, x.2] ↔ Region.Contains (borders rows relations rhs) x := by
  have hallows : ∀ i < rows.length, (borderAt rows relations rhs i).Allows x ↔
      (relations.getD i (.other "")).Relates (dot (rows.getD i []) [x.1, x.2]) (rhs.getD i 0) := by
    intro i hi
    rw [dot_pair (hw _ (Grid.getD_mem hi))]
    exact Iff.rfl
  rw [Region.contains_iff]
  constructor
  · intro h
    refine ⟨⟨h.nonneg _ (by simp), h.nonneg _ (by simp)⟩, fun b hb => ?_⟩
    obtain ⟨i, hi, rfl⟩ := (mem_borders_iff hr hl).1 hb
    exact (hallows i hi).2 (h.within i hi)
  · rintro ⟨hnonneg, hborders⟩
    refine ⟨rfl, by simpa using hnonneg, fun i hi => ?_⟩
    exact (hallows i hi).1 (hborders _ ((mem_borders_iff hr hl).2 ⟨i, hi, rfl⟩))

theorem Sharp.borders {tolerance : ℚ} (h : Sharp tolerance rows)
    (hw : ∀ row ∈ rows, row.length = 2) (hr : relations.length = rows.length)
    (hl : rhs.length = rows.length) : Border.Sharp tolerance (borders rows relations rhs) := by
  have hcell : ∀ i < rows.length, ∀ j < 2, rows.cell i j ∈ rows.getD i [] :=
    fun i hi j hj => Grid.cell_mem hw hi hj
  refine ⟨fun b hb => ?_, fun b hb => ?_, fun p hp q hq => ?_⟩
  · obtain ⟨i, hi, rfl⟩ := (mem_borders_iff hr hl).1 hb
    exact h.coefficient _ (Grid.getD_mem hi) _ (hcell i hi 0 (by decide))
  · obtain ⟨i, hi, rfl⟩ := (mem_borders_iff hr hl).1 hb
    exact h.coefficient _ (Grid.getD_mem hi) _ (hcell i hi 1 (by decide))
  · obtain ⟨i, hi, rfl⟩ := (mem_borders_iff hr hl).1 hp
    obtain ⟨j, hj, rfl⟩ := (mem_borders_iff hr hl).1 hq
    exact h.determinant _ (Grid.getD_mem hi) _ (Grid.getD_mem hj)

/-- The drawing finds the region empty, or gives a point of it with its value; and if there is a bound on how good
a point can be, no point is better. -/
theorem solve_spec (maximize : Bool) (hobjective : objective.length = 2)
    (hw : ∀ row ∈ rows, row.length = 2) (hr : relations.length = rows.length)
    (hl : rhs.length = rows.length) (htol : options.feasibilityTolerance = 0)
    (hsharp : Sharp options.determinantTolerance rows) :
    ∃ solution, solve objective rows relations rhs maximize options = .ok solution ∧
      ((solution.status = .infeasible ∧ ∀ x, ¬ InRegion rows relations rhs x) ∨
        (solution.status = .optimal ∧ InRegion rows relations rhs solution.point ∧
          solution.objectiveValue = dot objective solution.point ∧
          ∀ bound, (∀ y, InRegion rows relations rhs y → ¬ Improves maximize (dot objective y) bound) →
            ∀ y, InRegion rows relations rhs y →
              ¬ Improves maximize (dot objective y) solution.objectiveValue)) := by
  have hborders : Border.Sharp options.determinantTolerance (borders rows relations rhs) :=
    hsharp.borders hw hr hl
  have hpair : ∀ x : ℚ × ℚ, InRegion rows relations rhs [x.1, x.2] ↔
      Region.Contains (borders rows relations rhs) x := inRegion_pair_iff hw hr hl
  have hpoint : ∀ x, InRegion rows relations rhs x →
      ∃ y : ℚ × ℚ, x = [y.1, y.2] ∧ Region.Contains (borders rows relations rhs) y := by
    intro x hx
    obtain ⟨x₁, x₂, rfl⟩ := List.length_eq_two.1 hx.length_eq
    exact ⟨(x₁, x₂), rfl, (hpair (x₁, x₂)).1 hx⟩
  obtain ⟨c₁, c₂, rfl⟩ := List.length_eq_two.1 hobjective
  have hvalue : ∀ y : ℚ × ℚ, dot [c₁, c₂] [y.1, y.2] = value (c₁, c₂) y := fun y => dot_pair rfl y
  rw [solve_eq hw hr hl, Survey.solution]
  cases hfeasible : (surveyOf options (borders rows relations rhs)).feasible with
  | nil =>
    refine ⟨infeasible, rfl, .inl ⟨rfl, fun x hx => ?_⟩⟩
    obtain ⟨y, -, hy⟩ := hpoint x hx
    exact Region.feasible_ne_nil htol hborders hy hfeasible
  | cons x rest =>
    obtain ⟨v, hbest, hv, hoptimum⟩ :=
      Region.best_spec maximize (c₁, c₂) htol hborders hfeasible
    refine ⟨optimum (borders rows relations rhs) (best maximize (c₁, c₂) x rest), rfl, .inr ?_⟩
    rw [hbest]
    refine ⟨rfl, (hpair v).2 hv, (hvalue v).symm, fun bound hbound y hy => ?_⟩
    obtain ⟨z, rfl, hz⟩ := hpoint y hy
    rw [hvalue]
    exact hoptimum bound (fun y hy => hvalue y ▸ hbound _ ((hpair y).2 hy)) z hz

/-- In a region that is not empty, with a bound on how good a point can be, the drawing gives a best point
and its value. -/
theorem isOptimum_of_bound {maximize : Bool} (hobjective : objective.length = 2)
    (hw : ∀ row ∈ rows, row.length = 2) (hr : relations.length = rows.length)
    (hl : rhs.length = rows.length) (htol : options.feasibilityTolerance = 0)
    (hsharp : Sharp options.determinantTolerance rows) {x : List ℚ}
    (hx : InRegion rows relations rhs x) {bound : ℚ}
    (hbound : ∀ y, InRegion rows relations rhs y → ¬ Improves maximize (dot objective y) bound) :
    ∃ solution, solve objective rows relations rhs maximize options = .ok solution ∧
      solution.status = .optimal ∧ solution.objectiveValue = dot objective solution.point ∧
      IsOptimum maximize objective (InRegion rows relations rhs) solution.point := by
  obtain ⟨solution, hsolve, ⟨-, hempty⟩ | ⟨hstatus, hpoint, hvalue, hbest⟩⟩ :=
    solve_spec maximize hobjective hw hr hl htol hsharp
  · exact absurd hx (hempty x)
  · exact ⟨solution, hsolve, hstatus, hvalue, hpoint, hvalue ▸ hbest bound hbound⟩

/-- The drawing is infeasible exactly if the region is empty.  Otherwise it gives a point of the region
with its value, and if there is a bound on how good a point can be, no point is better. -/
theorem solve_complete (maximize : Bool) (hobjective : objective.length = 2)
    (hw : ∀ row ∈ rows, row.length = 2) (hr : relations.length = rows.length)
    (hl : rhs.length = rows.length) (htol : options.feasibilityTolerance = 0)
    (hsharp : Sharp options.determinantTolerance rows) :
    ∃ solution, solve objective rows relations rhs maximize options = .ok solution ∧
      (solution.status = .infeasible ↔ ∀ x, ¬ InRegion rows relations rhs x) ∧
      ((∃ x, InRegion rows relations rhs x) → solution.status = .optimal ∧
        InRegion rows relations rhs solution.point ∧
        solution.objectiveValue = dot objective solution.point ∧
        ∀ bound, (∀ y, InRegion rows relations rhs y → ¬ Improves maximize (dot objective y) bound) →
          ∀ y, InRegion rows relations rhs y →
            ¬ Improves maximize (dot objective y) solution.objectiveValue) := by
  obtain ⟨solution, hsolve, ⟨hstatus, hempty⟩ | ⟨hstatus, hpoint, hvalue, hbest⟩⟩ :=
    solve_spec maximize hobjective hw hr hl htol hsharp
  · exact ⟨solution, hsolve, iff_of_true hstatus hempty, fun ⟨x, hx⟩ => absurd hx (hempty x)⟩
  · have hnot : ¬ solution.status = .infeasible := by rw [hstatus]; decide
    exact ⟨solution, hsolve, iff_of_false hnot fun hempty => hempty _ hpoint,
      fun _ => ⟨hstatus, hpoint, hvalue, hbest⟩⟩

/-- On the half line `x₁ - x₂ = 1`, `x₁ + 2x₂ ≥ 4` the sum of the variables has a minimum and no
maximum; a row of zeros does no harm. -/
theorem solve_complete_half_line :
    ∃ solution, solve (α := ℚ) [1, 1] [[1, -1], [1, 2], [0, 0]] [.equal, .atLeast, .atMost] [1, 4, 0]
        false ⟨100, 0, 0, 1 / 100, 2⟩ = .ok solution ∧ solution.status = .optimal ∧
      InRegion [[1, -1], [1, 2], [0, 0]] [.equal, .atLeast, .atMost] [1, 4, 0] solution.point ∧
      ∀ y, InRegion [[1, -1], [1, 2], [0, 0]] [.equal, .atLeast, .atMost] [1, 4, 0] y →
        ¬ Improves false (dot [1, 1] y) solution.objectiveValue := by
  have hsharp : Sharp (1 / 100) [[1, -1], [1, 2], [0, 0]] :=
    ⟨by decide +kernel, by decide +kernel⟩
  have hin : InRegion [[1, -1], [1, 2], [0, 0]] [.equal, .atLeast, .atMost] [1, 4, 0] [3, 2] :=
    ⟨rfl, by decide, by decide +kernel⟩
  obtain ⟨solution, hsolve, -, hoptimum⟩ := @solve_complete [[1, -1], [1, 2], [0, 0]]
    [.equal, .atLeast, .atMost] [1, 4, 0] [1, 1] ⟨100, 0, 0, 1 / 100, 2⟩ false rfl (by decide) rfl rfl
    rfl hsharp
  obtain ⟨hstatus, hpoint, -, hbest⟩ := hoptimum ⟨_, hin⟩
  refine ⟨solution, hsolve, hstatus, hpoint, hbest 0 fun y hy => ?_⟩
  obtain ⟨y₁, y₂, rfl⟩ := List.length_eq_two.1 hy.length_eq
  have hsum : dot [1, 1] [y₁, y₂] = y₁ + y₂ := by simp [dot]
  rw [hsum]
  exact not_lt.2 (add_nonneg (hy.nonneg _ (by simp)) (hy.nonneg _ (by simp)))

end Plane

end LinearProgram
