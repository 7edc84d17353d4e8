import LinearProgram.Proofs.Double.Order
import LinearProgram.Proofs.Plane.Answer
/-!
# The scan for the best corner

The candidates come in the order of the loops that find them: each pair of rows with the earlier one first,
then for each row its crossings with the axes, then the origin (`Region.candidates_eq`).  The corners are those
that pass the test, in this order, and a scan with strict comparisons picks one of them.

Over the doubles the value of a corner can be NaN, also where all data are numbers, and with a NaN every
comparison fails.  So a scan that starts at a NaN never leaves it, while a scan that starts at a number passes
over every NaN and ends at the first of the best numbers.  Nothing here asks for finite data or for a sign of
the tolerances.

Proved:
* `Region.meetings_eq`, `Region.candidates_eq`: the candidates in the order of the loops.
* `scanned_best`: the place at which the scan ends.
* `solve_first_best`: which corner is the answer, and when there is none.
-/

namespace LinearProgram

/-! ## The order of the candidates -/

namespace Region

variable {α : Type} [Scalar α]

/-- The places of two of `count` rows, for each row in turn those of the rows behind it. -/
def pairs (count : Nat) : List (Nat × Nat) :=
  (List.range count).flatMap fun i => (List.range' (i + 1) (count - (i + 1))).map fun j => (i, j)

/-- The candidates of `count` borders in the order of the loops that find them. -/
def listing (detTolerance : α) (border : Nat → Border α) (count : Nat) : List (α × α) :=
  (pairs count).filterMap (fun place => (border place.1).meet detTolerance (border place.2)) ++
    (List.range count).flatMap (fun i => (border i).crossings detTolerance) ++ [(0, 0)]

theorem meetings_range' (detTolerance : α) (border : Nat → Border α) (first count : Nat) :
    meetings detTolerance ((List.range' first count).map border) =
      (List.range' first count).flatMap fun i =>
        (List.range' (i + 1) (first + count - (i + 1))).filterMap fun j =>
          (border i).meet detTolerance (border j) := by
  induction count generalizing first with
  | zero => rfl
  | succ count ih =>
    have hbehind : first + (count + 1) - (first + 1) = count := by omega
    rw [List.range'_succ, List.map_cons, meetings, List.filterMap_map, ih, List.flatMap_cons,
      hbehind, Nat.add_right_comm first 1 count]
    rfl

theorem meetings_eq (detTolerance : α) (border : Nat → Border α) (count : Nat) :
    meetings detTolerance ((List.range count).map border) =
      (pairs count).filterMap fun place =>
        (border place.1).meet detTolerance (border place.2) := by
  rw [List.range_eq_range', meetings_range', pairs, List.filterMap_flatMap, List.range_eq_range']
  refine List.flatMap_congr fun i _ => ?_
  rw [List.filterMap_map, Nat.zero_add]
  rfl

/-- The candidates are listed in the order of the loops. -/
theorem candidates_eq (detTolerance : α) (border : Nat → Border α) (count : Nat) :
    candidates detTolerance ((List.range count).map border) =
      listing detTolerance border count := by
  rw [candidates, meetings_eq, List.flatMap_map, listing]

end Region

namespace Plane

/-! ## The scan -/

/-- A value is strictly better than another in the sense of the problem.  A NaN is neither better nor
worse than anything. -/
def Better (maximize : Bool) (v w : Float) : Prop := if maximize then w < v else v < w

/-- The place in a list of values at which a scan with strict comparisons ends.  No value is better, none before
it is as good, and a NaN is left behind unless it is the first of all. -/
structure Scanned (maximize : Bool) (values : List Float) (k : Nat) : Prop where
  lt_length : k < values.length
  best : ∀ v ∈ values, ¬ Better maximize v (values.getD k 0)
  first : ∀ j < k, (values.getD j 0 == values.getD k 0) = false
  ofNaN : Scalar.isNaN (values.getD 0 0) = true → k = 0
  ofNumber : Scalar.isNaN (values.getD 0 0) = false → Scalar.isNaN (values.getD k 0) = false

theorem beats_iff_better {maximize : Bool} {y x : Float × Float × Float} :
    beats maximize y x = true ↔ Better maximize y.1 x.1 := by
  cases maximize with
  | true => exact decide_eq_true_iff
  | false => exact decide_eq_true_iff

/-- Only numbers are better or worse than anything. -/
theorem Better.isNaN {maximize : Bool} {v w : Float} (h : Better maximize v w) :
    Scalar.isNaN v = false ∧ Scalar.isNaN w = false := by
  cases maximize with
  | true => exact (LawfulScalar.isNaN_of_lt h).symm
  | false => exact LawfulScalar.isNaN_of_lt h

theorem Better.not_beq {maximize : Bool} {v w : Float} (h : Better maximize v w) :
    (w == v) = false := by
  rw [← Bool.not_eq_true]
  intro hequal
  cases maximize with
  | true => exact (Double.not_lt_of_beq hequal).1 h
  | false => exact (Double.not_lt_of_beq hequal).2 h

/-- The scan compares numbers only. -/
theorem numbersOnly_beats (maximize : Bool) :
    NumbersOnly (fun x : Float × Float × Float => !Scalar.isNaN x.1) (beats maximize) where
  number_of_beats {x y} h := by
    obtain ⟨hy, hx⟩ := (beats_iff_better.1 h).isNaN
    simp [hx, hy]
  asymm {x y} h := by
    rw [← Bool.not_eq_true, beats_iff_better]
    rw [beats_iff_better] at h
    cases maximize with
    | true => exact LawfulScalar.lt_asymm h
    | false => exact LawfulScalar.lt_asymm h
  split {x y} z hz h := by
    rw [Bool.not_eq_true'] at hz
    simp only [beats_iff_better] at h ⊢
    cases maximize with
    | true => exact (LawfulScalar.lt_or_lt z.1 hz h).symm
    | false => exact LawfulScalar.lt_or_lt z.1 hz h

/-- A scan that starts at a NaN ends there. -/
theorem Scanned.of_isNaN {maximize : Bool} {v : Float} (rest : List Float)
    (hnan : Scalar.isNaN v = true) : Scanned maximize (v :: rest) 0 := by
  refine ⟨Nat.succ_pos _, fun w _ hbetter => ?_, nofun, fun _ => rfl, id⟩
  have hnumber : Scalar.isNaN v = false := hbetter.isNaN.2
  rw [hnan] at hnumber
  cases hnumber

/-- A scan that starts at a number ends at a number that no value is better than, if none before it is as
good. -/
theorem Scanned.of_append {maximize : Bool} {earlier later : List Float} {v : Float}
    (hstart : Scalar.isNaN ((earlier ++ v :: later).getD 0 0) = false)
    (hnumber : Scalar.isNaN v = false)
    (hbest : ∀ w ∈ earlier ++ v :: later, ¬ Better maximize w v)
    (hfirst : ∀ w ∈ earlier, (w == v) = false) :
    Scanned maximize (earlier ++ v :: later) earlier.length := by
  have hvalue : (earlier ++ v :: later).getD earlier.length 0 = v := by simp
  refine ⟨by simp, ?_, fun j hj => ?_, fun hnan => ?_, fun _ => ?_⟩
  · rwa [hvalue]
  · have hearlier : (earlier ++ v :: later).getD j 0 = earlier[j] := by
      simp [List.getD_eq_getElem?_getD, List.getElem?_append_left, hj]
    rw [hvalue, hearlier]
    exact hfirst _ (List.getElem_mem hj)
  · rw [hstart] at hnan
    cases hnan
  · rwa [hvalue]

/-- The best point stands at the place at which the scan of the values ends. -/
theorem scanned_best (maximize : Bool) (c x : Float × Float) (rest : List (Float × Float)) :
    ∃ k y, (x :: rest)[k]? = some y ∧ best maximize c x rest = (value c y, y) ∧
      Scanned maximize ((x :: rest).map (value c)) k := by
  have hnumbers := numbersOnly_beats maximize
  cases hnan : Scalar.isNaN (value c x) with
  | true =>
    have hbest : best maximize c x rest = (value c x, x) :=
      hnumbers.leaderFrom_of_not_number (by simp [hnan]) _
    exact ⟨0, x, rfl, hbest, Scanned.of_isNaN _ hnan⟩
  | false =>
    obtain ⟨before, after, heq, hnumber, hbefore, hbest⟩ :=
      hnumbers.exists_leader (by simp [hnan] : (!Scalar.isNaN (value c x, x).1) = true)
        (rest.map fun y => (value c y, y))
    rw [← best, ← List.map_cons (f := fun y => (value c y, y))] at heq hbest
    rw [← best] at hnumber hbefore
    -- The list of corners is cut where the list of corners with their values is.
    obtain ⟨earlier, behind, hsplit, rfl, hbehind⟩ := List.map_eq_append_iff.1 heq
    obtain ⟨y, later, rfl, hy, -⟩ := List.map_eq_cons_iff.1 hbehind
    rw [← hy] at hnumber hbefore hbest
    have hvalues : (x :: rest).map (value c) =
        earlier.map (value c) ++ value c y :: later.map (value c) := by
      rw [hsplit, List.map_append, List.map_cons]
    have hscanned : Scanned maximize (earlier.map (value c) ++ value c y :: later.map (value c))
        (earlier.map (value c)).length := by
      refine Scanned.of_append (hvalues ▸ hnan) (by simpa using hnumber) ?_ ?_
      · intro v hv hbetter
        rw [← hvalues] at hv
        obtain ⟨z, hz, rfl⟩ := List.mem_map.1 hv
        have hbeats : beats maximize (value c z, z) (value c y, y) = true :=
          beats_iff_better.2 hbetter
        rw [hbest _ (List.mem_map_of_mem hz)] at hbeats
        cases hbeats
      · intro v hv
        obtain ⟨z, hz, rfl⟩ := List.mem_map.1 hv
        -- As good a value before it would be a number, and would have been beaten.
        rw [← Bool.not_eq_true]
        intro hequal
        have hbeats := hbefore (value c z, z) (List.mem_map_of_mem hz)
          (by simp [(Double.rank_eq_of_beq hequal).1])
        rw [(beats_iff_better.1 hbeats).not_beq] at hequal
        cases hequal
    rw [← hvalues, List.length_map] at hscanned
    exact ⟨earlier.length, y, by simp [hsplit], hy.symm, hscanned⟩

/-! ## The answer -/

section Answer

variable {objective : List Float} {rows : Grid Float} {relations : List Relation}
  {rhs : List Float} {maximize : Bool} {options : Options Float}

/-- The corners of raw data in the order in which they are found: of the candidates those that pass the test. -/
def corners (options : Options Float) (rows : Grid Float) (relations : List Relation)
    (rhs : List Float) : List (Float × Float) :=
  (Region.listing options.determinantTolerance (borderAt rows relations rhs) rows.length).filter
    (Region.holds options.feasibilityTolerance (borders rows relations rhs))

theorem feasible_eq_corners (hr : rows.length ≤ relations.length) (hl : rows.length ≤ rhs.length) :
    (surveyOf options (borders rows relations rhs)).feasible = corners options rows relations rhs := by
  rw [corners, ← Region.candidates_eq, ← borders_eq hr hl]
  rfl

/-- The first two coefficients of an objective. -/
def coefficients (objective : List Float) : Float × Float := (objective.getD 0 0, objective.getD 1 0)

theorem objective?_eq_ok_iff {c : Float × Float} :
    objective? objective = .ok c ↔ 2 ≤ objective.length ∧ coefficients objective = c := by
  rcases objective with _ | ⟨c₁, _ | ⟨c₂, rest⟩⟩
  · exact ⟨nofun, nofun⟩
  · exact ⟨nofun, fun h => absurd h.1 (by simp)⟩
  · simp [objective?, component, coefficients, bind, Except.bind, pure, Except.pure]

/-- On rows of two cells with a relation and a limit each the answer is decided by the corners.  Without one it is
that the region is empty; with one, and an objective of two coefficients, it is the corner at the place where a
scan of the values ends, with the value there. -/
theorem solve_first_best (hw : ∀ row ∈ rows, row.length = 2) (hr : rows.length ≤ relations.length)
    (hl : rows.length ≤ rhs.length) :
    ((∃ solution, solve objective rows relations rhs maximize options = .ok solution ∧
        solution.status = .infeasible) ↔ corners options rows relations rhs = []) ∧
      ((∃ solution, solve objective rows relations rhs maximize options = .ok solution ∧
        solution.status = .optimal) ↔
          corners options rows relations rhs ≠ [] ∧ 2 ≤ objective.length) ∧
      ∀ solution, solve objective rows relations rhs maximize options = .ok solution →
        solution.status = .optimal → ∃ k x, (corners options rows relations rhs)[k]? = some x ∧
          solution.point = [x.1, x.2] ∧
          solution.objectiveValue = value (coefficients objective) x ∧
          Scanned maximize
            ((corners options rows relations rhs).map (value (coefficients objective))) k := by
  rw [solve_of_borders? (borders?_eq_ok_iff.2 ⟨hw, hr, hl, rfl⟩)]
  simp only [Survey.solution_eq_ok_iff, feasible_eq_corners hr hl, objective?_eq_ok_iff]
  refine ⟨⟨?_, fun hnil => ?_⟩, ⟨?_, fun hcorners => ?_⟩, ?_⟩
  · rintro ⟨solution, ⟨hnil, -⟩ | ⟨c, x, rest, -, -, rfl⟩, hstatus⟩
    · exact hnil
    · cases hstatus
  · exact ⟨infeasible, .inl ⟨hnil, rfl⟩, rfl⟩
  · rintro ⟨solution, ⟨-, rfl⟩ | ⟨c, x, rest, hc, hcons, -⟩, hstatus⟩
    · cases hstatus
    · exact ⟨by rw [hcons]; exact List.cons_ne_nil x rest, hc.1⟩
  · obtain ⟨hne, hobjective⟩ := hcorners
    obtain ⟨x, rest, hcons⟩ := List.exists_cons_of_ne_nil hne
    exact ⟨_, .inr ⟨_, x, rest, ⟨hobjective, rfl⟩, hcons, rfl⟩, rfl⟩
  · rintro solution (⟨-, rfl⟩ | ⟨_, x, rest, ⟨-, rfl⟩, hcons, rfl⟩) hstatus
    · cases hstatus
    · obtain ⟨k, y, hy, hbest, hscanned⟩ := scanned_best maximize (coefficients objective) x rest
      rw [hcons]
      exact ⟨k, y, hy, by rw [optimum, hbest], by rw [optimum, hbest], hscanned⟩

/-- The minimum of `1e308 x₁ - 1e308 x₂` over `x₁ ≤ 10`, `x₁ - x₂ ≤ 9` and `x₂ ≤ 10`: the scan starts at a corner
where the objective is infinite, passes over one where it is NaN, and ends at the fourth. -/
theorem solve_first_best_past_nan :
    ∃ solution k, solve [1e308, -1e308] [[1, 0], [1, -1], [0, 1]] [.atMost, .atMost, .atMost]
        [10, 9, 10] false ⟨100, 0, 0, 0.5, 2⟩ = .ok solution ∧ solution.status = .optimal ∧
      solution.point = [0, 10] ∧
      ((corners ⟨100, 0, 0, 0.5, 2⟩ [[1, 0], [1, -1], [0, 1]] [.atMost, .atMost, .atMost]
        [10, 9, 10]).map fun x => Scalar.isNaN (value (1e308, -1e308) x)) =
          [false, true, false, false, false] ∧
      Scanned false ((corners ⟨100, 0, 0, 0.5, 2⟩ [[1, 0], [1, -1], [0, 1]]
        [.atMost, .atMost, .atMost] [10, 9, 10]).map (value (1e308, -1e308))) k := by
  have hdrawn : (solve (α := Float) [1e308, -1e308] [[1, 0], [1, -1], [0, 1]]
      [.atMost, .atMost, .atMost] [10, 9, 10] false ⟨100, 0, 0, 0.5, 2⟩).map
      (fun solution => (solution.status, solution.point)) = .ok (.optimal, [0, 10]) := by
    decide +kernel
  obtain ⟨solution, hsolution, hanswer⟩ := map_eq_ok_iff.1 hdrawn
  obtain ⟨hstatus, hpoint⟩ := Prod.mk.inj hanswer
  obtain ⟨k, x, -, -, -, hscanned⟩ := (solve_first_best (by decide) (by decide) (by decide)).2.2
    solution hsolution hstatus
  exact ⟨solution, k, hsolution, hstatus, hpoint, by decide +kernel, hscanned⟩

end Answer

end Plane

end LinearProgram
