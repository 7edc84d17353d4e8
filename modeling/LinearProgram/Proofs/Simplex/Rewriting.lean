import Mathlib.Algebra.BigOperators.Fin
import LinearProgram.Proofs.Simplex.Verdict
/-!
# Problems written down in another way

The order of the variables and of the rows decides which columns enter and which rows give way where
several could, and a factor on a row changes its entries, so the run on a problem that is written down
anew takes other exchanges, another number of them, and may end at another point.  What it answers does
not change.  This follows from what the verdicts mean and not from the run: the points of the one region
are those of the other with their coordinates in another order, and the objective has the same value
there; so both problems have an optimum or none, and the run finds one exactly where there is one.

Proved:
* `Rewriting.feasible_iff`, `Rewriting.isOptimum_iff`: regions and optima are rewritten point by point.
* `status_eq_optimal_iff`: unless the cap was reached, an optimum is found exactly if there is one.
* `solve_rewritten`: verdict and value of the answer do not depend on how the problem is written down.
-/

namespace LinearProgram

/-- A way to write down a problem with `n` variables and `m` rows anew: variables and rows in another order,
and each row multiplied with its limit by a positive factor. -/
structure Rewriting (n m : Nat) where
  /-- The old place of each variable. -/
  variableAt : Equiv.Perm (Fin n)
  /-- The old place of each row. -/
  rowAt : Equiv.Perm (Fin m)
  /-- What each row is multiplied by. -/
  factor : Fin m → ℚ
  factor_pos : ∀ i, 0 < factor i

namespace Rewriting

variable {n m : Nat} (w : Rewriting n m)

/-- The coordinates of an objective or of a point in the new order. -/
def vector (x : List ℚ) : List ℚ := List.ofFn fun j => x.getD (w.variableAt j) 0

/-- The new rows. -/
def rows (rows : Grid ℚ) : Grid ℚ :=
  List.ofFn fun i => (w.vector (rows.getD (w.rowAt i) [])).map (w.factor i * ·)

/-- The new limits. -/
def limits (limits : List ℚ) : List ℚ :=
  List.ofFn fun i => w.factor i * limits.getD (w.rowAt i) 0

/-! ## Points and rows -/

theorem getD_ofFn {β : Type} (f : Fin n → β) (j : Fin n) (d : β) : (List.ofFn f).getD j d = f j := by
  rw [List.getD_eq_getElem _ _ (by rw [List.length_ofFn]; exact j.isLt), List.getElem_ofFn]

@[simp]
theorem length_vector (x : List ℚ) : (w.vector x).length = n := List.length_ofFn

@[simp]
theorem length_rows (rows : Grid ℚ) : (w.rows rows).length = m := List.length_ofFn

@[simp]
theorem length_limits (limits : List ℚ) : (w.limits limits).length = m := List.length_ofFn

theorem length_of_mem_rows (rows : Grid ℚ) : ∀ row ∈ w.rows rows, row.length = n := by
  unfold Rewriting.rows
  rw [List.forall_mem_ofFn_iff]
  intro i
  rw [List.length_map, length_vector]

/-- No factor turns a limit negative. -/
theorem limits_nonneg {limits : List ℚ} (hl : limits.length = m) (h : ∀ b ∈ limits, 0 ≤ b) :
    ∀ b ∈ w.limits limits, 0 ≤ b := by
  unfold Rewriting.limits
  rw [List.forall_mem_ofFn_iff]
  intro i
  have hi : (w.rowAt i : Nat) < limits.length := by rw [hl]; exact (w.rowAt i).isLt
  rw [List.getD_eq_getElem _ _ hi]
  exact mul_nonneg (w.factor_pos i).le (h _ (List.getElem_mem hi))

/-- Every point is a rewritten one. -/
theorem exists_vector_eq {y : List ℚ} (hy : y.length = n) :
    ∃ x, x.length = n ∧ w.vector x = y := by
  subst hy
  refine ⟨List.ofFn fun j => y.getD (w.variableAt.symm j) 0, List.length_ofFn, ?_⟩
  have hcoordinate : ∀ j, (List.ofFn fun j => y.getD (w.variableAt.symm j) 0).getD
      (w.variableAt j) 0 = y[j] := by
    intro j
    rw [getD_ofFn, Equiv.symm_apply_apply, List.getD_eq_getElem _ _ j.isLt]
    rfl
  unfold Rewriting.vector
  rw [funext hcoordinate]
  exact List.ofFn_getElem

/-- A linear form keeps its values. -/
theorem dot_vector {c : List ℚ} (hc : c.length = n) (x : List ℚ) :
    dot (w.vector c) (w.vector x) = dot c x := by
  rw [dot_eq_sum (w.length_vector c).le, dot_eq_sum hc.le, Finset.sum_range, Finset.sum_range,
    ← Equiv.sum_comp w.variableAt fun j : Fin n => c.getD j 0 * x.getD j 0]
  refine Finset.sum_congr rfl fun j _ => ?_
  unfold Rewriting.vector
  rw [getD_ofFn, getD_ofFn]

theorem dot_map_mul (k : ℚ) (a x : List ℚ) : dot (a.map (k * ·)) x = k * dot a x := by
  induction a generalizing x with
  | nil => simp [dot]
  | cons a as ih =>
    cases x with
    | nil => simp [dot]
    | cons x xs =>
      rw [List.map_cons, dot_cons, dot_cons, ih]
      ring

/-! ## Regions and optima -/

section Region

variable {rows : Grid ℚ} {limits c x : List ℚ} {maximize : Bool}
  (hw : ∀ row ∈ rows, row.length = n) (hm : rows.length = m)

include hw hm

/-- A rewritten row holds at a rewritten point exactly if the row holds at the point. -/
theorem row_le_iff (limits x : List ℚ) (i : Fin m) :
    dot ((w.rows rows).getD i []) (w.vector x) ≤ (w.limits limits).getD i 0 ↔
      dot (rows.getD (w.rowAt i) []) x ≤ limits.getD (w.rowAt i) 0 := by
  have hi : (w.rowAt i : Nat) < rows.length := by rw [hm]; exact (w.rowAt i).isLt
  unfold Rewriting.rows Rewriting.limits
  rw [getD_ofFn, getD_ofFn, dot_map_mul, w.dot_vector (hw _ (Grid.getD_mem hi))]
  exact mul_le_mul_iff_right₀ (w.factor_pos i)

/-- The rewritten points of the region are the points of the rewritten region. -/
theorem feasible_iff (hx : x.length = n) :
    Feasible n (w.rows rows) (w.limits limits) (w.vector x) ↔ Feasible n rows limits x := by
  have hnonneg : (∀ v ∈ w.vector x, 0 ≤ v) ↔ ∀ v ∈ x, 0 ≤ v := by
    subst hx
    unfold Rewriting.vector
    rw [List.forall_mem_ofFn_iff,
      Equiv.forall_congr_right (e := w.variableAt) (q := fun j : Fin x.length => 0 ≤ x.getD j 0),
      List.forall_mem_iff_getElem, Fin.forall_iff]
    refine forall₂_congr fun j hj => ?_
    rw [List.getD_eq_getElem _ _ hj]
  have hwithin : (∀ i < (w.rows rows).length,
      dot ((w.rows rows).getD i []) (w.vector x) ≤ (w.limits limits).getD i 0) ↔
        ∀ i < rows.length, dot (rows.getD i []) x ≤ limits.getD i 0 := by
    rw [length_rows, hm, ← Fin.forall_iff (p := fun i : Fin m =>
        dot ((w.rows rows).getD i []) (w.vector x) ≤ (w.limits limits).getD i 0),
      ← Fin.forall_iff (p := fun i : Fin m => dot (rows.getD i []) x ≤ limits.getD i 0),
      ← Equiv.forall_congr_right (e := w.rowAt) (q := fun i : Fin m =>
        dot (rows.getD i []) x ≤ limits.getD i 0)]
    exact forall_congr' fun i => w.row_le_iff hw hm limits x i
  constructor
  · intro h
    exact ⟨hx, hnonneg.1 h.nonneg, hwithin.1 h.within⟩
  · intro h
    exact ⟨w.length_vector x, hnonneg.2 h.nonneg, hwithin.2 h.within⟩

/-- The rewritten optima are the optima of the rewritten problem. -/
theorem isOptimum_iff (hc : c.length = n) (hx : x.length = n) :
    IsOptimum maximize (w.vector c) (Feasible n (w.rows rows) (w.limits limits)) (w.vector x) ↔
      IsOptimum maximize c (Feasible n rows limits) x := by
  constructor
  · intro h
    refine ⟨(w.feasible_iff hw hm hx).1 h.mem, fun y hy => ?_⟩
    have hbest := h.best _ ((w.feasible_iff hw hm hy.length_eq).2 hy)
    rwa [w.dot_vector hc, w.dot_vector hc] at hbest
  · intro h
    refine ⟨(w.feasible_iff hw hm hx).2 h.mem, fun y hy => ?_⟩
    obtain ⟨z, hz, rfl⟩ := w.exists_vector_eq hy.length_eq
    have hbest := h.best z ((w.feasible_iff hw hm hz).1 hy)
    rwa [w.dot_vector hc, w.dot_vector hc]

/-- A problem has an optimum exactly if it has one when it is rewritten. -/
theorem exists_isOptimum_iff (hc : c.length = n) :
    (∃ y, IsOptimum maximize (w.vector c) (Feasible n (w.rows rows) (w.limits limits)) y) ↔
      ∃ x, IsOptimum maximize c (Feasible n rows limits) x := by
  constructor
  · rintro ⟨y, hy⟩
    obtain ⟨x, hx, rfl⟩ := w.exists_vector_eq hy.mem.length_eq
    exact ⟨x, (w.isOptimum_iff hw hm hc hx).1 hy⟩
  · rintro ⟨x, hx⟩
    exact ⟨w.vector x, (w.isOptimum_iff hw hm hc hx.mem.length_eq).2 hx⟩

end Region

end Rewriting

/-! ## Answers -/

namespace Simplex

section Answers

variable {objective : List ℚ} {constraints : Grid ℚ} {rhs : List ℚ} {maximize : Bool}
  {options : Options ℚ} (hw : ∀ row ∈ constraints, row.length = objective.length)
  (hl : rhs.length = constraints.length) (hrhs : ∀ b ∈ rhs, 0 ≤ b)
  (htol : options.pivotTolerance = 0)

include hw hl hrhs htol

/-- Where the answer is unbounded the problem has no optimum. -/
theorem not_isOptimum_of_unbounded {solution : Solution ℚ}
    (hsolve : solve objective constraints rhs maximize options = .ok solution)
    (hstatus : solution.status = .unbounded) (x : List ℚ) :
    ¬ IsOptimum maximize objective (Feasible objective.length constraints rhs) x := by
  intro hoptimum
  have hlen := length_maximized maximize objective
  rw [solve_eq hw hl, htol] at hsolve
  obtain ⟨entering, hending⟩ := Run.solution_unbounded hsolve hstatus
  rw [← hlen] at hw
  obtain ⟨y, hy, hbeyond⟩ := exists_feasible_gt hw hl hending (limitsNonneg_last hw hl hrhs _)
    (dot (maximized maximize objective) x)
  refine hoptimum.best y (hlen ▸ hy) ((improves_iff maximize objective y _).2 ?_)
  rwa [← dot_maximized]

/-- Unless the cap was reached, an optimum is found exactly if there is one. -/
theorem status_eq_optimal_iff {solution : Solution ℚ}
    (hsolve : solve objective constraints rhs maximize options = .ok solution)
    (hcap : solution.status ≠ .iterationLimit) :
    solution.status = .optimal ↔
      ∃ x, IsOptimum maximize objective (Feasible objective.length constraints rhs) x := by
  constructor
  · intro hstatus
    exact ⟨_, (isOptimum_of_optimal hw hl hrhs htol hsolve hstatus).1⟩
  · rintro ⟨x, hx⟩
    obtain ⟨run, -, hrun⟩ := solve_eq_ok_iff.1 hsolve
    rcases Run.status_of_solution hrun with hstatus | hstatus | hstatus
    · exact hstatus
    · exact absurd hx (not_isOptimum_of_unbounded hw hl hrhs htol hsolve hstatus x)
    · exact absurd hstatus hcap

omit hrhs htol in
theorem exists_solve (h : options.Moderate) :
    ∃ solution, solve objective constraints rhs maximize options = .ok solution :=
  exists_solve_iff.2 ⟨_, run?_eq_ok hw hl maximize options, Run.answerable_of_moderate h _ _⟩

/-- Two ways to write a problem down are both answered with moderate options.  Unless one of the answers is
that the cap was reached, they have one verdict, and if that is an optimum one value. -/
theorem solve_rewritten (w : Rewriting objective.length constraints.length) :
    (options.Moderate →
      (∃ s, solve objective constraints rhs maximize options = .ok s) ∧
      ∃ s, solve (w.vector objective) (w.rows constraints) (w.limits rhs) maximize options =
        .ok s) ∧
    ∀ s s', solve objective constraints rhs maximize options = .ok s →
      solve (w.vector objective) (w.rows constraints) (w.limits rhs) maximize options = .ok s' →
      s.status ≠ .iterationLimit → s'.status ≠ .iterationLimit →
      s'.status = s.status ∧ (s.status = .optimal → s'.objectiveValue = s.objectiveValue) := by
  have hlen := w.length_vector objective
  have hw' : ∀ row ∈ w.rows constraints, row.length = (w.vector objective).length := by
    rw [hlen]
    exact w.length_of_mem_rows constraints
  have hl' : (w.limits rhs).length = (w.rows constraints).length := by
    rw [w.length_limits, w.length_rows]
  have hrhs' := w.limits_nonneg hl hrhs
  refine ⟨fun h => ⟨exists_solve hw hl h, exists_solve hw' hl' h⟩, ?_⟩
  intro s s' hs hs' hcap hcap'
  have hoptimal := status_eq_optimal_iff hw hl hrhs htol hs hcap
  have hoptimal' := status_eq_optimal_iff hw' hl' hrhs' htol hs' hcap'
  rw [hlen, w.exists_isOptimum_iff hw rfl rfl, ← hoptimal] at hoptimal'
  obtain ⟨run, -, hrun⟩ := solve_eq_ok_iff.1 hs
  obtain ⟨run', -, hrun'⟩ := solve_eq_ok_iff.1 hs'
  refine ⟨?_, fun hstatus => ?_⟩
  · by_cases hstatus : s.status = .optimal
    · rw [hstatus, hoptimal'.2 hstatus]
    · have hunbounded := (Run.status_of_solution hrun).resolve_left hstatus
      have hunbounded' := (Run.status_of_solution hrun').resolve_left fun h =>
        hstatus (hoptimal'.1 h)
      rw [hunbounded.resolve_right hcap, hunbounded'.resolve_right hcap']
  · obtain ⟨hbest, hvalue⟩ := isOptimum_of_optimal hw hl hrhs htol hs hstatus
    obtain ⟨hbest', hvalue'⟩ := isOptimum_of_optimal hw' hl' hrhs' htol hs' (hoptimal'.2 hstatus)
    rw [hlen] at hbest'
    -- The optimum of the problem is one of the rewritten problem when it is rewritten.
    have hrewritten := (w.isOptimum_iff hw rfl rfl hbest.mem.length_eq).2 hbest
    rw [hvalue', hvalue, hbest'.dot_eq hrewritten, w.dot_vector rfl]

end Answers

/-- The maximum of `x₁ + x₂` over `x₁ + x₂ ≤ 4`, `x₂ ≤ 3`, `x₁ ≤ 3` is taken on an edge.  With the variables in
the other order, the last row first and doubled, the answer is the other end of the edge. -/
theorem solve_rewritten_other_end :
    ∃ (w : Rewriting 2 3) (s s' : Solution ℚ),
      w.vector [1, 1] = [1, 1] ∧ w.rows [[1, 1], [0, 1], [1, 0]] = [[0, 2], [1, 0], [1, 1]] ∧
      w.limits [4, 3, 3] = [6, 3, 4] ∧
      solve [1, 1] [[1, 1], [0, 1], [1, 0]] [4, 3, 3] true ⟨100, 0, 0, 0, 2⟩ = .ok s ∧
      solve [1, 1] [[0, 2], [1, 0], [1, 1]] [6, 3, 4] true ⟨100, 0, 0, 0, 2⟩ = .ok s' ∧
      s.point = [3, 1] ∧ w.vector s'.point = [1, 3] ∧
      s'.status = s.status ∧ s'.objectiveValue = s.objectiveValue := by
  let w : Rewriting 2 3 := ⟨Equiv.swap 0 1, Equiv.swap 0 2, ![2, 1, 1], by decide⟩
  have hvector : w.vector [1, 1] = [1, 1] := by decide +kernel
  have hrows : w.rows [[1, 1], [0, 1], [1, 0]] = [[0, 2], [1, 0], [1, 1]] := by decide +kernel
  have hlimits : w.limits [4, 3, 3] = [6, 3, 4] := by decide +kernel
  obtain ⟨hanswers, hsame⟩ := @solve_rewritten [1, 1] [[1, 1], [0, 1], [1, 0]] [4, 3, 3] true
    ⟨100, 0, 0, 0, 2⟩ (by decide) rfl (by decide) rfl w
  obtain ⟨⟨s, hs⟩, s', hs'⟩ := hanswers ⟨by decide, by decide, by decide +kernel⟩
  have hoptimal : (solve (α := ℚ) [1, 1] [[1, 1], [0, 1], [1, 0]] [4, 3, 3] true
      ⟨100, 0, 0, 0, 2⟩).map (fun s => (s.status, s.point)) = .ok (.optimal, [3, 1]) := by
    decide +kernel
  have hoptimal' : (solve (α := ℚ) [1, 1] [[0, 2], [1, 0], [1, 1]] [6, 3, 4] true
      ⟨100, 0, 0, 0, 2⟩).map (fun s => (s.status, w.vector s.point)) = .ok (.optimal, [1, 3]) := by
    decide +kernel
  rw [hvector, hrows, hlimits] at hs' hsame
  rw [hs] at hoptimal
  rw [hs'] at hoptimal'
  obtain ⟨hstatus, hpoint⟩ := Prod.mk.inj (Except.ok.inj hoptimal)
  obtain ⟨hstatus', hpoint'⟩ := Prod.mk.inj (Except.ok.inj hoptimal')
  obtain ⟨hverdict, hvalue⟩ := hsame s s' hs hs' (by rw [hstatus]; decide)
    (by rw [hstatus']; decide)
  exact ⟨w, s, s', hvector, hrows, hlimits, hs, hs', hpoint, hpoint', hverdict, hvalue hstatus⟩

end Simplex

end LinearProgram
