import LinearProgram.Proofs.Double.Order
import LinearProgram.Proofs.Simplex.Answer
import LinearProgram.Proofs.Simplex.Snapshots
/-!
# What the tableau method divides by

The method divides in two places: the ratio test divides limits by entries of the entering column, and an
exchange divides the leaving row by its entry in that column.  The ratio test looks only at entries above the
tolerance.  The exchange looks at whichever row has the first least ratio, and that this is never one of the rows
without a limit has to be seen from the ratios: they may be NaN, negative or infinite, but one of them at least is
a number, and a number is in the way of every row without a limit (`exists_limit_of_leavingRow?`).

That nothing else is ever divided by can be said without looking into the method: whatever a division gives where the
divisor is not above the tolerance, all answers stay the same (`solve_withDivision`).  All of this holds over any lawful
scalars; over the doubles, with a tolerance that is not negative, the divisors are positive numbers or infinity.

Proved:
* `Tableau.lt_pivot_of_move`: the cell that an exchange turns on is above the tolerance.
* `run_withDivision`, `solve_withDivision`: other divisors do not occur.
* `divisors_of_solve`: every exchange on record divides by positive entries above the tolerance.
-/

namespace LinearProgram

/-! ## Another division -/

/-- The same scalars with another division. -/
@[reducible] def Scalar.withDivision {α : Type} (s : Scalar α) (divide : α → α → α) : Scalar α :=
  { s with div := divide }

/-- The same scalars and texts with another division. -/
@[reducible] def DecimalScalar.withDivision {α : Type} (s : DecimalScalar α)
    (divide : α → α → α) : DecimalScalar α :=
  { s with toScalar := s.toScalar.withDivision divide }

section Steps

variable {α : Type} [s : Scalar α] {tolerance : α} {divide : α → α → α}
  (hdivide : ∀ x y : α, tolerance < y → divide x y = x / y)

include hdivide

theorem Tableau.ratios_withDivision (t : Tableau α) (j : Nat) :
    @Tableau.ratios α (s.withDivision divide) tolerance t j = t.ratios tolerance j := by
  refine List.map_congr_left fun row _ => ?_
  change (if tolerance < row.getD j 0 then
    Ratio.ofQuotient (divide (row.getLastD 0) (row.getD j 0)) else .unlimited) = _
  split
  · next habove => rw [hdivide _ _ habove]
  · rfl

theorem Tableau.move_withDivision (t : Tableau α) :
    @Tableau.move α (s.withDivision divide) tolerance t = t.move tolerance := by
  unfold Tableau.move
  simp only [Tableau.ratios_withDivision hdivide]
  rfl

/-- A pivot on a cell above the tolerance divides by this cell only. -/
theorem Grid.pivot_withDivision {g : Grid α} {r c : Nat} (habove : tolerance < g.cell r c) :
    @Grid.pivot α (s.withDivision divide) g r c = g.pivot r c := by
  have hunit : (g.getD r []).map (divide · (g.cell r c)) = (g.getD r []).map (· / g.cell r c) :=
    List.map_congr_left fun x _ => hdivide x _ habove
  change (g.mapIdx fun i row => if i = r then (g.getD r []).map (divide · (g.cell r c)) else
    Grid.clear ((g.getD r []).map (divide · (g.cell r c))) c row) = _
  rw [hunit]
  rfl

end Steps

/-! ## The cell of an exchange -/

section Pivot

variable {α : Type} [Scalar α] [LawfulScalar α]

/-- The row that leaves has a limit. -/
theorem exists_limit_of_leavingRow? {ratios : List (Ratio α)} {row : Nat}
    (h : leavingRow? ratios = some row) : ∃ q, ratios[row]? = some (.limit q) := by
  obtain ⟨⟨ratio, hratio, hfinite⟩, leader, hlead⟩ := Tableau.leavingRow?_eq_some h
  have hget := getElem?_of_leaderIdx? hlead
  cases leader with
  | limit q => exact ⟨q, hget⟩
  | unlimited =>
    -- The lack of a limit is beaten by every limit, and one of the ratios is a number.
    have hbest := not_beats_leaderIdx? ranking_below hlead ratio hratio
    cases ratio with
    | limit q => cases hbest
    | unlimited => cases hfinite

/-- The cell that an exchange turns on is above the tolerance. -/
theorem Tableau.lt_pivot_of_move {tolerance : α} {t : Tableau α} {turn : Turn α}
    (h : t.move tolerance = .exchange turn) :
    tolerance < turn.before.rows.cell turn.row turn.entering := by
  obtain ⟨-, hrow, hbefore, hratios⟩ := move_eq_exchange h
  obtain ⟨q, hq⟩ := exists_limit_of_leavingRow? hrow
  rw [hratios, ratios, List.getElem?_map] at hq
  obtain ⟨row, hget, hratio⟩ := Option.map_eq_some_iff.1 hq
  rw [constraintRows, List.getElem?_take] at hget
  split at hget
  · have hcells : t.rows.getD turn.row [] = row := by
      rw [List.getD_eq_getElem?_getD, hget, Option.getD_some]
    rw [hbefore, Grid.cell, hcells]
    by_contra habove
    rw [if_neg habove] at hratio
    cases hratio
  · cases hget

end Pivot

namespace Simplex

/-! ## Runs and answers with another division -/

/-- A run makes the same moves with every division that agrees on divisors above the tolerance. -/
theorem run_withDivision {α : Type} [s : Scalar α] [LawfulScalar α] {tolerance : α}
    {divide : α → α → α} (hdivide : ∀ x y : α, tolerance < y → divide x y = x / y) (cap : Nat)
    (t : Tableau α) :
    @run α (s.withDivision divide) tolerance cap t = run tolerance cap t := by
  induction cap generalizing t with
  | zero => rfl
  | succ cap ih =>
    unfold run
    rw [Tableau.move_withDivision hdivide]
    cases hmove : t.move tolerance with
    | stop => rfl
    | unbounded entering => rfl
    | exchange turn =>
      have hafter : @Turn.after α (s.withDivision divide) turn = turn.after := by
        unfold Turn.after Tableau.exchange
        rw [Grid.pivot_withDivision hdivide (Tableau.lt_pivot_of_move hmove)]
      simp only [hafter, ih]

/-- And so all answers are the same. -/
theorem solve_withDivision {α : Type} [s : DecimalScalar α] [LawfulScalar α] {options : Options α}
    {divide : α → α → α} (hdivide : ∀ x y : α, options.pivotTolerance < y → divide x y = x / y)
    (objective : List α) (constraints : Grid α) (rhs : List α) (maximize : Bool) :
    @solve α (s.withDivision divide) objective constraints rhs maximize options =
      solve objective constraints rhs maximize options := by
  have hrun : @run? α (s.withDivision divide).toScalar objective constraints rhs maximize options =
      run? objective constraints rhs maximize options := by
    unfold run?
    rw [funext (run_withDivision hdivide options.maxIterations.toNat)]
    rfl
  unfold solve
  rw [hrun]
  rfl

/-! ## The divisors on record -/

/-- A double above a tolerance that is not negative: neither zero nor negative nor a NaN. -/
structure IsDivisor (tolerance x : Float) : Prop where
  above : tolerance < x
  pos : 0 < x
  ne_zero : (x == 0) = false
  isNaN : Scalar.isNaN x = false

theorem isDivisor_of_lt {tolerance x : Float} (htolerance : 0 ≤ tolerance) (h : tolerance < x) :
    IsDivisor tolerance x := by
  obtain ⟨hzero, -, hnegative⟩ := LawfulScalar.le_iff.1 htolerance
  have hpos : 0 < x := (LawfulScalar.lt_or_lt 0 hzero h).resolve_left hnegative
  refine ⟨h, hpos, ?_, (LawfulScalar.isNaN_of_lt h).2⟩
  rw [← Bool.not_eq_true]
  exact fun hequal => (Double.not_lt_of_beq hequal).2 hpos

/-- What an exchange divides by, in a tableau for `m` rows and `n` variables: for its ratios the entries of the
entering column above the tolerance, all other ratios being made without a division, and for the exchange itself
one of these entries. -/
structure DividesAt (n m : Nat) (tolerance : Float) (g : Grid Float) (ratios : List (Ratio Float))
    (row col : Nat) : Prop where
  row_lt : row < m
  col_lt : col < n + m
  pivot : IsDivisor tolerance (g.cell row col)
  ratio : ∀ i < m,
    if tolerance < g.cell i col then
      IsDivisor tolerance (g.cell i col) ∧
        ratios[i]? = some (.ofQuotient (g.cell i (n + m) / g.cell i col))
    else ratios[i]? = some .unlimited

variable {n m : Nat} {tolerance : Float}

theorem dividesAt_of_move {turn : Turn Float} (htolerance : 0 ≤ tolerance)
    (ht : turn.before.Shape n m) (hmove : turn.before.move tolerance = .exchange turn) :
    DividesAt n m tolerance turn.before.rows turn.ratios turn.row turn.entering where
  row_lt := ht.row_lt hmove
  col_lt := ht.entering_lt hmove
  pivot := isDivisor_of_lt htolerance (Tableau.lt_pivot_of_move hmove)
  ratio i hi := by
    have hget := ht.getElem?_ratios tolerance turn.entering hi
    rw [← (Tableau.move_eq_exchange hmove).2.2.2] at hget
    split
    · next habove =>
      rw [if_pos habove] at hget
      exact ⟨isDivisor_of_lt htolerance habove, hget⟩
    · next habove => rwa [if_neg habove] at hget

theorem dividesAt_of_mem_snapshots {t : Tableau Float} {cap : Nat} (htolerance : 0 ≤ tolerance)
    (ht : t.Shape n m) {s : Snapshot Float} (hs : s ∈ (run tolerance cap t).snapshots)
    {pivot : Pivot} (hpivot : s.pivot = some pivot) :
    ∃ row col : Nat, pivot = ⟨row, col⟩ ∧
      ∃ ratios, s.ratios = some ratios ∧ DividesAt n m tolerance s.tableau ratios row col := by
  obtain ⟨j, hj⟩ := List.mem_iff_getElem?.1 hs
  cases j with
  | zero =>
    rw [Run.eq_firstSnapshot hj] at hpivot
    cases hpivot
  | succ j =>
    obtain ⟨turn, hturn, hsnapshot⟩ := Run.exists_turnSnapshot hj
    obtain ⟨hreach, hmove⟩ := reaches_turn (List.mem_of_getElem? hturn)
    rw [hsnapshot] at hpivot ⊢
    exact ⟨turn.row, turn.entering, (Option.some.inj hpivot).symm, turn.ratios, rfl,
      dividesAt_of_move htolerance (hreach.shape ht) hmove⟩

/-- With a tolerance that is not negative every exchange on record, of every run and whatever the doubles, divides by
positive entries above the tolerance; and no answer or fault depends on what a division gives for any other
divisor. -/
theorem divisors_of_solve {objective : List Float} {constraints : Grid Float} {rhs : List Float}
    {maximize : Bool} {options : Options Float} (htolerance : 0 ≤ options.pivotTolerance) :
    (∀ solution, solve objective constraints rhs maximize options = .ok solution →
      ∀ s ∈ solution.iterations.getD [], ∀ pivot, s.pivot = some pivot →
        ∃ row col : Nat, pivot = ⟨row, col⟩ ∧ ∃ ratios, s.ratios = some ratios ∧
          DividesAt objective.length constraints.length options.pivotTolerance s.tableau ratios
            row col) ∧
    ∀ divide : Float → Float → Float,
      (∀ x y, IsDivisor options.pivotTolerance y → divide x y = x / y) →
        @solve Float (DecimalScalar.withDivision inferInstance divide) objective constraints rhs maximize
          options = solve objective constraints rhs maximize options := by
  refine ⟨fun solution h s hs pivot hpivot => ?_, fun divide hdivide => ?_⟩
  · obtain ⟨r, hrun, hsolution⟩ := solve_eq_ok_iff.1 h
    obtain ⟨hw, limits, hlimits, rfl⟩ := run?_eq_ok_iff.1 hrun
    rw [← length_maximized maximize objective] at hw
    rw [(Run.trace_of_solution hsolution).1] at hs
    rw [← length_maximized maximize objective]
    exact dividesAt_of_mem_snapshots htolerance
      (Tableau.shape_start hw (length_of_valuesFor? hlimits)) hs hpivot
  · exact solve_withDivision (fun x y habove => hdivide x y (isDivisor_of_lt htolerance habove))
      objective constraints rhs maximize

/-- A column with the entries `1`, `0`, infinity and NaN: the second and the last row have no limit, and the exchange
turns on infinity, for which the quotient of two infinities is a NaN. -/
theorem divisors_of_solve_infinite_entry :
    ∃ solution s, solve (α := Float) [1] [[1], [0], [1 / 0], [0 / 0]] [4, 5, 1 / 0, 3] true
        ⟨1, 0, 0, 0, 2⟩ = .ok solution ∧ s ∈ solution.iterations.getD [] ∧
      s.pivot = some ⟨2, 0⟩ ∧
      ∃ ratios, s.ratios = some ratios ∧ DividesAt 1 4 0 s.tableau ratios 2 0 := by
  have hpivots : (solve (α := Float) [1] [[1], [0], [1 / 0], [0 / 0]] [4, 5, 1 / 0, 3] true
      ⟨1, 0, 0, 0, 2⟩).map (fun solution => (solution.iterations.getD [])[1]?.map (·.pivot)) =
        .ok (some (some ⟨2, 0⟩)) := by
    decide +kernel
  obtain ⟨solution, hsolution, hsnapshot⟩ := map_eq_ok_iff.1 hpivots
  obtain ⟨s, hs, hpivot⟩ := Option.map_eq_some_iff.1 hsnapshot
  have hmem := List.mem_of_getElem? hs
  obtain ⟨row, col, hplace, hdivides⟩ := (divisors_of_solve (by decide +kernel)).1 solution hsolution
    s hmem _ hpivot
  obtain ⟨hrow, hcol⟩ := Pivot.mk.inj hplace
  obtain ⟨rfl, rfl⟩ : 2 = row ∧ 0 = col := by omega
  exact ⟨solution, s, hsolution, hmem, hpivot, hdivides⟩

end Simplex

end LinearProgram
