import LinearProgram.Proofs.Feasible
import LinearProgram.Proofs.Tableau.Shape
import Mathlib.Tactic.Linarith
/-!
# The first tableau as a system of equations

The cells of the first tableau, over any scalars, and over the rationals what they say: an assignment
to the columns solves the constraint rows when the slack of every row is what the row leaves of its
limit.  The points of the region `x ≥ 0`, `A x ≤ b` are thus the first coordinates of the
non-negative solutions (`feasible_firsts_iff`, `exists_solves_of_feasible`), and the last row is the
objective (`objectiveAt_start`).
-/

namespace LinearProgram.Tableau

section Cells

variable {α : Type} [Scalar α] {objective : List α} {rows : Grid α} {limits : List α}

theorem getD_rows_start (hl : limits.length = rows.length) {i : Nat} (hi : i < rows.length) :
    (start objective rows limits).rows.getD i [] =
      rows.getD i [] ++ unitRow rows.length i ++ [limits.getD i 0] := by
  rw [start, List.getD_append _ _ _ _ (by rw [length_startRows hl]; exact hi), getD_startRows hl hi]

theorem getD_rows_start_of_le (hl : limits.length = rows.length) {i : Nat}
    (hi : rows.length ≤ i) (hi' : i < rows.length + 2) :
    (start objective rows limits).rows.getD i [] =
      objective ++ List.replicate (rows.length + 1) 0 := by
  rw [start, List.getD_append_right _ _ _ _ (by rw [length_startRows hl]; exact hi),
    length_startRows hl]
  obtain h | h : i - rows.length = 0 ∨ i - rows.length = 1 := by omega
  · rw [h]; rfl
  · rw [h]; rfl

theorem getD_unitRow {size i k : Nat} (hk : k < size) :
    (unitRow size i : List α).getD k 0 = if k = i then 1 else 0 := by
  simp [unitRow, List.getD_eq_getElem?_getD, hk]

variable (hw : ∀ row ∈ rows, row.length = objective.length) (hl : limits.length = rows.length)

include hw hl

theorem cell_start_variable {i j : Nat} (hi : i < rows.length) (hj : j < objective.length) :
    (start objective rows limits).rows.cell i j = (rows.getD i []).getD j 0 := by
  have hlen := hw _ (Grid.getD_mem hi)
  rw [Grid.cell, getD_rows_start hl hi, List.append_assoc, List.getD_append _ _ _ _ (by omega)]

theorem cell_start_slack {i k : Nat} (hi : i < rows.length) (hk : k < rows.length) :
    (start objective rows limits).rows.cell i (objective.length + k) = if k = i then 1 else 0 := by
  have hlen := hw _ (Grid.getD_mem hi)
  rw [Grid.cell, getD_rows_start hl hi, List.append_assoc,
    List.getD_append_right _ _ _ _ (by omega), hlen, Nat.add_sub_cancel_left,
    List.getD_append _ _ _ _ (by rw [length_unitRow]; exact hk), getD_unitRow hk]

theorem cell_start_limit {i : Nat} (hi : i < rows.length) :
    (start objective rows limits).rows.cell i (objective.length + rows.length) =
      limits.getD i 0 := by
  have hlen : (rows.getD i [] ++ unitRow rows.length i).length =
      objective.length + rows.length := by
    rw [List.length_append, length_unitRow, hw _ (Grid.getD_mem hi)]
  rw [Grid.cell, getD_rows_start hl hi, List.getD_append_right _ _ _ _ (by omega), hlen,
    Nat.sub_self]
  rfl

omit hw in
theorem cell_start_gain {i j : Nat} (hi : rows.length ≤ i) (hi' : i < rows.length + 2)
    (hj : j < objective.length) :
    (start objective rows limits).rows.cell i j = objective.getD j 0 := by
  rw [Grid.cell, getD_rows_start_of_le hl hi hi', List.getD_append _ _ _ _ hj]

omit hw in
theorem cell_start_gain_slack {i k : Nat} (hi : rows.length ≤ i) (hi' : i < rows.length + 2)
    (hk : k ≤ rows.length) :
    (start objective rows limits).rows.cell i (objective.length + k) = 0 := by
  rw [Grid.cell, getD_rows_start_of_le hl hi hi', List.getD_append_right _ _ _ _ (by omega),
    Nat.add_sub_cancel_left, List.getD_replicate _ (Nat.lt_succ_of_le hk)]

end Cells

/-! ## Solutions -/

/-- An assignment to the columns that satisfies every constraint row. -/
def Solves (n m : Nat) (t : Tableau ℚ) (z : Nat → ℚ) : Prop :=
  ∀ i < m, t.rows.excess (n + m) i z = 0

/-- The objective at an assignment, as the last row has it. -/
def objectiveAt (n m : Nat) (t : Tableau ℚ) (z : Nat → ℚ) : ℚ := t.rows.excess (n + m) (m + 1) z

variable {objective : List ℚ} {rows : Grid ℚ} {limits : List ℚ}

theorem objectiveAt_start (hl : limits.length = rows.length) (z : Nat → ℚ) :
    objectiveAt objective.length rows.length (start objective rows limits) z =
      dot objective (firsts objective.length z) := by
  rw [objectiveAt, Grid.excess, Finset.sum_range_add, dot_firsts le_rfl,
    cell_start_gain_slack hl (by omega) (by omega) le_rfl, sub_zero]
  have hslack : ∑ k ∈ Finset.range rows.length,
      (start objective rows limits).rows.cell (rows.length + 1) (objective.length + k) *
        z (objective.length + k) = 0 := by
    refine Finset.sum_eq_zero fun k hk => ?_
    rw [cell_start_gain_slack hl (by omega) (by omega) (Finset.mem_range.1 hk).le, zero_mul]
  rw [hslack, add_zero]
  refine Finset.sum_congr rfl fun j hj => ?_
  rw [cell_start_gain hl (by omega) (by omega) (Finset.mem_range.1 hj)]

variable (hw : ∀ row ∈ rows, row.length = objective.length) (hl : limits.length = rows.length)

include hw hl

theorem excess_start {i : Nat} (hi : i < rows.length) (z : Nat → ℚ) :
    (start objective rows limits).rows.excess (objective.length + rows.length) i z =
      dot (rows.getD i []) (firsts objective.length z) + z (objective.length + i) -
        limits.getD i 0 := by
  rw [Grid.excess, Finset.sum_range_add, cell_start_limit hw hl hi,
    dot_firsts (hw _ (Grid.getD_mem hi)).le]
  have hslack : ∑ k ∈ Finset.range rows.length,
      (start objective rows limits).rows.cell i (objective.length + k) *
        z (objective.length + k) = z (objective.length + i) := by
    rw [Finset.sum_eq_single_of_mem i (Finset.mem_range.2 hi)]
    · rw [cell_start_slack hw hl hi hi, if_pos rfl, one_mul]
    · intro k hk hki
      rw [cell_start_slack hw hl hi (Finset.mem_range.1 hk), if_neg hki, zero_mul]
  rw [hslack]
  congr 2
  refine Finset.sum_congr rfl fun j hj => ?_
  rw [cell_start_variable hw hl hi (Finset.mem_range.1 hj)]

/-- The slack of a solution is what the row leaves of its limit. -/
theorem slack_of_solves {z : Nat → ℚ}
    (hz : Solves objective.length rows.length (start objective rows limits) z) {i : Nat}
    (hi : i < rows.length) :
    z (objective.length + i) =
      limits.getD i 0 - dot (rows.getD i []) (firsts objective.length z) := by
  have h := hz i hi
  rw [excess_start hw hl hi] at h
  linarith

/-- The first coordinates of a solution are in the region exactly if no column is negative. -/
theorem feasible_firsts_iff {z : Nat → ℚ}
    (hz : Solves objective.length rows.length (start objective rows limits) z) :
    Feasible objective.length rows limits (firsts objective.length z) ↔
      ∀ j < objective.length + rows.length, 0 ≤ z j := by
  constructor
  · intro hx j hj
    by_cases hjn : j < objective.length
    · exact hx.nonneg _ (List.mem_map_of_mem (List.mem_range.2 hjn))
    · have hi : j - objective.length < rows.length := by omega
      have hslack := slack_of_solves hw hl hz hi
      have hwithin := hx.within _ hi
      rw [Nat.add_sub_cancel' (not_lt.1 hjn)] at hslack
      linarith
  · intro hnonneg
    refine ⟨length_firsts _ _, ?_, ?_⟩
    · intro v hv
      obtain ⟨j, hj, rfl⟩ := List.mem_map.1 hv
      exact hnonneg j (by have := List.mem_range.1 hj; omega)
    · intro i hi
      have hslack := slack_of_solves hw hl hz hi
      have hpos := hnonneg (objective.length + i) (by omega)
      linarith

/-- Every point of the region is completed by its slacks to a non-negative solution. -/
theorem exists_solves_of_feasible {x : List ℚ} (hx : Feasible objective.length rows limits x) :
    ∃ z, Solves objective.length rows.length (start objective rows limits) z ∧
      firsts objective.length z = x ∧ ∀ j < objective.length + rows.length, 0 ≤ z j := by
  let z : Nat → ℚ := fun j =>
    if j < objective.length then x.getD j 0
    else limits.getD (j - objective.length) 0 - dot (rows.getD (j - objective.length) []) x
  have hfirsts : firsts objective.length z = x :=
    firsts_eq hx.length_eq fun j hj => if_pos hj
  have hsolves : Solves objective.length rows.length (start objective rows limits) z := by
    intro i hi
    have hzi : z (objective.length + i) = limits.getD i 0 - dot (rows.getD i []) x := by
      simp [z]
    rw [excess_start hw hl hi, hfirsts, hzi]
    ring
  exact ⟨z, hsolves, hfirsts, (feasible_firsts_iff hw hl hsolves).1 (hfirsts ▸ hx)⟩

end LinearProgram.Tableau
