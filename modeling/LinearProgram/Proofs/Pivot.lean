import LinearProgram.Grid
import Mathlib.Algebra.BigOperators.Field
import Mathlib.Algebra.Order.Ring.Rat
import Mathlib.Data.List.GetD
import Mathlib.Tactic.FieldSimp
import Mathlib.Tactic.Ring
/-!
# Pivots cell by cell

A pivot keeps the shape of a grid (any scalars).  Over the rationals it is given by one equation per
cell (`cell_pivot`), and a row is read as an equation in the columns: `excess` is what the row comes
to beyond its limit, the cell behind the last column.  A pivot acts on the excess of the rows exactly
as it acts on their cells (`excess_pivot`), so it keeps the solutions of the rows
(`excess_pivot_of_eq_zero`, `excess_eq_zero_of_pivot`).  A pivot in the same row, on a column that was
the unit vector of that row, undoes it (`pivot_pivot`).
-/

namespace LinearProgram.Grid

/-! ## Shape -/

section Shape

variable {α : Type}

theorem getD_mem {g : Grid α} {r : Nat} (hr : r < g.length) : g.getD r [] ∈ g := by
  rw [List.getD_eq_getElem _ _ hr]
  exact List.getElem_mem hr

variable [Scalar α]

theorem cell_mem {g : Grid α} {w : Nat} (hw : ∀ row ∈ g, row.length = w) {i j : Nat}
    (hi : i < g.length) (hj : j < w) : g.cell i j ∈ g.getD i [] := by
  have hj' : j < (g.getD i []).length := (hw _ (getD_mem hi)).symm ▸ hj
  rw [cell, List.getD_eq_getElem _ _ hj']
  exact List.getElem_mem hj'

/-- Grids of one height and width are equal if their cells are. -/
theorem ext_cell {g g' : Grid α} {w : Nat} (hheight : g.length = g'.length)
    (hw : ∀ row ∈ g, row.length = w) (hw' : ∀ row ∈ g', row.length = w)
    (hcell : ∀ i < g.length, ∀ j < w, g.cell i j = g'.cell i j) : g = g' := by
  apply List.ext_getElem hheight
  intro i hi hi'
  rw [← List.getD_eq_getElem _ [] hi, ← List.getD_eq_getElem _ [] hi']
  have hwidth : (g.getD i []).length = w := hw _ (getD_mem hi)
  apply List.ext_getElem (by rw [hwidth, hw' _ (getD_mem hi')])
  intro j hj hj'
  rw [← List.getD_eq_getElem _ 0 hj, ← List.getD_eq_getElem _ 0 hj']
  exact hcell i hi j (hwidth ▸ hj)

theorem length_clear {unit row : List α} (h : row.length = unit.length) (col : Nat) :
    (clear unit col row).length = row.length := by
  rw [clear, List.length_zipWith, ← h, Nat.min_self]

/-- The rows after a pivot. -/
theorem getD_pivot (g : Grid α) (r c : Nat) {i : Nat} (hi : i < g.length) :
    (g.pivot r c).getD i [] =
      if i = r then (g.getD r []).map (· / g.cell r c)
      else clear ((g.getD r []).map (· / g.cell r c)) c (g.getD i []) := by
  have hi' : i < (g.pivot r c).length := by rwa [length_pivot]
  rw [List.getD_eq_getElem _ _ hi, List.getD_eq_getElem _ _ hi']
  exact List.getElem_mapIdx

/-- A pivot on a row of the grid keeps the width of all rows. -/
theorem width_pivot {g : Grid α} {w : Nat} (hw : ∀ row ∈ g, row.length = w) {r : Nat}
    (hr : r < g.length) (c : Nat) : ∀ row ∈ g.pivot r c, row.length = w := by
  intro row hrow
  obtain ⟨i, hi, rfl⟩ := List.mem_mapIdx.1 hrow
  have hsource : (g.getD r []).length = w := hw _ (getD_mem hr)
  have hi' : g[i].length = w := hw _ (List.getElem_mem hi)
  split
  · rw [List.length_map, hsource]
  · rw [length_clear (by rw [List.length_map, hsource, hi']), hi']

end Shape

/-! ## Cells -/

theorem cell_of_length_le {g : Grid ℚ} {i : Nat} (hi : g.length ≤ i) (j : Nat) : g.cell i j = 0 := by
  rw [cell, List.getD_eq_default _ _ hi]
  rfl

theorem getD_clear {unit row : List ℚ} (h : row.length = unit.length) (col j : Nat) :
    (clear unit col row).getD j 0 = row.getD j 0 - row.getD col 0 * unit.getD j 0 := by
  by_cases hj : j < row.length
  · have hclear : j < (clear unit col row).length := by rwa [length_clear h]
    rw [List.getD_eq_getElem _ _ hclear, List.getD_eq_getElem _ _ hj,
      List.getD_eq_getElem _ _ (h ▸ hj : j < unit.length)]
    exact List.getElem_zipWith
  · have hj' : row.length ≤ j := not_lt.1 hj
    rw [List.getD_eq_default _ _ (by rwa [length_clear h]), List.getD_eq_default _ _ hj',
      List.getD_eq_default _ _ (h ▸ hj' : unit.length ≤ j), mul_zero, sub_zero]

theorem getD_map_div (row : List ℚ) (p : ℚ) (j : Nat) :
    (row.map (· / p)).getD j 0 = row.getD j 0 / p := by
  rw [List.getD_eq_getElem?_getD, List.getD_eq_getElem?_getD, List.getElem?_map]
  cases row[j]? with
  | none => simp
  | some x => rfl

/-- The cells after a pivot: the row of the pivot is divided by it, and every other row loses the
multiple of that row which clears the column. -/
theorem cell_pivot {g : Grid ℚ} {w : Nat} (hw : ∀ row ∈ g, row.length = w) {r : Nat}
    (hr : r < g.length) (c i j : Nat) :
    (g.pivot r c).cell i j =
      if i = r then g.cell r j / g.cell r c
      else g.cell i j - g.cell i c * (g.cell r j / g.cell r c) := by
  by_cases hi : i < g.length
  · rw [cell, getD_pivot g r c hi]
    split
    · exact getD_map_div _ _ _
    · have hlen : (g.getD i []).length = ((g.getD r []).map (· / g.cell r c)).length := by
        rw [List.length_map, hw _ (getD_mem hi), hw _ (getD_mem hr)]
      rw [getD_clear hlen, getD_map_div]
      rfl
  · have hir : i ≠ r := fun h => hi (h ▸ hr)
    have hi' : (g.pivot r c).length ≤ i := by rw [length_pivot]; exact not_lt.1 hi
    rw [if_neg hir, cell_of_length_le hi', cell_of_length_le (not_lt.1 hi),
      cell_of_length_le (not_lt.1 hi), zero_mul, sub_zero]

/-- A pivot is undone by a pivot in the same row on a column that was the unit vector of the row. -/
theorem pivot_pivot {g : Grid ℚ} {w : Nat} (hw : ∀ row ∈ g, row.length = w) {r e l : Nat}
    (hr : r < g.length) (hpivot : g.cell r e ≠ 0)
    (hunit : ∀ i < g.length, g.cell i l = if i = r then 1 else 0) : (g.pivot r e).pivot r l = g := by
  have hw' := width_pivot hw hr e
  have hr' : r < (g.pivot r e).length := by rwa [length_pivot]
  have hrow : g.cell r l = 1 := by rw [hunit r hr, if_pos rfl]
  refine ext_cell (by rw [length_pivot, length_pivot]) (width_pivot hw' hr' l) hw fun i hi j _ => ?_
  rw [length_pivot, length_pivot] at hi
  rw [cell_pivot hw' hr', cell_pivot hw hr e r, cell_pivot hw hr e r, cell_pivot hw hr e i,
    cell_pivot hw hr e i, if_pos rfl, if_pos rfl, hrow]
  -- The entry of the column is `1 / pivot` in the row of the pivot, and `-entry / pivot` in others.
  by_cases hir : i = r
  · rw [if_pos hir, hir]
    field_simp
  · rw [if_neg hir, if_neg hir, if_neg hir, hunit i hi, if_neg hir]
    field_simp
    ring

/-! ## Rows as equations -/

/-- What row `i` of a grid of so many columns comes to at `z` beyond the limit behind them. -/
def excess (g : Grid ℚ) (columns i : Nat) (z : Nat → ℚ) : ℚ :=
  (∑ j ∈ Finset.range columns, g.cell i j * z j) - g.cell i columns

theorem excess_pivot {g : Grid ℚ} {w : Nat} (hw : ∀ row ∈ g, row.length = w) {r : Nat}
    (hr : r < g.length) (c columns i : Nat) (z : Nat → ℚ) :
    (g.pivot r c).excess columns i z =
      if i = r then g.excess columns r z / g.cell r c
      else g.excess columns i z - g.cell i c * (g.excess columns r z / g.cell r c) := by
  unfold excess
  simp only [cell_pivot hw hr]
  split
  · rw [sub_div, Finset.sum_div]
    congr 1
    exact Finset.sum_congr rfl fun j _ => by ring
  · have hsum : ∑ j ∈ Finset.range columns,
        (g.cell i j - g.cell i c * (g.cell r j / g.cell r c)) * z j =
        (∑ j ∈ Finset.range columns, g.cell i j * z j) -
          g.cell i c * ((∑ j ∈ Finset.range columns, g.cell r j * z j) / g.cell r c) := by
      rw [Finset.sum_div, Finset.mul_sum, ← Finset.sum_sub_distrib]
      exact Finset.sum_congr rfl fun j _ => by ring
    rw [hsum]
    ring

/-- Where the row of the pivot has no excess, no row changes its excess. -/
theorem excess_pivot_of_eq_zero {g : Grid ℚ} {w : Nat} (hw : ∀ row ∈ g, row.length = w) {r : Nat}
    (hr : r < g.length) (c columns i : Nat) {z : Nat → ℚ} (hz : g.excess columns r z = 0) :
    (g.pivot r c).excess columns i z = g.excess columns i z := by
  rw [excess_pivot hw hr]
  split
  · next h => rw [h, hz, zero_div]
  · rw [hz, zero_div, mul_zero, sub_zero]

theorem excess_eq_zero_of_pivot {g : Grid ℚ} {w : Nat} (hw : ∀ row ∈ g, row.length = w) {r : Nat}
    (hr : r < g.length) {c : Nat} (hp : g.cell r c ≠ 0) {columns : Nat} {z : Nat → ℚ}
    (hz : (g.pivot r c).excess columns r z = 0) : g.excess columns r z = 0 := by
  rw [excess_pivot hw hr, if_pos rfl] at hz
  exact (div_eq_zero_iff.1 hz).resolve_right hp

end LinearProgram.Grid
