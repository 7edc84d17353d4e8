import LinearProgram.Proofs.Tableau.Canonical
/-!
# Limits stay non-negative

While no limit of a constraint row is negative the basic solution is in the region.  With the
tolerance zero an exchange keeps the limits so: the row of the pivot is divided by a positive entry,
a row without a positive entry in the entering column cannot lose, and any other row loses no more
than its limit, as its ratio is no lower than that of the pivot.
-/

namespace LinearProgram.Tableau

/-- No limit of a constraint row is negative. -/
def LimitsNonneg (n m : Nat) (t : Tableau ℚ) : Prop := ∀ i < m, 0 ≤ t.rows.cell i (n + m)

variable {n m : Nat} {s t : Tableau ℚ}

theorem Shape.limitsNonneg_iff (h : Shape n m t) :
    LimitsNonneg n m t ↔ ∀ v ∈ t.limits, 0 ≤ v := by
  constructor
  · intro hl v hv
    obtain ⟨i, hi⟩ := List.getElem?_of_mem hv
    have him : i < m := by
      rw [← h.length_limits]
      exact (List.getElem?_eq_some_iff.1 hi).1
    rw [h.getElem?_limits him, Option.some.injEq] at hi
    exact hi ▸ hl i him
  · intro hl i hi
    exact hl _ (List.mem_of_getElem? (h.getElem?_limits hi))

theorem limitsNonneg_start {objective : List ℚ} {rows : Grid ℚ} {limits : List ℚ}
    (hw : ∀ row ∈ rows, row.length = objective.length) (hl : limits.length = rows.length)
    (hlimits : ∀ v ∈ limits, 0 ≤ v) :
    LimitsNonneg objective.length rows.length (start objective rows limits) := by
  intro i hi
  have hi' : i < limits.length := by rw [hl]; exact hi
  rw [cell_start_limit hw hl hi, List.getD_eq_getElem _ _ hi']
  exact hlimits _ (List.getElem_mem hi')

/-- The least ratio takes from no row more than its limit. -/
theorem Exchanges.limitsNonneg {r j : Nat} (h : Shape n m t) (hex : Exchanges n m 0 t r j)
    (hl : LimitsNonneg n m t) : LimitsNonneg n m (t.exchange r j) := by
  intro i hi
  have hr' : r < t.rows.length := by have := hex.row_lt; rw [h.height]; omega
  have hratio : 0 ≤ t.rows.cell r (n + m) / t.rows.cell r j :=
    div_nonneg (hl r hex.row_lt) hex.pivot.le
  rw [Tableau.exchange, Grid.cell_pivot h.width hr']
  split
  · exact hratio
  · by_cases hentry : 0 < t.rows.cell i j
    · have hle := (le_div_iff₀ hentry).1 (hex.least i hi hentry)
      rw [mul_comm] at hle
      exact sub_nonneg.2 hle
    · have hloss := mul_nonpos_of_nonpos_of_nonneg (not_lt.1 hentry) hratio
      exact sub_nonneg.2 (hloss.trans (hl i hi))

theorem reaches_limitsNonneg (h : Simplex.Reaches 0 s t) (hs : Shape n m s)
    (hl : LimitsNonneg n m s) : LimitsNonneg n m t := by
  induction h with
  | refl => exact hl
  | step hreach hmove ih =>
    obtain ⟨hex, hafter⟩ := exchange_spec (hreach.shape hs) hmove
    rw [hafter]
    exact hex.limitsNonneg (hreach.shape hs) ih

end LinearProgram.Tableau
