import Mathlib.LinearAlgebra.Matrix.NonsingularInverse
import LinearProgram.Proofs.Tableau.Canonical
/-!
# The rows of a tableau as combinations of the first rows

An exchange replaces every row by a combination of rows, and the slack columns keep the account: they
hold the unit matrix in the first tableau, so the slack cells of a later row are the multiples of the
first constraint rows that went into it (`Combines`).  In matrices, with `[A | I | b]` for the first
constraint rows (`system`): the constraint rows of a tableau are its slack block times `[A | I | b]`,
and its last row is `[c | 0 | 0]` plus the slack gains times `[A | I | b]`.

Proved:
* `reaches_combines`: every tableau that is reached is such a combination.
* `constraintBlock_eq`, `gainRow_eq`: the two matrix equations.
* `isUnit_slackBlock`: at a canonical tableau the slack block is invertible, because the first columns
  of the basis are its inverse.
* `eq_of_basis_eq`: so the basis, in its order, determines the whole tableau.
-/

namespace LinearProgram.Tableau

/-! ## Combinations -/

/-- Every row of `t` is made of the constraint rows of `s`, each as often as the slack cell of that row
in `t` says; an objective row has the same row of `s` besides. -/
def Combines (n m : Nat) (s t : Tableau ℚ) : Prop :=
  ∀ i < m + 2, ∀ j, t.rows.cell i j =
    (if i < m then 0 else s.rows.cell i j) +
      ∑ k ∈ Finset.range m, t.rows.cell i (n + k) * s.rows.cell k j

variable {n m : Nat} {s t : Tableau ℚ}

theorem combines_start {gains : List ℚ} {rows : Grid ℚ} {limits : List ℚ}
    (hw : ∀ row ∈ rows, row.length = gains.length) (hl : limits.length = rows.length) :
    Combines gains.length rows.length (start gains rows limits) (start gains rows limits) := by
  intro i hi j
  split
  · next him =>
    rw [zero_add, Finset.sum_eq_single_of_mem i (Finset.mem_range.2 him)]
    · rw [cell_start_slack hw hl him him, if_pos rfl, one_mul]
    · intro k hk hki
      rw [cell_start_slack hw hl him (Finset.mem_range.1 hk), if_neg hki, zero_mul]
  · next him =>
    rw [Finset.sum_eq_zero, add_zero]
    intro k hk
    rw [cell_start_gain_slack hl (not_lt.1 him) hi (Finset.mem_range.1 hk).le, zero_mul]

/-- A combination of combinations is a combination, whatever the pivot. -/
theorem Combines.exchange (h : Combines n m s t) (ht : Shape n m t) {r : Nat} (hr : r < m)
    (c : Nat) : Combines n m s (t.exchange r c) := by
  intro i hi j
  have hr' : r < t.rows.length := by rw [ht.height]; omega
  have hrow := h r (by omega) j
  rw [if_pos hr, zero_add] at hrow
  simp only [Tableau.exchange, Grid.cell_pivot ht.width hr']
  by_cases hir : i = r
  · simp only [hir, if_true, if_pos hr, zero_add]
    rw [hrow, Finset.sum_div]
    exact Finset.sum_congr rfl fun k _ => by ring
  · simp only [if_neg hir]
    rw [h i hi j, hrow, Finset.sum_div, Finset.mul_sum, add_sub_assoc, ← Finset.sum_sub_distrib]
    congr 1
    exact Finset.sum_congr rfl fun k _ => by ring

theorem reaches_combines {tolerance : ℚ} (h : Simplex.Reaches tolerance s t) (hs : Shape n m s)
    (hcombines : Combines n m s s) : Combines n m s t := by
  induction h with
  | refl => exact hcombines
  | step hreach hmove ih =>
    obtain ⟨hex, hafter⟩ := exchange_spec (hreach.shape hs) hmove
    rw [hafter]
    exact ih.exchange (hreach.shape hs) hex.row_lt _

/-! ## In matrices -/

/-- The matrix `[A | I | b]` of a problem. -/
def system (n : Nat) (rows : Grid ℚ) (limits : List ℚ) :
    Matrix (Fin rows.length) (Fin (n + rows.length + 1)) ℚ :=
  .of fun i j =>
    if j.val < n then rows.cell i j
    else if j.val < n + rows.length then (if j.val = n + i then 1 else 0)
    else limits.getD i 0

/-- The constraint rows of a tableau. -/
def constraintBlock (n m : Nat) (t : Tableau ℚ) : Matrix (Fin m) (Fin (n + m + 1)) ℚ :=
  .of fun i j => t.rows.cell i j

/-- The slack columns of the constraint rows. -/
def slackBlock (n m : Nat) (t : Tableau ℚ) : Matrix (Fin m) (Fin m) ℚ :=
  .of fun i k => t.rows.cell i (n + k)

/-- The last row with its corner cell. -/
def gainRow (n m : Nat) (t : Tableau ℚ) : Fin (n + m + 1) → ℚ := fun j => t.rows.cell (m + 1) j

/-- The slack columns of the last row. -/
def slackGains (n m : Nat) (t : Tableau ℚ) : Fin m → ℚ := fun k => t.rows.cell (m + 1) (n + k)

/-- The row `[c | 0 | 0]` of an objective. -/
def objectiveCells (columns : Nat) (objective : List ℚ) : Fin columns → ℚ :=
  fun j => objective.getD j 0

variable {gains : List ℚ} {rows : Grid ℚ} {limits : List ℚ}

theorem cell_start_eq_system (hw : ∀ row ∈ rows, row.length = gains.length)
    (hl : limits.length = rows.length) (i : Fin rows.length)
    (j : Fin (gains.length + rows.length + 1)) :
    (start gains rows limits).rows.cell i j = system gains.length rows limits i j := by
  rw [system, Matrix.of_apply]
  split
  · next hj => exact cell_start_variable hw hl i.2 hj
  · next hj =>
    obtain ⟨k, hk⟩ : ∃ k, j.val = gains.length + k := ⟨j - gains.length, by omega⟩
    rw [hk]
    split
    · next hk' =>
      rw [cell_start_slack hw hl i.2 (by omega)]
      exact if_congr (by omega) rfl rfl
    · next hk' =>
      obtain rfl : k = rows.length := by omega
      exact cell_start_limit hw hl i.2

theorem cell_start_eq_objectiveCells (hl : limits.length = rows.length)
    (j : Fin (gains.length + rows.length + 1)) :
    (start gains rows limits).rows.cell (rows.length + 1) j =
      objectiveCells (gains.length + rows.length + 1) gains j := by
  rw [objectiveCells]
  by_cases hj : j.val < gains.length
  · exact cell_start_gain hl (by omega) (by omega) hj
  · obtain ⟨k, hk⟩ : ∃ k, j.val = gains.length + k := ⟨j - gains.length, by omega⟩
    rw [hk, cell_start_gain_slack hl (by omega) (by omega) (by omega),
      List.getD_eq_default _ _ (by omega)]

section

variable (hw : ∀ row ∈ rows, row.length = gains.length) (hl : limits.length = rows.length)
  (h : Combines gains.length rows.length (start gains rows limits) t)

include hw hl h

theorem constraintBlock_eq :
    constraintBlock gains.length rows.length t =
      slackBlock gains.length rows.length t * system gains.length rows limits := by
  ext i j
  rw [constraintBlock, Matrix.of_apply, h i (by omega) j, if_pos i.2, zero_add, Matrix.mul_apply,
    Finset.sum_range]
  refine Finset.sum_congr rfl fun k _ => ?_
  rw [cell_start_eq_system hw hl]
  rfl

theorem gainRow_eq :
    gainRow gains.length rows.length t =
      objectiveCells (gains.length + rows.length + 1) gains +
        Matrix.vecMul (slackGains gains.length rows.length t) (system gains.length rows limits) := by
  funext j
  rw [gainRow, h (rows.length + 1) (by omega) j, if_neg (by omega), Finset.sum_range,
    cell_start_eq_objectiveCells hl, Pi.add_apply, Matrix.vecMul, dotProduct]
  congr 1
  refine Finset.sum_congr rfl fun k _ => ?_
  rw [cell_start_eq_system hw hl]
  rfl

end

/-! ## The basis determines the tableau -/

/-- The columns of the basis of `t` as they are in the constraint rows of `s`. -/
def basisBlock (m : Nat) (s t : Tableau ℚ) : Matrix (Fin m) (Fin m) ℚ :=
  .of fun k i => s.rows.cell k (t.basis.getD i 0)

/-- The columns of the basis are unit vectors in `t`, so the same columns of `s` are the inverse of the
slack block. -/
theorem Canonical.slackBlock_mul_basisBlock (ht : Canonical n m t) (h : Combines n m s t) :
    slackBlock n m t * basisBlock m s t = 1 := by
  ext i k
  have hunit := h i (by omega) (t.basis.getD k 0)
  rw [if_pos i.2, zero_add, ht.unit k k.2 i (by omega), Finset.sum_range] at hunit
  rw [Matrix.mul_apply, Matrix.one_apply, ← if_congr Fin.val_inj rfl rfl, hunit]
  rfl

theorem Canonical.isUnit_slackBlock (ht : Canonical n m t) (h : Combines n m s t) :
    IsUnit (slackBlock n m t) :=
  IsUnit.of_mul_eq_one _ (ht.slackBlock_mul_basisBlock h)

section

variable {u : Tableau ℚ} (ht : Canonical n m t) (hu : Canonical n m u) (hst : Combines n m s t)
  (hsu : Combines n m s u) (hbasis : t.basis = u.basis)

include ht hu hst hsu hbasis

/-- The slack cells of a row are what clears the row in the columns of the basis, and there is only one
way to do that. -/
theorem Canonical.cell_slack_eq {i : Nat} (hi : i < m + 2) {k : Nat} (hk : k < m) :
    t.rows.cell i (n + k) = u.rows.cell i (n + k) := by
  let d : Fin m → ℚ := fun k => t.rows.cell i (n + k) - u.rows.cell i (n + k)
  have hclear : Matrix.vecMul d (basisBlock m s t) = 0 := by
    funext p
    have hrow := hst i hi (t.basis.getD p 0)
    have hrow' := hsu i hi (t.basis.getD p 0)
    rw [ht.unit p p.2 i hi, Finset.sum_range] at hrow
    rw [hbasis, hu.unit p p.2 i hi, ← hbasis, Finset.sum_range] at hrow'
    have hsum := hrow.symm.trans hrow'
    rw [add_right_inj, ← sub_eq_zero, ← Finset.sum_sub_distrib] at hsum
    rw [Matrix.vecMul, dotProduct, Pi.zero_apply, ← hsum]
    exact Finset.sum_congr rfl fun k _ => sub_mul _ _ _
  have hinverse : basisBlock m s t * slackBlock n m t = 1 :=
    mul_eq_one_comm.1 (ht.slackBlock_mul_basisBlock hst)
  have hzero : d = 0 := calc
    d = Matrix.vecMul d (basisBlock m s t * slackBlock n m t) := by rw [hinverse, Matrix.vecMul_one]
    _ = Matrix.vecMul (Matrix.vecMul d (basisBlock m s t)) (slackBlock n m t) :=
      (Matrix.vecMul_vecMul _ _ _).symm
    _ = 0 := by rw [hclear, Matrix.zero_vecMul]
  exact sub_eq_zero.1 (congrFun hzero ⟨k, hk⟩)

/-- Two canonical tableaux that are made of the same rows are equal if their bases are. -/
theorem Canonical.eq_of_basis_eq : t = u := by
  refine ht.toShape.ext hu.toShape hbasis fun i hi j _ => ?_
  rw [hst i hi j, hsu i hi j]
  congr 1
  refine Finset.sum_congr rfl fun k hk => ?_
  rw [ht.cell_slack_eq hu hst hsu hbasis hi (Finset.mem_range.1 hk)]

end

end LinearProgram.Tableau
