import LinearProgram.Proofs.Simplex.Reach
import LinearProgram.Proofs.Tableau.Move
import LinearProgram.Proofs.Tableau.Start
/-!
# Canonical tableaux

Two invariants of the method over the rationals.  `Canonical`: the column of every basic variable is
a unit vector, with its one in the row of the variable and zeros in all other rows, the two objective
rows included.  `Equivalent`: two tableaux have the same solutions, and the last row gives the same
objective at every solution.

Both are kept by an exchange on a pivot that is not zero, so every tableau that is reached from the
first one of a problem is canonical and equivalent to it (`reaches_canonical`, `reaches_equivalent`).
-/

namespace LinearProgram.Tableau

/-- The columns of the basis are unit vectors. -/
structure Canonical (n m : Nat) (t : Tableau ℚ) : Prop extends Shape n m t where
  unit : ∀ i < m, ∀ k < m + 2, t.rows.cell k (t.basis.getD i 0) = if k = i then 1 else 0

/-- Two tableaux with the same solutions and the same objective at each of them. -/
structure Equivalent (n m : Nat) (s t : Tableau ℚ) : Prop where
  solves_iff : ∀ z, Solves n m t z ↔ Solves n m s z
  objectiveAt_eq : ∀ z, Solves n m s z → objectiveAt n m t z = objectiveAt n m s z

variable {n m : Nat} {s t : Tableau ℚ}

/-! ## The first tableau -/

theorem canonical_start {objective : List ℚ} {rows : Grid ℚ} {limits : List ℚ}
    (hw : ∀ row ∈ rows, row.length = objective.length) (hl : limits.length = rows.length) :
    Canonical objective.length rows.length (start objective rows limits) where
  toShape := shape_start hw hl
  unit := by
    intro i hi k hk
    have hbasis : (start objective rows limits).basis.getD i 0 = objective.length + i := by
      simp [start, List.getD_eq_getElem?_getD, hi]
    rw [hbasis]
    by_cases hkm : k < rows.length
    · rw [cell_start_slack hw hl hkm hi]
      exact if_congr eq_comm rfl rfl
    · rw [cell_start_gain_slack hl (not_lt.1 hkm) hk hi.le, if_neg (by omega)]

theorem Equivalent.refl (n m : Nat) (t : Tableau ℚ) : Equivalent n m t t :=
  ⟨fun _ => Iff.rfl, fun _ _ => rfl⟩

theorem Equivalent.symm (h : Equivalent n m s t) : Equivalent n m t s where
  solves_iff z := (h.solves_iff z).symm
  objectiveAt_eq z hz := (h.objectiveAt_eq z ((h.solves_iff z).1 hz)).symm

theorem Equivalent.trans {u : Tableau ℚ} (hst : Equivalent n m s t) (htu : Equivalent n m t u) :
    Equivalent n m s u where
  solves_iff z := (htu.solves_iff z).trans (hst.solves_iff z)
  objectiveAt_eq z hz := by
    rw [htu.objectiveAt_eq z ((hst.solves_iff z).2 hz), hst.objectiveAt_eq z hz]

/-! ## One exchange -/

theorem Shape.getD_basis_exchange (h : Shape n m t) {r : Nat} (hr : r < m) (j i : Nat) :
    (t.exchange r j).basis.getD i 0 = if i = r then j else t.basis.getD i 0 := by
  have hr' : r < t.basis.length := by rw [h.basis_length]; exact hr
  rw [Tableau.exchange, List.getD_eq_getElem?_getD, List.getElem?_set]
  by_cases hir : i = r
  · rw [if_pos hir.symm, if_pos hr', if_pos hir, Option.getD_some]
  · rw [if_neg (Ne.symm hir), if_neg hir, List.getD_eq_getElem?_getD]

/-- The entering column becomes the unit vector of its row, and the basic columns that stay have
nothing in that row to be taken from the others. -/
theorem Canonical.exchange (h : Canonical n m t) {r j : Nat} (hr : r < m) (hj : j < n + m)
    (hp : t.rows.cell r j ≠ 0) : Canonical n m (t.exchange r j) where
  toShape := h.toShape.exchange hr hj
  unit := by
    intro i hi k hk
    have hr' : r < t.rows.length := by rw [h.height]; omega
    rw [h.getD_basis_exchange hr, Tableau.exchange, Grid.cell_pivot h.width hr']
    by_cases hir : i = r
    · rw [if_pos hir, hir, div_self hp, mul_one, sub_self]
    · have hrow : t.rows.cell r (t.basis.getD i 0) = 0 := by
        rw [h.unit i hi r (by omega), if_neg (Ne.symm hir)]
      rw [if_neg hir, hrow, zero_div, mul_zero, sub_zero, h.unit i hi k hk]
      by_cases hkr : k = r
      · rw [if_pos hkr, if_neg (by rw [hkr]; exact Ne.symm hir)]
      · rw [if_neg hkr]

/-- A row that a solution satisfies can be scaled, and taken from other rows, without any change for
that solution; and the pivot is undone as it is not zero. -/
theorem Shape.equivalent_exchange (h : Shape n m t) {r j : Nat} (hr : r < m)
    (hp : t.rows.cell r j ≠ 0) : Equivalent n m t (t.exchange r j) := by
  have hr' : r < t.rows.length := by rw [h.height]; omega
  refine ⟨fun z => ⟨fun hz => ?_, fun hz => ?_⟩, fun z hz => ?_⟩
  · have hrow : t.rows.excess (n + m) r z = 0 :=
      Grid.excess_eq_zero_of_pivot h.width hr' hp (hz r hr)
    intro i hi
    rw [← Grid.excess_pivot_of_eq_zero h.width hr' j (n + m) i hrow]
    exact hz i hi
  · intro i hi
    rw [Tableau.exchange, Grid.excess_pivot_of_eq_zero h.width hr' j (n + m) i (hz r hr)]
    exact hz i hi
  · rw [objectiveAt, Tableau.exchange,
      Grid.excess_pivot_of_eq_zero h.width hr' j (n + m) (m + 1) (hz r hr)]
    rfl

/-! ## Every tableau reached -/

variable {tolerance : ℚ}

theorem Exchanges.pivot_ne_zero {r j : Nat} (htol : 0 ≤ tolerance)
    (h : Exchanges n m tolerance t r j) : t.rows.cell r j ≠ 0 :=
  (htol.trans_lt h.pivot).ne'

theorem Canonical.after (htol : 0 ≤ tolerance) (h : Canonical n m t) {turn : Turn ℚ}
    (hmove : t.move tolerance = .exchange turn) : Canonical n m turn.after := by
  obtain ⟨hex, hafter⟩ := exchange_spec h.toShape hmove
  rw [hafter]
  exact h.exchange hex.row_lt hex.entering_lt (hex.pivot_ne_zero htol)

theorem reaches_canonical (htol : 0 ≤ tolerance) (h : Simplex.Reaches tolerance s t)
    (hs : Canonical n m s) : Canonical n m t :=
  h.invariant (fun _ _ ht hmove => ht.after htol hmove) hs

theorem reaches_equivalent (htol : 0 ≤ tolerance) (h : Simplex.Reaches tolerance s t)
    (hs : Canonical n m s) : Equivalent n m s t := by
  induction h with
  | refl => exact Equivalent.refl n m s
  | step hreach hmove ih =>
    obtain ⟨hex, hafter⟩ := exchange_spec (reaches_canonical htol hreach hs).toShape hmove
    rw [hafter]
    exact ih.trans ((reaches_canonical htol hreach hs).equivalent_exchange hex.row_lt
      (hex.pivot_ne_zero htol))

end LinearProgram.Tableau
