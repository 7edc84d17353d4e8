import LinearProgram.Proofs.Tableau.Canonical
import Mathlib.Algebra.Order.BigOperators.Group.Finset
/-!
# Basic solutions

At a canonical tableau every value of one column `e` outside the basis extends to a solution in which
all other columns outside the basis are zero (`pushed`): the basic variable of row `i` takes the limit
of the row less the share of `e` in it.  The objective at a pushed solution is the negated corner cell
plus the gain of `e` times the push (`objectiveAt_pushed`).
-/

namespace LinearProgram.Tableau

variable {n m : Nat} {t : Tableau ℚ}

/-- The assignment that gives the basic variable of each row a value, and zero to all other columns. -/
def spread (m : Nat) (t : Tableau ℚ) (v : Nat → ℚ) (j : Nat) : ℚ :=
  ∑ i ∈ Finset.range m, if t.basis.getD i 0 = j then v i else 0

/-- The solution in which column `e` has the value `push` and the other columns outside the basis are
zero. -/
def pushed (n m : Nat) (t : Tableau ℚ) (e : Nat) (push : ℚ) (j : Nat) : ℚ :=
  spread m t (fun i => t.rows.cell i (n + m) - t.rows.cell i e * push) j +
    if j = e then push else 0

/-- The basic solution: the limit of its row for a basic variable, and zero for the others. -/
def basicValue (n m : Nat) (t : Tableau ℚ) : Nat → ℚ :=
  spread m t fun i => t.rows.cell i (n + m)

/-- The objective, in the sense of a maximum, at the basic solution: the negated corner cell. -/
abbrev value (n m : Nat) (t : Tableau ℚ) : ℚ := -t.rows.cell (m + 1) (n + m)

/-! ## Spread values -/

/-- Two rows have different basic variables: their columns are different unit vectors. -/
theorem Canonical.basis_inj (h : Canonical n m t) {i k : Nat} (hi : i < m) (hk : k < m)
    (hik : t.basis.getD i 0 = t.basis.getD k 0) : i = k := by
  have hone := h.unit i hi i (by omega)
  rw [hik, h.unit k hk i (by omega), if_pos rfl] at hone
  by_contra hne
  rw [if_neg hne] at hone
  exact zero_ne_one hone

theorem Canonical.spread_basis (h : Canonical n m t) (v : Nat → ℚ) {i : Nat} (hi : i < m) :
    spread m t v (t.basis.getD i 0) = v i := by
  rw [spread, Finset.sum_eq_single_of_mem i (Finset.mem_range.2 hi), if_pos rfl]
  intro k hk hki
  exact if_neg fun hkb => hki (h.basis_inj (Finset.mem_range.1 hk) hi hkb)

theorem spread_nonneg {v : Nat → ℚ} (hv : ∀ i < m, 0 ≤ v i) (j : Nat) : 0 ≤ spread m t v j := by
  refine Finset.sum_nonneg fun i hi => ?_
  split
  · exact hv i (Finset.mem_range.1 hi)
  · exact le_rfl

/-- The rows read a spread assignment through the unit columns of the basis: a constraint row gives
the value of its own variable, an objective row gives nothing. -/
theorem Canonical.sum_spread (h : Canonical n m t) (v : Nat → ℚ) {k : Nat} (hk : k < m + 2) :
    ∑ j ∈ Finset.range (n + m), t.rows.cell k j * spread m t v j = if k < m then v k else 0 := by
  have hcolumn : ∀ i ∈ Finset.range m,
      ∑ j ∈ Finset.range (n + m), t.rows.cell k j * (if t.basis.getD i 0 = j then v i else 0) =
        if k = i then v i else 0 := by
    intro i hi
    have hi' := Finset.mem_range.1 hi
    rw [Finset.sum_eq_single_of_mem _ (Finset.mem_range.2 (h.getD_basis_lt hi')), if_pos rfl,
      h.unit i hi' k hk, ite_mul, one_mul, zero_mul]
    intro j _ hj
    rw [if_neg (Ne.symm hj), mul_zero]
  simp only [spread, Finset.mul_sum]
  rw [Finset.sum_comm, Finset.sum_congr rfl hcolumn, Finset.sum_ite_eq]
  exact if_congr Finset.mem_range rfl rfl

/-! ## Pushed solutions -/

theorem Canonical.excess_pushed (h : Canonical n m t) {e : Nat} (he : e < n + m) (push : ℚ) {k : Nat}
    (hk : k < m + 2) :
    t.rows.excess (n + m) k (pushed n m t e push) =
      if k < m then 0 else t.rows.cell k e * push - t.rows.cell k (n + m) := by
  have hcolumn : ∑ j ∈ Finset.range (n + m), t.rows.cell k j * (if j = e then push else 0) =
      t.rows.cell k e * push := by
    rw [Finset.sum_eq_single_of_mem e (Finset.mem_range.2 he), if_pos rfl]
    intro j _ hj
    rw [if_neg hj, mul_zero]
  simp only [Grid.excess, pushed, mul_add, Finset.sum_add_distrib]
  rw [hcolumn, h.sum_spread _ hk]
  split
  · ring
  · ring

theorem Canonical.solves_pushed (h : Canonical n m t) {e : Nat} (he : e < n + m) (push : ℚ) :
    Solves n m t (pushed n m t e push) := by
  intro i hi
  rw [h.excess_pushed he push (by omega), if_pos hi]

theorem Canonical.objectiveAt_pushed (h : Canonical n m t) {e : Nat} (he : e < n + m) (push : ℚ) :
    objectiveAt n m t (pushed n m t e push) =
      t.rows.cell (m + 1) e * push - t.rows.cell (m + 1) (n + m) := by
  rw [objectiveAt, h.excess_pushed he push (Nat.lt_succ_self _), if_neg (by omega)]

/-! ## The basic solution -/

theorem Canonical.solves_basicValue (h : Canonical n m t) : Solves n m t (basicValue n m t) := by
  intro i hi
  rw [Grid.excess, basicValue, h.sum_spread _ (by omega), if_pos hi, sub_self]

theorem Canonical.objectiveAt_basicValue (h : Canonical n m t) :
    objectiveAt n m t (basicValue n m t) = value n m t := by
  rw [objectiveAt, Grid.excess, basicValue, h.sum_spread _ (Nat.lt_succ_self _),
    if_neg (by omega), zero_sub, value]

theorem Shape.basicValue_of_notMem (h : Shape n m t) {j : Nat} (hj : j ∉ t.basis) :
    basicValue n m t j = 0 := by
  unfold basicValue spread
  refine Finset.sum_eq_zero fun i hi => if_neg fun hij => hj ?_
  have hi' : i < t.basis.length := by rw [h.basis_length]; exact Finset.mem_range.1 hi
  rw [← hij, List.getD_eq_getElem _ _ hi']
  exact List.getElem_mem hi'

/-- The last row gives the value at every assignment that is zero outside the basis. -/
theorem Canonical.objectiveAt_of_notMem (h : Canonical n m t) {z : Nat → ℚ}
    (hz : ∀ j, j ∉ t.basis → z j = 0) : objectiveAt n m t z = value n m t := by
  have hsum : ∑ j ∈ Finset.range (n + m), t.rows.cell (m + 1) j * z j = 0 := by
    refine Finset.sum_eq_zero fun j _ => ?_
    by_cases hj : j ∈ t.basis
    · obtain ⟨i, hi, rfl⟩ := List.getElem_of_mem hj
      have hi' : i < m := by rw [← h.basis_length]; exact hi
      have hgain := h.unit i hi' (m + 1) (by omega)
      rw [List.getD_eq_getElem _ _ hi, if_neg (by omega)] at hgain
      rw [hgain, zero_mul]
    · rw [hz j hj, mul_zero]
  rw [objectiveAt, Grid.excess, hsum, zero_sub]

/-- The value of a tableau depends only on which columns are basic, not on their rows. -/
theorem Canonical.value_eq_of_mem_iff {s : Tableau ℚ} (hs : Canonical n m s) (ht : Canonical n m t)
    (h : Equivalent n m s t) (hbasis : ∀ j, j ∈ s.basis ↔ j ∈ t.basis) :
    value n m s = value n m t := by
  have hzero : ∀ j, j ∉ t.basis → basicValue n m s j = 0 := fun j hj =>
    hs.basicValue_of_notMem fun hj' => hj ((hbasis j).1 hj')
  rw [← hs.objectiveAt_basicValue, ← h.objectiveAt_eq _ hs.solves_basicValue,
    ht.objectiveAt_of_notMem hzero]

/-- No coordinate of the basic solution is negative exactly if no limit is. -/
theorem Canonical.basicValue_nonneg_iff (h : Canonical n m t) :
    (∀ j < n + m, 0 ≤ basicValue n m t j) ↔ ∀ i < m, 0 ≤ t.rows.cell i (n + m) := by
  constructor
  · intro hz i hi
    have hbasic := hz _ (h.getD_basis_lt hi)
    rwa [basicValue, h.spread_basis _ hi] at hbasic
  · intro hlimits j _
    exact spread_nonneg hlimits j

end LinearProgram.Tableau
