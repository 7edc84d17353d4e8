import LinearProgram.Proofs.Simplex.Invariants
import LinearProgram.Proofs.Simplex.Snapshots
/-!
# Exchanges can be undone

Over the rationals, with limits of any sign and a tolerance that is not negative.  The variable that an
exchange lets go had the unit vector of its row as its column, so the exchange the other way, in the same
row, leads back to the tableau before.  With it every state of a run can be had from any other.

Proved:
* `Canonical.exchange_exchange`: the exchange the other way undoes an exchange.
* `undone_of_run`: a pivot on the unit column of its row undoes a pivot, and so every tableau on record is
  restored from the state after its exchange.
-/

namespace LinearProgram

open Tableau

/-- The exchange the other way, of the variable that left for the one that entered, undoes an exchange. -/
theorem Tableau.Canonical.exchange_exchange {n m : Nat} {t : Tableau ℚ} (h : Canonical n m t) {r j : Nat}
    (hr : r < m) (hp : t.rows.cell r j ≠ 0) :
    (t.exchange r j).exchange r (t.basis.getD r 0) = t := by
  have hr' : r < t.rows.length := by rw [h.height]; omega
  have hbasis : r < t.basis.length := by rw [h.basis_length]; exact hr
  have hunit : ∀ i < t.rows.length, t.rows.cell i (t.basis.getD r 0) = if i = r then 1 else 0 := by
    intro i hi
    exact h.unit r hr i (h.height ▸ hi)
  rw [Tableau.exchange, Tableau.exchange, Grid.pivot_pivot h.width hr' hp hunit, List.set_set,
    List.getD_eq_getElem _ _ hbasis, List.set_getElem_self]

namespace Simplex

/-- Every exchange of a run is undone by the exchange of the variable that left for the one that entered. -/
theorem exchange_after {objective : List ℚ} {constraints : Grid ℚ} {rhs : List ℚ} {maximize : Bool}
    {options : Options ℚ} {r : Run ℚ} (htol : 0 ≤ options.pivotTolerance)
    (hrun : run? objective constraints rhs maximize options = .ok r) {turn : Turn ℚ}
    (hturn : turn ∈ r.turns) : turn.after.exchange turn.row turn.leaving = turn.before := by
  have hbefore := canonical_state htol hrun (before_mem_states hturn)
  obtain ⟨-, limits, -, rfl⟩ := run?_eq_ok_iff.1 hrun
  obtain ⟨hex, hafter⟩ := exchange_spec hbefore.toShape (reaches_turn hturn).2
  rw [hafter]
  exact hbefore.exchange_exchange hex.row_lt (hex.pivot_ne_zero htol)

/-- A pivot is undone by a pivot in the same row on a column that was the unit vector of that row.  In a run
the column of the variable that leaves is such a one: every tableau on record before an exchange is restored
by that pivot, and with it the whole state, from the state that the exchange led to. -/
theorem undone_of_run :
    (∀ {g : Grid ℚ} {w r e l : Nat}, (∀ row ∈ g, row.length = w) → r < g.length → g.cell r e ≠ 0 →
        (∀ i < g.length, g.cell i l = if i = r then 1 else 0) → (g.pivot r e).pivot r l = g) ∧
      ∀ {objective : List ℚ} {constraints : Grid ℚ} {rhs : List ℚ} {maximize : Bool}
        {options : Options ℚ} {r : Run ℚ}, 0 ≤ options.pivotTolerance →
        run? objective constraints rhs maximize options = .ok r →
        ∀ k s, r.snapshots[k + 1]? = some s →
          ∃ (row entering leaving : Nat) (before after : Tableau ℚ),
            s.pivot = some ⟨row, entering⟩ ∧ s.leaving = some (variableLabel leaving) ∧
              r.states[k]? = some before ∧ r.states[k + 1]? = some after ∧ s.tableau = before.rows ∧
              after.rows = Grid.pivot s.tableau row entering ∧
              Grid.pivot after.rows row leaving = s.tableau ∧ after.exchange row leaving = before := by
  refine ⟨fun hw hr hpivot hunit => Grid.pivot_pivot hw hr hpivot hunit, fun htol hrun k s hs => ?_⟩
  obtain ⟨turn, hturn, hsnapshot⟩ := Run.exists_turnSnapshot hs
  have hundone := exchange_after htol hrun (List.mem_of_getElem? hturn)
  obtain ⟨-, limits, -, rfl⟩ := run?_eq_ok_iff.1 hrun
  obtain ⟨hbefore, hafter⟩ := getElem?_states hturn
  rw [hsnapshot]
  exact ⟨turn.row, turn.entering, turn.leaving, turn.before, turn.after, rfl, rfl, hbefore, hafter, rfl,
    rfl, congrArg Tableau.rows hundone, hundone⟩

/-- The second exchange over `x₁ ≤ 4`, `2x₂ ≤ 12`, `3x₁ + 2x₂ ≤ 18` turns on the last row and lets its slack
go.  The pivot on the column of that slack, which was a unit vector, undoes it. -/
theorem undone_of_run_second_exchange :
    Grid.pivot (α := ℚ) (Grid.pivot [[2, 1, 6], [4, 0, 8]] 0 0) 0 1 = [[2, 1, 6], [4, 0, 8]] ∧
      ∃ r s after, run? (α := ℚ) [3, 5] [[1, 0], [0, 2], [3, 2]] [4, 12, 18] true ⟨100, 0, 0, 0, 2⟩ =
          .ok r ∧ r.snapshots[2]? = some s ∧ r.states[2]? = some after ∧
        (s.basis, s.pivot, s.leaving) = (["A3", "A2", "A5"], some ⟨2, 0⟩, some "A5") ∧
        after.basis = [2, 1, 0] ∧ Grid.pivot after.rows 2 4 = s.tableau := by
  obtain ⟨hgrids, hruns⟩ := undone_of_run
  have hgrid := @hgrids [[2, 1, 6], [4, 0, 8]] 3 0 0 1 (by decide) (by decide) (by decide +kernel)
    (by decide +kernel)
  have hrun : run? (α := ℚ) [3, 5] [[1, 0], [0, 2], [3, 2]] [4, 12, 18] true ⟨100, 0, 0, 0, 2⟩ =
      .ok (run 0 100 (start (maximized true [3, 5]) [[1, 0], [0, 2], [3, 2]] [4, 12, 18])) :=
    run?_eq_ok (by decide) rfl _ _
  have hrecord : (run (α := ℚ) 0 100 (start (maximized true [3, 5]) [[1, 0], [0, 2], [3, 2]]
      [4, 12, 18])).snapshots[2]?.map (fun s => (s.basis, s.pivot, s.leaving)) =
        some (["A3", "A2", "A5"], some ⟨2, 0⟩, some "A5") := by decide +kernel
  have hbasis : (run (α := ℚ) 0 100 (start (maximized true [3, 5]) [[1, 0], [0, 2], [3, 2]]
      [4, 12, 18])).states[2]?.map (·.basis) = some [2, 1, 0] := by decide +kernel
  obtain ⟨s, hs, hfields⟩ := Option.map_eq_some_iff.1 hrecord
  obtain ⟨row, entering, leaving, before, after, hpivot, hleaving, -, hafter, -, -, hundone, -⟩ :=
    hruns le_rfl hrun 1 s hs
  obtain ⟨-, hplaces⟩ := Prod.mk.inj hfields
  obtain ⟨hpivot', hleaving'⟩ := Prod.mk.inj hplaces
  have hplace := hpivot.symm.trans hpivot'
  have hlabel : variableLabel leaving = variableLabel 4 := Option.some.inj (hleaving.symm.trans hleaving')
  obtain rfl : row = 2 := Int.natCast_inj.1 (congrArg Pivot.row (Option.some.inj hplace))
  obtain rfl : leaving = 4 := variableLabel_injective hlabel
  rw [hafter] at hbasis
  exact ⟨hgrid, _, s, after, hrun, hs, hafter, hfields, Option.some.inj hbasis, hundone⟩

end Simplex

end LinearProgram
