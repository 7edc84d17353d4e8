import LinearProgram.Proofs.Simplex.Answer
import LinearProgram.Proofs.Tableau.RowSpace
/-!
# What holds at every state of a run

Over the rationals, with limits of any sign and a tolerance that is not negative.  A state of a run is
a tableau at which the method decides on its next move (`Run.states`).

Proved:
* `canonical_of_run`: at every state the columns of the basis are different unit vectors.  So no column
  enters that is basic already, and no two rows write the same coordinate of the point.
* `system_of_run`: every state is the problem itself, written another way: its slack block is
  invertible, its constraint rows are that block times `[A | I | b]`, and its last row is the objective
  plus a combination of `[A | I | b]`.
-/

namespace LinearProgram

open Tableau

/-! ## Basic columns -/

namespace Tableau

variable {n m : Nat} {t : Tableau ℚ}

theorem Canonical.nodup_basis (h : Canonical n m t) : t.basis.Nodup := by
  refine List.nodup_iff_getElem?_ne_getElem?.2 fun i k hik hk heq => ?_
  have hi : i < t.basis.length := hik.trans hk
  have hm := h.basis_length
  rw [List.getElem?_eq_getElem hi, List.getElem?_eq_getElem hk, Option.some.injEq] at heq
  have hsame : i = k := h.basis_inj (by omega) (by omega) (by
    rw [List.getD_eq_getElem _ _ hi, List.getD_eq_getElem _ _ hk, heq])
  omega

/-- A basic column has nothing to gain, so a column that gains is not basic. -/
theorem Canonical.not_mem_basis (h : Canonical n m t) {tolerance : ℚ} (htol : 0 ≤ tolerance) {j : Nat}
    (hgain : tolerance < t.rows.cell (m + 1) j) : j ∉ t.basis := by
  intro hj
  obtain ⟨i, hi, rfl⟩ := List.getElem_of_mem hj
  have him : i < m := by rw [← h.basis_length]; exact hi
  have hzero := h.unit i him (m + 1) (by omega)
  rw [List.getD_eq_getElem _ _ hi, if_neg (by omega)] at hzero
  rw [hzero] at hgain
  exact absurd hgain (not_lt.2 htol)

end Tableau

/-- Each row of the last tableau writes its limit to the coordinate of its variable, and no other row
overwrites it. -/
theorem Run.getD_point {n m : Nat} {run : Run ℚ} (h : Canonical n m run.last) {i : Nat} (hi : i < m)
    (hvariable : run.last.basis.getD i 0 < n) :
    (run.point n).getD (run.last.basis.getD i 0) 0 = run.last.rows.cell i (n + m) := by
  rw [Run.point_eq h, getD_firsts hvariable, basicValue, h.spread_basis _ hi]

/-! ## States of a run -/

namespace Simplex

variable {objective : List ℚ} {constraints : Grid ℚ} {rhs : List ℚ} {maximize : Bool}
  {options : Options ℚ} {r : Run ℚ}

theorem last_mem_states (r : Run ℚ) : r.last ∈ r.states :=
  List.mem_append_right _ List.mem_cons_self

theorem before_mem_states {turn : Turn ℚ} (h : turn ∈ r.turns) : turn.before ∈ r.states :=
  List.mem_append_left _ (List.mem_map_of_mem h)

theorem canonical_state (htol : 0 ≤ options.pivotTolerance)
    (hrun : run? objective constraints rhs maximize options = .ok r) {t : Tableau ℚ}
    (ht : t ∈ r.states) : Canonical objective.length constraints.length t := by
  obtain ⟨hw, limits, hlimits, rfl⟩ := run?_eq_ok_iff.1 hrun
  rw [← length_maximized maximize objective] at hw ⊢
  exact reaches_canonical htol (reaches_of_mem_states ht)
    (canonical_start hw (length_of_valuesFor? hlimits))

/-- At every state the basis holds different columns, which are the unit vectors in their order.  The
column that enters, or that could grow for ever, is none of them, and every basic variable has the
limit of its own row as its coordinate of the point. -/
theorem canonical_of_run (htol : 0 ≤ options.pivotTolerance)
    (hrun : run? objective constraints rhs maximize options = .ok r) :
    (∀ t ∈ r.states, Canonical objective.length constraints.length t ∧ t.basis.Nodup) ∧
      (∀ turn ∈ r.turns, turn.entering ∉ turn.before.basis) ∧
      (∀ entering, r.ending = .unbounded entering → entering ∉ r.last.basis) ∧
      ∀ i < constraints.length, r.last.basis.getD i 0 < objective.length →
        (r.point objective.length).getD (r.last.basis.getD i 0) 0 =
          r.last.rows.cell i (objective.length + constraints.length) := by
  have hstate := fun t (ht : t ∈ r.states) => canonical_state htol hrun ht
  have hlast := hstate _ (last_mem_states r)
  refine ⟨fun t ht => ⟨hstate t ht, (hstate t ht).nodup_basis⟩, fun turn hturn => ?_,
    fun entering hending => ?_, fun i hi hvariable => Run.getD_point hlast hi hvariable⟩
  · have hbefore := hstate _ (before_mem_states hturn)
    obtain ⟨-, limits, -, rfl⟩ := run?_eq_ok_iff.1 hrun
    obtain ⟨hex, -⟩ := exchange_spec hbefore.toShape (reaches_turn hturn).2
    exact hbefore.not_mem_basis htol hex.gain
  · obtain ⟨-, limits, -, rfl⟩ := run?_eq_ok_iff.1 hrun
    obtain ⟨-, hgain, -⟩ := unbounded_spec hlast.toShape (move_last_of_unbounded hending)
    exact hlast.not_mem_basis htol hgain

/-- The minimum of `-3x₁ - 5x₂` over four rows, one of them with a negative limit: after the exchanges
of both variables the rows of the basis write the point `(2, 6)`. -/
theorem canonical_of_run_two_exchanges :
    ∃ r, run? (α := ℚ) [-3, -5] [[1, 0], [0, 2], [3, 2], [-1, 0]] [4, 12, 18, -1] false
        ⟨100, 0, 0, 0, 2⟩ = .ok r ∧
      r.turns.map (·.entering) = [1, 0] ∧ r.last.basis = [2, 1, 0, 5] ∧
      (∀ t ∈ r.states, Canonical 2 4 t ∧ t.basis.Nodup) ∧
      (∀ turn ∈ r.turns, turn.entering ∉ turn.before.basis) ∧
      (r.point 2).getD 1 0 = 6 ∧ (r.point 2).getD 0 0 = 2 := by
  have hrun : run? (α := ℚ) [-3, -5] [[1, 0], [0, 2], [3, 2], [-1, 0]] [4, 12, 18, -1] false
      ⟨100, 0, 0, 0, 2⟩ = .ok (run 0 100 (start (maximized false [-3, -5])
        [[1, 0], [0, 2], [3, 2], [-1, 0]] [4, 12, 18, -1])) :=
    run?_eq_ok (by decide) rfl _ _
  have hbasis : (run 0 100 (start (α := ℚ) (maximized false [-3, -5])
      [[1, 0], [0, 2], [3, 2], [-1, 0]] [4, 12, 18, -1])).last.basis = [2, 1, 0, 5] := by
    decide +kernel
  obtain ⟨hstates, hentering, -, hpoint⟩ := canonical_of_run le_rfl hrun
  have hfirst := hpoint 1 (by decide) (by rw [hbasis]; decide)
  have hsecond := hpoint 2 (by decide) (by rw [hbasis]; decide)
  rw [hbasis] at hfirst hsecond
  refine ⟨_, hrun, by decide +kernel, hbasis, hstates, hentering, hfirst.trans ?_, hsecond.trans ?_⟩
  · decide +kernel
  · decide +kernel

/-- Every state is the problem written another way.  Its slack block is invertible and makes its
constraint rows out of `[A | I | b]`; its last row is the objective plus its slack gains times
`[A | I | b]`.  So `A x + s = b` says the same as the constraint rows of the state, and where it holds
the objective is what the last row comes to beyond its corner cell. -/
theorem system_of_run (htol : 0 ≤ options.pivotTolerance)
    (hrun : run? objective constraints rhs maximize options = .ok r) {limits : List ℚ}
    (hlimits : valuesFor? constraints.length rhs = .ok limits) {t : Tableau ℚ} (ht : t ∈ r.states) :
    IsUnit (slackBlock objective.length constraints.length t) ∧
      constraintBlock objective.length constraints.length t =
        slackBlock objective.length constraints.length t *
          system objective.length constraints limits ∧
      gainRow objective.length constraints.length t =
        objectiveCells _ (maximized maximize objective) +
          Matrix.vecMul (slackGains objective.length constraints.length t)
            (system objective.length constraints limits) ∧
      (∀ z, (∀ i < constraints.length, dot (constraints.getD i []) (firsts objective.length z) +
          z (objective.length + i) = limits.getD i 0) ↔
        Solves objective.length constraints.length t z) ∧
      ∀ z, Solves objective.length constraints.length t z →
        dot (maximized maximize objective) (firsts objective.length z) =
          objectiveAt objective.length constraints.length t z := by
  have hcanonical := canonical_state htol hrun ht
  obtain ⟨hw, limits', hlimits', rfl⟩ := run?_eq_ok_iff.1 hrun
  obtain rfl : limits' = limits := Except.ok.inj (hlimits'.symm.trans hlimits)
  have hl := length_of_valuesFor? hlimits
  rw [← length_maximized maximize objective] at hw hcanonical ⊢
  set gains := maximized maximize objective
  have hstart := canonical_start hw hl
  have hreach := reaches_of_mem_states ht
  have hcombines := reaches_combines hreach hstart.toShape (combines_start hw hl)
  have hequiv := reaches_equivalent htol hreach hstart
  refine ⟨hcanonical.isUnit_slackBlock hcombines, constraintBlock_eq hw hl hcombines,
    gainRow_eq hw hl hcombines, fun z => ?_, fun z hz => ?_⟩
  · rw [hequiv.solves_iff]
    refine forall₂_congr fun i hi => ?_
    rw [excess_start hw hl hi, sub_eq_zero]
  · rw [hequiv.objectiveAt_eq z ((hequiv.solves_iff z).1 hz), objectiveAt_start hl]

/-- The last state of the run over `x₁ ≤ 4`, `2x₂ ≤ 12`, `3x₁ + 2x₂ ≤ 18`: the inverse of its basis stands
in the slack columns. -/
theorem system_of_run_two_exchanges :
    ∃ t : Tableau ℚ, t.basis = [2, 1, 0] ∧
      slackBlock 2 3 t = !![1, 1 / 3, -1 / 3; 0, 1 / 2, 0; 0, -1 / 3, 1 / 3] ∧
      IsUnit (slackBlock 2 3 t) ∧
      constraintBlock 2 3 t =
        slackBlock 2 3 t * system 2 [[1, 0], [0, 2], [3, 2]] [4, 12, 18] ∧
      (∀ z, Solves 2 3 t z → dot [3, 5] (firsts 2 z) = objectiveAt 2 3 t z) := by
  have hrun : run? (α := ℚ) [3, 5] [[1, 0], [0, 2], [3, 2]] [4, 12, 18] true ⟨100, 0, 0, 0, 2⟩ =
      .ok (run 0 100 (start (maximized true [3, 5]) [[1, 0], [0, 2], [3, 2]] [4, 12, 18])) :=
    run?_eq_ok (by decide) rfl _ _
  obtain ⟨hunit, hblock, -, -, hobjective⟩ :=
    system_of_run le_rfl hrun rfl (last_mem_states _)
  exact ⟨_, by decide +kernel, by decide +kernel, hunit, hblock, hobjective⟩

end Simplex

end LinearProgram
