import LinearProgram.Proofs.Simplex.Answer
import LinearProgram.Proofs.Simplex.Snapshots
import LinearProgram.Proofs.Walkthrough.Page
/-!
# The two rows of the objective

Behind its constraint rows a tableau has the objective twice, as the row `Cj` and as the row `Δj`.  An exchange
turns on a constraint row, so both of them are cleared, with the same multiple of the same row: what is done to one
is done to the other, cell for cell, and they never come apart (`Grid.TwinRows.pivot`).  That the leaving row is
always a constraint row is the shape of the tableau, which every move keeps.

So the row `Cj` of a page or of a final table is the row of reduced costs, from which the method decides, and not the
costs that the tableau was built from.  In a run that goes in a circle its numbers may come back to those costs, but
not where the run ends well: the method stops or goes on by the gains alone, and at those costs it went on
(`Tableau.gains_ne_of_stop`).  All of this holds over any scalars, so over the doubles with every NaN and infinity,
and for all options.

Proved:
* `Grid.TwinRows.pivot`, `Tableau.twinRows_after`: an exchange keeps the two rows equal, and what it makes of them.
* `Simplex.exists_twinRows_of_reaches`: so they are equal in every tableau that is reached.
* `Tableau.twinRows_tableauTable`, `Snapshot.twinRows_table`: the tables show the same cells in both rows.
* `Simplex.twinRows_of_run`: the snapshots, the exchanges and the answer of every run.
-/

namespace LinearProgram

variable {α : Type}

/-- The rows `Cj` and `Δj` of a grid, those behind its first `m` rows, are both this row. -/
def Grid.TwinRows (g : Grid α) (m : Nat) (row : List α) : Prop := g.drop m = [row, row]

/-- Behind its first `m` rows a table has the rows `Cj` and `Δj`, which both show the cells of this row. -/
def Table.TwinRows [DecimalScalar α] (table : Table) (m : Nat) (decimals : Int) (row : List α) : Prop :=
  ∃ cells, cellTexts decimals row = .ok cells ∧
    table.rows.drop m = ["Cj" :: "" :: cells, "Δj" :: "" :: cells]

/-! ## Grids -/

namespace Grid.TwinRows

variable {g : Grid α} {m : Nat} {row : List α}

theorem getElem?_eq (h : g.TwinRows m row) {i : Nat} (hi : i < 2) : g[m + i]? = some row := by
  rw [← List.getElem?_drop, show g.drop m = [row, row] from h]
  obtain rfl | rfl : i = 0 ∨ i = 1 := by omega
  · rfl
  · rfl

/-- A pivot on a row before the two clears both of them in the same way. -/
theorem pivot [Scalar α] (h : g.TwinRows m row) {r : Nat} (hr : r < m) (c : Nat) :
    (g.pivot r c).TwinRows m (clear ((g.getD r []).map (· / g.cell r c)) c row) := by
  have hdrop : (g.pivot r c).drop m =
      (g.drop m).map (clear ((g.getD r []).map (· / g.cell r c)) c) := by
    apply List.ext_getElem?
    intro i
    have hi : m + i ≠ r := by omega
    unfold Grid.pivot
    rw [List.getElem?_drop, List.getElem?_mapIdx, List.getElem?_map, List.getElem?_drop]
    simp only [if_neg hi]
    rfl
  unfold TwinRows
  rw [hdrop, show g.drop m = [row, row] from h]
  rfl

end Grid.TwinRows

/-! ## Tableaux and their exchanges -/

/-- What an exchange makes of a row of the objective: the entering column is cleared with the row of the pivot,
divided by it. -/
def Turn.cleared [Scalar α] (turn : Turn α) (row : List α) : List α :=
  Grid.clear ((turn.before.rows.getD turn.row []).map
    (· / turn.before.rows.cell turn.row turn.entering)) turn.entering row

namespace Tableau

variable [Scalar α] {n m : Nat} {tolerance : α} {t : Tableau α} {row : List α}

theorem twinRows_start {objective : List α} {rows : Grid α} {limits : List α}
    (hl : limits.length = rows.length) :
    (start objective rows limits).rows.TwinRows rows.length
      (objective ++ List.replicate (rows.length + 1) 0) := by
  unfold Grid.TwinRows start
  exact List.drop_left' (length_startRows hl)

/-- An exchange that the method decides on clears the two rows in the same way. -/
theorem twinRows_after (ht : t.Shape n m) (h : t.rows.TwinRows m row) {turn : Turn α}
    (hmove : t.move tolerance = .exchange turn) : turn.after.rows.TwinRows m (turn.cleared row) := by
  have hbefore : turn.before = t := (move_eq_exchange hmove).2.2.1
  unfold Turn.after Turn.cleared
  rw [hbefore]
  exact h.pivot (ht.row_lt hmove) turn.entering

omit [Scalar α] in
/-- The method decides from the row that both of them are. -/
theorem gains_eq_dropLast (ht : t.Shape n m) (h : t.rows.TwinRows m row) :
    t.gains = row.dropLast := by
  unfold gains
  rw [ht.basis_length, List.getD_eq_getElem?_getD, h.getElem?_eq Nat.one_lt_two, Option.getD_some]

theorem gains_start {objective : List α} {rows : Grid α} {limits : List α}
    (hw : ∀ row ∈ rows, row.length = objective.length) (hl : limits.length = rows.length) :
    (start objective rows limits).gains = Simplex.columnCosts objective rows.length := by
  rw [gains_eq_dropLast (shape_start hw hl) (twinRows_start hl), Simplex.columnCosts,
    List.replicate_succ', ← List.append_assoc, List.dropLast_concat]

/-- The method does not stop at gains with which it made an exchange. -/
theorem gains_ne_of_stop {s : Tableau α} {turn : Turn α} (hs : s.move tolerance = .exchange turn)
    (ht : t.move tolerance = .stop) : t.gains ≠ s.gains := by
  intro hgains
  obtain ⟨⟨gain, hlead, habove⟩, -⟩ := move_eq_exchange hs
  rw [← hgains] at hlead
  exact habove (move_eq_stop ht hlead)

end Tableau

/-! ## Tables -/

section Tables

variable [DecimalScalar α] {m : Nat} {decimals : Int} {row : List α} {table : Table}

/-- A table that is made of `m` rows and twice of one row of the objective. -/
theorem twinRows_append {headers : List String} {basic : List (List String)} {cj gains : List String}
    (hbasic : basic.length = m) (hcj : objectiveRow decimals "Cj" row = .ok cj)
    (hgains : objectiveRow decimals "Δj" row = .ok gains) :
    Table.TwinRows ⟨headers, basic ++ [cj, gains]⟩ m decimals row := by
  obtain ⟨cells, hcells, rfl⟩ := objectiveRow_eq_ok_iff.1 hcj
  obtain ⟨cells', hcells', rfl⟩ := objectiveRow_eq_ok_iff.1 hgains
  obtain rfl := Except.ok.inj (hcells.symm.trans hcells')
  exact ⟨cells, hcells, List.drop_left' hbasic⟩

/-- The table of a tableau shows its two rows with the same cells. -/
theorem Tableau.twinRows_tableauTable {t : Tableau α} {n : Nat} (ht : t.Shape n m)
    (h : t.rows.TwinRows m row) {costs : List α} {columns : Nat}
    (htable : tableauTable decimals costs t.rows t.basis columns m = .ok table) :
    table.TwinRows m decimals row := by
  obtain ⟨basic, first, cj, last, gains, hbasic, hfirst, hcj, hlast, hgains, rfl⟩ :=
    tableauTable_eq_ok_iff.1 htable
  obtain rfl := Option.some.inj (hfirst.symm.trans (h.getElem?_eq Nat.zero_lt_two))
  obtain rfl := Option.some.inj (hlast.symm.trans (h.getElem?_eq Nat.one_lt_two))
  refine twinRows_append ?_ hcj hgains
  rw [length_of_mapM hbasic, List.length_zipIdx, ht.basis_length]

/-- The page of a snapshot shows the two rows with the same cells, whatever the costs and the places. -/
theorem Snapshot.twinRows_table {s : Snapshot α} (hbasis : s.basis.length = m)
    (h : Grid.TwinRows s.tableau m row) {costs : Option (List α)}
    (htable : s.table costs decimals = .ok table) : table.TwinRows m decimals row := by
  obtain ⟨basic, first, cj, last, gains, hrows, hfirst, hcj, hlast, hgains, rfl⟩ :=
    Snapshot.table_eq_ok_iff.1 htable
  rw [hbasis] at hfirst hlast
  obtain rfl := Option.some.inj (hfirst.symm.trans (h.getElem?_eq Nat.zero_lt_two))
  obtain rfl := Option.some.inj (hlast.symm.trans (h.getElem?_eq Nat.one_lt_two))
  refine twinRows_append ?_ hcj hgains
  rw [length_of_mapM hrows, List.length_zipIdx, hbasis]

end Tables

/-! ## Runs -/

namespace Simplex

section Runs

variable [Scalar α] {n m cap : Nat} {tolerance : α} {s t : Tableau α}

/-- The two rows are equal in every tableau that moves lead to. -/
theorem exists_twinRows_of_reaches (h : Reaches tolerance s t) (hs : s.Shape n m)
    (htwin : ∃ row, s.rows.TwinRows m row) : ∃ row, t.rows.TwinRows m row := by
  induction h with
  | refl => exact htwin
  | step hreach hmove ih =>
    obtain ⟨row, hrow⟩ := ih
    exact ⟨_, Tableau.twinRows_after (hreach.shape hs) hrow hmove⟩

/-- A snapshot of a run shows the rows and the basis of a tableau that its moves lead to. -/
theorem exists_reaches_of_mem_snapshots {snapshot : Snapshot α}
    (h : snapshot ∈ (run tolerance cap s).snapshots) :
    ∃ t, Reaches tolerance s t ∧ snapshot.tableau = t.rows ∧ snapshot.basis = t.basisLabels := by
  obtain ⟨j, hj⟩ := List.mem_iff_getElem?.1 h
  cases j with
  | zero =>
    rw [Run.eq_firstSnapshot hj, first_run]
    exact ⟨s, .refl, rfl, rfl⟩
  | succ j =>
    obtain ⟨turn, hturn, hsnapshot⟩ := Run.exists_turnSnapshot hj
    rw [hsnapshot]
    exact ⟨turn.before, (reaches_turn (List.mem_of_getElem? hturn)).1, rfl, rfl⟩

/-- A run that makes an exchange and ends well has other gains at its end than at its beginning. -/
theorem gains_last_ne (hturns : (run tolerance cap t).turns ≠ [])
    (hending : (run tolerance cap t).ending = .optimal) :
    (run tolerance cap t).last.gains ≠ t.gains := by
  obtain ⟨turn, rest, hcons⟩ := List.exists_cons_of_ne_nil hturns
  have hfirst : (run tolerance cap t).turns[0]? = some turn := by rw [hcons]; rfl
  have hmove := (reaches_turn (List.mem_of_getElem? hfirst)).2
  rw [before_of_first hfirst] at hmove
  exact Tableau.gains_ne_of_stop hmove (move_last_of_optimal hending)

end Runs

variable [DecimalScalar α] {objective : List α} {constraints : Grid α} {rhs : List α} {maximize : Bool}
  {options : Options α} {r : Run α}

/-- In every run, the rows `Cj` and `Δj` are one row: in each snapshot and on its page; before each exchange and
after it, where it is what the exchange made of the reduced costs; and in the last tableau and the final table of an
optimum, where it is not the row of costs that the tableau was built from if there was any exchange. -/
theorem twinRows_of_run (hrun : run? objective constraints rhs maximize options = .ok r) :
    (∀ s ∈ r.snapshots, ∃ row, Grid.TwinRows s.tableau constraints.length row ∧
        ∀ costs decimals table, s.table costs decimals = .ok table →
          table.TwinRows constraints.length decimals row) ∧
      (∀ turn ∈ r.turns, ∃ row, turn.before.rows.TwinRows constraints.length row ∧
        turn.after.rows.TwinRows constraints.length (turn.cleared row)) ∧
      ∀ solution, solve objective constraints rhs maximize options = .ok solution →
        solution.iterations = some r.snapshots ∧
          (solution.status = .optimal → ∃ row, r.last.rows.TwinRows constraints.length row ∧
            solution.table.TwinRows constraints.length options.decimals row ∧
              (r.turns ≠ [] →
                row.dropLast ≠ columnCosts (maximized maximize objective) constraints.length)) := by
  have hlast := shape_last hrun
  obtain ⟨hw, limits, hlimits, rfl⟩ := run?_eq_ok_iff.1 hrun
  rw [← length_maximized maximize objective] at hw hlast
  have hl := length_of_valuesFor? hlimits
  have hstart := Tableau.shape_start hw hl
  have htwin := fun {t : Tableau α} (h : Reaches options.pivotTolerance _ t) =>
    exists_twinRows_of_reaches h hstart ⟨_, Tableau.twinRows_start hl⟩
  refine ⟨fun s hs => ?_, fun turn hturn => ?_, fun solution hsolve => ?_⟩
  · obtain ⟨t, hreach, htableau, hbasis⟩ := exists_reaches_of_mem_snapshots hs
    obtain ⟨row, hrow⟩ := htwin hreach
    rw [← htableau] at hrow
    have hlength : s.basis.length = constraints.length := by
      rw [hbasis, Tableau.basisLabels, List.length_map, (hreach.shape hstart).basis_length]
    exact ⟨row, hrow, fun costs decimals table htable => Snapshot.twinRows_table hlength hrow htable⟩
  · obtain ⟨hreach, hmove⟩ := reaches_turn hturn
    obtain ⟨row, hrow⟩ := htwin hreach
    exact ⟨row, hrow, Tableau.twinRows_after (hreach.shape hstart) hrow hmove⟩
  · obtain ⟨_, hrun', hsolution⟩ := solve_eq_ok_iff.1 hsolve
    obtain rfl := Except.ok.inj (hrun.symm.trans hrun')
    obtain ⟨hlog, hoptimal, -⟩ := Run.trace_of_solution hsolution
    refine ⟨hlog, fun hstatus => ?_⟩
    have hending := hoptimal.1 hstatus
    obtain ⟨row, hrow⟩ := htwin (reaches_last _ _ _)
    have htable := Run.table_of_solution hsolution hstatus
    rw [Run.table, hlast.basis_length] at htable
    refine ⟨row, hrow, Tableau.twinRows_tableauTable hlast hrow htable, fun hturns => ?_⟩
    rw [← Tableau.gains_eq_dropLast hlast hrow, ← Tableau.gains_start hw hl]
    exact gains_last_ne hturns hending

/-- The maximum of `3x₁ + 5x₂` over `x₁ ≤ 4`, `2x₂ ≤ 12`, `3x₁ + 2x₂ ≤ 18` and a row with a NaN, which the second
exchange spreads over that row and not beyond: both rows of the objective end as the reduced costs. -/
theorem twinRows_of_run_past_nan :
    ∃ r solution row,
      run? (α := Float) [3, 5] [[1, 0], [0, 2], [3, 2], [0 / 0, 0]] [4, 12, 18, 1] true ⟨100, 0, 0, 0, 2⟩ =
          .ok r ∧
        solve (α := Float) [3, 5] [[1, 0], [0, 2], [3, 2], [0 / 0, 0]] [4, 12, 18, 1] true
          ⟨100, 0, 0, 0, 2⟩ = .ok solution ∧
        r.turns.length = 2 ∧ r.last.rows.TwinRows 4 row ∧ row.dropLast ≠ [3, 5, 0, 0, 0, 0] ∧
        solution.table.TwinRows 4 2 row ∧
        solution.table.rows.drop 3 =
          [["0.00", "A6", "nan", "nan", "nan", "nan", "nan", "nan", "nan"],
            ["Cj", "", "0.00", "0.00", "0.00", "-1.50", "-1.00", "0.00", "-36.00"],
            ["Δj", "", "0.00", "0.00", "0.00", "-1.50", "-1.00", "0.00", "-36.00"]] := by
  have hrun : run? (α := Float) [3, 5] [[1, 0], [0, 2], [3, 2], [0 / 0, 0]] [4, 12, 18, 1] true
      ⟨100, 0, 0, 0, 2⟩ = .ok (run 0 100 (Tableau.start (maximized true [3, 5])
        [[1, 0], [0, 2], [3, 2], [0 / 0, 0]] [4, 12, 18, 1])) :=
    run?_eq_ok (by simp) rfl _ _
  have hturns : (run (α := Float) 0 100 (Tableau.start (maximized true [3, 5])
      [[1, 0], [0, 2], [3, 2], [0 / 0, 0]] [4, 12, 18, 1])).turns.length = 2 := by
    decide +kernel
  have hshown : (solve (α := Float) [3, 5] [[1, 0], [0, 2], [3, 2], [0 / 0, 0]] [4, 12, 18, 1] true
      ⟨100, 0, 0, 0, 2⟩).map (fun solution => (solution.status, solution.table.rows.drop 3)) =
        .ok (.optimal, [["0.00", "A6", "nan", "nan", "nan", "nan", "nan", "nan", "nan"],
          ["Cj", "", "0.00", "0.00", "0.00", "-1.50", "-1.00", "0.00", "-36.00"],
          ["Δj", "", "0.00", "0.00", "0.00", "-1.50", "-1.00", "0.00", "-36.00"]]) := by
    decide +kernel
  obtain ⟨solution, hsolution, hfields⟩ := map_eq_ok_iff.1 hshown
  obtain ⟨hstatus, htable⟩ := Prod.mk.inj hfields
  obtain ⟨-, hoptimal⟩ := (twinRows_of_run hrun).2.2 solution hsolution
  obtain ⟨row, hlast, hcells, hcosts⟩ := hoptimal hstatus
  have hexchange := List.ne_nil_of_length_pos (hturns ▸ Nat.zero_lt_two)
  exact ⟨_, solution, row, hrun, hsolution, hturns, hlast, hcosts hexchange, hcells, htable⟩

end Simplex

end LinearProgram
