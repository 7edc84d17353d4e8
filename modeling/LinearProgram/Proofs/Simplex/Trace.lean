import LinearProgram.Proofs.Ratio
import LinearProgram.Proofs.Simplex.Answer
import LinearProgram.Proofs.Simplex.Snapshots
/-!
# The trace of a run

Whatever the doubles, the tolerance, the cap and the way a run ends, its trace can be replayed.  The
first snapshot is the tableau built from the data, every later one is an exchange with the reasons for
it, and the exchange on record turns its tableau into the next one (`Replays`).

Proved:
* `firstBest_quotients`: the search for a least ratio is the search for a least quotient.
* `records_turn`: what one exchange leaves on record.
* `replays_of_run`: the trace of a run can be replayed.
* `replays_of_solve`: every answer of the tableau method has such a trace, in which exactly the last
  snapshot of a run that found an optimum is marked.
-/

namespace LinearProgram

open Double Tableau

/-! ## Ratios as doubles -/

namespace Tableau

/-- The ratios as doubles: infinity where a row does not limit the column. -/
def quotients (tolerance : Float) (t : Tableau Float) (j : Nat) : List Float :=
  t.constraintRows.map fun row =>
    if tolerance < row.getD j 0 then row.getLastD 0 / row.getD j 0 else infinity

variable {n m : Nat} {tolerance : Float} {t : Tableau Float}

theorem ratios_eq (tolerance : Float) (t : Tableau Float) (j : Nat) :
    t.ratios tolerance j = (t.quotients tolerance j).map Ratio.ofQuotient := by
  rw [ratios, quotients, List.map_map]
  refine List.map_congr_left fun row _ => ?_
  rw [Function.comp_apply]
  split
  · rfl
  · exact Ratio.ofQuotient_infinity.symm

theorem map_value_ratios (tolerance : Float) (t : Tableau Float) (j : Nat) :
    (t.ratios tolerance j).map Ratio.value = t.quotients tolerance j := by
  rw [ratios_eq, List.map_map]
  conv_rhs => rw [← List.map_id (t.quotients tolerance j)]
  exact List.map_congr_left fun q _ => Ratio.value_ofQuotient q

theorem Shape.getD_quotients (h : Shape n m t) (tolerance : Float) (j : Nat) {i : Nat} (hi : i < m) :
    (t.quotients tolerance j).getD i 0 =
      if tolerance < t.rows.cell i j then t.rows.cell i (n + m) / t.rows.cell i j
      else infinity := by
  have hget : (t.quotients tolerance j)[i]? = some (if tolerance < t.rows.cell i j then
      t.rows.cell i (n + m) / t.rows.cell i j else infinity) := by
    rw [quotients, List.getElem?_map, h.getElem?_constraintRows hi, Option.map_some,
      getLastD_eq_getD (h.length_getD (by omega))]
    rfl
  rw [List.getD_eq_getElem?_getD, hget, Option.getD_some]

/-- The row that leaves has the first least quotient. -/
theorem firstBest_quotients {row j : Nat} (h : leavingRow? (t.ratios tolerance j) = some row) :
    FirstBest (· > ·) (t.quotients tolerance j) row := by
  obtain ⟨-, ratio, hlead⟩ := leavingRow?_eq_some h
  have hget := getElem?_of_leaderIdx? hlead
  have hbest := not_beats_leaderIdx? ranking_below hlead
  rw [ratios_eq] at hlead hget hbest
  rw [List.getElem?_map] at hget
  obtain ⟨q, hq, rfl⟩ := Option.map_eq_some_iff.1 hget
  refine nanFirst_below.firstBest hq (fun y hy => ?_) fun i hi y hy => ?_
  · rw [← Ratio.below_ofQuotient]
    exact hbest _ (List.mem_map_of_mem hy)
  · rw [← Ratio.below_ofQuotient]
    refine beats_of_lt_leaderIdx? ranking_below hlead hi ?_
    rw [List.getElem?_map, hy, Option.map_some]

end Tableau

/-! ## Snapshots that account for a run -/

/-- The snapshot of the data: `[A | I | b]` over twice `[c | 0 | 0]`, the slack columns as the basis, and
no exchange. -/
structure RecordsData (objective : List Float) (constraints : Grid Float) (limits : List Float)
    (s : Snapshot Float) : Prop where
  height : s.tableau.length = constraints.length + 2
  constraintRow : ∀ i < constraints.length, s.tableau.getD i [] =
    constraints.getD i [] ++ unitRow constraints.length i ++ [limits.getD i 0]
  objectiveRow : ∀ i, constraints.length ≤ i → i < constraints.length + 2 →
    s.tableau.getD i [] = objective ++ List.replicate (constraints.length + 1) 0
  basis : s.basis = (List.range' objective.length constraints.length).map variableLabel
  pivot : s.pivot = none
  ratios : s.ratios = none
  entering : s.entering = none
  leaving : s.leaving = none

/-- The snapshot before an exchange, in a tableau for `m` rows and `n` variables: the column with the
first largest gain enters, and the row with the first least ratio gives up its variable. -/
structure RecordsExchange (n m : Nat) (tolerance : Float) (s : Snapshot Float) (row col : Nat)
    (ratios : List (Ratio Float)) : Prop where
  pivot : s.pivot = some ⟨row, col⟩
  row_lt : row < m
  col_lt : col < n + m
  largest : FirstBest (· < ·) (s.tableau.getD (m + 1) []).dropLast col
  ratios_eq : s.ratios = some ratios
  length_ratios : ratios.length = m
  ratio : ∀ i < m, (ratios.map Ratio.value).getD i 0 =
    if tolerance < Grid.cell s.tableau i col then
      Grid.cell s.tableau i (n + m) / Grid.cell s.tableau i col
    else infinity
  least : FirstBest (· > ·) (ratios.map Ratio.value) row
  entering : s.entering = some (variableLabel col)
  leaving : s.leaving = s.basis[row]?

/-- A log that can be replayed: from the data on, each exchange on record turns its tableau and basis
into the next ones.  The first exchange is that of the tableau built from the data. -/
structure Replays (objective : List Float) (constraints : Grid Float) (limits : List Float)
    (tolerance : Float) (log : List (Snapshot Float)) : Prop where
  ne_nil : log ≠ []
  index : ∀ (j : Nat) (s : Snapshot Float), log[j]? = some s → s.index = j
  data : ∀ s : Snapshot Float, log[0]? = some s → RecordsData objective constraints limits s
  begin : ∀ s next : Snapshot Float, log[0]? = some s → log[1]? = some next →
    next.tableau = s.tableau ∧ next.basis = s.basis
  exchange : ∀ (j : Nat) (s : Snapshot Float), log[j + 1]? = some s → ∃ row col ratios,
    RecordsExchange objective.length constraints.length tolerance s row col ratios
  replay : ∀ (j : Nat) (s next : Snapshot Float), log[j + 1]? = some s → log[j + 2]? = some next →
    ∀ row col : Nat, s.pivot = some ⟨row, col⟩ →
      next.tableau = Grid.pivot s.tableau row col ∧ next.basis = s.basis.set row (variableLabel col)

/-! ## Replaying a run -/

namespace Simplex

variable {n m : Nat} {tolerance : Float} {t : Tableau Float}

theorem records_start {objective : List Float} {constraints : Grid Float} {limits : List Float}
    (hl : limits.length = constraints.length) {s : Snapshot Float} {b : Bool}
    (hs : s = { Run.firstSnapshot (start objective constraints limits) with isOptimal := b }) :
    RecordsData objective constraints limits s := by
  subst hs
  refine ⟨?_, fun i hi => getD_rows_start hl hi, fun i hi hi' => getD_rows_start_of_le hl hi hi',
    rfl, rfl, rfl, rfl, rfl⟩
  simp [Run.firstSnapshot, start, length_startRows hl]

/-- What one exchange leaves on record. -/
theorem records_turn {turn : Turn Float} (ht : Shape n m t)
    (hmove : t.move tolerance = .exchange turn) {index : Nat} {b : Bool} {s : Snapshot Float}
    (hs : s = { Run.turnSnapshot index turn with isOptimal := b }) :
    RecordsExchange n m tolerance s turn.row turn.entering turn.ratios := by
  subst hs
  have hrow := ht.row_lt hmove
  have hcol := ht.entering_lt hmove
  obtain ⟨⟨gain, hlead, -⟩, hleaving, rfl, hratios⟩ := move_eq_exchange hmove
  rw [hratios] at hleaving
  refine ⟨rfl, hrow, hcol, ?_, rfl, ?_, ?_, ?_, rfl, ?_⟩
  · have hbest := nanFirst_above.firstBest_of_leaderIdx? hlead
    rwa [gains, ht.basis_length] at hbest
  · rw [hratios, ht.length_ratios]
  · intro i hi
    rw [hratios, map_value_ratios]
    exact ht.getD_quotients tolerance _ hi
  · rw [hratios, map_value_ratios]
    exact firstBest_quotients hleaving
  · have hrow' : turn.row < turn.before.basis.length := by rw [ht.basis_length]; exact hrow
    simp [Run.turnSnapshot, basisLabels, Turn.leaving, hrow', List.getD_eq_getElem?_getD]

/-- The trace of a run can be replayed. -/
theorem replays_of_run {objective : List Float} {constraints : Grid Float} {limits : List Float}
    (hw : ∀ row ∈ constraints, row.length = objective.length)
    (hl : limits.length = constraints.length) (tolerance : Float) (cap : Nat) :
    Replays objective constraints limits tolerance
      (run tolerance cap (start objective constraints limits)).snapshots := by
  set r := run tolerance cap (start objective constraints limits) with hr
  have hshape := shape_start hw hl
  have hfirst : r.first = start objective constraints limits := first_run tolerance cap _
  refine ⟨?_, ?_, ?_, ?_, ?_, ?_⟩
  · exact List.ne_nil_of_length_eq_add_one r.length_snapshots
  · intro j s hs
    cases j with
    | zero => rw [Run.eq_firstSnapshot hs]; rfl
    | succ j =>
      obtain ⟨turn, -, hsnapshot⟩ := Run.exists_turnSnapshot hs
      rw [hsnapshot]
      rfl
  · intro s hs
    have hsnapshot := Run.eq_firstSnapshot hs
    rw [hfirst] at hsnapshot
    exact records_start hl hsnapshot
  · intro s next hs hnext
    have hsnapshot := Run.eq_firstSnapshot hs
    obtain ⟨turn, hturn, hturnSnapshot⟩ := Run.exists_turnSnapshot hnext
    have hbefore : turn.before = start objective constraints limits := before_of_first hturn
    rw [hsnapshot, hturnSnapshot, hfirst, ← hbefore]
    exact ⟨rfl, rfl⟩
  · intro j s hs
    obtain ⟨turn, hturn, hsnapshot⟩ := Run.exists_turnSnapshot hs
    obtain ⟨hreach, hmove⟩ := reaches_turn (List.mem_of_getElem? hturn)
    exact ⟨_, _, _, records_turn (hreach.shape hshape) hmove hsnapshot⟩
  · intro j s next hs hnext row col hpivot
    obtain ⟨turn, hturn, hsnapshot⟩ := Run.exists_turnSnapshot hs
    obtain ⟨turn', hturn', hsnapshot'⟩ := Run.exists_turnSnapshot hnext
    have hbefore : turn'.before = turn.after := before_of_next hturn hturn'
    have hplace : (turn.row : Int) = row ∧ (turn.entering : Int) = col := by
      rw [hsnapshot] at hpivot
      exact Pivot.mk.inj (Option.some.inj hpivot)
    obtain ⟨hrow, hcol⟩ := hplace
    rw [Int.ofNat_inj] at hrow hcol
    rw [hsnapshot, hsnapshot', ← hrow, ← hcol]
    simp only [Run.turnSnapshot, hbefore, Turn.after, Tableau.exchange, basisLabels, List.map_set,
      and_self]

/-- Every answer of the tableau method comes with a trace that can be replayed.  It has one snapshot
for the data, with a single limit repeated for every row, and one for each exchange, so that the cap
is reached exactly if the answer says so; the last snapshot is marked if the answer is an optimum, and
no other ever is. -/
theorem replays_of_solve {objective : List Float} {constraints : Grid Float} {rhs : List Float}
    {maximize : Bool} {options : Options Float} {solution : Solution Float}
    (h : solve objective constraints rhs maximize options = .ok solution) :
    ∃ limits log,
      (rhs.length = constraints.length ∧ limits = rhs ∨
        ∃ limit, rhs = [limit] ∧ limits = List.replicate constraints.length limit) ∧
      solution.iterations = some log ∧
      Replays (maximized maximize objective) constraints limits options.pivotTolerance log ∧
      (∀ j s, log[j]? = some s →
        (s.isOptimal = true ↔ solution.status = .optimal ∧ j + 1 = log.length)) ∧
      log.length ≤ options.maxIterations.toNat + 1 ∧
      (solution.status = .iterationLimit ↔ log.length = options.maxIterations.toNat + 1) := by
  cases hrun : run? objective constraints rhs maximize options with
  | error fault => rw [solve, hrun] at h; cases h
  | ok r =>
    rw [solve, hrun] at h
    obtain ⟨htrace, hoptimal, hcapped⟩ := Run.trace_of_solution h
    obtain ⟨hw, limits, hlimits, rfl⟩ := run?_eq_ok_iff.1 hrun
    rw [← length_maximized maximize objective] at hw
    have hl := length_of_valuesFor? hlimits
    obtain ⟨hcap, hcap'⟩ := length_turns_le options.pivotTolerance options.maxIterations.toNat
      (start (maximized maximize objective) constraints limits)
    refine ⟨limits, _, valuesFor?_eq_ok_iff.1 hlimits, htrace, replays_of_run hw hl _ _,
      fun j s hs => ?_, ?_, ?_⟩
    · rw [hoptimal]
      exact Run.isOptimal_iff hs
    · rw [Run.length_snapshots]
      omega
    · rw [hcapped, hcap', Run.length_snapshots, Nat.add_right_cancel_iff]

/-- The maximum of `3x₁ + 5x₂` over three rows that share the one limit `12`: the trace has the data, the
exchanges of both variables, and a mark on the last. -/
theorem replays_of_solve_shared_limit :
    ∃ solution log, solve (α := Float) [3, 5] [[1, 0], [0, 2], [3, 2]] [12] true
        ⟨100, 0, 0, 0, 2⟩ = .ok solution ∧
      solution.iterations = some log ∧
      log.map (fun s => (s.isOptimal, s.pivot)) =
        [(false, none), (false, some ⟨1, 1⟩), (true, some ⟨2, 0⟩)] ∧
      Replays [3, 5] [[1, 0], [0, 2], [3, 2]] [12, 12, 12] 0 log := by
  have hmarks : (solve (α := Float) [3, 5] [[1, 0], [0, 2], [3, 2]] [12] true
      ⟨100, 0, 0, 0, 2⟩).map (fun solution => solution.iterations.map
        (·.map fun s => (s.isOptimal, s.pivot))) =
      .ok (some [(false, none), (false, some ⟨1, 1⟩), (true, some ⟨2, 0⟩)]) := by
    decide +kernel
  cases hsolve : solve (α := Float) [3, 5] [[1, 0], [0, 2], [3, 2]] [12] true
      ⟨100, 0, 0, 0, 2⟩ with
  | error fault => rw [hsolve] at hmarks; cases hmarks
  | ok solution =>
    obtain ⟨limits, log, hlimits, hlog, hreplays, -⟩ := replays_of_solve hsolve
    obtain ⟨limit, hlimit, rfl⟩ := hlimits.resolve_left fun h => absurd h.1 (by decide)
    obtain rfl : 12 = limit := (List.cons.inj hlimit).1
    rw [hsolve, Except.map, hlog] at hmarks
    exact ⟨solution, log, rfl, hlog, Option.some.inj (Except.ok.inj hmarks), hreplays⟩

end Simplex

end LinearProgram
