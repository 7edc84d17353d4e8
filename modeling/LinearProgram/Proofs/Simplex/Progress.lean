import LinearProgram.Proofs.Simplex.Invariants
import LinearProgram.Proofs.Simplex.Snapshots
import LinearProgram.Proofs.Simplex.Verdict
import Mathlib.Data.Finset.Powerset
/-!
# Progress of a run

Over the rationals, with the tolerance zero and limits that are not negative.  An exchange adds to the
value the gain of the entering column times the ratio of the leaving row.  The gain is positive, so a run
loses nothing on its way and gains exactly where the ratio is positive.  The value depends only on the set
of the basic columns; where every exchange gains, no set comes twice, and there are not more of them than
sets of `m` out of `n + m` columns.

Proved:
* `value_after`: what one exchange does to the value.
* `progress_of_run`: the limits on record are never negative, and the value never decreases.
* `pairwise_value_lt`, `nodup_basisSets`, `length_turns_lt_choose`: where every exchange gains, the values
  increase, the sets of basic columns differ, and so there are few exchanges.
* `ends_of_positive_ratios`: so such a run ends by itself.
-/

namespace LinearProgram

open Tableau

namespace Tableau

variable {n m : Nat} {t : Tableau ℚ} {turn : Turn ℚ}

/-- An exchange adds to the value the gain of the entering column for each unit of the ratio. -/
theorem Shape.value_exchange (h : Shape n m t) {r : Nat} (hr : r < m) (j : Nat) :
    value n m (t.exchange r j) =
      value n m t + t.rows.cell (m + 1) j * (t.rows.cell r (n + m) / t.rows.cell r j) := by
  have hr' : r < t.rows.length := by rw [h.height]; omega
  rw [value, Tableau.exchange, Grid.cell_pivot h.width hr', if_neg (by omega)]
  ring

/-- The ratio of the leaving row is the quotient of its limit and the pivot. -/
theorem Shape.ratio_row (h : Shape n m t) {tolerance : ℚ} (hmove : t.move tolerance = .exchange turn) :
    turn.ratios[turn.row]? =
      some (.limit (t.rows.cell turn.row (n + m) / t.rows.cell turn.row turn.entering)) := by
  obtain ⟨hex, -⟩ := exchange_spec h hmove
  obtain ⟨-, -, -, hratios⟩ := move_eq_exchange hmove
  rw [hratios, h.getElem?_ratios_rat tolerance _ hex.row_lt, if_pos hex.pivot]

/-- An exchange never lowers the value, and raises it exactly if the ratio of its row is positive. -/
theorem value_after (h : Shape n m t) (hl : LimitsNonneg n m t) (hmove : t.move 0 = .exchange turn) :
    ∃ ratio, turn.ratios[turn.row]? = some (.limit ratio) ∧
      value n m t ≤ value n m turn.after ∧ (value n m t < value n m turn.after ↔ 0 < ratio) := by
  obtain ⟨hex, hafter⟩ := exchange_spec h hmove
  refine ⟨_, h.ratio_row hmove, ?_, ?_⟩
  · have hratio : 0 ≤ t.rows.cell turn.row (n + m) / t.rows.cell turn.row turn.entering :=
      div_nonneg (hl turn.row hex.row_lt) hex.pivot.le
    rw [hafter, h.value_exchange hex.row_lt]
    exact le_add_of_nonneg_right (mul_nonneg hex.gain.le hratio)
  · rw [hafter, h.value_exchange hex.row_lt, lt_add_iff_pos_right]
    exact mul_pos_iff_of_pos_left hex.gain

/-- The basis of a canonical tableau is a set of `m` out of `n + m` columns. -/
theorem Canonical.toFinset_basis_mem (h : Canonical n m t) :
    t.basis.toFinset ∈ Finset.powersetCard m (Finset.range (n + m)) := by
  rw [Finset.mem_powersetCard]
  refine ⟨fun j hj => Finset.mem_range.2 (h.basis_lt j (List.mem_toFinset.1 hj)), ?_⟩
  rw [List.toFinset_card_of_nodup h.nodup_basis, h.basis_length]

theorem toFinset_basis_of_labels {u : Tableau ℚ}
    (h : t.basisLabels.toFinset = u.basisLabels.toFinset) : t.basis.toFinset = u.basis.toFinset := by
  ext j
  have hj : variableLabel j ∈ t.basisLabels ↔ variableLabel j ∈ u.basisLabels := by
    rw [← List.mem_toFinset, h, List.mem_toFinset]
  rw [basisLabels, basisLabels, List.mem_map_of_injective variableLabel_injective,
    List.mem_map_of_injective variableLabel_injective] at hj
  rw [List.mem_toFinset, List.mem_toFinset, hj]

end Tableau

namespace Simplex

/-! ## Runs in which every exchange gains -/

section Runs

variable {gains : List ℚ} {rows : Grid ℚ} {limits : List ℚ}
  (hw : ∀ row ∈ rows, row.length = gains.length) (hl : limits.length = rows.length) {cap : Nat}

include hw hl

theorem limitsNonneg_of_mem_states (hlimits : ∀ v ∈ limits, 0 ≤ v) {t : Tableau ℚ}
    (ht : t ∈ (run 0 cap (start gains rows limits)).states) :
    LimitsNonneg gains.length rows.length t :=
  reaches_limitsNonneg (reaches_of_mem_states ht) (shape_start hw hl)
    (limitsNonneg_start hw hl hlimits)

/-- States with the same set of basic columns have the same value. -/
theorem value_eq_of_toFinset_eq {t u : Tableau ℚ}
    (ht : t ∈ (run 0 cap (start gains rows limits)).states)
    (hu : u ∈ (run 0 cap (start gains rows limits)).states)
    (hbasis : t.basis.toFinset = u.basis.toFinset) :
    value gains.length rows.length t = value gains.length rows.length u := by
  have hstart := canonical_start hw hl
  have hequiv : ∀ {v}, v ∈ (run 0 cap (start gains rows limits)).states →
      Equivalent gains.length rows.length (start gains rows limits) v :=
    fun hv => reaches_equivalent le_rfl (reaches_of_mem_states hv) hstart
  refine (reaches_canonical le_rfl (reaches_of_mem_states ht) hstart).value_eq_of_mem_iff
    (reaches_canonical le_rfl (reaches_of_mem_states hu) hstart)
    ((hequiv ht).symm.trans (hequiv hu)) fun j => ?_
  rw [← List.mem_toFinset, hbasis, List.mem_toFinset]

/-- What an exchange of a run does to the value, between its state and the next. -/
theorem value_of_turn (hlimits : ∀ v ∈ limits, 0 ≤ v) {turn : Turn ℚ}
    (hturn : turn ∈ (run 0 cap (start gains rows limits)).turns) :
    ∃ ratio, turn.ratios[turn.row]? = some (.limit ratio) ∧
      value gains.length rows.length turn.before ≤ value gains.length rows.length turn.after ∧
      (value gains.length rows.length turn.before < value gains.length rows.length turn.after ↔
        0 < ratio) := by
  obtain ⟨hreach, hmove⟩ := reaches_turn hturn
  exact value_after (hreach.shape (shape_start hw hl))
    (limitsNonneg_of_mem_states hw hl hlimits (before_mem_states hturn)) hmove

section Gaining

variable (hlimits : ∀ v ∈ limits, 0 ≤ v)
  (hgaining : ∀ turn ∈ (run 0 cap (start gains rows limits)).turns,
    ∃ ratio, turn.ratios[turn.row]? = some (.limit ratio) ∧ 0 < ratio)

include hlimits hgaining

/-- Where every exchange has a positive ratio, each state has a higher value than those before it. -/
theorem pairwise_value_lt :
    (run 0 cap (start gains rows limits)).states.Pairwise fun t u =>
      value gains.length rows.length t < value gains.length rows.length u := by
  set r := run 0 cap (start gains rows limits)
  have hchain : (r.states.map (value gains.length rows.length)).IsChain (· < ·) := by
    rw [List.isChain_map, List.isChain_iff_getElem]
    intro k hk
    have hk' : k < r.turns.length := by simpa [Run.states] using hk
    have hturn : r.turns[k]? = some r.turns[k] := List.getElem?_eq_getElem hk'
    obtain ⟨hbefore, hafter⟩ := getElem?_states hturn
    rw [(List.getElem?_eq_some_iff.1 hbefore).2, (List.getElem?_eq_some_iff.1 hafter).2]
    obtain ⟨ratio, hratio, -, hiff⟩ := value_of_turn hw hl hlimits (List.mem_of_getElem? hturn)
    obtain ⟨ratio', hratio', hpos⟩ := hgaining _ (List.mem_of_getElem? hturn)
    obtain rfl : ratio = ratio' := Ratio.limit.inj (Option.some.inj (hratio.symm.trans hratio'))
    exact hiff.2 hpos
  exact List.pairwise_map.1 (List.isChain_iff_pairwise.1 hchain)

/-- So no set of basic columns comes twice. -/
theorem nodup_basisSets :
    ((run 0 cap (start gains rows limits)).states.map (·.basis.toFinset)).Nodup := by
  rw [List.nodup_iff_pairwise_ne, List.pairwise_map]
  refine (pairwise_value_lt hw hl hlimits hgaining).imp_of_mem fun ht hu hlt hbasis => ?_
  exact hlt.ne (value_eq_of_toFinset_eq hw hl ht hu hbasis)

/-- So two of its exchanges are made from different sets. -/
theorem toFinset_ne_of_turns {j k : Nat} (hjk : j < k) {turn turn' : Turn ℚ}
    (hj : (run 0 cap (start gains rows limits)).turns[j]? = some turn)
    (hk : (run 0 cap (start gains rows limits)).turns[k]? = some turn') :
    turn.before.basis.toFinset ≠ turn'.before.basis.toFinset := by
  have hset : ∀ {i : Nat} {turn : Turn ℚ}, (run 0 cap (start gains rows limits)).turns[i]? = some turn →
      ((run 0 cap (start gains rows limits)).states.map (·.basis.toFinset))[i]? =
        some turn.before.basis.toFinset := by
    intro i turn hturn
    rw [List.getElem?_map, (getElem?_states hturn).1]
    rfl
  intro hbasis
  refine List.nodup_iff_getElem?_ne_getElem?.1 (nodup_basisSets hw hl hlimits hgaining) j k hjk
    (List.getElem?_eq_some_iff.1 (hset hk)).1 ?_
  rw [hset hj, hset hk, hbasis]

/-- So there are fewer exchanges than sets that a basis can be. -/
theorem length_turns_lt_choose :
    (run 0 cap (start gains rows limits)).turns.length <
      (gains.length + rows.length).choose rows.length := by
  set r := run 0 cap (start gains rows limits)
  have hsubset : (r.states.map (·.basis.toFinset)).toFinset ⊆
      Finset.powersetCard rows.length (Finset.range (gains.length + rows.length)) := by
    intro basis hbasis
    obtain ⟨t, ht, rfl⟩ := List.mem_map.1 (List.mem_toFinset.1 hbasis)
    exact (reaches_canonical le_rfl (reaches_of_mem_states ht) (canonical_start hw hl)).toFinset_basis_mem
  have hcard := Finset.card_le_card hsubset
  rw [List.toFinset_card_of_nodup (nodup_basisSets hw hl hlimits hgaining), Finset.card_powersetCard,
    Finset.card_range, List.length_map, Run.states, List.length_append, List.length_map,
    List.length_singleton] at hcard
  exact hcard

end Gaining

end Runs

/-! ## What is on record -/

variable {objective : List ℚ} {constraints : Grid ℚ} {rhs : List ℚ} {maximize : Bool}
  {options : Options ℚ} {r : Run ℚ}

/-- No limit on record is ever negative, nor is one of the last tableau.  The value starts at zero and never
decreases from a state to the next, and it increases exactly if the exchange on record between them has a
positive ratio at its pivot. -/
theorem progress_of_run (htol : options.pivotTolerance = 0) (hrhs : ∀ b ∈ rhs, 0 ≤ b)
    (hrun : run? objective constraints rhs maximize options = .ok r) :
    (∀ s ∈ r.snapshots, ∀ i < constraints.length,
      0 ≤ Grid.cell s.tableau i (objective.length + constraints.length)) ∧
      LimitsNonneg objective.length constraints.length r.last ∧
      (∃ t, r.states[0]? = some t ∧ value objective.length constraints.length t = 0) ∧
      ∀ k s, r.snapshots[k + 1]? = some s → ∃ t next ratio,
        r.states[k]? = some t ∧ r.states[k + 1]? = some next ∧ s.tableau = t.rows ∧
        s.pivotRatio? = some (.limit ratio) ∧
        value objective.length constraints.length t ≤
          value objective.length constraints.length next ∧
        (value objective.length constraints.length t <
          value objective.length constraints.length next ↔ 0 < ratio) := by
  obtain ⟨hw, limits, hlimits, rfl⟩ := run?_eq_ok_iff.1 hrun
  have hl := length_of_valuesFor? hlimits
  have hnonneg : ∀ v ∈ limits, 0 ≤ v := fun v hv => hrhs v (mem_of_valuesFor? hlimits hv)
  rw [← length_maximized maximize objective] at hw ⊢
  rw [htol]
  set r := run 0 options.maxIterations.toNat
    (start (maximized maximize objective) constraints limits) with hr
  have hstates : ∀ t ∈ r.states,
      LimitsNonneg (maximized maximize objective).length constraints.length t :=
    fun t ht => limitsNonneg_of_mem_states hw hl hnonneg ht
  have hfirst := r.getElem?_states_zero
  refine ⟨fun s hs i hi => ?_, hstates _ (last_mem_states r), ⟨_, hfirst, ?_⟩, fun k s hs => ?_⟩
  · obtain ⟨j, hj⟩ := List.getElem?_of_mem hs
    cases j with
    | zero =>
      rw [Run.eq_firstSnapshot hj]
      exact hstates _ (List.mem_of_getElem? hfirst) i hi
    | succ j =>
      obtain ⟨turn, hturn, hsnapshot⟩ := Run.exists_turnSnapshot hj
      rw [hsnapshot]
      exact hstates _ (before_mem_states (List.mem_of_getElem? hturn)) i hi
  · rw [hr, first_run, value, cell_start_gain_slack hl (by omega) (by omega) le_rfl, neg_zero]
  · obtain ⟨turn, hturn, hsnapshot⟩ := Run.exists_turnSnapshot hs
    obtain ⟨hbefore, hafter⟩ := getElem?_states hturn
    obtain ⟨ratio, hratio, hle, hiff⟩ := value_of_turn hw hl hnonneg (List.mem_of_getElem? hturn)
    rw [hsnapshot]
    exact ⟨_, _, ratio, hbefore, hafter, rfl, Run.pivotRatio?_turnSnapshot.trans hratio, hle, hiff⟩

/-- The maximum of `2x₁ + x₂` over `x₁ - x₂ ≤ 0`, `x₁ ≤ 4`, `x₂ ≤ 6`: the first exchange has the ratio zero and
leaves the value at zero, the two after it gain. -/
theorem progress_of_run_three_exchanges :
    ∃ r, run? (α := ℚ) [2, 1] [[1, -1], [1, 0], [0, 1]] [0, 4, 6] true ⟨100, 0, 0, 0, 2⟩ = .ok r ∧
      r.states.map (value 2 3) = [0, 0, 12, 14] ∧
      r.snapshots.map (·.pivotRatio?) =
        [none, some (.limit 0), some (.limit 4), some (.limit 2)] ∧
      (∀ s ∈ r.snapshots, ∀ i < 3, 0 ≤ Grid.cell s.tableau i 5) ∧ LimitsNonneg 2 3 r.last ∧
      ∀ k s, r.snapshots[k + 1]? = some s → ∃ t next ratio,
        r.states[k]? = some t ∧ r.states[k + 1]? = some next ∧ s.tableau = t.rows ∧
        s.pivotRatio? = some (.limit ratio) ∧ value 2 3 t ≤ value 2 3 next ∧
        (value 2 3 t < value 2 3 next ↔ 0 < ratio) := by
  have hrun : run? (α := ℚ) [2, 1] [[1, -1], [1, 0], [0, 1]] [0, 4, 6] true ⟨100, 0, 0, 0, 2⟩ =
      .ok (run 0 100 (start (maximized true [2, 1]) [[1, -1], [1, 0], [0, 1]] [0, 4, 6])) :=
    run?_eq_ok (by decide) rfl _ _
  obtain ⟨hrecord, hlast, -, hprogress⟩ := progress_of_run rfl (by decide) hrun
  exact ⟨_, hrun, by decide +kernel, by decide +kernel, hrecord, hlast, hprogress⟩

/-- A run in which every exchange on record has a positive ratio at its pivot ends by itself.  No two
exchanges on record have the same set of basic columns, there are fewer of them than sets of `m` out of
`n + m` columns, and a cap that is no lower than this number is not reached. -/
theorem ends_of_positive_ratios (htol : options.pivotTolerance = 0) (hrhs : ∀ b ∈ rhs, 0 ≤ b)
    (hrun : run? objective constraints rhs maximize options = .ok r)
    (hratios : ∀ s ∈ r.snapshots, s.pivot ≠ none →
      ∃ ratio, s.pivotRatio? = some (.limit ratio) ∧ 0 < ratio) :
    (∀ j k s s', 1 ≤ j → j < k → r.snapshots[j]? = some s → r.snapshots[k]? = some s' →
      s.basis.toFinset ≠ s'.basis.toFinset) ∧
      r.turns.length < (objective.length + constraints.length).choose constraints.length ∧
      (((objective.length + constraints.length).choose constraints.length : Int) ≤
          options.maxIterations →
        r.ending ≠ .capped ∧
          ∀ solution, solve objective constraints rhs maximize options = .ok solution →
            solution.status ≠ .iterationLimit) := by
  have hsolve : solve objective constraints rhs maximize options =
      r.solution (columnCosts objective constraints.length) objective.length options := by
    rw [solve, hrun]
    rfl
  have hgaining : ∀ turn ∈ r.turns,
      ∃ ratio, turn.ratios[turn.row]? = some (.limit ratio) ∧ 0 < ratio := by
    intro turn hturn
    obtain ⟨k, hk⟩ := List.getElem?_of_mem hturn
    obtain ⟨b, hs⟩ := Run.exists_getElem?_snapshots hk
    exact hratios _ (List.mem_of_getElem? hs) (Option.some_ne_none _)
  obtain ⟨hw, limits, hlimits, rfl⟩ := run?_eq_ok_iff.1 hrun
  have hl := length_of_valuesFor? hlimits
  have hnonneg : ∀ v ∈ limits, 0 ≤ v := fun v hv => hrhs v (mem_of_valuesFor? hlimits hv)
  rw [← length_maximized maximize objective] at hw ⊢
  rw [htol] at hgaining hsolve ⊢
  have hfew := length_turns_lt_choose hw hl hnonneg hgaining
  have hcapped := (length_turns_le (0 : ℚ) options.maxIterations.toNat
    (start (maximized maximize objective) constraints limits)).2
  refine ⟨fun j k s s' hj hjk hs hs' hbasis => ?_, hfew, fun hcap => ?_⟩
  · obtain ⟨j, rfl⟩ := Nat.exists_eq_add_of_le' hj
    obtain ⟨k, rfl⟩ := Nat.exists_eq_add_of_le' (hj.trans hjk.le)
    obtain ⟨turn, hturn, hsnapshot⟩ := Run.exists_turnSnapshot hs
    obtain ⟨turn', hturn', hsnapshot'⟩ := Run.exists_turnSnapshot hs'
    rw [hsnapshot, hsnapshot'] at hbasis
    exact toFinset_ne_of_turns hw hl hnonneg hgaining (by omega) hturn hturn'
      (toFinset_basis_of_labels hbasis)
  · have hending := hcapped.not.2 (by omega)
    refine ⟨hending, fun solution h hstatus => hending ?_⟩
    rw [hsolve] at h
    exact (Run.trace_of_solution h).2.2.1 hstatus

/-- The maximum of `3x₁ + 5x₂` over `x₁ ≤ 4`, `2x₂ ≤ 12`, `3x₁ + 2x₂ ≤ 18`: a cap of ten, as many as there are
sets of three out of five columns, is not reached. -/
theorem ends_of_positive_ratios_two_exchanges :
    ∃ r, run? (α := ℚ) [3, 5] [[1, 0], [0, 2], [3, 2]] [4, 12, 18] true ⟨10, 0, 0, 0, 2⟩ = .ok r ∧
      r.snapshots.map (fun s => (s.pivot, s.pivotRatio?)) =
        [(none, none), (some ⟨1, 1⟩, some (.limit 6)), (some ⟨2, 0⟩, some (.limit 2))] ∧
      (∀ j k s s', 1 ≤ j → j < k → r.snapshots[j]? = some s → r.snapshots[k]? = some s' →
        s.basis.toFinset ≠ s'.basis.toFinset) ∧
      r.turns.length < 10 ∧
      ∀ solution, solve (α := ℚ) [3, 5] [[1, 0], [0, 2], [3, 2]] [4, 12, 18] true
        ⟨10, 0, 0, 0, 2⟩ = .ok solution → solution.status ≠ .iterationLimit := by
  have hrun : run? (α := ℚ) [3, 5] [[1, 0], [0, 2], [3, 2]] [4, 12, 18] true ⟨10, 0, 0, 0, 2⟩ =
      .ok (run 0 10 (start (maximized true [3, 5]) [[1, 0], [0, 2], [3, 2]] [4, 12, 18])) :=
    run?_eq_ok (by decide) rfl _ _
  have hrecord : (run 0 10 (start (α := ℚ) (maximized true [3, 5]) [[1, 0], [0, 2], [3, 2]]
      [4, 12, 18])).snapshots.map (fun s => (s.pivot, s.pivotRatio?)) =
      [(none, none), (some ⟨1, 1⟩, some (.limit 6)), (some ⟨2, 0⟩, some (.limit 2))] := by
    decide +kernel
  obtain ⟨hsets, hfew, hcap⟩ := ends_of_positive_ratios rfl (by decide) hrun fun s hs hpivot => by
    have hmem := List.mem_map_of_mem (f := fun s : Snapshot ℚ => (s.pivot, s.pivotRatio?)) hs
    rw [hrecord] at hmem
    rcases List.mem_cons.1 hmem with hnone | hmem
    · exact absurd (Prod.ext_iff.1 hnone).1 hpivot
    · rcases List.mem_cons.1 hmem with hfirst | hmem
      · exact ⟨6, (Prod.ext_iff.1 hfirst).2, by decide⟩
      · exact ⟨2, (Prod.ext_iff.1 (List.mem_singleton.1 hmem)).2, by decide⟩
  exact ⟨_, hrun, hrecord, hsets, hfew, (hcap (by decide)).2⟩

end Simplex

end LinearProgram
