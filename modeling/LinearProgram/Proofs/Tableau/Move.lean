import LinearProgram.Proofs.Tableau.Shape
/-!
# Moves over the rationals

What a move of the method says about the cells of a tableau of a shape, over the rationals: which
columns still gain, where the pivot stands, and that its row has the least ratio of the rows that
limit the entering column (`exchange_spec`, `unbounded_spec`, `stop_spec`).
-/

namespace LinearProgram.Tableau

variable {n m : Nat} {t : Tableau ℚ}

theorem ofQuotient_rat (q : ℚ) : Ratio.ofQuotient q = .limit q := by
  simp [Ratio.ofQuotient, Scalar.isInfinite, Scalar.isNaN, Scalar.isFinite]

theorem Shape.getElem?_ratios_rat (h : Shape n m t) (tolerance : ℚ) (j : Nat) {i : Nat}
    (hi : i < m) : (t.ratios tolerance j)[i]? = some
      (if tolerance < t.rows.cell i j then .limit (t.rows.cell i (n + m) / t.rows.cell i j)
        else .unlimited) := by
  rw [h.getElem?_ratios tolerance j hi, ofQuotient_rat]

/-- The largest gain: no column gains more. -/
theorem Shape.gain_le (h : Shape n m t) {k : Nat} {gain : ℚ}
    (hlead : leaderIdx? Scalar.above t.gains = some (k, gain)) :
    k < n + m ∧ gain = t.rows.cell (m + 1) k ∧ ∀ j < n + m, t.rows.cell (m + 1) j ≤ gain := by
  have hk : k < n + m := by
    rw [← h.length_gains]
    exact lt_length_of_leaderIdx? hlead
  have hget := getElem?_of_leaderIdx? hlead
  rw [h.getElem?_gains hk, Option.some.injEq] at hget
  refine ⟨hk, hget.symm, ?_⟩
  intro j hj
  have hmem := List.mem_of_getElem? (h.getElem?_gains hj)
  have hmax := not_beats_leaderIdx? ranking_above hlead _ hmem
  rw [above_rat, decide_eq_false_iff_not] at hmax
  exact not_lt.1 hmax

/-! ## The three moves -/

variable {tolerance : ℚ}

/-- Where the method stops no column gains more than the tolerance. -/
theorem stop_spec (h : Shape n m t) (hmove : t.move tolerance = .stop) :
    ∀ j < n + m, t.rows.cell (m + 1) j ≤ tolerance := by
  intro j hj
  cases hlead : leaderIdx? Scalar.above t.gains with
  | none =>
    have hlen := h.length_gains
    rw [leaderIdx?_eq_none_iff.1 hlead, List.length_nil] at hlen
    omega
  | some lead =>
    obtain ⟨-, -, hmax⟩ := h.gain_le hlead
    exact (hmax j hj).trans (move_eq_stop hmove hlead)

/-- Where the method gives up the entering column gains, and no row has an entry above the tolerance
in it. -/
theorem unbounded_spec (h : Shape n m t) {entering : Nat}
    (hmove : t.move tolerance = .unbounded entering) :
    entering < n + m ∧ tolerance < t.rows.cell (m + 1) entering ∧
      ∀ i < m, t.rows.cell i entering ≤ tolerance := by
  obtain ⟨⟨gain, hlead, hgain⟩, hrow⟩ := move_eq_unbounded hmove
  obtain ⟨hlt, rfl, -⟩ := h.gain_le hlead
  refine ⟨hlt, not_le.1 hgain, ?_⟩
  intro i hi
  by_contra hentry
  have hfin := leavingRow?_eq_none_iff.1 hrow _
    (List.mem_of_getElem? (h.getElem?_ratios_rat tolerance entering hi))
  rw [if_pos (not_le.1 hentry)] at hfin
  exact Bool.false_ne_true hfin.symm

/-- What the method exchanges: the entering column gains, the pivot is above the tolerance, and no row
that limits the entering column has a lower ratio. -/
structure Exchanges (n m : Nat) (tolerance : ℚ) (t : Tableau ℚ) (row entering : Nat) : Prop where
  row_lt : row < m
  entering_lt : entering < n + m
  gain : tolerance < t.rows.cell (m + 1) entering
  pivot : tolerance < t.rows.cell row entering
  least : ∀ i < m, tolerance < t.rows.cell i entering →
    t.rows.cell row (n + m) / t.rows.cell row entering ≤
      t.rows.cell i (n + m) / t.rows.cell i entering

/-- The least ratio is that of a row that limits the column. -/
theorem Shape.leaving_spec (h : Shape n m t) {row j : Nat}
    (hrow : leavingRow? (t.ratios tolerance j) = some row) :
    row < m ∧ tolerance < t.rows.cell row j ∧ ∀ i < m, tolerance < t.rows.cell i j →
      t.rows.cell row (n + m) / t.rows.cell row j ≤ t.rows.cell i (n + m) / t.rows.cell i j := by
  obtain ⟨⟨other, hother, hfin⟩, ratio, hlead⟩ := leavingRow?_eq_some hrow
  have hlt : row < m := by
    rw [← h.length_ratios tolerance j]
    exact lt_length_of_leaderIdx? hlead
  have hleast := not_beats_leaderIdx? ranking_below hlead
  have hget := getElem?_of_leaderIdx? hlead
  rw [h.getElem?_ratios_rat tolerance j hlt, Option.some.injEq] at hget
  -- A row without a ratio would be beaten by the one that has a number.
  have hpivot : tolerance < t.rows.cell row j := by
    by_contra hentry
    rw [if_neg hentry] at hget
    have hbeaten := hleast other hother
    rw [← hget] at hbeaten
    cases other with
    | limit q => exact Bool.false_ne_true hbeaten.symm
    | unlimited => exact Bool.false_ne_true hfin
  refine ⟨hlt, hpivot, ?_⟩
  intro i hi hentry
  have hi' := hleast _ (List.mem_of_getElem? (h.getElem?_ratios_rat tolerance j hi))
  rw [if_pos hpivot] at hget
  rw [if_pos hentry, ← hget, below_limit_rat, decide_eq_false_iff_not] at hi'
  exact not_lt.1 hi'

theorem exchange_spec (h : Shape n m t) {turn : Turn ℚ}
    (hmove : t.move tolerance = .exchange turn) :
    Exchanges n m tolerance t turn.row turn.entering ∧
      turn.after = t.exchange turn.row turn.entering := by
  obtain ⟨⟨gain, hlead, hgain⟩, hrow, hbefore, hratios⟩ := move_eq_exchange hmove
  obtain ⟨hentering, rfl, -⟩ := h.gain_le hlead
  rw [hratios] at hrow
  obtain ⟨hlt, hpivot, hleast⟩ := h.leaving_spec hrow
  exact ⟨⟨hlt, hentering, not_le.1 hgain, hpivot, hleast⟩, by rw [Turn.after, hbefore]⟩

end LinearProgram.Tableau
