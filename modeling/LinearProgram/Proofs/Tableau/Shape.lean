import LinearProgram.Proofs.Leader
import LinearProgram.Proofs.Pivot
/-!
# The shape of a tableau

A tableau for `m` rows and `n` variables has `m + 2` rows of `n + m + 1` cells and a basis of `m`
columns among the first `n + m`.  The statements here hold over any scalars: the first tableau has
this shape, the moves are inverted into what they say (`move_eq_exchange`, `move_eq_unbounded`,
`move_eq_stop`), and every exchange that the method decides on has its pivot among the constraint
rows and the columns of variables, so it keeps the shape (`Shape.after`).
-/

namespace LinearProgram.Tableau

variable {α : Type}

/-- A tableau for `m` rows and `n` variables. -/
structure Shape (n m : Nat) (t : Tableau α) : Prop where
  height : t.rows.length = m + 2
  width : ∀ row ∈ t.rows, row.length = n + m + 1
  basis_length : t.basis.length = m
  basis_lt : ∀ j ∈ t.basis, j < n + m

namespace Shape

variable {n m : Nat} {t : Tableau α}

theorem length_getD (h : Shape n m t) {i : Nat} (hi : i < m + 2) :
    (t.rows.getD i []).length = n + m + 1 :=
  h.width _ (Grid.getD_mem (by rw [h.height]; exact hi))

theorem length_constraintRows (h : Shape n m t) : t.constraintRows.length = m := by
  rw [constraintRows, List.length_take, h.basis_length, h.height]
  omega

theorem getD_constraintRows (h : Shape n m t) {i : Nat} (hi : i < m) :
    t.constraintRows.getD i [] = t.rows.getD i [] := by
  rw [constraintRows, h.basis_length, List.getD_eq_getElem?_getD, List.getElem?_take_of_lt hi,
    List.getD_eq_getElem?_getD]

theorem getElem?_constraintRows (h : Shape n m t) {i : Nat} (hi : i < m) :
    t.constraintRows[i]? = some (t.rows.getD i []) := by
  have hi' : i < t.constraintRows.length := by rw [h.length_constraintRows]; exact hi
  rw [← h.getD_constraintRows hi, List.getD_eq_getElem _ _ hi', List.getElem?_eq_getElem hi']

theorem getD_basis_lt (h : Shape n m t) {i : Nat} (hi : i < m) :
    t.basis.getD i 0 < n + m := by
  have hi' : i < t.basis.length := by rw [h.basis_length]; exact hi
  rw [List.getD_eq_getElem _ _ hi']
  exact h.basis_lt _ (List.getElem_mem hi')

theorem length_gains (h : Shape n m t) : t.gains.length = n + m := by
  rw [gains, h.basis_length, List.length_dropLast, h.length_getD (Nat.lt_succ_self _)]
  rfl

end Shape

variable [Scalar α]

/-! ## The first tableau -/

@[simp]
theorem length_unitRow (size i : Nat) : (unitRow size i : List α).length = size := by
  simp [unitRow]

theorem length_startRows {rows : Grid α} {limits : List α} (hl : limits.length = rows.length) :
    (startRows rows limits).length = rows.length := by
  simp [startRows, hl]

theorem getD_startRows {rows : Grid α} {limits : List α} (hl : limits.length = rows.length)
    {i : Nat} (hi : i < rows.length) :
    (startRows rows limits).getD i [] =
      rows.getD i [] ++ unitRow rows.length i ++ [limits.getD i 0] := by
  have hi' : i < limits.length := hl ▸ hi
  simp [startRows, List.getD_eq_getElem?_getD, hi, hi']

/-- The first tableau has the shape of the problem. -/
theorem shape_start {objective : List α} {rows : Grid α} {limits : List α}
    (hw : ∀ row ∈ rows, row.length = objective.length) (hl : limits.length = rows.length) :
    Shape objective.length rows.length (start objective rows limits) where
  height := by simp [start, length_startRows hl]
  width := by
    intro row hrow
    rcases List.mem_append.1 hrow with hrow | hrow
    · obtain ⟨i, hi, rfl⟩ := List.getElem_of_mem hrow
      have hi' : i < rows.length := length_startRows hl ▸ hi
      rw [← List.getD_eq_getElem _ [] hi, getD_startRows hl hi', List.length_append,
        List.length_append, length_unitRow, hw _ (Grid.getD_mem hi')]
      rfl
    · have hgains : row = objective ++ List.replicate (rows.length + 1) 0 := by simpa using hrow
      rw [hgains, List.length_append, List.length_replicate]
      omega
  basis_length := by simp [start]
  basis_lt := by
    intro j hj
    exact (List.mem_range'_1.1 hj).2

/-! ## Reading a tableau of a shape -/

theorem getLastD_eq_getD {row : List α} {k : Nat} (h : row.length = k + 1) :
    row.getLastD 0 = row.getD k 0 := by
  rw [List.getLastD_eq_getLast?, List.getLast?_eq_getElem?, h, Nat.add_sub_cancel,
    List.getD_eq_getElem?_getD]

namespace Shape

variable {n m : Nat} {t : Tableau α}

theorem length_ratios (h : Shape n m t) (tolerance : α) (j : Nat) :
    (t.ratios tolerance j).length = m := by
  rw [ratios, List.length_map, h.length_constraintRows]

theorem length_limits (h : Shape n m t) : t.limits.length = m := by
  rw [limits, List.length_map, h.length_constraintRows]

theorem getElem?_gains (h : Shape n m t) {j : Nat} (hj : j < n + m) :
    t.gains[j]? = some (t.rows.cell (m + 1) j) := by
  have hlen : (t.rows.getD (m + 1) []).length = n + m + 1 := h.length_getD (by omega)
  have hj' : j < (t.rows.getD (m + 1) []).length := by omega
  rw [gains, h.basis_length, List.getElem?_dropLast, hlen, if_pos (by omega), Grid.cell,
    List.getD_eq_getElem _ _ hj', List.getElem?_eq_getElem hj']

theorem getElem?_limits (h : Shape n m t) {i : Nat} (hi : i < m) :
    t.limits[i]? = some (t.rows.cell i (n + m)) := by
  rw [limits, List.getElem?_map, h.getElem?_constraintRows hi, Option.map_some,
    getLastD_eq_getD (h.length_getD (by omega))]
  rfl

theorem getElem?_ratios (h : Shape n m t) (tolerance : α) (j : Nat) {i : Nat} (hi : i < m) :
    (t.ratios tolerance j)[i]? = some
      (if tolerance < t.rows.cell i j then
        Ratio.ofQuotient (t.rows.cell i (n + m) / t.rows.cell i j) else .unlimited) := by
  rw [ratios, List.getElem?_map, h.getElem?_constraintRows hi, Option.map_some,
    getLastD_eq_getD (h.length_getD (by omega))]
  rfl

/-- Tableaux of one shape are equal if their bases and their cells are. -/
theorem ext {u : Tableau α} (h : Shape n m t) (hu : Shape n m u) (hbasis : t.basis = u.basis)
    (hcells : ∀ i < m + 2, ∀ j < n + m + 1, t.rows.cell i j = u.rows.cell i j) : t = u := by
  have hrows : t.rows = u.rows :=
    Grid.ext_cell (by rw [h.height, hu.height]) h.width hu.width (by rw [h.height]; exact hcells)
  cases t
  cases u
  simp_all

/-- An exchange within the tableau keeps its shape. -/
theorem exchange (h : Shape n m t) {r j : Nat} (hr : r < m) (hj : j < n + m) :
    Shape n m (t.exchange r j) where
  height := by rw [Tableau.exchange, Grid.length_pivot, h.height]
  width := Grid.width_pivot h.width (by rw [h.height]; omega) j
  basis_length := by rw [Tableau.exchange, List.length_set, h.basis_length]
  basis_lt := by
    intro k hk
    rcases List.mem_or_eq_of_mem_set hk with hk | rfl
    · exact h.basis_lt k hk
    · exact hj

end Shape

/-! ## What a move says -/

/-- The row that leaves leads the ratios, of which one at least is a number. -/
theorem leavingRow?_eq_some {ratios : List (Ratio α)} {row : Nat}
    (h : leavingRow? ratios = some row) :
    (∃ ratio ∈ ratios, ratio.isFinite = true) ∧
      ∃ ratio, leaderIdx? Ratio.below ratios = some (row, ratio) := by
  unfold leavingRow? at h
  split at h
  · next hany =>
    obtain ⟨⟨k, ratio⟩, hlead, rfl⟩ := Option.map_eq_some_iff.1 h
    exact ⟨List.any_eq_true.1 hany, ratio, hlead⟩
  · exact absurd h (by simp)

/-- No row leaves exactly if no ratio is a number. -/
theorem leavingRow?_eq_none_iff {ratios : List (Ratio α)} :
    leavingRow? ratios = none ↔ ∀ ratio ∈ ratios, ratio.isFinite = false := by
  unfold leavingRow?
  split
  · next h =>
    obtain ⟨ratio, hmem, hfin⟩ := List.any_eq_true.1 h
    have hne : ratios ≠ [] := List.ne_nil_of_mem hmem
    constructor
    · intro hnone
      exact absurd (leaderIdx?_eq_none_iff.1 (Option.map_eq_none_iff.1 hnone)) hne
    · intro hall
      rw [hall ratio hmem] at hfin
      exact absurd hfin Bool.false_ne_true
  · next h =>
    simpa using h

variable {tolerance : α} {t : Tableau α}

/-- The method exchanges: the first largest gain is above the tolerance and enters, and the row of
the first least ratio leaves. -/
theorem move_eq_exchange {turn : Turn α} (h : t.move tolerance = .exchange turn) :
    (∃ gain, leaderIdx? Scalar.above t.gains = some (turn.entering, gain) ∧ ¬ gain ≤ tolerance) ∧
      leavingRow? turn.ratios = some turn.row ∧
      turn.before = t ∧ turn.ratios = t.ratios tolerance turn.entering := by
  unfold move at h
  split at h
  · exact absurd h (by simp)
  · next entering gain hlead =>
    split at h
    · exact absurd h (by simp)
    · next hgain =>
      split at h
      · exact absurd h (by simp)
      · next row hrow =>
        obtain rfl := Move.exchange.inj h
        exact ⟨⟨gain, hlead, hgain⟩, hrow, rfl, rfl⟩

/-- The method gives up: the first largest gain is above the tolerance, and no ratio is a number. -/
theorem move_eq_unbounded {entering : Nat} (h : t.move tolerance = .unbounded entering) :
    (∃ gain, leaderIdx? Scalar.above t.gains = some (entering, gain) ∧ ¬ gain ≤ tolerance) ∧
      leavingRow? (t.ratios tolerance entering) = none := by
  unfold move at h
  split at h
  · exact absurd h (by simp)
  · next k gain hlead =>
    split at h
    · exact absurd h (by simp)
    · next hgain =>
      split at h
      · next hrow =>
        obtain rfl := Move.unbounded.inj h
        exact ⟨⟨gain, hlead, hgain⟩, hrow⟩
      · exact absurd h (by simp)

/-- The method stops: the first largest gain, if there is one, is within the tolerance. -/
theorem move_eq_stop (h : t.move tolerance = .stop) {k : Nat} {gain : α}
    (hlead : leaderIdx? Scalar.above t.gains = some (k, gain)) : gain ≤ tolerance := by
  unfold move at h
  rw [hlead] at h
  dsimp only at h
  split at h
  · next hgain => exact hgain
  · split at h
    · exact absurd h (by simp)
    · exact absurd h (by simp)

/-! ## Exchanges stay within the tableau -/

theorem lt_length_of_leaderIdx? {β : Type} {beats : β → β → Bool} {xs : List β} {k : Nat} {x : β}
    (h : leaderIdx? beats xs = some (k, x)) : k < xs.length :=
  (List.getElem?_eq_some_iff.1 (getElem?_of_leaderIdx? h)).1

variable {n m : Nat} {turn : Turn α}

theorem Shape.entering_lt (h : Shape n m t) (hmove : t.move tolerance = .exchange turn) :
    turn.entering < n + m := by
  obtain ⟨⟨gain, hlead, -⟩, -⟩ := move_eq_exchange hmove
  rw [← h.length_gains]
  exact lt_length_of_leaderIdx? hlead

theorem Shape.row_lt (h : Shape n m t) (hmove : t.move tolerance = .exchange turn) :
    turn.row < m := by
  obtain ⟨-, hrow, -, hratios⟩ := move_eq_exchange hmove
  obtain ⟨-, ratio, hlead⟩ := leavingRow?_eq_some hrow
  rw [← h.length_ratios tolerance turn.entering, ← hratios]
  exact lt_length_of_leaderIdx? hlead

/-- Every move keeps the shape. -/
theorem Shape.after (h : Shape n m t) (hmove : t.move tolerance = .exchange turn) :
    Shape n m turn.after := by
  have hbefore : turn.before = t := (move_eq_exchange hmove).2.2.1
  rw [Turn.after, hbefore]
  exact h.exchange (h.row_lt hmove) (h.entering_lt hmove)

end LinearProgram.Tableau
