import LinearProgram.Proofs.StandardForm
import LinearProgram.Proofs.Pivot
import LinearProgram.Proofs.Plane.Region
/-!
# What the standard form says of the rows

Each row has a column of its own in both blocks of auxiliary columns, and the entries there depend on its
relation alone: a slack makes up what an upper limit leaves, a surplus takes away what a lower limit is
exceeded by, and an artificial variable has to be zero.  So a relation holds exactly if an equation with
one more non-negative variable can be met (`relates_iff_exists`), and the rows together are the
equations together, since no two rows share an auxiliary column.

Proved:
* `mem_places_iff`, `pairwise_places`, `length_places`: the places of the rows with a property.
* `exists_layout`: where the entries of the standard form stand, over any scalars.
* `Layout.holdsAt_iff_exists`: the rows hold at a point exactly if the equations can be met there.
* `Layout.existsUnique_unit`, `Layout.mem_iff`: which auxiliary columns are unit columns, and which are
  not zero.
* `faithful_of?`: the standard form of rows of one length with relations that constrain.
-/

namespace LinearProgram

namespace StandardForm

/-! ## The rows of the standard form -/

section Rows

variable {α : Type} [Scalar α] {n size : Nat} {rows : Grid α} {relations : List Relation}
  {limits : List α}

/-- Row by row, the matrix holds the standard forms of the rows. -/
theorem row_of_rowsFrom? {i : Nat} {matrix : Grid α} (hr : relations.length = rows.length)
    (h : rowsFrom? n size i rows relations = .ok matrix) :
    matrix.length = rows.length ∧ ∀ k < rows.length,
      row? n size (i + k) (rows.getD k []) (relations.getD k (.other "")) =
        .ok (matrix.getD k []) := by
  induction rows generalizing i relations matrix with
  | nil =>
    obtain rfl := Except.ok.inj h
    exact ⟨rfl, nofun⟩
  | cons row rows ih =>
    cases relations with
    | nil => cases hr
    | cons relation relations =>
      obtain ⟨first, hfirst, rest, hrest, rfl⟩ := rowsFrom?_cons_eq_ok_iff.1 h
      obtain ⟨hlength, hrows⟩ := ih (Nat.succ.inj hr) hrest
      refine ⟨congrArg Nat.succ hlength, fun k hk => ?_⟩
      cases k with
      | zero => exact hfirst
      | succ k =>
        rw [← Nat.succ_add_eq_add_succ]
        exact hrows k (Nat.lt_of_succ_lt_succ hk)

omit [Scalar α] in
theorem isKnown_getD (hr : relations.length = rows.length)
    (hknown : ∀ r ∈ relations, r.isKnown = true) {i : Nat} (hi : i < rows.length) :
    (relations.getD i (.other "")).isKnown = true := by
  have hi' : i < relations.length := hr.symm ▸ hi
  rw [List.getD_eq_getElem _ _ hi']
  exact hknown _ (List.getElem_mem hi')

@[simp]
theorem length_sparse (size place : Nat) (entry : α) : (sparse size place entry).length = size := by
  simp [sparse]

theorem getD_sparse {size k : Nat} (hk : k < size) (place : Nat) (entry : α) :
    (sparse size place entry).getD k 0 = if k = place then entry else 0 := by
  simp [sparse, List.getD_eq_getElem?_getD, hk]

end Rows

/-! ## The places of rows with a property -/

section Places

variable {first : Nat} {relations : List Relation} {p : Relation → Bool}

theorem mem_places_iff {k : Nat} :
    k ∈ places first relations p ↔
      ∃ i < relations.length, p (relations.getD i (.other "")) = true ∧ first + i = k := by
  simp only [places, List.mem_filterMap, Prod.exists, List.mem_zipIdx_iff_getElem?,
    Option.ite_none_right_eq_some, Option.some.injEq]
  constructor
  · rintro ⟨relation, i, hrelation, hp, hk⟩
    refine ⟨i, (List.getElem?_eq_some_iff.1 hrelation).1, ?_, hk⟩
    rwa [List.getD_eq_getElem?_getD, hrelation]
  · rintro ⟨i, hi, hp, hk⟩
    rw [List.getD_eq_getElem _ _ hi] at hp
    exact ⟨_, i, List.getElem?_eq_getElem hi, hp, hk⟩

/-- The places come in order. -/
theorem pairwise_places : (places first relations p).Pairwise (· < ·) := by
  unfold places
  rw [List.pairwise_filterMap, List.pairwise_iff_getElem]
  intro i j hi hj hij k hk l hl
  rw [List.getElem_zipIdx] at hk hl
  have hk' := (Option.ite_none_right_eq_some.1 hk).2
  have hl' := (Option.ite_none_right_eq_some.1 hl).2
  simp only [Option.some.injEq] at hk' hl'
  omega

@[simp]
theorem length_places : (places first relations p).length = relations.countP p := by
  unfold places
  rw [List.length_filterMap_eq_countP]
  conv_rhs => rw [← List.zipIdx_map_fst 0 relations, List.countP_map]
  refine List.countP_congr fun r _ => ?_
  by_cases hp : p r.1 = true <;> simp [hp]

end Places

/-! ## The layout of the columns -/

/-- The standard form of `rows` of `n` cells: behind its own cells each row has the two entries of its
relation, each in the column of the row. -/
structure Layout {α : Type} [Scalar α] (n : Nat) (rows : Grid α) (relations : List Relation)
    (limits : List α) (f : StandardForm α) : Prop where
  height : f.matrix.length = rows.length
  row : ∀ i < rows.length, f.matrix.getD i [] = rows.getD i [] ++
    sparse rows.length i (entries (relations.getD i (.other ""))).1 ++
    sparse rows.length i (entries (relations.getD i (.other ""))).2
  limits_eq : f.limits = limits
  variableCount_eq : f.variableCount = n
  slack_eq : f.slack = places n relations (· == .atMost)
  surplus_eq : f.surplus = places n relations (· == .atLeast)
  artificial_eq : f.artificial =
    places (n + rows.length) relations fun r => r == .atLeast || r == .equal

/-- From column `first` on there is a column for each row, in which no other row has an entry. -/
def Diagonal {α : Type} [Scalar α] (f : StandardForm α) (first : Nat) (entry : Nat → α) : Prop :=
  ∀ i < f.matrix.length, ∀ k < f.matrix.length,
    f.matrix.cell i (first + k) = if k = i then entry i else 0

section Layout

variable {α : Type} [Scalar α] {n : Nat} {rows : Grid α} {relations : List Relation}
  {limits : List α} {f : StandardForm α}

/-- Rows of one length have a standard form if every relation constrains, and it is laid out so. -/
theorem exists_layout (hne : rows ≠ []) (hw : ∀ row ∈ rows, row.length = n)
    (hr : relations.length = rows.length) (hknown : ∀ r ∈ relations, r.isKnown = true) :
    ∃ f, of? rows relations limits = .ok f ∧ Layout n rows relations limits f := by
  obtain ⟨f, hf⟩ : ∃ f, of? rows relations limits = .ok f := exists_of? hr hw hknown
  refine ⟨f, hf, ?_⟩
  simp only [of?, bind_eq_ok_iff, pure_eq_ok_iff] at hf
  obtain ⟨matrix, hmatrix, rfl⟩ := hf
  obtain ⟨first, rest, rfl⟩ := List.exists_cons_of_ne_nil hne
  have hfirst : ((first :: rest).headD []).length = n := hw first List.mem_cons_self
  have hused : relations.take (first :: rest).length = relations := List.take_of_length_le hr.le
  rw [hfirst] at hmatrix
  rw [hfirst, hused]
  obtain ⟨hheight, hrows⟩ := row_of_rowsFrom? hr hmatrix
  refine ⟨hheight, fun i hi => ?_, rfl, rfl, rfl, rfl, rfl⟩
  obtain ⟨-, cells, hcells, hrow⟩ := row?_eq_ok_iff.1 (hrows i hi)
  have hown := valuesFor?_eq_ok_iff.2 (.inl ⟨hw _ (Grid.getD_mem hi), rfl⟩)
  rw [Except.ok.inj (hcells.symm.trans hown), Nat.zero_add] at hrow
  exact hrow.symm

namespace Layout

variable (h : Layout n rows relations limits f)

include h

theorem width (hw : ∀ row ∈ rows, row.length = n) :
    ∀ row ∈ f.matrix, row.length = n + 2 * rows.length := by
  intro row hrow
  obtain ⟨i, hi, rfl⟩ := List.getElem_of_mem hrow
  rw [h.height] at hi
  rw [← List.getD_eq_getElem _ [], h.row i hi, List.length_append, List.length_append,
    length_sparse, length_sparse, hw _ (Grid.getD_mem hi)]
  omega

/-- In the first block of auxiliary columns a row has an entry in its own column only. -/
theorem diagonal_slack (hw : ∀ row ∈ rows, row.length = n) :
    f.Diagonal n fun i => (entries (relations.getD i (.other ""))).1 := by
  intro i hi k hk
  rw [h.height] at hi hk
  have hlen := hw _ (Grid.getD_mem hi)
  rw [Grid.cell, h.row i hi, List.append_assoc, List.getD_append_right _ _ _ _ (by omega), hlen,
    Nat.add_sub_cancel_left, List.getD_append _ _ _ _ (by rwa [length_sparse]), getD_sparse hk]

/-- And so it has in the second block. -/
theorem diagonal_artificial (hw : ∀ row ∈ rows, row.length = n) :
    f.Diagonal (n + rows.length) fun i => (entries (relations.getD i (.other ""))).2 := by
  intro i hi k hk
  rw [h.height] at hi hk
  have hlen : (rows.getD i [] ++
      sparse rows.length i (entries (α := α) (relations.getD i (.other ""))).1).length =
        n + rows.length := by
    rw [List.length_append, length_sparse, hw _ (Grid.getD_mem hi)]
  rw [Grid.cell, h.row i hi, List.getD_append_right _ _ _ _ (by omega), hlen,
    Nat.add_sub_cancel_left, getD_sparse hk]

variable (hr : relations.length = rows.length)

include hr

theorem mem_slack_iff {k : Nat} :
    k ∈ f.slack ↔ ∃ i < rows.length, relations.getD i (.other "") = .atMost ∧ n + i = k := by
  rw [h.slack_eq, mem_places_iff, hr]
  simp only [beq_iff_eq]

theorem mem_surplus_iff {k : Nat} :
    k ∈ f.surplus ↔ ∃ i < rows.length, relations.getD i (.other "") = .atLeast ∧ n + i = k := by
  rw [h.surplus_eq, mem_places_iff, hr]
  simp only [beq_iff_eq]

theorem mem_artificial_iff {k : Nat} :
    k ∈ f.artificial ↔ ∃ i < rows.length, (relations.getD i (.other "") = .atLeast ∨
      relations.getD i (.other "") = .equal) ∧ n + rows.length + i = k := by
  rw [h.artificial_eq, mem_places_iff, hr]
  simp only [Bool.or_eq_true, beq_iff_eq]

/-- No column has two uses. -/
theorem disjoint : f.slack.Disjoint f.surplus ∧ f.slack.Disjoint f.artificial ∧
    f.surplus.Disjoint f.artificial := by
  refine ⟨fun k hslack hsurplus => ?_, fun k hslack hartificial => ?_,
    fun k hsurplus hartificial => ?_⟩
  · obtain ⟨i, -, hi, hk⟩ := (h.mem_slack_iff hr).1 hslack
    obtain ⟨j, -, hj, hk'⟩ := (h.mem_surplus_iff hr).1 hsurplus
    obtain rfl : i = j := by omega
    rw [hi] at hj
    cases hj
  · obtain ⟨i, hi, -, hk⟩ := (h.mem_slack_iff hr).1 hslack
    obtain ⟨j, -, -, hk'⟩ := (h.mem_artificial_iff hr).1 hartificial
    omega
  · obtain ⟨i, hi, -, hk⟩ := (h.mem_surplus_iff hr).1 hsurplus
    obtain ⟨j, -, -, hk'⟩ := (h.mem_artificial_iff hr).1 hartificial
    omega

/-- A row has either a slack or an artificial variable. -/
theorem length_slack_add_length_artificial (hknown : ∀ r ∈ relations, r.isKnown = true) :
    f.slack.length + f.artificial.length = rows.length := by
  have hsplit := List.length_eq_countP_add_countP (l := relations) (· == .atMost)
  have hrest : relations.countP (fun r => decide ¬(r == .atMost) = true) =
      relations.countP fun r => r == .atLeast || r == .equal := by
    refine List.countP_congr fun r hmem => ?_
    have hr := hknown r hmem
    cases r with
    | other symbol => cases hr
    | _ => decide
  rw [h.slack_eq, h.artificial_eq, length_places, length_places, ← hr, hsplit, hrest]

end Layout

end Layout

/-! ## What the equations say -/

/-- A relation that constrains holds exactly if its equation is met with one more non-negative variable. -/
theorem relates_iff_exists {r : Relation} (hr : r.isKnown = true) {lhs limit : ℚ} :
    r.Relates lhs limit ↔ ∃ s, 0 ≤ s ∧ lhs + (entries r).1 * s = limit := by
  cases r with
  | atMost =>
    constructor
    · intro h
      exact ⟨limit - lhs, sub_nonneg.2 h, by rw [entries]; ring⟩
    · rintro ⟨s, hs, rfl⟩
      simpa [Relation.Relates, entries] using hs
  | equal =>
    constructor
    · intro h
      exact ⟨0, le_rfl, by rw [mul_zero, add_zero]; exact h⟩
    · rintro ⟨s, -, h⟩
      rwa [entries, zero_mul, add_zero] at h
  | atLeast =>
    constructor
    · intro h
      exact ⟨lhs - limit, sub_nonneg.2 h, by rw [entries]; ring⟩
    · rintro ⟨s, hs, rfl⟩
      simpa [Relation.Relates, entries] using hs
  | other symbol => cases hr

theorem dot_sparse {size place : Nat} (hplace : place < size) (entry : ℚ) (w : List ℚ) :
    dot (sparse size place entry) w = entry * w.getD place 0 := by
  rw [dot_eq_sum (length_sparse size place entry).le,
    Finset.sum_eq_single_of_mem place (Finset.mem_range.2 hplace)]
  · rw [getD_sparse hplace, if_pos rfl]
  · intro k hk hne
    rw [getD_sparse (Finset.mem_range.1 hk), if_neg hne, zero_mul]

/-- Every row holds at a point under its relation. -/
def HoldsAt (rows : Grid ℚ) (relations : List Relation) (limits x : List ℚ) : Prop :=
  ∀ i < rows.length,
    (relations.getD i (.other "")).Relates (dot (rows.getD i []) x) (limits.getD i 0)

/-- A column of the matrix with a one in row `i` and zeros elsewhere. -/
def UnitColumn (f : StandardForm ℚ) (i k : Nat) : Prop :=
  ∀ j < f.matrix.length, f.matrix.cell j k = if j = i then 1 else 0

/-- A column is the unit column of one row at most. -/
theorem UnitColumn.unique {f : StandardForm ℚ} {i j k : Nat} (hi : f.UnitColumn i k)
    (hj : f.UnitColumn j k) (hlt : i < f.matrix.length) : i = j := by
  have hone := (hi i hlt).symm.trans (hj i hlt)
  rw [if_pos rfl] at hone
  by_contra hne
  rw [if_neg hne] at hone
  exact one_ne_zero hone

/-- Where the rows of a kind have their own columns as unit columns, no other column of the kind is the unit
column of a row. -/
theorem UnitColumn.own_iff {f : StandardForm ℚ} {kind : Nat → Prop} {first i k : Nat}
    (hunit : ∀ j < f.matrix.length, kind j → f.UnitColumn j (first + j))
    (hi : i < f.matrix.length) :
    (∃ j < f.matrix.length, kind j ∧ first + j = k) ∧ f.UnitColumn i k ↔
      kind i ∧ first + i = k := by
  constructor
  · rintro ⟨⟨j, hj, hkind, rfl⟩, hcolumn⟩
    obtain rfl : i = j := hcolumn.unique (hunit j hj hkind) hi
    exact ⟨hkind, rfl⟩
  · rintro ⟨hkind, rfl⟩
    exact ⟨⟨i, hi, hkind, rfl⟩, hunit i hi hkind⟩

namespace Diagonal

variable {f : StandardForm ℚ} {first : Nat} {entry : Nat → ℚ} (h : f.Diagonal first entry) {j : Nat}
  (hj : j < f.matrix.length)

include h hj

theorem unitColumn (hone : entry j = 1) : f.UnitColumn j (first + j) := by
  intro i hi
  rw [h i hi j hj]
  by_cases hij : i = j
  · rw [if_pos hij.symm, if_pos hij, hij, hone]
  · rw [if_neg (Ne.symm hij), if_neg hij]

/-- A column is zero exactly if the entry of its row is. -/
theorem exists_ne_zero_iff :
    (∃ i < f.matrix.length, f.matrix.cell i (first + j) ≠ 0) ↔ entry j ≠ 0 := by
  constructor
  · rintro ⟨i, hi, hne⟩
    rw [h i hi j hj] at hne
    obtain rfl : j = i := by_contra fun hji => hne (if_neg hji)
    rwa [if_pos rfl] at hne
  · intro hne
    refine ⟨j, hj, ?_⟩
    rwa [h j hj j hj, if_pos rfl]

end Diagonal

/-- Only the rows with a slack or a surplus have an entry in the first block of auxiliary columns. -/
theorem entries_fst_ne_zero_iff (r : Relation) :
    (entries r : ℚ × ℚ).1 ≠ 0 ↔ r = .atMost ∨ r = .atLeast := by
  cases r <;> simp [entries]

/-- Only the rows with an artificial variable have one in the second block. -/
theorem entries_snd_ne_zero_iff (r : Relation) :
    (entries r : ℚ × ℚ).2 ≠ 0 ↔ r = .atLeast ∨ r = .equal := by
  cases r <;> simp [entries]

/-- Values of the auxiliary columns with which a point meets all equations: none is negative, and those of
the artificial variables are zero. -/
structure Meets (f : StandardForm ℚ) (x w : List ℚ) : Prop where
  length_eq : w.length = 2 * f.matrix.length
  nonneg : ∀ v ∈ w, 0 ≤ v
  artificial : ∀ k ∈ f.artificial, w.getD (k - f.variableCount) 0 = 0
  equations : f.matrix.map (dot · (x ++ w)) = f.limits

namespace Layout

variable {n : Nat} {rows : Grid ℚ} {relations : List Relation} {limits : List ℚ}
  {f : StandardForm ℚ} (h : Layout n rows relations limits f)

include h

/-- The equation of a row: its own cells, and the two entries of its relation. -/
theorem dot_row (hw : ∀ row ∈ rows, row.length = n) {x w : List ℚ} (hx : x.length = n)
    (hlength : w.length = 2 * rows.length) {i : Nat} (hi : i < rows.length) :
    dot (f.matrix.getD i []) (x ++ w) = dot (rows.getD i []) x +
      (entries (relations.getD i (.other ""))).1 * w.getD i 0 +
      (entries (relations.getD i (.other ""))).2 * w.getD (rows.length + i) 0 := by
  obtain ⟨first, second, rfl, hfirst⟩ :
      ∃ first second, first ++ second = w ∧ first.length = rows.length :=
    ⟨w.take rows.length, w.drop rows.length, List.take_append_drop _ _, by
      rw [List.length_take]; omega⟩
  have hown : (rows.getD i []).length = x.length := by rw [hw _ (Grid.getD_mem hi), hx]
  have hblock : (sparse rows.length i (entries (α := ℚ) (relations.getD i (.other ""))).1).length =
      first.length := by rw [length_sparse, hfirst]
  rw [h.row i hi, List.append_assoc, dot_append hown, dot_append hblock, dot_sparse hi,
    dot_sparse hi, List.getD_append _ _ _ _ (hfirst ▸ hi),
    List.getD_append_right _ _ _ _ (by omega), hfirst, Nat.add_sub_cancel_left, add_assoc]

/-- Where an artificial variable is not zero by its entry it is zero by its column. -/
theorem entry_mul_eq_zero (hr : relations.length = rows.length) {x w : List ℚ}
    (hmeets : f.Meets x w) {i : Nat} (hi : i < rows.length) :
    (entries (relations.getD i (.other ""))).2 * w.getD (rows.length + i) 0 = 0 := by
  by_cases hused : relations.getD i (.other "") = .atLeast ∨ relations.getD i (.other "") = .equal
  · have hzero := hmeets.artificial _ ((h.mem_artificial_iff hr).2 ⟨i, hi, hused, rfl⟩)
    rw [h.variableCount_eq, Nat.add_assoc, Nat.add_sub_cancel_left] at hzero
    rw [hzero, mul_zero]
  · rw [not_or] at hused
    cases hrelation : relations.getD i (.other "") with
    | atMost => exact zero_mul _
    | equal => exact absurd hrelation hused.2
    | atLeast => exact absurd hrelation hused.1
    | other symbol => exact zero_mul _

/-- The equations are met exactly if each of them is. -/
theorem map_dot_eq_iff (hl : limits.length = rows.length) {y : List ℚ} :
    f.matrix.map (dot · y) = f.limits ↔
      ∀ i < rows.length, dot (f.matrix.getD i []) y = limits.getD i 0 := by
  have hheight : (f.matrix.map (dot · y)).length = rows.length := by
    rw [List.length_map, h.height]
  rw [h.limits_eq]
  constructor
  · intro heq i hi
    have hi' : i < f.matrix.length := by rw [h.height]; exact hi
    rw [← heq, List.getD_eq_getElem _ _ hi', List.getD_eq_getElem _ _ (by rwa [hheight]),
      List.getElem_map]
  · intro hall
    apply List.ext_getElem (by rw [hheight, hl])
    intro i hi hi'
    rw [hl] at hi'
    have hrow := hall i hi'
    rw [List.getElem_map, ← List.getD_eq_getElem _ [], hrow, List.getD_eq_getElem]

/-- The rows hold at a point exactly if the equations can be met there. -/
theorem holdsAt_iff_exists (hw : ∀ row ∈ rows, row.length = n)
    (hr : relations.length = rows.length) (hl : limits.length = rows.length)
    (hknown : ∀ r ∈ relations, r.isKnown = true) {x : List ℚ} (hx : x.length = n) :
    HoldsAt rows relations limits x ↔ ∃ w, f.Meets x w := by
  have hknown' := fun i (hi : i < rows.length) => isKnown_getD hr hknown hi
  constructor
  · intro hholds
    choose! s hs hequation using fun i hi => (relates_iff_exists (hknown' i hi)).1 (hholds i hi)
    -- The first block takes up the slacks and surpluses, and the second stays zero.
    have hlength : ((List.range rows.length).map s ++ List.replicate rows.length 0).length =
        2 * rows.length := by
      rw [List.length_append, List.length_map, List.length_range, List.length_replicate, two_mul]
    have hsecond : ∀ i < rows.length,
        ((List.range rows.length).map s ++ List.replicate rows.length 0).getD (rows.length + i) 0 =
          0 := by
      intro i hi
      rw [List.getD_append_right _ _ _ _ (by simp), List.length_map, List.length_range,
        Nat.add_sub_cancel_left, List.getD_replicate _ hi]
    refine ⟨(List.range rows.length).map s ++ List.replicate rows.length 0, ?_, ?_, ?_, ?_⟩
    · rw [hlength, h.height]
    · intro v hv
      rcases List.mem_append.1 hv with hv | hv
      · obtain ⟨i, hi, rfl⟩ := List.mem_map.1 hv
        exact hs i (List.mem_range.1 hi)
      · exact (List.eq_of_mem_replicate hv).ge
    · intro k hk
      obtain ⟨i, hi, -, rfl⟩ := (h.mem_artificial_iff hr).1 hk
      rw [h.variableCount_eq, Nat.add_assoc, Nat.add_sub_cancel_left]
      exact hsecond i hi
    · refine (h.map_dot_eq_iff hl).2 fun i hi => ?_
      rw [h.dot_row hw hx hlength hi, hsecond i hi, mul_zero, add_zero,
        List.getD_append _ _ _ _ (by simpa using hi)]
      simpa [List.getD_eq_getElem?_getD, hi] using hequation i hi
  · rintro ⟨w, hmeets⟩ i hi
    have hlength : w.length = 2 * rows.length := by rw [hmeets.length_eq, h.height]
    have hequation := (h.map_dot_eq_iff hl).1 hmeets.equations i hi
    rw [h.dot_row hw hx hlength hi, h.entry_mul_eq_zero hr hmeets hi, add_zero] at hequation
    refine (relates_iff_exists (hknown' i hi)).2 ⟨w.getD i 0, ?_, hequation⟩
    have hi' : i < w.length := by omega
    rw [List.getD_eq_getElem _ _ hi']
    exact hmeets.nonneg _ (List.getElem_mem hi')

/-! ### The columns in use -/

section Columns

variable (hw : ∀ row ∈ rows, row.length = n) (hr : relations.length = rows.length)

include hw hr

/-- A slack has the unit column of its own row. -/
theorem mem_slack_unit_iff {i k : Nat} (hi : i < rows.length) :
    k ∈ f.slack ∧ f.UnitColumn i k ↔ relations.getD i (.other "") = .atMost ∧ n + i = k := by
  rw [h.mem_slack_iff hr]
  rw [← h.height] at hi ⊢
  refine UnitColumn.own_iff (fun j hj hrelation => ?_) hi
  refine (h.diagonal_slack hw).unitColumn hj ?_
  rw [hrelation]
  rfl

/-- An artificial variable has the unit column of its own row. -/
theorem mem_artificial_unit_iff {i k : Nat} (hi : i < rows.length) :
    k ∈ f.artificial ∧ f.UnitColumn i k ↔ (relations.getD i (.other "") = .atLeast ∨
      relations.getD i (.other "") = .equal) ∧ n + rows.length + i = k := by
  have hdiagonal := h.diagonal_artificial hw
  rw [h.mem_artificial_iff hr]
  rw [← h.height] at hi hdiagonal ⊢
  refine UnitColumn.own_iff (fun j hj hrelation => hdiagonal.unitColumn hj ?_) hi
  rcases hrelation with hrelation | hrelation <;> rw [hrelation] <;> rfl

/-- Every row has exactly one slack or artificial variable with its unit column. -/
theorem existsUnique_unit (hknown : ∀ r ∈ relations, r.isKnown = true) {i : Nat}
    (hi : i < rows.length) : ∃! k, (k ∈ f.slack ∨ k ∈ f.artificial) ∧ f.UnitColumn i k := by
  have hrelation := isKnown_getD hr hknown hi
  simp only [or_and_right, h.mem_slack_unit_iff hw hr hi, h.mem_artificial_unit_iff hw hr hi]
  cases hcase : relations.getD i (.other "") with
  | other symbol => rw [hcase] at hrelation; cases hrelation
  | atMost => simp
  | equal => simp
  | atLeast => simp

/-- The columns in use are the auxiliary columns that are not zero. -/
theorem mem_iff (k : Nat) :
    (k ∈ f.slack ∨ k ∈ f.surplus ∨ k ∈ f.artificial) ↔
      n ≤ k ∧ k < n + 2 * rows.length ∧ ∃ i < rows.length, f.matrix.cell i k ≠ 0 := by
  have hslack := fun {j} (hj : j < f.matrix.length) => (h.diagonal_slack hw).exists_ne_zero_iff hj
  have hartificial := fun {j} (hj : j < f.matrix.length) =>
    (h.diagonal_artificial hw).exists_ne_zero_iff hj
  simp only [entries_fst_ne_zero_iff, entries_snd_ne_zero_iff, h.height] at hslack hartificial
  rw [h.mem_slack_iff hr, h.mem_surplus_iff hr, h.mem_artificial_iff hr]
  constructor
  · rintro (⟨i, hi, hrelation, rfl⟩ | ⟨i, hi, hrelation, rfl⟩ | ⟨i, hi, hrelation, rfl⟩)
    · exact ⟨by omega, by omega, (hslack hi).2 (.inl hrelation)⟩
    · exact ⟨by omega, by omega, (hslack hi).2 (.inr hrelation)⟩
    · exact ⟨by omega, by omega, (hartificial hi).2 hrelation⟩
  · rintro ⟨hle, hlt, hne⟩
    by_cases hblock : k < n + rows.length
    · obtain ⟨j, rfl⟩ := Nat.exists_eq_add_of_le hle
      have hj : j < rows.length := Nat.lt_of_add_lt_add_left hblock
      rcases (hslack hj).1 hne with hrelation | hrelation
      · exact .inl ⟨j, hj, hrelation, rfl⟩
      · exact .inr (.inl ⟨j, hj, hrelation, rfl⟩)
    · obtain ⟨j, rfl⟩ := Nat.exists_eq_add_of_le (not_lt.1 hblock)
      have hj : j < rows.length := by omega
      exact .inr (.inr ⟨j, hj, (hartificial hj).1 hne, rfl⟩)

end Columns

end Layout

/-! ## The standard form of rows -/

/-- What the standard form of `rows` of `n` cells with their relations and limits is. -/
structure Faithful (n : Nat) (rows : Grid ℚ) (relations : List Relation) (limits : List ℚ)
    (f : StandardForm ℚ) : Prop where
  variableCount_eq : f.variableCount = n
  height : f.matrix.length = rows.length
  width : ∀ row ∈ f.matrix, row.length = n + 2 * rows.length
  /-- The rows hold at a point exactly if the equations can be met there. -/
  holdsAt_iff : ∀ x : List ℚ, x.length = n →
    (HoldsAt rows relations limits x ↔ ∃ w, f.Meets x w)
  /-- The columns of slacks and artificial variables hold a first basis. -/
  existsUnique_unit : ∀ i < rows.length,
    ∃! k, (k ∈ f.slack ∨ k ∈ f.artificial) ∧ f.UnitColumn i k
  pairwise_lt : f.slack.Pairwise (· < ·) ∧ f.surplus.Pairwise (· < ·) ∧
    f.artificial.Pairwise (· < ·)
  disjoint : f.slack.Disjoint f.surplus ∧ f.slack.Disjoint f.artificial ∧
    f.surplus.Disjoint f.artificial
  /-- The columns in use are the auxiliary columns that are not zero. -/
  mem_iff : ∀ k, (k ∈ f.slack ∨ k ∈ f.surplus ∨ k ∈ f.artificial) ↔
    n ≤ k ∧ k < n + 2 * rows.length ∧ ∃ i < rows.length, f.matrix.cell i k ≠ 0
  length_slack_add : f.slack.length + f.artificial.length = rows.length
  length_surplus : f.surplus.length = relations.count .atLeast
  length_labels : f.columnLabels.length = n + 2 * rows.length

/-- Rows of one length have a standard form if each has a limit and a relation that constrains, and it is
faithful. -/
theorem faithful_of? {n : Nat} {rows : Grid ℚ} {relations : List Relation} {limits : List ℚ}
    (hne : rows ≠ []) (hw : ∀ row ∈ rows, row.length = n) (hr : relations.length = rows.length)
    (hknown : ∀ r ∈ relations, r.isKnown = true) (hl : limits.length = rows.length) :
    ∃ f, of? rows relations limits = .ok f ∧ Faithful n rows relations limits f := by
  obtain ⟨f, hf, h⟩ : ∃ f, of? rows relations limits = .ok f ∧ Layout n rows relations limits f :=
    exists_layout hne hw hr hknown
  refine ⟨f, hf, ?_⟩
  exact {
    variableCount_eq := h.variableCount_eq
    height := h.height
    width := h.width hw
    holdsAt_iff := fun x hx => h.holdsAt_iff_exists hw hr hl hknown hx
    existsUnique_unit := fun i hi => h.existsUnique_unit hw hr hknown hi
    pairwise_lt := by
      rw [h.slack_eq, h.surplus_eq, h.artificial_eq]
      exact ⟨pairwise_places, pairwise_places, pairwise_places⟩
    disjoint := h.disjoint hr
    mem_iff := h.mem_iff hw hr
    length_slack_add := h.length_slack_add_length_artificial hr hknown
    length_surplus := by rw [h.surplus_eq, length_places]; rfl
    length_labels := by
      rw [columnLabels, length_variableLabels, columns, h.variableCount_eq, h.height] }

/-- Three rows with the three relations: the first has a slack in column two, the second a surplus in column
three and an artificial variable in column six, and the third an artificial variable in column
seven. -/
theorem faithful_of?_three_relations :
    ∃ f, of? (α := ℚ) [[1, 2], [3, -1], [0, 1]] [.atMost, .atLeast, .equal] [4, -1, 2] = .ok f ∧
      f.slack = [2] ∧ f.surplus = [3] ∧ f.artificial = [6, 7] ∧
      Faithful 2 [[1, 2], [3, -1], [0, 1]] [.atMost, .atLeast, .equal] [4, -1, 2] f := by
  obtain ⟨f, hf, hfaithful⟩ := @faithful_of? 2 [[1, 2], [3, -1], [0, 1]]
    [.atMost, .atLeast, .equal] [4, -1, 2] (by decide) (by decide) rfl (by decide) rfl
  have hplaces : (of? (α := ℚ) [[1, 2], [3, -1], [0, 1]] [.atMost, .atLeast, .equal]
      [4, -1, 2]).map (fun f => (f.slack, f.surplus, f.artificial)) = .ok ([2], [3], [6, 7]) := by
    decide +kernel
  rw [hf] at hplaces
  obtain ⟨hslack, hrest⟩ := Prod.mk.inj (Except.ok.inj hplaces)
  obtain ⟨hsurplus, hartificial⟩ := Prod.mk.inj hrest
  exact ⟨f, hf, hslack, hsurplus, hartificial, hfaithful⟩

end StandardForm

end LinearProgram
