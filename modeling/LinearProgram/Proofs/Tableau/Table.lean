import LinearProgram.Tableau.Display
import LinearProgram.Proofs.Attempt
import LinearProgram.Proofs.Tableau.Shape
/-!
# The final table

The table of a tableau shows the costs of its basis and its cells (`Tableau.numbers`).  In a tableau of a
shape, with a cost for every column, each cost, row and cell that the table looks up is there, so the
table is written exactly if all these numbers can be written (`exists_tableauTable_iff`).  A table that is
written has one row for each row of the tableau, all as wide as its headers
(`rectangular_of_tableauTable`).  Other costs are seen in its first column and nowhere else
(`agree_tableauTable`).  This holds over any scalars.
-/

namespace LinearProgram

variable {α : Type} [DecimalScalar α] {decimals : Int}

/-! ## Cells and rows of cells -/

theorem exists_cellText_iff {x : α} : (∃ text, cellText decimals x = .ok text) ↔ Writable decimals x := by
  simp only [cellText_eq_ok_iff]
  exact ⟨fun ⟨_, h, _⟩ => h, fun h => ⟨_, h, rfl⟩⟩

theorem exists_cellTexts_iff {row : List α} :
    (∃ texts, cellTexts decimals row = .ok texts) ↔ ∀ x ∈ row, Writable decimals x := by
  simp only [cellTexts, exists_mapM_iff, exists_cellText_iff]

theorem objectiveRow_eq_ok_iff {label : String} {row : List α} {texts : List String} :
    objectiveRow decimals label row = .ok texts ↔
      ∃ cells, cellTexts decimals row = .ok cells ∧ label :: "" :: cells = texts := by
  simp [objectiveRow]

theorem exists_objectiveRow_iff {label : String} {row : List α} :
    (∃ texts, objectiveRow decimals label row = .ok texts) ↔ ∀ x ∈ row, Writable decimals x := by
  simp only [← exists_cellTexts_iff, objectiveRow_eq_ok_iff]
  exact ⟨fun ⟨_, cells, h, _⟩ => ⟨cells, h⟩, fun ⟨cells, h⟩ => ⟨_, cells, h, rfl⟩⟩

namespace Tableau

variable {costs : List α} {rows : Grid α} {basis : List Nat} {columns m i column : Nat}

theorem basicRow_eq_ok_iff {texts : List String} :
    basicRow decimals costs rows i column = .ok texts ↔
      ∃ cost costCell row cells, costs[column]? = some cost ∧ cellText decimals cost = .ok costCell ∧
        rows[i]? = some row ∧ cellTexts decimals row = .ok cells ∧
        costCell :: variableLabel column :: cells = texts := by
  simp [basicRow]

theorem tableauTable_eq_ok_iff {table : Table} :
    tableauTable decimals costs rows basis columns m = .ok table ↔
      ∃ basic first cj last gains,
        basis.zipIdx.mapM (fun place => basicRow decimals costs rows place.2 place.1) = .ok basic ∧
        rows[m]? = some first ∧ objectiveRow decimals "Cj" first = .ok cj ∧
        rows[m + 1]? = some last ∧ objectiveRow decimals "Δj" last = .ok gains ∧
        ⟨"Ci" :: "i" :: variableLabels columns ++ [limitLabel], basic ++ [cj, gains]⟩ = table := by
  simp [tableauTable]

/-! ## What a table that is written looks like -/

theorem length_of_objectiveRow {label : String} {row : List α} {texts : List String}
    (h : objectiveRow decimals label row = .ok texts) : texts.length = row.length + 2 := by
  obtain ⟨cells, hcells, rfl⟩ := objectiveRow_eq_ok_iff.1 h
  rw [List.length_cons, List.length_cons, length_of_mapM hcells]

theorem length_of_basicRow {width : Nat} {texts : List String}
    (hw : ∀ row ∈ rows, row.length = width)
    (h : basicRow decimals costs rows i column = .ok texts) : texts.length = width + 2 := by
  obtain ⟨-, -, row, cells, -, -, hrow, hcells, rfl⟩ := basicRow_eq_ok_iff.1 h
  rw [List.length_cons, List.length_cons, length_of_mapM hcells, hw row (List.mem_of_getElem? hrow)]

/-- A table of rows of `columns` cells and a limit has a row for each basic column, the two rows of the
objective, and two cells before those of the tableau in each. -/
theorem rectangular_of_tableauTable {table : Table} (hw : ∀ row ∈ rows, row.length = columns + 1)
    (h : tableauTable decimals costs rows basis columns m = .ok table) :
    table.Rectangular (basis.length + 2) (columns + 3) := by
  obtain ⟨basic, first, cj, last, gains, hbasic, hfirst, hcj, hlast, hgains, rfl⟩ :=
    tableauTable_eq_ok_iff.1 h
  refine ⟨by simp [length_variableLabels], ?_, fun row hrow => ?_⟩
  · rw [List.length_append, length_of_mapM hbasic, List.length_zipIdx]
    rfl
  · rcases List.mem_append.1 hrow with hrow | hrow
    · obtain ⟨place, -, hplace⟩ := exists_of_mem_mapM hbasic hrow
      exact length_of_basicRow hw hplace
    · rcases List.mem_cons.1 hrow with rfl | hrow
      · rw [length_of_objectiveRow hcj, hw first (List.mem_of_getElem? hfirst)]
      · rw [List.mem_singleton.1 hrow, length_of_objectiveRow hgains,
          hw last (List.mem_of_getElem? hlast)]

/-! ## When the table can be written -/

/-- The numbers that the table of a tableau shows: the costs of its basis, and its cells. -/
def numbers (costs : List α) (t : Tableau α) : List α :=
  t.basis.filterMap (costs[·]?) ++ t.rows.flatten

omit [DecimalScalar α] in
theorem forall_mem_numbers_iff {t : Tableau α} {P : α → Prop} :
    (∀ x ∈ t.numbers costs, P x) ↔
      (∀ j ∈ t.basis, ∀ cost ∈ costs[j]?, P cost) ∧ ∀ row ∈ t.rows, ∀ x ∈ row, P x := by
  unfold numbers
  rw [List.forall_mem_append]
  refine and_congr ?_ ?_
  · simp only [List.mem_filterMap]
    exact ⟨fun h j hj cost hcost => h cost ⟨j, hj, hcost⟩, fun h cost ⟨j, hj, hcost⟩ => h j hj cost hcost⟩
  · simp only [List.mem_flatten]
    exact ⟨fun h row hrow x hx => h x ⟨row, hrow, hx⟩, fun h x ⟨row, hrow, hx⟩ => h row hrow x hx⟩

omit [DecimalScalar α] in
/-- The rows of a tableau are those of the constraints and the two of the objective. -/
theorem forall_mem_rows_iff (hheight : rows.length = m + 2) {P : List α → Prop} :
    (∀ row ∈ rows, P row) ↔
      (∀ i < m, ∀ row ∈ rows[i]?, P row) ∧ (∀ row ∈ rows[m]?, P row) ∧
        ∀ row ∈ rows[m + 1]?, P row := by
  constructor
  · intro h
    exact ⟨fun i _ row hrow => h row (List.mem_of_getElem? hrow),
      fun row hrow => h row (List.mem_of_getElem? hrow),
      fun row hrow => h row (List.mem_of_getElem? hrow)⟩
  · rintro ⟨hbasic, hfirst, hlast⟩ row hrow
    obtain ⟨i, hi⟩ := List.mem_iff_getElem?.1 hrow
    obtain ⟨hlt, -⟩ := List.getElem?_eq_some_iff.1 hi
    obtain h | rfl | rfl : i < m ∨ i = m ∨ i = m + 1 := by omega
    · exact hbasic i h row hi
    · exact hfirst row hi
    · exact hlast row hi

theorem exists_basicRow_iff (hi : i < rows.length) (hcolumn : column < costs.length) :
    (∃ texts, basicRow decimals costs rows i column = .ok texts) ↔
      (∀ cost ∈ costs[column]?, Writable decimals cost) ∧
        ∀ row ∈ rows[i]?, ∀ x ∈ row, Writable decimals x := by
  simp only [basicRow_eq_ok_iff, List.getElem?_eq_getElem hi, List.getElem?_eq_getElem hcolumn,
    Option.mem_some_iff, forall_eq']
  constructor
  · rintro ⟨_, _, costCell, _, cells, ⟨⟩, hcost, ⟨⟩, hcells, -⟩
    exact ⟨exists_cellText_iff.1 ⟨costCell, hcost⟩, exists_cellTexts_iff.1 ⟨cells, hcells⟩⟩
  · rintro ⟨hcost, hrow⟩
    obtain ⟨costCell, hcostCell⟩ := exists_cellText_iff.2 hcost
    obtain ⟨cells, hcells⟩ := exists_cellTexts_iff.2 hrow
    exact ⟨_, _, costCell, _, cells, rfl, hcostCell, rfl, hcells, rfl⟩

/-- The rows of the basis are written exactly if their costs and cells can be. -/
theorem Shape.exists_basicRows_iff {n : Nat} {t : Tableau α} (h : Shape n m t)
    (hcosts : costs.length = n + m) :
    (∃ basic, t.basis.zipIdx.mapM
        (fun place => basicRow decimals costs t.rows place.2 place.1) = .ok basic) ↔
      (∀ j ∈ t.basis, ∀ cost ∈ costs[j]?, Writable decimals cost) ∧
        ∀ i < m, ∀ row ∈ t.rows[i]?, ∀ x ∈ row, Writable decimals x := by
  have hplace : ∀ place ∈ t.basis.zipIdx, place.2 < t.rows.length ∧ place.1 < costs.length := by
    intro place hplace
    have hlt := (List.mem_zipIdx' hplace).1
    have hheight := h.height
    rw [h.basis_length] at hlt
    exact ⟨by omega, hcosts ▸ h.basis_lt _ (List.fst_mem_of_mem_zipIdx hplace)⟩
  rw [exists_mapM_iff]
  constructor
  · intro hrows
    refine ⟨fun j hj => ?_, fun i hi => ?_⟩
    · obtain ⟨i, hi, rfl⟩ := List.getElem_of_mem hj
      have hmem : (t.basis[i], i) ∈ t.basis.zipIdx := List.mk_mem_zipIdx_iff_getElem?.2 (by simp [hi])
      exact ((exists_basicRow_iff (hplace _ hmem).1 (hplace _ hmem).2).1 (hrows _ hmem)).1
    · have hi' : i < t.basis.length := h.basis_length.symm ▸ hi
      have hmem : (t.basis[i], i) ∈ t.basis.zipIdx := List.mk_mem_zipIdx_iff_getElem?.2 (by simp [hi'])
      exact ((exists_basicRow_iff (hplace _ hmem).1 (hplace _ hmem).2).1 (hrows _ hmem)).2
  · rintro ⟨hcost, hrow⟩ place hmem
    have hlt := h.basis_length ▸ (List.mem_zipIdx' hmem).1
    exact (exists_basicRow_iff (hplace place hmem).1 (hplace place hmem).2).2
      ⟨hcost _ (List.fst_mem_of_mem_zipIdx hmem), hrow _ hlt⟩

/-- The table of a tableau of a shape is written exactly if all numbers that it shows can be written. -/
theorem exists_tableauTable_iff {n : Nat} {t : Tableau α} (h : Shape n m t)
    (hcosts : costs.length = n + m) :
    (∃ table, tableauTable decimals costs t.rows t.basis (n + m) m = .ok table) ↔
      ∀ x ∈ t.numbers costs, Writable decimals x := by
  have hm : m < t.rows.length := by rw [h.height]; omega
  have hm' : m + 1 < t.rows.length := by rw [h.height]; omega
  rw [forall_mem_numbers_iff, forall_mem_rows_iff h.height, ← and_assoc, ← h.exists_basicRows_iff hcosts]
  simp only [tableauTable_eq_ok_iff, List.getElem?_eq_getElem hm, List.getElem?_eq_getElem hm',
    Option.mem_some_iff, forall_eq']
  constructor
  · rintro ⟨_, basic, _, cj, _, gains, hbasic, ⟨⟩, hcj, ⟨⟩, hgains, -⟩
    exact ⟨⟨basic, hbasic⟩, exists_objectiveRow_iff.1 ⟨cj, hcj⟩, exists_objectiveRow_iff.1 ⟨gains, hgains⟩⟩
  · rintro ⟨⟨basic, hbasic⟩, hfirst, hlast⟩
    obtain ⟨cj, hcj⟩ := exists_objectiveRow_iff.2 hfirst
    obtain ⟨gains, hgains⟩ := exists_objectiveRow_iff.2 hlast
    exact ⟨_, basic, _, cj, _, gains, hbasic, rfl, hcj, rfl, hgains, rfl⟩

omit [DecimalScalar α] in
/-- A table shows a number at least, the limit of the row `Cj`. -/
theorem numbers_ne_nil {n : Nat} {t : Tableau α} (h : Shape n m t) (costs : List α) :
    t.numbers costs ≠ [] := by
  have hm : m < t.rows.length := by rw [h.height]; omega
  have hlength := h.width _ (List.getElem_mem hm)
  have hcell : t.rows[m][n + m] ∈ t.rows[m] := List.getElem_mem _
  exact List.ne_nil_of_mem
    (List.mem_append_right _ (List.mem_flatten.2 ⟨_, List.getElem_mem hm, hcell⟩))

/-- The cost of the first basic column is written before all else. -/
theorem tableauTable_eq_error {fault : Fault} {rest : List Nat} {cost : α}
    (hcost : costs[column]? = some cost) (hcell : cellText decimals cost = .error fault) :
    tableauTable decimals costs rows (column :: rest) columns m = .error fault := by
  have hrow : basicRow decimals costs rows 0 column = .error fault := by
    rw [basicRow, element_eq_ok_iff.2 hcost]
    simp only [bind, Except.bind, hcell]
  rw [tableauTable, List.zipIdx_cons, List.mapM_cons, hrow]
  rfl

/-! ## Where the costs are shown -/

section Costs

variable {F : Fault → Fault → Prop} {costs' : List α}

/-- The row of a basic variable shows its cost in the first cell only. -/
theorem agree_basicRow (hF : ∀ fault, F fault fault) (rows : Grid α) (i : Nat)
    (hcost : AgreeUpTo F (fun cost cost' => AgreeUpTo F (fun _ _ => True) (cellText decimals cost)
      (cellText decimals cost')) (element costs column) (element costs' column)) :
    AgreeUpTo F (fun row row' => row'.tail = row.tail) (basicRow decimals costs rows i column)
      (basicRow decimals costs' rows i column) := by
  unfold basicRow
  refine hcost.bind fun cost cost' hcell => ?_
  refine hcell.bind fun costCell costCell' _ => ?_
  refine .bind_same hF _ fun row => ?_
  refine .bind_same hF _ fun cells => ?_
  exact .ok rfl

/-- The costs of columns are seen in the first column of a table only, and in the faults for which there is no
table. -/
theorem agree_tableauTable (hF : ∀ fault, F fault fault) (rows : Grid α) (basis : List Nat)
    (columns m : Nat) (hcost : ∀ column, AgreeUpTo F (fun cost cost' => AgreeUpTo F (fun _ _ => True)
      (cellText decimals cost) (cellText decimals cost')) (element costs column) (element costs' column)) :
    AgreeUpTo F Table.SameBehindFirst (tableauTable decimals costs rows basis columns m)
      (tableauTable decimals costs' rows basis columns m) := by
  unfold tableauTable
  refine (AgreeUpTo.mapM fun place _ => agree_basicRow hF rows place.2 (hcost place.1)).bind
    fun basic basic' hbasic => ?_
  refine .bind_same hF _ fun first => ?_
  refine .bind_same hF _ fun cj => ?_
  refine .bind_same hF _ fun last => ?_
  refine .bind_same hF _ fun gains => ?_
  refine .ok ⟨rfl, ?_⟩
  have htails : basic'.map List.tail = basic.map List.tail := by
    induction hbasic with
    | nil => rfl
    | cons hrow _ ih => rw [List.map_cons, List.map_cons, hrow, ih]
  rw [List.map_append, List.map_append, htails]

end Costs

end Tableau

end LinearProgram
