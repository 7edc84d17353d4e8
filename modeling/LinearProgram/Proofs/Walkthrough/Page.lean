import LinearProgram.Proofs.Tableau.Table
import LinearProgram.Walkthrough
/-!
# What a page is made of

A page is a title, the exchange if there is one, and a table, and each of them is made in steps that may
fail.  What follows reads a page and its parts off these steps (`tableRow_eq_ok_iff`, `table_eq_ok_iff`,
`renderWith_eq_ok_iff`), and says which numbers a page shows: `numbers` with the places that were asked for,
and `wholeNumbers` as they are.  The parts that look nothing up are written exactly if their numbers can be.
All of it holds over any scalars and for snapshots of any shape.
-/

namespace LinearProgram

variable {α : Type} [DecimalScalar α] {decimals : Int}

/-- To go through a list with its places is to go through the list. -/
theorem forall_mem_zipIdx_iff {β : Type} {xs : List β} {P : β → Prop} :
    (∀ place ∈ xs.zipIdx, P place.1) ↔ ∀ x ∈ xs, P x := by
  have hplaces : (∀ x ∈ xs.zipIdx.map Prod.fst, P x) ↔ _ := List.forall_mem_map
  rw [← hplaces, List.zipIdx_map_fst]

/-- The number that is shown for a ratio, if one is. -/
def Ratio.shown? : Ratio α → Option α
  | .unlimited => none
  | .limit q => if Scalar.isInfinite q then none else some q

namespace Snapshot

variable {s : Snapshot α} {i : Nat}

/-- The numbers that the page of a snapshot shows: the costs of the basis, the tableau, and the ratios that
are not infinite. -/
def numbers (costs : List α) (s : Snapshot α) : List α :=
  s.basis.filterMap (fun label => (s.cost (some costs) label).toOption) ++ s.tableau.flatten ++
    (s.ratios.getD []).filterMap Ratio.shown?

/-- The whole numbers that it shows: its index, unless it is the first page, and the row and the column of
the pivot, counted from one. -/
def wholeNumbers (s : Snapshot α) : List Int :=
  (if s.index = 0 then [] else [s.index]) ++
    match s.pivot with
    | none => []
    | some pivot => [pivot.row + 1, pivot.col + 1]

/-! ## The table -/

theorem tableRow_eq_ok_iff {costs : Option (List α)} {label : String} {texts : List String} :
    s.tableRow costs decimals i label = .ok texts ↔
      ∃ cost row cells costCell ratio, s.cost costs label = .ok cost ∧ s.tableau[i]? = some row ∧
        s.rowCells decimals i row = .ok cells ∧ cellText decimals cost = .ok costCell ∧
        s.ratioCells decimals i = .ok ratio ∧ costCell :: label :: cells ++ ratio = texts := by
  simp [tableRow]

theorem table_eq_ok_iff {costs : Option (List α)} {table : Table} :
    s.table costs decimals = .ok table ↔
      ∃ basic first cj last gains,
        s.basis.zipIdx.mapM (fun place => s.tableRow costs decimals place.2 place.1) = .ok basic ∧
        s.tableau[s.basis.length]? = some first ∧ objectiveRow decimals "Cj" first = .ok cj ∧
        s.tableau[s.basis.length + 1]? = some last ∧ objectiveRow decimals "Δj" last = .ok gains ∧
        ⟨s.headers, basic ++ [cj, gains]⟩ = table := by
  simp [Snapshot.table]

theorem exists_rowCells_iff {row : List α} :
    (∃ cells, s.rowCells decimals i row = .ok cells) ↔ ∀ x ∈ row, Writable decimals x := by
  simp only [rowCells, exists_mapM_iff, exists_bind_pure_iff, exists_cellText_iff]
  exact forall_mem_zipIdx_iff

theorem exists_ratioText_iff {ratio : Ratio α} :
    (∃ text, ratioText decimals ratio = .ok text) ↔ ∀ q ∈ ratio.shown?, Writable decimals q := by
  cases ratio with
  | unlimited => simp [ratioText, Ratio.shown?]
  | limit q =>
    by_cases hq : Scalar.isInfinite q = true
    · simp [ratioText, Ratio.shown?, hq]
    · simp [ratioText, Ratio.shown?, hq, exists_cellText_iff]

/-- The last cell of a row, where there is a ratio for it. -/
theorem exists_ratioCells_iff (h : ∀ ratios ∈ s.ratios, i < ratios.length) :
    (∃ cells, s.ratioCells decimals i = .ok cells) ↔
      ∀ ratios ∈ s.ratios, ∀ ratio ∈ ratios[i]?, ∀ q ∈ ratio.shown?, Writable decimals q := by
  unfold ratioCells
  cases hratios : s.ratios with
  | none => simp
  | some ratios =>
    have hi : i < ratios.length := h ratios hratios
    simp only [bind_eq_ok_iff, pure_eq_ok_iff, element_eq_ok_iff, List.getElem?_eq_getElem hi,
      Option.mem_some_iff, forall_eq', ← exists_ratioText_iff]
    constructor
    · rintro ⟨_, ratio, hratio, text, htext, -⟩
      obtain rfl := Option.some.inj hratio
      exact ⟨text, htext⟩
    · rintro ⟨text, htext⟩
      exact ⟨_, _, rfl, text, htext, rfl⟩

/-! ## The title and the exchange -/

omit [DecimalScalar α] in
theorem title_eq_ok_iff {title : String} :
    s.title wholeText = .ok title ↔ (s.index = 0 ∨ Numeral.IsShort s.index) ∧
      (if s.index = 0 then "Initial tableau" else "Iteration " ++ toString s.index) ++
        (if s.isOptimal then " (optimal)" else "") = title := by
  unfold Snapshot.title name
  by_cases hindex : s.index = 0
  · simp [hindex]
  · simp [hindex, wholeText_eq_ok_iff]

omit [DecimalScalar α] in
theorem exchangeLines_eq_ok_iff {pivot : Pivot} (h : s.pivot = some pivot) {lines : List String} :
    s.exchangeLines wholeText = .ok lines ↔
      Numeral.IsShort (pivot.row + 1) ∧ Numeral.IsShort (pivot.col + 1) ∧
        ["Entering: " ++ labelText s.entering ++ "  Leaving: " ++ labelText s.leaving ++
          "  Pivot: row " ++ toString (pivot.row + 1) ++ ", column " ++ toString (pivot.col + 1)] =
          lines := by
  simp [exchangeLines, h, wholeText_eq_ok_iff]

omit [DecimalScalar α] in
/-- A title and the line of an exchange are written exactly if their numbers are not too long. -/
theorem exists_head_iff :
    ((∃ title, s.title wholeText = .ok title) ∧ ∃ lines, s.exchangeLines wholeText = .ok lines) ↔
      ∀ k ∈ s.wholeNumbers, Numeral.IsShort k := by
  unfold wholeNumbers
  rw [List.forall_mem_append]
  refine and_congr ?_ ?_
  · simp only [title_eq_ok_iff, exists_and_left, exists_eq', and_true]
    by_cases hindex : s.index = 0
    · simp [hindex]
    · simp [hindex]
  · cases hpivot : s.pivot with
    | none => simp [exchangeLines, hpivot]
    | some pivot =>
      dsimp only
      rw [List.forall_mem_cons, List.forall_mem_singleton]
      simp only [exchangeLines_eq_ok_iff hpivot, exists_and_left, exists_eq', and_true]

/-! ## The page -/

theorem renderWith_eq_ok_iff {number : Int → Except Fault String} {costs : Option (List α)}
    {page : String} :
    s.renderWith number costs decimals = .ok page ↔
      ∃ table title exchange, s.table costs decimals = .ok table ∧ s.title number = .ok title ∧
        s.exchangeLines number = .ok exchange ∧
        "\n".intercalate (title :: exchange ++ [table.render]) = page := by
  simp [renderWith]

/-- A page is written exactly if its table is and its whole numbers are not too long. -/
theorem exists_render_iff {costs : Option (List α)} :
    (∃ page, s.render costs decimals = .ok page) ↔
      (∃ table, s.table costs decimals = .ok table) ∧ ∀ k ∈ s.wholeNumbers, Numeral.IsShort k := by
  rw [← exists_head_iff]
  simp only [render, renderWith_eq_ok_iff]
  constructor
  · rintro ⟨_, table, title, exchange, htable, htitle, hexchange, -⟩
    exact ⟨⟨table, htable⟩, ⟨title, htitle⟩, exchange, hexchange⟩
  · rintro ⟨⟨table, htable⟩, ⟨title, htitle⟩, exchange, hexchange⟩
    exact ⟨_, table, title, exchange, htable, htitle, hexchange, rfl⟩

end Snapshot

end LinearProgram
