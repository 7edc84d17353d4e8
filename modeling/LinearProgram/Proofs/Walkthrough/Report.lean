import LinearProgram.Proofs.Cell
import LinearProgram.Proofs.Walkthrough.Page
import LinearProgram.Proofs.Walkthrough.Record
import LinearProgram.Service
/-!
# When an answer can be explained

A page looks up the costs of the basis by its labels, the rows of the tableau and the ratios.  A snapshot in
which all of this is there is `Legible`, and every snapshot on record is.  So a report can fail by nothing but
the numbers that it shows: the number of decimal places may be one that no text has, or a number may come out
too long.

Proved:
* `Snapshot.Shape.legible`: the snapshots of a problem are legible.
* `Snapshot.Shape.exists_render_iff`: the snapshots that have a page.
* `Solution.Recorded.exists_render_iff`: the answers that have a report.
* `explain_fails_iff`: when explaining fails, and that nothing is ever missing.
* `not_explain_fails_iff_places_out_of_range`: the range of the decimal places alone does not tell.
-/

namespace LinearProgram

open Tableau

variable {α : Type} [DecimalScalar α] {n m : Nat} {decimals : Int}

/-! ## Pages -/

namespace Snapshot

/-- All that a page looks up is there: each label of the basis is that of a column with a cost, and there are
rows and ratios enough. -/
structure Legible (costs : List α) (s : Snapshot α) : Prop where
  label : ∀ label ∈ s.basis, ∃ j < costs.length,
    (variableLabels s.columns).findIdx? (· == label) = some j
  row : ∀ i < s.basis.length + 2, i < s.tableau.length
  ratio : ∀ ratios ∈ s.ratios, ∀ i < s.basis.length, i < ratios.length

variable {s : Snapshot α} {costs : List α}

theorem Shape.legible (h : s.Shape n m) (hcosts : costs.length = n + m) : s.Legible costs where
  label := by
    intro label hlabel
    obtain ⟨columns, -, hlt, hbasis⟩ := h.basis
    rw [hbasis] at hlabel
    obtain ⟨j, hj, rfl⟩ := List.mem_map.1 hlabel
    refine ⟨j, hcosts ▸ hlt j hj, ?_⟩
    rw [h.columns_eq, findIdx?_variableLabels (hlt j hj)]
  row i hi := by
    rw [h.height, ← h.length_basis]
    exact hi
  ratio ratios hratios i hi := by
    rw [h.length_ratios ratios hratios, ← h.length_basis]
    exact hi

/-- A condition on the numbers that a page shows, part by part. -/
theorem forall_mem_numbers_iff {P : α → Prop} :
    (∀ x ∈ s.numbers costs, P x) ↔
      (∀ label ∈ s.basis, ∀ cost ∈ (s.cost (some costs) label).toOption, P cost) ∧
        (∀ row ∈ s.tableau, ∀ x ∈ row, P x) ∧
        ∀ ratios ∈ s.ratios, ∀ ratio ∈ ratios, ∀ q ∈ ratio.shown?, P q := by
  unfold numbers
  rw [List.forall_mem_append, List.forall_mem_append, and_assoc]
  refine and_congr ?_ (and_congr ?_ ?_)
  · simp only [List.mem_filterMap]
    exact ⟨fun h label hlabel cost hcost => h cost ⟨label, hlabel, hcost⟩,
      fun h cost ⟨label, hlabel, hcost⟩ => h label hlabel cost hcost⟩
  · simp only [List.mem_flatten]
    exact ⟨fun h row hrow x hx => h x ⟨row, hrow, hx⟩, fun h x ⟨row, hrow, hx⟩ => h row hrow x hx⟩
  · cases s.ratios with
    | none => simp
    | some ratios =>
      simp only [Option.getD_some, List.mem_filterMap, Option.mem_some_iff, forall_eq']
      exact ⟨fun h ratio hratio q hq => h q ⟨ratio, hratio, hq⟩,
        fun h q ⟨ratio, hratio, hq⟩ => h ratio hratio q hq⟩

/-- The line of a row, where all that it looks up is there. -/
theorem Legible.exists_tableRow_iff (h : s.Legible costs) {i : Nat} {label : String}
    (hlabel : s.basis[i]? = some label) :
    (∃ texts, s.tableRow (some costs) decimals i label = .ok texts) ↔
      (∀ cost ∈ (s.cost (some costs) label).toOption, Writable decimals cost) ∧
        (∀ row ∈ s.tableau[i]?, ∀ x ∈ row, Writable decimals x) ∧
        ∀ ratios ∈ s.ratios, ∀ ratio ∈ ratios[i]?, ∀ q ∈ ratio.shown?, Writable decimals q := by
  obtain ⟨hi, -⟩ := List.getElem?_eq_some_iff.1 hlabel
  obtain ⟨j, hj, hindex⟩ := h.label label (List.mem_of_getElem? hlabel)
  have hcost : s.cost (some costs) label = .ok costs[j] := by
    rw [cost]
    simp only [hindex, element_eq_ok_iff, List.getElem?_eq_getElem hj]
  have hrow : i < s.tableau.length := h.row i (by omega)
  rw [← exists_ratioCells_iff fun ratios hratios => h.ratio ratios hratios i hi]
  simp only [tableRow_eq_ok_iff, hcost, List.getElem?_eq_getElem hrow, Except.toOption,
    Option.mem_some_iff, forall_eq']
  constructor
  · rintro ⟨_, _, _, cells, costCell, ratio, ⟨⟩, ⟨⟩, hcells, hcostCell, hratio, -⟩
    exact ⟨exists_cellText_iff.1 ⟨costCell, hcostCell⟩, exists_rowCells_iff.1 ⟨cells, hcells⟩,
      ratio, hratio⟩
  · rintro ⟨hwritable, hcells, ratio, hratio⟩
    obtain ⟨costCell, hcostCell⟩ := exists_cellText_iff.2 hwritable
    obtain ⟨cells, hcells⟩ := exists_rowCells_iff.2 hcells
    exact ⟨_, _, _, cells, costCell, ratio, rfl, rfl, hcells, hcostCell, hratio, rfl⟩

/-- The rows of the basis are written exactly if their costs, cells and ratios can be. -/
theorem Shape.exists_tableRows_iff (h : s.Shape n m) (hcosts : costs.length = n + m) :
    (∃ basic, s.basis.zipIdx.mapM
        (fun place => s.tableRow (some costs) decimals place.2 place.1) = .ok basic) ↔
      (∀ label ∈ s.basis, ∀ cost ∈ (s.cost (some costs) label).toOption, Writable decimals cost) ∧
        (∀ i < m, ∀ row ∈ s.tableau[i]?, ∀ x ∈ row, Writable decimals x) ∧
        ∀ ratios ∈ s.ratios, ∀ ratio ∈ ratios, ∀ q ∈ ratio.shown?, Writable decimals q := by
  have hlegible := h.legible hcosts
  rw [exists_mapM_iff]
  constructor
  · intro hrows
    have hplace : ∀ i, ∀ hi : i < s.basis.length, _ := fun i hi =>
      (hlegible.exists_tableRow_iff (List.getElem?_eq_getElem hi)).1
        (hrows _ (List.mk_mem_zipIdx_iff_getElem?.2 (List.getElem?_eq_getElem hi)))
    refine ⟨fun label hlabel => ?_, fun i hi => ?_, fun ratios hratios ratio hratio => ?_⟩
    · obtain ⟨i, hi, rfl⟩ := List.getElem_of_mem hlabel
      exact (hplace i hi).1
    · exact (hplace i (h.length_basis.symm ▸ hi)).2.1
    · obtain ⟨i, hi⟩ := List.mem_iff_getElem?.1 hratio
      have hlt := (List.getElem?_eq_some_iff.1 hi).1
      rw [h.length_ratios ratios hratios, ← h.length_basis] at hlt
      exact (hplace i hlt).2.2 ratios hratios ratio hi
  · rintro ⟨hcost, hrow, hratio⟩ place hplace
    have hlabel := List.mem_zipIdx_iff_getElem?.1 hplace
    have hlt := (List.getElem?_eq_some_iff.1 hlabel).1
    refine (hlegible.exists_tableRow_iff hlabel).2 ⟨hcost _ (List.mem_of_getElem? hlabel),
      hrow _ (h.length_basis ▸ hlt), fun ratios hratios ratio hmem => ?_⟩
    exact hratio ratios hratios ratio (List.mem_of_getElem? hmem)

/-- A snapshot of a shape has its table exactly if its numbers can be written. -/
theorem Shape.exists_table_iff (h : s.Shape n m) (hcosts : costs.length = n + m) :
    (∃ table, s.table (some costs) decimals = .ok table) ↔
      ∀ x ∈ s.numbers costs, Writable decimals x := by
  have hm : m < s.tableau.length := by rw [h.height]; omega
  have hm' : m + 1 < s.tableau.length := by rw [h.height]; omega
  rw [forall_mem_numbers_iff, Tableau.forall_mem_rows_iff h.height]
  simp only [table_eq_ok_iff, h.length_basis, List.getElem?_eq_getElem hm,
    List.getElem?_eq_getElem hm', Option.mem_some_iff, forall_eq']
  constructor
  · rintro ⟨_, basic, _, cj, _, gains, hrows, ⟨⟩, hcj, ⟨⟩, hgains, -⟩
    obtain ⟨hcost, hrow, hratio⟩ := (h.exists_tableRows_iff hcosts).1 ⟨basic, hrows⟩
    exact ⟨hcost, ⟨hrow, exists_objectiveRow_iff.1 ⟨cj, hcj⟩, exists_objectiveRow_iff.1 ⟨gains, hgains⟩⟩,
      hratio⟩
  · rintro ⟨hcost, ⟨hrow, hfirst, hlast⟩, hratio⟩
    obtain ⟨basic, hrows⟩ := (h.exists_tableRows_iff hcosts).2 ⟨hcost, hrow, hratio⟩
    obtain ⟨cj, hcj⟩ := exists_objectiveRow_iff.2 hfirst
    obtain ⟨gains, hgains⟩ := exists_objectiveRow_iff.2 hlast
    exact ⟨_, basic, _, cj, _, gains, hrows, rfl, hcj, rfl, hgains, rfl⟩

/-- A snapshot of a shape has a page exactly if its numbers can be written. -/
theorem Shape.exists_render_iff (h : s.Shape n m) (hcosts : costs.length = n + m) :
    (∃ page, s.render (some costs) decimals = .ok page) ↔
      (∀ x ∈ s.numbers costs, Writable decimals x) ∧ ∀ k ∈ s.wholeNumbers, Numeral.IsShort k := by
  rw [Snapshot.exists_render_iff, h.exists_table_iff hcosts]

/-- Every page shows a number, the limit of the row `Cj`. -/
theorem Shape.numbers_ne_nil (h : s.Shape n m) (costs : List α) : s.numbers costs ≠ [] := by
  have hm : m < s.tableau.length := by rw [h.height]; omega
  have hlength := h.width _ (List.getElem_mem hm)
  have hcell : s.tableau[m][n + m] ∈ s.tableau.flatten :=
    List.mem_flatten.2 ⟨_, List.getElem_mem hm, List.getElem_mem _⟩
  exact List.ne_nil_of_mem (List.mem_append_left _ (List.mem_append_right _ hcell))

end Snapshot

/-! ## Reports -/

namespace Solution

/-- The numbers that the report on an answer shows: those of its pages, and the optimum. -/
def numbers (s : Solution α) : List α :=
  s.trace.flatMap (fun snapshot => snapshot.numbers (s.costs.getD [])) ++
    if s.valid then s.point ++ [s.objectiveValue] else []

/-- The whole numbers that it shows, which are those of its pages. -/
def wholeNumbers (s : Solution α) : List Int := s.trace.flatMap Snapshot.wholeNumbers

variable {s : Solution α}

theorem exists_pointText_iff :
    (∃ text, s.pointText decimals = .ok text) ↔ ∀ x ∈ s.point, Writable decimals x := by
  simp only [pointText, exists_bind_pure_iff, exists_mapM_iff, coordinateText, exists_map_iff,
    exists_cellText_iff]
  exact forall_mem_zipIdx_iff

/-- The pages of a trace are written exactly if their numbers can be. -/
theorem Recorded.exists_renderTrace_iff (h : s.Recorded n m) :
    (∃ pages, s.renderTrace wholeText decimals s.trace = .ok pages) ↔
      (∀ snapshot ∈ s.trace, ∀ x ∈ snapshot.numbers (s.costs.getD []), Writable decimals x) ∧
        ∀ k ∈ s.wholeNumbers, Numeral.IsShort k := by
  have hwhole : (∀ k ∈ s.wholeNumbers, Numeral.IsShort k) ↔
      ∀ snapshot ∈ s.trace, ∀ k ∈ snapshot.wholeNumbers, Numeral.IsShort k := by
    simp only [wholeNumbers, List.mem_flatMap]
    exact ⟨fun h snapshot hsnapshot k hk => h k ⟨snapshot, hsnapshot, hk⟩,
      fun h k ⟨snapshot, hsnapshot, hk⟩ => h snapshot hsnapshot k hk⟩
  rw [renderTrace, exists_bind_pure_iff, exists_mapM_iff, hwhole, ← forall₂_and]
  refine forall₂_congr fun snapshot hsnapshot => ?_
  obtain ⟨costs, hcosts, hlength⟩ := h.costs (List.ne_nil_of_mem hsnapshot)
  rw [hcosts]
  exact (h.shape snapshot hsnapshot).exists_render_iff hlength

theorem Recorded.exists_renderTables_iff (h : s.Recorded n m) :
    (∃ tables, s.renderTables wholeText decimals = .ok tables) ↔
      (∀ snapshot ∈ s.trace, ∀ x ∈ snapshot.numbers (s.costs.getD []), Writable decimals x) ∧
        ∀ k ∈ s.wholeNumbers, Numeral.IsShort k := by
  rw [← h.exists_renderTrace_iff, renderTables]
  split
  · next htrace =>
    rw [htrace]
    exact iff_of_true ⟨_, rfl⟩ ⟨_, rfl⟩
  · exact exists_map_iff

/-- An answer has a report exactly if the numbers of the report can be written. -/
theorem Recorded.exists_render_iff (h : s.Recorded n m) :
    (∃ report, s.render decimals = .ok report) ↔
      (∀ x ∈ s.numbers, Writable decimals x) ∧ ∀ k ∈ s.wholeNumbers, Numeral.IsShort k := by
  have hpages : (∀ x ∈ s.trace.flatMap (fun snapshot => snapshot.numbers (s.costs.getD [])),
        Writable decimals x) ↔
      ∀ snapshot ∈ s.trace, ∀ x ∈ snapshot.numbers (s.costs.getD []), Writable decimals x := by
    simp only [List.mem_flatMap]
    exact ⟨fun h snapshot hsnapshot x hx => h x ⟨snapshot, hsnapshot, hx⟩,
      fun h x ⟨snapshot, hsnapshot, hx⟩ => h snapshot hsnapshot x hx⟩
  unfold render renderWith numbers
  rw [List.forall_mem_append, hpages]
  cases hvalid : s.valid with
  | true =>
    rw [if_pos rfl, if_pos rfl, List.forall_mem_append, List.forall_mem_singleton,
      and_right_comm, ← h.exists_renderTables_iff, ← exists_pointText_iff, ← exists_cellText_iff]
    simp only [bind_eq_ok_iff, pure_eq_ok_iff]
    constructor
    · rintro ⟨_, tables, htables, point, hpoint, value, hvalue, -⟩
      exact ⟨⟨tables, htables⟩, ⟨point, hpoint⟩, value, hvalue⟩
    · rintro ⟨⟨tables, htables⟩, ⟨point, hpoint⟩, value, hvalue⟩
      exact ⟨_, tables, htables, point, hpoint, value, hvalue, rfl⟩
  | false =>
    rw [if_neg Bool.false_ne_true, if_neg Bool.false_ne_true, and_right_comm,
      ← h.exists_renderTrace_iff, and_iff_left (List.forall_mem_nil _)]
    split
    · next htrace =>
      rw [htrace]
      exact iff_of_true ⟨_, rfl⟩ ⟨_, rfl⟩
    · exact exists_map_iff

/-- A report shows no number exactly if the answer is an error or infeasible. -/
theorem Recorded.numbers_eq_nil_iff (h : s.Recorded n m) :
    s.numbers = [] ↔ s.status = .error ∨ s.status = .infeasible := by
  have hshown : ¬ (s.valid = true ∨ s.trace ≠ []) ↔ s.status = .error ∨ s.status = .infeasible := by
    rw [h.shown_iff, not_and_or, not_not, not_not]
  rw [← hshown]
  constructor
  · rintro hnil (hvalid | htrace)
    · simp [numbers, hvalid] at hnil
    · obtain ⟨snapshot, hsnapshot⟩ := List.exists_mem_of_ne_nil _ htrace
      have hnumbers := List.flatMap_eq_nil_iff.1 (List.append_eq_nil_iff.1 hnil).1 snapshot hsnapshot
      exact (h.shape snapshot hsnapshot).numbers_ne_nil _ hnumbers
  · intro hnot
    rw [not_or, not_not] at hnot
    simp [numbers, hnot.1, hnot.2]

/-- A page that shows a whole number shows others too. -/
theorem Recorded.numbers_ne_nil (h : s.Recorded n m) {k : Int} (hk : k ∈ s.wholeNumbers) :
    s.numbers ≠ [] := by
  obtain ⟨snapshot, hsnapshot, -⟩ := List.mem_flatMap.1 hk
  intro hnil
  have hnumbers := List.flatMap_eq_nil_iff.1 (List.append_eq_nil_iff.1 hnil).1 snapshot hsnapshot
  exact (h.shape snapshot hsnapshot).numbers_ne_nil _ hnumbers

/-- What can be wrong with the numbers of a report. -/
theorem Recorded.not_exists_render_iff (h : s.Recorded n m) :
    ¬ (∃ report, s.render decimals = .ok report) ↔
      (s.status ≠ .error ∧ s.status ≠ .infeasible) ∧
        (decimals < 0 ∨ maxPlaces < decimals ∨
          (∃ x ∈ s.numbers, DecimalScalar.isReadable decimals.toNat x = false) ∨
          ∃ k ∈ s.wholeNumbers, ¬ Numeral.IsShort k) := by
  have hshown : s.numbers ≠ [] ↔ s.status ≠ .error ∧ s.status ≠ .infeasible := by
    rw [ne_eq, h.numbers_eq_nil_iff, not_or]
  rw [h.exists_render_iff, ← hshown, not_and_or]
  simp only [not_forall, exists_prop]
  constructor
  · rintro (⟨x, hx, hnot⟩ | ⟨k, hk, hlong⟩)
    · refine ⟨List.ne_nil_of_mem hx, ?_⟩
      rcases not_writable_iff.1 hnot with hd | hd | hreadable
      · exact .inl hd
      · exact .inr (.inl hd)
      · exact .inr (.inr (.inl ⟨x, hx, hreadable⟩))
    · exact ⟨h.numbers_ne_nil hk, .inr (.inr (.inr ⟨k, hk, hlong⟩))⟩
  · rintro ⟨hne, hwrong⟩
    obtain ⟨x, hx⟩ := List.exists_mem_of_ne_nil _ hne
    rcases hwrong with hd | hd | ⟨y, hy, hreadable⟩ | hlong
    · exact .inl ⟨x, hx, not_writable_iff.2 (.inl hd)⟩
    · exact .inl ⟨x, hx, not_writable_iff.2 (.inr (.inl hd))⟩
    · exact .inl ⟨y, hy, not_writable_iff.2 (.inr (.inr hreadable))⟩
    · exact .inr hlong

end Solution

/-! ## Explaining -/

namespace Service

/-- What the answer to arguments has on record. -/
theorem Arguments.recorded (a : Arguments) :
    a.solution.Recorded a.problem.variableCount a.problem.constraints.length :=
  a.problem.recorded_solve _ _

/-- Explaining has a result exactly if the answer has a report. -/
theorem exists_explain_iff (a : Arguments) :
    (∃ answer, Tool.explain.answer a = .ok answer) ↔
      ∃ report, a.solution.render a.inForce.decimals = .ok report :=
  exists_map_iff

/-- Explaining fails exactly if the answer is neither an error nor infeasible, and no text can have the number
of places, a number of the report comes out too long with so many, or a whole number of a page is too long.
With fewer places than any double runs over with, every answer of the engine has a report unless a whole number
is too long, and nothing that its pages look up is ever missing. -/
theorem explain_fails_iff (a : Arguments) :
    ((∃ fault, Tool.explain.answer a = .error fault) ↔
      (a.solution.status ≠ .error ∧ a.solution.status ≠ .infeasible) ∧
        (a.inForce.decimals < 0 ∨ maxPlaces < a.inForce.decimals ∨
          (∃ x ∈ a.solution.numbers, DecimalScalar.isReadable a.inForce.decimals.toNat x = false) ∨
          ∃ k ∈ a.solution.wholeNumbers, ¬ Numeral.IsShort k)) ∧
    (∀ decimals : Int, 0 ≤ decimals → decimals + 309 ≤ Numeral.maxDecimalDigits →
      (∀ k ∈ a.solution.wholeNumbers, Numeral.IsShort k) →
      ∃ report, a.solution.render decimals = .ok report) ∧
    ∀ s ∈ a.solution.trace, ∃ costs, a.solution.costs = some costs ∧ s.Legible costs := by
  have hrecorded := a.recorded
  refine ⟨?_, fun decimals hd hd' hwhole => ?_, fun s hs => ?_⟩
  · rw [exists_error_iff, exists_explain_iff, hrecorded.not_exists_render_iff]
  · exact hrecorded.exists_render_iff.2 ⟨fun x _ => writable_double hd hd' x, hwhole⟩
  · obtain ⟨costs, hcosts, hlength⟩ := hrecorded.costs (List.ne_nil_of_mem hs)
    exact ⟨costs, hcosts, (hrecorded.shape s hs).legible hlength⟩

/-- With a negative number of places an unbounded problem has an answer that cannot be explained. -/
theorem explain_fails_iff_unbounded :
    ∃ fault, Tool.explain.answer ⟨⟨true, [1, 0, 0], [[0, 1, 1]], [.atMost], [5], none, none⟩, none,
      some ⟨100, 0, 0, 0, -1⟩⟩ = .error fault := by
  set a : Arguments := ⟨⟨true, [1, 0, 0], [[0, 1, 1]], [.atMost], [5], none, none⟩, none,
    some ⟨100, 0, 0, 0, -1⟩⟩
  have hstatus : a.solution.status = .unbounded := by decide +kernel
  refine (explain_fails_iff a).1.2 ⟨⟨?_, ?_⟩, .inl (by decide)⟩ <;> rw [hstatus] <;> decide

/-- The range of the decimal places alone does not tell which answers cannot be explained: the drawing of
`x₁ + x₂ ≤ 1` has an optimum, but no report with `1000000001` of them, which is in the range. -/
theorem not_explain_fails_iff_places_out_of_range :
    ¬ ∀ a : Arguments, a.problem.Admissible →
      ((∃ fault, Tool.explain.answer a = .error fault) ↔
        (a.inForce.decimals < 0 ∨ maxPlaces < a.inForce.decimals) ∧
          a.solution.status ≠ .error ∧ a.solution.status ≠ .infeasible) := by
  intro h
  set a : Arguments := ⟨⟨true, [1, 1], [[1, 1]], [.atMost], [1], none, none⟩, none,
    some { Options.standard with decimals := 1000000001 }⟩
  have hadmissible : a.problem.Admissible := ⟨by decide, rfl, rfl, by decide⟩
  have hparts : (a.solution.valid, Scalar.isFinite a.solution.objectiveValue) = (true, true) := by
    decide +kernel
  obtain ⟨hvalid, hfinite⟩ := Prod.mk.inj hparts
  have hmem : a.solution.objectiveValue ∈ a.solution.numbers := by
    rw [Solution.numbers, hvalid, if_pos rfl]
    exact List.mem_append_right _ (List.mem_append_right _ (List.mem_singleton.2 rfl))
  have hfails : ∃ fault, Tool.explain.answer a = .error fault := by
    rw [exists_error_iff, exists_explain_iff, a.recorded.exists_render_iff]
    exact fun hwritable => not_writable_double hfinite (by decide) (hwritable.1 _ hmem)
  exact absurd ((h a hadmissible).1 hfails).1 (by decide)

end Service

end LinearProgram
