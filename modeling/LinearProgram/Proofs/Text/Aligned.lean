import LinearProgram.Proofs.Text.Table
import Mathlib.Data.List.Basic
/-!
# Text tables are aligned

Every column has room for each of its cells, so a padded cell is exactly as wide as its column.  Hence
where the separators of a line stand depends on the widths of the columns alone, and not on the cells: a
line of the table and the rule under the headers have theirs at the same offsets, as far as the line goes.
The blanks that are dropped at the end of a line hold no bar.

Proved:
* `idxsOf_joinChars`: where the separators of joined pieces stand.
* `fits_headers`, `fits_row`: the columns have room for all cells.
* `offsets_line_isPrefix`: the bars of a line stand where the first crosses of the rule do.
* `aligned_render`: the cells of a table are read back from its text, and its bars stand under each other.
-/

namespace LinearProgram

/-- The offsets of a character in a text, in order. -/
def Text.offsets (c : Char) (s : String) : List Nat := s.toList.idxsOf c

namespace Table

open Text

/-! ## Separators -/

/-- The offsets of the bars between columns of some widths, the first of which begins at `start`. -/
def bars (start : Nat) : List Nat → List Nat
  | [] => []
  | [_] => []
  | width :: second :: rest => (start + width + 1) :: bars (start + width + 3) (second :: rest)

/-- Fewer columns have the first of the bars. -/
theorem bars_prefix {widths widths' : List Nat} (h : widths <+: widths') (start : Nat) :
    bars start widths <+: bars start widths' := by
  fun_induction bars start widths generalizing widths' with
  | case1 => exact List.nil_prefix
  | case2 => exact List.nil_prefix
  | case3 start width second rest ih =>
    obtain ⟨behind, rfl⟩ := h
    exact (List.cons_prefix_cons).2 ⟨rfl, ih (List.prefix_append _ _)⟩

/-- The middle character of the separators stands between the pieces, and nowhere else. -/
theorem idxsOf_joinChars {before middle behind : Char} (hbefore : before ≠ middle)
    (hbehind : behind ≠ middle) {css : List (List Char)} (hcss : ∀ cs ∈ css, middle ∉ cs)
    (start : Nat) :
    (joinChars [before, middle, behind] css).idxsOf middle start = bars start (css.map List.length) := by
  have hnone : ∀ {cs : List Char}, middle ∉ cs → ∀ start, cs.idxsOf middle start = [] := by
    intro cs hcs start
    refine List.idxsOf_eq_nil_iff.2 fun c hc => ?_
    exact beq_eq_false_iff_ne.2 fun heq => hcs (heq ▸ hc)
  induction css generalizing start with
  | nil => rfl
  | cons cs rest ih =>
    obtain ⟨hcs, hrest⟩ := List.forall_mem_cons.1 hcss
    cases rest with
    | nil => exact hnone hcs start
    | cons second rest =>
      rw [joinChars, List.append_assoc, List.idxsOf_append, hnone hcs, List.nil_append,
        List.idxsOf_append, ih hrest]
      · simp [List.idxsOf_cons, hbefore, hbehind, bars, Nat.add_assoc]
      · exact List.cons_ne_nil _ _

/-! ## Widths -/

/-- Columns that have room for the cells of a row. -/
def Fits : List Nat → List String → Prop
  | _, [] => True
  | [], _ :: _ => False
  | width :: widths, cell :: cells => cell.length ≤ width ∧ Fits widths cells

theorem fits_lengths (row : List String) : Fits (row.map String.length) row := by
  induction row with
  | nil => trivial
  | cons cell row ih => exact ⟨le_rfl, ih⟩

/-- Widened columns have room for the further row. -/
theorem fits_widen_self (widths : List Nat) (row : List String) : Fits (widen widths row) row := by
  fun_induction widen widths row with
  | case1 widths => cases widths <;> trivial
  | case2 cell cells ih => exact ⟨le_rfl, ih⟩
  | case3 width widths cell cells ih => exact ⟨le_max_right _ _, ih⟩

/-- Widened columns keep their room. -/
theorem Fits.widen {widths : List Nat} {row : List String} (h : Fits widths row) (row' : List String) :
    Fits (widen widths row') row := by
  fun_induction Table.widen widths row' generalizing row with
  | case1 => exact h
  | case2 cell cells =>
    cases row with
    | nil => trivial
    | cons => exact h.elim
  | case3 width widths cell cells ih =>
    cases row with
    | nil => trivial
    | cons => exact ⟨h.1.trans (le_max_left _ _), ih h.2⟩

theorem Fits.foldl_widen {widths : List Nat} {row : List String} (h : Fits widths row)
    (rows : List (List String)) : Fits (rows.foldl Table.widen widths) row := by
  induction rows generalizing widths with
  | nil => exact h
  | cons row' rows ih => exact ih (h.widen row')

theorem fits_headers (t : Table) : Fits t.widths t.headers := (fits_lengths t.headers).foldl_widen t.rows

theorem fits_row {t : Table} {row : List String} (h : row ∈ t.rows) : Fits t.widths row := by
  obtain ⟨before, behind, hrows⟩ := List.append_of_mem h
  rw [widths, hrows, List.foldl_append, List.foldl_cons]
  exact (fits_widen_self _ row).foldl_widen behind

/-- A padded cell is as wide as its column. -/
theorem Fits.map_length_pads {widths : List Nat} {row : List String} (h : Fits widths row) :
    (List.zipWith pad widths row).map List.length <+: widths := by
  induction row generalizing widths with
  | nil => rw [List.zipWith_nil_right]; exact List.nil_prefix
  | cons cell row ih =>
    cases widths with
    | nil => exact h.elim
    | cons width widths =>
      have hpad : (pad width cell).length = width := by
        rw [pad, List.length_append, List.length_replicate, String.length_toList]
        exact Nat.sub_add_cancel h.1
      exact (List.cons_prefix_cons).2 ⟨hpad, ih h.2⟩

/-! ## Lines -/

theorem offsets_rule (widths : List Nat) : offsets '+' (rule widths) = bars 0 widths := by
  have hplus : ∀ cs ∈ widths.map fun width => List.replicate width '-', '+' ∉ cs := by
    intro cs hcs hmem
    obtain ⟨width, -, rfl⟩ := List.mem_map.1 hcs
    exact absurd (List.eq_of_mem_replicate hmem) (by decide)
  have hlengths : (widths.map fun width => List.replicate width '-').map List.length = widths := by
    rw [List.map_map]
    exact (List.map_congr_left fun width _ => List.length_replicate).trans (List.map_id _)
  have hwhole := @idxsOf_joinChars '-' '+' '-' (by decide) (by decide) _ hplus 0
  rw [hlengths] at hwhole
  rw [offsets, Table.rule, String.toList_ofList]
  exact hwhole

/-- The bars of a line depend on the widths alone, and not on the blanks at its end. -/
theorem offsets_line {widths : List Nat} {row : List String} (hcell : ∀ cell ∈ row, IsCell cell) :
    offsets '|' (line widths row) = bars 0 ((List.zipWith pad widths row).map List.length) := by
  have hbar : ∀ cs ∈ List.zipWith pad widths row, '|' ∉ cs := by
    intro cs hcs hmem
    obtain ⟨width, cell, hcell', rfl⟩ := exists_pad_of_mem hcs
    exact (hcell cell hcell').bar ((mem_pad hmem).resolve_left (by decide))
  obtain ⟨blanks, hblanks, hjoin⟩ :=
    exists_trimRight isBlank (joinChars " | ".toList (List.zipWith pad widths row))
  have hdropped : ∀ start, blanks.idxsOf '|' start = [] := by
    refine fun start => List.idxsOf_eq_nil_iff.2 fun c hc => beq_eq_false_iff_ne.2 ?_
    rintro rfl
    exact absurd (hblanks _ hc) (by decide)
  have hwhole := @idxsOf_joinChars ' ' '|' ' ' (by decide) (by decide) _ hbar 0
  have hseparator : " | ".toList = [' ', '|', ' '] := rfl
  rw [← hseparator, ← hjoin, List.idxsOf_append, hdropped, List.append_nil] at hwhole
  rw [offsets, line, String.toList_ofList, hwhole]

theorem offsets_line_isPrefix {widths : List Nat} {row : List String} (hfits : Fits widths row)
    (hcell : ∀ cell ∈ row, IsCell cell) :
    offsets '|' (line widths row) <+: offsets '+' (rule widths) := by
  rw [offsets_line hcell, offsets_rule]
  exact bars_prefix hfits.map_length_pads 0

/-- The text of a table has a line of headers, a separator and a line for each row.  The cells of the headers
and of every row are read back from their lines, and the bars of a line stand at the same offsets as the
first crosses of the separator. -/
theorem aligned_render {t : Table} (h : t.IsPlain) :
    ∃ header separator rows, pieces '\n' t.render = header :: separator :: rows ∧
      rows.length = t.rows.length ∧ cells header = t.headers ∧ rows.map cells = t.rows ∧
      ∀ line ∈ header :: rows, offsets '|' line <+: offsets '+' separator := by
  have hpieces := pieces_render h
  have hcells := cells_render h
  rw [hpieces, lines, List.map_cons, List.map_cons, List.cons.injEq, List.cons.injEq] at hcells
  obtain ⟨hheader, -, hrows⟩ := hcells
  refine ⟨line t.widths t.headers, rule t.widths, t.rows.map (line t.widths), hpieces,
    List.length_map _, hheader, hrows, ?_⟩
  rw [List.forall_mem_cons, List.forall_mem_map]
  exact ⟨offsets_line_isPrefix (fits_headers t) h.header,
    fun row hrow => offsets_line_isPrefix (fits_row hrow) (h.cell row hrow)⟩

/-- Rows that are shorter and longer than the headers, with cells that are empty, at the end of a row too. -/
theorem aligned_render_ragged :
    ∃ header separator rows,
      pieces '\n' (render ⟨["a", "", "b c"], [["100", "x"], ["", "2", "", "long", ""], [""]]⟩) =
        header :: separator :: rows ∧
      separator = "----+---+-----+------+-" ∧ offsets '+' separator = [4, 8, 14, 21] ∧
      cells header = ["a", "", "b c"] ∧
      rows.map cells = [["100", "x"], ["", "2", "", "long", ""], [""]] ∧
      ∀ line ∈ header :: rows, offsets '|' line <+: [4, 8, 14, 21] := by
  have hplain : IsPlain ⟨["a", "", "b c"], [["100", "x"], ["", "2", "", "long", ""], [""]]⟩ :=
    ⟨by decide, by decide, by decide, by decide⟩
  obtain ⟨header, separator, rows, hpieces, -, hheader, hrows, hbars⟩ := aligned_render hplain
  have hseparator : separator = "----+---+-----+------+-" := by
    have hsecond := congrArg (·[1]?) hpieces
    have hlines : (pieces '\n' (render ⟨["a", "", "b c"],
        [["100", "x"], ["", "2", "", "long", ""], [""]]⟩))[1]? = some "----+---+-----+------+-" := by
      decide +kernel
    exact (Option.some.inj (hlines.symm.trans hsecond)).symm
  have hcrosses : offsets '+' separator = [4, 8, 14, 21] := by rw [hseparator]; decide
  exact ⟨header, separator, rows, hpieces, hseparator, hcrosses, hheader, hrows, hcrosses ▸ hbars⟩

end Table

end LinearProgram
