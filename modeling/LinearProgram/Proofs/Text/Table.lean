import LinearProgram.Text.Table
import Mathlib.Data.List.TakeWhile
/-!
# Reading a text table back

A text is cut at the ends of its lines and each line at its bars, and the blanks around each piece are
dropped.  What comes out is what the table was made of, whatever the widths of its columns and however many
cells its rows have: the padding is blank, the rule is one piece, and the blanks that are dropped at the end
of a line stand behind its last bar.

Proved:
* `trim_append`, `trim_append_left`: blanks at the ends do not count.
* `Text.cells_line`: the cells of a line.
* `Table.pieces_render`: the lines of the text of a table.
* `Table.cells_render`: the cells of a table are read back from its text.
-/

namespace LinearProgram

namespace Text

/-! ## Blanks at the ends -/

section Trim

variable {blank : Char → Bool} {cs bs : List Char}

theorem trimRight_append (h : ∀ c ∈ bs, blank c = true) :
    trimRight blank (cs ++ bs) = trimRight blank cs := by
  rw [trimRight, List.reverse_append, List.dropWhile_append_of_pos fun c hc => h c (List.mem_reverse.1 hc)]
  rfl

/-- Nothing before a character that shows is dropped. -/
theorem trimRight_append_cons {c : Char} (hc : blank c = false) :
    trimRight blank (cs ++ c :: bs) = cs ++ c :: trimRight blank bs := by
  rw [trimRight, trimRight, List.reverse_append, List.reverse_cons, List.append_assoc,
    List.dropWhile_append]
  cases hdrop : bs.reverse.dropWhile blank with
  | nil => simp [hc]
  | cons b rest => simp

/-- What is dropped at the end is blank. -/
theorem exists_trimRight (blank : Char → Bool) (cs : List Char) :
    ∃ bs, (∀ c ∈ bs, blank c = true) ∧ trimRight blank cs ++ bs = cs := by
  refine ⟨(cs.reverse.takeWhile blank).reverse, fun c hc => ?_, ?_⟩
  · exact List.mem_takeWhile_imp (List.mem_reverse.1 hc)
  · rw [trimRight, ← List.reverse_append, List.takeWhile_append_dropWhile, List.reverse_reverse]

theorem trim_append (h : ∀ c ∈ bs, blank c = true) : trim blank (cs ++ bs) = trim blank cs := by
  induction cs with
  | nil =>
    rw [trim, List.nil_append, List.dropWhile_eq_nil_iff.2 h]
    rfl
  | cons c cs ih =>
    cases hc : blank c with
    | true => simpa [trim, hc] using ih
    | false =>
      have hrest : trimRight blank (c :: cs ++ bs) = trimRight blank (c :: cs) := trimRight_append h
      simpa [trim, hc] using hrest

theorem trim_append_left (h : ∀ c ∈ bs, blank c = true) : trim blank (bs ++ cs) = trim blank cs := by
  rw [trim, List.dropWhile_append_of_pos h]
  rfl

theorem trim_trimRight (cs : List Char) : trim blank (trimRight blank cs) = trim blank cs := by
  obtain ⟨bs, hbs, hcs⟩ := exists_trimRight blank cs
  rw [← trim_append hbs, hcs]

/-- A text that shows all its characters loses none. -/
theorem trim_eq_self (h : ∀ c ∈ cs, blank c = false) : trim blank cs = cs := by
  have hdrop : ∀ cs : List Char, (∀ c ∈ cs, blank c = false) → cs.dropWhile blank = cs := by
    intro cs h
    cases cs with
    | nil => rfl
    | cons c cs => rw [List.dropWhile_cons, h c List.mem_cons_self, if_neg Bool.false_ne_true]
  rw [trim, hdrop cs h, trimRight, hdrop _ fun c hc => h c (List.mem_reverse.1 hc), List.reverse_reverse]

end Trim

/-! ## Pieces -/

/-- The pieces of a text between the places of a character. -/
def pieces (separator : Char) (s : String) : List String :=
  (s.toList.splitOn separator).map String.ofList

/-- A text without the blanks at its ends. -/
def stripped (s : String) : String := String.ofList (trim isBlank s.toList)

/-- The cells of a line: its pieces between the bars, without the blanks around them. -/
def cells (line : String) : List String := (pieces '|' line).map stripped

/-- A text that can be told in a table: it has no bar and no end of line, and no blanks at its ends. -/
structure IsCell (s : String) : Prop where
  bar : '|' ∉ s.toList
  newline : '\n' ∉ s.toList
  stripped : stripped s = s

instance (s : String) : Decidable (IsCell s) :=
  decidable_of_iff ('|' ∉ s.toList ∧ '\n' ∉ s.toList ∧ Text.stripped s = s)
    ⟨fun ⟨hbar, hnewline, hstripped⟩ => ⟨hbar, hnewline, hstripped⟩, fun h => ⟨h.1, h.2, h.3⟩⟩

/-- A text in which nothing is blank or a bar can be told in a table. -/
theorem isCell_of_forall {s : String} (h : ∀ c ∈ s.toList, isBlank c = false ∧ c ≠ '|') :
    IsCell s where
  bar hmem := (h _ hmem).2 rfl
  newline hmem := by
    have hblank := (h _ hmem).1
    cases hblank
  stripped := by
    rw [Text.stripped, trim_eq_self fun c hc => (h c hc).1, String.ofList_toList]

theorem pieces_eq_singleton {separator : Char} {s : String} (h : separator ∉ s.toList) :
    pieces separator s = [s] := by
  rw [pieces, List.splitOn_eq_singleton h, List.map_singleton, String.ofList_toList]

/-- Lines that are joined are told apart again, each into lines of its own. -/
theorem pieces_intercalate {texts : List String} (hne : texts ≠ []) :
    pieces '\n' ("\n".intercalate texts) = texts.flatMap (pieces '\n') := by
  obtain ⟨first, rest, rfl⟩ := List.exists_cons_of_ne_nil hne
  induction rest generalizing first with
  | nil => simp [pieces]
  | cons second rest ih =>
    have hrest := ih second (List.cons_ne_nil _ _)
    have hnewline : "\n".toList = ['\n'] := rfl
    rw [pieces, String.toList_intercalate] at hrest ⊢
    rw [List.map_cons, List.intercalate_cons_of_ne_nil (by simp), List.append_assoc]
    rw [hnewline] at hrest ⊢
    rw [List.singleton_append, List.splitOn_append_cons_self, List.map_append, hrest]
    rfl

theorem flatMap_pieces {texts : List String} (h : ∀ text ∈ texts, '\n' ∉ text.toList) :
    texts.flatMap (pieces '\n') = texts := by
  rw [List.flatMap_def, List.map_congr_left fun text htext => pieces_eq_singleton (h text htext),
    ← List.flatMap_def, List.flatMap_singleton']

end Text

namespace Table

open Text

/-! ## One line -/

theorem joinChars_cons {separator second : List Char} {rest : List (List Char)} (c : Char) :
    joinChars separator ((c :: second) :: rest) = c :: joinChars separator (second :: rest) := by
  cases rest <;> rfl

/-- Up to the blanks around them the pieces between the bars of a line are those that were joined. -/
theorem splitOn_joinChars {css : List (List Char)} (hne : css ≠ []) (hbar : ∀ cs ∈ css, '|' ∉ cs) :
    ((trimRight isBlank (joinChars " | ".toList css)).splitOn '|').map (trim isBlank) =
      css.map (trim isBlank) := by
  obtain ⟨first, rest, rfl⟩ := List.exists_cons_of_ne_nil hne
  -- The blank behind a bar is counted to the cell that follows it.
  induction rest generalizing first with
  | nil =>
    obtain ⟨blanks, -, hfirst⟩ := exists_trimRight isBlank first
    have htrim : '|' ∉ trimRight isBlank first := fun h =>
      hbar first List.mem_cons_self (hfirst ▸ List.mem_append_left blanks h)
    rw [joinChars, List.splitOn_eq_singleton htrim, List.map_singleton, trim_trimRight,
      List.map_singleton]
  | cons second rest ih =>
    have hjoin : joinChars " | ".toList (first :: second :: rest) =
        (first ++ [' ']) ++ '|' :: joinChars " | ".toList ((' ' :: second) :: rest) := by
      rw [joinChars_cons, joinChars]
      · simp
      · simp
    have hfirst : '|' ∉ first ++ [' '] := by
      simpa using hbar first List.mem_cons_self
    have hrest : ∀ cs ∈ (' ' :: second) :: rest, '|' ∉ cs := by
      rw [List.forall_mem_cons] at hbar ⊢
      rw [List.forall_mem_cons] at hbar
      refine ⟨?_, hbar.2.2⟩
      simpa using hbar.2.1
    have hblank : ∀ c ∈ [' '], isBlank c = true := List.forall_mem_singleton.2 (by decide)
    have hsecond : trim isBlank (' ' :: second) = trim isBlank second := trim_append_left hblank
    rw [hjoin, trimRight_append_cons (by decide), List.splitOn_append_cons_self_of_not_mem hfirst,
      List.map_cons, ih _ (List.cons_ne_nil _ _) hrest, List.map_cons, List.map_cons, List.map_cons,
      trim_append hblank, hsecond]

theorem mem_pad {width : Nat} {cell : String} {c : Char} (h : c ∈ pad width cell) :
    c = ' ' ∨ c ∈ cell.toList := by
  rcases List.mem_append.1 h with h | h
  · exact .inl (List.eq_of_mem_replicate h)
  · exact .inr h

theorem exists_pad_of_mem {widths : List Nat} {row : List String} {cs : List Char}
    (h : cs ∈ List.zipWith pad widths row) : ∃ width, ∃ cell ∈ row, cs = pad width cell := by
  obtain ⟨i, hi, rfl⟩ := List.getElem_of_mem h
  rw [List.getElem_zipWith]
  exact ⟨_, _, List.getElem_mem _, rfl⟩

theorem trim_pad (width : Nat) (cell : String) :
    trim isBlank (pad width cell) = trim isBlank cell.toList :=
  trim_append_left fun c hc => by rw [List.eq_of_mem_replicate hc]; decide

/-- Without the blanks around them the cells of a line are those of the row. -/
theorem map_trim_pads {widths : List Nat} {row : List String}
    (hlength : row.length ≤ widths.length) :
    (List.zipWith pad widths row).map (fun cs => String.ofList (trim isBlank cs)) =
      row.map stripped := by
  induction row generalizing widths with
  | nil => rw [List.zipWith_nil_right, List.map_nil, List.map_nil]
  | cons cell row ih =>
    cases widths with
    | nil => cases hlength
    | cons width widths =>
      rw [List.zipWith_cons_cons, List.map_cons, List.map_cons, ih (Nat.le_of_succ_le_succ hlength),
        trim_pad, stripped]

/-- The cells of a row are read back from its line. -/
theorem cells_line {widths : List Nat} {row : List String} (hne : row ≠ [])
    (hlength : row.length ≤ widths.length) (hcell : ∀ cell ∈ row, IsCell cell) :
    cells (line widths row) = row := by
  have hpads : List.zipWith pad widths row ≠ [] := by
    rw [← List.length_pos_iff, List.length_zipWith, Nat.min_eq_right hlength]
    exact List.length_pos_iff.2 hne
  have hbar : ∀ cs ∈ List.zipWith pad widths row, '|' ∉ cs := by
    intro cs hcs hmem
    obtain ⟨width, cell, hcell', rfl⟩ := exists_pad_of_mem hcs
    exact (hcell cell hcell').bar ((mem_pad hmem).resolve_left (by decide))
  have hstripped : row.map stripped = row :=
    (List.map_congr_left fun cell h => (hcell cell h).stripped).trans (List.map_id row)
  have hpieces := congrArg (List.map String.ofList) (splitOn_joinChars hpads hbar)
  rw [List.map_map, List.map_map] at hpieces
  have htexts : stripped ∘ String.ofList = String.ofList ∘ trim isBlank :=
    funext fun cs => by rw [Function.comp_apply, stripped, String.toList_ofList]; rfl
  calc cells (line widths row)
      = ((trimRight isBlank (joinChars " | ".toList (List.zipWith pad widths row))).splitOn
          '|').map (String.ofList ∘ trim isBlank) := by
        rw [cells, pieces, line, String.toList_ofList, List.map_map, htexts]
    _ = row.map stripped := hpieces.trans (map_trim_pads hlength)
    _ = row := hstripped

/-! ## The whole table -/

@[simp]
theorem length_widen (widths : List Nat) (row : List String) :
    (widen widths row).length = max widths.length row.length := by
  induction row generalizing widths with
  | nil => simp [widen]
  | cons cell row ih =>
    cases widths with
    | nil => simp [widen, ih]
    | cons width widths => simp [widen, ih]

theorem length_foldl_widen (rows : List (List String)) (widths : List Nat) :
    widths.length ≤ (rows.foldl widen widths).length ∧
      ∀ row ∈ rows, row.length ≤ (rows.foldl widen widths).length := by
  induction rows generalizing widths with
  | nil => exact ⟨le_refl _, nofun⟩
  | cons row rows ih =>
    obtain ⟨hwidths, hrows⟩ := ih (widen widths row)
    rw [length_widen] at hwidths
    rw [List.foldl_cons, List.forall_mem_cons]
    exact ⟨(le_max_left _ _).trans hwidths, (le_max_right _ _).trans hwidths, hrows⟩

theorem mem_joinChars {separator : List Char} {css : List (List Char)} {c : Char}
    (h : c ∈ joinChars separator css) : c ∈ separator ∨ ∃ cs ∈ css, c ∈ cs := by
  fun_induction joinChars separator css with
  | case1 => cases h
  | case2 cs => exact .inr ⟨cs, List.mem_cons_self, h⟩
  | case3 cs rest hne ih =>
    rcases List.mem_append.1 h with h | h
    · rcases List.mem_append.1 h with h | h
      · exact .inr ⟨cs, List.mem_cons_self, h⟩
      · exact .inl h
    · refine (ih h).imp_right ?_
      rintro ⟨cs', hcs', h⟩
      exact ⟨cs', List.mem_cons_of_mem _ hcs', h⟩

/-- A table of cells that can be told, with a header at least and a cell at least in each row. -/
structure IsPlain (t : Table) : Prop where
  headers_ne_nil : t.headers ≠ []
  row_ne_nil : ∀ row ∈ t.rows, row ≠ []
  header : ∀ cell ∈ t.headers, IsCell cell
  cell : ∀ row ∈ t.rows, ∀ cell ∈ row, IsCell cell

theorem newline_not_mem_line {widths : List Nat} {row : List String}
    (h : ∀ cell ∈ row, IsCell cell) : '\n' ∉ (line widths row).toList := by
  intro hmem
  rw [line, String.toList_ofList] at hmem
  obtain ⟨blanks, -, hjoin⟩ := exists_trimRight isBlank (joinChars " | ".toList (List.zipWith pad widths row))
  rcases mem_joinChars (hjoin ▸ List.mem_append_left blanks hmem) with hseparator | ⟨cs, hcs, hmem⟩
  · exact absurd hseparator (by decide)
  · obtain ⟨width, cell, hcell, rfl⟩ := exists_pad_of_mem hcs
    exact (h cell hcell).newline ((mem_pad hmem).resolve_left (by decide))

theorem mem_rule {widths : List Nat} {c : Char} (h : c ∈ (rule widths).toList) : c = '-' ∨ c = '+' := by
  rw [rule, String.toList_ofList] at h
  rcases mem_joinChars h with h | ⟨cs, hcs, h⟩
  · have hseparator : c ∈ ['-', '+', '-'] := h
    rcases List.mem_cons.1 hseparator with hc | hc
    · exact .inl hc
    · simpa [or_comm] using hc
  · obtain ⟨width, -, rfl⟩ := List.mem_map.1 hcs
    exact .inl (List.eq_of_mem_replicate h)

theorem isCell_rule (widths : List Nat) : IsCell (rule widths) :=
  isCell_of_forall fun c hc => by
    rcases mem_rule hc with rfl | rfl <;> decide

/-- The lines of a table are read back from its text. -/
theorem pieces_render {t : Table} (h : t.IsPlain) : pieces '\n' t.render = t.lines := by
  have hline : ∀ text ∈ t.lines, '\n' ∉ text.toList := by
    intro text htext
    rcases List.mem_cons.1 htext with rfl | htext
    · exact newline_not_mem_line h.header
    rcases List.mem_cons.1 htext with rfl | htext
    · exact (isCell_rule _).newline
    obtain ⟨row, hrow, rfl⟩ := List.mem_map.1 htext
    exact newline_not_mem_line (h.cell row hrow)
  have hheaders : ¬ t.headers.isEmpty = true := fun hempty =>
    h.headers_ne_nil (List.isEmpty_iff.1 hempty)
  have hne : t.lines ≠ [] := List.cons_ne_nil _ _
  rw [render, if_neg hheaders, pieces_intercalate hne, flatMap_pieces hline]

/-- The cells of a table are read back from its text. -/
theorem cells_render {t : Table} (h : t.IsPlain) :
    (pieces '\n' t.render).map cells = t.headers :: [rule t.widths] :: t.rows := by
  obtain ⟨hheaders, hrows⟩ := length_foldl_widen t.rows (t.headers.map String.length)
  rw [List.length_map] at hheaders
  have hheaderLine : cells (line t.widths t.headers) = t.headers :=
    cells_line h.headers_ne_nil hheaders h.header
  have hrowLines : (t.rows.map (line t.widths)).map cells = t.rows := by
    rw [List.map_map]
    refine (List.map_congr_left fun row hrow => ?_).trans (List.map_id _)
    exact cells_line (h.row_ne_nil row hrow) (hrows row hrow) (h.cell row hrow)
  have hrule : cells (rule t.widths) = [rule t.widths] := by
    have hcell := isCell_rule t.widths
    rw [cells, pieces_eq_singleton hcell.bar, List.map_singleton, hcell.stripped]
  rw [pieces_render h, lines, List.map_cons, List.map_cons, hheaderLine, hrule, hrowLines]

end Table

end LinearProgram
