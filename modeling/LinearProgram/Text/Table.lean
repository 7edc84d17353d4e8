import LinearProgram.Text.Blank
/-!
# Tables as text

A table has a row of headers and rows of cells.  Its text gives every column the width of its widest
cell, sets cells flush right between bars, and puts a rule under the headers.  Rows may be shorter or
longer than the headers; a longer row opens new columns.  Blanks at the end of a line are dropped.
-/

namespace LinearProgram

/-- A table of texts. -/
structure Table where
  headers : List String
  rows : List (List String)
  deriving DecidableEq, Repr, Inhabited

namespace Table

/-- A table with nothing in it. -/
def empty : Table := ⟨[], []⟩

/-- A table of so many rows, all as wide as its headers. -/
structure Rectangular (height width : Nat) (t : Table) : Prop where
  length_headers : t.headers.length = width
  length_rows : t.rows.length = height
  length_row : ∀ row ∈ t.rows, row.length = width

/-- Two tables have the same headers, and the same cells but for the first cell of each row. -/
structure SameBehindFirst (t t' : Table) : Prop where
  headers : t'.headers = t.headers
  rows : t'.rows.map List.tail = t.rows.map List.tail

/-- The widths of columns that also hold a further row. -/
def widen : List Nat → List String → List Nat
  | widths, [] => widths
  | [], cell :: cells => cell.length :: widen [] cells
  | width :: widths, cell :: cells => max width cell.length :: widen widths cells

/-- The widths of the columns of a table. -/
def widths (t : Table) : List Nat := t.rows.foldl widen (t.headers.map String.length)

/-- A cell set flush right in a column. -/
def pad (width : Nat) (cell : String) : List Char :=
  List.replicate (width - cell.length) ' ' ++ cell.toList

/-- Lists of characters with a separator between them. -/
def joinChars (separator : List Char) : List (List Char) → List Char
  | [] => []
  | [cs] => cs
  | cs :: rest => cs ++ separator ++ joinChars separator rest

/-- A line of cells. -/
def line (widths : List Nat) (cells : List String) : String :=
  String.ofList (Text.trimRight Text.isBlank (joinChars " | ".toList (List.zipWith pad widths cells)))

/-- The rule under the headers. -/
def rule (widths : List Nat) : String :=
  String.ofList (joinChars "-+-".toList (widths.map fun width => List.replicate width '-'))

/-- The lines of a table. -/
def lines (t : Table) : List String :=
  line t.widths t.headers :: rule t.widths :: t.rows.map (line t.widths)

/-- The text of a table; a table without headers has none. -/
def render (t : Table) : String :=
  if t.headers.isEmpty then "" else "\n".intercalate t.lines

end Table

end LinearProgram
