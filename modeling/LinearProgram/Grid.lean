import LinearProgram.Scalar
import LinearProgram.Place
/-!
# Grids of scalars

A grid is a list of rows.  `gridOf?` accepts rows that fill a rectangle of a wanted width, and says
what is wrong with any others: rows of different lengths come before a wrong number of cells.
`pivot` is the one operation of the tableau method, and works on any grid.  `pivot?` takes the cell
by places that may be counted from the end.
-/

namespace LinearProgram

/-- Rows of scalars. -/
abbrev Grid (α : Type) := List (List α)

variable {α : Type}

/-- All rows are as long as the first. -/
def isRectangular (rows : Grid α) : Bool :=
  match rows with
  | [] => true
  | first :: rest => rest.all (·.length == first.length)

/-- Rows that fill a grid, whatever its width. -/
def rectangle? (rows : Grid α) : Except Fault (Grid α) :=
  if isRectangular rows then .ok rows else .error (.raggedRows rows.length)

/-- Rows that fill a grid with so many columns. -/
def gridOf? (columns : Nat) (rows : Grid α) : Except Fault (Grid α) :=
  let cells := rows.length * (rows.headD []).length
  if isRectangular rows then
    if cells = rows.length * columns then .ok rows
    else .error (.cellCount cells rows.length columns)
  else .error (.raggedRows rows.length)

/-- One value for each of `count` rows; a single value serves all of them. -/
def valuesFor? (count : Nat) (values : List α) : Except Fault (List α) :=
  if values.length = count then .ok values
  else match values with
    | [value] => .ok (List.replicate count value)
    | _ => .error (.lengthMismatch values.length count)

namespace Grid

variable [Scalar α]

/-- The cell of a grid at a row and a column, zero outside. -/
def cell (g : Grid α) (i j : Nat) : α := (g.getD i []).getD j 0

/-- Take from a row the multiple of another row, which has a one in a column, that clears the row's
entry there. -/
def clear (unit : List α) (col : Nat) (row : List α) : List α :=
  List.zipWith (fun x u => x - row.getD col 0 * u) row unit

/-- Divide a row of a grid by its entry in a column, then clear that column in all other rows. -/
def pivot (g : Grid α) (r c : Nat) : Grid α :=
  let source := g.getD r []
  let unit := source.map (· / source.getD c 0)
  g.mapIdx fun i row => if i = r then unit else clear unit c row

/-- A pivot that does not spare its own row: the row is cleared like those before it, and those
behind it are cleared with what is left of it. -/
def pivotThrough (g : Grid α) (r c : Nat) : Grid α :=
  let source := g.getD r []
  let unit := source.map (· / source.getD c 0)
  let spent := clear unit c unit
  g.mapIdx fun i row =>
    if i < r then clear unit c row else if i = r then spent else clear spent c row

/-- A pivot on a cell that must be in the grid.  A row that is counted from the end is not spared. -/
def pivot? (g : Grid α) (r c : Int) : Except Fault (Grid α) := do
  let i ← axisPlace 0 g.length r
  let j ← axisPlace 1 (g.getD i []).length c
  return if r < 0 then g.pivotThrough i j else g.pivot i j

end Grid

/-! ## Small facts -/

@[simp]
theorem Grid.length_pivot [Scalar α] (g : Grid α) (r c : Nat) : (g.pivot r c).length = g.length := by
  simp [Grid.pivot]

/-- Each row gets its own value, or all the single one. -/
theorem valuesFor?_eq_ok_iff {count : Nat} {values limits : List α} :
    valuesFor? count values = .ok limits ↔
      (values.length = count ∧ limits = values) ∨
        ∃ value, values = [value] ∧ limits = List.replicate count value := by
  unfold valuesFor?
  split
  · next hl =>
    constructor
    · intro h
      exact .inl ⟨hl, (Except.ok.inj h).symm⟩
    · rintro (⟨-, rfl⟩ | ⟨value, rfl, rfl⟩)
      · rfl
      · rw [← hl]; rfl
  · next hl =>
    constructor
    · intro h
      match values, h with
      | [value], h => exact .inr ⟨value, rfl, (Except.ok.inj h).symm⟩
    · rintro (⟨hl', -⟩ | ⟨value, rfl, rfl⟩)
      · exact absurd hl' hl
      · rfl

/-- There is a value for each of `count` rows exactly if there are so many values or only one. -/
theorem exists_valuesFor?_iff {count : Nat} {values : List α} :
    (∃ result, valuesFor? count values = .ok result) ↔ values.length = count ∨ values.length = 1 := by
  simp only [valuesFor?_eq_ok_iff]
  constructor
  · rintro ⟨result, ⟨hlength, -⟩ | ⟨value, rfl, -⟩⟩
    · exact .inl hlength
    · exact .inr rfl
  · rintro (hlength | hone)
    · exact ⟨values, .inl ⟨hlength, rfl⟩⟩
    · obtain ⟨value, rfl⟩ := List.length_eq_one_iff.1 hone
      exact ⟨_, .inr ⟨value, rfl, rfl⟩⟩

theorem length_of_valuesFor? {count : Nat} {values limits : List α}
    (h : valuesFor? count values = .ok limits) : limits.length = count := by
  rcases valuesFor?_eq_ok_iff.1 h with ⟨hl, rfl⟩ | ⟨value, -, rfl⟩
  · exact hl
  · exact List.length_replicate

theorem mem_of_valuesFor? {count : Nat} {values limits : List α}
    (h : valuesFor? count values = .ok limits) {v : α} (hv : v ∈ limits) : v ∈ values := by
  rcases valuesFor?_eq_ok_iff.1 h with ⟨-, rfl⟩ | ⟨value, rfl, rfl⟩
  · exact hv
  · exact List.mem_singleton.2 (List.eq_of_mem_replicate hv)

theorem gridOf?_eq_ok_iff {columns : Nat} {rows g : Grid α} :
    gridOf? columns rows = .ok g ↔ g = rows ∧ ∀ row ∈ rows, row.length = columns := by
  unfold gridOf?
  cases rows with
  | nil => simp [isRectangular, eq_comm]
  | cons first rest =>
    have hc : (first :: rest).length * first.length = (first :: rest).length * columns ↔
        first.length = columns := Nat.mul_right_inj (by simp)
    by_cases hr : isRectangular (first :: rest) = true
    · have hr' : ∀ row ∈ rest, row.length = first.length := by
        simpa [isRectangular] using hr
      simp only [hr, if_true, List.headD_cons, hc]
      split
      · next h =>
        constructor
        · intro e
          refine ⟨(Except.ok.inj e).symm, ?_⟩
          intro row hm
          rcases List.mem_cons.1 hm with rfl | hm
          · exact h
          · exact (hr' row hm).trans h
        · rintro ⟨rfl, -⟩; rfl
      · next h =>
        constructor
        · intro e; cases e
        · rintro ⟨-, hall⟩; exact absurd (hall first (by simp)) h
    · simp only [hr]
      constructor
      · intro e; cases e
      · rintro ⟨-, hall⟩
        refine absurd ?_ hr
        have h0 := hall first (by simp)
        simp only [isRectangular, List.all_eq_true, beq_iff_eq]
        intro row hm
        rw [hall row (by simp [hm]), h0]

end LinearProgram
