import LinearProgram.Proofs.Attempt
import LinearProgram.StandardForm
/-!
# Which rows have a standard form

The first row sets the number of variables, and a row of one cell serves for a row of any length.  So
rows that the tableau method refuses can have a standard form, but not the other way round: rows of one
length always have one, whatever that length is, if each of them has a relation that constrains.

Proved:
* `row?_eq_ok_iff`: what the standard form of a row is, and which rows have one.
* `exists_of?_iff`: which rows together have a standard form, over any scalars.
-/

namespace LinearProgram

namespace StandardForm

variable {α : Type} [Scalar α] {n size i : Nat} {row : List α} {relation : Relation}
  {rows : Grid α} {relations : List Relation} {limits : List α}

/-- The standard form of a row has a cell for every variable, and the two entries of the relation, which
must be one that constrains. -/
theorem row?_eq_ok_iff {result : List α} :
    row? n size i row relation = .ok result ↔
      relation.isKnown = true ∧ ∃ cells, valuesFor? n row = .ok cells ∧
        cells ++ sparse size i (entries relation).1 ++ sparse size i (entries relation).2 =
          result := by
  cases relation with
  | other symbol => simp [row?, Relation.isKnown]
  | atMost => simp [row?, variableCells?, Relation.isKnown]
  | equal => simp [row?, variableCells?, Relation.isKnown]
  | atLeast => simp [row?, variableCells?, Relation.isKnown]

theorem exists_row?_iff :
    (∃ result, row? n size i row relation = .ok result) ↔
      (row.length = n ∨ row.length = 1) ∧ relation.isKnown = true := by
  rw [← exists_valuesFor?_iff]
  simp only [row?_eq_ok_iff]
  constructor
  · rintro ⟨result, hknown, cells, hcells, -⟩
    exact ⟨⟨cells, hcells⟩, hknown⟩
  · rintro ⟨⟨cells, hcells⟩, hknown⟩
    exact ⟨_, hknown, cells, hcells, rfl⟩

theorem rowsFrom?_cons_eq_ok_iff {rest : Grid α} {relation : Relation} {others : List Relation}
    {matrix : Grid α} :
    rowsFrom? n size i (row :: rest) (relation :: others) = .ok matrix ↔
      ∃ first, row? n size i row relation = .ok first ∧
        ∃ last, rowsFrom? n size (i + 1) rest others = .ok last ∧ first :: last = matrix := by
  simp [rowsFrom?]

/-- Row by row, each in its own place. -/
theorem exists_rowsFrom?_iff (hr : relations.length = rows.length) :
    (∃ matrix, rowsFrom? n size i rows relations = .ok matrix) ↔
      (∀ row ∈ rows, row.length = n ∨ row.length = 1) ∧ ∀ r ∈ relations, r.isKnown = true := by
  induction rows generalizing i relations with
  | nil =>
    obtain rfl := List.eq_nil_of_length_eq_zero hr
    exact ⟨fun _ => ⟨nofun, nofun⟩, fun _ => ⟨[], rfl⟩⟩
  | cons row rows ih =>
    cases relations with
    | nil => cases hr
    | cons relation relations =>
      have hrest := ih (i := i + 1) (Nat.succ.inj hr)
      have hfirst : (∃ result, row? n size i row relation = .ok result) ↔
          (row.length = n ∨ row.length = 1) ∧ relation.isKnown = true := exists_row?_iff
      rw [List.forall_mem_cons, List.forall_mem_cons, and_and_and_comm, ← hfirst, ← hrest]
      simp only [rowsFrom?_cons_eq_ok_iff]
      constructor
      · rintro ⟨matrix, first, hfirst, rest, hrest, -⟩
        exact ⟨⟨first, hfirst⟩, rest, hrest⟩
      · rintro ⟨⟨first, hfirst⟩, rest, hrest⟩
        exact ⟨first :: rest, first, hfirst, rest, hrest, rfl⟩

/-- Rows with one relation each have a standard form exactly if each of them is as long as the first or
has one cell, and every relation constrains. -/
theorem exists_of?_iff (hr : relations.length = rows.length) :
    (∃ form, of? rows relations limits = .ok form) ↔
      (∀ row ∈ rows, row.length = (rows.headD []).length ∨ row.length = 1) ∧
        ∀ r ∈ relations, r.isKnown = true := by
  unfold of?
  exact exists_bind_pure_iff.trans (exists_rowsFrom?_iff hr)

/-- A row of one cell is as good as three equal ones, though no tableau has such rows. -/
example :
    (of? (α := Rat) [[1, 2, 3], [4]] [.atMost, .equal] [5, 6]).map (·.matrix) =
      .ok [[1, 2, 3, 1, 0, 0, 0], [4, 4, 4, 0, 0, 0, 1]] := by
  decide +kernel

/-- Rows of one length have a standard form if every relation constrains. -/
theorem exists_of? {columns : Nat} (hr : relations.length = rows.length)
    (hw : ∀ row ∈ rows, row.length = columns) (hknown : ∀ r ∈ relations, r.isKnown = true) :
    ∃ form, of? rows relations limits = .ok form := by
  refine (exists_of?_iff hr).2 ⟨fun row hrow => .inl ?_, hknown⟩
  cases rows with
  | nil => cases hrow
  | cons first rest => exact (hw row hrow).trans (hw first List.mem_cons_self).symm

end StandardForm

end LinearProgram
