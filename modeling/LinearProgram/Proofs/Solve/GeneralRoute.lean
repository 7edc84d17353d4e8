import LinearProgram.Proofs.Solve.Coherent
import LinearProgram.Proofs.StandardForm
/-!
# The general route beside the tableau method

The general route first makes the standard form of the rows, and then hands them to the tableau method as
they were given.  So it can only differ where the standard form is refused, and that is refused for other
rows than the tableau is: the one takes its width from the first row and spreads rows of one cell, the
other takes its width from the objective.  But rows that fill a tableau are all of one length, and such
rows have a standard form.

Proved:
* `General.exists_solve_iff`: the general route has an answer exactly if the tableau method has one.
* `solve_general_eq`: the two answers to a problem are equal but for the name of the method.
-/

namespace LinearProgram

variable {α : Type} [DecimalScalar α]

section

variable {objective : List α} {constraints : Grid α} {relations : List Relation} {rhs : List α}
  {maximize : Bool} {options : Options α}

/-- Rows that the tableau method has an answer to have a standard form. -/
theorem General.exists_form (hr : relations.length = constraints.length)
    (hknown : ∀ r ∈ relations, r.isKnown = true) {solution : Solution α}
    (h : Simplex.solve objective constraints rhs maximize options = .ok solution) :
    ∃ form, StandardForm.of? constraints relations rhs = .ok form :=
  StandardForm.exists_of? hr (Simplex.length_of_solve h) hknown

/-- With a relation that constrains for every row, the general route has an answer exactly if the tableau
method has one. -/
theorem General.exists_solve_iff (hr : relations.length = constraints.length)
    (hknown : ∀ r ∈ relations, r.isKnown = true) :
    (∃ solution, General.solve objective constraints relations rhs maximize options = .ok solution) ↔
      ∃ solution, Simplex.solve objective constraints rhs maximize options = .ok solution := by
  simp only [General.solve_eq_ok_iff]
  constructor
  · rintro ⟨-, -, answer, hanswer, -⟩
    exact ⟨answer, hanswer⟩
  · rintro ⟨answer, hanswer⟩
    exact ⟨_, General.exists_form hr hknown hanswer, answer, hanswer, rfl⟩

end

namespace Problem

variable {p : Problem α}

/-- The general route has an answer to an admissible problem exactly if the tableau method has one. -/
theorem exists_solveBy?_general_iff (hadmissible : p.Admissible) {options : Options α} :
    (∃ solution, p.solveBy? .general options = .ok solution) ↔
      ∃ solution, p.solveBy? .simplex options = .ok solution :=
  General.exists_solve_iff (hadmissible.length_relations.trans p.length_signedConstraints.symm)
    hadmissible.isKnown

/-- An admissible problem is an error for the general route exactly if it is one for the tableau method.
If it is none, the rows have a standard form, and the two answers are equal but for the name of the
method. -/
theorem solve_general_eq (hadmissible : p.Admissible) (hn : p.variableCount ≠ 2)
    (options : Options α) :
    ((p.solve (some Method.general.word) options).status = .error ↔
        (p.solve (some Method.simplex.word) options).status = .error) ∧
      ((p.solve (some Method.simplex.word) options).status ≠ .error →
        (∃ form, StandardForm.of? p.signedConstraints p.relations p.rhs = .ok form) ∧
        (p.solve (some Method.simplex.word) options).method = some .simplex ∧
        p.solve (some Method.general.word) options =
          { p.solve (some Method.simplex.word) options with method := some .general }) := by
  have hr := hadmissible.length_relations.trans p.length_signedConstraints.symm
  constructor
  · have hiff : (∃ solution, p.solveBy? .general options = .ok solution) ↔ _ :=
      exists_solveBy?_general_iff hadmissible
    rw [← method_general hn, ← method_simplex hn, ← status_ne_error_iff, ← status_ne_error_iff] at hiff
    exact not_iff_not.1 hiff
  · intro hstatus
    obtain ⟨answer, hanswer⟩ := status_ne_error_iff.1 hstatus
    have hsolve := solve_of_ok hanswer
    rw [method_simplex hn] at hanswer
    have hform := General.exists_form hr hadmissible.isKnown hanswer
    have hgeneral : p.solveBy? (p.method (some Method.general.word)) options =
        .ok { answer with method := some .general } := by
      rw [method_general hn]
      exact General.solve_eq_ok_iff.2 ⟨hform, answer, hanswer, rfl⟩
    rw [hsolve, solve_of_ok hgeneral]
    exact ⟨hform, Simplex.method_of_solve hanswer, rfl⟩

/-- The maximum of `x₁ + x₂ + x₃` over `x₁ + x₂ + x₃ ≤ 4` and `x₁ = 3`, by either route. -/
theorem solve_general_eq_mixed_relations :
    ∃ p : Problem Float, p.Admissible ∧ p.variableCount = 3 ∧ p.relations = [.atMost, .equal] ∧
      (p.solve (some Method.simplex.word) .standard).status = .optimal ∧
      p.solve (some Method.general.word) .standard =
        { p.solve (some Method.simplex.word) .standard with method := some .general } := by
  have hadmissible : (⟨true, [1, 1, 1], [[1, 1, 1], [1, 0, 0]], [.atMost, .equal], [4, 3], none,
      none⟩ : Problem Float).Admissible := ⟨by decide, rfl, rfl, by decide⟩
  have hstatus : ((⟨true, [1, 1, 1], [[1, 1, 1], [1, 0, 0]], [.atMost, .equal], [4, 3], none,
      none⟩ : Problem Float).solve (some Method.simplex.word) .standard).status = .optimal := by
    decide +kernel
  obtain ⟨-, hanswers⟩ := solve_general_eq hadmissible (by decide) .standard
  obtain ⟨-, -, heq⟩ := hanswers (by rw [hstatus]; decide)
  exact ⟨_, hadmissible, rfl, rfl, hstatus, heq⟩

end Problem

end LinearProgram
