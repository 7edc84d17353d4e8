import LinearProgram.Proofs.Cell
import LinearProgram.Proofs.Solve.GeneralRoute
/-!
# When there is an error

Every call gives an answer, and few calls give one that is an error.  Rows must have a cell for every
variable.  What the answer of the tableau method has to write must be possible to write: the table of an
optimum with the number of decimal places that was asked for, and the cap that was reached.  With any other
verdict nothing of that kind is written, and the drawing writes none of it.  Nothing else in an admissible
problem or in the options leads to an error: no scalar, be it a NaN, no row of zeros, no empty list of rows,
and no tolerance.

Proved:
* `Run.not_answerable_iff`: which runs have an answer that cannot be written.
* `exists_solveBy?_iff`: for which problems and options each method has an answer.
* `solve_error_iff`: which calls give an error.
* `not_error_iff_places_out_of_range`: the range of the decimal places alone does not tell.
-/

namespace LinearProgram

variable {α : Type} [DecimalScalar α]

/-- A run whose answer cannot be written. -/
inductive Run.Unwritable (run : Run α) (costs : List α) (options : Options α) : Prop
  /-- No text can have so many decimal places. -/
  | places (hending : run.ending = .optimal)
      (h : options.decimals < 0 ∨ maxPlaces < options.decimals)
  /-- With so many decimal places a number of the table comes out too long. -/
  | table (hending : run.ending = .optimal) {x : α} (hx : x ∈ run.last.numbers costs)
      (h : DecimalScalar.isReadable options.decimals.toNat x = false)
  /-- The cap itself is too long. -/
  | cap (hending : run.ending = .capped) (h : ¬ Numeral.IsShort options.maxIterations)

theorem Run.not_answerable_iff {n m : Nat} {run : Run α} (h : run.last.Shape n m) {costs : List α}
    {options : Options α} : ¬ run.Answerable costs options ↔ run.Unwritable costs options := by
  constructor
  · intro hnot
    by_contra hwritable
    refine hnot ⟨fun hending x hx => ?_, fun hending => ?_⟩
    · by_contra hx'
      rcases not_writable_iff.1 hx' with hd | hd | hreadable
      · exact hwritable (.places hending (.inl hd))
      · exact hwritable (.places hending (.inr hd))
      · exact hwritable (.table hending hx hreadable)
    · by_contra hcap
      exact hwritable (.cap hending hcap)
  · rintro (⟨hending, hd⟩ | ⟨hending, hx, hreadable⟩ | ⟨hending, hcap⟩) hanswerable
    · obtain ⟨x, hx⟩ := List.exists_mem_of_ne_nil _ (Tableau.numbers_ne_nil h costs)
      refine not_writable_iff.2 ?_ (hanswerable.table hending x hx)
      exact hd.imp_right .inl
    · exact not_writable_iff.2 (.inr (.inr hreadable)) (hanswerable.table hending _ hx)
    · exact hcap (hanswerable.cap hending)

namespace Problem

variable {p : Problem α} {method : Method} {options : Options α}

/-- The run of the tableau method on a problem, if its rows fill a tableau. -/
def run? (p : Problem α) (options : Options α) : Except Fault (Run α) :=
  Simplex.run? p.signedObjective p.signedConstraints p.rhs p.maximize options

/-- The costs of all columns of a problem: its objective, and zero for each slack. -/
def columnCosts (p : Problem α) : List α :=
  Simplex.columnCosts p.signedObjective p.signedConstraints.length

/-- The drawing has an answer exactly if all rows have two cells. -/
theorem exists_solveBy?_graphical_iff (hadmissible : p.Admissible) (hn : p.variableCount = 2) :
    (∃ solution, p.solveBy? .graphical options = .ok solution) ↔
      ∀ row ∈ p.constraints, row.length = 2 := by
  rw [← forall_length_signedConstraints_iff]
  have hlen := p.length_signedConstraints
  exact Plane.exists_solve_iff (p.length_signedObjective.trans hn)
    (hadmissible.length_relations.trans hlen.symm) (hadmissible.length_rhs.trans hlen.symm)

/-- The tableau method has an answer exactly if the rows fill a tableau, and what the answer of its run has to
write can be written. -/
theorem exists_solveBy?_simplex_iff (hadmissible : p.Admissible) :
    (∃ solution, p.solveBy? .simplex options = .ok solution) ↔
      (∀ row ∈ p.constraints, row.length = p.variableCount) ∧
        ∀ run, p.run? options = .ok run → run.Answerable p.columnCosts options := by
  rw [← forall_length_signedConstraints_iff]
  have hl := hadmissible.length_rhs.trans p.length_signedConstraints.symm
  refine Simplex.exists_solve_iff.trans ⟨?_, ?_⟩
  · rintro ⟨run, hrun, hanswerable⟩
    have hw := (Simplex.run?_eq_ok_iff.1 hrun).1
    rw [p.length_signedObjective] at hw
    refine ⟨hw, fun run' hrun' => ?_⟩
    rwa [Except.ok.inj (hrun'.symm.trans hrun)]
  · rintro ⟨hw, hanswerable⟩
    have hw' : ∀ row ∈ p.signedConstraints, row.length = p.signedObjective.length := by
      rw [p.length_signedObjective]
      exact hw
    have hrun := Simplex.run?_eq_ok hw' hl p.maximize options
    exact ⟨_, hrun, hanswerable _ hrun⟩

/-- A method that can be chosen for a problem has an answer exactly if the rows have a cell for each
variable and, unless the problem is drawn, what the answer of the run has to write can be written. -/
theorem exists_solveBy?_iff (hadmissible : p.Admissible)
    (hmethod : method = .graphical ↔ p.variableCount = 2) :
    (∃ solution, p.solveBy? method options = .ok solution) ↔
      (∀ row ∈ p.constraints, row.length = p.variableCount) ∧
        (p.variableCount ≠ 2 →
          ∀ run, p.run? options = .ok run → run.Answerable p.columnCosts options) := by
  cases method with
  | graphical =>
    have hn := hmethod.1 rfl
    rw [exists_solveBy?_graphical_iff hadmissible hn, hn]
    exact ⟨fun hw => ⟨hw, fun h => absurd rfl h⟩, And.left⟩
  | simplex =>
    have hn : p.variableCount ≠ 2 := fun h => nomatch hmethod.2 h
    rw [exists_solveBy?_simplex_iff hadmissible, forall_prop_of_true hn]
  | general =>
    have hn : p.variableCount ≠ 2 := fun h => nomatch hmethod.2 h
    rw [exists_solveBy?_general_iff hadmissible, exists_solveBy?_simplex_iff hadmissible,
      forall_prop_of_true hn]

/-- An answer is an error exactly if a row has not one cell for each variable, or if all have, the problem
is not drawn, and the answer of the run of the tableau method cannot be written: no text has the number of
decimal places of the table of an optimum, a number of that table comes out too long, or the cap that was
reached is too long. -/
theorem solve_error_iff (hadmissible : p.Admissible) (requested : Option String)
    (options : Options α) :
    (p.solve requested options).status = .error ↔
      (∃ row ∈ p.constraints, row.length ≠ p.variableCount) ∨
      (p.variableCount ≠ 2 ∧ (∀ row ∈ p.constraints, row.length = p.variableCount) ∧
        ∃ run, p.run? options = .ok run ∧ run.Unwritable p.columnCosts options) := by
  have hanswer : (∃ solution, p.solveBy? (p.method requested) options = .ok solution) ↔ _ :=
    exists_solveBy?_iff hadmissible method_eq_graphical_iff
  refine not_iff_not.1 ((status_ne_error_iff.trans hanswer).trans ⟨?_, ?_⟩)
  · rintro ⟨hw, hanswerable⟩ (⟨row, hrow, hne⟩ | ⟨hn, -, run, hrun, hunwritable⟩)
    · exact hne (hw row hrow)
    · exact (Run.not_answerable_iff (Simplex.shape_last hrun)).2 hunwritable
        (hanswerable hn run hrun)
  · intro h
    have hw : ∀ row ∈ p.constraints, row.length = p.variableCount := fun row hrow =>
      by_contra fun hne => h (.inl ⟨row, hrow, hne⟩)
    refine ⟨hw, fun hn run hrun => by_contra fun hnot => h (.inr ⟨hn, hw, run, hrun, ?_⟩)⟩
    exact (Run.not_answerable_iff (Simplex.shape_last hrun)).1 hnot

/-- The maximum of `x₁ + x₂ + x₃` over `x₁ + x₂ + x₃ ≤ 4` is found, but cannot be shown with a negative number
of decimal places. -/
theorem solve_error_iff_negative_places :
    ∃ p : Problem Float, p.Admissible ∧ p.variableCount = 3 ∧
      (p.solve none { Options.standard with decimals := -1 }).status = .error ∧
      (p.solve none .standard).status ≠ .error := by
  have hadmissible : (⟨true, [1, 1, 1], [[1, 1, 1]], [.atMost], [4], none, none⟩ :
      Problem Float).Admissible := ⟨by decide, rfl, rfl, by decide⟩
  have hends : ((⟨true, [1, 1, 1], [[1, 1, 1]], [.atMost], [4], none, none⟩ : Problem Float).run?
      { Options.standard with decimals := -1 }).map (·.ending) = .ok .optimal := by
    decide +kernel
  obtain ⟨run, hrun, hending⟩ := map_eq_ok_iff.1 hends
  have hshown : ((⟨true, [1, 1, 1], [[1, 1, 1]], [.atMost], [4], none, none⟩ : Problem Float).solve
      none .standard).status = .optimal := by
    decide +kernel
  refine ⟨_, hadmissible, rfl, ?_, by rw [hshown]; decide⟩
  exact (solve_error_iff hadmissible none _).2
    (.inr ⟨by decide, by decide, run, hrun, .places hending (.inl (by decide))⟩)

/-- The range of the decimal places alone does not tell which optima are errors: the maximum of `3x₁` over
`x₁ ≤ 1` is one with `1000000001` of them, which is in the range. -/
theorem not_error_iff_places_out_of_range :
    ¬ ∀ (p : Problem Float) (requested : Option String) (options : Options Float), p.Admissible →
      ((p.solve requested options).status = .error ↔
        (∃ row ∈ p.constraints, row.length ≠ p.variableCount) ∨
        (p.variableCount ≠ 2 ∧ (∀ row ∈ p.constraints, row.length = p.variableCount) ∧
          (∃ run, p.run? options = .ok run ∧ run.ending = .optimal) ∧
          (options.decimals < 0 ∨ maxPlaces < options.decimals))) := by
  intro h
  have hadmissible : (⟨true, [3], [[1]], [.atMost], [1], none, none⟩ :
      Problem Float).Admissible := ⟨by decide, rfl, rfl, by decide⟩
  have hshows : ((⟨true, [3], [[1]], [.atMost], [1], none, none⟩ : Problem Float).run?
      { Options.standard with decimals := 1000000001 }).map
        (fun run => (run.ending, (run.last.numbers [3, 0]).any Scalar.isFinite)) =
      .ok (.optimal, true) := by
    decide +kernel
  obtain ⟨run, hrun, hparts⟩ := map_eq_ok_iff.1 hshows
  obtain ⟨hending, hany⟩ := Prod.mk.inj hparts
  obtain ⟨x, hx, hfinite⟩ := List.any_eq_true.1 hany
  have herror : ((⟨true, [3], [[1]], [.atMost], [1], none, none⟩ : Problem Float).solve none
      { Options.standard with decimals := 1000000001 }).status = .error := by
    by_contra hne
    have hanswer := (exists_solveBy?_iff hadmissible method_eq_graphical_iff).1
      (status_ne_error_iff.1 hne)
    exact not_writable_double hfinite (by decide)
      ((hanswer.2 (by decide) run hrun).table hending x hx)
  rcases (h _ none _ hadmissible).1 herror with hrow | ⟨-, -, -, hplaces⟩
  · exact absurd hrow (by decide)
  · exact absurd hplaces (by decide)

end Problem

end LinearProgram
