import LinearProgram.Proofs.Plane.Accepted
import LinearProgram.Proofs.Pivot
import LinearProgram.Proofs.Plane.Answer
import LinearProgram.Solve
/-!
# Valid answers in two variables

Over the doubles, as they run.  The point of a valid answer has passed the test of a drawing, and thus
satisfies every row if no comparison met a NaN.  A determinant that overflows is no number, so the
meeting of two such borders has NaN for both coordinates, passes the test and can be the answer
(`exists_valid_not_satisfied`).

Proved:
* `exists_accepted_of_valid`: the point of a valid answer is a candidate that was accepted.
* `solve_satisfied_iff`: it satisfies every row exactly if it is defined there, and always if the data
  are of moderate size.
-/

namespace LinearProgram

namespace Problem

section Accepted

variable {α : Type} [DecimalScalar α] {p : Problem α} {requested : Option String}
  {options : Options α}

/-- The rows of a problem in two variables, with their flags applied. -/
def borders (p : Problem α) : List (Border α) :=
  Plane.borders p.signedConstraints p.relations p.rhs

/-- The relation and the limit of a border are entered, and its coefficients are those of a row with
its flag applied. -/
theorem entries_of_mem_borders (hadmissible : p.Admissible)
    (hw : ∀ row ∈ p.constraints, row.length = 2) {b : Border α} (hb : b ∈ p.borders) :
    b.relation ∈ p.relations ∧ b.limit ∈ p.rhs ∧
      ∃ row ∈ p.signedConstraints, b.a₁ ∈ row ∧ b.a₂ ∈ row := by
  have hlen := p.length_signedConstraints
  have hr := hadmissible.length_relations
  have hl := hadmissible.length_rhs
  have hw' := length_of_mem_signedConstraints hw
  obtain ⟨i, hi, rfl⟩ := (Plane.mem_borders_iff (hr.trans hlen.symm) (hl.trans hlen.symm)).1 hb
  rw [hlen] at hi
  rw [Plane.borderAt, List.getD_eq_getElem _ _ (hr.symm ▸ hi),
    List.getD_eq_getElem _ _ (hl.symm ▸ hi)]
  have hi' : i < p.signedConstraints.length := hlen.symm ▸ hi
  exact ⟨List.getElem_mem _, List.getElem_mem _, _, Grid.getD_mem hi',
    Grid.cell_mem hw' hi' (by decide), Grid.cell_mem hw' hi' (by decide)⟩

/-- The point of a valid answer is a candidate that was accepted. -/
theorem exists_accepted_of_valid (hadmissible : p.Admissible) (hn : p.variableCount = 2)
    (hw : ∀ row ∈ p.constraints, row.length = 2)
    (hvalid : (p.solve requested options).valid = true) :
    ∃ x ∈ Region.candidates options.determinantTolerance p.borders,
      Region.holds options.feasibilityTolerance p.borders x = true ∧
        (p.solve requested options).point = [x.1, x.2] := by
  have hlen := p.length_signedConstraints
  have hmethod : p.method requested = .graphical := if_pos hn
  have hsolve : p.solveBy? (p.method requested) options =
      (Plane.surveyOf options p.borders).solution p.signedObjective p.maximize := by
    rw [hmethod]
    exact Plane.solve_eq (length_of_mem_signedConstraints hw)
      (hadmissible.length_relations.trans hlen.symm) (hadmissible.length_rhs.trans hlen.symm) _ _ _
  rw [solve, hsolve] at hvalid ⊢
  split at hvalid
  · next solution hsolution =>
    obtain ⟨x, hx, hpoint⟩ := Plane.Survey.mem_feasible_of_valid hsolution hvalid
    obtain ⟨hcandidate, hholds⟩ := List.mem_filter.1 hx
    exact ⟨x, hcandidate, hholds, hpoint⟩
  · cases hvalid

end Accepted

open Double

variable {p : Problem Float} {requested : Option String} {options : Options Float}

/-- The data of a problem are less than `2 ^ k` in size. -/
structure Below (k : ℕ) (p : Problem Float) : Prop where
  coefficient : ∀ row ∈ p.constraints, ∀ a ∈ row, scale a ≤ k
  limit : ∀ b ∈ p.rhs, scale b ≤ k

theorem Below.borders {k : ℕ} (h : Below k p) (hadmissible : p.Admissible)
    (hw : ∀ row ∈ p.constraints, row.length = 2) : ∀ b ∈ p.borders, b.Below k := by
  intro b hb
  obtain ⟨-, hlimit, row, hrow, ha₁, ha₂⟩ := entries_of_mem_borders hadmissible hw hb
  obtain ⟨sign, entered, hentered, rfl⟩ := exists_apply_of_mem hrow
  have hscale := sign.forall_mem_apply (fun a ha => (scale_neg a).trans_le ha)
    (h.coefficient entered hentered)
  exact ⟨hscale _ ha₁, hscale _ ha₂, h.limit _ hlimit⟩

/-- The point of a valid answer satisfies every row exactly if neither coordinate and no left-hand side
is NaN.  With coefficients and limits below `2 ^ k` in size and a determinant tolerance of at least
`2 ^ (-l)`, where `3 k + l + 7 ≤ 1024`, it always does. -/
theorem solve_satisfied_iff (hadmissible : p.Admissible) (hn : p.variableCount = 2)
    (hw : ∀ row ∈ p.constraints, row.length = 2)
    (hrhs : ∀ b ∈ p.rhs, Scalar.isFinite b = true)
    (htol : Scalar.isFinite options.feasibilityTolerance = true)
    (hvalid : (p.solve requested options).valid = true) :
    ∃ x, (p.solve requested options).point = [x.1, x.2] ∧
      (Region.Satisfied options.feasibilityTolerance p.borders x ↔ Region.Defined p.borders x) ∧
      ∀ k l : ℕ, 3 * k + l + 7 ≤ 1024 → p.Below k → 0 ≤ options.determinantTolerance →
        -l < scale options.determinantTolerance →
          Region.Satisfied options.feasibilityTolerance p.borders x := by
  obtain ⟨x, hcandidate, hholds, hpoint⟩ := exists_accepted_of_valid hadmissible hn hw hvalid
  have hborders := fun b (hb : b ∈ p.borders) => entries_of_mem_borders hadmissible hw hb
  have hiff := Region.satisfied_iff_of_holds htol (fun b hb => hrhs _ (hborders b hb).2.1)
    (fun b hb => hadmissible.isKnown _ (hborders b hb).1) hholds
  refine ⟨x, hpoint, hiff, fun k l hkl hbelow hpos hdet => hiff.2 ?_⟩
  exact Region.defined_of_mem_candidates hpos hdet (hbelow.borders hadmissible hw) hkl hcandidate

/-- With the standard options the bound on the size of the data is `2 ^ 330`, which is more than `2e99`. -/
theorem solve_satisfied_iff_standard :
    ∃ x, ((⟨true, [3, 5], [[2e98, 0], [0, 2e98], [3, 2]], [.atMost, .atMost, .atLeast],
        [8e98, 1e99, 18], none, none⟩ : Problem Float).solve none Options.standard).point =
          [x.1, x.2] ∧
      Region.Satisfied 1e-8 ((⟨true, [3, 5], [[2e98, 0], [0, 2e98], [3, 2]],
        [.atMost, .atMost, .atLeast], [8e98, 1e99, 18], none, none⟩ : Problem Float).borders) x := by
  have hadmissible : (⟨true, [3, 5], [[2e98, 0], [0, 2e98], [3, 2]], [.atMost, .atMost, .atLeast],
      [8e98, 1e99, 18], none, none⟩ : Problem Float).Admissible := ⟨by decide, rfl, rfl, by decide⟩
  obtain ⟨x, hpoint, -, hmoderate⟩ :=
    @solve_satisfied_iff _ none Options.standard hadmissible rfl (by decide) (by decide +kernel)
      (by decide +kernel) (by decide +kernel)
  have hbelow : Below 330 (⟨true, [3, 5], [[2e98, 0], [0, 2e98], [3, 2]],
      [.atMost, .atMost, .atLeast], [8e98, 1e99, 18], none, none⟩ : Problem Float) :=
    ⟨by decide +kernel, by decide +kernel⟩
  exact ⟨x, hpoint, hmoderate 330 27 (by decide) hbelow (by decide +kernel) (by decide +kernel)⟩

/-- The maximum of `x₁ + x₂` over the row `1e200 x₁ + 1e200 x₂ ≤ 1`, entered twice: the determinant is the
difference of two infinities, and the answer is a point of two NaN. -/
theorem exists_valid_not_satisfied :
    ¬ ∀ (p : Problem Float) (requested : Option String) (options : Options Float),
      p.Admissible → p.variableCount = 2 → (∀ row ∈ p.constraints, row.length = 2) →
      (∀ c ∈ p.objective, Scalar.isFinite c = true) →
      (∀ row ∈ p.constraints, ∀ a ∈ row, Scalar.isFinite a = true) →
      (∀ b ∈ p.rhs, Scalar.isFinite b = true) →
      Scalar.isFinite options.feasibilityTolerance = true → 0 ≤ options.feasibilityTolerance →
      Scalar.isFinite options.determinantTolerance = true → 0 ≤ options.determinantTolerance →
      (p.solve requested options).valid = true →
      ∃ x, (p.solve requested options).point = [x.1, x.2] ∧
        Region.Satisfied options.feasibilityTolerance p.borders x := by
  intro hall
  obtain ⟨x, hpoint, hsatisfied⟩ := hall
    ⟨true, [1, 1], [[1e200, 1e200], [1e200, 1e200]], [.atMost, .atMost], [1, 1], none, none⟩ none
    Options.standard ⟨by decide, rfl, rfl, by decide⟩ rfl (by decide) (by decide +kernel)
    (by decide +kernel) (by decide +kernel) (by decide +kernel) (by decide +kernel)
    (by decide +kernel) (by decide +kernel) (by decide +kernel)
  have hfirst : ¬ -(Options.standard : Options Float).feasibilityTolerance ≤
      ((⟨true, [1, 1], [[1e200, 1e200], [1e200, 1e200]], [.atMost, .atMost], [1, 1], none, none⟩ :
        Problem Float).solve none Options.standard).point.getD 0 0 := by
    decide +kernel
  rw [hpoint] at hfirst
  exact hfirst hsatisfied.coordinate₁

end Problem

end LinearProgram
