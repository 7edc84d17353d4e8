import LinearProgram.Proofs.Solve.Coherent
import LinearProgram.Walkthrough
/-!
# What is on record

A walkthrough looks costs up by the labels of the basis, ratios by rows, and rows of the objective behind
those of the constraints.  Whatever it looks up is there: every snapshot of every run has the shape of the
problem (`Snapshot.Shape`), and an answer with a trace has a cost for each of its columns.  All of it holds
over any scalars and for problems that nobody checked.

Proved:
* `Run.shape_of_mem_snapshots`: the snapshots of a run have the shape of the tableau that it began with.
* `Problem.recorded_solve`: what every answer to a problem has on record.
-/

namespace LinearProgram

variable {α : Type} {n m : Nat}

/-- The place of a label among the labels of columns. -/
theorem findIdx?_variableLabels {count j : Nat} (hj : j < count) :
    (variableLabels count).findIdx? (· == variableLabel j) = some j := by
  rw [List.findIdx?_eq_some_iff_getElem]
  refine ⟨by rwa [length_variableLabels], by simp [variableLabels], fun k hk => ?_⟩
  have hne : variableLabel k ≠ variableLabel j := variableLabel_injective.ne hk.ne
  simpa [variableLabels] using hne

/-! ## Snapshots -/

namespace Snapshot

/-- A snapshot of a tableau for `m` rows and `n` variables: the basis is a list of labels of columns, a
pivot lies among the constraint rows and the columns of variables and comes with the labels of two columns,
and there is a ratio for each row. -/
structure Shape (n m : Nat) (s : Snapshot α) : Prop where
  height : s.tableau.length = m + 2
  width : ∀ row ∈ s.tableau, row.length = n + m + 1
  basis : ∃ columns : List Nat, columns.length = m ∧ (∀ j ∈ columns, j < n + m) ∧
    s.basis = columns.map variableLabel
  pivot : ∀ pivot ∈ s.pivot, ∃ i < m, ∃ j < n + m, pivot = ⟨i, j⟩
  exchange : s.pivot.isSome = true →
    ∃ j k, s.entering = some (variableLabel j) ∧ s.leaving = some (variableLabel k)
  length_ratios : ∀ ratios ∈ s.ratios, ratios.length = m

namespace Shape

variable {s : Snapshot α}

theorem length_basis (h : s.Shape n m) : s.basis.length = m := by
  obtain ⟨columns, hlength, -, hbasis⟩ := h.basis
  rw [hbasis, List.length_map, hlength]

theorem columns_eq [DecimalScalar α] (h : s.Shape n m) : s.columns = n + m := by
  have hpos : 0 < s.tableau.length := by rw [h.height]; exact Nat.succ_pos _
  have hfirst : s.tableau.headD [] ∈ s.tableau := by
    obtain ⟨row, rows, hrows⟩ := List.exists_cons_of_length_pos hpos
    rw [hrows]
    exact List.mem_cons_self
  rw [Snapshot.columns, h.width _ hfirst, Nat.add_sub_cancel]

end Shape

end Snapshot

/-! ## Runs -/

namespace Run

variable {t : Tableau α} {b : Bool}

theorem shape_firstSnapshot (ht : t.Shape n m) :
    ({ firstSnapshot t with isOptimal := b } : Snapshot α).Shape n m where
  height := ht.height
  width := ht.width
  basis := ⟨t.basis, ht.basis_length, ht.basis_lt, rfl⟩
  pivot := nofun
  exchange := nofun
  length_ratios := nofun

variable [Scalar α] {tolerance : α}

theorem shape_turnSnapshot {index : Nat} {turn : Turn α} (ht : turn.before.Shape n m)
    (hmove : turn.before.move tolerance = .exchange turn) :
    ({ turnSnapshot index turn with isOptimal := b } : Snapshot α).Shape n m where
  height := ht.height
  width := ht.width
  basis := ⟨turn.before.basis, ht.basis_length, ht.basis_lt, rfl⟩
  pivot := by
    rintro _ ⟨⟩
    exact ⟨turn.row, ht.row_lt hmove, turn.entering, ht.entering_lt hmove, rfl⟩
  exchange _ := ⟨turn.entering, turn.leaving, rfl, rfl⟩
  length_ratios := by
    rintro _ ⟨⟩
    rw [(Tableau.move_eq_exchange hmove).2.2.2, ht.length_ratios]

/-- Every snapshot of a run has the shape of the tableau that the run began with. -/
theorem shape_of_mem_snapshots (ht : t.Shape n m) (cap : Nat) {s : Snapshot α}
    (hs : s ∈ (Simplex.run tolerance cap t).snapshots) : s.Shape n m := by
  obtain ⟨j, hj⟩ := List.mem_iff_getElem?.1 hs
  cases j with
  | zero =>
    rw [eq_firstSnapshot hj, Simplex.first_run]
    exact shape_firstSnapshot ht
  | succ j =>
    obtain ⟨turn, hturn, hsnapshot⟩ := exists_turnSnapshot hj
    obtain ⟨hreach, hmove⟩ := Simplex.reaches_turn (List.mem_of_getElem? hturn)
    rw [hsnapshot]
    exact shape_turnSnapshot (hreach.shape ht) hmove

end Run

/-! ## Answers -/

/-- What an answer to a problem with `n` variables and `m` rows has on record.  Something is shown with a
number of places unless the answer is an error or the drawing is empty; and with the snapshots there are the
costs of all columns. -/
structure Solution.Recorded [DecimalScalar α] (n m : Nat) (s : Solution α) : Prop where
  shown_iff : s.valid = true ∨ s.trace ≠ [] ↔ s.status ≠ .error ∧ s.status ≠ .infeasible
  costs : s.trace ≠ [] → ∃ costs, s.costs = some costs ∧ costs.length = n + m
  shape : ∀ snapshot ∈ s.trace, snapshot.Shape n m

variable [DecimalScalar α]

namespace Solution.Coherent

variable {s : Solution α} {costs : List α} {method : Method}

theorem trace_eq_nil (h : s.Coherent n m costs method)
    (hs : s.status = .error ∨ s.method = some .graphical) : s.trace = [] := by
  rw [trace, (h.untraced_iff.2 hs).1]
  rfl

theorem trace_ne_nil (h : s.Coherent n m costs method)
    (hs : s.status = .unbounded ∨ s.status = .iterationLimit) : s.trace ≠ [] := by
  have htraced : ¬ (s.status = .error ∨ s.method = some .graphical) := by
    rintro (herror | hmethod)
    · rcases hs with hs | hs <;> rw [hs] at herror <;> cases herror
    · rcases h.of_unsolved hs with hs | hs <;> rw [hs] at hmethod <;> cases hmethod
  obtain ⟨⟨log, hlog, hne⟩, -⟩ := h.traced htraced
  rw [trace, hlog]
  exact hne

/-- What a coherent answer has on record, if its snapshots are those of the problem. -/
theorem recorded (h : s.Coherent n m costs method) (hcosts : costs.length = n + m)
    (hshape : ∀ snapshot ∈ s.trace, snapshot.Shape n m) : s.Recorded n m := by
  refine ⟨?_, fun htrace => ⟨costs, (h.traced (mt h.trace_eq_nil htrace)).2, hcosts⟩, hshape⟩
  rw [h.valid_iff]
  cases hstatus : s.status with
  | optimal => simp
  | infeasible => simp [h.trace_eq_nil (.inr (h.of_infeasible hstatus))]
  | unbounded => simp [h.trace_ne_nil (.inl hstatus)]
  | iterationLimit => simp [h.trace_ne_nil (.inr hstatus)]
  | error => simp [h.trace_eq_nil (.inl hstatus)]

end Solution.Coherent

theorem Simplex.shape_of_mem_trace {objective : List α} {constraints : Grid α} {rhs : List α}
    {maximize : Bool} {options : Options α} {solution : Solution α}
    (h : Simplex.solve objective constraints rhs maximize options = .ok solution) :
    ∀ s ∈ solution.trace, s.Shape objective.length constraints.length := by
  obtain ⟨run, hrun, hsolution⟩ := Simplex.solve_eq_ok_iff.1 h
  obtain ⟨hw, limits, hlimits, rfl⟩ := Simplex.run?_eq_ok_iff.1 hrun
  rw [← Simplex.length_maximized maximize objective] at hw
  rw [Solution.trace, (Run.trace_of_solution hsolution).1, ← Simplex.length_maximized maximize objective]
  intro s hs
  exact Run.shape_of_mem_snapshots (Tableau.shape_start hw (length_of_valuesFor? hlimits)) _ hs

namespace Problem

theorem shape_of_mem_trace {p : Problem α} {method : Method} {options : Options α}
    {solution : Solution α} (hmethod : method = .graphical → p.variableCount = 2)
    (h : p.solveBy? method options = .ok solution) :
    ∀ s ∈ solution.trace, s.Shape p.variableCount p.constraints.length := by
  have hcoherent := coherent_of_solveBy? hmethod h
  rw [variableCount, ← p.length_signedObjective, ← p.length_signedConstraints]
  cases method with
  | graphical =>
    rw [hcoherent.trace_eq_nil (.inr (method_of_solveBy? h))]
    exact nofun
  | simplex => exact Simplex.shape_of_mem_trace h
  | general =>
    obtain ⟨-, answer, hanswer, rfl⟩ := General.solve_eq_ok_iff.1 h
    have hshape := Simplex.shape_of_mem_trace hanswer
    exact hshape

/-- What every answer to a problem has on record. -/
theorem recorded_solve (p : Problem α) (requested : Option String) (options : Options α) :
    (p.solve requested options).Recorded p.variableCount p.constraints.length := by
  have hcosts : (p.signedObjective ++ List.replicate p.constraints.length 0).length =
      p.variableCount + p.constraints.length := by
    rw [List.length_append, List.length_replicate, p.length_signedObjective, variableCount]
  cases h : p.solveBy? (p.method requested) options with
  | error fault =>
    have hcoherent := @Solution.coherent_ofFault α _ p.variableCount p.constraints.length
      (p.signedObjective ++ List.replicate p.constraints.length 0) (p.method requested) fault
    rw [solve_of_error h]
    exact hcoherent.recorded hcosts nofun
  | ok solution =>
    rw [solve_of_ok h]
    exact (coherent_of_solveBy? method_eq_graphical_iff.1 h).recorded hcosts
      (shape_of_mem_trace method_eq_graphical_iff.1 h)

end Problem

end LinearProgram
