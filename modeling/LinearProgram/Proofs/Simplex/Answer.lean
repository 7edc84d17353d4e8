import LinearProgram.Proofs.Tableau.BasicSolution
import LinearProgram.Proofs.Tableau.Limits
import LinearProgram.Proofs.Tableau.Table
/-!
# What a run answers

The data of a problem with rows of the right length always give a run (`run?_eq_ok`).  A run answers in one
of three ways (`solution_cases`).  A run that ended well has a table to write, and one that its cap ended has
the cap to write, so there is an answer exactly if these can be written (`exists_solution_iff`).  The point of
a run that ends at a canonical tableau is the basic solution there (`point_eq`), and the objective value is
the size of the value of that tableau (`objectiveValue_eq`).
-/

namespace LinearProgram

open Tableau

/-! ## Runs and answers exist -/

section Exists

variable {α : Type}

@[simp]
theorem Simplex.length_maximized [Scalar α] (maximize : Bool) (objective : List α) :
    (Simplex.maximized maximize objective).length = objective.length := by
  unfold Simplex.maximized
  split
  · rfl
  · exact List.length_map _

/-- The data give a run exactly if the rows have the length of the objective and there is a limit for
each of them. -/
theorem Simplex.run?_eq_ok_iff [Scalar α] {objective : List α} {constraints : Grid α} {rhs : List α}
    {maximize : Bool} {options : Options α} {result : Run α} :
    Simplex.run? objective constraints rhs maximize options = .ok result ↔
      (∀ row ∈ constraints, row.length = objective.length) ∧
        ∃ limits, valuesFor? constraints.length rhs = .ok limits ∧
          Simplex.run options.pivotTolerance options.maxIterations.toNat
            (start (Simplex.maximized maximize objective) constraints limits) = result := by
  simp only [Simplex.run?, Simplex.start?, map_eq_ok_iff, bind_eq_ok_iff, pure_eq_ok_iff,
    gridOf?_eq_ok_iff]
  constructor
  · rintro ⟨t, ⟨rows, ⟨rfl, hw⟩, limits, hvalues, rfl⟩, rfl⟩
    exact ⟨hw, limits, hvalues, rfl⟩
  · rintro ⟨hw, limits, hvalues, rfl⟩
    exact ⟨_, ⟨_, ⟨rfl, hw⟩, limits, hvalues, rfl⟩, rfl⟩

theorem Simplex.run?_eq_ok [Scalar α] {objective : List α} {constraints : Grid α} {rhs : List α}
    (hw : ∀ row ∈ constraints, row.length = objective.length)
    (hl : rhs.length = constraints.length) (maximize : Bool) (options : Options α) :
    Simplex.run? objective constraints rhs maximize options =
      .ok (Simplex.run options.pivotTolerance options.maxIterations.toNat
        (start (Simplex.maximized maximize objective) constraints rhs)) :=
  Simplex.run?_eq_ok_iff.2 ⟨hw, rhs, if_pos hl, rfl⟩

/-- The last tableau of a run has the shape of the problem. -/
theorem Simplex.shape_last [Scalar α] {objective : List α} {constraints : Grid α} {rhs : List α}
    {maximize : Bool} {options : Options α} {run : Run α}
    (h : Simplex.run? objective constraints rhs maximize options = .ok run) :
    Shape objective.length constraints.length run.last := by
  obtain ⟨hw, limits, hlimits, rfl⟩ := Simplex.run?_eq_ok_iff.1 h
  rw [← Simplex.length_maximized maximize objective] at hw ⊢
  exact (Simplex.reaches_last _ _ _).shape (shape_start hw (length_of_valuesFor? hlimits))

@[simp]
theorem Simplex.length_columnCosts [Zero α] (objective : List α) (m : Nat) :
    (Simplex.columnCosts objective m).length = objective.length + m := by
  rw [Simplex.columnCosts, List.length_append, List.length_replicate]

/-- An answer to raw data is one of the run on them. -/
theorem Simplex.solve_eq_ok_iff [DecimalScalar α] {objective : List α} {constraints : Grid α}
    {rhs : List α} {maximize : Bool} {options : Options α} {solution : Solution α} :
    Simplex.solve objective constraints rhs maximize options = .ok solution ↔
      ∃ run, Simplex.run? objective constraints rhs maximize options = .ok run ∧
        run.solution (Simplex.columnCosts objective constraints.length) objective.length options =
          .ok solution :=
  bind_eq_ok_iff

/-- The answer to raw data is that of the run on them. -/
theorem Simplex.solve_eq [DecimalScalar α] {objective : List α} {constraints : Grid α}
    {rhs : List α} (hw : ∀ row ∈ constraints, row.length = objective.length)
    (hl : rhs.length = constraints.length) (maximize : Bool) (options : Options α) :
    Simplex.solve objective constraints rhs maximize options =
      (Simplex.run options.pivotTolerance options.maxIterations.toNat
        (start (Simplex.maximized maximize objective) constraints rhs)).solution
        (Simplex.columnCosts objective constraints.length) objective.length options := by
  rw [Simplex.solve, Simplex.run?_eq_ok hw hl]
  rfl

/-- What the answer of a run has to write can be written: the numbers of the table of an optimum, and the cap
that ended a run. -/
structure Run.Answerable [DecimalScalar α] (run : Run α) (costs : List α) (options : Options α) :
    Prop where
  table : run.ending = .optimal → ∀ x ∈ run.last.numbers costs, Writable options.decimals x
  cap : run.ending = .capped → Numeral.IsShort options.maxIterations

/-- A run has an answer exactly if that can be written. -/
theorem Run.exists_solution_iff [DecimalScalar α] {n m : Nat} {run : Run α}
    (h : Shape n m run.last) {costs : List α} (hcosts : costs.length = n + m)
    {options : Options α} :
    (∃ solution, run.solution costs n options = .ok solution) ↔ run.Answerable costs options := by
  have htable : (∃ table, run.table costs options.decimals = .ok table) ↔
      ∀ x ∈ run.last.numbers costs, Writable options.decimals x := by
    rw [Run.table, hcosts, h.basis_length]
    exact exists_tableauTable_iff h hcosts
  constructor
  · rintro ⟨solution, h⟩
    unfold Run.solution at h
    refine ⟨fun hending => ?_, fun hending => ?_⟩
    · rw [hending, map_eq_ok_iff] at h
      exact htable.1 (h.imp fun _ => And.left)
    · simp only [hending, map_eq_ok_iff, wholeText_eq_ok_iff] at h
      obtain ⟨_, ⟨hcap, -⟩, -⟩ := h
      exact hcap
  · intro h
    unfold Run.solution
    cases hending : run.ending with
    | optimal => exact exists_map_iff.2 (htable.2 (h.table hending))
    | unbounded entering => exact ⟨_, rfl⟩
    | capped => exact exists_map_iff.2 ⟨_, wholeText_eq_ok_iff.2 ⟨h.cap hending, rfl⟩⟩

/-- The three answers of a run: an optimum with its table, a column without a bound, and a cap that was
reached. -/
theorem Run.solution_cases [DecimalScalar α] {run : Run α} {costs : List α} {n : Nat}
    {options : Options α} {solution : Solution α} (h : run.solution costs n options = .ok solution) :
    (run.ending = .optimal ∧ ∃ table, run.table costs options.decimals = .ok table ∧
      solution = {
        valid := true
        point := run.point n
        objectiveValue := run.objectiveValue
        table := table
        iterations := some run.snapshots
        costs := some costs
        status := .optimal
        method := some .simplex
        message := "" }) ∨
    (∃ entering, run.ending = .unbounded entering ∧
      solution = .invalid .unbounded
        ("Entering variable " ++ variableLabel entering ++ " can grow without bound.")
        (some .simplex) (some run.snapshots) (some costs)) ∨
    (run.ending = .capped ∧ ∃ count, wholeText options.maxIterations = .ok count ∧
      solution = .invalid .iterationLimit ("No optimal tableau after " ++ count ++ " iterations.")
        (some .simplex) (some run.snapshots) (some costs)) := by
  unfold Run.solution at h
  split at h
  · next hending =>
    obtain ⟨table, htable, rfl⟩ := map_eq_ok_iff.1 h
    exact .inl ⟨hending, table, htable, rfl⟩
  · next entering hending => exact .inr (.inl ⟨entering, hending, (Except.ok.inj h).symm⟩)
  · next hending =>
    obtain ⟨count, hcount, rfl⟩ := map_eq_ok_iff.1 h
    exact .inr (.inr ⟨hending, count, hcount, rfl⟩)

/-- A run that ended with a cap that is too long to be written has no answer. -/
theorem Run.solution_of_long_cap [DecimalScalar α] {run : Run α} {costs : List α} {n : Nat}
    {options : Options α} (hending : run.ending = .capped)
    (hcap : ¬ Numeral.IsShort options.maxIterations) :
    run.solution costs n options = .error .tooLongToWrite := by
  unfold Run.solution
  rw [hending, wholeText_eq_error hcap]
  rfl

/-- Options under which nothing that an answer has to write comes out too long, whatever its size: a double
has at most `309` digits before the point. -/
structure Options.Moderate (options : Options α) : Prop where
  nonneg : 0 ≤ options.decimals
  places_le : options.decimals + 309 ≤ Numeral.maxDecimalDigits
  cap : Numeral.IsShort options.maxIterations

/-- A rational has a cell with every number of places that is read back. -/
theorem writable_rat {decimals : Int} (hd : 0 ≤ decimals)
    (hd' : decimals ≤ Numeral.maxDecimalDigits) (x : ℚ) : Writable decimals x where
  nonneg := hd
  le_maxPlaces := hd'.trans (by decide)
  isReadable := decide_eq_true (by omega)

theorem Run.answerable_of_moderate {options : Options ℚ} (h : options.Moderate) (run : Run ℚ)
    (costs : List ℚ) : run.Answerable costs options where
  table _ x _ := writable_rat h.nonneg (by have := h.places_le; omega) x
  cap _ := h.cap

/-- Only rows with a cell for each variable have an answer. -/
theorem Simplex.length_of_solve [DecimalScalar α] {objective : List α} {constraints : Grid α}
    {rhs : List α} {maximize : Bool} {options : Options α} {solution : Solution α}
    (h : Simplex.solve objective constraints rhs maximize options = .ok solution) :
    ∀ row ∈ constraints, row.length = objective.length := by
  obtain ⟨run, hrun, -⟩ := Simplex.solve_eq_ok_iff.1 h
  exact (Simplex.run?_eq_ok_iff.1 hrun).1

/-- Raw data have an answer exactly if they give a run, and that run has one. -/
theorem Simplex.exists_solve_iff [DecimalScalar α] {objective : List α} {constraints : Grid α}
    {rhs : List α} {maximize : Bool} {options : Options α} :
    (∃ solution, Simplex.solve objective constraints rhs maximize options = .ok solution) ↔
      ∃ run, Simplex.run? objective constraints rhs maximize options = .ok run ∧
        run.Answerable (Simplex.columnCosts objective constraints.length) options := by
  simp only [Simplex.solve_eq_ok_iff]
  rw [exists_comm]
  refine exists_congr fun run => ?_
  rw [exists_and_left]
  refine and_congr_right fun hrun => ?_
  exact Run.exists_solution_iff (Simplex.shape_last hrun) (Simplex.length_columnCosts _ _)

/-- An answer with an optimum comes from a run that ended well, and holds its point and value. -/
theorem Run.solution_optimal [DecimalScalar α] {run : Run α} {costs : List α} {n : Nat}
    {options : Options α} {solution : Solution α} (h : run.solution costs n options = .ok solution)
    (hstatus : solution.status = .optimal) :
    run.ending = .optimal ∧ solution.point = run.point n ∧
      solution.objectiveValue = run.objectiveValue := by
  rcases Run.solution_cases h with ⟨hending, _, -, rfl⟩ | ⟨_, -, rfl⟩ | ⟨-, _, -, rfl⟩
  · exact ⟨hending, rfl, rfl⟩
  · cases hstatus
  · cases hstatus

/-- The table of an optimum is that of the last tableau. -/
theorem Run.table_of_solution [DecimalScalar α] {run : Run α} {costs : List α} {n : Nat}
    {options : Options α} {solution : Solution α} (h : run.solution costs n options = .ok solution)
    (hstatus : solution.status = .optimal) : run.table costs options.decimals = .ok solution.table := by
  rcases Run.solution_cases h with ⟨-, _, htable, rfl⟩ | ⟨_, -, rfl⟩ | ⟨-, _, -, rfl⟩
  · exact htable
  · cases hstatus
  · cases hstatus

/-- Every answer of a run holds its trace, and its verdict is the way the run ended. -/
theorem Run.trace_of_solution [DecimalScalar α] {run : Run α} {costs : List α} {n : Nat}
    {options : Options α} {solution : Solution α}
    (h : run.solution costs n options = .ok solution) :
    solution.iterations = some run.snapshots ∧
      (solution.status = .optimal ↔ run.ending = .optimal) ∧
      (solution.status = .iterationLimit ↔ run.ending = .capped) := by
  rcases Run.solution_cases h with ⟨hending, _, -, rfl⟩ | ⟨_, hending, rfl⟩ | ⟨hending, _, -, rfl⟩ <;>
    simp [hending, Solution.invalid]

/-- What comes of solving reports a run: there is an answer exactly if what it has to write can be written,
and every answer holds the trace of the run and says how it ended. -/
structure Run.Reports [DecimalScalar α] (run : Run α) (costs : List α) (options : Options α)
    (outcome : Except Fault (Solution α)) : Prop where
  exists_iff : (∃ solution, outcome = .ok solution) ↔ run.Answerable costs options
  trace : ∀ solution, outcome = .ok solution → solution.iterations = some run.snapshots
  optimal_iff : ∀ solution, outcome = .ok solution →
    (solution.status = .optimal ↔ run.ending = .optimal)
  limit_iff : ∀ solution, outcome = .ok solution →
    (solution.status = .iterationLimit ↔ run.ending = .capped)

/-- The tableau method reports the run on its data. -/
theorem Simplex.reports_solve [DecimalScalar α] {objective : List α} {constraints : Grid α}
    {rhs : List α} {maximize : Bool} {options : Options α} {run : Run α}
    (h : Simplex.run? objective constraints rhs maximize options = .ok run) :
    run.Reports (Simplex.columnCosts objective constraints.length) options
      (Simplex.solve objective constraints rhs maximize options) := by
  have hsolve : Simplex.solve objective constraints rhs maximize options =
      run.solution (Simplex.columnCosts objective constraints.length) objective.length options := by
    rw [Simplex.solve, h]
    rfl
  rw [hsolve]
  exact {
    exists_iff := Run.exists_solution_iff (Simplex.shape_last h) (Simplex.length_columnCosts _ _)
    trace := fun solution hsolution => (Run.trace_of_solution hsolution).1
    optimal_iff := fun solution hsolution => (Run.trace_of_solution hsolution).2.1
    limit_iff := fun solution hsolution => (Run.trace_of_solution hsolution).2.2 }

/-- A run answers with one of three verdicts. -/
theorem Run.status_of_solution [DecimalScalar α] {run : Run α} {costs : List α} {n : Nat}
    {options : Options α} {solution : Solution α} (h : run.solution costs n options = .ok solution) :
    solution.status = .optimal ∨ solution.status = .unbounded ∨
      solution.status = .iterationLimit := by
  rcases Run.solution_cases h with ⟨-, _, -, rfl⟩ | ⟨_, -, rfl⟩ | ⟨-, _, -, rfl⟩
  · exact .inl rfl
  · exact .inr (.inl rfl)
  · exact .inr (.inr rfl)

/-- An answer without a bound comes from a run that ended so. -/
theorem Run.solution_unbounded [DecimalScalar α] {run : Run α} {costs : List α} {n : Nat}
    {options : Options α} {solution : Solution α} (h : run.solution costs n options = .ok solution)
    (hstatus : solution.status = .unbounded) : ∃ entering, run.ending = .unbounded entering := by
  rcases Run.solution_cases h with ⟨-, _, -, rfl⟩ | ⟨entering, hending, -⟩ | ⟨-, _, -, rfl⟩
  · cases hstatus
  · exact ⟨entering, hending⟩
  · cases hstatus

end Exists

/-! ## The point of a run -/

theorem firsts_set (n : Nat) (z : Nat → ℚ) (k : Nat) (v : ℚ) :
    (firsts n z).set k v = firsts n (Function.update z k v) := by
  apply List.ext_getElem (by simp [firsts])
  intro j hj hj'
  simp [firsts, List.getElem_set, Function.update_apply, eq_comm]

theorem replicate_zero_eq_firsts (n : Nat) : List.replicate n (0 : ℚ) = firsts n fun _ => 0 := by
  rw [firsts, List.map_const', List.length_range]

/-- Writing values at different places one after the other spreads them. -/
theorem foldl_set_range {n m : Nat} {basis : Nat → Nat}
    (hinj : ∀ i < m, ∀ k < m, basis i = basis k → i = k) (v : Nat → ℚ) :
    (List.range m).foldl (fun point i => point.set (basis i) (v i)) (List.replicate n 0) =
      firsts n fun j => ∑ i ∈ Finset.range m, if basis i = j then v i else 0 := by
  induction m with
  | zero => simp [replicate_zero_eq_firsts]
  | succ m ih =>
    rw [List.range_succ, List.foldl_append, List.foldl_cons, List.foldl_nil,
      ih fun i hi k hk => hinj i (by omega) k (by omega), firsts_set]
    congr 1
    funext j
    rw [Finset.sum_range_succ, Function.update_apply]
    by_cases hj : j = basis m
    · have hzero : ∑ i ∈ Finset.range m, (if basis i = j then v i else 0) = 0 := by
        refine Finset.sum_eq_zero fun i hi => if_neg fun hij => ?_
        have him := Finset.mem_range.1 hi
        have := hinj i (by omega) m (by omega) (hij.trans hj)
        omega
      rw [if_pos hj, hzero, if_pos hj.symm, zero_add]
    · rw [if_neg hj, if_neg (Ne.symm hj), add_zero]

namespace Run

variable {n m : Nat} {run : Run ℚ}

theorem zip_basis_limits {t : Tableau ℚ} (h : Shape n m t) :
    t.basis.zip t.limits =
      (List.range m).map fun i => (t.basis.getD i 0, t.rows.cell i (n + m)) := by
  apply List.ext_getElem?
  intro i
  by_cases hi : i < m
  · have hi' : i < t.basis.length := by rw [h.basis_length]; exact hi
    rw [List.getElem?_map, List.getElem?_range hi, Option.map_some, List.getD_eq_getElem _ _ hi']
    exact List.getElem?_zip_eq_some.2 ⟨List.getElem?_eq_getElem hi', h.getElem?_limits hi⟩
  · have hlen : (t.basis.zip t.limits).length ≤ i := by
      rw [List.length_zip, h.basis_length, h.length_limits]
      omega
    rw [List.getElem?_eq_none hlen, List.getElem?_eq_none (by simpa using not_lt.1 hi)]

/-- The point of a run is the basic solution of its last tableau. -/
theorem point_eq (h : Canonical n m run.last) :
    run.point n = firsts n (basicValue n m run.last) := by
  rw [point, zip_basis_limits h.toShape, List.foldl_map]
  exact foldl_set_range (fun i hi k hk => h.basis_inj hi hk) _

/-- The objective value of a run is the size of the value of its last tableau. -/
theorem objectiveValue_eq (h : Shape n m run.last) :
    run.objectiveValue = |value n m run.last| := by
  rw [objectiveValue, h.basis_length, getLastD_eq_getD (h.length_getD (Nat.lt_succ_self _)),
    Scalar.abs_rat, value, abs_neg]
  rfl

end Run

end LinearProgram
