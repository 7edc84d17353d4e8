import LinearProgram.Proofs.Attempt
import LinearProgram.Proofs.Double.Symmetric
import LinearProgram.Proofs.Leader
import LinearProgram.Proofs.Solve.Faults
/-!
# The mirror image of a problem

To maximise an objective is to minimise its opposite.  The mirror image of a problem asks for the other
sense of the opposite objective, and each solver takes the two through the same steps: the tableau method
turns both into one maximum before it starts, and the drawing compares opposite values the other way round,
so that among equals the same corner comes first.  What tells the answers apart is only what shows the
objective as it was entered: the costs of the columns, the first column of the table, and the value of a
drawing.  A cost that is too long for the first column is quoted in the fault that takes the place of the
answer, and then its opposite is quoted in the other fault.

The model and its assumptions: any symmetric scalars, any problem whether it was checked or not, any
options, any request for a method.

Proved:
* `signedObjective_mirror`: the sign flag of the objective acts on both alike.
* `run?_mirror`: both have one run of the tableau method, so only the table and the costs are left to
  compare (`agree_tableauTable`).
* `best_mirror`: both drawings have one best corner, with opposite values.
* `mirrors_solve`: how the two answers are related, part by part.
* `not_same_message_of_mirror`: the messages of two errors may differ.
-/

namespace LinearProgram

variable {α : Type}

/-- The mirror image of a problem: the other sense, and the opposite objective. -/
def Problem.mirror [Neg α] (p : Problem α) : Problem α :=
  { p with maximize := !p.maximize, objective := p.objective.map (-·) }

/-- The costs of columns with the opposite costs for the `n` variables. -/
def mirrorCosts [Neg α] (n : Nat) (costs : List α) : List α :=
  (costs.take n).map (-·) ++ costs.drop n

/-- How the answer to a problem with `n` variables and the answer to its mirror image are related, when both
are solved by one method. -/
structure Solution.Mirrors [Scalar α] (solver : Method) (n : Nat) (s s' : Solution α) : Prop where
  valid : s'.valid = s.valid
  status : s'.status = s.status
  method : s'.method = s.method
  message : s'.message = s.message
  point : s'.point = s.point
  iterations : s'.iterations = s.iterations
  costs : s'.costs = s.costs.map (mirrorCosts n)
  /-- The tableau method gives the size of the objective, which has no sense. -/
  size : solver ≠ .graphical → s'.objectiveValue = s.objectiveValue
  /-- The first column of a tableau shows the costs. -/
  tabulated : solver ≠ .graphical → s.table.SameBehindFirst s'.table
  /-- A drawing gives the objective itself. -/
  value : solver = .graphical → Scalar.Alike s'.objectiveValue (-s.objectiveValue)
  drawn : solver = .graphical → s'.table = s.table

/-- The name of the method that is put on both answers is not compared. -/
theorem Solution.Mirrors.named [Scalar α] {solver : Method} {n : Nat} {s s' : Solution α}
    (h : s.Mirrors solver n s') (named : Option Method) :
    ({ s with method := named } : Solution α).Mirrors solver n { s' with method := named } :=
  { h with method := rfl }

/-- The fault for a number that is too long to be shown with so many decimal places. -/
def longCell [DecimalScalar α] (decimals : Int) (x : α) : Fault :=
  .tooLongToReadBack ((DecimalScalar.reading x).fixed true decimals.toNat)

/-- How the faults of a problem and of its mirror image are related, when both are solved by one method: they
are one fault, or one quotes a cost and the other its opposite. -/
inductive Fault.Mirrors [DecimalScalar α] (solver : Method) (decimals : Int) (costs : List α) :
    Fault → Fault → Prop
  | same (fault : Fault) : Mirrors solver decimals costs fault fault
  | opposite {cost : α} (hsolver : solver ≠ .graphical) (hmem : cost ∈ costs)
      (hreadable : DecimalScalar.isReadable decimals.toNat cost = false) :
      Mirrors solver decimals costs (longCell decimals cost) (longCell decimals (-cost))

@[simp]
theorem length_mirrorCosts [Neg α] (n : Nat) (costs : List α) :
    (mirrorCosts n costs).length = costs.length := by
  rw [mirrorCosts, List.length_append, List.length_map, List.length_take, List.length_drop]
  omega

/-! ## The objective of a mirror image -/

section Objective

variable [Scalar α]

theorem Sign.apply_map_neg (sign : Sign) (row : List α) :
    sign.apply (row.map (-·)) = (sign.apply row).map (-·) := by
  cases sign with
  | plus => rfl
  | minus =>
    cases row with
    | nil => rfl
    | cons first rest => rfl

/-- The sign flag of an objective acts on the opposite objective as on the objective. -/
theorem Problem.signedObjective_mirror (p : Problem α) :
    p.mirror.signedObjective = p.signedObjective.map (-·) :=
  Sign.apply_map_neg _ _

theorem Problem.method_mirror (p : Problem α) (requested : Option String) :
    p.mirror.method requested = p.method requested := by
  unfold Problem.method Problem.variableCount
  rw [mirror, List.length_map]

theorem Simplex.columnCosts_mirror (objective : List α) (m : Nat) :
    columnCosts (objective.map (-·)) m = mirrorCosts objective.length (columnCosts objective m) := by
  rw [columnCosts, columnCosts, mirrorCosts, List.take_left, List.drop_left]

theorem Plane.objective?_mirror (objective : List α) :
    objective? (objective.map (-·)) = (objective? objective).map fun c => (-c.1, -c.2) := by
  have hcomponent (i : Nat) :
      component (objective.map (-·)) i = (component objective i).map (-·) := by
    unfold component
    rw [List.getElem?_map, List.length_map]
    cases objective[i]? <;> rfl
  unfold objective?
  rw [hcomponent, hcomponent]
  cases component objective 0 with
  | error fault => rfl
  | ok c₁ =>
    cases component objective 1 with
    | error fault => rfl
    | ok c₂ => rfl

end Objective

section Symmetric

variable [DecimalScalar α] [SymmetricScalar α]

theorem map_neg_map_neg (row : List α) : (row.map (-·)).map (-·) = row := by
  rw [List.map_map]
  exact (List.map_congr_left fun x _ => SymmetricScalar.neg_neg x).trans (List.map_id row)

/-- The mirror image of the mirror image is the problem. -/
theorem Problem.mirror_mirror (p : Problem α) : p.mirror.mirror = p := by
  unfold Problem.mirror
  rw [Bool.not_not, map_neg_map_neg]

/-- Answers without an optimum are blank on both sides, so only the costs have to fit. -/
theorem Solution.mirrors_invalid {method : Method} {n : Nat} {status : Status} {message : String}
    {named : Option Method} {log : Option (List (Snapshot α))} {costs : Option (List α)} :
    (Solution.invalid status message named log costs).Mirrors method n
      (.invalid status message named log (costs.map (mirrorCosts n))) where
  valid := rfl
  status := rfl
  method := rfl
  message := rfl
  point := rfl
  iterations := rfl
  costs := rfl
  size _ := rfl
  tabulated _ := ⟨rfl, rfl⟩
  value _ := SymmetricScalar.alike_neg_zero
  drawn _ := rfl

/-! ## The tableau method -/

/-- A problem and its mirror image are one maximum, and so have one run. -/
theorem Simplex.run?_mirror (objective : List α) (constraints : Grid α) (rhs : List α)
    (maximize : Bool) (options : Options α) :
    run? (objective.map (-·)) constraints rhs (!maximize) options =
      run? objective constraints rhs maximize options := by
  have hmaximized : maximized (!maximize) (objective.map (-·)) = maximized maximize objective := by
    cases maximize with
    | true => exact map_neg_map_neg objective
    | false => rfl
  unfold run? start?
  rw [hmaximized, List.length_map]

/-- A cost and its opposite have cells both, or neither has one. -/
theorem agree_cellText {method : Method} (hmethod : method ≠ .graphical) (decimals : Int)
    {costs : List α} {cost : α} (hmem : cost ∈ costs) :
    AgreeUpTo (Fault.Mirrors method decimals costs) (fun _ _ => True) (cellText decimals cost)
      (cellText decimals (-cost)) := by
  unfold cellText
  cases hplaces : placesOf decimals with
  | error fault => exact .error (.same fault)
  | ok places =>
    obtain ⟨-, -, rfl⟩ := placesOf_eq_ok_iff.1 hplaces
    simp only [bind, Except.bind, SymmetricScalar.isReadable_neg]
    cases hreadable : DecimalScalar.isReadable decimals.toNat cost with
    | true => exact .ok trivial
    | false => exact .error (.opposite hmethod hmem hreadable)

omit [SymmetricScalar α] in
/-- The costs of the variables are opposite, and those of the slacks are the same. -/
theorem getElem?_columnCosts_mirror (objective : List α) (m j : Nat) :
    (Simplex.columnCosts (objective.map (-·)) m)[j]? =
      if j < objective.length then objective[j]?.map (-·) else (Simplex.columnCosts objective m)[j]? := by
  rw [Simplex.columnCosts, Simplex.columnCosts, List.getElem?_append, List.getElem?_append,
    List.length_map, List.getElem?_map]
  split <;> rfl

theorem agree_cost {method : Method} (hmethod : method ≠ .graphical) (decimals : Int)
    (objective : List α) (m j : Nat) :
    AgreeUpTo (Fault.Mirrors method decimals objective)
      (fun cost cost' => AgreeUpTo (Fault.Mirrors method decimals objective) (fun _ _ => True)
        (cellText decimals cost) (cellText decimals cost'))
      (element (Simplex.columnCosts objective m) j)
      (element (Simplex.columnCosts (objective.map (-·)) m) j) := by
  unfold element
  rw [getElem?_columnCosts_mirror]
  by_cases hj : j < objective.length
  · rw [if_pos hj, Simplex.columnCosts, List.getElem?_append_left hj, List.getElem?_eq_getElem hj,
      Option.map_some]
    exact .ok (agree_cellText hmethod decimals (List.getElem_mem hj))
  · rw [if_neg hj]
    cases (Simplex.columnCosts objective m)[j]? with
    | none => exact .error (.same _)
    | some cost =>
      exact .ok (AgreeUpTo.refl (R := fun _ _ => True) Fault.Mirrors.same (fun _ => trivial) _)

/-- One run answers to a problem and to its mirror image. -/
theorem Run.agree_solution {method : Method} (hmethod : method ≠ .graphical) (run : Run α)
    (objective : List α) (m : Nat) (options : Options α) :
    AgreeUpTo (Fault.Mirrors method options.decimals objective)
      (Solution.Mirrors method objective.length)
      (run.solution (Simplex.columnCosts objective m) objective.length options)
      (run.solution (Simplex.columnCosts (objective.map (-·)) m) objective.length options) := by
  have hcosts := Simplex.columnCosts_mirror objective m
  have hlength : (Simplex.columnCosts (objective.map (-·)) m).length =
      (Simplex.columnCosts objective m).length := by rw [hcosts, length_mirrorCosts]
  unfold Run.solution
  cases run.ending with
  | optimal =>
    unfold Run.table
    rw [hlength]
    refine (Tableau.agree_tableauTable .same _ _ _ _
      (agree_cost hmethod options.decimals objective m)).map fun table table' htable => ?_
    rw [hcosts]
    exact {
      valid := rfl
      status := rfl
      method := rfl
      message := rfl
      point := rfl
      iterations := rfl
      costs := rfl
      size := fun _ => rfl
      tabulated := fun _ => htable
      value := fun h => absurd h hmethod
      drawn := fun h => absurd h hmethod }
  | unbounded entering =>
    rw [hcosts]
    exact .ok Solution.mirrors_invalid
  | capped =>
    rw [hcosts]
    have hcount : AgreeUpTo (Fault.Mirrors method options.decimals objective) Eq
        (wholeText options.maxIterations) (wholeText options.maxIterations) :=
      AgreeUpTo.refl Fault.Mirrors.same (fun _ => rfl) _
    exact hcount.map fun count _ heq => heq ▸ Solution.mirrors_invalid

theorem Simplex.agree_solve {method : Method} (hmethod : method ≠ .graphical)
    (objective : List α) (constraints : Grid α) (rhs : List α) (maximize : Bool)
    (options : Options α) :
    AgreeUpTo (Fault.Mirrors method options.decimals objective)
      (Solution.Mirrors method objective.length)
      (solve objective constraints rhs maximize options)
      (solve (objective.map (-·)) constraints rhs (!maximize) options) := by
  unfold Simplex.solve
  rw [run?_mirror, List.length_map]
  exact .bind_same .same _ fun run => run.agree_solution hmethod objective constraints.length options

/-! ## The general route -/

theorem General.agree_solve {method : Method} (hmethod : method ≠ .graphical)
    (objective : List α) (constraints : Grid α) (relations : List Relation) (rhs : List α)
    (maximize : Bool) (options : Options α) :
    AgreeUpTo (Fault.Mirrors method options.decimals objective)
      (Solution.Mirrors method objective.length)
      (solve objective constraints relations rhs maximize options)
      (solve (objective.map (-·)) constraints relations rhs (!maximize) options) := by
  unfold General.solve
  refine .bind_same .same _ fun form => ?_
  refine (Simplex.agree_solve hmethod objective constraints rhs maximize options).bind
    fun s s' h => ?_
  exact .ok (h.named _)

/-! ## The drawing -/

namespace Plane

/-- A corner with its value, and the same corner with the opposite value. -/
def Opposite (y y' : α × α × α) : Prop := y'.2 = y.2 ∧ Scalar.Alike y'.1 (-y.1)

theorem opposite_value (c x : α × α) :
    Opposite (value c x, x) (value (-c.1, -c.2) x, x) :=
  ⟨rfl, SymmetricScalar.neg_mul_add_neg_mul _ _ _ _⟩

/-- Opposite values are compared the other way round. -/
theorem beats_mirror {maximize : Bool} {y y' x x' : α × α × α} (hy : Opposite y y')
    (hx : Opposite x x') : beats maximize y x = beats (!maximize) y' x' := by
  have hlt : y'.1 < x'.1 ↔ x.1 < y.1 :=
    (SymmetricScalar.lt_congr hy.2 hx.2).trans SymmetricScalar.neg_lt_neg_iff
  have hgt : x'.1 < y'.1 ↔ y.1 < x.1 :=
    (SymmetricScalar.lt_congr hx.2 hy.2).trans SymmetricScalar.neg_lt_neg_iff
  cases maximize with
  | true => exact (decide_eq_decide.2 hlt).symm
  | false => exact (decide_eq_decide.2 hgt).symm

/-- The two drawings have one best corner, and opposite values there. -/
theorem best_mirror (maximize : Bool) (c x : α × α) (rest : List (α × α)) :
    Opposite (best maximize c x rest) (best (!maximize) (-c.1, -c.2) x rest) := by
  unfold best
  refine leaderFrom_related beats_mirror ?_ (opposite_value c x)
  rw [List.forall₂_map_left_iff, List.forall₂_map_right_iff, List.forall₂_same]
  exact fun y _ => opposite_value c y

omit [SymmetricScalar α] in
theorem mirrors_optimum {n : Nat} (borders : List (Border α)) {b b' : α × α × α}
    (h : Opposite b b') : (optimum borders b).Mirrors .graphical n (optimum borders b') where
  valid := rfl
  status := rfl
  method := rfl
  message := rfl
  point := by rw [optimum, optimum, h.1]
  iterations := rfl
  costs := rfl
  size hmethod := absurd rfl hmethod
  tabulated hmethod := absurd rfl hmethod
  value _ := h.2
  drawn _ := rfl

theorem agree_solve (objective : List α) (constraints : Grid α) (relations : List Relation)
    (rhs : List α) (maximize : Bool) (options : Options α) :
    AgreeUpTo (Fault.Mirrors .graphical options.decimals objective)
      (Solution.Mirrors .graphical objective.length)
      (solve objective constraints relations rhs maximize options)
      (solve (objective.map (-·)) constraints relations rhs (!maximize) options) := by
  unfold Plane.solve
  refine .bind_same .same _ fun survey => ?_
  unfold Survey.solution
  cases survey.feasible with
  | nil => exact .ok Solution.mirrors_invalid
  | cons x rest =>
    dsimp only
    rw [objective?_mirror]
    cases objective? objective with
    | error fault => exact .error (.same fault)
    | ok c => exact .ok (mirrors_optimum survey.borders (best_mirror maximize c x rest))

end Plane

/-! ## All methods -/

namespace Problem

theorem agree_solveBy? (p : Problem α) (method : Method) (options : Options α) :
    AgreeUpTo (Fault.Mirrors method options.decimals p.signedObjective)
      (Solution.Mirrors method p.variableCount) (p.solveBy? method options)
      (p.mirror.solveBy? method options) := by
  have hlength : p.variableCount = p.signedObjective.length := p.length_signedObjective.symm
  unfold solveBy?
  rw [hlength, signedObjective_mirror]
  cases method with
  | graphical => exact Plane.agree_solve _ _ _ _ _ _
  | simplex => exact Simplex.agree_solve (by decide) _ _ _ _ _
  | general => exact General.agree_solve (by decide) _ _ _ _ _ _

/-- The answers to a problem and to its mirror image have one verdict, one method, one message, one point and
one trace.  By the tableau method and on the general route they have one value, opposite costs of the
variables, and one table but for the column of the costs.  The drawing has one table and opposite values.
The exception is a cost that is too long to be shown with so many decimal places: then both answers are
errors, and one quotes the cost where the other quotes its opposite. -/
theorem mirrors_solve (p : Problem α) (requested : Option String) (options : Options α) :
    (p.solve requested options).Mirrors (p.method requested) p.variableCount
        (p.mirror.solve requested options) ∨
      p.method requested ≠ .graphical ∧
        ∃ cost ∈ p.signedObjective, DecimalScalar.isReadable options.decimals.toNat cost = false ∧
          p.solve requested options = .ofFault (longCell options.decimals cost) ∧
          p.mirror.solve requested options = .ofFault (longCell options.decimals (-cost)) := by
  unfold Problem.solve
  rw [method_mirror]
  have hagree := p.agree_solveBy? (p.method requested) options
  revert hagree
  generalize p.solveBy? (p.method requested) options = x
  generalize p.mirror.solveBy? (p.method requested) options = x'
  intro hagree
  cases hagree with
  | ok h => exact .inl h
  | error h =>
    cases h with
    | same fault => exact .inl Solution.mirrors_invalid
    | opposite hmethod hmem hreadable =>
      exact .inr ⟨hmethod, _, hmem, hreadable, rfl, rfl⟩

end Problem

end Symmetric

/-- The maximum of `x₁ + 2x₂` over `x₁ + x₂ ≤ 4`, `x₂ ≤ 3` is drawn with the value 7, and the minimum of
`-x₁ - 2x₂` at the same corner with the value -7.  With a third variable, and over the doubles, the tableau
method gives one value to the maximum of `x₁ + 2x₂ - x₃` and to the minimum of `-x₁ - 2x₂ + x₃`. -/
theorem Problem.mirrors_solve_both_ways :
    (∃ (p : Problem ℚ) (o : Options ℚ), p.mirror =
        ⟨false, [-1, -2], [[1, 1], [0, 1]], [.atMost, .atMost], [4, 3], none, none⟩ ∧
      (p.solve none o).objectiveValue = 7 ∧ (p.mirror.solve none o).objectiveValue = -7 ∧
      (p.mirror.solve none o).point = (p.solve none o).point) ∧
    ∃ (p : Problem Float) (o : Options Float), p.mirror =
        ⟨false, [-1, -2, 1], [[1, 1, 0], [0, 1, 0]], [.atMost, .atMost], [4, 3], none, none⟩ ∧
      (p.solve none o).status = .optimal ∧
      (p.mirror.solve none o).objectiveValue = (p.solve none o).objectiveValue ∧
      (p.solve none o).costs = some [1, 2, -1, 0, 0] ∧
      (p.mirror.solve none o).costs = some [-1, -2, 1, 0, 0] := by
  constructor
  · let p : Problem ℚ :=
      ⟨true, [1, 2], [[1, 1], [0, 1]], [.atMost, .atMost], [4, 3], none, none⟩
    let o : Options ℚ := ⟨100, 0, 0, 1 / 100, 2⟩
    rcases mirrors_solve p none o with h | ⟨hmethod, -⟩
    · have hvalue : (p.solve none o).objectiveValue = 7 := by decide +kernel
      have hopposite := Scalar.alike_rat_iff.1 (h.value rfl)
      rw [hvalue] at hopposite
      exact ⟨p, o, rfl, hvalue, hopposite, h.point⟩
    · exact absurd rfl hmethod
  · let p : Problem Float :=
      ⟨true, [1, 2, -1], [[1, 1, 0], [0, 1, 0]], [.atMost, .atMost], [4, 3], none, none⟩
    let o : Options Float := ⟨100, 0, 0, 0, 2⟩
    have hsolved : ((p.solve none o).status, (p.solve none o).costs) =
        (.optimal, some [1, 2, -1, 0, 0]) := by decide +kernel
    obtain ⟨hstatus, hcosts⟩ := Prod.mk.inj hsolved
    rcases mirrors_solve p none o with h | ⟨-, cost, -, -, herror, -⟩
    · have hopposite := h.costs
      rw [hcosts] at hopposite
      exact ⟨p, o, rfl, hstatus, h.size (by decide), hcosts, hopposite⟩
    · rw [herror] at hstatus
      cases hstatus

/-! ## Costs that are too long -/

/-- A number and its opposite are not quoted by one text. -/
theorem Reading.fixed_ne_fixed_neg (places n d : Nat) :
    (Reading.finite false n d).fixed true places ≠ (Reading.finite true n d).fixed true places := by
  intro h
  have hlength := congrArg String.length h
  simp [fixed] at hlength

/-- The errors for a cost and for its opposite differ in what they quote. -/
theorem Solution.message_longCell_ne [DecimalScalar α] {decimals : Int} {cost : α} {n d : Nat}
    (h : DecimalScalar.reading cost = .finite false n d)
    (h' : DecimalScalar.reading (-cost) = .finite true n d) :
    (Solution.ofFault (longCell decimals (-cost)) : Solution α).message ≠
      (Solution.ofFault (longCell decimals cost) : Solution α).message := by
  intro heq
  have hmessage := (String.append_right_inj _).1 heq
  have htext := (String.append_right_inj _).1 ((String.append_left_inj _).1 hmessage)
  rw [h, h'] at htext
  exact Reading.fixed_ne_fixed_neg _ _ _ htext.symm

/-- The fault of an optimum whose first cost is too long to be shown. -/
theorem Problem.solve_eq_longCell [DecimalScalar α] {p : Problem α} {options : Options α} {run : Run α}
    (hrun : p.run? options = .ok run) (hn : p.variableCount ≠ 2) (hending : run.ending = .optimal)
    {column : Nat} {rest : List Nat} (hbasis : run.last.basis = column :: rest) {cost : α}
    (hcost : p.columnCosts[column]? = some cost) (hd : 0 ≤ options.decimals)
    (hd' : options.decimals ≤ maxPlaces)
    (hreadable : DecimalScalar.isReadable options.decimals.toNat cost = false) :
    p.solve (some Method.simplex.word) options = .ofFault (longCell options.decimals cost) := by
  have htable : run.table p.columnCosts options.decimals = .error (longCell options.decimals cost) := by
    rw [Run.table, hbasis]
    exact Tableau.tableauTable_eq_error hcost (cellText_eq_error hd hd' hreadable)
  refine Problem.solve_of_error ?_
  rw [Problem.method_simplex hn]
  show p.run? options >>= (fun run => run.solution p.columnCosts p.signedObjective.length options) = _
  rw [hrun]
  show run.solution p.columnCosts _ options = _
  rw [Run.solution, hending]
  simp only [htable, Except.map]

/-- A problem and its mirror image may be told apart by the messages of their errors: the maximum of `3x₁`
over `x₁ ≤ 1` and the minimum of `-3x₁` with `1000000001` decimal places, which are in the range. -/
theorem not_same_message_of_mirror :
    ¬ ∀ (p : Problem Float) (requested : Option String) (options : Options Float), p.Admissible →
      (p.mirror.solve requested options).message = (p.solve requested options).message := by
  intro h
  have hadmissible : (⟨true, [3], [[1]], [.atMost], [1], none, none⟩ :
      Problem Float).Admissible := ⟨by decide, rfl, rfl, by decide⟩
  have hrun : ((⟨true, [3], [[1]], [.atMost], [1], none, none⟩ : Problem Float).run?
      { Options.standard with decimals := 1000000001 }).map
        (fun run => (run.ending, run.last.basis)) = .ok (.optimal, [0]) := by
    decide +kernel
  have hrun' : ((⟨true, [3], [[1]], [.atMost], [1], none, none⟩ : Problem Float).mirror.run?
      { Options.standard with decimals := 1000000001 }).map
        (fun run => (run.ending, run.last.basis)) = .ok (.optimal, [0]) := by
    decide +kernel
  obtain ⟨run, hrun, hparts⟩ := map_eq_ok_iff.1 hrun
  obtain ⟨hending, hbasis⟩ := Prod.mk.inj hparts
  obtain ⟨run', hrun', hparts'⟩ := map_eq_ok_iff.1 hrun'
  obtain ⟨hending', hbasis'⟩ := Prod.mk.inj hparts'
  have hlong : ∀ x : Float, Scalar.isFinite x = true →
      DecimalScalar.isReadable (1000000001 : Int).toNat x = false := fun x hx =>
    (((not_writable_iff.1 (not_writable_double hx (by decide))).resolve_left
      (by decide)).resolve_left (by decide))
  have hmessage := h _ (some Method.simplex.word) { Options.standard with decimals := 1000000001 }
    hadmissible
  rw [Problem.solve_eq_longCell hrun (by decide) hending hbasis rfl (by decide) (by decide)
      (hlong 3 (by decide +kernel)),
    Problem.solve_eq_longCell hrun' (by decide) hending' hbasis' rfl (by decide) (by decide)
      (hlong (-3) (by decide +kernel))] at hmessage
  have hreading : DecimalScalar.reading (3 : Float) =
      .finite false 6755399441055744 2251799813685248 := by decide +kernel
  have hreading' : DecimalScalar.reading (-3 : Float) =
      .finite true 6755399441055744 2251799813685248 := by decide +kernel
  exact Solution.message_longCell_ne hreading hreading' hmessage

end LinearProgram
