import LinearProgram.Problem
/-!
# Sign flags

A minus flag beside a row negates every coefficient but the first: it is the operator between the
first term and the rest.  Limits and relations are not touched.  Flags of rows count only if there
is exactly one for each row.
-/

namespace LinearProgram

/-- Negate all coefficients but the first. -/
def negateTail {α : Type} [Neg α] : List α → List α
  | [] => []
  | first :: rest => first :: rest.map (-·)

/-- Apply a flag to a row. -/
def Sign.apply {α : Type} [Neg α] (sign : Sign) (row : List α) : List α :=
  match sign with
  | .plus => row
  | .minus => negateTail row

/-- Apply the flags of the rows, if there is one for each. -/
def applyRowSigns {α : Type} [Neg α] (signs : Option (List Sign)) (rows : List (List α)) :
    List (List α) :=
  match signs with
  | none => rows
  | some signs =>
    if signs.length = rows.length then List.zipWith Sign.apply signs rows else rows

/-- Apply the flag of the objective, if there is one. -/
def applyObjectiveSign {α : Type} [Neg α] (sign : Option Sign) (row : List α) : List α :=
  (sign.getD .plus).apply row

namespace Problem

variable {α : Type} [Neg α]

/-- The objective with its flag applied. -/
def signedObjective (p : Problem α) : List α := applyObjectiveSign p.objectiveSign p.objective

/-- The constraint rows with their flags applied. -/
def signedConstraints (p : Problem α) : List (List α) :=
  applyRowSigns p.constraintSigns p.constraints

theorem signedObjective_of_none {p : Problem α} (h : p.objectiveSign = none) :
    p.signedObjective = p.objective := by
  rw [signedObjective, h]
  rfl

theorem signedConstraints_of_none {p : Problem α} (h : p.constraintSigns = none) :
    p.signedConstraints = p.constraints := by
  rw [signedConstraints, h]
  rfl

end Problem

/-! ## Flags keep every shape -/

@[simp]
theorem length_negateTail {α : Type} [Neg α] (row : List α) :
    (negateTail row).length = row.length := by
  cases row <;> simp [negateTail]

@[simp]
theorem Sign.length_apply {α : Type} [Neg α] (sign : Sign) (row : List α) :
    (sign.apply row).length = row.length := by
  cases sign <;> simp [Sign.apply, length_negateTail]

@[simp]
theorem Problem.length_signedObjective {α : Type} [Neg α] (p : Problem α) :
    p.signedObjective.length = p.objective.length := by
  simp [Problem.signedObjective, applyObjectiveSign, Sign.length_apply]

@[simp]
theorem length_applyRowSigns {α : Type} [Neg α] (signs : Option (List Sign))
    (rows : List (List α)) : (applyRowSigns signs rows).length = rows.length := by
  unfold applyRowSigns
  split
  · rfl
  · next signs =>
    split
    · next h => simp [h]
    · rfl

@[simp]
theorem Problem.length_signedConstraints {α : Type} [Neg α] (p : Problem α) :
    p.signedConstraints.length = p.constraints.length := length_applyRowSigns _ _

/-- What holds of all coefficients of a row and does not depend on their signs holds after a flag. -/
theorem Sign.forall_mem_apply {α : Type} [Neg α] {P : α → Prop} (hneg : ∀ a, P a → P (-a))
    (sign : Sign) {row : List α} (h : ∀ a ∈ row, P a) : ∀ a ∈ sign.apply row, P a := by
  cases sign with
  | plus => exact h
  | minus =>
    cases row with
    | nil => exact h
    | cons first rest =>
      intro a ha
      rcases List.mem_cons.1 ha with rfl | ha
      · exact h a List.mem_cons_self
      · obtain ⟨b, hb, rfl⟩ := List.mem_map.1 ha
        exact hneg b (h b (List.mem_cons_of_mem _ hb))

/-- Each row is a row as entered, under one of the two signs. -/
theorem Problem.exists_apply_of_mem {α : Type} [Neg α] {p : Problem α} {row : List α}
    (h : row ∈ p.signedConstraints) :
    ∃ sign : Sign, ∃ entered ∈ p.constraints, sign.apply entered = row := by
  unfold signedConstraints applyRowSigns at h
  split at h
  · exact ⟨.plus, row, h, rfl⟩
  · split at h
    · obtain ⟨i, hi, rfl⟩ := List.getElem_of_mem h
      rw [List.getElem_zipWith]
      exact ⟨_, _, List.getElem_mem _, rfl⟩
    · exact ⟨.plus, row, h, rfl⟩

theorem map_length_applyRowSigns {α : Type} [Neg α] (signs : Option (List Sign))
    (rows : List (List α)) : (applyRowSigns signs rows).map List.length = rows.map List.length := by
  unfold applyRowSigns
  split
  · rfl
  · split
    · apply List.ext_getElem
      · simp [*]
      · intro i hi hi'
        simp [Sign.length_apply]
    · rfl

/-- A flag neither mends nor spoils the length of a row. -/
theorem Problem.forall_length_signedConstraints_iff {α : Type} [Neg α] {p : Problem α} {n : Nat} :
    (∀ row ∈ p.signedConstraints, row.length = n) ↔ ∀ row ∈ p.constraints, row.length = n := by
  have hlengths : ∀ rows : List (List α),
      (∀ row ∈ rows, row.length = n) ↔ ∀ k ∈ rows.map List.length, k = n := fun _ => by
    rw [List.forall_mem_map]
  rw [hlengths, hlengths, signedConstraints, map_length_applyRowSigns]

theorem Problem.length_of_mem_signedConstraints {α : Type} [Neg α] {p : Problem α} {n : Nat}
    (hw : ∀ row ∈ p.constraints, row.length = n) : ∀ row ∈ p.signedConstraints, row.length = n :=
  forall_length_signedConstraints_iff.2 hw

end LinearProgram
