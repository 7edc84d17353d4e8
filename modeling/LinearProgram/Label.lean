/-!
# Labels of columns

Column `j` of a tableau, counted from zero, is labelled `A(j+1)`; the column of the limits is `A0`.
-/

namespace LinearProgram

/-- The label of a column of variables. -/
def variableLabel (j : Nat) : String := "A" ++ Nat.repr (j + 1)

/-- The labels of the first `count` columns. -/
def variableLabels (count : Nat) : List String := (List.range count).map variableLabel

/-- The label of the column of limits. -/
def limitLabel : String := "A0"

@[simp]
theorem length_variableLabels (count : Nat) : (variableLabels count).length = count := by
  simp [variableLabels]

/-- Different columns have different labels. -/
theorem variableLabel_injective : Function.Injective variableLabel := by
  intro i j h
  have hdigits : Nat.toDigits 10 (i + 1) = Nat.toDigits 10 (j + 1) := by
    simpa [variableLabel] using congrArg String.toList h
  have hnumber := congrArg (Nat.ofDigitChars 10 · 0) hdigits
  simpa using hnumber

end LinearProgram
