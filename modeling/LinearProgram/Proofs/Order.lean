import LinearProgram.Scalar
import Mathlib.Algebra.Order.Ring.Rat
/-!
# The order of scalars

What the comparisons of a type of scalars have to satisfy for the searches and the tests of the solvers
to mean what they say: the numbers are ranked by `<`, and a NaN compares with nothing.  The rationals
satisfy it, and so do the doubles.
-/

namespace LinearProgram

/-- Scalars that are not NaN are ranked by `<`; no comparison with a NaN holds. -/
class LawfulScalar (α : Type) [Scalar α] : Prop where
  /-- Only numbers compare. -/
  isNaN_of_lt : ∀ {x y : α}, x < y → Scalar.isNaN x = false ∧ Scalar.isNaN y = false
  /-- Of two scalars at most one is below the other. -/
  lt_asymm : ∀ {x y : α}, x < y → ¬ y < x
  /-- A number is above the lower or below the upper of two scalars. -/
  lt_or_lt : ∀ {x y : α} (z : α), Scalar.isNaN z = false → x < y → x < z ∨ z < y
  /-- Weak comparison of two numbers is the failure of the strict comparison the other way. -/
  le_iff : ∀ {x y : α},
    x ≤ y ↔ Scalar.isNaN x = false ∧ Scalar.isNaN y = false ∧ ¬ y < x

instance : LawfulScalar ℚ where
  isNaN_of_lt _ := ⟨rfl, rfl⟩
  lt_asymm := lt_asymm
  lt_or_lt z _ h := (lt_or_ge _ z).imp_right fun hz => lt_of_le_of_lt hz h
  le_iff := ⟨fun h => ⟨rfl, rfl, not_lt.2 h⟩, fun h => not_lt.1 h.2.2⟩

namespace LawfulScalar

variable {α : Type} [Scalar α] [LawfulScalar α] {x y : α}

theorem le_of_not_lt (hx : Scalar.isNaN x = false) (hy : Scalar.isNaN y = false) (h : ¬ y < x) :
    x ≤ y :=
  le_iff.2 ⟨hx, hy, h⟩

theorem le_of_lt (h : x < y) : x ≤ y :=
  le_iff.2 ⟨(isNaN_of_lt h).1, (isNaN_of_lt h).2, lt_asymm h⟩

end LawfulScalar

end LinearProgram
