import LinearProgram.Decimal.Scalar
import Mathlib.Algebra.Order.Ring.Rat
/-!
# Scalars with a mirror

What a type of scalars has to satisfy for a problem to be told apart from its mirror image by signs only:
to take the opposite twice changes nothing, opposites are ordered the other way round, and the opposite of
a value of the plane is the value with opposite coefficients.  The texts of opposites have the same digits,
so both or neither can be read back.  A double has two zeros, and their sign may come out differently on the
two sides; the comparisons do not see it.  The rationals satisfy this, and so do the doubles.
-/

namespace LinearProgram

namespace Scalar

variable {α : Type} [Scalar α]

/-- Two scalars are alike if they are equal, or both zero whatever their signs. -/
def Alike (x y : α) : Prop := x = y ∨ ((x == 0) = true ∧ (y == 0) = true)

end Scalar

/-- Scalars that are told apart from their opposites by signs only.  Nothing is asked about magnitudes. -/
class SymmetricScalar (α : Type) [DecimalScalar α] : Prop where
  neg_neg : ∀ x : α, - -x = x
  /-- A value with opposite coefficients is the opposite value. -/
  neg_mul_add_neg_mul : ∀ a b x y : α, Scalar.Alike (-a * x + -b * y) (-(a * x + b * y))
  /-- Opposites are ordered the other way round. -/
  neg_lt_neg_iff : ∀ {x y : α}, -x < -y ↔ y < x
  /-- The order does not see the sign of a zero. -/
  lt_congr : ∀ {x x' y y' : α}, Scalar.Alike x x' → Scalar.Alike y y' → (x < y ↔ x' < y')
  alike_neg_zero : Scalar.Alike 0 (-0 : α)
  isReadable_neg : ∀ (places : Nat) (x : α),
    DecimalScalar.isReadable places (-x) = DecimalScalar.isReadable places x

theorem Scalar.alike_rat_iff {x y : ℚ} : Scalar.Alike x y ↔ x = y := by
  refine ⟨fun h => ?_, .inl⟩
  rcases h with h | ⟨hx, hy⟩
  · exact h
  · exact (beq_iff_eq.1 hx).trans (beq_iff_eq.1 hy).symm

instance : SymmetricScalar ℚ where
  neg_neg := neg_neg
  neg_mul_add_neg_mul a b x y := by
    rw [Scalar.alike_rat_iff, neg_mul, neg_mul, neg_add]
  neg_lt_neg_iff := neg_lt_neg_iff
  lt_congr hx hy := by
    rw [Scalar.alike_rat_iff] at hx hy
    rw [hx, hy]
  alike_neg_zero := .inl neg_zero.symm
  isReadable_neg _ _ := rfl

end LinearProgram
