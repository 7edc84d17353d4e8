import LinearProgram.Proofs.Double.Order
import LinearProgram.Tableau.Basic
/-!
# Ratios as doubles

A ratio of doubles is a double again: that of the quotient it was made of, with infinity for the lack of a
limit (`Ratio.value_ofQuotient`).  The order of ratios is the order of these doubles
(`Ratio.below_ofQuotient`).
-/

namespace LinearProgram

open Double

namespace Ratio

/-- The double that a ratio stands for. -/
def value : Ratio Float → Float
  | .limit q => q
  | .unlimited => infinity

theorem ofQuotient_infinity : ofQuotient infinity = .unlimited :=
  if_pos ⟨rfl, by decide +kernel⟩

theorem ofQuotient_of_ne {q : Float} (h : q ≠ infinity) : ofQuotient q = .limit q :=
  if_neg fun hq => h (eq_infinity hq.1 hq.2)

/-- A ratio stands for the quotient it was made of. -/
theorem value_ofQuotient (q : Float) : (ofQuotient q).value = q := by
  by_cases hq : q = infinity
  · rw [hq, ofQuotient_infinity]
    rfl
  · rw [ofQuotient_of_ne hq]
    rfl

/-- The order of ratios is the order of the quotients, infinity being behind every other number. -/
theorem below_ofQuotient (y x : Float) :
    below (ofQuotient y) (ofQuotient x) = below (.limit y) (.limit x) := by
  by_cases hx : x = infinity
  · subst hx
    rw [ofQuotient_infinity]
    by_cases hy : y = infinity
    · subst hy
      rw [ofQuotient_infinity]
      decide +kernel
    · rw [ofQuotient_of_ne hy]
      have hlt : Scalar.isNaN y = false → y < infinity := fun hnumber => lt_infinity hnumber hy
      have hinfinity : Scalar.isNaN infinity = false := rfl
      cases hnan : Scalar.isNaN y with
      | true => simp [below, hnan, hinfinity]
      | false => simp [below, hnan, hinfinity, hlt hnan]
  · rw [ofQuotient_of_ne hx]
    by_cases hy : y = infinity
    · subst hy
      have hinfinity : Scalar.isNaN infinity = false := rfl
      rw [ofQuotient_infinity]
      simp [below, hinfinity, not_infinity_lt]
    · rw [ofQuotient_of_ne hy]

end Ratio

end LinearProgram
