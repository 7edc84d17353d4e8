import LinearProgram.Decimal.Scalar
import Mathlib.Algebra.Group.Int.Even
import Mathlib.Algebra.Order.Field.Basic
import Mathlib.Algebra.Order.Ring.Abs
import Mathlib.Algebra.Order.Ring.Rat
import Mathlib.Tactic.FieldSimp
import Mathlib.Tactic.Linarith
import Mathlib.Tactic.Positivity
import Mathlib.Tactic.Ring
/-!
# The nearest multiple of a unit

Rounding takes a value to the nearest multiple of a unit, be it a power of ten for a text or a power of
two for a double, and of two that are equally near to the one with the even factor.  `IsNearest` says so
by comparing distances with all other multiples; `isNearest_iff` says the same by half a unit.

Proved:
* `isNearest_iff`: a multiple is nearest if it is off by less than half a unit, or by just half a unit with
  an even factor.
* `IsNearest.eq`: there is only one.
* `IsNearest.of_le`: a value that is no farther from the multiple has the same nearest multiple.
* `isNearest_roundDiv`: a rounded quotient is nearest.
* `isNearest_roundPlaces`: over the rationals a value is rounded to places as it should be.
-/

namespace LinearProgram

/-- `k * u` is the multiple of `u` that is nearest to `v`, with an even factor if another is as near. -/
structure IsNearest (u v : ℚ) (k : ℤ) : Prop where
  near : ∀ j : ℤ, |v - k * u| ≤ |v - j * u|
  even_of_tie : ∀ j : ℤ, j ≠ k → |v - j * u| = |v - k * u| → Even k

variable {u v w c : ℚ} {j k : ℤ}

/-- Two multiples are at least a unit apart. -/
theorem le_abs_mul_sub_mul (hu : 0 < u) (h : j ≠ k) : u ≤ |k * u - j * u| := by
  have hone : (1 : ℚ) ≤ |(k : ℚ) - j| := by
    exact_mod_cast Int.one_le_abs (sub_ne_zero.2 h.symm)
  rw [← sub_mul, abs_mul, abs_of_pos hu]
  exact le_mul_of_one_le_left hu.le hone

theorem le_abs_add_abs (hu : 0 < u) (h : j ≠ k) (v : ℚ) : u ≤ |v - k * u| + |v - j * u| := by
  have htriangle := abs_sub_le (k * u) v (j * u)
  rw [abs_sub_comm (k * u) v] at htriangle
  exact (le_abs_mul_sub_mul hu h).trans htriangle

theorem abs_neg_sub (v w : ℚ) : |-v - w| = |v - -w| := by
  rw [← abs_neg]
  congr 1
  ring

/-- A multiple is nearest if it is off by at most half a unit, and even if it is off by just that. -/
theorem isNearest_iff (hu : 0 < u) :
    IsNearest u v k ↔ |v - k * u| ≤ u / 2 ∧ (|v - k * u| = u / 2 → Even k) := by
  constructor
  · intro h
    have habove := h.near (k + 1)
    have hbelow := h.near (k - 1)
    have htieAbove := h.even_of_tie (k + 1) (by omega)
    have htieBelow := h.even_of_tie (k - 1) (by omega)
    push_cast at habove hbelow htieAbove htieBelow
    set d := v - k * u with hd
    have habove' : v - (k + 1) * u = d - u := by rw [hd]; ring
    have hbelow' : v - (k - 1) * u = d + u := by rw [hd]; ring
    rw [habove'] at habove htieAbove
    rw [hbelow'] at hbelow htieBelow
    rcases le_total 0 d with hpos | hneg
    · have hle : d ≤ u / 2 := by
        rw [abs_of_nonneg hpos] at habove
        rcases abs_cases (d - u) with ⟨habs, -⟩ | ⟨habs, -⟩ <;> linarith
      rw [abs_of_nonneg hpos] at htieAbove ⊢
      refine ⟨hle, fun htie => htieAbove ?_⟩
      rw [abs_of_neg (by linarith)]
      linarith
    · have hle : -d ≤ u / 2 := by
        rw [abs_of_nonpos hneg] at hbelow
        rcases abs_cases (d + u) with ⟨habs, -⟩ | ⟨habs, -⟩ <;> linarith
      rw [abs_of_nonpos hneg] at htieBelow ⊢
      refine ⟨hle, fun htie => htieBelow ?_⟩
      rw [abs_of_pos (by linarith)]
      linarith
  · rintro ⟨hle, heven⟩
    refine ⟨fun j => ?_, fun j hj htie => heven ?_⟩
    · rcases eq_or_ne j k with rfl | hj
      · exact le_rfl
      · have hunit := le_abs_add_abs hu hj v
        linarith
    · have hunit := le_abs_add_abs hu hj v
      linarith

/-- A multiple is nearest to itself. -/
theorem isNearest_self (hu : 0 < u) (k : ℤ) : IsNearest u (k * u) k := by
  have hhalf : (0 : ℚ) < u / 2 := by linarith
  rw [isNearest_iff hu, sub_self, abs_zero]
  exact ⟨hhalf.le, fun htie => absurd htie hhalf.ne⟩

namespace IsNearest

/-- There is only one nearest multiple: of two, both off by half a unit, one would be odd. -/
theorem eq (hu : 0 < u) (hj : IsNearest u v j) (hk : IsNearest u v k) : j = k := by
  by_contra hne
  obtain ⟨hjle, hjeven⟩ := (isNearest_iff hu).1 hj
  obtain ⟨hkle, hkeven⟩ := (isNearest_iff hu).1 hk
  have hunit := le_abs_add_abs hu hne v
  have hdist : |(k : ℚ) * u - j * u| ≤ u := by
    have htriangle := abs_sub_le (k * u) v (j * u)
    rw [abs_sub_comm (k * u) v] at htriangle
    linarith
  have hone : |k - j| ≤ 1 := by
    rw [← sub_mul, abs_mul, abs_of_pos hu] at hdist
    have hone := (mul_le_iff_le_one_left hu).1 hdist
    exact_mod_cast hone
  obtain ⟨a, ha⟩ := hjeven (by linarith)
  obtain ⟨b, hb⟩ := hkeven (by linarith)
  rw [abs_le] at hone
  omega

/-- A value that is no farther from the multiple has the same nearest multiple. -/
theorem of_le (hu : 0 < u) (h : IsNearest u v k) (hle : |w - k * u| ≤ |v - k * u|) :
    IsNearest u w k := by
  obtain ⟨hhalf, heven⟩ := (isNearest_iff hu).1 h
  refine (isNearest_iff hu).2 ⟨hle.trans hhalf, fun htie => heven ?_⟩
  exact le_antisymm hhalf (htie ▸ hle)

theorem neg (h : IsNearest u v k) : IsNearest u (-v) (-k) := by
  have hdist (j : ℤ) : |-v - j * u| = |v - (-j : ℤ) * u| := by
    rw [abs_neg_sub, Int.cast_neg, neg_mul]
  refine ⟨fun j => ?_, fun j hj htie => even_neg.2 (h.even_of_tie (-j) (by omega) ?_)⟩
  · rw [hdist, hdist, neg_neg]
    exact h.near (-j)
  · rwa [hdist, hdist, neg_neg] at htie

/-- Values and units can be scaled together. -/
theorem scale (h : IsNearest u v k) (hc : 0 < c) : IsNearest (u * c) (v * c) k := by
  have hdist (j : ℤ) : |v * c - j * (u * c)| = |v - j * u| * c := by
    rw [← mul_assoc, ← sub_mul, abs_mul, abs_of_pos hc]
  refine ⟨fun j => ?_, fun j hj htie => h.even_of_tie j hj ?_⟩
  · rw [hdist, hdist]
    exact mul_le_mul_of_nonneg_right (h.near j) hc.le
  · rw [hdist, hdist] at htie
    exact mul_right_cancel₀ hc.ne' htie

/-- No multiple lies between a value and its nearest multiple. -/
theorem le_of_le (hu : 0 < u) (h : IsNearest u v k) (hj : j * u ≤ v) : j ≤ k := by
  by_contra hlt
  have hsucc : (k : ℚ) + 1 ≤ j := by exact_mod_cast not_le.1 hlt
  have hnext := mul_le_mul_of_nonneg_right hsucc hu.le
  have hhalf := (abs_le.1 ((isNearest_iff hu).1 h).1).2
  linarith

theorem ge_of_ge (hu : 0 < u) (h : IsNearest u v k) (hj : v ≤ j * u) : k ≤ j := by
  have hneg : ((-j : ℤ) : ℚ) * u ≤ -v := by
    push_cast
    linarith
  have hle := h.neg.le_of_le hu hneg
  omega

end IsNearest

/-! ## Rounded quotients -/

theorem roundDiv_even_of_tie {n d : ℕ} (hd : 0 < d)
    (h : 2 * (roundDiv n d * d) = 2 * n + d ∨ 2 * n = 2 * (roundDiv n d * d) + d) :
    roundDiv n d % 2 = 0 := by
  have hn := Nat.div_add_mod n d
  have hr := Nat.mod_lt n hd
  have hc : d * (n / d) = n / d * d := Nat.mul_comm ..
  have hs : (n / d + 1) * d = n / d * d + d := Nat.succ_mul ..
  unfold roundDiv at h ⊢
  dsimp only at h ⊢
  split at h
  · omega
  · split at h
    · omega
    · split at h
      · next hnear hfar heven => rw [if_neg hnear, if_neg hfar, if_pos heven]; exact heven
      · next hnear hfar hodd => rw [if_neg hnear, if_neg hfar, if_neg hodd]; omega

/-- A rounded quotient is the nearest whole number. -/
theorem isNearest_roundDiv (n : ℕ) {d : ℕ} (hd : 0 < d) :
    IsNearest 1 (n / d) (roundDiv n d : ℕ) := by
  have hd' : (0 : ℚ) < d := by exact_mod_cast hd
  obtain ⟨hupper, hlower⟩ := roundDiv_near n d hd
  have hdist : (n : ℚ) / d - ((roundDiv n d : ℕ) : ℤ) * 1 = (n - roundDiv n d * d) / d := by
    push_cast
    field_simp
  rw [isNearest_iff one_pos, hdist, abs_div, abs_of_pos hd', div_le_iff₀ hd', div_eq_iff hd'.ne']
  have hupper' : 2 * ((roundDiv n d : ℚ) * d) ≤ 2 * n + d := by exact_mod_cast hupper
  have hlower' : (2 : ℚ) * n ≤ 2 * (roundDiv n d * d) + d := by exact_mod_cast hlower
  refine ⟨abs_le.2 ⟨by linarith, by linarith⟩, fun htie => ?_⟩
  have heven : roundDiv n d % 2 = 0 := by
    refine roundDiv_even_of_tie hd ?_
    rcases abs_cases ((n : ℚ) - roundDiv n d * d) with ⟨habs, -⟩ | ⟨habs, -⟩
    · right
      have htie' : (2 : ℚ) * n = 2 * (roundDiv n d * d) + d := by linarith
      exact_mod_cast htie'
    · left
      have htie' : 2 * ((roundDiv n d : ℚ) * d) = 2 * n + d := by linarith
      exact_mod_cast htie'
  exact_mod_cast Nat.even_iff.2 heven

/-! ## Signs -/

namespace Numeral

theorem natAbs_signed (negative : Bool) (n : ℕ) : (signed negative n).natAbs = n := by
  cases negative with
  | true => exact (Int.natAbs_neg _).trans (Int.natAbs_natCast n)
  | false => exact Int.natAbs_natCast n

theorem signed_neg_iff {negative : Bool} {n : ℕ} : signed negative n < 0 ↔ negative = true ∧ n ≠ 0 := by
  rw [signed]
  split
  · next hneg =>
    have hlt : -(n : ℤ) < 0 ↔ n ≠ 0 := by omega
    rw [hlt, and_iff_right hneg]
  · next hpos => exact iff_of_false (by omega) (mt And.left hpos)

theorem signed_eq_zero_iff {negative : Bool} {n : ℕ} : signed negative n = 0 ↔ n = 0 := by
  rw [← Int.natAbs_eq_zero, natAbs_signed]

theorem signed_natAbs (k : ℤ) : signed (decide (k < 0)) k.natAbs = k := by
  rw [signed]
  split
  · next hneg =>
    have hlt : k < 0 := of_decide_eq_true hneg
    omega
  · next hpos =>
    have hlt : ¬ k < 0 := fun hlt => hpos (decide_eq_true hlt)
    omega

end Numeral

/-- A number with a sign, which a zero may have too. -/
def signedRat (negative : Bool) (q : ℚ) : ℚ := if negative then -q else q

theorem abs_signedRat (negative : Bool) (q : ℚ) : |signedRat negative q| = |q| := by
  cases negative with
  | true => exact abs_neg q
  | false => rfl

theorem signedRat_div (negative : Bool) (n : ℕ) (q : ℚ) :
    signedRat negative (n / q) = Numeral.signed negative n * (1 / q) := by
  cases negative with
  | true => simp [signedRat, Numeral.signed, div_eq_mul_inv]
  | false => simp [signedRat, Numeral.signed, div_eq_mul_inv]

/-! ## Readings -/

/-- The nearest multiple of `10⁻ᵖ` to a quotient with a sign. -/
theorem isNearest_places (negative : Bool) (n : ℕ) {d : ℕ} (hd : 0 < d) (places : ℕ) :
    IsNearest (1 / 10 ^ places) (signedRat negative (n / d))
      (Numeral.signed negative (roundDiv (n * 10 ^ places) d)) := by
  have hscaled := (isNearest_roundDiv (n * 10 ^ places) hd).scale
    (c := 1 / 10 ^ places) (by positivity)
  have hvalue : ((n * 10 ^ places : ℕ) : ℚ) / d * (1 / 10 ^ places) = n / d := by
    push_cast
    field_simp
  rw [one_mul, hvalue] at hscaled
  cases negative with
  | true => exact hscaled.neg
  | false => exact hscaled

/-- A rational is its own reading. -/
theorem reading_rat (x : ℚ) :
    ∃ (negative : Bool) (n d : ℕ), 0 < d ∧ DecimalScalar.reading x = .finite negative n d ∧
      signedRat negative (n / d) = x := by
  refine ⟨decide (x < 0), x.num.natAbs, x.den, x.den_pos, rfl, ?_⟩
  have habs : ((x.num.natAbs : ℕ) : ℚ) / x.den = |x| := by
    rw [Nat.cast_natAbs, Int.cast_abs, ← Nat.abs_cast x.den, ← abs_div, Rat.num_div_den]
  rw [habs, signedRat]
  by_cases hx : x < 0
  · rw [if_pos (decide_eq_true hx), abs_of_neg hx, neg_neg]
  · rw [if_neg (by simpa using hx), abs_of_nonneg (not_lt.1 hx)]

/-- A rational is rounded to places as the nearest multiple. -/
theorem isNearest_roundPlaces (places : ℕ) (x : ℚ) :
    ∃ k : ℤ, IsNearest (1 / 10 ^ places) x k ∧
      DecimalScalar.roundPlaces places x = k * (1 / 10 ^ places) := by
  obtain ⟨negative, n, d, hd, hreading, hx⟩ := reading_rat x
  have hnearest := isNearest_places negative n hd places
  rw [hx] at hnearest
  refine ⟨_, hnearest, ?_⟩
  have hdecimal (units : ℕ) : (DecimalScalar.ofDecimal negative units (-(places : ℤ)) : ℚ) =
      Numeral.signed negative units * (1 / 10 ^ places) := by
    have hmagnitude : (DecimalScalar.ofDecimal negative units (-(places : ℤ)) : ℚ) =
        signedRat negative (units * 10 ^ (-(places : ℤ)).toNat / 10 ^ (- -(places : ℤ)).toNat) := rfl
    rw [hmagnitude, Int.toNat_neg_natCast, neg_neg, Int.toNat_natCast, pow_zero, mul_one, signedRat_div]
  rw [DecimalScalar.roundPlaces, hreading]
  exact hdecimal _

end LinearProgram
