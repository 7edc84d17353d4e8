import LinearProgram.Proofs.Double.Nearest
/-!
# The double that a decimal denotes

A decimal is read as a product or a quotient of whole numbers, which is rounded once.  If it is short, the two
factors are doubles themselves and the product or quotient is one of doubles; else it is one of a wider format
without an upper end of the exponent.  As long as the decimal is in the range of the doubles, the nearest
number of that format is a double too.

Proved:
* `Closest.nearest`: in the range of the doubles the nearest number is packed without loss.
* `nearest_mul`, `nearest_div`: so products and quotients of doubles are rounded to the nearest double.
* `exact_toFloat`, `exact_powersOfTen`: the factors of a short decimal are exact.
* `closest_ofScientific`: the product or quotient is the nearest number.
* `nearest_nearestFloat`: so a decimal denotes the nearest double.
-/

namespace LinearProgram.Double

open Float.Model Float.Model.UnpackedFloat

/-- The largest number. -/
def largest : ℚ := (2 ^ 53 - 1) * 2 ^ 971

/-- A double that no other is nearer to a value than. -/
structure Nearest (v : ℚ) (x : Float) : Prop where
  isFinite : Scalar.isFinite x = true
  near : ∀ y, Scalar.isFinite y = true → |v - exact x| ≤ |v - exact y|

variable {v : ℚ} {u : UnpackedFloat} {x y : Float}

/-! ## The range of the doubles -/

theorem abs_value_finite (s : UnpackedFloat.Sign) {m : ℕ} (hm : 0 < m) (e : ℤ) :
    |value (.finite s m e hm)| = m * 2 ^ e := by
  have hnonneg : (0 : ℚ) ≤ m * 2 ^ e := mul_nonneg m.cast_nonneg (two_zpow_pos e).le
  cases s with
  | negative => exact (abs_neg _).trans (abs_of_nonneg hnonneg)
  | positive => exact abs_of_nonneg hnonneg

/-- No number is larger than the largest. -/
theorem abs_exact_le (hx : Scalar.isFinite x = true) : |exact x| ≤ largest := by
  rw [isFinite_eq] at hx
  have hcanonical := canonical_parts x
  have htop := top_parts_le hx
  rw [exact]
  generalize parts x = u at hx hcanonical htop ⊢
  rcases u with _ | _ | _ | ⟨s, m, e, hm⟩
  case infinity => cases hx
  case notANumber => cases hx
  case zero =>
    have hpos : (0 : ℚ) ≤ largest := mul_nonneg (by norm_num) (pow_nonneg two_pos.le _)
    exact abs_zero.trans_le hpos
  case finite =>
    obtain ⟨hlt, -, hnormal⟩ := hcanonical
    have he : e ≤ 971 := by
      rcases hnormal with hdigits | hleast
      · have hlog : 52 ≤ m.log2 := (Nat.le_log2 hm.ne').2 hdigits
        rw [top, totalExponent] at htop
        omega
      · omega
    have hm' : (m : ℚ) ≤ 2 ^ 53 - 1 := by
      have hsucc : (m : ℚ) + 1 ≤ 2 ^ 53 := by exact_mod_cast hlt
      linarith
    have hpow : (2 : ℚ) ^ e ≤ 2 ^ 971 := zpow_le_zpow_right₀ one_le_two he
    rw [abs_value_finite, largest]
    exact mul_le_mul hm' hpow (two_zpow_pos e).le (by norm_num)

/-- Only the zeros are worth zero. -/
theorem beq_zero_iff_exact (hx : Scalar.isFinite x = true) : (x == 0) = true ↔ exact x = 0 := by
  rw [isFinite_eq] at hx
  rw [beq_zero_iff, exact]
  generalize parts x = u at hx ⊢
  rcases u with _ | _ | s | ⟨s, m, e, hm⟩
  case infinity => cases hx
  case notANumber => cases hx
  case zero => exact ⟨fun _ => rfl, fun _ => ⟨s, rfl⟩⟩
  case finite =>
    have hpos : (0 : ℚ) < m * 2 ^ e := mul_pos (by exact_mod_cast hm) (two_zpow_pos e)
    refine ⟨nofun, fun hzero => absurd (abs_eq_zero.2 hzero) ?_⟩
    rw [abs_value_finite]
    exact hpos.ne'

/-! ## Packing the nearest number -/

theorem largest_lt : largest < 2 ^ (1024 : ℤ) := by
  have hpow : (2 : ℚ) ^ (1024 : ℤ) = 2 ^ 53 * 2 ^ 971 := by
    rw [← pow_add]
    rfl
  rw [largest, hpow]
  exact mul_lt_mul_of_pos_right (sub_one_lt _) (by positivity)

theorem two_zpow_le_of_top {s : UnpackedFloat.Sign} {m : ℕ} {e : ℤ} (hm : 0 < m) {k : ℤ}
    (h : k < top (.finite s m e hm)) : (2 : ℚ) ^ k ≤ m * 2 ^ e := by
  rw [top, totalExponent] at h
  have hlog : (2 : ℚ) ^ m.log2 ≤ m := by exact_mod_cast Nat.log2_self_le hm.ne'
  calc (2 : ℚ) ^ k ≤ 2 ^ ((m.log2 : ℤ) + e) := zpow_le_zpow_right₀ one_le_two (by omega)
    _ = 2 ^ m.log2 * 2 ^ e := by rw [zpow_add₀ two_ne_zero, zpow_natCast]
    _ ≤ m * 2 ^ e := mul_le_mul_of_nonneg_right hlog (two_zpow_pos e).le

/-- What is nearest to a value in the range of the doubles is not too large for a double. -/
theorem Closest.top_le (h : Closest v u) (hv : |v| ≤ largest) : top u ≤ 1024 := by
  by_contra htop
  rcases u with _ | _ | _ | ⟨s, m, e, hm⟩
  case infinity => cases h.isFinite
  case notANumber => cases h.isFinite
  case zero => exact htop (by rw [top]; omega)
  case finite =>
    have hlarge : largest < m * 2 ^ e := by
      have hpow := two_zpow_le_of_top hm (not_le.1 htop)
      exact largest_lt.trans_le hpow
    have hnear := h.near (.finite s (2 ^ 53 - 1) 971 (by decide)) ⟨by decide, by decide, .inl (by decide)⟩
    have hvalue : value (.finite s (2 ^ 53 - 1) 971 (by decide)) = signed s largest := by
      cases s <;> norm_num [value, signed, largest]
    rw [hvalue, value] at hnear
    obtain ⟨hlow, hhigh⟩ := abs_le.1 hv
    cases s with
    | negative =>
      simp only [signed, sub_neg_eq_add] at hnear
      rw [abs_of_pos (by linarith), abs_of_nonneg (by linarith)] at hnear
      linarith
    | positive =>
      simp only [signed] at hnear
      rw [abs_of_neg (by linarith), abs_of_nonpos (by linarith)] at hnear
      linarith

/-- In the range of the doubles the nearest number is packed without loss. -/
theorem Closest.parts_eq (h : Closest v u) (hv : |v| ≤ largest)
    (hx : parts x = UnpackedFloat.unpack Format.binary64 (UnpackedFloat.pack Format.binary64 u)) :
    parts x = u :=
  hx.trans (unpack_pack h.canonical fun _ => h.top_le hv)

/-- Packed as a double the nearest number is the nearest double. -/
theorem Closest.nearest (h : Closest v u) (hv : |v| ≤ largest)
    (hx : parts x = UnpackedFloat.unpack Format.binary64 (UnpackedFloat.pack Format.binary64 u)) :
    Nearest v x := by
  have hparts := h.parts_eq hv hx
  refine ⟨by rw [isFinite_eq, hparts]; exact h.isFinite, fun y _ => ?_⟩
  rw [exact, hparts]
  exact h.near _ (canonical_parts y)

/-- Products are rounded to the nearest double. -/
theorem nearest_mul (hx : Scalar.isFinite x = true) (hy : Scalar.isFinite y = true)
    (h : |exact x * exact y| ≤ largest) : Nearest (exact x * exact y) (x * y) :=
  (closest_mul (canonical_parts x) (canonical_parts y) hx hy).nearest h rfl

/-- And so are quotients. -/
theorem nearest_div (hx : Scalar.isFinite x = true) (hy : exact y ≠ 0)
    (h : |exact x / exact y| ≤ largest) : Nearest (exact x / exact y) (x / y) :=
  (closest_div hx hy).nearest h rfl

theorem exact_neg (x : Float) : exact (-x) = -exact x := by
  rw [exact, parts_neg, value_neg, exact]

theorem Nearest.neg (h : Nearest v x) : Nearest (-v) (-x) where
  isFinite := by
    rw [isFinite_eq, parts_neg, isFinite_neg]
    exact h.isFinite
  near y hy := by
    rw [abs_neg_sub, abs_neg_sub, exact_neg, neg_neg, ← exact_neg]
    refine h.near _ ?_
    rw [isFinite_eq, parts_neg, isFinite_neg]
    exact hy

/-- A value that is a double is nearest to itself only. -/
theorem Nearest.exact_eq (h : Nearest v x) (hy : Scalar.isFinite y = true) (hv : exact y = v) :
    exact x = v := by
  have hnear := h.near y hy
  rw [hv, sub_self, abs_zero] at hnear
  exact (sub_eq_zero.1 (abs_eq_zero.1 (le_antisymm hnear (abs_nonneg _)))).symm

/-! ## Whole numbers and powers of ten -/

/-- A whole number of at most 53 digits is rounded to itself. -/
theorem closest_ofNat {m : ℕ} (hm : m < 2 ^ 53) :
    Closest m (UnpackedFloat.ofNat Format.binary64 m) ∧
      value (UnpackedFloat.ofNat Format.binary64 m) = m := by
  rcases Nat.eq_zero_or_pos m with rfl | hpos
  · have hzero : value (UnpackedFloat.ofNat Format.binary64 0) = (0 : ℕ) := Nat.cast_zero.symm
    exact ⟨closest_of_value_eq trivial rfl hzero, hzero⟩
  · have hround : UnpackedFloat.ofNat Format.binary64 m =
        UnpackedFloat.round Format.binary64 .positive m 0 := by
      have hgt : compare (m : ℤ) 0 = .gt := compare_gt_iff_gt.2 (by omega)
      rw [UnpackedFloat.ofNat, UnpackedFloat.ofInt, UnpackedFloat.normalize]
      simp only [hgt, Int.toNat_natCast]
    obtain ⟨k, hplace, -, hexponent, hround'⟩ := exists_round_eq .positive hpos 0
    have hlog : m.log2 < 53 := (Nat.log2_lt hpos.ne').2 hm
    have hexponent' := hexponent (by rw [totalExponent]; omega)
    rw [← hplace] at hexponent'
    have hvalue : value (UnpackedFloat.ofNat Format.binary64 m) = m := by
      have hpow : (2 : ℚ) ^ (0 - (k : ℤ)) = (2 ^ k)⁻¹ := by
        rw [zero_sub, zpow_neg, zpow_natCast]
      rw [hround, hround', value_roundWithAccuracy_exact hexponent', hpow]
      push_cast
      field_simp
    have hrounded := rounded_round .positive hpos 0
    rw [← hround] at hrounded
    exact ⟨closest_of_value_eq hrounded.canonical hrounded.isFinite hvalue, hvalue⟩

/-- A whole number of at most 53 digits is a double. -/
theorem exact_toFloat {m : ℕ} (hm : m < 2 ^ 53) :
    Scalar.isFinite m.toUInt64.toFloat = true ∧ exact m.toUInt64.toFloat = m := by
  obtain ⟨hclosest, hvalue⟩ := closest_ofNat hm
  have hsize : |(m : ℚ)| ≤ largest := by
    have hlt : (m : ℚ) ≤ 2 ^ 53 - 1 := by
      have hsucc : (m : ℚ) + 1 ≤ 2 ^ 53 := by exact_mod_cast hm
      linarith
    rw [abs_of_nonneg m.cast_nonneg, largest]
    exact hlt.trans (le_mul_of_one_le_right (by norm_num) (one_le_pow₀ one_le_two))
  have hnat : m.toUInt64.toNat = m := UInt64.toNat_ofNat_of_lt' (hm.trans (by decide))
  have hparts : parts m.toUInt64.toFloat = UnpackedFloat.unpack Format.binary64
      (UnpackedFloat.pack Format.binary64 (UnpackedFloat.ofNat Format.binary64 m)) := by
    conv_rhs => rw [← hnat]
    rfl
  have hparts' := hclosest.parts_eq hsize hparts
  rw [isFinite_eq, exact, hparts']
  exact ⟨hclosest.isFinite, hvalue⟩

/-- The table of the powers of ten is exact. -/
theorem exact_powersOfTen : ∀ e : Fin 23,
    Scalar.isFinite (Float.exactlyRepresentablePowersOfTen[e]) = true ∧
      exact Float.exactlyRepresentablePowersOfTen[e] = 10 ^ e.val := by
  decide +kernel

/-! ## Decimals -/

theorem zpow_of_nonneg (q : ℚ) {e : ℤ} (he : 0 ≤ e) : q ^ e = q ^ e.natAbs := by
  rw [← zpow_natCast, Int.natAbs_of_nonneg he]

theorem zpow_of_neg (q : ℚ) {e : ℤ} (he : e < 0) : q ^ e = (q ^ e.natAbs)⁻¹ := by
  rw [← zpow_natCast, ← zpow_neg, Int.ofNat_natAbs_of_nonpos he.le, neg_neg]

/-- A number that is not zero has at least the least unit for its size. -/
theorem two_zpow_le_abs_value (hu : Canonical u) (h : value u ≠ 0) :
    (2 : ℚ) ^ (-1074 : ℤ) ≤ |value u| := by
  rcases u with _ | _ | _ | ⟨s, m, e, hm⟩
  case finite =>
    have hone : (1 : ℚ) ≤ m := by exact_mod_cast hm
    have hexponent : (2 : ℚ) ^ (-1074 : ℤ) ≤ 2 ^ e := zpow_le_zpow_right₀ one_le_two hu.2.1
    rw [abs_value_finite]
    exact hexponent.trans (le_mul_of_one_le_left (two_zpow_pos e).le hone)
  all_goals exact absurd rfl h

/-- Zero is nearest to what is at most half the least unit in size. -/
theorem closest_zero (h : |v| ≤ 2 ^ (-1075 : ℤ)) : Closest v (.zero .positive) := by
  refine ⟨trivial, rfl, fun u hu => ?_⟩
  have hzero : value (.zero .positive) = 0 := rfl
  rw [hzero, sub_zero]
  rcases eq_or_ne (value u) 0 with hu' | hu'
  · rw [hu', sub_zero]
  · have hleast := two_zpow_le_abs_value hu hu'
    have hdouble : (2 : ℚ) ^ (-1074 : ℤ) = 2 ^ (-1075 : ℤ) + 2 ^ (-1075 : ℤ) := by
      rw [← two_mul, ← zpow_one_add₀ two_ne_zero]
      rfl
    have htriangle := abs_sub_abs_le_abs_sub (value u) v
    rw [abs_sub_comm] at htriangle
    linarith

/-- A decimal with an exponent that is far too low is nearest to zero. -/
theorem mul_zpow_le_of_lt {m : ℕ} {e : ℤ} (h : e < -(2 ^ 11 + m.log2)) :
    (m : ℚ) * 10 ^ e ≤ 2 ^ (-1075 : ℤ) := by
  have hm : (m : ℚ) ≤ 2 ^ (m.log2 + 1) := by exact_mod_cast Nat.lt_log2_self.le
  have hpow : (10 : ℚ) ^ e ≤ 2 ^ e := by
    have hinv : (2 : ℚ) ^ e.natAbs ≤ 10 ^ e.natAbs := pow_le_pow_left₀ (by norm_num) (by norm_num) _
    rw [zpow_of_neg 10 (by omega), zpow_of_neg 2 (by omega)]
    exact inv_anti₀ (by positivity) hinv
  calc (m : ℚ) * 10 ^ e ≤ 2 ^ (m.log2 + 1) * 2 ^ e :=
        mul_le_mul hm hpow (by positivity) (by positivity)
    _ = 2 ^ ((m.log2 + 1 : ℕ) + e) := by rw [zpow_add₀ two_ne_zero, zpow_natCast]
    _ ≤ 2 ^ (-1075 : ℤ) := zpow_le_zpow_right₀ one_le_two (by push_cast; omega)

/-- A decimal with an exponent that is far too high is no double. -/
theorem largest_lt_of_lt {m : ℕ} (hm : 0 < m) {e : ℤ} (h : 2 ^ 11 < e) :
    largest < (m : ℚ) * 10 ^ e := by
  have hone : (1 : ℚ) ≤ m := by exact_mod_cast hm
  have hpow : (2 : ℚ) ^ (1024 : ℤ) ≤ 10 ^ e := by
    have hbase : (2 : ℚ) ^ (1024 : ℕ) ≤ 10 ^ e.natAbs :=
      (pow_le_pow_left₀ (by norm_num) (by norm_num) _).trans
        (pow_le_pow_right₀ (by norm_num : (1 : ℚ) ≤ 10) (by omega))
    rw [zpow_of_nonneg 10 (by omega)]
    exact hbase
  calc largest < 2 ^ (1024 : ℤ) := largest_lt
    _ ≤ 10 ^ e := hpow
    _ ≤ m * 10 ^ e := le_mul_of_one_le_left (by positivity) hone

section Whole

variable {m n : ℕ}

theorem value_ofNat (hm : 0 < m) : value (.finite .positive m 0 hm) = m := by
  rw [value, signed, zpow_zero, mul_one]

/-- The product of two whole numbers, of which one was shifted to have digits enough. -/
theorem closest_shifted_mul (hm : 0 < m) (hn : 0 < n) :
    Closest (m * n) (UnpackedFloat.mul Format.binary64
      (.finite .positive (m <<< 53) (-53) (Nat.shiftLeft_pos_iff.2 hm)) (.finite .positive n 0 hn)) := by
  have hE : (-53 : ℤ) + 0 ≤ max (totalExponent (m <<< 53 * n) (-53 + 0) - 53) (-1074) := by
    have hlog : 53 ≤ (m <<< 53 * n).log2 := by
      rw [Nat.le_log2 (Nat.mul_pos (Nat.shiftLeft_pos_iff.2 hm) hn).ne', Nat.shiftLeft_eq]
      exact (Nat.le_mul_of_pos_left _ hm).trans (Nat.le_mul_of_pos_right _ hn)
    rw [totalExponent]
    omega
  have hvalue : value (.finite .positive (m <<< 53) (-53) (Nat.shiftLeft_pos_iff.2 hm)) = m := by
    have hunit : (2 : ℚ) ^ 53 * 2 ^ (-53 : ℤ) = 1 := by norm_num
    rw [value, signed, Nat.shiftLeft_eq, Nat.cast_mul, Nat.cast_pow, Nat.cast_ofNat, mul_assoc, hunit,
      mul_one]
  rw [← hvalue, ← value_ofNat hn]
  exact closest_mul_finite hE

theorem closest_div_ofNat (hm : 0 < m) (hn : 0 < n) :
    Closest (m / n) (UnpackedFloat.div Format.binary64 (.finite .positive m 0 hm)
      (.finite .positive n 0 hn)) := by
  rw [← value_ofNat hm, ← value_ofNat hn]
  exact closest_div_finite

end Whole

/-- A decimal in the range of the doubles is rounded to the nearest number, by a product or by a quotient of
whole numbers. -/
theorem closest_ofScientific {m : ℕ} {e : ℤ} (h : (m : ℚ) * 10 ^ e ≤ largest) :
    Closest (m * 10 ^ e) (UnpackedFloat.ofScientific Format.binary64 m e) := by
  unfold UnpackedFloat.ofScientific
  split
  · next hzero =>
    rw [hzero, Nat.cast_zero, zero_mul]
    exact closest_of_value_eq trivial rfl rfl
  · next hne =>
    have hm := Nat.pos_of_ne_zero hne
    split
    · next hhigh => exact absurd h (not_le.2 (largest_lt_of_lt hm hhigh))
    · split
      · next hlow =>
        refine closest_zero ?_
        rw [abs_of_nonneg (by positivity)]
        exact mul_zpow_le_of_lt hlow
      · split
        · next hpos =>
          have hclosest := closest_shifted_mul hm (Nat.pow_pos (by decide) : 0 < 10 ^ e.toNat)
          have hexponent : e.toNat = e.natAbs := by omega
          rw [Nat.cast_pow, Nat.cast_ofNat] at hclosest
          rw [zpow_of_nonneg 10 hpos, ← hexponent]
          exact hclosest
        · next hneg =>
          have hclosest := closest_div_ofNat hm (Nat.pow_pos (by decide) : 0 < 10 ^ (-e).toNat)
          have hexponent : (-e).toNat = e.natAbs := by omega
          rw [Nat.cast_pow, Nat.cast_ofNat] at hclosest
          rw [zpow_of_neg 10 (not_le.1 hneg), ← div_eq_mul_inv, ← hexponent]
          exact hclosest

/-- A decimal in the range of the doubles is read as the nearest double.  Where a short decimal is one
product or quotient of doubles, that is exact before it is rounded. -/
theorem nearest_ofScientific {m : ℕ} {e : ℤ} (h : (m : ℚ) * 10 ^ e ≤ largest) :
    Nearest (m * 10 ^ e) (Float.ofScientific m (e < 0) e.natAbs) := by
  have habs : |(m : ℚ) * 10 ^ e| ≤ largest := by
    rwa [abs_of_nonneg (by positivity)]
  unfold Float.ofScientific
  split
  · next hshort =>
    obtain ⟨hfinite, hm⟩ := exact_toFloat hshort.1
    obtain ⟨hfinite', hten⟩ := exact_powersOfTen ⟨e.natAbs, by omega⟩
    dsimp only at hfinite' hten ⊢
    split
    · next hneg =>
      have hpow : (10 : ℚ) ^ e.natAbs ≠ 0 := by positivity
      rw [zpow_of_neg 10 (of_decide_eq_true hneg), ← div_eq_mul_inv, ← hm, ← hten] at habs ⊢
      exact nearest_div hfinite (hten.trans_ne hpow) habs
    · next hpos =>
      have hnonneg : 0 ≤ e := not_lt.1 fun hlt => hpos (decide_eq_true hlt)
      rw [zpow_of_nonneg 10 hnonneg, ← hm, ← hten] at habs ⊢
      exact nearest_mul hfinite hfinite' habs
  · next hlong =>
    have he : (if decide (e < 0) = true then Int.negOfNat e.natAbs else Int.ofNat e.natAbs) = e := by
      rw [Int.negOfNat_eq]
      exact Numeral.signed_natAbs e
    dsimp only
    rw [he]
    exact (closest_ofScientific h).nearest habs rfl

/-- A decimal in the range of the doubles denotes the nearest double, also with a minus sign. -/
theorem nearest_nearestFloat (negative : Bool) {m : ℕ} {e : ℤ} (h : (m : ℚ) * 10 ^ e ≤ largest) :
    Nearest (signedRat negative (m * 10 ^ e)) (nearestFloat negative m e) := by
  have hnearest := nearest_ofScientific h
  cases negative with
  | true => exact hnearest.neg
  | false => exact hnearest

end LinearProgram.Double
