import LinearProgram.Proofs.Decimal.Nearest
import LinearProgram.Proofs.Double.Symmetric
/-!
# Correct rounding

A double is worth a rational, its `exact` value.  Products and quotients are calculated with whole numbers:
the digits behind the target exponent are cut off, and two bits keep what a rounding has to know of them,
whether they are nothing, less than a half, a half or more.  Here these bits are related to the part that was
cut off, and the result of the rounding to all other numbers.

The exponent has no upper end in this module, so that nothing is too large.

Proved:
* `Stands.shiftRight`: a cut keeps the two bits right.
* `Stands.isNearest`: a significand is rounded to the nearest whole number, a half to the even one.
* `closest_roundWithAccuracy`: no number is nearer to what is rounded than the result.
* `closest_mul`, `closest_div`: the same for products and quotients.
-/

namespace LinearProgram.Double

open Float.Model Float.Model.UnpackedFloat

/-! ## Exact values -/

/-- A number under a sign. -/
def signed : UnpackedFloat.Sign → ℚ → ℚ
  | .negative, q => -q
  | .positive, q => q

/-- The exact value of a number. -/
def value : UnpackedFloat → ℚ
  | .finite s m e _ => signed s (m * 2 ^ e)
  | _ => 0

/-- The exact value of a double. -/
def exact (x : Float) : ℚ := value (parts x)

theorem two_zpow_pos (e : ℤ) : (0 : ℚ) < 2 ^ e := zpow_pos two_pos e

theorem signed_mul (s s' : UnpackedFloat.Sign) (q q' : ℚ) :
    signed (s * s') (q * q') = signed s q * signed s' q' := by
  cases s <;> cases s'
  · exact (neg_mul_neg q q').symm
  · exact (neg_mul q q').symm
  · exact (mul_neg q q').symm
  · rfl

theorem signed_div (s s' : UnpackedFloat.Sign) (q q' : ℚ) :
    signed (s / s') (q / q') = signed s q / signed s' q' := by
  cases s <;> cases s'
  · exact (neg_div_neg_eq q q').symm
  · exact (neg_div q' q).symm
  · exact (div_neg q).symm
  · rfl

theorem value_neg (u : UnpackedFloat) : value u.neg = -value u := by
  rcases u with _ | _ | _ | ⟨(_ | _), m, e, hm⟩
  case finite.negative => exact (neg_neg _).symm
  case finite.positive => rfl
  all_goals exact neg_zero.symm

/-! ## What a cut leaves behind -/

/-- The part that is cut off from behind a whole number, as a rounding is told of it. -/
def Describes : Accuracy → ℚ → Prop
  | .exact, f => f = 0
  | .inexact .lt, f => 0 < f ∧ f < 1 / 2
  | .inexact .eq, f => f = 1 / 2
  | .inexact .gt, f => 1 / 2 < f ∧ f < 1

/-- A significand with its further bits stands for a number. -/
def Stands (em : ExtendedMantissa) (q : ℚ) : Prop := Describes em.accuracy (q - em.mantissa)

theorem stands_ofMantissaAndAccuracy {m : ℕ} {a : Accuracy} {f : ℚ} (h : Describes a f) :
    Stands (.ofMantissaAndAccuracy m a) (m + f) := by
  have haccuracy : (ExtendedMantissa.ofMantissaAndAccuracy m a).accuracy = a := by
    rcases a with _ | (_ | _ | _) <;> rfl
  rw [Stands, haccuracy, mantissa_ofMantissaAndAccuracy, add_sub_cancel_left]
  exact h

/-- The fraction that a division leaves. -/
theorem describes_accuracyOfFraction {r d : ℕ} (hr : r < d) :
    Describes (accuracyOfFraction r d) (r / d) := by
  have hd : (0 : ℚ) < d := by exact_mod_cast Nat.zero_lt_of_lt hr
  have hlt : (r : ℚ) / d < 1 := (div_lt_one hd).2 (by exact_mod_cast hr)
  unfold accuracyOfFraction
  split
  · next hzero => simp [Describes, hzero]
  · next hne =>
    have hpos : (0 : ℚ) < r / d := div_pos (by exact_mod_cast Nat.pos_of_ne_zero hne) hd
    have htwice : ((2 * r : ℕ) : ℚ) = 2 * r := by push_cast; rfl
    cases hcompare : compare (2 * r) d with
    | lt =>
      have hhalf : ((2 * r : ℕ) : ℚ) < d := by exact_mod_cast compare_lt_iff_lt.1 hcompare
      refine ⟨hpos, (div_lt_iff₀ hd).2 ?_⟩
      linarith
    | eq =>
      have hhalf : ((2 * r : ℕ) : ℚ) = d := by exact_mod_cast compare_eq_iff_eq.1 hcompare
      refine (div_eq_iff hd.ne').2 ?_
      linarith
    | gt =>
      have hhalf : (d : ℚ) < ((2 * r : ℕ) : ℚ) := by exact_mod_cast compare_gt_iff_gt.1 hcompare
      refine ⟨(lt_div_iff₀ hd).2 ?_, hlt⟩
      linarith

/-- Cutting off one more bit halves the number. -/
theorem Stands.shiftRightOne {em : ExtendedMantissa} {q : ℚ} (h : Stands em q) :
    Stands em.shiftRightOne (q / 2) := by
  obtain ⟨m, roundBit, stickyBit⟩ := em
  obtain ⟨half, rfl | rfl⟩ := m.even_or_odd'
  · have hdiv : 2 * half / 2 = half := by omega
    have hmod : (2 * half % 2 != 0) = false := by simp
    cases roundBit <;> cases stickyBit <;>
      simp only [Stands, Describes, ExtendedMantissa.accuracy, ExtendedMantissa.shiftRightOne, hdiv,
        hmod, Bool.or_true, Bool.or_false, Nat.cast_mul, Nat.cast_ofNat] at h ⊢
    · linarith
    · exact ⟨by linarith, by linarith⟩
    · exact ⟨by linarith, by linarith⟩
    · exact ⟨by linarith, by linarith⟩
  · have hdiv : (2 * half + 1) / 2 = half := by omega
    have hmod : ((2 * half + 1) % 2 != 0) = true := by
      rw [bne_iff_ne]
      omega
    cases roundBit <;> cases stickyBit <;>
      simp only [Stands, Describes, ExtendedMantissa.accuracy, ExtendedMantissa.shiftRightOne, hdiv,
        hmod, Bool.or_true, Bool.or_false, Nat.cast_mul, Nat.cast_ofNat, Nat.cast_add, Nat.cast_one] at h ⊢
    · linarith
    · exact ⟨by linarith, by linarith⟩
    · exact ⟨by linarith, by linarith⟩
    · exact ⟨by linarith, by linarith⟩

theorem Stands.shiftRight {em : ExtendedMantissa} {q : ℚ} (h : Stands em q) (k : ℕ) :
    Stands (em >>> k) (q / 2 ^ k) := by
  induction k with
  | zero => simpa [HShiftRight.hShiftRight, Nat.repeat] using h
  | succ k ih =>
    have hstep : em >>> (k + 1) = (em >>> k).shiftRightOne := rfl
    rw [hstep, pow_succ, ← div_div]
    exact ih.shiftRightOne

/-- A significand is rounded to the nearest whole number. -/
theorem Stands.isNearest {em : ExtendedMantissa} {q : ℚ} (h : Stands em q) :
    IsNearest 1 q em.roundedMantissa := by
  rw [isNearest_iff one_pos, ExtendedMantissa.roundedMantissa]
  rw [Stands] at h
  generalize em.mantissa = m at h ⊢
  generalize em.accuracy = a at h ⊢
  rcases a with _ | (_ | _ | _) <;>
    simp only [Describes, Accuracy.roundToNearestEven, Int.cast_natCast, mul_one] at h ⊢
  · rw [h, abs_zero]
    exact ⟨by norm_num, fun htie => absurd htie (by norm_num)⟩
  · rw [abs_of_pos h.1]
    exact ⟨h.2.le, fun htie => absurd htie h.2.ne⟩
  · -- A tie goes to the even one of the two.
    rcases Nat.mod_two_eq_zero_or_one m with heven | hodd
    · rw [heven, add_zero, h]
      exact ⟨by norm_num, fun _ => by exact_mod_cast Nat.even_iff.2 heven⟩
    · have hdist : q - ((m + 1 : ℕ) : ℚ) = -(1 / 2) := by
        push_cast
        linarith
      rw [hodd, hdist]
      refine ⟨by norm_num, fun _ => ?_⟩
      exact_mod_cast Nat.even_add_one.2 (Nat.not_even_iff.2 hodd)
  · have hneg : q - ((m + 1 : ℕ) : ℚ) < 0 := by
      push_cast
      linarith
    rw [abs_of_neg hneg]
    push_cast
    exact ⟨by linarith, fun htie => absurd htie (by linarith)⟩

/-! ## The nearest number -/

variable {M : ℕ} {E T : ℤ} {a : Accuracy} {f : ℚ}

theorem two_zpow_sub {i j : ℤ} (h : j ≤ i) : (2 : ℚ) ^ i = 2 ^ (i - j).toNat * 2 ^ j := by
  rw [← zpow_natCast, ← zpow_add₀ two_ne_zero]
  congr 1
  omega

/-- Only the least significand with one digit too many is cut again, and that loses nothing. -/
theorem carry_exact {R : ℕ} {T' : ℤ} (hR : R ≤ 2 ^ 53) (hT : -1074 ≤ T) (hle : T ≤ T')
    (hT' : T' = max (totalExponent R T - 53) (-1074)) :
    ((R / 2 ^ (T' - T).toNat : ℕ) : ℚ) * 2 ^ T' = R * 2 ^ T := by
  rw [totalExponent] at hT'
  rcases hle.eq_or_lt with heq | hcut
  · rw [← heq, sub_self, Int.toNat_zero, pow_zero, Nat.div_one]
  · have hlog : 53 ≤ R.log2 := by omega
    have hpower : R = 2 ^ 53 := by
      have hne : R ≠ 0 := by
        rintro hzero
        rw [hzero, Nat.log2_zero] at hlog
        omega
      exact le_antisymm hR ((Nat.le_log2 hne).1 hlog)
    have hlog' : R.log2 = 53 := by rw [hpower, Nat.log2_two_pow]
    have hnext : T' = T + 1 := by omega
    rw [hnext, add_sub_cancel_left, hpower, zpow_add_one₀ two_ne_zero]
    norm_num
    ring

/-- What is rounded goes to the nearest multiple of the unit of its target exponent. -/
theorem exists_value_roundWithAccuracy (hf : Describes a f)
    (hT : T = max (totalExponent M E - 53) (-1074)) (hE : E ≤ T) :
    ∃ R : ℕ, IsNearest (2 ^ T) ((M + f) * 2 ^ E) R ∧
      value (roundWithAccuracy Format.binary64 .positive M E a) = R * 2 ^ T := by
  set k := (T - E).toNat with hk
  set R := (ExtendedMantissa.ofMantissaAndAccuracy M a >>> k).roundedMantissa with hR
  refine ⟨R, ?_, ?_⟩
  · have hstands : Stands (.ofMantissaAndAccuracy M a) (M + f) := stands_ofMantissaAndAccuracy hf
    have hnearest := (hstands.shiftRight k).isNearest.scale (two_zpow_pos T)
    have hscaled : (M + f) / 2 ^ k * 2 ^ T = (M + f) * 2 ^ E := by
      rw [two_zpow_sub hE, ← hk]
      field_simp
    rwa [one_mul, hscaled] at hnearest
  · obtain ⟨hle, hround⟩ := roundWithAccuracy_eq .positive a hT hE hR rfl
    obtain ⟨hle', -, -⟩ := carry_bounds a hT hE hR
    have hexact := carry_exact hle' (by omega) hle rfl
    rw [hround, ← hexact]
    split
    · next hzero =>
      rw [hzero, Nat.cast_zero, zero_mul]
      rfl
    · rfl

/-- What fits is left as it is. -/
theorem value_roundWithAccuracy_exact (hE : E = max (totalExponent M E - 53) (-1074)) :
    value (roundWithAccuracy Format.binary64 .positive M E .exact) = M * 2 ^ E := by
  obtain ⟨R, hR, hvalue⟩ := exists_value_roundWithAccuracy (show Describes .exact 0 from rfl) hE le_rfl
  have hself : IsNearest (2 ^ E) (((M : ℤ) : ℚ) * 2 ^ E) M := isNearest_self (two_zpow_pos E) M
  rw [add_zero] at hR
  have heq : (R : ℤ) = M := hR.eq (two_zpow_pos E) hself
  rw [hvalue, Int.natCast_inj.1 heq]

theorem Describes.nonneg (h : Describes a f) : 0 ≤ f := by
  rcases a with _ | (_ | _ | _) <;> simp only [Describes] at h <;> linarith

section Finite

variable {s : UnpackedFloat.Sign} {m : ℕ} {e : ℤ} {hm : 0 < m}

/-- A number of a larger unit is a multiple of the unit. -/
theorem exists_value_eq_mul (h : T ≤ e) : ∃ j : ℤ, value (.finite s m e hm) = j * 2 ^ T := by
  refine ⟨s.apply (m * 2 ^ (e - T).toNat : ℕ), ?_⟩
  rw [value, two_zpow_sub h]
  cases s with
  | negative =>
    simp only [signed, UnpackedFloat.Sign.apply]
    push_cast
    ring
  | positive =>
    simp only [signed, UnpackedFloat.Sign.apply]
    push_cast
    ring

/-- A number of a smaller unit is at most the least number of the unit that has all digits. -/
theorem value_le_of_lt (hlt : m < 2 ^ 53) (h : e < T) :
    value (.finite s m e hm) ≤ 2 ^ 52 * 2 ^ T := by
  have hpos : (0 : ℚ) < m * 2 ^ e := mul_pos (by exact_mod_cast hm) (two_zpow_pos e)
  have hle : value (.finite s m e hm) ≤ m * 2 ^ e := by
    cases s with
    | negative => exact (neg_lt_self hpos).le
    | positive => exact le_rfl
  have hexponent : (2 : ℚ) ^ (e + 1) ≤ 2 ^ T := zpow_le_zpow_right₀ one_le_two (by omega)
  have hlt' : (m : ℚ) ≤ 2 ^ 53 := by exact_mod_cast hlt.le
  calc value (.finite s m e hm) ≤ m * 2 ^ e := hle
    _ ≤ 2 ^ 53 * 2 ^ e := mul_le_mul_of_nonneg_right hlt' (two_zpow_pos e).le
    _ = 2 ^ 52 * 2 ^ (e + 1) := by rw [zpow_add_one₀ two_ne_zero]; ring
    _ ≤ 2 ^ 52 * 2 ^ T := mul_le_mul_of_nonneg_left hexponent (by positivity)

end Finite

/-- What has all digits behind a cut is at least the least number of the unit with all digits. -/
theorem le_of_cut (hf : Describes a f) (hE : E ≤ T) (h : 2 ^ 52 ≤ M / 2 ^ (T - E).toNat) :
    2 ^ 52 * 2 ^ T ≤ (M + f) * 2 ^ E := by
  have hM : 2 ^ 52 * 2 ^ (T - E).toNat ≤ M := (Nat.le_div_iff_mul_le (Nat.two_pow_pos _)).1 h
  have hM' : (2 : ℚ) ^ 52 * 2 ^ (T - E).toNat ≤ M + f := by
    have hcast : (2 : ℚ) ^ 52 * 2 ^ (T - E).toNat ≤ M := by exact_mod_cast hM
    exact hcast.trans (le_add_of_nonneg_right hf.nonneg)
  rw [two_zpow_sub hE, ← mul_assoc]
  exact mul_le_mul_of_nonneg_right hM' (two_zpow_pos E).le

/-- No number is nearer to what is rounded, among those with an exponent of any size. -/
theorem le_abs_roundWithAccuracy (hf : Describes a f)
    (hE : E ≤ max (totalExponent M E - 53) (-1074)) {u : UnpackedFloat} (hu : Canonical u) :
    |(M + f) * 2 ^ E - value (roundWithAccuracy Format.binary64 .positive M E a)| ≤
      |(M + f) * 2 ^ E - value u| := by
  set T := max (totalExponent M E - 53) (-1074) with hT
  obtain ⟨R, hR, hvalue⟩ := exists_value_roundWithAccuracy hf hT hE
  have hnear (j : ℤ) := hR.near j
  rw [Int.cast_natCast, ← hvalue] at hnear
  rcases u with _ | _ | _ | ⟨s, m, e, hm⟩
  case finite =>
    obtain ⟨hlt, hge, -⟩ := hu
    rcases le_or_gt T e with he | he
    · obtain ⟨j, hj⟩ : ∃ j : ℤ, value (.finite s m e hm) = j * 2 ^ T := exists_value_eq_mul he
      rw [hj]
      exact hnear j
    · -- Only above the least exponent are there smaller units, and there nothing lacks a digit.
      obtain ⟨-, hnormal, -⟩ := cut_bounds hT hE rfl
      have hlarge := le_of_cut hf hE (hnormal.resolve_right (by omega))
      have hsmall : value (.finite s m e hm) ≤ 2 ^ 52 * 2 ^ T := value_le_of_lt hlt he
      have hleast := hnear (2 ^ 52 : ℕ)
      rw [Int.cast_natCast, Nat.cast_pow, Nat.cast_ofNat,
        abs_of_nonneg (sub_nonneg.2 hlarge)] at hleast
      rw [abs_of_nonneg (sub_nonneg.2 (hsmall.trans hlarge))]
      linarith
  all_goals
    have hzero := hnear 0
    rwa [Int.cast_zero, zero_mul] at hzero

/-- A canonical number that no other is nearer to a value than, among those with an exponent of any size. -/
structure Closest (v : ℚ) (u : UnpackedFloat) : Prop where
  canonical : Canonical u
  isFinite : u.isFinite = true
  near : ∀ u', Canonical u' → |v - value u| ≤ |v - value u'|

theorem Closest.neg {v : ℚ} {u : UnpackedFloat} (h : Closest v u) : Closest (-v) u.neg where
  canonical := canonical_neg h.canonical
  isFinite := (isFinite_neg u).trans h.isFinite
  near u' hu' := by
    rw [abs_neg_sub, abs_neg_sub, value_neg, neg_neg, ← value_neg]
    exact h.near _ (canonical_neg hu')

theorem closest_of_value_eq {v : ℚ} {u : UnpackedFloat} (hu : Canonical u) (hu' : u.isFinite = true)
    (h : value u = v) : Closest v u :=
  ⟨hu, hu', fun u' _ => by rw [h, sub_self, abs_zero]; exact abs_nonneg _⟩

theorem closest_roundWithAccuracy (s : UnpackedFloat.Sign) (hf : Describes a f)
    (hE : E ≤ max (totalExponent M E - 53) (-1074)) :
    Closest (signed s ((M + f) * 2 ^ E)) (roundWithAccuracy Format.binary64 s M E a) := by
  have hpositive : Closest ((M + f) * 2 ^ E) (roundWithAccuracy Format.binary64 .positive M E a) := by
    have hrounded := rounded_roundWithAccuracy .positive a hE
    exact ⟨hrounded.canonical, hrounded.isFinite, fun u hu => le_abs_roundWithAccuracy hf hE hu⟩
  cases s with
  | negative =>
    have hneg : roundWithAccuracy Format.binary64 .negative M E a =
        (roundWithAccuracy Format.binary64 .positive M E a).neg := roundWithAccuracy_neg .positive M E a
    rw [hneg]
    exact hpositive.neg
  | positive => exact hpositive

/-! ## Products and quotients -/

section Operations

variable {s s' : UnpackedFloat.Sign} {m m' : ℕ} {e e' : ℤ} {hm : 0 < m} {hm' : 0 < m'}
  {u v : UnpackedFloat}

theorem closest_mul_finite (hE : e + e' ≤ max (totalExponent (m * m') (e + e') - 53) (-1074)) :
    Closest (value (.finite s m e hm) * value (.finite s' m' e' hm'))
      (UnpackedFloat.mul Format.binary64 (.finite s m e hm) (.finite s' m' e' hm')) := by
  have hclosest := closest_roundWithAccuracy (s * s') (show Describes .exact 0 from rfl) hE
  have hvalue : ((m * m' : ℕ) + 0 : ℚ) * 2 ^ (e + e') = m * 2 ^ e * (m' * 2 ^ e') := by
    rw [zpow_add₀ two_ne_zero]
    push_cast
    ring
  rw [hvalue, signed_mul] at hclosest
  exact hclosest

theorem closest_div_finite :
    Closest (value (.finite s' m' e' hm') / value (.finite s m e hm))
      (UnpackedFloat.div Format.binary64 (.finite s' m' e' hm') (.finite s m e hm)) := by
  obtain ⟨k, E, hk, hdiv, hE, -⟩ := exists_div_eq s s' hm hm' e e'
  have hclosest := closest_roundWithAccuracy (s' / s)
    (describes_accuracyOfFraction (Nat.mod_lt (m' * 2 ^ k) hm)) hE
  have hm'' : (m : ℚ) ≠ 0 := by exact_mod_cast hm.ne'
  have hquotient : ((m' * 2 ^ k / m : ℕ) : ℚ) + (m' * 2 ^ k % m : ℕ) / m = m' * 2 ^ k / m := by
    have hdivMod : (m : ℚ) * (m' * 2 ^ k / m : ℕ) + (m' * 2 ^ k % m : ℕ) = m' * 2 ^ k := by
      exact_mod_cast Nat.div_add_mod (m' * 2 ^ k) m
    rw [← hdivMod]
    field_simp
  have hvalue : (m' : ℚ) * 2 ^ k / m * 2 ^ E = m' * 2 ^ e' / (m * 2 ^ e) := by
    have hexponent : (2 : ℚ) ^ e' = 2 ^ E * 2 ^ k * 2 ^ e := by
      rw [← zpow_natCast, ← zpow_add₀ two_ne_zero, ← zpow_add₀ two_ne_zero]
      congr 1
      omega
    have hpos := (two_zpow_pos e).ne'
    rw [hexponent]
    field_simp
  rw [hquotient, hvalue, signed_div] at hclosest
  rw [hdiv]
  exact hclosest

theorem closest_mul (hu : Canonical u) (hv : Canonical v) (hu' : u.isFinite = true)
    (hv' : v.isFinite = true) :
    Closest (value u * value v) (UnpackedFloat.mul Format.binary64 u v) := by
  rcases u with _ | _ | s | ⟨s, m, e, hm⟩
  case infinity => cases hu'
  case notANumber => cases hu'
  case zero =>
    have hzero : (0 : ℚ) = 0 * value v := (zero_mul _).symm
    rcases v with _ | _ | s' | ⟨s', m', e', hm'⟩
    case infinity => cases hv'
    case notANumber => cases hv'
    all_goals exact closest_of_value_eq trivial rfl hzero
  case finite =>
    rcases v with _ | _ | s' | ⟨s', m', e', hm'⟩
    case infinity => cases hv'
    case notANumber => cases hv'
    case zero => exact closest_of_value_eq trivial rfl (mul_zero _).symm
    case finite => exact closest_mul_finite (mul_exponent_le hu hv)

/-- The divisor is not zero. -/
theorem closest_div (hu' : u.isFinite = true) (hv' : value v ≠ 0) :
    Closest (value u / value v) (UnpackedFloat.div Format.binary64 u v) := by
  rcases v with _ | _ | s | ⟨s, m, e, hm⟩
  case finite =>
    rcases u with _ | _ | s' | ⟨s', m', e', hm'⟩
    case infinity => cases hu'
    case notANumber => cases hu'
    case zero => exact closest_of_value_eq trivial rfl (zero_div _).symm
    case finite => exact closest_div_finite
  all_goals exact absurd rfl hv'

end Operations

end LinearProgram.Double
