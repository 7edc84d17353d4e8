import LinearProgram.Proofs.Double.Parts
/-!
# Rounding to a double

Results of arithmetic are rounded to 53 binary digits, or to fewer at the least exponent.  What is
rounded is a significand `M` with an exponent `E`, the place of its leading digit is
`totalExponent M E`, and the digits behind the target exponent are cut off.  Rounding may carry into
one more digit and no further.

Proved:
* `cut_bounds`: the significand that is left of a cut has at most 53 digits, and 53 except at the least
  exponent.
* `roundWithAccuracy_eq`: what a rounding gives, with the cut after a carry.
* `rounded_roundWithAccuracy`: what is rounded is canonical, and its leading digit moves up by at most
  one place.
* `rounded_round`, `rounded_normalize`: the same where the significand may have too few digits at first,
  or a sign.
-/

namespace LinearProgram.Double

open Float.Model Float.Model.UnpackedFloat

/-! ## Lengths of numbers -/

theorem log2_le_log2 {m n : ℕ} (h : m ≤ n) : m.log2 ≤ n.log2 := by
  rw [Nat.log2_eq_log_two, Nat.log2_eq_log_two]
  exact Nat.log_mono_right h

theorem log2_div_pow (n k : ℕ) : (n / 2 ^ k).log2 = n.log2 - k := by
  rw [Nat.log2_eq_log_two, Nat.log2_eq_log_two, Nat.log_div_base_pow]

theorem log2_succ_le (n : ℕ) : (n + 1).log2 ≤ n.log2 + 1 := by
  have hlt : n < 2 ^ (n.log2 + 1) := Nat.lt_log2_self
  have hpow : 2 ^ (n.log2 + 2) = 2 ^ (n.log2 + 1) * 2 := by rw [← Nat.pow_succ]
  have hlog : (n + 1).log2 < n.log2 + 2 := (Nat.log2_lt (Nat.succ_ne_zero n)).2 (by omega)
  omega

theorem log2_mul_le {m n : ℕ} (hm : 0 < m) (hn : 0 < n) :
    (m * n).log2 ≤ m.log2 + n.log2 + 1 := by
  have hlt : m * n < 2 ^ (m.log2 + 1) * 2 ^ (n.log2 + 1) :=
    Nat.mul_lt_mul'' Nat.lt_log2_self Nat.lt_log2_self
  rw [← Nat.pow_add] at hlt
  have hlog := (Nat.log2_lt (Nat.mul_pos hm hn).ne').2 hlt
  omega

theorem log2_add_le (m n : ℕ) : (m + n).log2 ≤ max m.log2 n.log2 + 1 := by
  have hm : m < 2 ^ (m.log2 + 1) := Nat.lt_log2_self
  have hn : n < 2 ^ (n.log2 + 1) := Nat.lt_log2_self
  have hm' : 2 ^ (m.log2 + 1) ≤ 2 ^ (max m.log2 n.log2 + 1) :=
    Nat.pow_le_pow_right Nat.two_pos (by omega)
  have hn' : 2 ^ (n.log2 + 1) ≤ 2 ^ (max m.log2 n.log2 + 1) :=
    Nat.pow_le_pow_right Nat.two_pos (by omega)
  have hpow : 2 ^ (max m.log2 n.log2 + 2) = 2 ^ (max m.log2 n.log2 + 1) * 2 := by
    rw [← Nat.pow_succ]
  by_cases hzero : m + n = 0
  · rw [hzero, Nat.log2_zero]
    omega
  · have hlog : (m + n).log2 < max m.log2 n.log2 + 2 := (Nat.log2_lt hzero).2 (by omega)
    omega

theorem log2_mul_pow {n : ℕ} (hn : 0 < n) (k : ℕ) : (n * 2 ^ k).log2 = n.log2 + k := by
  have hpos : 0 < n * 2 ^ k := Nat.mul_pos hn (Nat.two_pow_pos k)
  have hdiv := log2_div_pow (n * 2 ^ k) k
  rw [Nat.mul_div_cancel _ (Nat.two_pow_pos k)] at hdiv
  have hk : k ≤ (n * 2 ^ k).log2 := by
    rw [Nat.le_log2 hpos.ne']
    exact Nat.le_mul_of_pos_left _ hn
  omega

/-- A quotient has the digits that its numerator has more than its denominator, or one less. -/
theorem log2_div_bounds (m : ℕ) {n : ℕ} (hn : 0 < n) :
    m.log2 ≤ (m / n).log2 + n.log2 + 1 ∧ (m / n ≠ 0 → (m / n).log2 + n.log2 ≤ m.log2) := by
  have hlt : m < n * (m / n + 1) := Nat.lt_mul_div_succ m hn
  have hle : m / n * n ≤ m := Nat.div_mul_le_self m n
  constructor
  · by_cases hm : m = 0
    · rw [hm, Nat.log2_zero]
      omega
    · have hquotient : m / n + 1 ≤ 2 ^ ((m / n).log2 + 1) := Nat.lt_log2_self
      have hdenominator : n < 2 ^ (n.log2 + 1) := Nat.lt_log2_self
      have hprod : m < 2 ^ (n.log2 + 1) * 2 ^ ((m / n).log2 + 1) :=
        hlt.trans_le (Nat.mul_le_mul hdenominator.le hquotient)
      rw [← Nat.pow_add] at hprod
      have hlog := (Nat.log2_lt hm).2 hprod
      omega
  · intro hquotient
    have hpos : 0 < m := Nat.pos_of_ne_zero fun hm => hquotient (by rw [hm, Nat.zero_div])
    have hprod : 2 ^ ((m / n).log2 + n.log2) ≤ m := by
      rw [Nat.pow_add]
      exact (Nat.mul_le_mul (Nat.log2_self_le hquotient) (Nat.log2_self_le hn.ne')).trans hle
    exact (Nat.le_log2 hpos.ne').2 hprod

/-! ## Cutting and rounding -/

theorem targetExponent_eq (t : ℤ) : Format.binary64.targetExponent t = max (t - 53) (-1074) := rfl

theorem mantissa_shiftRight (em : ExtendedMantissa) (k : ℕ) :
    (em >>> k).mantissa = em.mantissa / 2 ^ k := by
  induction k with
  | zero => simp [HShiftRight.hShiftRight, Nat.repeat]
  | succ k ih =>
    have hstep : em >>> (k + 1) = (em >>> k).shiftRightOne := rfl
    rw [hstep, ExtendedMantissa.shiftRightOne, ih, Nat.div_div_eq_div_mul, Nat.pow_succ]

theorem mantissa_ofMantissaAndAccuracy (m : ℕ) (a : Accuracy) :
    (ExtendedMantissa.ofMantissaAndAccuracy m a).mantissa = m := by
  rcases a with _ | (_ | _ | _) <;> rfl

/-- Rounding adds at most one unit. -/
theorem roundedMantissa_bounds (em : ExtendedMantissa) :
    em.mantissa ≤ em.roundedMantissa ∧ em.roundedMantissa ≤ em.mantissa + 1 := by
  rcases em with ⟨m, (_ | _), (_ | _)⟩ <;>
    simp [ExtendedMantissa.roundedMantissa, ExtendedMantissa.accuracy,
      Accuracy.roundToNearestEven]
  omega

variable {M : ℕ} {E T : ℤ}

/-- A significand that is cut to its target exponent has 53 digits, or fewer at the least exponent; if
anything is left of it the leading digit stays in its place. -/
theorem cut_bounds (hT : T = max (totalExponent M E - 53) (-1074)) (hE : E ≤ T) {cut : ℕ}
    (hcut : cut = M / 2 ^ (T - E).toNat) :
    cut < 2 ^ 53 ∧ (2 ^ 52 ≤ cut ∨ T = -1074) ∧
      (cut = 0 ∨ totalExponent cut T = totalExponent M E) := by
  have hlog : cut.log2 = M.log2 - (T - E).toNat := by rw [hcut, log2_div_pow]
  rw [totalExponent] at hT ⊢
  have hlt : cut < 2 ^ 53 := by
    by_cases hzero : cut = 0
    · omega
    · rw [← Nat.log2_lt hzero]
      omega
  refine ⟨hlt, ?_, ?_⟩
  · by_cases hleast : T = -1074
    · exact .inr hleast
    · left
      have hM : M ≠ 0 := by
        rintro rfl
        rw [Nat.log2_zero] at hT
        omega
      have hle : 2 ^ (52 + (T - E).toNat) ≤ M := by
        rw [← Nat.le_log2 hM]
        omega
      rw [hcut, Nat.le_div_iff_mul_le (Nat.two_pow_pos _), ← Nat.pow_add]
      exact hle
  · by_cases hzero : cut = 0
    · exact .inl hzero
    · right
      have hM : M ≠ 0 := by
        rintro rfl
        exact hzero (by rw [hcut, Nat.zero_div])
      have hle : 2 ^ (T - E).toNat ≤ M := by
        rw [hcut, Nat.div_eq_zero_iff] at hzero
        omega
      rw [← Nat.le_log2 hM] at hle
      rw [totalExponent]
      omega

theorem shiftToTargetExponent_eq (hT : T = max (totalExponent M E - 53) (-1074)) (hE : E ≤ T)
    (a : Accuracy) :
    shiftToTargetExponent Format.binary64 M E a =
      (ExtendedMantissa.ofMantissaAndAccuracy M a >>> (T - E).toNat, T) := by
  have hexponent : E + ((T - E).toNat : ℤ) = T := by omega
  have hshift : shiftToTargetExponent Format.binary64 M E a =
      (ExtendedMantissa.ofMantissaAndAccuracy M a >>> (T - E).toNat, E + (T - E).toNat) := by
    rw [hT]
    rfl
  rw [hshift, hexponent]

/-- A canonical number with its leading digit at the place `k` or below, or among those that have the
least exponent. -/
structure Rounded (k : ℤ) (u : UnpackedFloat) : Prop where
  canonical : Canonical u
  isFinite : u.isFinite = true
  top_le : top u ≤ max k (-1022)

theorem rounded_zero (s : Sign) (k : ℤ) : Rounded k (.zero s) :=
  ⟨trivial, rfl, by rw [top]; omega⟩

theorem Rounded.mono {k l : ℤ} {u : UnpackedFloat} (h : Rounded k u) (hkl : k ≤ l) : Rounded l u :=
  ⟨h.canonical, h.isFinite, by have := h.top_le; omega⟩

/-- A significand that was cut and then rounded may have got one digit too many, but then it is the least
with that many. -/
theorem carry_bounds (a : Accuracy) (hT : T = max (totalExponent M E - 53) (-1074)) (hE : E ≤ T) {R : ℕ}
    (hR : R = (ExtendedMantissa.ofMantissaAndAccuracy M a >>> (T - E).toNat).roundedMantissa) :
    R ≤ 2 ^ 53 ∧ (2 ^ 52 ≤ R ∨ T = -1074) ∧
      totalExponent R T ≤ max (totalExponent M E + 1) (-1073) := by
  set em := ExtendedMantissa.ofMantissaAndAccuracy M a >>> (T - E).toNat with hem
  have hcut : em.mantissa = M / 2 ^ (T - E).toNat := by
    rw [hem, mantissa_shiftRight, mantissa_ofMantissaAndAccuracy]
  obtain ⟨hlt, hnormal, hplace⟩ := cut_bounds hT hE hcut
  obtain ⟨hle, hle'⟩ := roundedMantissa_bounds em
  refine ⟨by omega, by omega, ?_⟩
  have hlog : R.log2 ≤ em.mantissa.log2 + 1 := hR ▸ (log2_le_log2 hle').trans (log2_succ_le _)
  rcases hplace with hzero | hplace
  · have hone : R.log2 ≤ (1 : ℕ).log2 := log2_le_log2 (by omega)
    have hlog : (1 : ℕ).log2 = 0 := by decide
    rw [totalExponent]
    omega
  · rw [totalExponent] at hplace ⊢
    omega

/-- What is rounded is cut to its target exponent, rounded, and cut to the target exponent of that. -/
theorem roundWithAccuracy_eq (s : Sign) (a : Accuracy)
    (hT : T = max (totalExponent M E - 53) (-1074)) (hE : E ≤ T) {R : ℕ}
    (hR : R = (ExtendedMantissa.ofMantissaAndAccuracy M a >>> (T - E).toNat).roundedMantissa) {T' : ℤ}
    (hT' : T' = max (totalExponent R T - 53) (-1074)) :
    T ≤ T' ∧ roundWithAccuracy Format.binary64 s M E a =
      if h : R / 2 ^ (T' - T).toNat = 0 then .zero s
      else .finite s (R / 2 ^ (T' - T).toNat) T' (Nat.pos_of_ne_zero h) := by
  have hle : T ≤ T' := by
    rcases (carry_bounds a hT hE hR).2.1 with hnormal | hleast
    · have hlog : 52 ≤ R.log2 := (Nat.le_log2 (by omega)).2 (by omega)
      rw [hT', totalExponent]
      omega
    · omega
  refine ⟨hle, ?_⟩
  rw [roundWithAccuracy, shiftToTargetExponent_eq hT hE]
  simp only [← hR, shiftToTargetExponent_eq hT' hle, mantissa_shiftRight,
    mantissa_ofMantissaAndAccuracy]

/-- What is rounded is canonical, and its leading digit moves up by at most one place. -/
theorem rounded_roundWithAccuracy (s : Sign) (a : Accuracy)
    (hE : E ≤ max (totalExponent M E - 53) (-1074)) :
    Rounded (totalExponent M E + 1) (roundWithAccuracy Format.binary64 s M E a) := by
  obtain ⟨-, -, hcarry⟩ := carry_bounds a rfl hE rfl
  obtain ⟨hle, hround⟩ := roundWithAccuracy_eq s a rfl hE rfl rfl
  obtain ⟨hlt, hnormal, hplace⟩ := cut_bounds rfl hle rfl
  rw [hround]
  split
  · exact rounded_zero s _
  · next hne =>
    refine ⟨⟨hlt, by omega, hnormal⟩, rfl, ?_⟩
    rw [top, hplace.resolve_left hne]
    omega

/-- A significand may have too few digits at first; then it is filled up with zeros. -/
theorem exists_round_eq (s : Sign) (hM : 0 < M) (E : ℤ) :
    ∃ k : ℕ, totalExponent (M * 2 ^ k) (E - k) = totalExponent M E ∧
      E - k ≤ max (totalExponent M E - 53) (-1074) ∧
      (max (totalExponent M E - 53) (-1074) ≤ E → E - k = max (totalExponent M E - 53) (-1074)) ∧
      UnpackedFloat.round Format.binary64 s M E =
        roundWithAccuracy Format.binary64 s (M * 2 ^ k) (E - k) .exact := by
  set T := max (totalExponent M E - 53) (-1074) with hT
  refine ⟨(E - T).toNat, ?_, by omega, by omega, ?_⟩
  · rw [totalExponent, totalExponent, log2_mul_pow hM]
    omega
  · rw [UnpackedFloat.round, targetExponent_eq, ← hT, decreaseExponent, Nat.shiftLeft_eq]

/-- The same where the significand may have too few digits at first. -/
theorem rounded_round (s : Sign) (hM : 0 < M) (E : ℤ) :
    Rounded (totalExponent M E + 1) (UnpackedFloat.round Format.binary64 s M E) := by
  obtain ⟨k, hplace, hE, -, hround⟩ := exists_round_eq s hM E
  rw [hround, ← hplace]
  exact rounded_roundWithAccuracy s .exact (hplace ▸ hE)

/-- A signed significand is rounded as its size. -/
theorem rounded_normalize (z E : ℤ) (s : Sign) :
    Rounded (totalExponent z.natAbs E + 1) (UnpackedFloat.normalize Format.binary64 z E s) := by
  unfold UnpackedFloat.normalize
  split
  · next hlt =>
    have hneg : z < 0 := compare_lt_iff_lt.1 hlt
    have habs : (-z).toNat = z.natAbs := by omega
    rw [habs]
    exact rounded_round .negative (by omega) E
  · exact rounded_zero s _
  · next hgt =>
    have hpos : 0 < z := compare_gt_iff_gt.1 hgt
    have habs : z.toNat = z.natAbs := by omega
    rw [habs]
    exact rounded_round .positive (by omega) E

end LinearProgram.Double
