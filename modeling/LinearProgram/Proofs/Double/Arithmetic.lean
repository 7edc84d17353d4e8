import LinearProgram.Proofs.Double.Order
import LinearProgram.Proofs.Double.Rounding
/-!
# How large results of arithmetic are

The scale of a double is the place of its leading digit: a number of scale `k` is less than `2 ^ k` in
size.  Each operation can be followed by the scales of its operands alone, and as long as the scale
that comes out is at most 1024 the result is a number.

Proved:
* `scale_mul_le`, `scale_add_le`, `scale_sub_le`, `scale_div_le`: the scale of a result.
* `scale_le_of_le_abs`: what is at least as large in size has at least the scale.
* `isNaN_sub`, `isNaN_add`: sums and differences with a number are NaN only if the other operand is.
-/

namespace LinearProgram.Double

open Float.Model Float.Model.UnpackedFloat

/-! ## Operations on parts -/

variable {u v : UnpackedFloat}

theorem Rounded.of_isFinite (h : Canonical u) (hfinite : u.isFinite = true) : Rounded (top u) u :=
  ⟨h, hfinite, by omega⟩

/-- The product of two significands has digits enough to be rounded. -/
theorem mul_exponent_le {s s' : UnpackedFloat.Sign} {m m' : ℕ} {e e' : ℤ} {hm : 0 < m}
    {hm' : 0 < m'} (hu : Canonical (.finite s m e hm)) (hv : Canonical (.finite s' m' e' hm')) :
    e + e' ≤ max (totalExponent (m * m') (e + e') - 53) (-1074) := by
  obtain ⟨hlt, hge, hform⟩ := hu
  obtain ⟨hlt', hge', hform'⟩ := hv
  have hleft : m.log2 ≤ (m * m').log2 := log2_le_log2 (Nat.le_mul_of_pos_right _ hm')
  have hright : m'.log2 ≤ (m * m').log2 := log2_le_log2 (Nat.le_mul_of_pos_left _ hm)
  have hnormal : 2 ^ 52 ≤ m → 52 ≤ m.log2 := fun h => (Nat.le_log2 (by omega)).2 h
  have hnormal' : 2 ^ 52 ≤ m' → 52 ≤ m'.log2 := fun h => (Nat.le_log2 (by omega)).2 h
  rw [totalExponent]
  omega

theorem rounded_mul (hu : Canonical u) (hv : Canonical v) (hu' : u.isFinite = true)
    (hv' : v.isFinite = true) :
    Rounded (top u + top v + 1) (UnpackedFloat.mul Format.binary64 u v) := by
  rcases u with _ | _ | s | ⟨s, m, e, hm⟩
  case infinity => cases hu'
  case notANumber => cases hu'
  case zero =>
    rcases v with _ | _ | s' | ⟨s', m', e', hm'⟩
    case infinity => cases hv'
    case notANumber => cases hv'
    all_goals exact rounded_zero _ _
  case finite =>
    rcases v with _ | _ | s' | ⟨s', m', e', hm'⟩
    case infinity => cases hv'
    case notANumber => cases hv'
    case zero => exact rounded_zero _ _
    case finite =>
      have hprod := log2_mul_le hm hm'
      refine (rounded_roundWithAccuracy (s * s') .exact (mul_exponent_le hu hv)).mono ?_
      rw [top, top, totalExponent, totalExponent, totalExponent]
      omega

theorem log2_decreaseExponent {m : ℕ} (hm : 0 < m) {e T : ℤ} (hT : T ≤ e) :
    ((decreaseExponent m e T).1.log2 : ℤ) + 1 + T = totalExponent m e := by
  rw [decreaseExponent, Nat.shiftLeft_eq, log2_mul_pow hm, totalExponent]
  omega

theorem natAbs_apply (s : UnpackedFloat.Sign) (m : ℕ) : (s.apply m).natAbs = m := by
  cases s with
  | negative => exact (Int.natAbs_neg _).trans (Int.natAbs_natCast m)
  | positive => exact Int.natAbs_natCast m

theorem canonical_neg (h : Canonical u) : Canonical u.neg := by
  cases u <;> exact h

theorem isFinite_neg (u : UnpackedFloat) : u.neg.isFinite = u.isFinite := by
  cases u <;> rfl

theorem top_neg (u : UnpackedFloat) : top u.neg = top u := by
  cases u <;> rfl

theorem rounded_add (hu : Canonical u) (hv : Canonical v) (hu' : u.isFinite = true)
    (hv' : v.isFinite = true) :
    Rounded (max (top u) (top v) + 2) (UnpackedFloat.add Format.binary64 u v) := by
  have hleft := (Rounded.of_isFinite hu hu').mono (l := max (top u) (top v) + 2) (by omega)
  have hright := (Rounded.of_isFinite hv hv').mono (l := max (top u) (top v) + 2) (by omega)
  rcases u with _ | _ | s | ⟨s, m, e, hm⟩
  case infinity => cases hu'
  case notANumber => cases hu'
  case zero =>
    rcases v with _ | _ | s' | ⟨s', m', e', hm'⟩
    case infinity => cases hv'
    case notANumber => cases hv'
    case zero =>
      rw [UnpackedFloat.add]
      split
      · exact rounded_zero _ _
      · exact rounded_zero _ _
    case finite => exact hright
  case finite =>
    rcases v with _ | _ | s' | ⟨s', m', e', hm'⟩
    case infinity => cases hv'
    case notANumber => cases hv'
    case zero => exact hleft
    case finite =>
      have hlog := log2_decreaseExponent hm (min_le_left e e')
      have hlog' := log2_decreaseExponent hm' (min_le_right e e')
      set d := (decreaseExponent m e (min e e')).1
      set d' := (decreaseExponent m' e' (min e e')).1
      have hadd : UnpackedFloat.add Format.binary64 (.finite s m e hm) (.finite s' m' e' hm') =
          UnpackedFloat.normalize Format.binary64 (s.apply d + s'.apply d') (min e e') .positive :=
        rfl
      rw [hadd]
      refine (rounded_normalize _ _ _).mono ?_
      have habs : (s.apply (d : ℤ) + s'.apply (d' : ℤ)).natAbs ≤ d + d' := by
        have htriangle := Int.natAbs_add_le (s.apply (d : ℤ)) (s'.apply (d' : ℤ))
        rwa [natAbs_apply, natAbs_apply] at htriangle
      have hsum := (log2_le_log2 habs).trans (log2_add_le d d')
      rw [top, top, totalExponent]
      omega

theorem sub_eq_add_neg (u v : UnpackedFloat) :
    UnpackedFloat.sub Format.binary64 u v = UnpackedFloat.add Format.binary64 u v.neg := by
  rcases u with _ | _ | s | ⟨s, m, e, hm⟩ <;> rcases v with _ | _ | s' | ⟨s', m', e', hm'⟩ <;>
    try rfl
  have happly (d : ℕ) : (-s').apply (d : ℤ) = -s'.apply (d : ℤ) := by
    cases s' with
    | negative => exact (Int.neg_neg _).symm
    | positive => rfl
  simp only [UnpackedFloat.sub, UnpackedFloat.neg, UnpackedFloat.add, happly, Int.sub_eq_add_neg]

theorem rounded_sub (hu : Canonical u) (hv : Canonical v) (hu' : u.isFinite = true)
    (hv' : v.isFinite = true) :
    Rounded (max (top u) (top v) + 2) (UnpackedFloat.sub Format.binary64 u v) := by
  rw [sub_eq_add_neg, ← top_neg v]
  exact rounded_add hu (canonical_neg hv) hu' (by rw [isFinite_neg, hv'])

/-- A division shifts its numerator just so far that the quotient has digits enough to be rounded. -/
theorem exists_div_eq (s s' : UnpackedFloat.Sign) {m m' : ℕ} (hm : 0 < m) (hm' : 0 < m') (e e' : ℤ) :
    ∃ (k : ℕ) (E : ℤ), E + k = e' - e ∧
      UnpackedFloat.div Format.binary64 (.finite s' m' e' hm') (.finite s m e hm) =
        roundWithAccuracy Format.binary64 (s' / s) (m' * 2 ^ k / m) E
          (accuracyOfFraction (m' * 2 ^ k % m) m) ∧
      E ≤ max (totalExponent (m' * 2 ^ k / m) E - 53) (-1074) ∧
      totalExponent (m' * 2 ^ k / m) E ≤
        max (totalExponent m' e' - totalExponent m e + 1) (-1073) := by
  set T := max (totalExponent m' e' - totalExponent m e - 53) (-1074) with hT
  set k := (e' - e - min (e' - e) T).toNat with hk
  obtain ⟨hlower, hupper⟩ := log2_div_bounds (m' * 2 ^ k) hm
  rw [log2_mul_pow hm'] at hlower hupper
  rw [totalExponent, totalExponent] at hT
  refine ⟨k, min (e' - e) T, by omega, ?_, ?_, ?_⟩
  · rw [← Nat.shiftLeft_eq]
    rfl
  · rw [totalExponent]
    omega
  · rw [totalExponent, totalExponent, totalExponent]
    by_cases hzero : m' * 2 ^ k / m = 0
    · rw [hzero, Nat.log2_zero]
      omega
    · have hlog := hupper hzero
      omega

/-- The divisor is not zero. -/
theorem rounded_div {s : UnpackedFloat.Sign} {m : ℕ} {e : ℤ} (hm : 0 < m) (hu' : u.isFinite = true) :
    Rounded (top u - totalExponent m e + 2)
      (UnpackedFloat.div Format.binary64 u (.finite s m e hm)) := by
  rcases u with _ | _ | s' | ⟨s', m', e', hm'⟩
  case infinity => cases hu'
  case notANumber => cases hu'
  case zero => exact rounded_zero _ _
  case finite =>
    obtain ⟨k, E, -, hdiv, hE, hplace⟩ := exists_div_eq s s' hm hm' e e'
    rw [hdiv]
    have hrounded := rounded_roundWithAccuracy (s' / s) (accuracyOfFraction (m' * 2 ^ k % m) m) hE
    refine ⟨hrounded.canonical, hrounded.isFinite, hrounded.top_le.trans ?_⟩
    rw [top]
    omega

/-! ## Scales of results -/

/-- The place of the leading digit of a double: a number of scale `k` is less than `2 ^ k` in size. -/
def scale (x : Float) : ℤ := top (parts x)

variable {x y : Float}

theorem isFinite_of_scale_le (h : scale x ≤ 1024) : (parts x).isFinite = true := by
  rw [scale] at h
  cases hparts : parts x with
  | infinity s => rw [hparts, top] at h; omega
  | notANumber => rw [hparts, top] at h; omega
  | zero s => rfl
  | finite s m e hm => rfl

theorem isNaN_of_scale_le (h : scale x ≤ 1024) : Scalar.isNaN x = false := by
  have hfinite := isFinite_of_scale_le h
  rw [isNaN_eq]
  cases hparts : parts x with
  | notANumber => rw [hparts] at hfinite; cases hfinite
  | _ => rfl

/-- A result that is not too large is packed as it was rounded. -/
theorem Rounded.scale_le {k : ℕ} (h : Rounded k u)
    (hx : parts x = UnpackedFloat.unpack Format.binary64 (UnpackedFloat.pack Format.binary64 u))
    (hk : k ≤ 1024) : scale x ≤ k := by
  have htop := h.top_le
  rw [unpack_pack h.canonical fun _ => by omega] at hx
  rw [scale, hx]
  omega

theorem scale_mul_le {k l : ℕ} (hx : scale x ≤ k) (hy : scale y ≤ l) (h : k + l + 1 ≤ 1024) :
    scale (x * y) ≤ (k + l + 1 : ℕ) := by
  have hrounded := rounded_mul (canonical_parts x) (canonical_parts y)
    (isFinite_of_scale_le (by omega)) (isFinite_of_scale_le (by omega))
  rw [scale] at hx hy
  exact (hrounded.mono (by omega)).scale_le rfl h

theorem scale_add_le {k : ℕ} (hx : scale x ≤ k) (hy : scale y ≤ k) (h : k + 2 ≤ 1024) :
    scale (x + y) ≤ (k + 2 : ℕ) := by
  have hrounded := rounded_add (canonical_parts x) (canonical_parts y)
    (isFinite_of_scale_le (by omega)) (isFinite_of_scale_le (by omega))
  rw [scale] at hx hy
  exact (hrounded.mono (by omega)).scale_le rfl h

theorem scale_sub_le {k : ℕ} (hx : scale x ≤ k) (hy : scale y ≤ k) (h : k + 2 ≤ 1024) :
    scale (x - y) ≤ (k + 2 : ℕ) := by
  have hrounded := rounded_sub (canonical_parts x) (canonical_parts y)
    (isFinite_of_scale_le (by omega)) (isFinite_of_scale_le (by omega))
  rw [scale] at hx hy
  exact (hrounded.mono (by omega)).scale_le rfl h

/-- The divisor is at least `2 ^ (-l)` in size. -/
theorem scale_div_le {k l : ℕ} (hx : scale x ≤ k) (hy : -l < scale y) (hy' : scale y ≤ 1024)
    (h : k + l + 1 ≤ 1024) : scale (x / y) ≤ (k + l + 1 : ℕ) := by
  have hfinite := isFinite_of_scale_le hy'
  have hx' : (parts x).isFinite = true := isFinite_of_scale_le (by omega)
  rw [scale] at hx hy
  cases hparts : parts y with
  | infinity s => rw [hparts] at hfinite; cases hfinite
  | notANumber => rw [hparts] at hfinite; cases hfinite
  | zero s => rw [hparts, top] at hy; omega
  | finite s m e hm =>
    rw [hparts, top] at hy
    have hrounded := rounded_div (s := s) (e := e) hm hx'
    rw [← hparts] at hrounded
    exact (hrounded.mono (by omega)).scale_le rfl h

/-! ## Signs and sizes -/

theorem parts_neg (x : Float) : parts (-x) = (parts x).neg := by
  refine unpack_pack (canonical_neg (canonical_parts x)) fun h => ?_
  rw [isFinite_neg] at h
  rw [top_neg]
  exact top_parts_le h

theorem scale_neg (x : Float) : scale (-x) = scale x := by
  rw [scale, parts_neg, top_neg, scale]

theorem canonical_abs (h : Canonical u) : Canonical u.abs := by
  cases u <;> exact h

theorem top_abs (u : UnpackedFloat) : top u.abs = top u := by
  cases u <;> rfl

theorem isFinite_abs (u : UnpackedFloat) : u.abs.isFinite = u.isFinite := by
  cases u <;> rfl

theorem parts_abs (x : Float) : parts (Scalar.abs x) = (parts x).abs := by
  refine unpack_pack (canonical_abs (canonical_parts x)) fun h => ?_
  rw [isFinite_abs] at h
  rw [top_abs]
  exact top_parts_le h

theorem isNaN_abs (x : Float) : Scalar.isNaN (Scalar.abs x) = Scalar.isNaN x := by
  rw [isNaN_eq, isNaN_eq, parts_abs]
  cases parts x <;> rfl

/-- Of two canonical values above zero the one with the higher rank has the higher top. -/
theorem totalExponent_le_of_rank_le {m m' : ℕ} {e e' : ℤ} {hm : 0 < m} {hm' : 0 < m'}
    (h : Canonical (.finite .positive m e hm)) (h' : Canonical (.finite .positive m' e' hm'))
    (hle : rank (.finite .positive m e hm) ≤ rank (.finite .positive m' e' hm')) :
    totalExponent m e ≤ totalExponent m' e' := by
  have hlog : m.log2 < 53 := (Nat.log2_lt hm.ne').2 h.1
  simp only [rank, Prod.Lex.toLex_le_toLex, lt_irrefl, false_or, true_and] at hle
  rw [totalExponent, totalExponent]
  rcases hle with hlt | ⟨rfl, hle⟩
  · -- A higher exponent is not the least, so its significand has all digits.
    have hnormal : 2 ^ 52 ≤ m' := h'.2.2.resolve_right (by have := h.2.1; omega)
    have hlog' : 52 ≤ m'.log2 := (Nat.le_log2 hm'.ne').2 hnormal
    omega
  · have hlog' : m.log2 ≤ m'.log2 := log2_le_log2 (by exact_mod_cast hle)
    omega

/-- What is at least as large in size has at least the scale. -/
theorem scale_le_of_le_abs (hpos : 0 ≤ x) (h : x ≤ Scalar.abs y) : scale x ≤ scale y := by
  obtain ⟨hnumber, hnumber'⟩ := isNaN_of_le h
  have hx := canonical_parts x
  have hy := canonical_parts y
  have htop : (parts x).isFinite = true → top (parts x) ≤ 1024 := top_parts_le
  have hzero : parts 0 = .zero .positive := rfl
  rw [le_iff_rank rfl hnumber, hzero] at hpos
  rw [le_iff_rank hnumber hnumber', parts_abs] at h
  rw [isNaN_eq] at hnumber
  rw [isNaN_abs, isNaN_eq] at hnumber'
  rw [scale, scale]
  generalize parts x = u at *
  generalize parts y = v at *
  rcases u with (_ | _) | _ | s | ⟨(_ | _), m, e, hm⟩
  case notANumber => cases hnumber
  case infinity.negative => simp [rank, Prod.Lex.toLex_le_toLex] at hpos
  case finite.negative => simp [rank, Prod.Lex.toLex_le_toLex] at hpos
  case infinity.positive =>
    cases v with
    | infinity s' => exact le_rfl
    | notANumber => cases hnumber'
    | zero s' => simp [rank, UnpackedFloat.abs, Prod.Lex.toLex_le_toLex] at h
    | finite s' m' e' hm' => simp [rank, UnpackedFloat.abs, Prod.Lex.toLex_le_toLex] at h
  case zero =>
    cases v with
    | notANumber => cases hnumber'
    | finite s' m' e' hm' =>
      have hexponent : -1074 ≤ e' := hy.2.1
      simp only [top, totalExponent]
      omega
    | _ => simp [top]
  case finite.positive =>
    cases v with
    | notANumber => cases hnumber'
    | zero s' => simp [rank, UnpackedFloat.abs, Prod.Lex.toLex_le_toLex] at h
    | infinity s' => exact (htop rfl).trans (by simp [top])
    | finite s' m' e' hm' => exact totalExponent_le_of_rank_le hx hy h

/-! ## NaN -/

theorem isNaN_unpack_pack (h : Canonical u) :
    (UnpackedFloat.unpack Format.binary64 (UnpackedFloat.pack Format.binary64 u)).isNaN =
      u.isNaN := by
  by_cases htop : u.isFinite = true ∧ 1024 < top u
  · cases u with
    | finite s m e hm =>
      rw [unpack_pack_of_lt_top h htop.2]
      rfl
    | zero s => exact absurd htop.2 (by rw [top]; omega)
    | _ => cases htop.1
  · rw [unpack_pack h fun hfinite => not_lt.1 fun hlt => htop ⟨hfinite, hlt⟩]

theorem isNaN_neg (x : Float) : Scalar.isNaN (-x) = Scalar.isNaN x := by
  rw [isNaN_eq, isNaN_eq, parts_neg]
  cases parts x <;> rfl

theorem isNaN_of_isFinite (h : u.isFinite = true) : u.isNaN = false := by
  cases u with
  | notANumber => cases h
  | _ => rfl

theorem isNaN_add_parts (hu : Canonical u) (hv : Canonical v) (hu' : u.isNaN = false)
    (hv' : v.isFinite = true) :
    Canonical (UnpackedFloat.add Format.binary64 u v) ∧
      (UnpackedFloat.add Format.binary64 u v).isNaN = false := by
  by_cases hfinite : u.isFinite = true
  · have hrounded := rounded_add hu hv hfinite hv'
    exact ⟨hrounded.canonical, isNaN_of_isFinite hrounded.isFinite⟩
  · cases u with
    | infinity s =>
      cases v with
      | infinity s' => cases hv'
      | notANumber => cases hv'
      | _ => exact ⟨trivial, rfl⟩
    | notANumber => cases hu'
    | _ => exact absurd rfl hfinite

/-- A sum with a number is NaN only if the other operand is. -/
theorem isNaN_add (hx : Scalar.isNaN x = false) (hy : Scalar.isFinite y = true) :
    Scalar.isNaN (x + y) = false := by
  obtain ⟨hcanonical, hnumber⟩ := isNaN_add_parts (canonical_parts x) (canonical_parts y) hx hy
  exact (isNaN_unpack_pack hcanonical).trans hnumber

theorem isNaN_sub (x : Float) (hy : Scalar.isFinite y = true) :
    Scalar.isNaN (x - y) = Scalar.isNaN x := by
  cases hx : Scalar.isNaN x with
  | false =>
    obtain ⟨hcanonical, hnumber⟩ := isNaN_add_parts (canonical_parts x)
      (canonical_neg (canonical_parts y)) hx (by rwa [isFinite_neg])
    rw [← sub_eq_add_neg] at hcanonical hnumber
    exact (isNaN_unpack_pack hcanonical).trans hnumber
  | true =>
    have hparts : parts x = .notANumber := by
      rw [isNaN_eq] at hx
      cases hu : parts x with
      | notANumber => rfl
      | _ => rw [hu] at hx; cases hx
    have hsub : UnpackedFloat.sub Format.binary64 (parts x) (parts y) = .notANumber := by
      rw [hparts]
      rfl
    have hcanonical : Canonical (UnpackedFloat.sub Format.binary64 (parts x) (parts y)) := by
      rw [hsub]
      trivial
    refine (isNaN_unpack_pack hcanonical).trans ?_
    rw [hsub]
    rfl

end LinearProgram.Double
