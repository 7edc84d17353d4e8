import LinearProgram.Cell
import LinearProgram.Proofs.Decimal.Plain
import LinearProgram.Proofs.Double.Decimal
/-!
# Cells of tables

A cell is a double rounded to the places that were asked for, and a number that is rounded to zero has no
sign.  There are two ways to leave out the sign: not to write it before zeros, as `cellText` does, or to read
the text again and to write zero if it is read as a zero.  The second way goes through another rounding, from
the decimal to a double, and a decimal with very many places could come out as zero there.  It does not,
because the number that was rounded is a double itself, and nearer to the decimal than zero is.

But a text with more than a billion digits is not read, and then there is no cell.  A double has at most 309
digits before the point, so this depends on the places almost alone.

Proved:
* `reading_double`: the reading that a text is calculated from is the exact value.
* `isReadable_iff`, `writable_double`, `not_writable_double`: which doubles have a cell.
* `cellText_eq`: a cell is the text of the nearest multiple, of two the one with the even last digit.
* `IsNearest.of_nearest`: the double nearest to a cell is rounded to the same cell.
* `rereadText_eq`: reading the text again finds zeros only.
* `exists_isCell`: all of it for every number and every number of places.
-/

namespace LinearProgram

open Double Float.Model Float.Model.UnpackedFloat

/-! ## The exact value of a double -/

theorem reading_ofBinary (negative : Bool) (m : ℕ) (e : ℤ) :
    ∃ n d : ℕ, 0 < d ∧ Reading.ofBinary negative m e = .finite negative n d ∧
      (n : ℚ) / d = m * 2 ^ e := by
  refine ⟨_, _, Nat.two_pow_pos _, rfl, ?_⟩
  have hexponent : e = (e.toNat : ℤ) - ((-e).toNat : ℤ) := by omega
  conv_rhs => rw [hexponent, zpow_sub₀ two_ne_zero, zpow_natCast, zpow_natCast]
  push_cast
  exact mul_div_assoc _ _ _

/-- The reading of a number is its exact value. -/
theorem reading_double {x : Float} (hx : Scalar.isFinite x = true) :
    ∃ (negative : Bool) (n d : ℕ), 0 < d ∧ Reading.ofFloat x = .finite negative n d ∧
      signedRat negative (n / d) = exact x := by
  have hmodel : x.toModel.unpack = parts x := rfl
  rw [isFinite_eq] at hx
  rw [Reading.ofFloat, hmodel, exact]
  generalize parts x = u at hx ⊢
  rcases u with _ | _ | (_ | _) | ⟨(_ | _), m, e, hm⟩
  case infinity => cases hx
  case notANumber => cases hx
  case zero.negative => exact ⟨true, 0, 1, one_pos, rfl, by simp [signedRat, value]⟩
  case zero.positive => exact ⟨false, 0, 1, one_pos, rfl, by simp [signedRat, value]⟩
  case finite.negative =>
    obtain ⟨n, d, hd, hreading, hvalue⟩ := reading_ofBinary true m e
    exact ⟨true, n, d, hd, hreading, by rw [hvalue]; rfl⟩
  case finite.positive =>
    obtain ⟨n, d, hd, hreading, hvalue⟩ := reading_ofBinary false m e
    exact ⟨false, n, d, hd, hreading, by rw [hvalue]; rfl⟩

/-- A number has a nearest multiple of every power of ten. -/
theorem exists_isNearest {x : Float} (hx : Scalar.isFinite x = true) (places : ℕ) :
    ∃ k : ℤ, IsNearest (1 / 10 ^ places) (exact x) k := by
  obtain ⟨negative, n, d, hd, -, hvalue⟩ := reading_double hx
  exact ⟨_, hvalue ▸ isNearest_places negative n hd places⟩

/-! ## The double nearest to a multiple -/

section Multiple

variable {x y : Float} {u : ℚ} {k : ℤ}

theorem exists_largest_eq : ∃ n : ℤ, largest = n :=
  ⟨(2 ^ 53 - 1) * 2 ^ 971, by
    rw [largest, Int.cast_mul, Int.cast_sub, Int.cast_pow, Int.cast_pow, Int.cast_ofNat, Int.cast_one]⟩

/-- Rounding to places does not leave the range of the doubles, whose end is a multiple of every unit. -/
theorem abs_mul_le_largest {places : ℕ} (hx : Scalar.isFinite x = true)
    (hk : IsNearest (1 / 10 ^ places) (exact x) k) : |k * (1 / 10 ^ places : ℚ)| ≤ largest := by
  have hunit : (0 : ℚ) < 1 / 10 ^ places := by positivity
  obtain ⟨n, hn⟩ := exists_largest_eq
  have hmultiple : ((n * 10 ^ places : ℤ) : ℚ) * (1 / 10 ^ places) = largest := by
    rw [hn]
    push_cast
    field_simp
  obtain ⟨hlow, hhigh⟩ := abs_le.1 (abs_exact_le hx)
  have habove : k ≤ n * 10 ^ places := hk.ge_of_ge hunit (hhigh.trans_eq hmultiple.symm)
  have hbelow : -(n * 10 ^ places) ≤ k := by
    refine hk.le_of_le hunit ?_
    rw [Int.cast_neg, neg_mul, hmultiple]
    exact hlow
  rw [abs_mul, abs_of_pos hunit, ← hmultiple]
  refine mul_le_mul_of_nonneg_right ?_ hunit.le
  exact_mod_cast abs_le.2 ⟨hbelow, habove⟩

/-- The double nearest to a multiple is a zero only if the multiple is: the number that was rounded is itself
nearer to any other multiple than zero is. -/
theorem beq_zero_iff_of_nearest (hu : 0 < u) (hx : Scalar.isFinite x = true) (hk : IsNearest u (exact x) k)
    (hy : Nearest (k * u) y) : (y == 0) = true ↔ k = 0 := by
  rw [beq_zero_iff_exact hy.isFinite]
  constructor
  · intro hzero
    by_contra hne
    have hnear := hy.near x hx
    have hhalf := ((isNearest_iff hu).1 hk).1
    have hfar := le_abs_mul_sub_mul hu (Ne.symm hne)
    rw [abs_sub_comm] at hhalf
    rw [hzero, sub_zero] at hnear
    rw [Int.cast_zero, zero_mul, sub_zero] at hfar
    linarith
  · rintro rfl
    rw [Int.cast_zero, zero_mul] at hy
    have hzero : exact 0 = 0 := by decide +kernel
    exact hy.exact_eq (by decide +kernel) hzero

/-- Rounding the double nearest to a rounded number does not change it: that double is no farther from it
than the number was. -/
theorem IsNearest.of_nearest (hu : 0 < u) (hx : Scalar.isFinite x = true) (hk : IsNearest u (exact x) k)
    (hy : Nearest (k * u) y) : IsNearest u (exact y) k := by
  refine hk.of_le hu ?_
  rw [abs_sub_comm, abs_sub_comm (exact x)]
  exact hy.near x hx

end Multiple

/-! ## Texts of rounded readings -/

namespace Plain

/-- A whole number of units of the last place, written as a plain decimal. -/
def ofInt (places : ℕ) (k : ℤ) : Plain := ofUnits (decide (k < 0)) places k.natAbs

theorem value_ofInt (places : ℕ) (k : ℤ) : (ofInt places k).value = k * (1 / 10 ^ places) := by
  rw [ofInt, value_ofUnits, Numeral.signed_natAbs]

/-- The sign is that of the value, and zero has none. -/
theorem negative_ofInt (places : ℕ) (k : ℤ) :
    (ofInt places k).negative = true ↔ (ofInt places k).value < 0 := by
  have hnegative : (ofInt places k).negative = decide (k < 0) := rfl
  have hunit : (0 : ℚ) < 1 / 10 ^ places := by positivity
  rw [hnegative, decide_eq_true_iff, value_ofInt, ← not_le, ← not_le, mul_nonneg_iff_of_pos_right hunit,
    Int.cast_nonneg_iff]

/-- A decimal in the range of the doubles is read as the nearest double. -/
theorem nearest_toFloat {t : Plain} (h : t.IsProper) (hvalue : |t.value| ≤ largest) :
    ∃ written, Numeral.decimal? t.text = some written ∧ Nearest t.value written.toFloat := by
  have hmagnitude : (t.units : ℚ) * 10 ^ (-t.fraction.length : ℤ) = t.units / 10 ^ t.fraction.length := by
    rw [zpow_neg, zpow_natCast, div_eq_mul_inv]
  have hsize : (t.units : ℚ) * 10 ^ (-t.fraction.length : ℤ) ≤ largest := by
    rwa [hmagnitude, ← abs_of_nonneg (by positivity : (0 : ℚ) ≤ t.units / 10 ^ t.fraction.length),
      ← abs_signedRat t.negative]
  have hnearest := nearest_nearestFloat t.negative hsize
  rw [hmagnitude] at hnearest
  exact ⟨_, decimal?_text h, hnearest⟩

end Plain

/-- A rounded reading is the text of a decimal. -/
theorem Reading.fixed_eq_ofUnits (zeroSigned negative : Bool) (places n d : ℕ) :
    (Reading.finite negative n d).fixed zeroSigned places =
      (Plain.ofUnits (negative && (zeroSigned || roundDiv (n * 10 ^ places) d != 0)) places
        (roundDiv (n * 10 ^ places) d)).text := by
  rw [Plain.text_ofUnits, fixed_finite]

theorem Reading.fixed_eq {negative : Bool} {places n d : ℕ} :
    (Reading.finite negative n d).fixed false places =
      (Plain.ofInt places (Numeral.signed negative (roundDiv (n * 10 ^ places) d))).text := by
  rw [fixed_eq_ofUnits, Plain.ofInt, Bool.false_or]
  generalize roundDiv (n * 10 ^ places) d = units
  have hsign : decide (Numeral.signed negative units < 0) = (negative && units != 0) := by
    rw [Bool.eq_iff_iff, decide_eq_true_iff, Bool.and_eq_true, bne_iff_ne, Numeral.signed_neg_iff]
  rw [Numeral.natAbs_signed, hsign]

/-! ## Zero found by reading the text again -/

/-- The text of a number, with its sign also where only zeros follow. -/
def signedText (places : ℕ) (x : Float) : String := (Reading.ofFloat x).fixed true places

/-- The text of a number, or the text of zero if the text of the number is read as a zero. -/
def rereadText (places : ℕ) (x : Float) : Option String :=
  (Numeral.decimal? (signedText places x)).map fun written =>
    if written.toFloat == 0 then signedText places 0 else signedText places x

/-- Reading the text again finds the texts of zeros and no others, so that it leaves out the sign where the
rounded number is zero. -/
theorem rereadText_eq {x : Float} (hx : Scalar.isFinite x = true) (places : ℕ) :
    rereadText places x = some ((Reading.ofFloat x).fixed false places) := by
  obtain ⟨negative, n, d, hd, hreading, hvalue⟩ := reading_double hx
  have hk := isNearest_places negative n hd places
  rw [hvalue] at hk
  have htext : signedText places x =
      (Plain.ofUnits negative places (roundDiv (n * 10 ^ places) d)).text := by
    rw [signedText, hreading, Reading.fixed_eq_ofUnits, Bool.true_or, Bool.and_true]
  have hzeroText : signedText places 0 = (Plain.ofUnits false places 0).text := by
    have hzero : Reading.ofFloat 0 = .finite false 0 1 := by decide +kernel
    have hround : roundDiv 0 1 = 0 := rfl
    rw [signedText, hzero, Reading.fixed_eq_ofUnits, Nat.zero_mul, hround, Bool.false_and]
  rw [hreading, Reading.fixed_eq_ofUnits, Bool.false_or]
  generalize roundDiv (n * 10 ^ places) d = units at hk htext ⊢
  have hproper : (Plain.ofUnits negative places units).IsProper := Plain.ofUnits_isProper
  have hsize : |(Plain.ofUnits negative places units).value| ≤ largest := by
    rw [Plain.value_ofUnits]
    exact abs_mul_le_largest hx hk
  obtain ⟨written, hwritten, hnearest⟩ := Plain.nearest_toFloat hproper hsize
  rw [Plain.value_ofUnits] at hnearest
  have hzero := beq_zero_iff_of_nearest (by positivity) hx hk hnearest
  rw [rereadText, htext, hwritten, Option.map_some, hzeroText]
  by_cases hunits : units = 0
  · rw [if_pos (hzero.2 (Numeral.signed_eq_zero_iff.2 hunits)), hunits, bne_self_eq_false, Bool.and_false]
  · rw [if_neg (mt hzero.1 (mt Numeral.signed_eq_zero_iff.1 hunits)), bne_iff_ne.2 hunits, Bool.and_true]

/-! ## Numbers that have a cell -/

section Writable

variable {x : Float} {places : ℕ} {decimals k : ℤ}

/-- Whether a text is short enough to be read back is told from the digits that it has. -/
theorem isReadable_iff (hx : Scalar.isFinite x = true) (hk : IsNearest (1 / 10 ^ places) (exact x) k) :
    DecimalScalar.isReadable places x = true ↔
      (Plain.ofInt places k).Within Numeral.maxDecimalDigits := by
  obtain ⟨negative, n, d, hpos, hreading, hvalue⟩ := reading_double hx
  have hnearest := isNearest_places negative n hpos places
  rw [hvalue] at hnearest
  obtain rfl := hnearest.eq (by positivity) hk
  have hreadable : DecimalScalar.isReadable places x = (Reading.ofFloat x).isReadable places := rfl
  rw [hreadable, hreading, Reading.isReadable_finite, decide_eq_true_iff, Plain.ofInt,
    Plain.within_ofUnits_iff, Numeral.natAbs_signed]

/-- A double has at most 309 digits before the point, and so has its nearest multiple. -/
theorem wholeDigits_double (hx : Scalar.isFinite x = true)
    (hk : IsNearest (1 / 10 ^ places) (exact x) k) : wholeDigits places k.natAbs ≤ 309 := by
  refine Plain.wholeDigits_le ((Nat.div_lt_iff_lt_mul (Nat.pow_pos (by decide))).2 ?_)
  have hunit : (0 : ℚ) < 10 ^ places := by positivity
  have hpower : (2 ^ 1024 : ℕ) < 10 ^ 309 := by decide +kernel
  have hlargest : largest < 10 ^ 309 := largest_lt.trans (by exact_mod_cast hpower)
  have hsize := (abs_mul_le_largest hx hk).trans_lt hlargest
  rw [mul_one_div, abs_div, abs_of_pos hunit, div_lt_iff₀ hunit] at hsize
  have hcast : ((k.natAbs : ℕ) : ℚ) = |(k : ℚ)| := by rw [Nat.cast_natAbs, Int.cast_abs]
  rw [← hcast] at hsize
  exact_mod_cast hsize

theorem within_double (hx : Scalar.isFinite x = true) (hk : IsNearest (1 / 10 ^ places) (exact x) k)
    {limit : ℕ} (h : places + 309 ≤ limit) : (Plain.ofInt places k).Within limit :=
  Plain.within_ofUnits_iff.2 ((Nat.add_le_add_left (wholeDigits_double hx hk) places).trans h)

/-- Infinities and NaN are written as words. -/
theorem isReadable_of_not_isFinite (hx : Scalar.isFinite x = false) (places : ℕ) :
    DecimalScalar.isReadable places x = true := by
  have hmodel : x.toModel.unpack = parts x := rfl
  have hreadable : DecimalScalar.isReadable places x = (Reading.ofFloat x).isReadable places := rfl
  rw [isFinite_eq] at hx
  rw [hreadable, Reading.ofFloat, hmodel]
  generalize parts x = u at hx ⊢
  rcases u with (_ | _) | _ | (_ | _) | ⟨(_ | _), m, e, hm⟩
  all_goals first | rfl | cases hx

/-- With fewer places than the limit by 309, every double has a cell. -/
theorem writable_double (hd : 0 ≤ decimals) (hd' : decimals + 309 ≤ Numeral.maxDecimalDigits) (x : Float) :
    Writable decimals x := by
  have hlimit : (Numeral.maxDecimalDigits : ℤ) ≤ maxPlaces := by decide
  refine ⟨hd, by omega, ?_⟩
  cases hx : Scalar.isFinite x with
  | false => exact isReadable_of_not_isFinite hx _
  | true =>
    obtain ⟨k, hk⟩ := exists_isNearest hx decimals.toNat
    exact (isReadable_iff hx hk).2 (within_double hx hk (by omega))

/-- With more places than the limit no number has one. -/
theorem not_writable_double (hx : Scalar.isFinite x = true)
    (h : Numeral.maxDecimalDigits < decimals) : ¬ Writable decimals x := by
  rintro ⟨-, -, hreadable⟩
  obtain ⟨k, hk⟩ := exists_isNearest hx decimals.toNat
  have hfraction := ((isReadable_iff hx hk).1 hreadable).fraction
  have hlength : (Plain.ofInt decimals.toNat k).fraction.length = decimals.toNat := Plain.length_fraction
  omega

end Writable

/-! ## Cells -/

section Cells

variable {x : Float} {decimals k : ℤ}

/-- The cell of a number is the text of its nearest multiple. -/
theorem cellText_eq (hx : Scalar.isFinite x = true) (hd : 0 ≤ decimals) (hd' : decimals ≤ maxPlaces)
    (hk : IsNearest (1 / 10 ^ decimals.toNat) (exact x) k)
    (hwithin : (Plain.ofInt decimals.toNat k).Within Numeral.maxDecimalDigits) :
    cellText decimals x = .ok (Plain.ofInt decimals.toNat k).text := by
  obtain ⟨negative, n, d, hpos, hreading, hvalue⟩ := reading_double hx
  have hnearest := isNearest_places negative n hpos decimals.toNat
  rw [hvalue] at hnearest
  have hreading' : DecimalScalar.reading x = .finite negative n d := hreading
  refine cellText_eq_ok_iff.2 ⟨⟨hd, hd', (isReadable_iff hx hk).2 hwithin⟩, ?_⟩
  rw [hreading', Reading.fixed_eq, hnearest.eq (by positivity) hk]

/-- A half goes to the even digit, here down. -/
example : cellText 2 (0.125 : Float) = .ok "0.12" := by decide +kernel

/-- A decimal that is a number rounded to so many places, and the cell of that number if there is one. -/
structure Plain.IsCell (decimals : ℤ) (x : Float) (t : Plain) : Prop where
  /-- The decimal has digits only, and no needless zeros in front. -/
  isProper : t.IsProper
  /-- It has the number of digits behind the point that was asked for. -/
  places : t.fraction.length = decimals
  /-- It is the nearest multiple of its last place, of two the one with the even last digit. -/
  nearest : ∃ k : ℤ, t.value = k * (1 / 10 ^ t.fraction.length) ∧
    IsNearest (1 / 10 ^ t.fraction.length) (exact x) k
  /-- It has a sign if it is below zero, and only then. -/
  negative_iff : t.negative = true ↔ t.value < 0
  /-- It is what is written, if it has no more digits than are read back. -/
  written : t.Within Numeral.maxDecimalDigits → cellText decimals x = .ok t.text
  /-- Otherwise there is no cell. -/
  refused : ¬ t.Within Numeral.maxDecimalDigits →
    cellText decimals x = .error (.tooLongToReadBack (signedText decimals.toNat x))
  /-- With fewer places than the limit by 309 it never has too many digits. -/
  short : decimals + 309 ≤ Numeral.maxDecimalDigits → t.Within Numeral.maxDecimalDigits
  /-- Reading the text again to find the zeros comes to the same. -/
  reread : t.Within Numeral.maxDecimalDigits → rereadText decimals.toNat x = some t.text
  /-- The text is read as the double nearest to it. -/
  read : t.Within Numeral.maxDecimalDigits →
    ∃ number, Numeral.decimal? t.text = some number ∧ Nearest t.value number.toFloat
  /-- A double that is nearest to the decimal is a zero only if the decimal is. -/
  zero_iff : ∀ y, Nearest t.value y → ((y == 0) = true ↔ t.value = 0)
  /-- And it has the same cell. -/
  again : t.Within Numeral.maxDecimalDigits → ∀ y, Nearest t.value y → cellText decimals y = .ok t.text

/-- A number is rounded to the nearest decimal with so many places, which has a sign only below zero.  This is
its cell if it has at most a billion digits behind the point and at most as many from the first on that is not
zero, and otherwise there is none.  Neither reading the text to find the zeros nor a second rounding changes
it. -/
theorem exists_isCell (hx : Scalar.isFinite x = true) (hd : 0 ≤ decimals) (hd' : decimals ≤ maxPlaces) :
    ∃ t : Plain, t.IsCell decimals x := by
  have hunit : (0 : ℚ) < 1 / 10 ^ decimals.toNat := by positivity
  obtain ⟨k, hk⟩ := exists_isNearest hx decimals.toNat
  have hvalue := Plain.value_ofInt decimals.toNat k
  have hlength : (Plain.ofInt decimals.toNat k).fraction.length = decimals.toNat := Plain.length_fraction
  have hreread : rereadText decimals.toNat x = some (Plain.ofInt decimals.toNat k).text := by
    obtain ⟨negative, n, d, hpos, hreading, hexact⟩ := reading_double hx
    have hnearest := isNearest_places negative n hpos decimals.toNat
    rw [hexact] at hnearest
    rw [rereadText_eq hx, hreading, Reading.fixed_eq, hnearest.eq hunit hk]
  refine ⟨Plain.ofInt decimals.toNat k, ?_⟩
  constructor
  case isProper => exact Plain.ofUnits_isProper
  case places => rw [hlength, Int.toNat_of_nonneg hd]
  case nearest =>
    rw [hlength]
    exact ⟨k, hvalue, hk⟩
  case negative_iff => exact Plain.negative_ofInt decimals.toNat k
  case written => exact cellText_eq hx hd hd' hk
  case refused =>
    intro hlong
    have hreadable : DecimalScalar.isReadable decimals.toNat x = false := by
      rw [← Bool.not_eq_true, isReadable_iff hx hk]
      exact hlong
    exact cellText_eq_error hd hd' hreadable
  case short => exact fun h => within_double hx hk (by omega)
  case reread => exact fun _ => hreread
  case read =>
    refine fun _ => Plain.nearest_toFloat Plain.ofUnits_isProper ?_
    rw [hvalue]
    exact abs_mul_le_largest hx hk
  case zero_iff =>
    intro y hy
    rw [hvalue] at hy ⊢
    rw [beq_zero_iff_of_nearest hunit hx hk hy, mul_eq_zero_iff_right hunit.ne', Int.cast_eq_zero]
  case again =>
    intro hwithin y hy
    rw [hvalue] at hy
    exact cellText_eq hy.isFinite hd hd' (hk.of_nearest hunit hx hy) hwithin

/-- A number that is rounded to zero from below. -/
theorem exists_isCell_minus_thousandth :
    Scalar.isFinite (-0.001 : Float) = true ∧ cellText 2 (-0.001 : Float) = .ok "0.00" ∧
      ∃ t : Plain, t.IsCell 2 (-0.001) :=
  ⟨by decide +kernel, by decide +kernel,
    exists_isCell (by decide +kernel) (by decide) (by decide)⟩

/-- With a billion and one places, which a text can have, a half has no cell. -/
theorem half_not_writable :
    Scalar.isFinite (0.5 : Float) = true ∧ (0 : ℤ) ≤ 1000000001 ∧ 1000000001 ≤ maxPlaces ∧
      ¬ ∃ text, cellText 1000000001 (0.5 : Float) = .ok text := by
  have hfinite : Scalar.isFinite (0.5 : Float) = true := by decide +kernel
  refine ⟨hfinite, by decide, by decide, ?_⟩
  rintro ⟨text, htext⟩
  exact not_writable_double hfinite (by decide) (cellText_eq_ok_iff.1 htext).1

end Cells

end LinearProgram
