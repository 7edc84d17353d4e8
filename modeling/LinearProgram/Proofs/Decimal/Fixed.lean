import LinearProgram.Decimal.Fixed
/-!
# Zeros at the end of a decimal text

A text is calculated with the places that its value calls for, and filled up with zeros.  This is the text
that rounding to all the places gives.

Proved:
* `roundDiv_mul_pow`: the units of the last place are those of the last place calculated, with zeros.
* `placed_mul_pow`: units that end in zeros are written as the others with zeros behind them.
* `Reading.fixed_finite`, `Reading.isReadable_finite`: a text, and whether it is short enough to be read
  back, as if all the places were calculated.
-/

namespace LinearProgram

variable {places zeros n d : Nat}

/-! ## Places that are calculated -/

theorem ownPlaces_le : ownPlaces places d ≤ places := by
  unfold ownPlaces
  dsimp only
  split
  · exact Nat.min_le_left ..
  · exact Nat.le_refl _

/-- Where there are places, some are calculated. -/
theorem ownPlaces_pos (h : 0 < places) : 0 < ownPlaces places d := by
  unfold ownPlaces
  dsimp only
  split
  · omega
  · exact h

theorem pow_places (places d : Nat) :
    10 ^ places = 10 ^ ownPlaces places d * 10 ^ (places - ownPlaces places d) := by
  rw [← Nat.pow_add, Nat.add_sub_cancel' ownPlaces_le]

theorem roundDiv_mul (hd : 0 < d) : roundDiv (n * d) d = n := by
  unfold roundDiv
  dsimp only
  rw [Nat.mul_mod_left, Nat.mul_div_cancel n hd, if_pos (by omega)]

/-- Rounding to the places that are calculated leaves nothing over for the others. -/
theorem roundDiv_mul_pow (places n d : Nat) :
    roundDiv (n * 10 ^ places) d =
      roundDiv (n * 10 ^ ownPlaces places d) d * 10 ^ (places - ownPlaces places d) := by
  by_cases hall : ownPlaces places d = places
  · rw [hall, Nat.sub_self, Nat.pow_zero, Nat.mul_one]
  · have hdvd : 10 ^ ownPlaces places d % d = 0 := by
      unfold ownPlaces at hall ⊢
      dsimp only at hall ⊢
      split
      · assumption
      · next h => exact absurd (if_neg h) hall
    obtain ⟨c, hc⟩ := Nat.dvd_of_mod_eq_zero hdvd
    have hd : 0 < d := Nat.pos_of_mul_pos_right (hc ▸ Nat.pow_pos (by decide))
    rw [pow_places places d, hc]
    have hown : n * (d * c) = n * c * d := by rw [Nat.mul_comm d c, Nat.mul_assoc]
    rw [← Nat.mul_assoc, hown, roundDiv_mul hd, Nat.mul_right_comm, roundDiv_mul hd]

/-! ## Zeros behind a text -/

theorem toDigits_mul_pow (hn : 0 < n) (zeros : Nat) :
    Nat.toDigits 10 (n * 10 ^ zeros) = Nat.toDigits 10 n ++ List.replicate zeros '0' := by
  induction zeros with
  | zero => rw [Nat.pow_zero, Nat.mul_one, List.replicate_zero, List.append_nil]
  | succ zeros ih =>
    have hpos : 0 < n * 10 ^ zeros := Nat.mul_pos hn (Nat.pow_pos (by decide))
    have hnext : n * 10 ^ (zeros + 1) = 10 * (n * 10 ^ zeros) + 0 := by
      rw [Nat.pow_succ, Nat.add_zero, Nat.mul_comm 10, Nat.mul_assoc]
    rw [hnext, ← Nat.toDigits_append_toDigits (by decide) hpos (by decide), ih,
      List.replicate_succ', List.append_assoc]
    rfl

theorem toList_pushn (s : String) (c : Char) (count : Nat) :
    (s.pushn c count).toList = s.toList ++ List.replicate count c := by
  induction count with
  | zero => rw [List.replicate_zero, List.append_nil]; rfl
  | succ count ih =>
    have hnext : s.pushn c (count + 1) = (s.pushn c count).push c := rfl
    rw [hnext, String.toList_push, ih, List.replicate_succ', List.append_assoc]

theorem pushn_append (s t : String) (c : Char) (count : Nat) :
    (s ++ t).pushn c count = s ++ t.pushn c count := by
  apply String.toList_inj.1
  rw [toList_pushn, String.toList_append, String.toList_append, toList_pushn, List.append_assoc]

theorem toList_paddedDigits (width n : Nat) :
    (paddedDigits width n).toList =
      List.replicate (width - (Nat.toDigits 10 n).length) '0' ++ Nat.toDigits 10 n := by
  have hlength : (Nat.repr n).length = (Nat.toDigits 10 n).length := by
    rw [← String.length_toList, Nat.toList_repr]
  rw [paddedDigits, String.toList_append, String.toList_ofList, Nat.toList_repr, hlength]

/-- A zero fills the width with zeros. -/
theorem toList_paddedDigits_zero {width : Nat} (h : 0 < width) :
    (paddedDigits width 0).toList = List.replicate width '0' := by
  have hdigits : Nat.toDigits 10 0 = List.replicate 1 '0' := rfl
  rw [toList_paddedDigits, hdigits, List.length_replicate, List.replicate_append_replicate,
    Nat.sub_add_cancel h]

theorem paddedDigits_mul_pow {width : Nat} (h : 0 < width) (n zeros : Nat) :
    paddedDigits (width + zeros) (n * 10 ^ zeros) = (paddedDigits width n).pushn '0' zeros := by
  apply String.toList_inj.1
  rw [toList_pushn]
  rcases Nat.eq_zero_or_pos n with rfl | hn
  · rw [Nat.zero_mul, toList_paddedDigits_zero h, toList_paddedDigits_zero (by omega),
      List.replicate_append_replicate]
  · have hwidth : width + zeros - ((Nat.toDigits 10 n).length + zeros) =
        width - (Nat.toDigits 10 n).length := Nat.add_sub_add_right ..
    rw [toList_paddedDigits, toList_paddedDigits, toDigits_mul_pow hn, List.length_append,
      List.length_replicate, hwidth, List.append_assoc]

/-- Units that end in zeros, where there is a point to set them behind. -/
theorem placed_mul_pow (h : 0 < places) (units zeros : Nat) :
    placed (places + zeros) (units * 10 ^ zeros) = (placed places units).pushn '0' zeros := by
  have hpos : 0 < 10 ^ zeros := Nat.pow_pos (by decide)
  rw [placed, placed, if_neg (by omega), if_neg (by omega), Nat.pow_add, Nat.mul_div_mul_right _ _ hpos,
    Nat.mul_mod_mul_right, paddedDigits_mul_pow h, pushn_append]

/-- The places that are not calculated are zeros. -/
theorem placed_roundDiv (places n d : Nat) :
    (placed (ownPlaces places d) (roundDiv (n * 10 ^ ownPlaces places d) d)).pushn '0'
        (places - ownPlaces places d) = placed places (roundDiv (n * 10 ^ places) d) := by
  have hle : ownPlaces places d ≤ places := ownPlaces_le
  rw [roundDiv_mul_pow places]
  rcases Nat.eq_zero_or_pos places with rfl | hplaces
  · obtain hzero : ownPlaces 0 d = 0 := Nat.le_zero.1 hle
    rw [hzero, Nat.sub_self, Nat.pow_zero, Nat.mul_one, Nat.mul_one]
    rfl
  · rw [← placed_mul_pow (ownPlaces_pos hplaces), Nat.add_sub_cancel' hle]

theorem wholeDigits_roundDiv (places n d : Nat) :
    wholeDigits (ownPlaces places d) (roundDiv (n * 10 ^ ownPlaces places d) d) =
      wholeDigits places (roundDiv (n * 10 ^ places) d) := by
  have hpos : 0 < 10 ^ (places - ownPlaces places d) := Nat.pow_pos (by decide)
  unfold wholeDigits
  rw [roundDiv_mul_pow places, pow_places places d, Nat.mul_div_mul_right _ _ hpos]

namespace Reading

theorem fixed_finite (zeroSigned negative : Bool) (places n d : Nat) :
    (Reading.finite negative n d).fixed zeroSigned places =
      (if negative && (zeroSigned || roundDiv (n * 10 ^ places) d != 0) then "-" else "") ++
        placed places (roundDiv (n * 10 ^ places) d) := by
  have hzero : (roundDiv (n * 10 ^ ownPlaces places d) d != 0) = (roundDiv (n * 10 ^ places) d != 0) := by
    have hpos : 10 ^ (places - ownPlaces places d) ≠ 0 := Nat.ne_of_gt (Nat.pow_pos (by decide))
    rw [Bool.eq_iff_iff, bne_iff_ne, bne_iff_ne, roundDiv_mul_pow places, Nat.mul_ne_zero_iff,
      and_iff_left hpos]
  rw [fixed, placed_roundDiv, hzero]
  split
  · rfl
  · exact String.empty_append.symm

theorem isReadable_finite (negative : Bool) (places n d : Nat) :
    (Reading.finite negative n d).isReadable places =
      decide (places + wholeDigits places (roundDiv (n * 10 ^ places) d) ≤ Numeral.maxDecimalDigits) := by
  rw [isReadable, wholeDigits_roundDiv]

end Reading

end LinearProgram
