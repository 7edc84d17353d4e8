import LinearProgram.Power
import LinearProgram.Scalar
import Mathlib
/-!
# The parts of a double

A double is read as a sign, a significand and an exponent (`parts`), which are the three fields of its
bit pattern (`ofFields`).  What is read from a pattern is canonical: the significand has 53 digits, or
fewer with the least exponent.

Proved:
* `eq_of_parts_eq`: a double is told by its parts.
* `canonical_parts`, `top_parts_le`: the parts of a double are canonical, and the leading digit of a
  number stands at the place 1024 or below.
* `unpack_pack`, `unpack_pack_of_lt_top`: a canonical value is packed without loss, or if its leading
  digit stands above that place as infinity.
-/

namespace LinearProgram.Double

open Float.Model Float.Model.UnpackedFloat

/-- A double as sign, significand and exponent. -/
def parts (x : Float) : UnpackedFloat := x.toModel.unpack

theorem isNaN_eq (x : Float) : Scalar.isNaN x = (parts x).isNaN := rfl

theorem isFinite_eq (x : Float) : Scalar.isFinite x = (parts x).isFinite := rfl

/-- A double is told by its parts. -/
theorem eq_of_parts_eq {x y : Float} (h : parts x = parts y) : x = y := by
  rw [← Float.toBits_inj, ← UInt64.toBitVec_inj]
  exact (unpack_inj_of_valid x.toModel.valid y.toModel.valid).1 h

/-- The double above all numbers. -/
def infinity : Float := 1 / 0

theorem parts_infinity : parts infinity = .infinity .positive := rfl

/-- The bit pattern of a double. -/
def bits (x : Float) : BitVec 64 := x.toModel.toBits.toBitVec

/-! ## The fields of a bit pattern -/

/-- The value with these fields.  The largest exponent field is that of infinities and NaN, the least
that of zeros and of significands with less than 53 digits. -/
def ofFields (s : UnpackedFloat.Sign) (e : BitVec 11) (m : BitVec 52) : UnpackedFloat :=
  if e = -1#11 then (if m = 0#52 then .infinity s else .notANumber)
  else if e = 0#11 then
    if h : m = 0#52 then .zero s
    else .finite s m.toNat (-1074) (by simpa [BitVec.toNat_pos, BitVec.pos_iff_ne_zero])
  else .finite s (2 ^ 52 + m.toNat) (e.toNat - 1075) (by omega)

theorem exponentBias_eq : (Format.binary64.exponentBias : ℤ) = 1023 := rfl

theorem toNat_one_append (m : BitVec 52) : (1#1 ++ m).toNat = 2 ^ 52 + m.toNat := by
  rw [BitVec.toNat_append, ← Nat.shiftLeft_add_eq_or_of_lt m.isLt]
  rfl

theorem unpack_eq_ofFields (b : BitVec 64) :
    UnpackedFloat.unpack Format.binary64 b =
      ofFields (UnpackedFloat.Sign.ofBitVec (@unpackSign Format.binary64 b))
        (@unpackExponent Format.binary64 b) (@unpackMantissa Format.binary64 b) := by
  simp only [UnpackedFloat.unpack, ofFields, toNat_one_append, exponentBias_eq]
  split
  · rfl
  · split
    · next hzero =>
      have htoNat : ((@unpackExponent Format.binary64 b).toNat : ℤ) = 0 := by rw [hzero]; rfl
      simp only [htoNat]
      rfl
    · rfl

theorem ofFields_subnormal (s : UnpackedFloat.Sign) {m : BitVec 52} (hne : m.toNat ≠ 0) :
    ofFields s 0#11 m = .finite s m.toNat (-1074) (Nat.pos_of_ne_zero hne) := by
  rw [ofFields, if_neg (by decide), if_pos rfl, dif_neg]
  rintro rfl
  exact hne rfl

theorem ofFields_normal (s : UnpackedFloat.Sign) {e : BitVec 11} {m : BitVec 52} (hne : e.toNat ≠ 0)
    (hlt : e.toNat < 2047) :
    ofFields s e m = .finite s (2 ^ 52 + m.toNat) (e.toNat - 1075) (by omega) := by
  rw [ofFields, if_neg, if_neg]
  · rintro rfl
    exact hne rfl
  · rintro rfl
    exact absurd hlt (by decide)

/-! ## Canonical values -/

/-- The form in which finite values stand in a bit pattern, but for the largest exponents: with a
significand of 53 digits, or of fewer and the least exponent. -/
def Canonical : UnpackedFloat → Prop
  | .finite _ m e _ => m < 2 ^ 53 ∧ -1074 ≤ e ∧ (2 ^ 52 ≤ m ∨ e = -1074)
  | _ => True

/-- The place of the leading digit, so that a number with the top `k` is less than `2 ^ k` in size.
Zero has a top below, infinities and NaN one above those of all other doubles. -/
def top : UnpackedFloat → ℤ
  | .zero _ => -1074
  | .finite _ m e _ => totalExponent m e
  | .infinity _ => 1025
  | .notANumber => 1025

theorem canonical_ofFields (s : UnpackedFloat.Sign) (e : BitVec 11) (m : BitVec 52) :
    Canonical (ofFields s e m) ∧
      ((ofFields s e m).isFinite = true → top (ofFields s e m) ≤ 1024) := by
  have hm : m.toNat < 2 ^ 52 := m.isLt
  have he : e.toNat < 2 ^ 11 := e.isLt
  unfold ofFields
  split
  · split
    · exact ⟨trivial, fun h => by cases h⟩
    · exact ⟨trivial, fun h => by cases h⟩
  · next hinf =>
    split
    · split
      · exact ⟨trivial, fun _ => by rw [top]; omega⟩
      · next hne =>
        have hlog : m.toNat.log2 < 52 :=
          (Nat.log2_lt fun hzero => hne (BitVec.eq_of_toNat_eq hzero)).2 hm
        refine ⟨⟨by omega, by omega, .inr rfl⟩, fun _ => ?_⟩
        rw [top, totalExponent]
        omega
    · next hzero =>
      have hlast : e.toNat ≠ 2047 := fun h => hinf (BitVec.eq_of_toNat_eq h)
      have hfirst : e.toNat ≠ 0 := fun h => hzero (BitVec.eq_of_toNat_eq h)
      have hlog : (2 ^ 52 + m.toNat).log2 < 53 := (Nat.log2_lt (by omega)).2 (by omega)
      refine ⟨⟨by omega, by omega, .inl (by omega)⟩, fun _ => ?_⟩
      rw [top, totalExponent]
      omega

theorem canonical_parts (x : Float) : Canonical (parts x) := by
  change Canonical (UnpackedFloat.unpack Format.binary64 (bits x))
  rw [unpack_eq_ofFields]
  exact (canonical_ofFields _ _ _).1

theorem top_parts_le {x : Float} (h : (parts x).isFinite = true) : top (parts x) ≤ 1024 := by
  change top (UnpackedFloat.unpack Format.binary64 (bits x)) ≤ 1024
  change (UnpackedFloat.unpack Format.binary64 (bits x)).isFinite = true at h
  rw [unpack_eq_ofFields] at h ⊢
  exact (canonical_ofFields _ _ _).2 h

/-! ## Packing -/

theorem unpack_packComponents (s : UnpackedFloat.Sign) (e : BitVec 11) (m : BitVec 52) :
    UnpackedFloat.unpack Format.binary64 (packComponents Format.binary64 s e m) =
      ofFields s e m := by
  rw [unpack_eq_ofFields, unpackSign_packComponents, UnpackedFloat.Sign.ofBitVec_toBitVec,
    unpackExponent_packComponents, unpackMantissa_packComponents]

theorem pack_finite (s : UnpackedFloat.Sign) {m : ℕ} (hm : 0 < m) (e : ℤ) :
    UnpackedFloat.pack Format.binary64 (.finite s m e hm) =
      if 2 ^ 11 ≤ (e + 1075).toNat + 1 then packedInfinity Format.binary64 s
      else if m.log2 + 1 = 53 then
        packComponents Format.binary64 s (BitVec.ofNat 11 (e + 1075).toNat) (BitVec.ofNat 52 m)
      else packComponents Format.binary64 s 0#11 (BitVec.ofNat 52 m) := by
  have hbias : e + 1023 + (52 : ℕ) = e + 1075 := by omega
  simp only [UnpackedFloat.pack, exponentBias_eq, hbias]
  rfl

/-- A canonical value that is not too large is packed without loss. -/
theorem unpack_pack {u : UnpackedFloat} (h : Canonical u)
    (htop : u.isFinite = true → top u ≤ 1024) :
    UnpackedFloat.unpack Format.binary64 (UnpackedFloat.pack Format.binary64 u) = u := by
  cases u with
  | notANumber => rfl
  | infinity s => cases s <;> rfl
  | zero s => cases s <;> rfl
  | finite s m e hm =>
    obtain ⟨hlt, hge, hform⟩ := h
    have htotal : (m.log2 : ℤ) + 1 + e ≤ 1024 := htop rfl
    have hlog : m.log2 < 53 := (Nat.log2_lt (Nat.ne_of_gt hm)).2 hlt
    rw [pack_finite]
    by_cases hnormal : 2 ^ 52 ≤ m
    · have hlog' : 52 ≤ m.log2 := (Nat.le_log2 (Nat.ne_of_gt hm)).2 hnormal
      have hexponent : (BitVec.ofNat 11 (e + 1075).toNat).toNat = (e + 1075).toNat :=
        Nat.mod_eq_of_lt (by omega)
      have hsignificand : 2 ^ 52 + (BitVec.ofNat 52 m).toNat = m := by
        rw [BitVec.toNat_ofNat]
        omega
      have hvalue : ((e + 1075).toNat : ℤ) - 1075 = e := by omega
      rw [if_neg (by omega), if_pos (by omega), unpack_packComponents,
        ofFields_normal s (by omega) (by omega)]
      simp only [hexponent, hsignificand, hvalue]
    · obtain rfl : e = -1074 := hform.resolve_left hnormal
      have hlog' : m.log2 < 52 := (Nat.log2_lt (Nat.ne_of_gt hm)).2 (by omega)
      have hsignificand : (BitVec.ofNat 52 m).toNat = m := Nat.mod_eq_of_lt (by omega)
      rw [if_neg (by decide), if_neg (by omega), unpack_packComponents,
        ofFields_subnormal s (by omega)]
      simp only [hsignificand]

/-- A canonical value that is too large is packed as infinity. -/
theorem unpack_pack_of_lt_top {s : UnpackedFloat.Sign} {m : ℕ} {e : ℤ} {hm : 0 < m}
    (h : Canonical (.finite s m e hm)) (htop : 1024 < top (.finite s m e hm)) :
    UnpackedFloat.unpack Format.binary64 (UnpackedFloat.pack Format.binary64 (.finite s m e hm)) =
      .infinity s := by
  have hlog : m.log2 < 53 := (Nat.log2_lt (Nat.ne_of_gt hm)).2 h.1
  rw [top, totalExponent] at htop
  rw [pack_finite, if_pos (by omega)]
  cases s <;> rfl

end LinearProgram.Double
