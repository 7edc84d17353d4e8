import LinearProgram.Plane
import LinearProgram.Proofs.Double.Arithmetic
import LinearProgram.Proofs.Plane.Candidates
/-!
# What the test of a point accepts

Over the doubles.  The test is a refusal: a point is accepted if no comparison rules it out, and a
comparison with a NaN rules nothing out.  So what is accepted satisfies the rows exactly if nothing
that was compared is NaN (`satisfied_iff_of_holds`), and it can be NaN only where arithmetic leaves the
range of numbers.  With coefficients and limits below `2 ^ k` in size and determinants that count from
`2 ^ (-l)` on, it stays within this range if `3 k + l + 7 ≤ 1024` (`defined_of_mem_candidates`).

Proved:
* `satisfied_iff_of_holds`: an accepted point satisfies every row exactly if it is defined there.
* `scale_of_mem_candidates`: how large the coordinates of a candidate can be.
* `defined_of_mem_candidates`: candidates of problems of moderate size are defined.
-/

namespace LinearProgram

open Double

/-! ## Accepted and satisfied -/

/-- The comparison that a row asks for holds at a point, up to the tolerance. -/
def Border.Satisfied (tolerance : Float) (b : Border Float) (x : Float × Float) : Prop :=
  match b.relation with
  | .atMost => b.lhs x ≤ b.limit + tolerance
  | .atLeast => b.limit - tolerance ≤ b.lhs x
  | .equal => Scalar.abs (b.lhs x - b.limit) ≤ tolerance
  | .other _ => True

namespace Region

/-- Both coordinates are at least zero and every comparison holds, up to the tolerance. -/
structure Satisfied (tolerance : Float) (borders : List (Border Float)) (x : Float × Float) :
    Prop where
  coordinate₁ : -tolerance ≤ x.1
  coordinate₂ : -tolerance ≤ x.2
  row : ∀ b ∈ borders, b.Satisfied tolerance x

/-- The coordinates and the left-hand sides of all rows are numbers or infinite, and not NaN. -/
structure Defined (borders : List (Border Float)) (x : Float × Float) : Prop where
  coordinate₁ : Scalar.isNaN x.1 = false
  coordinate₂ : Scalar.isNaN x.2 = false
  row : ∀ b ∈ borders, Scalar.isNaN (b.lhs x) = false

end Region

variable {tolerance detTolerance : Float} {borders : List (Border Float)} {b : Border Float}
  {x : Float × Float}

namespace Border

theorem satisfied_of_keeps (htol : Scalar.isFinite tolerance = true)
    (hlimit : Scalar.isFinite b.limit = true) (hdefined : Scalar.isNaN (b.lhs x) = false)
    (h : b.keeps tolerance x = true) : b.Satisfied tolerance x := by
  have htolNumber : Scalar.isNaN tolerance = false := isNaN_of_isFinite htol
  have hlimitNumber : Scalar.isNaN b.limit = false := isNaN_of_isFinite hlimit
  rw [keeps] at h
  rw [Satisfied]
  cases hrelation : b.relation with
  | atMost =>
    simp only [hrelation, Bool.not_eq_true', decide_eq_false_iff_not] at h ⊢
    exact LawfulScalar.le_of_not_lt hdefined (isNaN_add hlimitNumber htol) h
  | atLeast =>
    simp only [hrelation, Bool.not_eq_true', decide_eq_false_iff_not] at h ⊢
    exact LawfulScalar.le_of_not_lt ((isNaN_sub _ htol).trans hlimitNumber) hdefined h
  | equal =>
    simp only [hrelation, Bool.not_eq_true', decide_eq_false_iff_not] at h ⊢
    refine LawfulScalar.le_of_not_lt ?_ htolNumber h
    rw [isNaN_abs]
    exact (isNaN_sub _ hlimit).trans hdefined
  | other _ => trivial

theorem isNaN_lhs_of_satisfied (hknown : b.relation.isKnown = true)
    (hlimit : Scalar.isFinite b.limit = true) (h : b.Satisfied tolerance x) :
    Scalar.isNaN (b.lhs x) = false := by
  rw [Satisfied] at h
  cases hrelation : b.relation with
  | atMost =>
    simp only [hrelation] at h
    exact (LawfulScalar.le_iff.1 h).1
  | atLeast =>
    simp only [hrelation] at h
    exact (LawfulScalar.le_iff.1 h).2.1
  | equal =>
    simp only [hrelation] at h
    have hsize : Scalar.isNaN (Scalar.abs (b.lhs x - b.limit)) = false :=
      (LawfulScalar.le_iff.1 h).1
    rw [isNaN_abs] at hsize
    exact (isNaN_sub _ hlimit).symm.trans hsize
  | other _ => rw [hrelation] at hknown; cases hknown

end Border

namespace Region

/-- An accepted point satisfies every row exactly if it is defined there. -/
theorem satisfied_iff_of_holds (htol : Scalar.isFinite tolerance = true)
    (hlimits : ∀ b ∈ borders, Scalar.isFinite b.limit = true)
    (hknown : ∀ b ∈ borders, b.relation.isKnown = true)
    (h : holds tolerance borders x = true) :
    Satisfied tolerance borders x ↔ Defined borders x := by
  constructor
  · intro hsat
    exact ⟨(LawfulScalar.le_iff.1 hsat.coordinate₁).2.1, (LawfulScalar.le_iff.1 hsat.coordinate₂).2.1,
      fun b hb => Border.isNaN_lhs_of_satisfied (hknown b hb) (hlimits b hb) (hsat.row b hb)⟩
  · intro hdefined
    rw [holds, Bool.and_eq_true, List.all_eq_true, inQuadrant, Bool.not_eq_true',
      Bool.or_eq_false_iff, decide_eq_false_iff_not, decide_eq_false_iff_not] at h
    obtain ⟨⟨h₁, h₂⟩, hrows⟩ := h
    have hneg : Scalar.isNaN (-tolerance) = false :=
      (isNaN_neg tolerance).trans (isNaN_of_isFinite htol)
    exact ⟨LawfulScalar.le_of_not_lt hneg hdefined.coordinate₁ h₁,
      LawfulScalar.le_of_not_lt hneg hdefined.coordinate₂ h₂, fun b hb =>
        Border.satisfied_of_keeps htol (hlimits b hb) (hdefined.row b hb) (hrows b hb)⟩

end Region

/-! ## How large candidates are -/

/-- The data of a row are less than `2 ^ k` in size. -/
structure Border.Below (k : ℕ) (b : Border Float) : Prop where
  coefficient₁ : scale b.a₁ ≤ k
  coefficient₂ : scale b.a₂ ≤ k
  limit : scale b.limit ≤ k

section Scale

variable {k l : ℕ} {p q : Border Float}

theorem scale_mul_sub_mul_le {a b c d : Float} (ha : scale a ≤ k) (hb : scale b ≤ k)
    (hc : scale c ≤ k) (hd : scale d ≤ k) (hk : 2 * k + 3 ≤ 1024) :
    scale (a * b - c * d) ≤ (2 * k + 3 : ℕ) := by
  have hleft := scale_mul_le ha hb (by omega)
  have hright := scale_mul_le hc hd (by omega)
  have hdifference := scale_sub_le hleft hright (by omega)
  have hsum : k + k + 1 + 2 = 2 * k + 3 := by omega
  rwa [hsum] at hdifference

theorem scale_zero_le (k : ℕ) : scale 0 ≤ k := by
  have hzero : scale 0 = -1074 := rfl
  omega

variable (hpos : 0 ≤ detTolerance) (hdet : -l < scale detTolerance)

include hpos hdet

/-- The meeting of two borders that do not count as parallel. -/
theorem Border.scale_meet_le (hp : p.Below k) (hq : q.Below k) (hkl : 2 * k + l + 4 ≤ 1024)
    (h : p.meet detTolerance q = some x) :
    scale x.1 ≤ (2 * k + l + 4 : ℕ) ∧ scale x.2 ≤ (2 * k + l + 4 : ℕ) := by
  have hsize : scale (det p q) ≤ (2 * k + 3 : ℕ) :=
    scale_mul_sub_mul_le hp.coefficient₁ hq.coefficient₂ hq.coefficient₁ hp.coefficient₂ (by omega)
  rw [meet, parallel] at h
  split at h
  · cases h
  · next hparallel =>
    rw [decide_eq_true_iff] at hparallel
    have hnumber : Scalar.isNaN (Scalar.abs (det p q)) = false := by
      rw [isNaN_abs]
      exact isNaN_of_scale_le (by omega)
    have hle : detTolerance ≤ Scalar.abs (det p q) :=
      LawfulScalar.le_of_not_lt (LawfulScalar.le_iff.1 hpos).2.1 hnumber hparallel
    have hlower : -l < scale (det p q) := hdet.trans_le (scale_le_of_le_abs hpos hle)
    have hsum : 2 * k + 3 + l + 1 = 2 * k + l + 4 := by omega
    obtain rfl := Option.some.inj h
    rw [← hsum]
    constructor
    · exact scale_div_le (scale_mul_sub_mul_le hp.limit hq.coefficient₂ hq.limit hp.coefficient₂
        (by omega)) hlower (by omega) (by omega)
    · exact scale_div_le (scale_mul_sub_mul_le hp.coefficient₁ hq.limit hq.coefficient₁ hp.limit
        (by omega)) hlower (by omega) (by omega)

/-- The limit of a row by a coefficient that does not count as zero. -/
theorem scale_crossing_le {limit a : Float} (hlimit : scale limit ≤ k) (ha : scale a ≤ k)
    (hkl : k + l + 1 ≤ 1024) (h : detTolerance < Scalar.abs a) :
    scale (limit / a) ≤ (k + l + 1 : ℕ) := by
  have hlower : -l < scale a :=
    hdet.trans_le (scale_le_of_le_abs hpos (LawfulScalar.le_of_lt h))
  exact scale_div_le hlimit hlower (by omega) hkl

theorem Region.scale_of_mem_candidates (hborders : ∀ b ∈ borders, b.Below k)
    (hkl : 2 * k + l + 4 ≤ 1024) (h : x ∈ candidates detTolerance borders) :
    scale x.1 ≤ (2 * k + l + 4 : ℕ) ∧ scale x.2 ≤ (2 * k + l + 4 : ℕ) := by
  rcases mem_candidates h with ⟨p, hp, q, hq, hmeet⟩ | ⟨b, hb, hcross⟩ | rfl
  · exact Border.scale_meet_le hpos hdet (hborders p hp) (hborders q hq) hkl hmeet
  · have hbelow := hborders b hb
    rcases Border.mem_crossings hcross with ⟨hsize, rfl⟩ | ⟨hsize, rfl⟩
    · have hquotient := scale_crossing_le hpos hdet hbelow.limit hbelow.coefficient₂ (by omega) hsize
      exact ⟨scale_zero_le _, hquotient.trans (by omega)⟩
    · have hquotient := scale_crossing_le hpos hdet hbelow.limit hbelow.coefficient₁ (by omega) hsize
      exact ⟨hquotient.trans (by omega), scale_zero_le _⟩
  · exact ⟨scale_zero_le _, scale_zero_le _⟩

/-- Candidates of problems of moderate size are defined. -/
theorem Region.defined_of_mem_candidates (hborders : ∀ b ∈ borders, b.Below k)
    (hkl : 3 * k + l + 7 ≤ 1024) (h : x ∈ candidates detTolerance borders) :
    Defined borders x := by
  obtain ⟨h₁, h₂⟩ := scale_of_mem_candidates hpos hdet hborders (by omega) h
  refine ⟨isNaN_of_scale_le (by omega), isNaN_of_scale_le (by omega), fun b hb => ?_⟩
  have hbelow := hborders b hb
  have hterm₁ := scale_mul_le hbelow.coefficient₁ h₁ (by omega)
  have hterm₂ := scale_mul_le hbelow.coefficient₂ h₂ (by omega)
  have hlhs : scale (b.lhs x) ≤ (k + (2 * k + l + 4) + 1 + 2 : ℕ) :=
    scale_add_le hterm₁ hterm₂ (by omega)
  exact isNaN_of_scale_le (by omega)

end Scale

end LinearProgram
