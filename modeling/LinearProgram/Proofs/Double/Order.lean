import LinearProgram.Proofs.Double.Parts
import LinearProgram.Proofs.Order
/-!
# The order of doubles

A double that is not NaN has a rank on a number line: its side of zero, its exponent and its
significand, in this order (`rank`).  The comparisons of doubles are those of the ranks (`lt_iff_rank`,
`le_iff_rank`), so the doubles are lawful scalars, and every other number is below infinity
(`lt_infinity`).
-/

namespace LinearProgram.Double

open Float.Model Float.Model.UnpackedFloat

/-- The place of a value on the number line.  Both zeros have the same place.  A NaN has a place behind
all others, but nothing is ever compared with it. -/
def rank : UnpackedFloat → ℤ ×ₗ ℤ ×ₗ ℤ
  | .infinity .negative => toLex (-2, toLex (0, 0))
  | .finite .negative m e _ => toLex (-1, toLex (-e, -(m : ℤ)))
  | .zero _ => toLex (0, toLex (0, 0))
  | .finite .positive m e _ => toLex (1, toLex (e, (m : ℤ)))
  | .infinity .positive => toLex (2, toLex (0, 0))
  | .notANumber => toLex (3, toLex (0, 0))

/-! ## Comparisons as comparisons of ranks -/

theorem compare_natCast (m m' : ℕ) : compare (m : ℤ) (m' : ℤ) = compare m m' := by
  simp only [compare, compareOfLessAndEq, Int.ofNat_lt, Int.natCast_inj]

theorem compare_neg (a b : ℤ) : compare (-a) (-b) = (compare a b).swap := by
  simp only [compare, compareOfLessAndEq, neg_lt_neg_iff, neg_inj]
  rcases lt_trichotomy a b with h | rfl | h
  · simp [h, h.ne, h.not_gt]
  · simp
  · simp [h, h.ne', h.not_gt]

/-- Values on different sides of zero, and the infinities, are told apart by the side alone. -/
theorem compare_eq_compare_rank {u v : UnpackedFloat} (hu : u.isNaN = false)
    (hv : v.isNaN = false) : u.compare v = some (compare (rank u) (rank v)) := by
  rcases u with (_ | _) | _ | _ | ⟨(_ | _), m, e, hm⟩ <;>
    rcases v with (_ | _) | _ | _ | ⟨(_ | _), m', e', hm'⟩
  case finite.negative.finite.negative =>
    have hrank : compare (rank (.finite .negative m e hm)) (rank (.finite .negative m' e' hm')) =
        (compare (-e) (-e')).then (compare (-(m : ℤ)) (-(m' : ℤ))) := rfl
    rw [hrank, compare_neg, compare_neg, compare_natCast, ← Ordering.swap_then]
    rfl
  case finite.positive.finite.positive =>
    have hrank : compare (rank (.finite .positive m e hm)) (rank (.finite .positive m' e' hm')) =
        (compare e e').then (compare (m : ℤ) (m' : ℤ)) := rfl
    rw [hrank, compare_natCast]
    rfl
  all_goals first | rfl | contradiction

theorem compare_of_isNaN {u v : UnpackedFloat} (h : u.isNaN = true ∨ v.isNaN = true) :
    u.compare v = none := by
  cases u <;> cases v <;> simp_all [UnpackedFloat.compare, UnpackedFloat.isNaN]

theorem lt_iff_compare {x y : Float} : x < y ↔ (parts x).compare (parts y) = some .lt := by
  have hmodel : x < y ↔ (decide (x.toModel < y.toModel)) = true := Iff.rfl
  rw [hmodel, decide_eq_true_iff]
  exact beq_iff_eq

theorem le_iff_compare {x y : Float} :
    x ≤ y ↔ ((parts x).compare (parts y)).any Ordering.isLE = true := by
  have hmodel : x ≤ y ↔ (decide (x.toModel ≤ y.toModel)) = true := Iff.rfl
  rw [hmodel, decide_eq_true_iff]
  exact Iff.rfl

theorem compare_parts {x y : Float} (hx : Scalar.isNaN x = false) (hy : Scalar.isNaN y = false) :
    (parts x).compare (parts y) = some (compare (rank (parts x)) (rank (parts y))) :=
  compare_eq_compare_rank hx hy

theorem lt_iff_rank {x y : Float} (hx : Scalar.isNaN x = false) (hy : Scalar.isNaN y = false) :
    x < y ↔ rank (parts x) < rank (parts y) := by
  rw [lt_iff_compare, compare_parts hx hy, Option.some.injEq, compare_lt_iff_lt]

theorem le_iff_rank {x y : Float} (hx : Scalar.isNaN x = false) (hy : Scalar.isNaN y = false) :
    x ≤ y ↔ rank (parts x) ≤ rank (parts y) := by
  rw [le_iff_compare, compare_parts hx hy, Option.any_some, Ordering.isLE_iff_ne_gt]
  exact compare_le_iff_le

/-! ## Doubles are lawful -/

theorem isNaN_of_compare {x y : Float} {o : Ordering} (h : (parts x).compare (parts y) = some o) :
    Scalar.isNaN x = false ∧ Scalar.isNaN y = false := by
  by_contra hnone
  rw [not_and_or, Bool.not_eq_false, Bool.not_eq_false] at hnone
  have hundefined : (parts x).compare (parts y) = none := compare_of_isNaN hnone
  rw [hundefined] at h
  cases h

theorem isNaN_of_le {x y : Float} (h : x ≤ y) :
    Scalar.isNaN x = false ∧ Scalar.isNaN y = false := by
  rw [le_iff_compare] at h
  cases ho : (parts x).compare (parts y) with
  | none => rw [ho] at h; cases h
  | some o => exact isNaN_of_compare ho

/-- Equal doubles are numbers at one place; the two zeros are equal too. -/
theorem rank_eq_of_beq {x y : Float} (h : (x == y) = true) :
    Scalar.isNaN x = false ∧ Scalar.isNaN y = false ∧ rank (parts x) = rank (parts y) := by
  have hmodel : (x == y) = ((parts x).compare (parts y) == some .eq) := rfl
  rw [hmodel, beq_iff_eq] at h
  obtain ⟨hx, hy⟩ := isNaN_of_compare h
  rw [compare_parts hx hy, Option.some.injEq, compare_eq_iff_eq] at h
  exact ⟨hx, hy, h⟩

theorem not_lt_of_beq {x y : Float} (h : (x == y) = true) : ¬ x < y ∧ ¬ y < x := by
  obtain ⟨hx, hy, hrank⟩ := rank_eq_of_beq h
  rw [lt_iff_rank hx hy, lt_iff_rank hy hx, hrank]
  exact ⟨lt_irrefl _, lt_irrefl _⟩

instance : LawfulScalar Float where
  isNaN_of_lt h := isNaN_of_compare (lt_iff_compare.1 h)
  lt_asymm {x y} h := by
    obtain ⟨hx, hy⟩ := isNaN_of_compare (lt_iff_compare.1 h)
    rw [lt_iff_rank hx hy] at h
    rw [lt_iff_rank hy hx]
    exact lt_asymm h
  lt_or_lt {x y} z hz h := by
    obtain ⟨hx, hy⟩ := isNaN_of_compare (lt_iff_compare.1 h)
    rw [lt_iff_rank hx hy] at h
    rw [lt_iff_rank hx hz, lt_iff_rank hz hy]
    exact (lt_or_ge _ _).imp_right fun hzx => lt_of_le_of_lt hzx h
  le_iff {x y} := by
    constructor
    · intro h
      obtain ⟨hx, hy⟩ := isNaN_of_le h
      rw [le_iff_rank hx hy] at h
      rw [lt_iff_rank hy hx]
      exact ⟨hx, hy, not_lt.2 h⟩
    · rintro ⟨hx, hy, h⟩
      rw [lt_iff_rank hy hx] at h
      rw [le_iff_rank hx hy]
      exact not_lt.1 h

/-! ## Infinity -/

theorem not_infinity_lt (x : Float) : ¬ infinity < x := by
  intro h
  have hx : Scalar.isNaN x = false := (LawfulScalar.isNaN_of_lt h).2
  rw [lt_iff_rank rfl hx, parts_infinity] at h
  rw [isNaN_eq] at hx
  rcases hparts : parts x with (_ | _) | _ | _ | ⟨(_ | _), m, e, hm⟩
  case notANumber => rw [hparts] at hx; cases hx
  all_goals
    rw [hparts] at h
    simp [rank, Prod.Lex.toLex_lt_toLex] at h

/-- Every number but infinity itself is below infinity. -/
theorem lt_infinity {x : Float} (hx : Scalar.isNaN x = false) (hne : x ≠ infinity) :
    x < infinity := by
  rw [lt_iff_rank hx rfl, parts_infinity]
  rw [isNaN_eq] at hx
  rcases hparts : parts x with (_ | _) | _ | _ | ⟨(_ | _), m, e, hm⟩
  case infinity.positive => exact absurd (eq_of_parts_eq hparts) hne
  case notANumber => rw [hparts] at hx; cases hx
  all_goals simp [rank, Prod.Lex.toLex_lt_toLex]

/-- Infinity is the only value above zero that is neither NaN nor a number. -/
theorem eq_infinity {x : Float} (h : Scalar.isInfinite x = true) (hpos : 0 < x) :
    x = infinity := by
  have hx : Scalar.isNaN x = false := (LawfulScalar.isNaN_of_lt hpos).2
  have hfinite : (parts x).isFinite = false := by
    rw [Scalar.isInfinite, hx, isFinite_eq] at h
    simpa using h
  have hzero : parts 0 = .zero .positive := rfl
  rw [lt_iff_rank rfl hx, hzero] at hpos
  rw [isNaN_eq] at hx
  rcases hparts : parts x with (_ | _) | _ | _ | ⟨s, m, e, hm⟩
  case infinity.positive => exact eq_of_parts_eq hparts
  case infinity.negative =>
    rw [hparts] at hpos
    simp [rank, Prod.Lex.toLex_lt_toLex] at hpos
  case notANumber => rw [hparts] at hx; cases hx
  all_goals
    rw [hparts] at hfinite
    cases hfinite

end LinearProgram.Double
