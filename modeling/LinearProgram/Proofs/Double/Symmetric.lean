import LinearProgram.Proofs.Double.Arithmetic
import LinearProgram.Proofs.Symmetric
/-!
# Opposite doubles

The sign of a double stands apart from its size, and rounding looks at the size alone.  So each operation
on opposite operands gives the opposite result, with one exception: where a sum comes out as zero it may be
the same zero on both sides.

Proved:
* `mul_neg_left`, `add_neg_neg`: products and sums of opposite parts.
* `neg_mul_double`: a product with an opposite factor is the opposite product.
* `alike_neg_add_neg`: the sum of two opposites is the opposite of the sum, up to the sign of a zero.
* The doubles are symmetric scalars.
-/

namespace LinearProgram.Double

open Float.Model Float.Model.UnpackedFloat

/-! ## Operations on parts -/

variable {u v : UnpackedFloat}

theorem neg_neg_sign (s : UnpackedFloat.Sign) : - -s = s := by
  cases s <;> rfl

theorem neg_sign_mul (s s' : UnpackedFloat.Sign) : -s * s' = -(s * s') := by
  cases s <;> cases s' <;> rfl

theorem apply_neg_sign (s : UnpackedFloat.Sign) (z : ℤ) : (-s).apply z = -s.apply z := by
  cases s with
  | negative => exact (neg_neg z).symm
  | positive => rfl

theorem neg_neg_parts (u : UnpackedFloat) : u.neg.neg = u := by
  cases u <;> simp only [UnpackedFloat.neg, neg_neg_sign]

theorem roundWithAccuracy_neg (s : UnpackedFloat.Sign) (m : ℕ) (e : ℤ) (a : Accuracy) :
    roundWithAccuracy Format.binary64 (-s) m e a =
      (roundWithAccuracy Format.binary64 s m e a).neg := by
  unfold roundWithAccuracy
  dsimp only
  split <;> rfl

theorem normalize_neg {z : ℤ} (hz : z ≠ 0) (e : ℤ) (s : UnpackedFloat.Sign) :
    UnpackedFloat.normalize Format.binary64 (-z) e s =
      (UnpackedFloat.normalize Format.binary64 z e s).neg := by
  have hround (s : UnpackedFloat.Sign) (m : ℕ) : UnpackedFloat.round Format.binary64 (-s) m e =
      (UnpackedFloat.round Format.binary64 s m e).neg := roundWithAccuracy_neg s _ _ _
  rcases lt_or_gt_of_ne hz with hneg | hpos
  · have hlt : compare z 0 = .lt := compare_lt_iff_lt.2 hneg
    have hgt : compare (-z) 0 = .gt := compare_gt_iff_gt.2 (by omega)
    simp only [UnpackedFloat.normalize, hlt, hgt]
    exact hround .negative _
  · have hgt : compare z 0 = .gt := compare_gt_iff_gt.2 hpos
    have hlt : compare (-z) 0 = .lt := compare_lt_iff_lt.2 (by omega)
    simp only [UnpackedFloat.normalize, hlt, hgt, neg_neg]
    exact hround .positive _

theorem normalize_zero (e : ℤ) (s : UnpackedFloat.Sign) :
    UnpackedFloat.normalize Format.binary64 0 e s = .zero s := rfl

theorem mul_neg_left (u v : UnpackedFloat) :
    UnpackedFloat.mul Format.binary64 u.neg v = (UnpackedFloat.mul Format.binary64 u v).neg := by
  cases u <;> cases v <;>
    simp only [UnpackedFloat.neg, UnpackedFloat.mul, neg_sign_mul, roundWithAccuracy_neg]

/-- Opposite operands have the opposite sum, unless it is zero. -/
theorem add_neg_neg (u v : UnpackedFloat) :
    UnpackedFloat.add Format.binary64 u.neg v.neg = (UnpackedFloat.add Format.binary64 u v).neg ∨
      ∃ s s', UnpackedFloat.add Format.binary64 u.neg v.neg = .zero s ∧
        UnpackedFloat.add Format.binary64 u v = .zero s' := by
  rcases u with s | _ | s | ⟨s, m, e, hm⟩ <;> rcases v with s' | _ | s' | ⟨s', m', e', hm'⟩
  case finite.finite =>
    simp only [UnpackedFloat.add, UnpackedFloat.neg, apply_neg_sign, ← neg_add]
    by_cases hz : s.apply ((decreaseExponent m e (min e e')).1 : ℤ) +
        s'.apply ((decreaseExponent m' e' (min e e')).1 : ℤ) = 0
    · rw [hz, neg_zero, normalize_zero]
      exact .inr ⟨_, _, rfl, rfl⟩
    · exact .inl (normalize_neg hz _ _)
  case infinity.infinity => cases s <;> cases s' <;> exact .inl rfl
  case zero.zero => cases s <;> cases s' <;> exact .inr ⟨_, _, rfl, rfl⟩
  all_goals exact .inl rfl

theorem canonical_mul (hu : Canonical u) (hv : Canonical v) :
    Canonical (UnpackedFloat.mul Format.binary64 u v) := by
  by_cases hfinite : u.isFinite = true ∧ v.isFinite = true
  · exact (rounded_mul hu hv hfinite.1 hfinite.2).canonical
  · cases u <;> cases v <;> first | trivial | exact absurd ⟨rfl, rfl⟩ hfinite

theorem canonical_add (hu : Canonical u) (hv : Canonical v) :
    Canonical (UnpackedFloat.add Format.binary64 u v) := by
  by_cases hfinite : u.isFinite = true ∧ v.isFinite = true
  · exact (rounded_add hu hv hfinite.1 hfinite.2).canonical
  · rcases u with s | _ | s | ⟨s, m, e, hm⟩ <;> rcases v with s' | _ | s' | ⟨s', m', e', hm'⟩
    case infinity.infinity => cases s <;> cases s' <;> trivial
    all_goals first | trivial | exact absurd ⟨rfl, rfl⟩ hfinite

/-- Opposite values are packed alike, also those that are too large to be numbers. -/
theorem unpack_pack_neg (h : Canonical u) :
    UnpackedFloat.unpack Format.binary64 (UnpackedFloat.pack Format.binary64 u.neg) =
      (UnpackedFloat.unpack Format.binary64 (UnpackedFloat.pack Format.binary64 u)).neg := by
  by_cases htop : u.isFinite = true ∧ 1024 < top u
  · cases u with
    | finite s m e hm =>
      rw [unpack_pack_of_lt_top h htop.2]
      exact unpack_pack_of_lt_top (canonical_neg h) htop.2
    | zero s => exact absurd htop.2 (by rw [top]; omega)
    | _ => cases htop.1
  · have hle : u.isFinite = true → top u ≤ 1024 := fun hfinite =>
      not_lt.1 fun hlt => htop ⟨hfinite, hlt⟩
    rw [unpack_pack h hle, unpack_pack (canonical_neg h)]
    rwa [isFinite_neg, top_neg]

/-! ## Opposite values -/

theorem neg_neg_double (x : Float) : - -x = x := by
  refine eq_of_parts_eq ?_
  rw [parts_neg, parts_neg, neg_neg_parts]

theorem neg_mul_double (x y : Float) : -x * y = -(x * y) := by
  refine eq_of_parts_eq ?_
  have hmul (x y : Float) : parts (x * y) = UnpackedFloat.unpack Format.binary64
      (UnpackedFloat.pack Format.binary64 (UnpackedFloat.mul Format.binary64 (parts x) (parts y))) :=
    rfl
  rw [parts_neg, hmul, hmul, parts_neg, mul_neg_left]
  exact unpack_pack_neg (canonical_mul (canonical_parts x) (canonical_parts y))

theorem beq_zero_iff {x : Float} : (x == 0) = true ↔ ∃ s, parts x = .zero s := by
  have hmodel : (x == 0) = ((parts x).compare (.zero .positive) == some .eq) := rfl
  rw [hmodel]
  cases parts x with
  | zero s => exact ⟨fun _ => ⟨s, rfl⟩, fun _ => rfl⟩
  | finite s m e hm => cases s <;> exact ⟨nofun, nofun⟩
  | infinity s => cases s <;> exact ⟨nofun, nofun⟩
  | notANumber => exact ⟨nofun, nofun⟩

theorem alike_neg_add_neg (x y : Float) : Scalar.Alike (-x + -y) (-(x + y)) := by
  have hadd (x y : Float) : parts (x + y) = UnpackedFloat.unpack Format.binary64
      (UnpackedFloat.pack Format.binary64 (UnpackedFloat.add Format.binary64 (parts x) (parts y))) :=
    rfl
  have hzero (s : UnpackedFloat.Sign) : UnpackedFloat.unpack Format.binary64
      (UnpackedFloat.pack Format.binary64 (.zero s)) = .zero s := by cases s <;> rfl
  rcases add_neg_neg (parts x) (parts y) with hneg | ⟨s, s', hs, hs'⟩
  · refine .inl (eq_of_parts_eq ?_)
    rw [parts_neg, hadd, hadd, parts_neg, parts_neg, hneg]
    exact unpack_pack_neg (canonical_add (canonical_parts x) (canonical_parts y))
  · refine .inr ⟨beq_zero_iff.2 ⟨s, ?_⟩, beq_zero_iff.2 ⟨-s', ?_⟩⟩
    · rw [hadd, parts_neg, parts_neg, hs, hzero]
    · rw [parts_neg, hadd, hs', hzero]
      rfl

/-! ## The order of opposites -/

theorem swap_then_compare (e e' : ℤ) (m m' : ℕ) :
    ((compare e e').then (compare m m')).swap = (compare e' e).then (compare m' m) := by
  rw [Ordering.swap_then, ← Std.OrientedOrd.eq_swap, ← Std.OrientedOrd.eq_swap]

theorem compare_neg_neg (u v : UnpackedFloat) : u.neg.compare v.neg = v.compare u := by
  rcases u with (_ | _) | _ | s | ⟨(_ | _), m, e, hm⟩ <;>
    rcases v with (_ | _) | _ | s' | ⟨(_ | _), m', e', hm'⟩
  case finite.negative.finite.negative => exact congrArg some (swap_then_compare e' e m' m).symm
  case finite.positive.finite.positive => exact congrArg some (swap_then_compare e e' m m')
  all_goals rfl

theorem compare_zero_left (s s' : UnpackedFloat.Sign) (v : UnpackedFloat) :
    UnpackedFloat.compare (.zero s) v = UnpackedFloat.compare (.zero s') v := by
  rcases v with (_ | _) | _ | _ | ⟨(_ | _), m, e, hm⟩ <;> rfl

theorem compare_zero_right (s s' : UnpackedFloat.Sign) (u : UnpackedFloat) :
    u.compare (.zero s) = u.compare (.zero s') := by
  rcases u with (_ | _) | _ | _ | ⟨(_ | _), m, e, hm⟩ <;> rfl

theorem compare_congr {x x' y y' : Float} (hx : Scalar.Alike x x') (hy : Scalar.Alike y y') :
    (parts x).compare (parts y) = (parts x').compare (parts y') := by
  have hleft : (parts x).compare (parts y) = (parts x').compare (parts y) := by
    rcases hx with rfl | ⟨hzero, hzero'⟩
    · rfl
    · obtain ⟨s, hs⟩ := beq_zero_iff.1 hzero
      obtain ⟨s', hs'⟩ := beq_zero_iff.1 hzero'
      rw [hs, hs', compare_zero_left s s']
  rw [hleft]
  rcases hy with rfl | ⟨hzero, hzero'⟩
  · rfl
  · obtain ⟨s, hs⟩ := beq_zero_iff.1 hzero
    obtain ⟨s', hs'⟩ := beq_zero_iff.1 hzero'
    rw [hs, hs', compare_zero_right s s']

/-! ## The texts of opposites -/

theorem isReadable_neg_double (places : ℕ) (x : Float) :
    DecimalScalar.isReadable places (-x) = DecimalScalar.isReadable places x := by
  have hmodel : ∀ y : Float, y.toModel.unpack = parts y := fun _ => rfl
  show (Reading.ofFloat (-x)).isReadable places = (Reading.ofFloat x).isReadable places
  rw [Reading.ofFloat, Reading.ofFloat, hmodel, hmodel, parts_neg]
  rcases parts x with (_ | _) | _ | (_ | _) | ⟨(_ | _), m, e, hm⟩ <;> rfl

instance : SymmetricScalar Float where
  neg_neg := neg_neg_double
  neg_mul_add_neg_mul a b x y := by
    rw [neg_mul_double, neg_mul_double]
    exact alike_neg_add_neg _ _
  neg_lt_neg_iff := by
    intro x y
    rw [lt_iff_compare, lt_iff_compare, parts_neg, parts_neg, compare_neg_neg]
  lt_congr hx hy := by
    rw [lt_iff_compare, lt_iff_compare, compare_congr hx hy]
  alike_neg_zero := .inr ⟨rfl, rfl⟩
  isReadable_neg := isReadable_neg_double

end LinearProgram.Double
