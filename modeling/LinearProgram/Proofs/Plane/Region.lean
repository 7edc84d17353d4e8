import LinearProgram.Plane.Border
import LinearProgram.Proofs.Feasible
import Mathlib.Tactic.Linarith
/-!
# The region of a drawing

Over the rationals and with the tolerance zero a border keeps the points its row allows, and the region
is the quadrant less what the rows forbid.  The two axes are borders of the quadrant: with them as
walls the region is just the points that every wall allows (`contains_iff`), and nothing that
follows treats the quadrant apart.

Proved:
* `Region.holds_iff`: with the tolerance zero the test of a point says whether it is in the region.
* `Border.Allows.between`: what lies between two points of a border's side is on that side.
-/

namespace LinearProgram

/-- What a relation asks of a row's left-hand side and its limit. -/
def Relation.Relates : Relation → ℚ → ℚ → Prop
  | .atMost, lhs, limit => lhs ≤ limit
  | .equal, lhs, limit => lhs = limit
  | .atLeast, lhs, limit => limit ≤ lhs
  | .other _, _, _ => True

instance (r : Relation) (lhs limit : ℚ) : Decidable (r.Relates lhs limit) :=
  match r with
  | .atMost => inferInstanceAs (Decidable (lhs ≤ limit))
  | .equal => inferInstanceAs (Decidable (lhs = limit))
  | .atLeast => inferInstanceAs (Decidable (limit ≤ lhs))
  | .other _ => inferInstanceAs (Decidable True)

/-- Between two values that a relation allows it allows all. -/
theorem Relation.Relates.between {r : Relation} {lhs limit slope s t : ℚ} (hr : r.Relates lhs limit)
    (hs : r.Relates (lhs + s * slope) limit) (ht : 0 ≤ t) (hts : t ≤ s) :
    r.Relates (lhs + t * slope) limit := by
  cases r with
  | atMost =>
    rw [Relates] at hr hs ⊢
    rcases le_total slope 0 with hd | hd
    · linarith [mul_nonpos_of_nonneg_of_nonpos ht hd]
    · linarith [mul_le_mul_of_nonneg_right hts hd]
  | equal =>
    rw [Relates] at hr hs ⊢
    rcases eq_or_lt_of_le (ht.trans hts) with rfl | hpos
    · rw [le_antisymm hts ht, hs]
    · have hslope : slope = 0 := by
        have hmul : s * slope = 0 := by linarith
        exact (mul_eq_zero.1 hmul).resolve_left hpos.ne'
      rw [hslope, mul_zero, add_zero, hr]
  | atLeast =>
    rw [Relates] at hr hs ⊢
    rcases le_total slope 0 with hd | hd
    · linarith [mul_le_mul_of_nonpos_right hts hd]
    · linarith [mul_nonneg ht hd]
  | other _ => trivial

/-- The point that is reached from `x` in the direction `d` after the time `t`. -/
def along (x d : ℚ × ℚ) (t : ℚ) : ℚ × ℚ := (x.1 + t * d.1, x.2 + t * d.2)

namespace Border

/-- A point on the kept side of a border. -/
def Allows (b : Border ℚ) (x : ℚ × ℚ) : Prop := b.relation.Relates (b.lhs x) b.limit

/-- A point on the border line. -/
def Tight (b : Border ℚ) (x : ℚ × ℚ) : Prop := b.lhs x = b.limit

theorem Tight.allows {b : Border ℚ} {x : ℚ × ℚ} (h : b.Tight x) : b.Allows x := by
  rw [Tight] at h
  rw [Allows, h]
  cases b.relation with
  | atMost => exact le_rfl
  | equal => rfl
  | atLeast => exact le_rfl
  | other _ => trivial

theorem keeps_iff (b : Border ℚ) (x : ℚ × ℚ) : b.keeps 0 x = true ↔ b.Allows x := by
  rw [keeps, Allows]
  cases b.relation with
  | atMost => simp [Relation.Relates]
  | equal => simp [Relation.Relates, Scalar.abs_rat, sub_eq_zero]
  | atLeast => simp [Relation.Relates]
  | other _ => simp [Relation.Relates]

theorem lhs_along (b : Border ℚ) (x d : ℚ × ℚ) (t : ℚ) :
    b.lhs (along x d t) = b.lhs x + t * b.lhs d := by
  simp only [lhs, along]
  ring

theorem lhs_neg (b : Border ℚ) (d : ℚ × ℚ) : b.lhs (-d) = -b.lhs d := by
  simp only [lhs, Prod.fst_neg, Prod.snd_neg]
  ring

/-- The side of a border is convex. -/
theorem Allows.between {b : Border ℚ} {x d : ℚ × ℚ} {s t : ℚ} (hx : b.Allows x)
    (hs : b.Allows (along x d s)) (ht : 0 ≤ t) (hts : t ≤ s) : b.Allows (along x d t) := by
  rw [Allows, lhs_along] at hs ⊢
  exact Relation.Relates.between hx hs ht hts

end Border

namespace Region

/-- The two axes as borders of the quadrant. -/
def axes : List (Border ℚ) := [⟨1, 0, .atLeast, 0⟩, ⟨0, 1, .atLeast, 0⟩]

/-- All lines that bound the region. -/
def walls (borders : List (Border ℚ)) : List (Border ℚ) := borders ++ axes

/-- A point of the region. -/
def Contains (borders : List (Border ℚ)) (x : ℚ × ℚ) : Prop := ∀ p ∈ walls borders, p.Allows x

variable {borders : List (Border ℚ)} {x : ℚ × ℚ}

theorem contains_iff :
    Contains borders x ↔ (0 ≤ x.1 ∧ 0 ≤ x.2) ∧ ∀ b ∈ borders, b.Allows x := by
  simp [Contains, walls, axes, or_imp, forall_and, Border.Allows, Border.lhs, Relation.Relates,
    and_comm]

theorem holds_iff : holds 0 borders x = true ↔ Contains borders x := by
  rw [holds, Bool.and_eq_true, List.all_eq_true, contains_iff]
  simp only [Border.keeps_iff]
  simp [inQuadrant]

end Region

end LinearProgram
