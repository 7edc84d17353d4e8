import LinearProgram.Plane
import LinearProgram.Proofs.Plane.Region
import Mathlib.Algebra.Order.Field.Basic
/-!
# Corners of a region

From a point of the region go in a direction that all walls through the point follow.  Either the way
stays in the region for ever, or a first wall stops it, and that wall runs across the direction
(`Free.never_or_stops`).  The axes stop at least one of two opposite directions, and a bound on a
linear form stops those along which the form grows, so a way that ends on another wall and on which
the form does not fall always exists (`exists_tight`).  Taken twice it leads to a corner.

Proved:
* `exists_corner`: a linear form with a bound on the region is somewhere at least as large at a corner,
  the meeting of two walls that are not parallel, as at a given point of the region.
-/

namespace LinearProgram

/-- From a value that a relation allows, and that does not leave its limit, a growing left-hand side is
allowed for ever or arrives at the limit. -/
theorem Relation.Relates.never_or_stops {r : Relation} {lhs limit slope : ℚ}
    (hr : r.Relates lhs limit) (hslope : lhs = limit → slope = 0) :
    (∀ t, 0 ≤ t → r.Relates (lhs + t * slope) limit) ∨
      ∃ s, 0 ≤ s ∧ lhs + s * slope = limit ∧ slope ≠ 0 := by
  cases r with
  | atMost =>
    rw [Relates] at hr
    rcases le_or_gt slope 0 with hd | hd
    · refine Or.inl fun t ht => ?_
      rw [Relates]
      linarith [mul_nonpos_of_nonneg_of_nonpos ht hd]
    · refine Or.inr ⟨(limit - lhs) / slope, div_nonneg (sub_nonneg.2 hr) hd.le, ?_, hd.ne'⟩
      rw [div_mul_cancel₀ _ hd.ne', add_sub_cancel]
  | equal =>
    refine Or.inl fun t _ => ?_
    rw [Relates] at hr ⊢
    rw [hslope hr, mul_zero, add_zero, hr]
  | atLeast =>
    rw [Relates] at hr
    rcases le_or_gt 0 slope with hd | hd
    · refine Or.inl fun t ht => ?_
      rw [Relates]
      linarith [mul_nonneg ht hd]
    · refine Or.inr ⟨(limit - lhs) / slope,
        div_nonneg_of_nonpos (sub_nonpos.2 hr) hd.le, ?_, hd.ne⟩
      rw [div_mul_cancel₀ _ hd.ne, add_sub_cancel]
  | other _ => exact Or.inl fun _ _ => trivial

namespace Border

variable {x d : ℚ × ℚ}

theorem never_or_stops {b : Border ℚ} (hx : b.Allows x) (hd : b.Tight x → b.lhs d = 0) :
    (∀ t, 0 ≤ t → b.Allows (along x d t)) ∨
      ∃ s, 0 ≤ s ∧ b.Tight (along x d s) ∧ b.lhs d ≠ 0 := by
  simp only [Allows, Tight, lhs_along]
  exact Relation.Relates.never_or_stops hx hd

/-- Of several borders the first that is met stops, and all others still allow its point. -/
theorem exists_first_stop {ps : List (Border ℚ)} (hx : ∀ p ∈ ps, p.Allows x)
    (hd : ∀ p ∈ ps, p.Tight x → p.lhs d = 0) :
    (∀ t, 0 ≤ t → ∀ p ∈ ps, p.Allows (along x d t)) ∨
      ∃ s, 0 ≤ s ∧ (∀ p ∈ ps, p.Allows (along x d s)) ∧
        ∃ q ∈ ps, q.Tight (along x d s) ∧ q.lhs d ≠ 0 := by
  induction ps with
  | nil => exact Or.inl fun _ _ p hp => absurd hp List.not_mem_nil
  | cons p ps ih =>
    rw [List.forall_mem_cons] at hx hd
    have hstop : ∀ s, p.Allows (along x d s) → (∀ p ∈ ps, p.Allows (along x d s)) →
        ∀ p' ∈ p :: ps, p'.Allows (along x d s) :=
      fun s hp hps => List.forall_mem_cons.2 ⟨hp, hps⟩
    rcases never_or_stops hx.1 hd.1 with hp | ⟨s, hs, hp, hslope⟩
    · rcases ih hx.2 hd.2 with hps | ⟨s, hs, hps, q, hq, htight⟩
      · exact Or.inl fun t ht => hstop t (hp t ht) (hps t ht)
      · exact Or.inr ⟨s, hs, hstop s (hp s hs) hps, q, List.mem_cons_of_mem _ hq, htight⟩
    · rcases ih hx.2 hd.2 with hps | ⟨s', hs', hps, q, hq, htight⟩
      · exact Or.inr ⟨s, hs, hstop s hp.allows (hps s hs), p, List.mem_cons_self, hp, hslope⟩
      · rcases le_total s s' with hle | hle
        · have hbefore : ∀ p ∈ ps, p.Allows (along x d s) :=
            fun p' hp' => (hx.2 p' hp').between (hps p' hp') hs hle
          exact Or.inr ⟨s, hs, hstop s hp.allows hbefore, p, List.mem_cons_self, hp, hslope⟩
        · have hbefore : p.Allows (along x d s') := hx.1.between hp.allows hs' hle
          exact Or.inr ⟨s', hs', hstop s' hbefore hps, q, List.mem_cons_of_mem _ hq, htight⟩

end Border

namespace Region

open Plane

variable {borders : List (Border ℚ)} {x d c : ℚ × ℚ} {bound : ℚ}

theorem value_along (c x d : ℚ × ℚ) (t : ℚ) :
    value c (along x d t) = value c x + t * value c d := by
  simp only [value, along]
  ring

/-- What never falls below zero does not fall. -/
theorem slope_nonneg {start slope : ℚ} (h : ∀ t, 0 ≤ t → 0 ≤ start + t * slope) : 0 ≤ slope := by
  by_contra hneg
  rw [not_le] at hneg
  have hstart : 0 ≤ start := by simpa using h 0 le_rfl
  have htime : 0 ≤ (start + 1) / -slope := div_nonneg (by linarith) (by linarith)
  have hend := h _ htime
  rw [div_neg, neg_mul, div_mul_cancel₀ _ hneg.ne] at hend
  linarith

/-- A way that never leaves the region leads away from neither axis to its other side. -/
theorem nonneg_of_never (h : ∀ t, 0 ≤ t → Contains borders (along x d t)) : 0 ≤ d.1 ∧ 0 ≤ d.2 :=
  ⟨slope_nonneg fun t ht => (contains_iff.1 (h t ht)).1.1,
    slope_nonneg fun t ht => (contains_iff.1 (h t ht)).1.2⟩

/-- A form with a bound on the region does not grow on a way that never leaves it. -/
theorem value_nonpos_of_never (hbound : ∀ y, Contains borders y → value c y ≤ bound)
    (h : ∀ t, 0 ≤ t → Contains borders (along x d t)) : value c d ≤ 0 := by
  have hroom : ∀ t, 0 ≤ t → 0 ≤ bound - value c x + t * -value c d := fun t ht => by
    have hle := hbound _ (h t ht)
    rw [value_along] at hle
    linarith
  exact neg_nonneg.1 (slope_nonneg hroom)

theorem value_neg (c d : ℚ × ℚ) : value c (-d) = -value c d := by
  simp only [value, Prod.fst_neg, Prod.snd_neg]
  ring

/-- A direction that all walls through a point follow. -/
def Free (borders : List (Border ℚ)) (x d : ℚ × ℚ) : Prop :=
  ∀ p ∈ walls borders, p.Tight x → p.lhs d = 0

/-- The way in a direction ends in the region on a wall that runs across it. -/
def Stops (borders : List (Border ℚ)) (x d : ℚ × ℚ) : Prop :=
  ∃ s, 0 ≤ s ∧ Contains borders (along x d s) ∧
    ∃ q ∈ walls borders, q.Tight (along x d s) ∧ q.lhs d ≠ 0

theorem Free.neg (h : Free borders x d) : Free borders x (-d) := fun p hp hpx => by
  rw [Border.lhs_neg, h p hp hpx, neg_zero]

theorem Free.never_or_stops (h : Free borders x d) (hx : Contains borders x) :
    (∀ t, 0 ≤ t → Contains borders (along x d t)) ∨ Stops borders x d :=
  Border.exists_first_stop hx h

/-- A way on which a form with a bound grows is stopped. -/
theorem Free.stops_of_value_pos (h : Free borders x d) (hx : Contains borders x)
    (hbound : ∀ y, Contains borders y → value c y ≤ bound) (hvalue : 0 < value c d) :
    Stops borders x d := by
  rcases h.never_or_stops hx with hnever | hstop
  · exact absurd hvalue (not_lt.2 (value_nonpos_of_never hbound hnever))
  · exact hstop

/-- Of a direction and its opposite one is stopped, because no way leads across both axes for ever. -/
theorem Free.stops_or_stops_neg (h : Free borders x d) (hx : Contains borders x) (hd : d ≠ (0, 0)) :
    Stops borders x d ∨ Stops borders x (-d) := by
  rcases h.never_or_stops hx with hnever | hstop
  · rcases h.neg.never_or_stops hx with hnever' | hstop
    · have hd₁ := nonneg_of_never hnever
      have hd₂ := nonneg_of_never hnever'
      refine absurd (Prod.ext ?_ ?_) hd
      · exact le_antisymm (neg_nonneg.1 hd₂.1) hd₁.1
      · exact le_antisymm (neg_nonneg.1 hd₂.2) hd₁.2
    · exact Or.inr hstop
  · exact Or.inl hstop

/-- Of a direction and its opposite one is stopped on which the form does not fall. -/
theorem Free.exists_stops (h : Free borders x d) (hx : Contains borders x)
    (hbound : ∀ y, Contains borders y → value c y ≤ bound) (hd : d ≠ (0, 0)) :
    ∃ e, (e = d ∨ e = -d) ∧ 0 ≤ value c e ∧ Stops borders x e := by
  rcases lt_trichotomy (value c d) 0 with hvalue | hvalue | hvalue
  · have hback : 0 < value c (-d) := by
      rw [value_neg]
      exact neg_pos.2 hvalue
    exact ⟨-d, Or.inr rfl, hback.le, h.neg.stops_of_value_pos hx hbound hback⟩
  · rcases h.stops_or_stops_neg hx hd with hstop | hstop
    · exact ⟨d, Or.inl rfl, hvalue.ge, hstop⟩
    · refine ⟨-d, Or.inr rfl, ?_, hstop⟩
      rw [value_neg, hvalue, neg_zero]
  · exact ⟨d, Or.inl rfl, hvalue.le, h.stops_of_value_pos hx hbound hvalue⟩

/-- Without loss of value and of walls a point can be moved to a wall across a direction. -/
theorem exists_tight (hx : Contains borders x)
    (hbound : ∀ y, Contains borders y → value c y ≤ bound) (hd : d ≠ (0, 0)) :
    ∃ y, Contains borders y ∧ value c x ≤ value c y ∧
      (∀ p ∈ walls borders, p.Tight x → p.Tight y) ∧
      ∃ q ∈ walls borders, q.Tight y ∧ q.lhs d ≠ 0 := by
  by_cases hfree : Free borders x d
  · obtain ⟨e, he, hvalue, s, hs, hcontains, q, hq, htight, hslope⟩ :=
      hfree.exists_stops hx hbound hd
    have hsign : ∀ p : Border ℚ, p.lhs e = 0 ↔ p.lhs d = 0 := fun p => by
      rcases he with rfl | rfl
      · exact Iff.rfl
      · rw [Border.lhs_neg, neg_eq_zero]
    refine ⟨along x e s, hcontains, ?_, fun p hp hpx => ?_, q, hq, htight, ?_⟩
    · rw [value_along]
      exact le_add_of_nonneg_right (mul_nonneg hs hvalue)
    · rw [Border.Tight, Border.lhs_along, (hsign p).2 (hfree p hp hpx), mul_zero, add_zero]
      exact hpx
    · exact mt (hsign q).2 hslope
  · unfold Free at hfree
    push Not at hfree
    obtain ⟨q, hq, hqx, hslope⟩ := hfree
    exact ⟨x, hx, le_rfl, fun _ _ h => h, q, hq, hqx, hslope⟩

/-- A form with a bound on the region has a corner that is as good as a given point. -/
theorem exists_corner (hx : Contains borders x)
    (hbound : ∀ y, Contains borders y → value c y ≤ bound) :
    ∃ v, Contains borders v ∧ value c x ≤ value c v ∧ ∃ p ∈ walls borders, ∃ q ∈ walls borders,
      p.Tight v ∧ q.Tight v ∧ Border.det p q ≠ 0 := by
  have hright : ((1, 0) : ℚ × ℚ) ≠ (0, 0) := by decide
  obtain ⟨y, hy, hxy, -, p, hp, hpy, hslope⟩ := exists_tight hx hbound hright
  have hp₁ : p.a₁ ≠ 0 := by simpa [Border.lhs] using hslope
  -- the second way follows the first wall, so what stops it is not parallel to that wall
  have hbeside : ((-p.a₂, p.a₁) : ℚ × ℚ) ≠ (0, 0) := fun h => hp₁ (congrArg Prod.snd h)
  obtain ⟨v, hv, hyv, hkeep, q, hq, hqv, hacross⟩ := exists_tight hy hbound hbeside
  refine ⟨v, hv, hxy.trans hyv, p, hp, q, hq, hkeep p hp hpy, hqv, fun hdet => hacross ?_⟩
  rw [← hdet, Border.lhs, Border.det]
  ring

end Region

end LinearProgram
