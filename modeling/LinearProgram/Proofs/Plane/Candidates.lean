import LinearProgram.Proofs.Plane.Region
/-!
# Every corner is a candidate

Two walls that are not parallel have one common point.  Whichever walls these are, two borders, a
border and an axis, or the two axes, one of the three sources of candidates yields that point,
as long as the tolerance keeps apart what is zero and what is not (`Sharp`).

Proved:
* `Region.mem_candidates`: a candidate is a meeting of two borders, a crossing of a border, or the origin.
* `eq_common`: a point on two walls that are not parallel is their common point.
* `Region.common_mem_candidates`: the common point of two walls is a candidate.
-/

namespace LinearProgram

/-! ## Where candidates come from -/

section Candidates

variable {α : Type} [Scalar α] {detTolerance : α} {borders : List (Border α)} {x : α × α}

theorem Region.mem_meetings (h : x ∈ meetings detTolerance borders) :
    ∃ p ∈ borders, ∃ q ∈ borders, p.meet detTolerance q = some x := by
  induction borders with
  | nil => exact absurd h List.not_mem_nil
  | cons p rest ih =>
    rcases List.mem_append.1 h with h | h
    · obtain ⟨q, hq, hmeet⟩ := List.mem_filterMap.1 h
      exact ⟨p, List.mem_cons_self, q, List.mem_cons_of_mem _ hq, hmeet⟩
    · obtain ⟨p', hp', q, hq, hmeet⟩ := ih h
      exact ⟨p', List.mem_cons_of_mem _ hp', q, List.mem_cons_of_mem _ hq, hmeet⟩

/-- A candidate is a meeting of two borders, a crossing of a border with an axis, or the origin. -/
theorem Region.mem_candidates (h : x ∈ candidates detTolerance borders) :
    (∃ p ∈ borders, ∃ q ∈ borders, p.meet detTolerance q = some x) ∨
      (∃ b ∈ borders, x ∈ b.crossings detTolerance) ∨ x = (0, 0) := by
  rcases List.mem_append.1 h with h | h
  · rcases List.mem_append.1 h with h | h
    · exact .inl (mem_meetings h)
    · exact .inr (.inl (List.mem_flatMap.1 h))
  · exact .inr (.inr (List.mem_singleton.1 h))

theorem Border.mem_crossings {b : Border α} (h : x ∈ b.crossings detTolerance) :
    (detTolerance < Scalar.abs b.a₂ ∧ x = (0, b.limit / b.a₂)) ∨
      (detTolerance < Scalar.abs b.a₁ ∧ x = (b.limit / b.a₁, 0)) := by
  rcases List.mem_append.1 h with h | h
  · by_cases hsize : detTolerance < Scalar.abs b.a₂
    · rw [if_pos hsize] at h
      exact .inl ⟨hsize, List.mem_singleton.1 h⟩
    · rw [if_neg hsize] at h
      exact absurd h List.not_mem_nil
  · by_cases hsize : detTolerance < Scalar.abs b.a₁
    · rw [if_pos hsize] at h
      exact .inr ⟨hsize, List.mem_singleton.1 h⟩
    · rw [if_neg hsize] at h
      exact absurd h List.not_mem_nil

end Candidates

/-! ## Common points -/

namespace Border

variable {p q : Border ℚ} {tolerance : ℚ}

/-- Rule of Cramer. -/
theorem eq_common {x : ℚ × ℚ} (hp : p.Tight x) (hq : q.Tight x) (hdet : det p q ≠ 0) :
    x = common p q := by
  rw [Tight, lhs] at hp hq
  refine Prod.ext ?_ ?_
  · rw [common, eq_div_iff hdet, det, ← hp, ← hq]
    ring
  · rw [common, eq_div_iff hdet, det, ← hp, ← hq]
    ring

theorem det_comm (p q : Border ℚ) : det q p = -det p q := by
  rw [det, det]
  ring

theorem common_comm (p q : Border ℚ) : common q p = common p q := by
  rw [common, common, det_comm p q]
  refine Prod.ext ?_ ?_
  · rw [div_neg, ← neg_div, neg_sub]
  · rw [div_neg, ← neg_div, neg_sub]
    ring

/-- What a tolerance needs to tell the coefficients and the determinants of some borders from zero. -/
structure Sharp (tolerance : ℚ) (borders : List (Border ℚ)) : Prop where
  coefficient₁ : ∀ b ∈ borders, b.a₁ ≠ 0 → tolerance < |b.a₁|
  coefficient₂ : ∀ b ∈ borders, b.a₂ ≠ 0 → tolerance < |b.a₂|
  determinant : ∀ p ∈ borders, ∀ q ∈ borders, det p q ≠ 0 → tolerance ≤ |det p q|

theorem meet_eq_some (h : tolerance ≤ |det p q|) : p.meet tolerance q = some (common p q) := by
  rw [meet, parallel, Scalar.abs_rat, decide_eq_false (not_lt.2 h)]
  rfl

theorem crossing₁_mem (h : tolerance < |p.a₂|) : (0, p.limit / p.a₂) ∈ p.crossings tolerance := by
  rw [crossings, Scalar.abs_rat, if_pos h]
  exact List.mem_append_left _ List.mem_cons_self

theorem crossing₂_mem (h : tolerance < |p.a₁|) : (p.limit / p.a₁, 0) ∈ p.crossings tolerance := by
  rw [crossings, Scalar.abs_rat p.a₁, if_pos h]
  exact List.mem_append_right _ List.mem_cons_self

end Border

namespace Region

open Border

variable {borders : List (Border ℚ)} {p q : Border ℚ} {tolerance : ℚ}

/-- The pairs are walked through in one order only, which is enough because a common point does not
depend on it. -/
theorem common_mem_meetings (hsharp : Sharp tolerance borders) (hp : p ∈ borders) (hq : q ∈ borders)
    (hdet : det p q ≠ 0) : common p q ∈ meetings tolerance borders := by
  induction borders with
  | nil => exact absurd hp List.not_mem_nil
  | cons b rest ih =>
    have hmeet : ∀ b' ∈ rest, det b b' ≠ 0 → common b b' ∈ meetings tolerance (b :: rest) := by
      intro b' hb' hdet'
      have hsize := hsharp.determinant b List.mem_cons_self b' (List.mem_cons_of_mem _ hb') hdet'
      exact List.mem_append_left _ (List.mem_filterMap.2 ⟨b', hb', meet_eq_some hsize⟩)
    rcases List.mem_cons.1 hp with rfl | hp'
    · rcases List.mem_cons.1 hq with rfl | hq'
      · exact absurd (sub_self _) hdet
      · exact hmeet q hq' hdet
    · rcases List.mem_cons.1 hq with rfl | hq'
      · rw [← common_comm]
        exact hmeet p hp' (by rwa [det_comm, neg_ne_zero])
      · have hsharp' : Sharp tolerance rest :=
          ⟨fun b' hb' => hsharp.coefficient₁ b' (List.mem_cons_of_mem _ hb'),
            fun b' hb' => hsharp.coefficient₂ b' (List.mem_cons_of_mem _ hb'),
            fun b' hb' b'' hb'' => hsharp.determinant b' (List.mem_cons_of_mem _ hb') b''
              (List.mem_cons_of_mem _ hb'')⟩
        exact List.mem_append_right _ (ih hsharp' hp' hq')

theorem common_axis_mem_candidates (hsharp : Sharp tolerance borders) (hp : p ∈ borders)
    (hq : q ∈ axes) (hdet : det p q ≠ 0) : common p q ∈ candidates tolerance borders := by
  have hcross : ∀ x ∈ p.crossings tolerance, x ∈ candidates tolerance borders := fun x hx =>
    List.mem_append_left _ (List.mem_append_right _ (List.mem_flatMap.2 ⟨p, hp, hx⟩))
  rcases List.mem_cons.1 hq with rfl | hq
  · have ha : p.a₂ ≠ 0 := by simpa [det] using hdet
    have hcommon : common p ⟨1, 0, .atLeast, 0⟩ = (0, p.limit / p.a₂) := by
      simp [common, det, neg_div_neg_eq]
    rw [hcommon]
    exact hcross _ (crossing₁_mem (hsharp.coefficient₂ p hp ha))
  · rw [List.mem_singleton.1 hq] at hdet ⊢
    have ha : p.a₁ ≠ 0 := by simpa [det] using hdet
    have hcommon : common p ⟨0, 1, .atLeast, 0⟩ = (p.limit / p.a₁, 0) := by
      simp [common, det]
    rw [hcommon]
    exact hcross _ (crossing₂_mem (hsharp.coefficient₁ p hp ha))

theorem common_axes (hp : p ∈ axes) (hq : q ∈ axes) : common p q = (0, 0) := by
  have hlimit : ∀ a ∈ axes, a.limit = 0 := by decide
  rw [common, hlimit p hp, hlimit q hq]
  simp

/-- The common point of two walls that are not parallel is a candidate. -/
theorem common_mem_candidates (hsharp : Sharp tolerance borders) (hp : p ∈ walls borders)
    (hq : q ∈ walls borders) (hdet : det p q ≠ 0) : common p q ∈ candidates tolerance borders := by
  rcases List.mem_append.1 hp with hp | hp
  · rcases List.mem_append.1 hq with hq | hq
    · exact List.mem_append_left _
        (List.mem_append_left _ (common_mem_meetings hsharp hp hq hdet))
    · exact common_axis_mem_candidates hsharp hp hq hdet
  · rcases List.mem_append.1 hq with hq | hq
    · rw [← common_comm]
      exact common_axis_mem_candidates hsharp hq hp (by rwa [det_comm, neg_ne_zero])
    · rw [common_axes hp hq]
      exact List.mem_append_right _ List.mem_cons_self

end Region

end LinearProgram
