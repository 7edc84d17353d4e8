import LinearProgram.Instance
import LinearProgram.Proofs.Decimal.Nearest
import LinearProgram.Proofs.Json.RoundTrip
import LinearProgram.Proofs.Solve.Bounded
/-!
# What is promised of random instances

Over the rationals: a number that is spread over its range stays in the range when it is rounded, since the
ends of all ranges have two places themselves.  So whatever the draws, an instance has coefficients of at
least one half, which makes the origin a point of its region and bounds its objective there.

Proved:
* `spread_bounds`: a rounded number stays in its range.
* `Ranges.isBound`: eight times the limit of any row bounds the objective on the region.
* `kept_random`: an instance is accepted and in its ranges, its origin is feasible and its objective bounded,
  and every method solves it with moderate options unless it runs into the cap.
-/

namespace LinearProgram.Instance

/-! ## Numbers in their ranges -/

variable {low high draw : ℚ}

theorem uniform_bounds (hle : low ≤ high) (hdraw : 0 ≤ draw) (hdraw' : draw < 1) :
    low ≤ uniform low high draw ∧ uniform low high draw ≤ high := by
  have hwidth : 0 ≤ high - low := sub_nonneg.2 hle
  have hstep : 0 ≤ (high - low) * draw := mul_nonneg hwidth hdraw
  have hstep' : (high - low) * draw ≤ high - low := mul_le_of_le_one_right hwidth hdraw'.le
  rw [uniform]
  exact ⟨by linarith, by linarith⟩

/-- Rounding does not leave a range whose ends have two places. -/
theorem spread_bounds {a b : ℤ} (hlow : low = a * (1 / 10 ^ 2)) (hhigh : high = b * (1 / 10 ^ 2))
    (hle : low ≤ high) (hdraw : 0 ≤ draw) (hdraw' : draw < 1) :
    low ≤ spread low high draw ∧ spread low high draw ≤ high := by
  have hunit : (0 : ℚ) < 1 / 10 ^ 2 := by positivity
  obtain ⟨hbelow, habove⟩ := uniform_bounds hle hdraw hdraw'
  obtain ⟨k, hk, hspread⟩ := isNearest_roundPlaces 2 (uniform low high draw)
  have hak : a ≤ k := hk.le_of_le hunit (hlow ▸ hbelow)
  have hkb : k ≤ b := hk.ge_of_ge hunit (hhigh ▸ habove)
  rw [spread, hspread, hlow, hhigh]
  constructor
  · exact mul_le_mul_of_nonneg_right (by exact_mod_cast hak) hunit.le
  · exact mul_le_mul_of_nonneg_right (by exact_mod_cast hkb) hunit.le

theorem ofNat_rat (n : ℕ) : (DecimalScalar.ofNat n : ℚ) = n := by
  have hdecimal : (DecimalScalar.ofNat n : ℚ) = n * 10 ^ 0 / 10 ^ 0 := rfl
  rw [hdecimal, pow_zero, mul_one, div_one]

theorem coefficient_bounds (hdraw : 0 ≤ draw) (hdraw' : draw < 1) :
    1 / 2 ≤ coefficient draw ∧ coefficient draw ≤ 5 := by
  have hlow : (DecimalScalar.ofDecimal false 5 (-1) : ℚ) = 1 / 2 := by decide +kernel
  have hbounds := @spread_bounds (1 / 2) 5 draw 50 500 (by norm_num) (by norm_num) (by norm_num) hdraw
    hdraw'
  rw [coefficient, hlow, ofNat_rat]
  exact hbounds

theorem limit_bounds (n : ℕ) (hdraw : 0 ≤ draw) (hdraw' : draw < 1) :
    2 * n ≤ limit n draw ∧ limit n draw ≤ 6 * n := by
  have hn : (0 : ℚ) ≤ n := n.cast_nonneg
  have hbounds := @spread_bounds (n * 2) (n * 6) draw (200 * n) (600 * n) (by push_cast; ring)
    (by push_cast; ring) (by linarith) hdraw hdraw'
  rw [limit, ofNat_rat, ofNat_rat, ofNat_rat, mul_comm 2, mul_comm 6]
  exact hbounds

theorem gain_bounds (hdraw : 0 ≤ draw) (hdraw' : draw < 1) : 1 ≤ gain draw ∧ gain draw ≤ 4 := by
  have hbounds := @spread_bounds 1 4 draw 100 400 (by norm_num) (by norm_num) (by norm_num) hdraw hdraw'
  rw [gain, ofNat_rat, ofNat_rat]
  exact_mod_cast hbounds

/-! ## Instances in their ranges -/

/-- A maximum problem of `n` variables and `m` upper limits, with the numbers of an instance. -/
structure Ranges (n m : ℕ) (p : Problem ℚ) : Prop where
  maximize : p.maximize = true
  length_objective : p.objective.length = n
  gain : ∀ c ∈ p.objective, 1 ≤ c ∧ c ≤ 4
  length_constraints : p.constraints.length = m
  length_row : ∀ row ∈ p.constraints, row.length = n
  coefficient : ∀ row ∈ p.constraints, ∀ a ∈ row, 1 / 2 ≤ a ∧ a ≤ 5
  relations : p.relations = List.replicate m .atMost
  length_rhs : p.rhs.length = m
  limit : ∀ b ∈ p.rhs, 2 * n ≤ b ∧ b ≤ 6 * n
  objectiveSign : p.objectiveSign = none
  constraintSigns : p.constraintSigns = none

theorem ranges_ofDraws (n m : ℕ) {draw : ℕ → ℚ} (hdraw : ∀ k, 0 ≤ draw k ∧ draw k < 1) :
    Ranges n m (ofDraws n m draw) where
  maximize := rfl
  length_objective := by simp [ofDraws]
  gain c hc := by
    obtain ⟨j, -, rfl⟩ := List.mem_map.1 hc
    exact gain_bounds (hdraw _).1 (hdraw _).2
  length_constraints := by simp [ofDraws]
  length_row row hrow := by
    obtain ⟨i, -, rfl⟩ := List.mem_map.1 hrow
    rw [List.length_map, List.length_range]
  coefficient row hrow a ha := by
    obtain ⟨i, -, rfl⟩ := List.mem_map.1 hrow
    obtain ⟨j, -, rfl⟩ := List.mem_map.1 ha
    exact coefficient_bounds (hdraw _).1 (hdraw _).2
  relations := rfl
  length_rhs := by simp [ofDraws]
  limit b hb := by
    obtain ⟨i, -, rfl⟩ := List.mem_map.1 hb
    exact limit_bounds n (hdraw _).1 (hdraw _).2
  objectiveSign := rfl
  constraintSigns := rfl

/-- The draws of a seed are in the unit interval. -/
theorem draws_bounds (seed : ℤ) (count k : ℕ) :
    0 ≤ draws (α := ℚ) seed count k ∧ draws (α := ℚ) seed count k < 1 := by
  have hlt := Twister.drawOf_lt (Twister.wordsFor seed count) k
  have hdraw : draws (α := ℚ) seed count k =
      (Twister.drawOf (Twister.wordsFor seed count) k : ℚ) / (2 ^ 53 : ℕ) := by
    simp only [draws, ofNat_rat]
  rw [hdraw]
  refine ⟨by positivity, (div_lt_one (by positivity)).2 ?_⟩
  exact_mod_cast hlt

/-! ## A bound for the objective -/

/-- Where one form has coefficients of at most `k` times those of another, so are its values on the
quadrant. -/
theorem dot_le_mul_dot {k : ℚ} {c a x : List ℚ} (hlen : c.length = a.length)
    (hle : ∀ j < c.length, c.getD j 0 ≤ k * a.getD j 0) (hx : ∀ v ∈ x, 0 ≤ v) :
    dot c x ≤ k * dot a x := by
  rw [dot_eq_sum le_rfl, dot_eq_sum hlen.ge, Finset.mul_sum]
  refine Finset.sum_le_sum fun j hj => ?_
  rw [← mul_assoc]
  exact mul_le_mul_of_nonneg_right (hle j (Finset.mem_range.1 hj)) (getD_nonneg hx j)

namespace Ranges

variable {n m : ℕ} {p : Problem ℚ}

theorem variableCount (h : Ranges n m p) : p.variableCount = n := h.length_objective

theorem admissible (h : Ranges n m p) (hn : 1 ≤ n) : p.Admissible where
  objective_ne_nil := List.ne_nil_of_length_pos (h.length_objective.symm ▸ hn)
  length_relations := by rw [h.relations, List.length_replicate, h.length_constraints]
  length_rhs := h.length_rhs.trans h.length_constraints.symm
  isKnown r hr := by
    rw [h.relations] at hr
    rw [List.eq_of_mem_replicate hr]
    rfl

theorem limit_nonneg (h : Ranges n m p) : ∀ b ∈ p.rhs, 0 ≤ b := by
  intro b hb
  have hn : (0 : ℚ) ≤ 2 * n := by positivity
  exact hn.trans (h.limit b hb).1

/-- A gain is at most eight times any coefficient, so eight times the limit of a row bounds the
objective. -/
theorem dot_le (h : Ranges n m p) {i : ℕ} (hi : i < m) {x : List ℚ}
    (hx : Feasible n p.constraints p.rhs x) : dot p.objective x ≤ 8 * p.rhs.getD i 0 := by
  rw [← h.length_constraints] at hi
  have hrow := Grid.getD_mem hi
  have hlen := h.length_objective.trans (h.length_row _ hrow).symm
  have hle : ∀ j < p.objective.length,
      p.objective.getD j 0 ≤ 8 * (p.constraints.getD i []).getD j 0 := by
    intro j hj
    have hj' : j < (p.constraints.getD i []).length := hlen ▸ hj
    rw [List.getD_eq_getElem _ _ hj, List.getD_eq_getElem _ _ hj']
    have hgain := (h.gain _ (List.getElem_mem hj)).2
    have hcoefficient := (h.coefficient _ hrow _ (List.getElem_mem hj')).1
    linarith
  have hdot := dot_le_mul_dot hlen hle hx.nonneg
  have hwithin := hx.within i hi
  linarith

/-- No limit is above six times the number of variables. -/
theorem isBound (h : Ranges n m p) (hm : 1 ≤ m) :
    IsBound p.maximize p.objective (Feasible n p.constraints p.rhs) (48 * n) := by
  intro x hx
  have hdot := h.dot_le hm hx
  have h0 : 0 < p.rhs.length := h.length_rhs.symm ▸ hm
  rw [List.getD_eq_getElem _ _ h0] at hdot
  have hlimit := (h.limit _ (List.getElem_mem h0)).2
  rw [h.maximize]
  exact not_lt.2 (by linarith)

end Ranges

/-! ## Promises kept -/

/-- What is promised of an instance with `n` variables and `m` rows. -/
structure Kept (n m : ℕ) (p : Problem ℚ) : Prop extends Ranges n m p where
  accepted : p.checked = .accepted p
  admissible : p.Admissible
  origin : Feasible n p.constraints p.rhs (List.replicate n 0)
  bounded : ∃ bound, ∀ x, Feasible n p.constraints p.rhs x → dot p.objective x ≤ bound
  solved : ∀ (requested : Option String) (options : Options ℚ), options.pivotTolerance = 0 →
    0 ≤ options.feasibilityTolerance → options.Moderate →
      (p.solve requested options).status = .optimal ∨
        (p.solve requested options).status = .iterationLimit

theorem Ranges.kept {n m : ℕ} {p : Problem ℚ} (h : Ranges n m p) (hn : 1 ≤ n) (hm : 1 ≤ m) :
    Kept n m p := by
  have hadmissible := h.admissible hn
  have hbound := h.isBound hm
  refine ⟨h, ?_, hadmissible, feasible_origin n h.limit_nonneg, ?_, ?_⟩
  · exact Problem.checked_eq_accepted_iff.2 ⟨⟨hadmissible.1, hadmissible.2, hadmissible.3⟩, rfl⟩
  · rw [h.maximize] at hbound
    exact ⟨48 * n, fun x hx => not_lt.1 (hbound x hx)⟩
  · intro requested options htol hfeasibility hmoderate
    have hobjective := Problem.signedObjective_of_none h.objectiveSign
    have hconstraints := Problem.signedConstraints_of_none h.constraintSigns
    have hw : ∀ row ∈ p.constraints, row.length = p.variableCount := h.variableCount.symm ▸ h.length_row
    have hupper : ∀ r ∈ p.relations, r = .atMost := fun r hr =>
      List.eq_of_mem_replicate (h.relations ▸ hr)
    rw [← hobjective, ← hconstraints, ← h.variableCount] at hbound
    exact Problem.status_of_bounded hadmissible hw hupper h.limit_nonneg htol hfeasibility hmoderate hbound
      requested

/-- Whatever the draws from the unit interval, and so for every seed, an instance with a variable and a row
is what it was promised to be. -/
theorem kept_random {n m : ℕ} (hn : 1 ≤ n) (hm : 1 ≤ m) :
    (∀ draw : ℕ → ℚ, (∀ k, 0 ≤ draw k ∧ draw k < 1) → Kept n m (ofDraws n m draw)) ∧
      ∀ seed : ℤ, Kept n m (random n m seed) :=
  ⟨fun _ hdraw => (ranges_ofDraws n m hdraw).kept hn hm,
    fun seed => (ranges_ofDraws n m (draws_bounds seed _)).kept hn hm⟩

/-- The draws `0, 1/11, …, 10/11` make an instance of three variables and two rows, which has an optimum. -/
theorem kept_random_eleven_draws :
    ∃ p : Problem ℚ, p.objective = [159 / 50, 69 / 20, 373 / 100] ∧
      p.constraints = [[1 / 2, 91 / 100, 33 / 25], [107 / 50, 51 / 20, 59 / 20]] ∧
      p.rhs = [927 / 100, 341 / 25] ∧ Kept 3 2 p ∧
      (p.solve none { Options.standard with pivotTolerance := 0 }).status = .optimal := by
  have hdraw : ∀ k : ℕ, 0 ≤ ((k % 11 : ℕ) : ℚ) / 11 ∧ ((k % 11 : ℕ) : ℚ) / 11 < 1 := by
    intro k
    have hlt : ((k % 11 : ℕ) : ℚ) < 11 := by exact_mod_cast Nat.mod_lt k (by decide)
    exact ⟨by positivity, (div_lt_one (by norm_num)).2 hlt⟩
  exact ⟨_, by decide +kernel, by decide +kernel, by decide +kernel,
    (@kept_random 3 2 (by decide) (by decide)).1 _ hdraw, by decide +kernel⟩

end LinearProgram.Instance
