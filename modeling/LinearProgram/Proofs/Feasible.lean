import Mathlib.Algebra.BigOperators.Ring.Finset
import Mathlib.Algebra.Order.Ring.Rat
import Mathlib.Data.List.GetD
import Mathlib.Tactic.Ring
import LinearProgram.Grid
/-!
# Linear programs over the rationals

What a solution of a linear program is, said without any solver: the value of a linear form at a
point (`dot`), the region `x ≥ 0`, `A x ≤ b` (`Feasible`), when one value is better than another
in the sense of the problem (`Improves`), and a best point of a region (`IsOptimum`).
-/

namespace LinearProgram

/-- The value of a linear form at a point. -/
def dot (a x : List ℚ) : ℚ := (List.zipWith (· * ·) a x).sum

/-- A point of `n` coordinates in the region `x ≥ 0`, `A x ≤ b`. -/
structure Feasible (n : Nat) (rows : Grid ℚ) (limits : List ℚ) (x : List ℚ) : Prop where
  length_eq : x.length = n
  nonneg : ∀ v ∈ x, 0 ≤ v
  within : ∀ i < rows.length, dot (rows.getD i []) x ≤ limits.getD i 0

/-- A value is strictly better than another: larger for a maximum, smaller for a minimum. -/
def Improves (maximize : Bool) (better value : ℚ) : Prop :=
  if maximize then value < better else better < value

theorem Scalar.abs_rat (x : ℚ) : Scalar.abs x = |x| := by
  have habs : Scalar.abs x = if x < 0 then -x else x := rfl
  rw [habs]
  split
  · next hx => exact (abs_of_neg hx).symm
  · next hx => exact (abs_of_nonneg (not_lt.1 hx)).symm

theorem Improves.asymm {maximize : Bool} {u v : ℚ} (h : Improves maximize u v) :
    ¬ Improves maximize v u := by
  cases maximize with
  | true => exact lt_asymm (a := v) (b := u) h
  | false => exact lt_asymm (a := u) (b := v) h

theorem not_improves_trans {maximize : Bool} {u v w : ℚ} (huv : ¬ Improves maximize u v)
    (hvw : ¬ Improves maximize v w) : ¬ Improves maximize u w := by
  cases maximize with
  | true => exact not_lt.2 ((not_lt.1 huv).trans (not_lt.1 hvw))
  | false => exact not_lt.2 ((not_lt.1 hvw).trans (not_lt.1 huv))

/-- A point of a region such that no point of the region has a better value. -/
structure IsOptimum (maximize : Bool) (objective : List ℚ) (region : List ℚ → Prop) (x : List ℚ) :
    Prop where
  mem : region x
  best : ∀ y, region y → ¬ Improves maximize (dot objective y) (dot objective x)

theorem eq_of_not_improves {maximize : Bool} {u v : ℚ} (huv : ¬ Improves maximize u v)
    (hvu : ¬ Improves maximize v u) : u = v := by
  cases maximize with
  | true => exact le_antisymm (not_lt.1 huv) (not_lt.1 hvu)
  | false => exact le_antisymm (not_lt.1 hvu) (not_lt.1 huv)

/-- A region may have many optima, but all with one value. -/
theorem IsOptimum.dot_eq {maximize : Bool} {objective : List ℚ} {region : List ℚ → Prop}
    {x y : List ℚ} (hx : IsOptimum maximize objective region x)
    (hy : IsOptimum maximize objective region y) : dot objective x = dot objective y :=
  eq_of_not_improves (hy.best x hx.mem) (hx.best y hy.mem)

/-! ## Linear forms as sums -/

theorem dot_cons (a : ℚ) (as : List ℚ) (x : ℚ) (xs : List ℚ) :
    dot (a :: as) (x :: xs) = a * x + dot as xs := by
  simp [dot]

/-- A linear form is the sum over any range that covers its coefficients. -/
theorem dot_eq_sum {a : List ℚ} {n : Nat} (h : a.length ≤ n) (x : List ℚ) :
    dot a x = ∑ j ∈ Finset.range n, a.getD j 0 * x.getD j 0 := by
  induction a generalizing n x with
  | nil => simp [dot]
  | cons a as ih =>
    cases x with
    | nil => simp [dot]
    | cons x xs =>
      cases n with
      | zero => simp at h
      | succ n =>
        rw [dot_cons, Finset.sum_range_succ', ih (by simpa using h)]
        simp [add_comm]

theorem dot_append {a x : List ℚ} (h : a.length = x.length) (b y : List ℚ) :
    dot (a ++ b) (x ++ y) = dot a x + dot b y := by
  unfold dot
  rw [List.zipWith_append h, List.sum_append]

theorem dot_map_neg (a x : List ℚ) : dot (a.map (-·)) x = -dot a x := by
  induction a generalizing x with
  | nil => simp [dot]
  | cons a as ih =>
    cases x with
    | nil => simp [dot]
    | cons x xs =>
      rw [List.map_cons, dot_cons, dot_cons, ih]
      ring

/-- The first coordinates of an assignment to all columns. -/
def firsts (n : Nat) (z : Nat → ℚ) : List ℚ := (List.range n).map z

@[simp]
theorem length_firsts (n : Nat) (z : Nat → ℚ) : (firsts n z).length = n := by
  simp [firsts]

theorem getD_firsts {n j : Nat} (hj : j < n) (z : Nat → ℚ) : (firsts n z).getD j 0 = z j := by
  simp [firsts, List.getD_eq_getElem?_getD, hj]

theorem dot_firsts {a : List ℚ} {n : Nat} (h : a.length ≤ n) (z : Nat → ℚ) :
    dot a (firsts n z) = ∑ j ∈ Finset.range n, a.getD j 0 * z j := by
  rw [dot_eq_sum h]
  refine Finset.sum_congr rfl fun j hj => ?_
  rw [getD_firsts (Finset.mem_range.1 hj)]

theorem firsts_eq {x : List ℚ} {n : Nat} (h : x.length = n) {z : Nat → ℚ}
    (hz : ∀ j < n, z j = x.getD j 0) : firsts n z = x := by
  apply List.ext_getElem (by rw [length_firsts, h])
  intro j hj hj'
  rw [← List.getD_eq_getElem _ 0 hj, ← List.getD_eq_getElem _ 0 hj', getD_firsts (h ▸ hj'),
    hz j (h ▸ hj')]

end LinearProgram
