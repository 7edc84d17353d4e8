import LinearProgram.Proofs.Simplex.Invariants
import LinearProgram.Proofs.Simplex.Snapshots
/-!
# Cycles

Over the rationals, with limits of any sign and a tolerance that is not negative.  The basis, in its order,
determines the whole tableau, and the tableau determines the next exchange.  So a basis that comes again
brings back the exchange that was made from it, and all that follow: the run goes round for ever, and only
the cap ends it.

Proved:
* `turn_eq_of_before_eq`, `cycle_of_before_eq`: from one tableau only one exchange is made, so a tableau
  that comes again starts a cycle.  Both hold over any scalars.
* `state_eq_of_basis_eq`: two states of a run with the same basis are the same tableau.
* `cycle_of_repeated_basis`: a basis that comes again on record is a cycle, and under every cap the answer is
  that the cap was reached.
-/

namespace LinearProgram

open Tableau

theorem Tableau.basis_eq_of_labels {α : Type} {t u : Tableau α} (h : t.basisLabels = u.basisLabels) :
    t.basis = u.basis :=
  List.map_injective_iff.2 variableLabel_injective h

namespace Simplex

/-- From one tableau only one exchange is made. -/
theorem turn_eq_of_before_eq {α : Type} [Scalar α] {tolerance : α} {cap : Nat} {t : Tableau α}
    {turn turn' : Turn α} (h : turn ∈ (run tolerance cap t).turns)
    (h' : turn' ∈ (run tolerance cap t).turns) (hbefore : turn.before = turn'.before) :
    turn = turn' := by
  have hmove := (reaches_turn h).2
  rw [hbefore, (reaches_turn h').2] at hmove
  exact (Move.exchange.inj hmove).symm

/-- A run in which a tableau comes again is a part of a cycle: from the first of the two exchanges on, every
run repeats its exchanges until it reaches its cap. -/
theorem cycle_of_before_eq {α : Type} [Scalar α] {tolerance : α} {cap : Nat} {t : Tableau α} {j k : Nat}
    {turn again : Turn α} (hj : (run tolerance cap t).turns[j]? = some turn)
    (hk : (run tolerance cap t).turns[k]? = some again) (hjk : j < k)
    (hbefore : turn.before = again.before) (other : Nat) :
    (run tolerance other t).turns.length = other ∧ (run tolerance other t).ending = .capped ∧
      ∀ i u v, j ≤ i → (run tolerance other t).turns[i]? = some u →
        (run tolerance other t).turns[i + (k - j)]? = some v → u = v := by
  have hj' := turnAt?_of_turns hj
  have hk' := turnAt?_of_turns hk
  obtain ⟨hlength, hending⟩ :=
    capped_of_endless (exists_turnAt?_of_period hj' hk' hjk hbefore) other
  refine ⟨hlength, hending, fun i u v hi hu hv => ?_⟩
  have hperiod := turnAt?_add_period hj' hk' hjk hbefore hi
  rw [turnAt?_of_turns hu, turnAt?_of_turns hv] at hperiod
  exact (Option.some.inj hperiod).symm

/-- Two states of a run with the same basis are the same tableau. -/
theorem state_eq_of_basis_eq {gains : List ℚ} {rows : Grid ℚ} {limits : List ℚ} {tolerance : ℚ}
    (hw : ∀ row ∈ rows, row.length = gains.length) (hl : limits.length = rows.length)
    (htol : 0 ≤ tolerance) {cap : Nat} {t u : Tableau ℚ}
    (ht : t ∈ (run tolerance cap (start gains rows limits)).states)
    (hu : u ∈ (run tolerance cap (start gains rows limits)).states) (hbasis : t.basis = u.basis) :
    t = u := by
  have hstart := canonical_start hw hl
  have hstate : ∀ {v}, v ∈ (run tolerance cap (start gains rows limits)).states →
      Canonical gains.length rows.length v ∧
        Combines gains.length rows.length (start gains rows limits) v := fun hv =>
    ⟨reaches_canonical htol (reaches_of_mem_states hv) hstart,
      reaches_combines (reaches_of_mem_states hv) hstart.toShape (combines_start hw hl)⟩
  obtain ⟨hct, hst⟩ := hstate ht
  obtain ⟨hcu, hsu⟩ := hstate hu
  exact hct.eq_of_basis_eq hcu hst hsu hbasis

variable {objective : List ℚ} {constraints : Grid ℚ} {rhs : List ℚ} {maximize : Bool}
  {options : Options ℚ} {r : Run ℚ}

/-- A basis that comes again on record is a cycle: the two exchanges are the same, and under every cap the
same problem runs into the cap, after a trace that repeats itself from there on.  That is the answer, unless
the cap is too long to be written. -/
theorem cycle_of_repeated_basis (htol : 0 ≤ options.pivotTolerance)
    (hrun : run? objective constraints rhs maximize options = .ok r) {j k : Nat} (hj : 1 ≤ j)
    (hjk : j < k) {s s' : Snapshot ℚ} (hs : r.snapshots[j]? = some s)
    (hs' : r.snapshots[k]? = some s') (hbasis : s.basis = s'.basis) :
    s.tableau = s'.tableau ∧ s.ratios = s'.ratios ∧ s.pivot = s'.pivot ∧
      ∀ other : Options ℚ, other.pivotTolerance = options.pivotTolerance → 0 ≤ other.maxIterations →
        ∃ log : List (Snapshot ℚ), (log.length : Int) = other.maxIterations + 1 ∧
          (∀ i u v, j ≤ i → log[i]? = some u → log[i + (k - j)]? = some v →
            u.tableau = v.tableau ∧ u.basis = v.basis ∧ u.pivot = v.pivot) ∧
          (Numeral.IsShort other.maxIterations →
            ∃ solution, solve objective constraints rhs maximize other = .ok solution ∧
              solution.status = .iterationLimit ∧ solution.iterations = some log) ∧
          (¬ Numeral.IsShort other.maxIterations →
            solve objective constraints rhs maximize other = .error .tooLongToWrite) := by
  obtain ⟨j, rfl⟩ := Nat.exists_eq_add_of_le' hj
  obtain ⟨k, rfl⟩ := Nat.exists_eq_add_of_le' (hj.trans hjk.le)
  rw [Nat.add_sub_add_right]
  obtain ⟨turn, hturn, hsnapshot⟩ := Run.exists_turnSnapshot hs
  obtain ⟨turn', hturn', hsnapshot'⟩ := Run.exists_turnSnapshot hs'
  obtain ⟨hw, limits, hlimits, rfl⟩ := run?_eq_ok_iff.1 hrun
  have hl := length_of_valuesFor? hlimits
  have hw' := hw
  rw [← length_maximized maximize objective] at hw'
  have hmem := List.mem_of_getElem? hturn
  have hmem' := List.mem_of_getElem? hturn'
  rw [hsnapshot, hsnapshot'] at hbasis
  have hbefore : turn.before = turn'.before :=
    state_eq_of_basis_eq hw' hl htol (before_mem_states hmem) (before_mem_states hmem')
      (basis_eq_of_labels hbasis)
  obtain rfl : turn = turn' := turn_eq_of_before_eq hmem hmem' hbefore
  rw [hsnapshot, hsnapshot']
  refine ⟨rfl, rfl, rfl, fun other hother hcap => ?_⟩
  obtain ⟨hlength, hending, hperiod⟩ :=
    cycle_of_before_eq hturn hturn' (by omega) hbefore other.maxIterations.toNat
  set r' := run options.pivotTolerance other.maxIterations.toNat
    (start (maximized maximize objective) constraints limits)
  have hrun' : run? objective constraints rhs maximize other = .ok r' :=
    run?_eq_ok_iff.2 ⟨hw, limits, hlimits, by rw [hother]⟩
  have hsolve : solve objective constraints rhs maximize other =
      r'.solution (columnCosts objective constraints.length) objective.length other := by
    rw [solve, hrun']
    rfl
  refine ⟨r'.snapshots, ?_, fun i u v hi hu hv => Run.snapshots_add_period hperiod hi hu hv,
    fun hshort => ?_, fun hlong => ?_⟩
  · rw [Run.length_snapshots, hlength]
    omega
  · have hreports := reports_solve hrun'
    have hnot : r'.ending ≠ .optimal := by
      rw [hending]
      decide
    obtain ⟨solution, hsolution⟩ := hreports.exists_iff.2
      { table := fun hoptimal => absurd hoptimal hnot, cap := fun _ => hshort }
    exact ⟨solution, hsolution, (hreports.limit_iff solution hsolution).2 hending,
      hreports.trace solution hsolution⟩
  · rw [hsolve]
    exact Run.solution_of_long_cap hending hlong

/-- A maximum of four variables under `x₁ ≤ 1` and two rows with the limit zero: the basis of the slacks comes
again after six exchanges, none of which gains anything.  So no cap is high enough for it. -/
theorem cycle_of_repeated_basis_six_exchanges :
    ∃ r s s', run? (α := ℚ) [10, -57, -9, -24]
        [[1/2, -11/2, -5/2, 9], [1/2, -3/2, -1/2, 1], [1, 0, 0, 0]] [0, 0, 1] true
        ⟨7, 0, 0, 0, 2⟩ = .ok r ∧
      r.snapshots[1]? = some s ∧ r.snapshots[7]? = some s' ∧ s.basis = ["A5", "A6", "A7"] ∧
      s'.basis = ["A5", "A6", "A7"] ∧ s.tableau = s'.tableau ∧ s.ratios = s'.ratios ∧
      s.pivot = s'.pivot ∧ r.states.map (value 4 3) = List.replicate 8 0 ∧
      ∀ cap : Nat, Numeral.IsShort cap → ∃ solution log, solve (α := ℚ) [10, -57, -9, -24]
          [[1/2, -11/2, -5/2, 9], [1/2, -3/2, -1/2, 1], [1, 0, 0, 0]] [0, 0, 1] true
          ⟨cap, 0, 0, 0, 2⟩ = .ok solution ∧
        solution.status = .iterationLimit ∧ solution.iterations = some log ∧
        (log.length : Int) = cap + 1 := by
  have hrun : run? (α := ℚ) [10, -57, -9, -24]
      [[1/2, -11/2, -5/2, 9], [1/2, -3/2, -1/2, 1], [1, 0, 0, 0]] [0, 0, 1] true ⟨7, 0, 0, 0, 2⟩ =
      .ok (run 0 7 (start (maximized true [10, -57, -9, -24])
        [[1/2, -11/2, -5/2, 9], [1/2, -3/2, -1/2, 1], [1, 0, 0, 0]] [0, 0, 1])) :=
    run?_eq_ok (by decide) rfl _ _
  set r := run 0 7 (start (α := ℚ) (maximized true [10, -57, -9, -24])
    [[1/2, -11/2, -5/2, 9], [1/2, -3/2, -1/2, 1], [1, 0, 0, 0]] [0, 0, 1])
  have hfirst : r.snapshots[1]?.map (·.basis) = some ["A5", "A6", "A7"] := by decide +kernel
  have hagain : r.snapshots[7]?.map (·.basis) = some ["A5", "A6", "A7"] := by decide +kernel
  obtain ⟨s, hs, hbasis⟩ := Option.map_eq_some_iff.1 hfirst
  obtain ⟨s', hs', hbasis'⟩ := Option.map_eq_some_iff.1 hagain
  obtain ⟨htableau, hratios, hpivot, hcycle⟩ := cycle_of_repeated_basis le_rfl hrun le_rfl
    (by decide) hs hs' (hbasis.trans hbasis'.symm)
  refine ⟨r, s, s', hrun, hs, hs', hbasis, hbasis', htableau, hratios, hpivot, by decide +kernel,
    fun cap hshort => ?_⟩
  obtain ⟨log, hlength, -, hanswer, -⟩ := hcycle ⟨cap, 0, 0, 0, 2⟩ rfl (Int.natCast_nonneg cap)
  obtain ⟨solution, hsolution, hstatus, hlog⟩ := hanswer hshort
  exact ⟨solution, log, hsolution, hstatus, hlog, hlength⟩

end Simplex

end LinearProgram
