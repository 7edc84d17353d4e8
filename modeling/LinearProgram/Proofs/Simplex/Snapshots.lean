import LinearProgram.Simplex
/-!
# The snapshots of a run

The trace of a run has one snapshot of the tableau that it began with and one for each exchange, in
order; the last is marked if the run ended well.  What is on record about an exchange is read off the
exchange itself (`exists_turnSnapshot`).  All of it holds over any scalars.
-/

namespace LinearProgram

/-- The ratio of the row that an exchange on record turns on. -/
def Snapshot.pivotRatio? {α : Type} (s : Snapshot α) : Option (Ratio α) :=
  s.pivot.bind fun pivot => s.ratios.bind fun ratios => ratios[pivot.row.toNat]?

namespace Run

variable {α : Type}

theorem getElem?_markLast (log : List (Snapshot α)) (j : Nat) :
    (markLast log)[j]? =
      log[j]?.map fun s => { s with isOptimal := s.isOptimal || decide (j + 1 = log.length) } := by
  induction log generalizing j with
  | nil => rfl
  | cons s rest ih =>
    cases rest with
    | nil => cases j <;> simp [markLast]
    | cons s' rest =>
      rw [markLast]
      · cases j with
        | zero => simp
        | succ j => simp [ih j]
      · simp

@[simp]
theorem length_markLast (log : List (Snapshot α)) : (markLast log).length = log.length := by
  induction log with
  | nil => rfl
  | cons s rest ih =>
    cases rest with
    | nil => rfl
    | cons s' rest =>
      rw [markLast]
      · rw [List.length_cons, ih]
        rfl
      · simp

variable (run : Run α)

@[simp]
theorem length_plainSnapshots : run.plainSnapshots.length = run.turns.length + 1 := by
  simp [plainSnapshots]

theorem getElem?_snapshots (j : Nat) :
    run.snapshots[j]? = run.plainSnapshots[j]?.map fun s =>
      { s with isOptimal := s.isOptimal ||
          decide (run.ending = .optimal ∧ j + 1 = run.plainSnapshots.length) } := by
  unfold snapshots
  split
  · next h => simp [getElem?_markLast, h]
  · next h => simp [h]

@[simp]
theorem length_snapshots : run.snapshots.length = run.turns.length + 1 := by
  rw [← length_plainSnapshots]
  unfold snapshots
  split
  · exact length_markLast _
  · rfl

variable {run} {j : Nat} {s : Snapshot α}

/-- The first snapshot shows the tableau that the run began with. -/
theorem eq_firstSnapshot (h : run.snapshots[0]? = some s) :
    s = { firstSnapshot run.first with isOptimal := s.isOptimal } := by
  rw [getElem?_snapshots] at h
  obtain ⟨_, hplain, rfl⟩ := Option.map_eq_some_iff.1 h
  obtain rfl := Option.some.inj hplain
  rfl

/-- Every other snapshot shows one of the exchanges. -/
theorem exists_turnSnapshot (h : run.snapshots[j + 1]? = some s) :
    ∃ turn, run.turns[j]? = some turn ∧
      s = { turnSnapshot (j + 1) turn with isOptimal := s.isOptimal } := by
  rw [getElem?_snapshots, plainSnapshots, List.getElem?_cons_succ, List.getElem?_mapIdx] at h
  obtain ⟨_, hplain, rfl⟩ := Option.map_eq_some_iff.1 h
  obtain ⟨turn, hturn, rfl⟩ := Option.map_eq_some_iff.1 hplain
  exact ⟨turn, hturn, rfl⟩

/-- Every exchange is on record. -/
theorem exists_getElem?_snapshots {turn : Turn α} (h : run.turns[j]? = some turn) :
    ∃ b, run.snapshots[j + 1]? = some { turnSnapshot (j + 1) turn with isOptimal := b } := by
  have hplain : run.plainSnapshots[j + 1]? = some (turnSnapshot (j + 1) turn) := by
    rw [plainSnapshots, List.getElem?_cons_succ, List.getElem?_mapIdx, h]
    rfl
  rw [getElem?_snapshots, hplain]
  exact ⟨_, rfl⟩

/-- The ratio on record at the pivot is that of the leaving row. -/
theorem pivotRatio?_turnSnapshot {index : Nat} {turn : Turn α} {b : Bool} :
    ({ turnSnapshot index turn with isOptimal := b } : Snapshot α).pivotRatio? =
      turn.ratios[turn.row]? := rfl

/-- Where the exchanges repeat, the record repeats. -/
theorem snapshots_add_period {d : Nat}
    (hperiod : ∀ i u v, j ≤ i → run.turns[i]? = some u → run.turns[i + d]? = some v → u = v) {i : Nat}
    (hi : j + 1 ≤ i) {s s' : Snapshot α} (hs : run.snapshots[i]? = some s)
    (hs' : run.snapshots[i + d]? = some s') :
    s.tableau = s'.tableau ∧ s.basis = s'.basis ∧ s.pivot = s'.pivot := by
  obtain ⟨i, rfl⟩ : ∃ k, i = k + 1 := ⟨i - 1, by omega⟩
  rw [Nat.add_right_comm] at hs'
  obtain ⟨turn, hturn, hsnapshot⟩ := exists_turnSnapshot hs
  obtain ⟨turn', hturn', hsnapshot'⟩ := exists_turnSnapshot hs'
  obtain rfl : turn = turn' := hperiod i turn turn' (by omega) hturn hturn'
  rw [hsnapshot, hsnapshot']
  exact ⟨rfl, rfl, rfl⟩

/-- The last snapshot is marked if the run ended well, and no other. -/
theorem isOptimal_iff (h : run.snapshots[j]? = some s) :
    s.isOptimal = true ↔ run.ending = .optimal ∧ j + 1 = run.snapshots.length := by
  have hplain : ∀ s' ∈ run.plainSnapshots, s'.isOptimal = false := by
    intro s' hs'
    rcases List.mem_cons.1 hs' with rfl | hs'
    · rfl
    · obtain ⟨i, hi, rfl⟩ := List.mem_mapIdx.1 hs'
      rfl
  rw [getElem?_snapshots] at h
  obtain ⟨s', hs', rfl⟩ := Option.map_eq_some_iff.1 h
  rw [length_snapshots, ← length_plainSnapshots]
  simp [hplain s' (List.mem_of_getElem? hs')]

end Run

end LinearProgram
