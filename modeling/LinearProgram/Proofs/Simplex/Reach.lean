import LinearProgram.Simplex
import LinearProgram.Proofs.Tableau.Shape
/-!
# The tableaux of a run

`Reaches tolerance s t`: moves of the method lead from `s` to `t`.  An invariant that one move keeps
holds of every tableau reached (`Reaches.invariant`).  The last tableau of a run is reached from its
first (`reaches_last`), as are all its states (`reaches_of_mem_states`), each exchange begins where the
one before it ended (`before_of_next`), and the ending tells the move that it is due
(`move_last_of_optimal`, `move_last_of_unbounded`).

The exchanges do not depend on the cap: `turnAt?` counts them without one, a run makes those before its
cap (`getElem?_turns`), and from a tableau that comes again they repeat (`turnAt?_add_period`), so that
they never end (`exists_turnAt?_of_period`).  All of it holds over any scalars.
-/

namespace LinearProgram

/-- The tableaux at which a run decided on its moves, in order: before each exchange, and at the end. -/
def Run.states {α : Type} (run : Run α) : List (Tableau α) := run.turns.map (·.before) ++ [run.last]

theorem Run.getElem?_states_zero {α : Type} (run : Run α) : run.states[0]? = some run.first := by
  rcases run with ⟨turns, last, ending⟩
  cases turns with
  | nil => rfl
  | cons turn rest => rfl

namespace Simplex

variable {α : Type} [Scalar α]

/-- Moves lead from one tableau to another. -/
inductive Reaches (tolerance : α) (s : Tableau α) : Tableau α → Prop where
  | refl : Reaches tolerance s s
  | step {t : Tableau α} {turn : Turn α} : Reaches tolerance s t →
      t.move tolerance = .exchange turn → Reaches tolerance s turn.after

variable {tolerance : α} {s t : Tableau α}

theorem Reaches.trans {u : Tableau α} (hst : Reaches tolerance s t) (htu : Reaches tolerance t u) :
    Reaches tolerance s u := by
  induction htu with
  | refl => exact hst
  | step _ hmove ih => exact ih.step hmove

/-- What one move keeps holds of every tableau reached. -/
theorem Reaches.invariant {Inv : Tableau α → Prop}
    (hstep : ∀ t turn, Inv t → t.move tolerance = .exchange turn → Inv turn.after)
    (h : Reaches tolerance s t) (hs : Inv s) : Inv t := by
  induction h with
  | refl => exact hs
  | step _ hmove ih => exact hstep _ _ ih hmove

theorem Reaches.shape {n m : Nat} (h : Reaches tolerance s t) (hs : s.Shape n m) : t.Shape n m :=
  h.invariant (fun _ _ ht hmove => ht.after hmove) hs

/-! ## Runs -/

theorem run_of_exchange {turn : Turn α} (h : t.move tolerance = .exchange turn) (cap : Nat) :
    run tolerance (cap + 1) t =
      ⟨turn :: (run tolerance cap turn.after).turns, (run tolerance cap turn.after).last,
        (run tolerance cap turn.after).ending⟩ := by
  rw [run, h]

theorem reaches_last (tolerance : α) (cap : Nat) (t : Tableau α) :
    Reaches tolerance t (run tolerance cap t).last := by
  induction cap generalizing t with
  | zero => exact .refl
  | succ cap ih =>
    cases h : t.move tolerance with
    | stop => rw [run, h]; exact .refl
    | unbounded entering => rw [run, h]; exact .refl
    | exchange turn =>
      rw [run_of_exchange h]
      exact (Reaches.refl.step h).trans (ih turn.after)

/-- Moves lead to the tableau before each exchange of a run, and there the method decides on it. -/
theorem reaches_turn {cap : Nat} {turn : Turn α} (h : turn ∈ (run tolerance cap t).turns) :
    Reaches tolerance t turn.before ∧ turn.before.move tolerance = .exchange turn := by
  induction cap generalizing t with
  | zero => exact absurd h List.not_mem_nil
  | succ cap ih =>
    cases hmove : t.move tolerance with
    | stop => rw [run, hmove] at h; exact absurd h List.not_mem_nil
    | unbounded entering => rw [run, hmove] at h; exact absurd h List.not_mem_nil
    | exchange first =>
      rw [run_of_exchange hmove] at h
      rcases List.mem_cons.1 h with rfl | h
      · have hbefore : turn.before = t := (Tableau.move_eq_exchange hmove).2.2.1
        rw [hbefore]
        exact ⟨.refl, hmove⟩
      · obtain ⟨hreach, hturn⟩ := ih h
        exact ⟨(Reaches.refl.step hmove).trans hreach, hturn⟩

/-- Moves lead from the first tableau of a run to every tableau at which it decided. -/
theorem reaches_of_mem_states {cap : Nat} {u : Tableau α} (h : u ∈ (run tolerance cap t).states) :
    Reaches tolerance t u := by
  rcases List.mem_append.1 h with h | h
  · obtain ⟨turn, hturn, rfl⟩ := List.mem_map.1 h
    exact (reaches_turn hturn).1
  · rw [List.mem_singleton.1 h]
    exact reaches_last _ _ _

theorem first_run (tolerance : α) (cap : Nat) (t : Tableau α) :
    (run tolerance cap t).first = t := by
  cases cap with
  | zero => rfl
  | succ cap =>
    cases hmove : t.move tolerance with
    | stop => rw [run, hmove]; rfl
    | unbounded entering => rw [run, hmove]; rfl
    | exchange turn =>
      rw [run_of_exchange hmove]
      exact (Tableau.move_eq_exchange hmove).2.2.1

theorem before_of_first {cap : Nat} {turn : Turn α}
    (h : (run tolerance cap t).turns[0]? = some turn) : turn.before = t := by
  rw [← first_run tolerance cap t, Run.first]
  cases hturns : (run tolerance cap t).turns with
  | nil => rw [hturns] at h; cases h
  | cons first rest =>
    rw [hturns] at h
    obtain rfl : first = turn := Option.some.inj h
    rfl

/-- An exchange begins where the one before it ended. -/
theorem before_of_next {cap k : Nat} {turn next : Turn α}
    (h : (run tolerance cap t).turns[k]? = some turn)
    (hnext : (run tolerance cap t).turns[k + 1]? = some next) : next.before = turn.after := by
  induction cap generalizing t k with
  | zero => simp [run] at h
  | succ cap ih =>
    cases hmove : t.move tolerance with
    | stop => simp [run, hmove] at h
    | unbounded entering => simp [run, hmove] at h
    | exchange first =>
      rw [run_of_exchange hmove] at h hnext
      rw [List.getElem?_cons_succ] at hnext
      cases k with
      | zero =>
        obtain rfl : first = turn := Option.some.inj h
        exact before_of_first hnext
      | succ k =>
        rw [List.getElem?_cons_succ] at h
        exact ih h hnext

/-- An exchange leads from its state to the next. -/
theorem getElem?_states {cap k : Nat} {turn : Turn α}
    (h : (run tolerance cap t).turns[k]? = some turn) :
    (run tolerance cap t).states[k]? = some turn.before ∧
      (run tolerance cap t).states[k + 1]? = some turn.after := by
  have hk : k < (run tolerance cap t).turns.length := (List.getElem?_eq_some_iff.1 h).1
  constructor
  · rw [Run.states, List.getElem?_append_left (by simpa using hk), List.getElem?_map, h]
    rfl
  · induction cap generalizing t k with
    | zero => simp [run] at h
    | succ cap ih =>
      cases hmove : t.move tolerance with
      | stop => simp [run, hmove] at h
      | unbounded entering => simp [run, hmove] at h
      | exchange first =>
        rw [run_of_exchange hmove] at h hk ⊢
        cases k with
        | zero =>
          obtain rfl : first = turn := Option.some.inj h
          have hnext := (run tolerance cap first.after).getElem?_states_zero
          rwa [first_run] at hnext
        | succ k => exact ih h (Nat.lt_of_succ_lt_succ hk)

/-- A run stops at the cap exactly if it has made all its exchanges. -/
theorem length_turns_le (tolerance : α) (cap : Nat) (t : Tableau α) :
    (run tolerance cap t).turns.length ≤ cap ∧
      ((run tolerance cap t).ending = .capped ↔ (run tolerance cap t).turns.length = cap) := by
  induction cap generalizing t with
  | zero => simp [run]
  | succ cap ih =>
    cases hmove : t.move tolerance with
    | stop => simp [run, hmove]
    | unbounded entering => simp [run, hmove]
    | exchange turn =>
      rw [run_of_exchange hmove]
      simpa using ih turn.after

/-- A run that ends well ends where the method stops. -/
theorem move_last_of_optimal {cap : Nat} (h : (run tolerance cap t).ending = .optimal) :
    (run tolerance cap t).last.move tolerance = .stop := by
  induction cap generalizing t with
  | zero => exact absurd h (by simp [run])
  | succ cap ih =>
    cases hmove : t.move tolerance with
    | stop => rw [run, hmove]; exact hmove
    | unbounded entering =>
      rw [run, hmove] at h
      exact absurd h (by simp)
    | exchange turn =>
      rw [run_of_exchange hmove] at h ⊢
      exact ih h

/-- A run that ends unbounded ends where the method gives up on that column. -/
theorem move_last_of_unbounded {cap entering : Nat}
    (h : (run tolerance cap t).ending = .unbounded entering) :
    (run tolerance cap t).last.move tolerance = .unbounded entering := by
  induction cap generalizing t with
  | zero => exact absurd h (by simp [run])
  | succ cap ih =>
    cases hmove : t.move tolerance with
    | stop =>
      rw [run, hmove] at h
      exact absurd h (by simp)
    | unbounded k =>
      rw [run, hmove] at h ⊢
      rw [hmove, Ending.unbounded.inj h]
    | exchange turn =>
      rw [run_of_exchange hmove] at h ⊢
      exact ih h

/-! ## Exchanges without a cap -/

/-- The exchange number `k` from a tableau on, if the method gets so far. -/
def turnAt? (tolerance : α) : (k : Nat) → Tableau α → Option (Turn α)
  | 0, t =>
    match t.move tolerance with
    | .exchange turn => some turn
    | _ => none
  | k + 1, t =>
    match t.move tolerance with
    | .exchange turn => turnAt? tolerance k turn.after
    | _ => none

/-- A run makes the exchanges before its cap. -/
theorem getElem?_turns (tolerance : α) (cap k : Nat) (t : Tableau α) :
    (run tolerance cap t).turns[k]? = if k < cap then turnAt? tolerance k t else none := by
  induction cap generalizing t k with
  | zero => simp [run]
  | succ cap ih =>
    cases hmove : t.move tolerance with
    | stop => cases k <;> simp [run, turnAt?, hmove]
    | unbounded entering => cases k <;> simp [run, turnAt?, hmove]
    | exchange turn =>
      rw [run_of_exchange hmove]
      cases k with
      | zero => simp [turnAt?, hmove]
      | succ k => simp [turnAt?, hmove, ih]

theorem turnAt?_of_turns {cap k : Nat} {turn : Turn α}
    (h : (run tolerance cap t).turns[k]? = some turn) : turnAt? tolerance k t = some turn := by
  rw [getElem?_turns] at h
  split at h
  · exact h
  · cases h

/-- The exchanges that follow an exchange are those from the tableau before it. -/
theorem turnAt?_add {k : Nat} {turn : Turn α} (h : turnAt? tolerance k t = some turn) (d : Nat) :
    turnAt? tolerance (k + d) t = turnAt? tolerance d turn.before := by
  induction k generalizing t with
  | zero =>
    cases hmove : t.move tolerance with
    | stop => simp [turnAt?, hmove] at h
    | unbounded entering => simp [turnAt?, hmove] at h
    | exchange first =>
      obtain rfl : first = turn := by simpa [turnAt?, hmove] using h
      rw [(Tableau.move_eq_exchange hmove).2.2.1, Nat.zero_add]
  | succ k ih =>
    cases hmove : t.move tolerance with
    | stop => simp [turnAt?, hmove] at h
    | unbounded entering => simp [turnAt?, hmove] at h
    | exchange first =>
      rw [turnAt?, hmove] at h
      rw [Nat.succ_add, turnAt?, hmove]
      exact ih h

/-- No exchange is made before which there was none. -/
theorem exists_turnAt?_of_le {k : Nat} {turn : Turn α} (h : turnAt? tolerance k t = some turn)
    {j : Nat} (hj : j ≤ k) : ∃ earlier, turnAt? tolerance j t = some earlier := by
  have hturn : (run tolerance (k + 1) t).turns[k]? = some turn := by
    rw [getElem?_turns, if_pos (Nat.lt_succ_self k), h]
  have hlt : j < (run tolerance (k + 1) t).turns.length :=
    Nat.lt_of_le_of_lt hj (List.getElem?_eq_some_iff.1 hturn).1
  have hearlier := getElem?_turns tolerance (k + 1) j t
  rw [if_pos (Nat.lt_succ_of_le hj), List.getElem?_eq_getElem hlt] at hearlier
  exact ⟨_, hearlier.symm⟩

section Period

variable {j k : Nat} {turn again : Turn α} (hj : turnAt? tolerance j t = some turn)
  (hk : turnAt? tolerance k t = some again) (hjk : j < k) (hbefore : turn.before = again.before)

include hj hk hjk hbefore

/-- Where a tableau comes again the exchanges repeat. -/
theorem turnAt?_add_period {i : Nat} (hi : j ≤ i) :
    turnAt? tolerance (i + (k - j)) t = turnAt? tolerance i t := by
  obtain ⟨d, rfl⟩ := Nat.exists_eq_add_of_le hi
  rw [turnAt?_add hj, hbefore, ← turnAt?_add hk]
  congr 1
  omega

/-- Where a tableau comes again the exchanges never end. -/
theorem exists_turnAt?_of_period (i : Nat) : ∃ later, turnAt? tolerance i t = some later := by
  induction i using Nat.strongRecOn with
  | ind i ih =>
    by_cases hi : i ≤ k
    · exact exists_turnAt?_of_le hk hi
    · -- Later exchanges are those one period before.
      obtain ⟨later, hlater⟩ := ih (i - (k - j)) (by omega)
      rw [← turnAt?_add_period hj hk hjk hbefore (by omega)] at hlater
      exact ⟨later, by rwa [Nat.sub_add_cancel (by omega)] at hlater⟩

end Period

/-- If the exchanges never end, every run stops at its cap. -/
theorem capped_of_endless (h : ∀ i, ∃ turn, turnAt? tolerance i t = some turn) (cap : Nat) :
    (run tolerance cap t).turns.length = cap ∧ (run tolerance cap t).ending = .capped := by
  obtain ⟨hle, hcapped⟩ := length_turns_le tolerance cap t
  have hlength : (run tolerance cap t).turns.length = cap := by
    rcases Nat.lt_or_ge (run tolerance cap t).turns.length cap with hlt | hge
    · obtain ⟨turn, hturn⟩ := h (run tolerance cap t).turns.length
      have hnone := getElem?_turns tolerance cap (run tolerance cap t).turns.length t
      rw [if_pos hlt, hturn, List.getElem?_eq_none (Nat.le_refl _)] at hnone
      cases hnone
    · exact Nat.le_antisymm hle hge
  exact ⟨hlength, hcapped.2 hlength⟩

end Simplex

end LinearProgram
