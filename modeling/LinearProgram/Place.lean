import LinearProgram.Fault
/-!
# Places

A place in a list or along an axis of a grid is counted from zero.  Places that come from outside may
also be negative and are then counted from the end, the last one being `-1`; `fromEnd?` says which
place is meant.  Numbers that do not fit in a machine word are no places at all.
-/

namespace LinearProgram

variable {α : Type}

/-- The element at a place of a list. -/
def element (xs : List α) (i : Nat) : Except Fault α :=
  match xs[i]? with
  | some x => .ok x
  | none => .error .beyondList

/-- The element at a place of a vector or of the rows of a grid. -/
def component (xs : List α) (i : Nat) : Except Fault α :=
  match xs[i]? with
  | some x => .ok x
  | none => .error (.beyondAxis i 0 xs.length)

@[simp]
theorem element_eq_ok_iff {xs : List α} {i : Nat} {x : α} :
    element xs i = .ok x ↔ xs[i]? = some x := by
  unfold element
  cases xs[i]? with
  | none => exact ⟨nofun, nofun⟩
  | some y => exact ⟨fun h => congrArg some (Except.ok.inj h), fun h => congrArg _ (Option.some.inj h)⟩

@[simp]
theorem component_eq_ok_iff {xs : List α} {i : Nat} {x : α} :
    component xs i = .ok x ↔ xs[i]? = some x := by
  unfold component
  cases xs[i]? with
  | none => exact ⟨nofun, nofun⟩
  | some y => exact ⟨fun h => congrArg some (Except.ok.inj h), fun h => congrArg _ (Option.some.inj h)⟩

/-! ## Places counted from the end -/

/-- The place among `size` that a number means, if it means one. -/
def fromEnd? (size : Nat) (i : Int) : Option Nat :=
  if 0 ≤ i then (if i < size then some i.toNat else none)
  else if -(size : Int) ≤ i then some (i + size).toNat
  else none

/-- The place in a list of a size. -/
def listPlace (size : Nat) (i : Int) : Except Fault Nat :=
  if i < -(2 ^ (63 : Nat)) ∨ 2 ^ (63 : Nat) ≤ i then .error .listPlaceTooLarge
  else
    match fromEnd? size i with
    | some place => .ok place
    | none => .error .beyondList

/-- The place along an axis of a size. -/
def axisPlace (axis size : Nat) (i : Int) : Except Fault Nat :=
  if i < -(2 ^ (63 : Nat)) ∨ 2 ^ (63 : Nat) ≤ i then .error .axisPlaceTooLarge
  else
    match fromEnd? size i with
    | some place => .ok place
    | none => .error (.beyondAxis i axis size)

/-- The element of a list at a place that may be counted from the end. -/
def elementAt (xs : List α) (i : Int) : Except Fault α := do
  let place ← listPlace xs.length i
  element xs place

/-- The row of a grid at a place that may be counted from the end. -/
def rowAt (rows : List α) (i : Int) : Except Fault α := do
  let place ← axisPlace 0 rows.length i
  component rows place

end LinearProgram
