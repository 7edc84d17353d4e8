import LinearProgram.Fault
import LinearProgram.Decimal.Scalar
/-!
# Numbers in tables

Four ways to write a number: `cellText` for a cell of a tableau, with the caller's number of
decimal places and never a minus sign before zeros only; `coefficientText` for a coefficient of an
equation, without a point when it is whole; `interceptText` for a coordinate on an axis, with one
decimal place at most; `wholeText` for a whole number, which may be too long to be written.
-/

namespace LinearProgram

/-- The largest number of decimal places that a text can have. -/
def maxPlaces : Int := 2147483647

/-- The number of decimal places that a request admits. -/
def placesOf (decimals : Int) : Except Fault Nat :=
  if decimals < 0 then .error .noPrecision
  else if 2 ^ (63 : Nat) ≤ decimals then .error .precisionTooLong
  else if maxPlaces < decimals then .error .precisionTooBig
  else .ok decimals.toNat

theorem placesOf_eq_ok_iff {decimals : Int} {places : Nat} :
    placesOf decimals = .ok places ↔ 0 ≤ decimals ∧ decimals ≤ maxPlaces ∧ decimals.toNat = places := by
  unfold placesOf maxPlaces
  split
  · simp; omega
  · split
    · simp; omega
    · split
      · simp; omega
      · simp; omega

/-- A whole number. -/
def wholeText (n : Int) : Except Fault String :=
  match Numeral.wholeText? n with
  | some text => .ok text
  | none => .error .tooLongToWrite

theorem wholeText_eq_ok_iff {n : Int} {text : String} :
    wholeText n = .ok text ↔ Numeral.IsShort n ∧ toString n = text := by
  unfold wholeText Numeral.wholeText?
  by_cases h : Numeral.IsShort n
  · simp [h]
  · simp [h]

theorem wholeText_eq_error {n : Int} (h : ¬ Numeral.IsShort n) :
    wholeText n = .error .tooLongToWrite := by
  unfold wholeText Numeral.wholeText?
  rw [if_neg h]

variable {α : Type} [DecimalScalar α]

/-- A cell of a tableau, rounded to a number of places.  Its text is read back to see whether it shows a
zero, so there is no cell if that text is too long. -/
def cellText (decimals : Int) (x : α) : Except Fault String := do
  let places ← placesOf decimals
  if DecimalScalar.isReadable places x then return (DecimalScalar.reading x).fixed false places
  else .error (.tooLongToReadBack ((DecimalScalar.reading x).fixed true places))

/-- A number that has a cell with so many decimal places. -/
structure Writable (decimals : Int) (x : α) : Prop where
  nonneg : 0 ≤ decimals
  le_maxPlaces : decimals ≤ maxPlaces
  isReadable : DecimalScalar.isReadable decimals.toNat x = true

theorem cellText_eq_ok_iff {decimals : Int} {x : α} {text : String} :
    cellText decimals x = .ok text ↔
      Writable decimals x ∧ (DecimalScalar.reading x).fixed false decimals.toNat = text := by
  unfold cellText
  constructor
  · intro h
    cases hplaces : placesOf decimals with
    | error fault => rw [hplaces] at h; cases h
    | ok places =>
      obtain ⟨hd, hd', rfl⟩ := placesOf_eq_ok_iff.1 hplaces
      simp only [hplaces, bind, Except.bind] at h
      split at h
      · next hreadable => exact ⟨⟨hd, hd', hreadable⟩, Except.ok.inj h⟩
      · cases h
  · rintro ⟨⟨hd, hd', hreadable⟩, rfl⟩
    simp only [placesOf_eq_ok_iff.2 ⟨hd, hd', rfl⟩, bind, Except.bind, hreadable]
    rfl

theorem not_writable_iff {decimals : Int} {x : α} :
    ¬ Writable decimals x ↔ decimals < 0 ∨ maxPlaces < decimals ∨
      DecimalScalar.isReadable decimals.toNat x = false := by
  constructor
  · intro h
    by_cases hd : decimals < 0
    · exact .inl hd
    · by_cases hd' : maxPlaces < decimals
      · exact .inr (.inl hd')
      · refine .inr (.inr (Bool.eq_false_iff.2 fun hreadable => h ⟨?_, ?_, hreadable⟩)) <;> omega
  · rintro (hd | hd' | hreadable) h
    · exact absurd h.nonneg (by omega)
    · exact absurd h.le_maxPlaces (by omega)
    · exact absurd h.isReadable (by rw [hreadable]; decide)

/-- A number of places that texts can have, but too many for this number. -/
theorem cellText_eq_error {decimals : Int} {x : α} (hd : 0 ≤ decimals) (hd' : decimals ≤ maxPlaces)
    (h : DecimalScalar.isReadable decimals.toNat x = false) :
    cellText decimals x =
      .error (.tooLongToReadBack ((DecimalScalar.reading x).fixed true decimals.toNat)) := by
  unfold cellText
  simp only [placesOf_eq_ok_iff.2 ⟨hd, hd', rfl⟩, bind, Except.bind, h]
  rfl

/-- A coefficient in its shortest form. -/
def coefficientText (x : α) : String :=
  if (DecimalScalar.reading x).isIntegral then (DecimalScalar.reading x).whole
  else DecimalScalar.text x

/-- A coordinate at which a line crosses an axis. -/
def interceptText (x : α) : String :=
  if (DecimalScalar.reading x).isIntegral then (DecimalScalar.reading x).whole
  else (DecimalScalar.reading x).fixed true 1

end LinearProgram
