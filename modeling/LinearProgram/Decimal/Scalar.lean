import LinearProgram.Scalar
import LinearProgram.Decimal.Numeral
import LinearProgram.Decimal.Fixed
import LinearProgram.Decimal.Shortest
/-!
# Scalars with decimal texts

What the tables and messages ask of a scalar type beyond its arithmetic: the exact reading of a
value, its text, and the value nearest to a decimal.
-/

namespace LinearProgram

/-- A scalar type whose values can be read from decimals and written as decimals. -/
class DecimalScalar (α : Type) extends Scalar α where
  /-- What a value is worth exactly. -/
  reading : α → Reading
  /-- The text of a value. -/
  text : α → String
  /-- Is the text of a value with so many decimal places short enough to be read back? -/
  isReadable : (places : Nat) → α → Bool
  /-- The value nearest to `± mantissa · 10 ^ exponent`. -/
  ofDecimal : (negative : Bool) → (mantissa : Nat) → (exponent : Int) → α

/-- The double nearest to a decimal; a minus sign is kept even for a zero. -/
def nearestFloat (negative : Bool) (mantissa : Nat) (exponent : Int) : Float :=
  let magnitude := Float.ofScientific mantissa (exponent < 0) exponent.natAbs
  if negative then -magnitude else magnitude

instance : DecimalScalar Float where
  reading := Reading.ofFloat
  text := shortestText
  isReadable places x := (Reading.ofFloat x).isReadable places
  ofDecimal := nearestFloat

/-- The text of a rational: a whole number, or a quotient in lowest terms. -/
def rationalText (x : Rat) : String :=
  if x.den = 1 then toString x.num else toString x.num ++ "/" ++ toString x.den

instance : DecimalScalar Rat where
  reading := Reading.ofRat
  text := rationalText
  -- A rational is of any size where a double would have run off the range, so its places count alone.
  isReadable places _ := decide (places ≤ Numeral.maxDecimalDigits)
  ofDecimal negative mantissa exponent :=
    let magnitude : Rat := mantissa * 10 ^ exponent.toNat / 10 ^ (-exponent).toNat
    if negative then -magnitude else magnitude

/-- The double that a written decimal denotes. -/
def Numeral.Written.toFloat : Numeral.Written → Float
  | .nan => 0 / 0
  | .infinite negative => if negative then -1 / 0 else 1 / 0
  | .decimal negative mantissa exponent => nearestFloat negative mantissa exponent

namespace DecimalScalar

variable {α : Type} [DecimalScalar α]

/-- A natural number as a scalar. -/
def ofNat (n : Nat) : α := ofDecimal false n 0

/-- The value rounded to the nearest multiple of `10⁻ᵖ`, halves to the even last digit. -/
def roundPlaces (places : Nat) (x : α) : α :=
  match reading x with
  | .finite negative n d => ofDecimal negative (roundDiv (n * 10 ^ places) d) (-places)
  | _ => x

end DecimalScalar

end LinearProgram
