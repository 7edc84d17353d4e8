import LinearProgram.Decimal.Numeral
import LinearProgram.Decimal.Reading
import LinearProgram.Decimal.Rounding
/-!
# Decimal text with a fixed number of places

The value is rounded once, from its exact reading, to the nearest multiple of `10⁻ᵖ`; a value
halfway between two multiples goes to the one with the even last digit.  `placed` writes a number of
units of the last place.  A value that ends in zeros is calculated up to them only, however many places
are asked for.  A text may come out too long to be read back as a decimal, which `isReadable` tells
without writing it.
-/

namespace LinearProgram

/-- The decimal digits of `n`, filled up with zeros in front to at least `width`. -/
def paddedDigits (width n : Nat) : String :=
  let digits := Nat.repr n
  String.ofList (List.replicate (width - digits.length) '0') ++ digits

/-- The text of `units · 10⁻ᵖ` with exactly `p` digits behind the point, and no point for `p = 0`. -/
def placed (places units : Nat) : String :=
  if places = 0 then Nat.repr units
  else Nat.repr (units / 10 ^ places) ++ "." ++ paddedDigits places (units % 10 ^ places)

/-- So many of the places asked for that a quotient by `d` has only zeros in the others.  That is all of
them unless `d` is known to divide a power of ten. -/
def ownPlaces (places d : Nat) : Nat :=
  let few := min places (Nat.log2 d + 1)
  if 10 ^ few % d = 0 then few else places

/-- The number of digits before the point of `units · 10⁻ᵖ`, where a mere zero counts as none. -/
def wholeDigits (places units : Nat) : Nat :=
  let whole := units / 10 ^ places
  if whole = 0 then 0 else (Nat.toDigits 10 whole).length

namespace Reading

/-- The text of a reading rounded to `places` decimal places.  `zeroSigned` tells whether a value
below zero keeps its sign when it rounds to zero. -/
def fixed (zeroSigned : Bool) (places : Nat) : Reading → String
  | .nan => "nan"
  | .infinite negative => if negative then "-inf" else "inf"
  | .finite negative n d =>
    let own := ownPlaces places d
    let units := roundDiv (n * 10 ^ own) d
    let text := (placed own units).pushn '0' (places - own)
    if negative && (zeroSigned || units != 0) then "-" ++ text else text

/-- Has the text of a reading with `places` decimal places no more digits than are read back? -/
def isReadable (places : Nat) : Reading → Bool
  | .finite _ n d =>
    let own := ownPlaces places d
    decide (places + wholeDigits own (roundDiv (n * 10 ^ own) d) ≤ Numeral.maxDecimalDigits)
  | _ => true

/-- The text of a whole number, with its sign unless it is zero. -/
def whole : Reading → String
  | .finite negative n d =>
    if negative && n / d != 0 then "-" ++ Nat.repr (n / d) else Nat.repr (n / d)
  | r => r.fixed false 0

end Reading

end LinearProgram
