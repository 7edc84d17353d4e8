import LinearProgram.Decimal.Reading
import LinearProgram.Decimal.Rounding
/-!
# The shortest decimal that reads back

A positive double `m · 2 ^ e` stands for an interval of real numbers: those that round to it.  Its
ends belong to it exactly when `m` is even, and the lower end is nearer when `m` is the least
significand of its binade.  For one, two, … seventeen digits the two neighbours of the value on that
decimal grid are tested against the interval in whole numbers; the first grid with a neighbour
inside gives the digits; of two the nearer, and of two that are equally near the even one.  If a
point of a grid lies in the interval, so does one of these neighbours, so no shorter decimal reads
back.

`Digits` is the result, `0.d₁d₂… · 10 ^ point`; `NumberLayout` holds the decisions of a format about
writing it down.
-/

namespace LinearProgram

/-- Decimal digits behind a point that is moved by a power of ten. -/
structure Digits where
  digits : List Char
  point : Int
  deriving DecidableEq, Repr

namespace Digits

/-- Drop the zeros at the end of a list of digits. -/
def dropZeros (digits : List Char) : List Char :=
  (digits.reverse.dropWhile (· == '0')).reverse

/-- The number `c · 10 ^ g`, without zeros at its end. -/
def ofScaled (c : Nat) (g : Int) : Digits :=
  let digits := Nat.toDigits 10 c
  ⟨dropZeros digits, digits.length + g⟩

end Digits

namespace Shortest

/-- The least significand of a normal double, where the spacing below is half the spacing above. -/
def leastNormal : Nat := 2 ^ (52 : Nat)

/-- The exponent of the least binade, below which the spacing does not shrink. -/
def leastExponent : Int := -1074

/-- The place of the point in the decimal expansion of `n / d`: the value is at least
`10 ^ (point - 1)` and below `10 ^ point`.  Every positive double is above `10⁻⁴⁰⁰`. -/
def pointOf (n d : Nat) : Int :=
  (Nat.toDigits 10 (n * 10 ^ (400 : Nat) / d)).length - 400

/-- The neighbour of `m · 2 ^ e` on the grid of multiples of `10 ^ g` that reads back as it, if there
is one.  With `p / q = 10 ^ g · 2 ^ (2 - e)`, the multiple `c` lies in the interval when `c · p` is
between the ends `low · q` and `high · q`, counted in quarters of the unit of the last place. -/
def onGrid? (m : Nat) (e g : Int) : Option Nat :=
  let p := 10 ^ g.toNat * 2 ^ (2 - e).toNat
  let q := 10 ^ (-g).toNat * 2 ^ (e - 2).toNat
  let low := 4 * m - (if m = leastNormal ∧ leastExponent < e then 1 else 2)
  let high := 4 * m + 2
  let inside (c : Nat) : Bool :=
    if m % 2 = 0 then decide (low * q ≤ c * p ∧ c * p ≤ high * q)
    else decide (low * q < c * p ∧ c * p < high * q)
  let value := 4 * m * q
  let below := value / p
  match inside below, inside (below + 1) with
  | true, true => some (roundDiv value p)
  | true, false => some below
  | false, true => some (below + 1)
  | false, false => none

/-- Search the grids from the coarsest, `count` digits, for one that reads back; the last grid, of
seventeen digits, always does. -/
def search (m : Nat) (e point : Int) (count : Nat) : Nat → Digits
  | 0 => .ofScaled 0 0
  | more + 1 =>
    match onGrid? m e (point - count) with
    | some c => .ofScaled c (point - count)
    | none => search m e point (count + 1) more

/-- The shortest digits of the positive double `m · 2 ^ e`. -/
def ofBinary (m : Nat) (e : Int) : Digits :=
  search m e (pointOf (m * 2 ^ e.toNat) (2 ^ (-e).toNat)) 1 17

end Shortest

/-- How a format writes digits: plainly for decimal exponents from `plainFrom` on and below
`plainBelow`, otherwise with an exponent of at least `exponentWidth` digits. -/
structure NumberLayout where
  plainFrom : Int
  plainBelow : Int
  exponentWidth : Nat

namespace NumberLayout

/-- Numbers are written plainly from `0.0001` on and below `10 ^ 16`. -/
def standard : NumberLayout := ⟨-4, 16, 2⟩

/-- Write down digits.  A plain number always has a digit behind the point. -/
def write (layout : NumberLayout) (d : Digits) : String :=
  let exponent := d.point - 1
  if layout.plainFrom ≤ exponent ∧ exponent < layout.plainBelow then
    if 0 < d.point then
      let before := d.point.toNat
      let filled := d.digits ++ List.replicate (before - d.digits.length) '0'
      let behind := filled.drop before
      String.ofList (filled.take before) ++ "." ++
        String.ofList (if behind.isEmpty then ['0'] else behind)
    else
      "0." ++ String.ofList (List.replicate (-d.point).toNat '0' ++ d.digits)
  else
    let power := Nat.repr exponent.natAbs
    let filler := String.ofList (List.replicate (layout.exponentWidth - power.length) '0')
    String.ofList (d.digits.take 1) ++
      (if d.digits.length ≤ 1 then "" else "." ++ String.ofList (d.digits.drop 1)) ++
      (if exponent < 0 then "e-" else "e+") ++ filler ++ power

end NumberLayout

/-- The shortest text of a double that reads back as it. -/
def shortestText (x : Float) : String :=
  match x.toModel.unpack with
  | .notANumber => "nan"
  | .infinity .negative => "-inf"
  | .infinity .positive => "inf"
  | .zero .negative => "-0.0"
  | .zero .positive => "0.0"
  | .finite .negative m e _ => "-" ++ NumberLayout.standard.write (Shortest.ofBinary m e)
  | .finite .positive m e _ => NumberLayout.standard.write (Shortest.ofBinary m e)

end LinearProgram
