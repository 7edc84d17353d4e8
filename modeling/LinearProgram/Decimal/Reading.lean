import LinearProgram.Power
/-!
# The exact value of a scalar

A `Reading` is what a scalar is worth, written with whole numbers, so that its decimal texts can be
calculated exactly: a sign with a quotient of two natural numbers, or one of the three values that
no quotient has.  The sign is kept apart because a zero has one too.
-/

namespace LinearProgram

/-- The exact worth of a scalar.  The denominator of a finite reading is positive. -/
inductive Reading where
  | nan
  | infinite (negative : Bool)
  | finite (negative : Bool) (numerator denominator : Nat)
  deriving DecidableEq, Repr

namespace Reading

/-- The reading of `± m · 2 ^ e`. -/
def ofBinary (negative : Bool) (m : Nat) (e : Int) : Reading :=
  .finite negative (m * 2 ^ e.toNat) (2 ^ (-e).toNat)

/-- The reading of a double. -/
def ofFloat (x : Float) : Reading :=
  match x.toModel.unpack with
  | .notANumber => .nan
  | .infinity .negative => .infinite true
  | .infinity .positive => .infinite false
  | .zero .negative => .finite true 0 1
  | .zero .positive => .finite false 0 1
  | .finite .negative m e _ => ofBinary true m e
  | .finite .positive m e _ => ofBinary false m e

/-- The reading of a rational. -/
def ofRat (x : Rat) : Reading :=
  .finite (decide (x < 0)) x.num.natAbs x.den

/-- A number without a fraction. -/
def isIntegral : Reading → Bool
  | .finite _ n d => n % d == 0
  | _ => false

end Reading

end LinearProgram
