/-!
# Scalars

Every solver of the library is written once, over a type of scalars, and read twice: over the
doubles, where it runs, and over the rationals, where linear algebra is exact.  `Scalar` is what
the solvers ask of such a type: the four operations, comparisons that may all fail (a NaN is
neither below, equal to nor above anything), a magnitude, and the two tests that single out the
values outside the number line.

Over `Rat` no value is a NaN and all are finite; over `Float` the operations are those of the
IEEE double.
-/

namespace LinearProgram

/-- A type the solvers can calculate in. -/
class Scalar (α : Type) extends Zero α, One α, Add α, Sub α, Mul α, Div α, Neg α, LT α, LE α,
    BEq α where
  /-- The magnitude of a scalar. -/
  abs : α → α
  /-- Is it the result of an operation without a value? -/
  isNaN : α → Bool
  /-- Is it a number, neither NaN nor infinite? -/
  isFinite : α → Bool
  /-- Strict comparison can be tested. -/
  decidableLT : DecidableLT α
  /-- Weak comparison can be tested. -/
  decidableLE : DecidableLE α

instance (priority := low) decidableLTOfScalar {α : Type} [Scalar α] : DecidableLT α :=
  Scalar.decidableLT

instance (priority := low) decidableLEOfScalar {α : Type} [Scalar α] : DecidableLE α :=
  Scalar.decidableLE

instance : Scalar Float where
  abs := Float.abs
  isNaN := Float.isNaN
  isFinite := Float.isFinite
  decidableLT := inferInstance
  decidableLE := inferInstance

instance : Scalar Rat where
  zero := 0
  one := 1
  abs x := if x < 0 then -x else x
  isNaN _ := false
  isFinite _ := true
  decidableLT := inferInstance
  decidableLE := inferInstance

namespace Scalar

variable {α : Type} [Scalar α]

/-- A scalar that has run off either end of the number line. -/
def isInfinite (x : α) : Bool := !isNaN x && !isFinite x

/-- The order in the search for a largest value, whether `y` leads `x`: nothing leads a NaN, and a NaN leads every
number. -/
def above (y x : α) : Bool := !isNaN x && (isNaN y || decide (x < y))

end Scalar

/-! ## The first leader of a list -/

/-- Walk through `xs` holding on to a leader, and exchange it only for one that beats it; so of
equally good elements the first stays. -/
def leaderFrom {β : Type} (beats : β → β → Bool) (leader : β) : List β → β
  | [] => leader
  | x :: xs => if beats x leader then leaderFrom beats x xs else leaderFrom beats leader xs

/-- The first leader of a list, if there is any element. -/
def leader? {β : Type} (beats : β → β → Bool) : List β → Option β
  | [] => none
  | x :: xs => some (leaderFrom beats x xs)

/-- The place of the first leader, with the leader itself. -/
def leaderIdx? {β : Type} (beats : β → β → Bool) (xs : List β) : Option (Nat × β) :=
  (leader? (fun y x => beats y.1 x.1) xs.zipIdx).map Prod.swap

end LinearProgram
