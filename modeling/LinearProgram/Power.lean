/-!
# Powers of whole numbers

The limits of a machine word are powers of two, and the decimal texts of numbers are calculated with
powers of ten.  All of them are the built-in powers, also beside a library with powers of its own; an
exponent that is a numeral is marked as a natural number, so that it is not that library's either.
-/

namespace LinearProgram

instance (priority := high) powNat : Pow Nat Nat := instPowNat

instance (priority := high) powInt : Pow Int Nat := instPowNat

end LinearProgram
