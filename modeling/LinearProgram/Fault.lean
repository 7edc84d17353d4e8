import LinearProgram.Decimal.Numeral
/-!
# Faults

What can go wrong while a problem is solved or a result is shown, as causes.  A fault says what is
wrong with the data; its wording is in one place, `Fault.message`.
-/

namespace LinearProgram

/-- Why a solver or a printer gave up. -/
inductive Fault where
  /-- The constraint rows, so many of them, are not all equally long. -/
  | raggedRows (rows : Nat)
  /-- So many cells do not fill a grid of rows and columns. -/
  | cellCount (cells rows columns : Nat)
  /-- A list of one length was given where another length, or a single value, belongs. -/
  | lengthMismatch (given wanted : Nat)
  /-- A place beyond the ends of an axis of a grid or of a vector. -/
  | beyondAxis (index : Int) (axis size : Nat)
  /-- A place on an axis that is no machine word. -/
  | axisPlaceTooLarge
  /-- A place beyond the ends of a list. -/
  | beyondList
  /-- A place in a list that is no machine word. -/
  | listPlaceTooLarge
  /-- A number of rows that is no machine word. -/
  | countTooLarge
  /-- A whole number too large for a double. -/
  | numberTooLarge
  /-- A whole number with too many digits to be written. -/
  | tooLongToWrite
  /-- A text that begins as a whole number with so many digits, too many to be read. -/
  | tooLongToRead (digits : Nat)
  /-- A decimal, given as its text, with too many digits to be read back. -/
  | tooLongToReadBack (text : String)
  /-- A point in the plane with fewer than two coordinates. -/
  | missingCoordinates (given : Nat)
  /-- A point in the plane with more than two coordinates. -/
  | extraCoordinates
  /-- Two lines taken for crossing have a vanishing determinant. -/
  | divisionByZero
  /-- A negative number of decimal places. -/
  | noPrecision
  /-- A number of decimal places that no text can have. -/
  | precisionTooBig
  /-- A number of decimal places that is not even a machine number. -/
  | precisionTooLong
  /-- A relation sign that the standard form does not know, in a row counted from one. -/
  | unknownRelation (row : Nat) (symbol : String)
  /-- A text, given in quotes, that is no whole number. -/
  | notInteger (quotedText : String)
  /-- A directory where a file is to be written. -/
  | directory (path : String)
  deriving DecidableEq, Repr

/-- The length of a vector, as a shape. -/
def shapeText (n : Nat) : String := "(" ++ Nat.repr n ++ ",)"

/-- What is said of a whole number that is too long. -/
def lengthLimitText : String :=
  "Exceeds the limit (" ++ Nat.repr Numeral.maxDigits ++ " digits) for integer string conversion"

/-- The advice to whom a whole number is too long. -/
def lengthAdviceText : String := "; use sys.set_int_max_str_digits() to increase the limit"

/-- The wording of a fault. -/
def Fault.message : Fault → String
  | .raggedRows rows =>
    "setting an array element with a sequence. The requested array has an inhomogeneous shape " ++
      "after 1 dimensions. The detected shape was " ++ shapeText rows ++ " + inhomogeneous part."
  | .cellCount cells rows columns =>
    "cannot reshape array of size " ++ Nat.repr cells ++ " into shape (" ++ Nat.repr rows ++ "," ++
      Nat.repr columns ++ ")"
  | .lengthMismatch given wanted =>
    "could not broadcast input array from shape " ++ shapeText given ++ " into shape " ++
      shapeText wanted
  | .beyondAxis index axis size =>
    "index " ++ toString index ++ " is out of bounds for axis " ++ Nat.repr axis ++
      " with size " ++ Nat.repr size
  | .axisPlaceTooLarge =>
    "only integers, slices (`:`), ellipsis (`...`), numpy.newaxis (`None`) and integer or boolean " ++
      "arrays are valid indices"
  | .beyondList => "list index out of range"
  | .listPlaceTooLarge => "cannot fit 'int' into an index-sized integer"
  | .countTooLarge => "cannot fit 'int' into an index-sized integer"
  | .numberTooLarge => "int too large to convert to float"
  | .tooLongToWrite => lengthLimitText ++ lengthAdviceText
  | .tooLongToRead digits =>
    lengthLimitText ++ ": value has " ++ Nat.repr digits ++ " digits" ++ lengthAdviceText
  | .tooLongToReadBack text => "could not convert string to float: '" ++ text ++ "'"
  | .missingCoordinates given =>
    "not enough values to unpack (expected 2, got " ++ Nat.repr given ++ ")"
  | .extraCoordinates => "too many values to unpack (expected 2)"
  | .divisionByZero => "float division by zero"
  | .noPrecision => "Format specifier missing precision"
  | .precisionTooBig => "precision too big"
  | .precisionTooLong => "Too many decimal digits in format string"
  | .unknownRelation row symbol =>
    "Constraint " ++ Nat.repr row ++ " has unknown relation '" ++ symbol ++ "'."
  | .notInteger quotedText => "invalid literal for int() with base 10: " ++ quotedText
  | .directory path => "[Errno 21] Is a directory: '" ++ path ++ "'"

end LinearProgram
