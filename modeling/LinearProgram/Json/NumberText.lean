import LinearProgram.Decimal.Numeral
/-!
# Numbers in texts of data values

A data value may give a number as a text.  Such a text is stricter than what people type: ASCII
digits only, and single underscores anywhere between its ends, which are dropped before the number is
read.

A whole number has a strict form: an optional minus and digits without a zero in front, of at most
`Numeral.maxDigits` characters.  A text that is not in this form is cleaned first: white space around
it, a plus, zeros in front, a fraction of zeros and underscores go.  Zeros in front may have
underscores among them and may stand before a minus.
-/

namespace LinearProgram.NumberText

/-- Is there an underscore beside an underscore? -/
def hasDoubleUnderscore : List Char → Bool
  | [] => false
  | c :: cs => (c == '_' && cs.head? == some '_') || hasDoubleUnderscore cs

/-- Drop single underscores between the ends of a text; nothing if there are none, or others. -/
def withoutUnderscores? (cs : List Char) : Option (List Char) :=
  if cs.head? = some '_' ∨ cs.getLast? = some '_' ∨ !cs.contains '_' ∨ hasDoubleUnderscore cs then
    none
  else some (cs.filter (· ≠ '_'))

/-! ## Doubles -/

/-- A decimal between white space, or with underscores and no white space. -/
def decimal? (s : String) : Option Numeral.Written :=
  match Numeral.written? Numeral.plainRun (Text.trim Text.isWhite s.toList) with
  | some written => some written
  | none => (withoutUnderscores? s.toList).bind (Numeral.written? Numeral.plainRun)

/-! ## Whole numbers -/

/-- Split off a minus. -/
def minus : List Char → Bool × List Char
  | '-' :: cs => (true, cs)
  | cs => (false, cs)

/-- A digit that is not zero. -/
def isLeadingDigit (c : Char) : Bool := 0x31 ≤ c.toNat && c.toNat ≤ 0x39

/-- The number of characters of a strict whole number with these parts. -/
def strictLength (negative : Bool) (digits : List Nat) : Nat :=
  (if negative then 1 else 0) + digits.length

/-- Does a text begin as a strict whole number that is too long? -/
def isOverlong (cs : List Char) : Bool :=
  let (negative, rest) := minus cs
  rest.head?.any isLeadingDigit &&
    decide (Numeral.maxDigits < strictLength negative (Numeral.plainRun rest).1)

/-- A whole number in its strict form. -/
def strict? (cs : List Char) : Option Int :=
  let (negative, rest) := minus cs
  match Numeral.plainRun rest with
  | (d :: ds, []) =>
    if (d = 0 ∧ ds ≠ []) ∨ Numeral.maxDigits < strictLength negative (d :: ds) then none
    else some (Numeral.signed negative (Numeral.value (d :: ds)))
  | _ => none

/-- What is left behind zeros in front and the underscores among them, where `last` was the last of
these characters.  It is kept if nothing else follows, and in front of a point. -/
def afterZeros? (last : Char) : List Char → Option (List Char)
  | [] => some [last]
  | c :: cs =>
    if c = '0' ∨ c = '_' then afterZeros? c cs
    else if isLeadingDigit c ∨ c = '-' then some (c :: cs)
    else if c = '.' then some (last :: c :: cs)
    else none

/-- Drop zeros in front.  Only a digit or a minus can be in front. -/
def withoutZeros? : List Char → Option (List Char)
  | [] => none
  | c :: cs =>
    if c = '0' then afterZeros? c cs
    else if isLeadingDigit c ∨ c = '-' then some (c :: cs)
    else none

/-- Drop a fraction that is zero. -/
def withoutFraction (cs : List Char) : List Char :=
  match cs.dropWhile (· ≠ '.') with
  | '.' :: zeros => if zeros.all (· == '0') then cs.takeWhile (· ≠ '.') else cs
  | _ => cs

/-- The digits of a text without its sign, cleaned. -/
def cleanDigits? (cs : List Char) : Option (List Char) :=
  (withoutZeros? cs).map fun rest =>
    (withoutUnderscores? (withoutFraction rest)).getD (withoutFraction rest)

/-- A text, cleaned.  A plus does not stand before a minus. -/
def clean? (cs : List Char) : Option (List Char) :=
  match Text.trim Text.isWhite cs with
  | '-' :: rest => (cleanDigits? rest).map ('-' :: ·)
  | '+' :: '-' :: _ => none
  | '+' :: rest => cleanDigits? rest
  | rest => cleanDigits? rest

/-- A whole number. -/
def integer? (s : String) : Option Int :=
  match strict? s.toList with
  | some n => some n
  | none => (clean? s.toList).bind strict?

end LinearProgram.NumberText
