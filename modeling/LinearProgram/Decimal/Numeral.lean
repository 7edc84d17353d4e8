import LinearProgram.Power
import LinearProgram.Text.Blank
import LinearProgram.Text.Digit
/-!
# Numbers in text

Whole numbers and decimals as people type them: a sign, digits of any script with a single underscore
between two of them where they like, a point, an exponent, or one of the words for the values that
have no digits, all of it between white space.  Reading proceeds on lists of characters; what counts
as a run of digits is a parameter of the grammar of decimals, since other notations share it.
-/

namespace LinearProgram.Numeral

/-- The longest whole number that is read or written has so many digits. -/
def maxDigits : Nat := 4300

/-- The longest decimal that is read back has so many digits, those before the point counting only if
they are not all zero. -/
def maxDecimalDigits : Nat := 1000000000

/-- The number that a list of digits denotes. -/
def value (digits : List Nat) : Nat := digits.foldl (fun n d => 10 * n + d) 0

/-! ## Runs of digits -/

/-- The digits that continue a run of digits, and what follows the run.  An underscore belongs to
the run only if a digit follows. -/
def moreDigits : List Char → List Nat × List Char
  | [] => ([], [])
  | '_' :: [] => ([], ['_'])
  | '_' :: c :: cs =>
    match Text.digit? c with
    | some d => let rest := moreDigits cs; (d :: rest.1, rest.2)
    | none => ([], '_' :: c :: cs)
  | c :: cs =>
    match Text.digit? c with
    | some d => let rest := moreDigits cs; (d :: rest.1, rest.2)
    | none => ([], c :: cs)

/-- A run of digits and what follows it; no digits if the text begins with none. -/
def digitRun (cs : List Char) : List Nat × List Char :=
  match cs with
  | [] => ([], [])
  | c :: _ => if (Text.digit? c).isSome then moreDigits cs else ([], cs)

/-- A run of ASCII digits without underscores, and what follows it. -/
def plainRun : List Char → List Nat × List Char
  | [] => ([], [])
  | c :: cs =>
    match Text.asciiDigit? c with
    | some d => let rest := plainRun cs; (d :: rest.1, rest.2)
    | none => ([], c :: cs)

/-- A sign in front of a number: is it a minus, and what follows. -/
def sign : List Char → Bool × List Char
  | '-' :: cs => (true, cs)
  | '+' :: cs => (false, cs)
  | cs => (false, cs)

/-- A natural number with a sign. -/
def signed (negative : Bool) (n : Nat) : Int := if negative then -(n : Int) else n

/-! ## Whole numbers -/

/-- Why a text is not read as a whole number. -/
inductive Misread where
  /-- It is none. -/
  | malformed
  /-- It begins as one with so many digits, which are too many. -/
  | tooLong (digits : Nat)
  deriving DecidableEq, Repr

/-- A whole number: a sign and digits.  A run of digits that is too long is refused for its length,
whatever follows it, unless it breaks off at an underscore. -/
def integer (s : String) : Except Misread Int :=
  let (negative, cs) := sign (Text.trim Text.isWhite s.toList)
  match digitRun cs with
  | ([], _) => .error .malformed
  | (digits, rest) =>
    if maxDigits < digits.length ∧ rest.head? ≠ some '_' then .error (.tooLong digits.length)
    else if rest.isEmpty then .ok (signed negative (value digits))
    else .error .malformed

/-- A whole number with no more digits than are written. -/
def IsShort (n : Int) : Prop := n.natAbs < 10 ^ maxDigits

instance (n : Int) : Decidable (IsShort n) := inferInstanceAs (Decidable (_ < _))

/-- The text of a whole number, if it is not too long to be written. -/
def wholeText? (n : Int) : Option String := if IsShort n then some (toString n) else none

/-! ## Decimals -/

/-- A decimal as it is written: a word, or a sign with `mantissa · 10 ^ exponent`. -/
inductive Written where
  | nan
  | infinite (negative : Bool)
  | decimal (negative : Bool) (mantissa : Nat) (exponent : Int)
  deriving DecidableEq, Repr

section Grammar

variable (run : List Char → List Nat × List Char)

/-- The exponent part of a decimal, zero if there is none; nothing if the text goes on otherwise. -/
def exponent? : List Char → Option Int
  | [] => some 0
  | c :: cs =>
    if c = 'e' ∨ c = 'E' then
      let (negative, rest) := sign cs
      match run rest with
      | (d :: ds, []) => some (signed negative (value (d :: ds)))
      | _ => none
    else none

/-- Digits before and behind a point, with the exponent behind them. -/
def unsigned? (negative : Bool) (cs : List Char) : Option Written :=
  let (whole, rest) := run cs
  let (fraction, rest) :=
    match rest with
    | '.' :: rest => run rest
    | rest => ([], rest)
  if whole.isEmpty && fraction.isEmpty then none
  else (exponent? run rest).map fun e =>
    .decimal negative (value (whole ++ fraction)) (e - fraction.length)

/-- A decimal number or one of its words, in any case of letters, with a sign. -/
def written? (cs : List Char) : Option Written :=
  let (negative, cs) := sign cs
  let word := String.ofList (cs.map Char.toLower)
  if word = "nan" then some .nan
  else if word = "inf" ∨ word = "infinity" then some (.infinite negative)
  else unsigned? run negative cs

end Grammar

/-- A decimal as people type it. -/
def decimal? (s : String) : Option Written := written? digitRun (Text.trim Text.isWhite s.toList)

end LinearProgram.Numeral
