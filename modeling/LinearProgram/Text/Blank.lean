/-!
# Blank characters

Three classes of characters that show nothing.  White space is what may stand around a number.  A
blank is white space or one of the four separators of ASCII, and is dropped at the end of a line.
Ten of the blanks end a line.
-/

namespace LinearProgram.Text

/-- Does a character lie in one of some runs, each given by its first and last code point? -/
def inRuns (runs : List (Nat × Nat)) (c : Char) : Bool :=
  runs.any fun run => decide (run.1 ≤ c.toNat) && decide (c.toNat ≤ run.2)

/-- The runs of white space. -/
def whiteRuns : List (Nat × Nat) :=
  [(0x09, 0x0D), (0x20, 0x20), (0x85, 0x85), (0xA0, 0xA0), (0x1680, 0x1680), (0x2000, 0x200A),
   (0x2028, 0x2029), (0x202F, 0x202F), (0x205F, 0x205F), (0x3000, 0x3000)]

/-- White space. -/
def isWhite (c : Char) : Bool := inRuns whiteRuns c

/-- The run of the four separators of ASCII. -/
def separatorRuns : List (Nat × Nat) := [(0x1C, 0x1F)]

/-- A character that is dropped at the end of a line. -/
def isBlank (c : Char) : Bool := isWhite c || inRuns separatorRuns c

/-- The runs of characters that end a line. -/
def lineEndRuns : List (Nat × Nat) := [(0x0A, 0x0D), (0x1C, 0x1E), (0x85, 0x85), (0x2028, 0x2029)]

/-- A character that ends a line. -/
def isLineEnd (c : Char) : Bool := inRuns lineEndRuns c

/-- Drop the characters of a class at the end. -/
def trimRight (blank : Char → Bool) (cs : List Char) : List Char :=
  (cs.reverse.dropWhile blank).reverse

/-- Drop the characters of a class at both ends. -/
def trim (blank : Char → Bool) (cs : List Char) : List Char :=
  trimRight blank (cs.dropWhile blank)

/-- The last line of a text, where blanks at its end do not count. -/
def lastLine (s : String) : String :=
  String.ofList ((trimRight isBlank s.toList).reverse.takeWhile (!isLineEnd ·)).reverse

/-! ## How the classes lie to each other -/

theorem isBlank_of_isWhite (c : Char) (h : isWhite c = true) : isBlank c = true := by
  simp [isBlank, h]

theorem isBlank_of_isLineEnd (c : Char) (h : isLineEnd c = true) : isBlank c = true := by
  simp only [isLineEnd, isBlank, isWhite, inRuns, lineEndRuns, whiteRuns, separatorRuns,
    List.any_cons, List.any_nil, Bool.or_eq_true, Bool.and_eq_true, decide_eq_true_eq,
    Bool.false_eq_true, or_false] at h ⊢
  omega

end LinearProgram.Text
