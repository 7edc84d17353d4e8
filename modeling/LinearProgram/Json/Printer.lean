import LinearProgram.Json.Basic
import LinearProgram.Text.Quoted
/-!
# Data values as text

A data value is written over several lines: every element of a list and every field of an object on a
line of its own, set in by two blanks for each level; an empty list or object on the spot.  Characters
outside ASCII are written as escapes of UTF-16 units.
-/

namespace LinearProgram.Json

/-- The escape of a UTF-16 unit. -/
def unitEscape (unit : Nat) : List Char := '\\' :: 'u' :: Text.hexText 4 unit

/-- A character in a text. -/
def charText (c : Char) : List Char :=
  if c = '"' then ['\\', '"']
  else if c = '\\' then ['\\', '\\']
  else if c = '\n' then ['\\', 'n']
  else if c = '\r' then ['\\', 'r']
  else if c = '\t' then ['\\', 't']
  else if c.toNat = 8 then ['\\', 'b']
  else if c.toNat = 12 then ['\\', 'f']
  else if 0x20 ≤ c.toNat ∧ c.toNat < 0x7F then [c]
  else if c.toNat < 0x10000 then unitEscape c.toNat
  else
    let rest := c.toNat - 0x10000
    unitEscape (0xD800 + rest / 0x400) ++ unitEscape (0xDC00 + rest % 0x400)

/-- A text in quotes. -/
def stringText (s : String) : String :=
  String.ofList ('"' :: s.toList.flatMap charText ++ ['"'])

/-- The blanks in front of a line. -/
def indentation (level : Nat) : String := String.ofList (List.replicate (2 * level) ' ')

/-- The words for the doubles that have no digits. -/
def numberText (x : Float) : String :=
  if x.isNaN then "NaN"
  else if x.isInf then (if x < 0 then "-Infinity" else "Infinity")
  else shortestText x

/-- The lines of a block between brackets. -/
def block (left right : String) (level : Nat) (items : List String) : String :=
  if items.isEmpty then left ++ right
  else
    left ++ "\n" ++
      ",\n".intercalate (items.map fun item => indentation (level + 1) ++ item) ++
      "\n" ++ indentation level ++ right

mutual

/-- A value on its level. -/
def render (level : Nat) : Json → String
  | .null => "null"
  | .bool b => if b then "true" else "false"
  | .int n => toString n
  | .number x => numberText x
  | .text s => stringText s
  | .list xs => block "[" "]" level (renderItems (level + 1) xs)
  | .object fields => block "\x7b" "\x7d" level (renderFields (level + 1) fields)

/-- The elements of a list. -/
def renderItems (level : Nat) : List Json → List String
  | [] => []
  | x :: xs => render level x :: renderItems level xs

/-- The fields of an object. -/
def renderFields (level : Nat) : List (String × Json) → List String
  | [] => []
  | (name, x) :: rest => (stringText name ++ ": " ++ render level x) :: renderFields level rest

end

end LinearProgram.Json
