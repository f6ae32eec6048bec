import Assessment.Number.Decimal
import Assessment.Number.Layout

/-!
# Records as JSON

The output of the program: values written over several lines, two spaces deeper for each level. Of the
characters, quotes, backslashes and control characters alone are escaped.
-/

namespace Assessment.Cli

/-- A value that is written. -/
inductive Json where
  /-- Nothing. -/
  | null
  /-- A text. -/
  | text (s : List Char)
  /-- A whole number. -/
  | index (n : Nat)
  /-- A number of points. -/
  | points (x : Float)
  /-- Several values. -/
  | array (values : List Json)
  /-- Values by name, in the order in which they are written. -/
  | object (fields : List (List Char × Json))

namespace Json

/-- A character between quotes. -/
def escapeChar (c : Char) : List Char :=
  if c = '\x22' then ['\\', '\x22']
  else if c = '\\' then ['\\', '\\']
  else if c = '\n' then ['\\', 'n']
  else if c = '\r' then ['\\', 'r']
  else if c = '\t' then ['\\', 't']
  else if c = '\x08' then ['\\', 'b']
  else if c = '\x0c' then ['\\', 'f']
  else if c.toNat < 0x20 then
    let digits := Nat.toDigits 16 c.toNat
    '\\' :: 'u' :: List.replicate (4 - digits.length) '0' ++ digits
  else [c]

/-- A text in quotes. -/
def writeText (s : List Char) : List Char := '\x22' :: s.flatMap escapeChar ++ ['\x22']

/-- Points as a number. A number beyond all others is written as a word. -/
def writePoints (x : Float) : List Char :=
  if x == 1.0 / 0.0 then "Infinity".toList else Number.points.render x

/-- The start of a line at the given depth. -/
def newline (depth : Nat) : List Char := '\n' :: List.replicate (2 * depth) ' '

mutual

/-- A value, of which the first line is at the given depth. -/
def write (depth : Nat) : Json → List Char
  | null => "null".toList
  | text s => writeText s
  | index n => Number.decimal n
  | points x => writePoints x
  | array [] => "[]".toList
  | array (value :: values) =>
    '[' :: newline (depth + 1) ++ write (depth + 1) value ++ writeValues (depth + 1) values ++
      newline depth ++ [']']
  | object [] => ['\x7b', '\x7d']
  | object ((name, value) :: fields) =>
    '\x7b' :: newline (depth + 1) ++ writeText name ++ ": ".toList ++ write (depth + 1) value ++
      writeFields (depth + 1) fields ++ newline depth ++ ['\x7d']

/-- The values of an array after the first. -/
def writeValues (depth : Nat) : List Json → List Char
  | [] => []
  | value :: values => ',' :: newline depth ++ write depth value ++ writeValues depth values

/-- The fields of an object after the first. -/
def writeFields (depth : Nat) : List (List Char × Json) → List Char
  | [] => []
  | (name, value) :: fields =>
    ',' :: newline depth ++ writeText name ++ ": ".toList ++ write depth value ++
      writeFields depth fields

end

end Json

end Assessment.Cli
