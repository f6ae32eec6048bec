import Assessment.Text.Digit
import Assessment.Xml.Tree

/-!
# Rubrics and choices

What scorers need to know of an item besides its text: the criteria of its rubric with their points,
and the choices it offers. Both are read off the item body and do not depend on how it is rendered.

A line of the rubric may start with a marker, a number in brackets, which gives its points. Digits of
every script count. A marker is only seen when the rest of the line, after the white space that
follows the marker, is a single line of text.
-/

namespace Assessment.Item

open Assessment.Text Assessment.Xml

/-- One line of the rubric with its points. -/
structure Criterion where
  /-- The place in the rubric, from one. -/
  index : Nat
  /-- The points it is worth. -/
  points : Float
  /-- The line without its marker. -/
  text : List Char

/-- One choice of an item. -/
structure Choice where
  /-- The identifier, empty if the choice has none. -/
  identifier : List Char
  /-- The text without white space around it. -/
  text : List Char
  deriving DecidableEq

/-- A number in digits of any script, as whole digits and digits after the point. -/
structure Numeral where
  /-- The digits before the point. -/
  whole : List Char
  /-- The digits after the point, none if there is no point. -/
  fraction : List Char
  deriving DecidableEq

/-- The number nearest to the numeral. -/
def Numeral.value (n : Numeral) : Float :=
  Float.ofScientific (digitsValue (n.whole ++ n.fraction)) true n.fraction.length

/-- The numeral that a text starts with, and the rest of the text. -/
def numeral? (s : List Char) : Option (Numeral × List Char) :=
  let whole := s.takeWhile isDigit
  let rest := s.dropWhile isDigit
  if whole.isEmpty then none
  else
    match rest with
    | '.' :: afterPoint =>
      let fraction := afterPoint.takeWhile isDigit
      if fraction.isEmpty then some (⟨whole, []⟩, rest)
      else some (⟨whole, fraction⟩, afterPoint.dropWhile isDigit)
    | _ => some (⟨whole, []⟩, rest)

/-- The numeral of the marker that a line starts with, and the rest of the line. -/
def marker? : List Char → Option (Numeral × List Char)
  | '[' :: s =>
    match numeral? s with
    | some (numeral, ']' :: rest) => some (numeral, rest)
    | _ => none
  | _ => none

/-- The points and the text of a line. -/
def readLine (line : List Char) : Float × List Char :=
  let trimmed := trim line
  match marker? trimmed with
  | some (numeral, rest) =>
    let text := trimStart rest
    if text.contains '\n' then (0, trimmed) else (numeral.value, trim text)
  | none => (0, trimmed)

/-- Numbers the lines from `index` on. -/
def criteriaFrom (index : Nat) : List Element → List Criterion
  | [] => []
  | line :: lines =>
    let (points, text) := readLine line.content
    ⟨index, points, text⟩ :: criteriaFrom (index + 1) lines

/-- The criteria of the first rubric block for scorers, in document order. -/
def criteria (body : Element) : List Criterion :=
  match (body.locate "qti-rubric-block".toList).find? fun block =>
      block.attribute? "view" == some "scorer".toList with
  | some block => criteriaFrom 1 (block.locate "qti-p".toList)
  | none => []

/-- The choices below the item body, in document order. -/
def choices (body : Element) : List Choice :=
  (body.locate "qti-simple-choice".toList).map fun choice =>
    ⟨choice.attributeD "identifier", trim choice.content⟩

/-- The sum of points, from left to right. -/
def total (points : List Float) : Float := points.foldl (· + ·) 0

/-- The greatest score: the points of all criteria. -/
def maxScore (criteria : List Criterion) : Float := total (criteria.map (·.points))

end Assessment.Item
