import Assessment.Text.Cut
import Assessment.Text.Hex
import Assessment.Xml.Fault
import Assessment.Xml.Name

/-!
# References and line ends

A reference is `&`, then a name or a number, then a semicolon. A number stands for the character
itself. Five names stand for characters of markup in every document; all others have to be declared.
-/

namespace Assessment.Xml

open Assessment.Text

/-- A reference, after its ampersand and without its semicolon. -/
inductive Reference where
  /-- A character. -/
  | char (c : Char)
  /-- The name of a declared entity. -/
  | entity (name : List Char)
  deriving DecidableEq, Repr

/-- The characters that five names stand for in every document. -/
def predefined? (name : List Char) : Option Char :=
  if name = "lt".toList then some '<'
  else if name = "gt".toList then some '>'
  else if name = "amp".toList then some '&'
  else if name = "quot".toList then some '\x22'
  else if name = "apos".toList then some '\x27'
  else none

/-- The character with a number, if documents can hold it. -/
def charOfNumber (n : Nat) : Except Fault Char :=
  if h : n.isValidChar then
    if isLegal (Char.ofNatAux n h) then .ok (Char.ofNatAux n h) else .error .badCharacterNumber
  else .error .badCharacterNumber

/-- The reference whose number is written in digits of a base, and the rest of the text. -/
def numberReference (base : Nat) (isDigit : Char → Bool) (s : List Char) :
    Except Fault (Reference × List Char) :=
  let digits := s.takeWhile isDigit
  match digits, s.dropWhile isDigit with
  | _ :: _, ';' :: rest => do
    let c ← charOfNumber (numberInBase base digits)
    return (.char c, rest)
  | _, _ => .error .invalidToken

/-- The reference that follows an ampersand, and the rest of the text. -/
def readReference : List Char → Except Fault (Reference × List Char)
  | '#' :: 'x' :: s => numberReference 16 isHexDigit s
  | '#' :: s => numberReference 10 Char.isDigit s
  | s =>
    match plainName? s with
    | some (name, ';' :: rest) =>
      match predefined? name with
      | some c => .ok (.char c, rest)
      | none => .ok (.entity name, rest)
    | _ => .error .invalidToken

/-- Text with every line end written as a line feed. -/
def normalizeLines : List Char → List Char
  | [] => []
  | '\r' :: '\n' :: s => '\n' :: normalizeLines s
  | '\r' :: s => '\n' :: normalizeLines s
  | c :: s => c :: normalizeLines s

end Assessment.Xml
