import Assessment.Markup.Entity.Names
import Assessment.Text.Hex
import Assessment.Text.Scan

/-!
# Character references

Decoding of the references of HTML: `&` with the name of a character, or with its number after `#`.

* A name is read up to a blank, an angle bracket, an ampersand, a number sign or its semicolon, but
  no further than 32 characters. If it is unknown, its longest beginning that is a legacy name counts
  and the rest stays as text; if there is none, the whole stays as it is.
* A number that no character has becomes the replacement character. Numbers of the range 128 to 159
  mean the characters that the Windows code page 1252 has there. Numbers of other control characters
  and of code points that are no characters vanish.
-/

namespace Assessment.Markup.Entity

open Assessment.Text

/-- The characters of the Windows code page 1252 from 128 to 159. Five places are empty and keep
their number. -/
def codePage1252 : List Nat := [
  0x20AC, 0x81, 0x201A, 0x192, 0x201E, 0x2026, 0x2020, 0x2021, 0x2C6, 0x2030, 0x160, 0x2039, 0x152,
  0x8D, 0x17D, 0x8F, 0x90, 0x2018, 0x2019, 0x201C, 0x201D, 0x2022, 0x2013, 0x2014, 0x2DC, 0x2122,
  0x161, 0x203A, 0x153, 0x9D, 0x17E, 0x178]

/-- A code point that the code page 1252 gives to the number `n`. -/
def windowsCode (n : Nat) : Nat :=
  if 0x80 ≤ n && n ≤ 0x9F then codePage1252.getD (n - 0x80) n else n

/-- A number that has no character: a surrogate, or beyond the last code point. -/
def isOutside (n : Nat) : Bool := (0xD800 ≤ n && n ≤ 0xDFFF) || 0x10FFFF < n

/-- A number whose reference vanishes: a control character, or a code point that is no character. -/
def isVoid (n : Nat) : Bool :=
  (1 ≤ n && n ≤ 8) || n = 0xB || (0xE ≤ n && n ≤ 0x1F) || (0x7F ≤ n && n ≤ 0x9F) ||
    (0xFDD0 ≤ n && n ≤ 0xFDEF) || n % 0x10000 = 0xFFFE || n % 0x10000 = 0xFFFF

/-- What a reference to the number `n` stands for. -/
def ofNumber (n : Nat) : List Char :=
  if n = 0 then ['\uFFFD']
  else if 0x80 ≤ n && n ≤ 0x9F then [Char.ofNat (windowsCode n)]
  else if isOutside n then ['\uFFFD']
  else if isVoid n then []
  else [Char.ofNat n]

/-- The characters that an entry stands for. -/
def Entry.text (entry : Entry) : List Char :=
  Char.ofNat entry.first :: entry.second.toList.map Char.ofNat

/-- The characters that a name stands for, written without its semicolon. -/
def ofName? (name : List Char) : Option (List Char) :=
  match name with
  | [] => none
  | c :: _ => ((namesFrom c).find? fun entry => entry.name.toList == name).map Entry.text

/-- The characters that a legacy name stands for. -/
def ofLegacyName? (name : List Char) : Option (List Char) :=
  if legacyNames.any fun legacy => legacy.toList == name then ofName? name else none

/-- The longest beginning of `name` of at most `n` and at least two characters that is a legacy name,
decoded, with the rest as it is. -/
def legacyStart? (name : List Char) : Nat → Option (List Char)
  | 0 | 1 => none
  | n + 2 =>
    match ofLegacyName? (name.take (n + 2)) with
    | some text => some (text ++ name.drop (n + 2))
    | none => legacyStart? name (n + 1)

/-- A reference as it is written. -/
inductive Reference where
  /-- A number, in decimal or in hexadecimal digits. -/
  | number (n : Nat)
  /-- A name, and whether a semicolon ends it. -/
  | name (name : List Char) (ended : Bool)
  deriving DecidableEq, Repr

/-- What a reference stands for. -/
def Reference.text : Reference → List Char
  | .number n => ofNumber n
  | .name written true =>
    match ofName? written with
    | some text => text
    | none => (legacyStart? (written ++ [';']) written.length).getD ('&' :: written ++ [';'])
  | .name written false =>
    match ofLegacyName? written with
    | some text => text
    | none => (legacyStart? written (written.length - 1)).getD ('&' :: written)

/-- A character of a name. -/
def isNameChar (c : Char) : Bool :=
  !(c == '\t' || c == '\n' || c == '\x0c' || c == ' ' || c == '<' || c == '&' || c == '#' || c == ';')

/-- The text without a semicolon at its start, and whether there was one. -/
def afterSemicolon : List Char → List Char × Bool
  | ';' :: s => (s, true)
  | s => (s, false)

theorem length_afterSemicolon_le (s : List Char) : (afterSemicolon s).1.length ≤ s.length := by
  unfold afterSemicolon
  split <;> simp

/-- A run of digits of the given base, with its semicolon if it has one. -/
def number? (base : Nat) (isDigit : Char → Bool) (s : List Char) :
    Option (Reference × List Char) :=
  let digits := s.takeWhile isDigit
  if digits.isEmpty then none
  else some (.number (numberInBase base digits), (afterSemicolon (s.dropWhile isDigit)).1)

/-- A name, with its semicolon if it has one. -/
def name? (s : List Char) : Option (Reference × List Char) :=
  let name := (s.takeWhile isNameChar).take 32
  if name.isEmpty then none
  else
    let (rest, ended) := afterSemicolon (s.drop name.length)
    some (.name name ended, rest)

/-- The reference that a text starts with, and the rest of the text. -/
def reference? : List Char → Option (Reference × List Char)
  | '&' :: '#' :: 'x' :: s => number? 16 isHexDigit s
  | '&' :: '#' :: 'X' :: s => number? 16 isHexDigit s
  | '&' :: '#' :: s => number? 10 Char.isDigit s
  | '&' :: s => name? s
  | _ => none

theorem length_of_number? {base : Nat} {isDigit : Char → Bool} {s r : List Char} {a : Reference}
    (h : number? base isDigit s = some (a, r)) : r.length ≤ s.length := by
  simp only [number?] at h
  split at h
  · cases h
  · cases h
    exact Nat.le_trans (length_afterSemicolon_le _) (List.dropWhile_sublist isDigit).length_le

theorem length_of_name? {s r : List Char} {a : Reference} (h : name? s = some (a, r)) :
    r.length ≤ s.length := by
  simp only [name?] at h
  split at h
  · cases h
  · cases h
    exact Nat.le_trans (length_afterSemicolon_le _) (by simp)

theorem length_of_reference? {s r : List Char} {a : Reference}
    (h : reference? s = some (a, r)) : r.length < s.length := by
  unfold reference? at h
  split at h
  · have := length_of_number? h
    simp only [List.length_cons]; omega
  · have := length_of_number? h
    simp only [List.length_cons]; omega
  · have := length_of_number? h
    simp only [List.length_cons]; omega
  · have := length_of_name? h
    simp only [List.length_cons]; omega
  · cases h

/-- Recognises references. -/
def reference : Recognizer Reference := ⟨reference?, length_of_reference?⟩

/-- Text with every reference in it decoded. -/
def decode (s : List Char) : List Char := reference.replace Reference.text s

end Assessment.Markup.Entity
