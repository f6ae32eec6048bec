import Assessment.Markup.Entity

/-!
# References in the text of HTML

References between tags are read by simpler rules than those in the values of attributes. A number ends
at the first character that is no hexadecimal digit, a name at the first one that is no letter, digit,
point or hyphen; there must be such a character. A name that nobody knows is text, without a semicolon.
-/

namespace Assessment.Html.Reference

open Assessment.Text Assessment.Markup

/-- The text after the character that ends a reference, which is gone if it is a semicolon. -/
def afterEnd : List Char → List Char
  | ';' :: s => s
  | s => s

/-- Digits, and the text after the reference to the number that they stand for. -/
def digits? (base : Nat) (isDigit : Char → Bool) (s : List Char) : Option (Nat × List Char) :=
  let digits := s.takeWhile isDigit
  match s.dropWhile isDigit with
  | [] => none
  | c :: rest =>
    if digits.isEmpty || isHexDigit c then none
    else some (numberInBase base digits, afterEnd (c :: rest))

/-- The number of a reference after its number sign, and the rest of the text. -/
def number? : List Char → Option (Nat × List Char)
  | 'x' :: s => digits? 16 isHexDigit s
  | 'X' :: s => digits? 16 isHexDigit s
  | s => digits? 10 Char.isDigit s

/-- What a reference to a number stands for. Numbers below 256 are those of the Windows code page
1252. -/
def numberText (n : Nat) : List Char :=
  if n < 256 then [Char.ofNat (Entity.windowsCode n)]
  else if Entity.isOutside n then ['\uFFFD']
  else [Char.ofNat n]

/-- A character of the name of a reference. -/
def isNameChar (c : Char) : Bool := c.isAlphanum || c == '-' || c == '.'

/-- The name of a reference after its ampersand, and the rest of the text. A name that reaches the end
of the text ends before its last point or hyphen. -/
def name? (s : List Char) : Option (List Char × List Char) :=
  match s.head? with
  | none => none
  | some first =>
    if first.isAlpha then
      let run := s.takeWhile isNameChar
      match s.dropWhile isNameChar with
      | c :: rest => some (run, afterEnd (c :: rest))
      | [] =>
        let name := ((run.reverse.dropWhile Char.isAlphanum).drop 1).reverse
        if name.isEmpty then none else some (name, s.drop name.length)
    else none

/-- What a reference to a name stands for. -/
def nameText (name : List Char) : List Char := (Entity.ofName? name).getD ('&' :: name)

theorem length_afterEnd_le (s : List Char) : (afterEnd s).length ≤ s.length := by
  unfold afterEnd
  split <;> simp

theorem length_of_digits? {base n : Nat} {isDigit : Char → Bool} {s rest : List Char}
    (h : digits? base isDigit s = some (n, rest)) : rest.length ≤ s.length := by
  have h1 := (List.dropWhile_sublist isDigit (l := s)).length_le
  simp only [digits?] at h
  split at h
  · cases h
  · next c r hr =>
    split at h
    · cases h
    · cases h
      have h2 := length_afterEnd_le (c :: r)
      rw [hr] at h1
      exact Nat.le_trans h2 h1

theorem length_of_number? {n : Nat} {s rest : List Char} (h : number? s = some (n, rest)) :
    rest.length ≤ s.length := by
  unfold number? at h
  split at h
  · exact Nat.le_succ_of_le (length_of_digits? h)
  · exact Nat.le_succ_of_le (length_of_digits? h)
  · exact length_of_digits? h

theorem length_of_name? {name s rest : List Char} (h : name? s = some (name, rest)) :
    rest.length ≤ s.length := by
  have h1 := (List.dropWhile_sublist isNameChar (l := s)).length_le
  simp only [name?] at h
  split at h
  · cases h
  · split at h
    · split at h
      · next c r hr =>
        cases h
        have h2 := length_afterEnd_le (c :: r)
        rw [hr] at h1
        exact Nat.le_trans h2 h1
      · split at h
        · cases h
        · cases h
          simp
    · cases h

end Assessment.Html.Reference
