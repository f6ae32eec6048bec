import Assessment.Text.Range

/-!
# White space

The white space of every script, trimming and splitting at it. Text is a list of characters
throughout the library, so that each law about it is an induction on the list.

The separators U+001C to U+001F count as white space, and so do U+0085 and the no-break spaces. The
zero width space and the byte order mark do not.
-/

namespace Assessment.Text

/-- The ranges of white space characters. -/
def blankRanges : Ranges := [
  (0x9, 0xD), (0x1C, 0x20), (0x85, 0x85), (0xA0, 0xA0), (0x1680, 0x1680), (0x2000, 0x200A),
  (0x2028, 0x2029), (0x202F, 0x202F), (0x205F, 0x205F), (0x3000, 0x3000)]

/-- A white space character. -/
def isBlank (c : Char) : Bool := blankRanges.mem c.toNat

/-- The text without the white space it starts with. -/
def trimStart (s : List Char) : List Char := s.dropWhile isBlank

/-- The text without the white space it ends with. -/
def trimEnd (s : List Char) : List Char := (s.reverse.dropWhile isBlank).reverse

/-- The text without the white space around it. -/
def trim (s : List Char) : List Char := trimEnd (trimStart s)

/-- The text holds nothing but white space. -/
def isBlankText (s : List Char) : Bool := s.all isBlank

/-- The maximal runs of characters that are not white space. `word` is the run being read, with its
last character first. -/
def wordsFrom (word : List Char) : List Char → List (List Char)
  | [] => if word.isEmpty then [] else [word.reverse]
  | c :: s =>
    if isBlank c then
      if word.isEmpty then wordsFrom [] s else word.reverse :: wordsFrom [] s
    else wordsFrom (c :: word) s

/-- The words of a text: its maximal runs of characters that are not white space. -/
def words (s : List Char) : List (List Char) := wordsFrom [] s

/-- White space of the ASCII range that core knows is white space here. -/
theorem isBlank_of_isWhitespace {c : Char} (h : c.isWhitespace = true) : isBlank c = true := by
  simp only [Char.isWhitespace, Bool.or_eq_true, decide_eq_true_eq] at h
  rcases h with ((rfl | rfl) | rfl) | rfl <;> decide

end Assessment.Text
