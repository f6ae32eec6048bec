import Assessment.Text.Blank

/-!
# White space on the same line

Trimming that stays on a line: the white space at an edge of a text is removed only if there is no
line break in it. Text that starts or ends on a line of its own is left as it is.
-/

namespace Assessment.Text

/-- A character that ends a line. -/
def isLineBreak (c : Char) : Bool := c == '\n' || c == '\r'

/-- The text without the white space it starts with, if that holds no line break. -/
def trimInlineStart (s : List Char) : List Char :=
  if (s.takeWhile isBlank).any isLineBreak then s else s.dropWhile isBlank

/-- The text without the white space it ends with, if that holds no line break. -/
def trimInlineEnd (s : List Char) : List Char := (trimInlineStart s.reverse).reverse

end Assessment.Text
