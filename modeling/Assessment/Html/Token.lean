import Assessment.Html.Node

/-!
# The tokens of HTML

A text of HTML is read as tokens: runs of text, start tags, end tags, and the parts that are neither
text nor tags.
-/

namespace Assessment.Html

/-- A token. -/
inductive Token where
  /-- Some text. Neighbouring texts are one run; the empty text is no text at all. -/
  | text (s : List Char)
  /-- Something that is neither text nor a tag. -/
  | special (kind : Special) (s : List Char)
  /-- A start tag, and whether it closes its element at once. -/
  | startTag (name : List Char) (attributes : Attributes) (closed : Bool)
  /-- An end tag. -/
  | endTag (name : List Char)

/-- What comes of reading a piece of markup. -/
inductive Reading where
  /-- A token, and the rest of the text. -/
  | found (token : Token) (rest : List Char)
  /-- The text ends inside the markup. -/
  | unfinished
  /-- The markup cannot be read at all. -/
  | rejected

/-- What was read leaves no more than `n` characters. -/
def Reading.Within (n : Nat) : Reading → Prop
  | found _ rest => rest.length ≤ n
  | unfinished => True
  | rejected => True

end Assessment.Html
