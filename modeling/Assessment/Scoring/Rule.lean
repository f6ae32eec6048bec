/-!
# How each element is shown to a scorer

Every element of an item falls under one rule, which depends on its local name alone. Elements that
no rule names are transparent: what they hold is shown in their place.
-/

namespace Assessment.Scoring

/-- How an element is shown. -/
inductive Rule where
  /-- Inside a tag without attributes. -/
  | wrap (tag : List Char)
  /-- As a link. -/
  | link
  /-- As code, with all its white space. -/
  | code
  /-- As a preformatted block. -/
  | pre
  /-- As a numbered list. -/
  | orderedList
  /-- As an image. -/
  | image
  /-- As a line across the page. -/
  | line
  /-- As the next blank. -/
  | blank
  /-- As the place of a long answer. -/
  | extendedText
  /-- As a list of choices. -/
  | choices
  /-- Not at all. -/
  | hidden
  /-- As what it holds. -/
  | transparent
  deriving DecidableEq, Repr

/-- The name of the elements that stand for blanks. -/
def blankName : List Char := "qti-text-entry-interaction".toList

/-- The name of the elements that hold code. -/
def codeName : List Char := "qti-code".toList

/-- The name of the elements that hold a choice. -/
def choiceName : List Char := "qti-simple-choice".toList

namespace Rule

/-- The elements that have a rule of their own. -/
def table : List (List Char × Rule) := [
  ("qti-p".toList, wrap "p".toList),
  ("qti-h3".toList, wrap "h3".toList),
  ("qti-h4".toList, wrap "h4".toList),
  ("qti-h5".toList, wrap "h5".toList),
  ("qti-h6".toList, wrap "h6".toList),
  ("qti-em".toList, wrap "em".toList),
  ("qti-strong".toList, wrap "strong".toList),
  ("qti-del".toList, wrap "del".toList),
  ("qti-a".toList, link),
  (codeName, code),
  ("qti-pre".toList, pre),
  ("qti-blockquote".toList, wrap "blockquote".toList),
  ("qti-ul".toList, wrap "ul".toList),
  ("qti-ol".toList, orderedList),
  ("qti-li".toList, wrap "li".toList),
  ("qti-table".toList, wrap "table".toList),
  ("qti-thead".toList, wrap "thead".toList),
  ("qti-tbody".toList, wrap "tbody".toList),
  ("qti-tr".toList, wrap "tr".toList),
  ("qti-th".toList, wrap "th".toList),
  ("qti-td".toList, wrap "td".toList),
  ("qti-hr".toList, line),
  ("qti-img".toList, image),
  (blankName, blank),
  ("qti-extended-text-interaction".toList, extendedText),
  ("qti-choice-interaction".toList, choices),
  ("qti-rubric-block".toList, hidden)]

/-- The rule for the elements with a local name. -/
def ofName (name : List Char) : Rule := (table.lookup name).getD transparent

end Rule

end Assessment.Scoring
