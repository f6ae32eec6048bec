import Assessment.Failure
import Assessment.Html.Print
import Assessment.Html.Tree

/-!
# Fragments of HTML

Reading a fragment of HTML, by the name of the way to read it, and writing it again.
-/

namespace Assessment.Html

/-- The names of the way in which HTML is read. -/
def builderNames : List (List Char) := ["html.parser".toList, "html".toList, "strict".toList]

/-- The way to read HTML that is taken unless told otherwise. -/
def defaultBuilder : List Char := "html.parser".toList

/-- The nodes of a text of HTML. -/
def read (builder html : List Char) : Except Failure (List Node) :=
  if builderNames.contains builder then
    match parse html with
    | some nodes => .ok nodes
    | none => .error .rejectedMarkup
  else .error (.unknownBuilder builder)

/-- The text, read and written again. -/
def roundTrip (html : List Char) : Except Failure (List Char) :=
  (read defaultBuilder html).map serialize

end Assessment.Html
