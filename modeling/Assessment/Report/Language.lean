import Assessment.Markup.StartTag
import Assessment.Text.Lower

/-!
# The language of code

Code says what language it is written in: in an attribute made for that, or in a class that starts
with `language-` or `lang-`. The attributes come first, and of them only the first that the tag has
is looked at.
-/

namespace Assessment.Report.Language

open Assessment.Text Assessment.Markup

/-- The language of code of which no language is known. -/
def plain : List Char := "plain".toList

/-- The attributes that name a language, the ones looked at first in front. -/
def attributeNames : List (List Char) :=
  ["data-lang".toList, "data-language".toList, "data-code-lang".toList]

/-- A character of a language in a class. -/
def isNamePart (c : Char) : Bool := StartTag.isLetter c || c.isDigit || c == '_' || c == '-'

/-- What follows the beginning of a class, if it can be the name of a language. -/
def ofClassAfter (start name : List Char) : Option (List Char) :=
  match after? start name with
  | some language => if !language.isEmpty && language.all isNamePart then some language else none
  | none => none

/-- The language that a class names. -/
def ofClass (name : List Char) : Option (List Char) :=
  (ofClassAfter "language-".toList name).or (ofClassAfter "lang-".toList name)

/-- The language that an attribute names, if it is not blank. -/
def ofAttributes (attributes : Attributes) : Option (List Char) :=
  match attributeNames.findSome? attributes.get? with
  | some value =>
    let language := trim value
    if language.isEmpty then none else some language
  | none => none

/-- The language that a start tag declares, as it is written there. -/
def ofTag (tag : List Char) : Option (List Char) :=
  let attributes := StartTag.attributes tag
  (ofAttributes attributes).or <|
    (words ((attributes.get? "class".toList).getD [])).findSome? ofClass

/-- Languages that go by another name. -/
def aliases : List (List Char × List Char) :=
  [("xml".toList, "html".toList), ("plaintext".toList, plain)]

/-- The name under which a language is shown: in lower case, and the usual one if it has several. -/
def normalize (language : List Char) : List Char :=
  let name := lower language
  (aliases.lookup name).getD name

end Assessment.Report.Language
