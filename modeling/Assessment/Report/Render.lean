import Assessment.Item.Spacing
import Assessment.Report.Options
import Assessment.Text.Cut
import Assessment.Xml.Tree

/-!
# The report view

The nodes of an item as HTML for a report. Elements keep their names, without the prefix of the item
format, and their attributes. Nothing can be filled in: blanks become a fixed piece of markup.
-/

namespace Assessment.Report

open Assessment.Item Assessment.Text Assessment.Xml

/-- How an element is shown. -/
inductive Rule where
  /-- Not at all. -/
  | hidden
  /-- As a division that holds choices. -/
  | choices
  /-- As a blank. -/
  | cloze
  /-- As a preformatted block. -/
  | pre
  /-- As code, with all its white space. -/
  | code
  /-- As an image. -/
  | image
  /-- As a line across the page. -/
  | line
  /-- Under its own name. -/
  | renamed
  deriving DecidableEq, Repr

namespace Rule

/-- The elements that have a rule of their own. Some are also known without their prefix. -/
def table : List (List Char × Rule) := [
  ("qti-rubric-block".toList, hidden),
  ("qti-choice-interaction".toList, choices),
  ("qti-text-entry-interaction".toList, cloze),
  ("qti-extended-text-interaction".toList, hidden),
  ("qti-pre".toList, pre),
  ("pre".toList, pre),
  ("qti-code".toList, code),
  ("code".toList, code),
  ("qti-img".toList, image),
  ("img".toList, image),
  ("qti-hr".toList, line),
  ("hr".toList, line)]

/-- The rule for the elements with a local name. -/
def ofName (name : List Char) : Rule := (table.lookup name).getD renamed

end Rule

/-- The name of an element in HTML: its own without the prefix of the item format. -/
def htmlName (name : List Char) : List Char := (after? "qti-".toList name).getD name

/-- A tag around HTML. `attributes` is what stands between the name and the closing bracket. -/
def within (tag attributes html : List Char) : List Char :=
  '<' :: tag ++ attributes ++ '>' :: html ++ "</".toList ++ tag ++ ['>']

/-- The class of the division that holds choices, as an attribute. -/
def choiceWrapperAttribute (options : Options) : List Char :=
  if options.choiceWrapperClass.isEmpty then []
  else " class=\"".toList ++ Markup.escape options.choiceWrapperClass ++ ['\x22']

mutual

/-- A node in the report view. -/
def renderNode (options : Options) (spacing : Spacing) : Node → List Char
  | .text s => spacing.render s
  | .comment _ => []
  | .element tag attributes children =>
    match Rule.ofName (localName tag) with
    | .hidden => []
    | .choices =>
      within "div".toList (choiceWrapperAttribute options) (renderNodes options spacing children)
    | .cloze => options.cloze
    | .pre =>
      within "pre".toList (writeAttributes attributes) (renderNodes options Spacing.pre children)
    | .code =>
      within "code".toList (writeAttributes attributes)
        (renderNodes options spacing.keeping children)
    | .image => "<img".toList ++ writeAttributes attributes ++ " />".toList
    | .line => "<hr />".toList
    | .renamed =>
      within (htmlName (localName tag)) (writeAttributes attributes)
        (renderNodes options spacing children)

/-- Nodes in the report view, one after the other. -/
def renderNodes (options : Options) (spacing : Spacing) : List Node → List Char
  | [] => []
  | node :: nodes => renderNode options spacing node ++ renderNodes options spacing nodes

end

end Assessment.Report
