import Assessment.Item.Rubric
import Assessment.Number.Decimal
import Assessment.Report.CodePass
import Assessment.Report.Render
import Assessment.Xml.Document

/-!
# Items in the report view

An item as a report shows it: the question, the rubric with the greatest score, and the choices. The
item must carry the identifier that is expected of it.
-/

namespace Assessment.Report

open Assessment.Item Assessment.Xml

/-- An item in the report view. -/
structure ReportItem where
  /-- The identifier. -/
  identifier : List Char
  /-- The title. It is the identifier if the item has none. -/
  title : List Char
  /-- The item body as HTML. -/
  question : List Char
  /-- The rubric. -/
  criteria : List Criterion
  /-- The points of all criteria. -/
  maxScore : Float
  /-- The choices. -/
  choices : List Choice

/-- What is said when an item has been rendered. -/
def ReportItem.entry (item : ReportItem) : Log.Entry :=
  ⟨.debug, .report, "Rendered ".toList ++ item.identifier ++ " for report (".toList ++
    Number.decimal item.criteria.length ++ " rubric criteria)".toList⟩

/-- The body of the item, if the item is the one expected and has a body. -/
def findBody (expected : List Char) (root : Element) : Except Failure Element :=
  let identifier := root.attributeD "identifier"
  if identifier.isEmpty then .error (.identifierMissing expected)
  else if identifier ≠ expected then .error (.identifierMismatch expected identifier)
  else
    match root.locate "qti-item-body".toList with
    | body :: _ => .ok body
    | [] => .error (.bodyMissingIn identifier)

/-- The item body as HTML, before the passes over its code. -/
def renderBody (options : Options) (body : Element) : List Char :=
  within "div".toList
    (" class=\"".toList ++ Markup.escape options.bodyWrapperClass ++ ['\x22'])
    (renderNodes options Spacing.root body.children)

/-- The item in the report view. -/
def render (options : Options) (expected : List Char) (root : Element) : Outcome ReportItem :=
  match findBody expected root with
  | .error failure => { result := .error failure }
  | .ok body =>
    let criteria := criteria body
    (finishHtml options (renderBody options body)).map fun question => {
      identifier := root.attributeD "identifier"
      title := (root.attribute? "title").getD expected
      question := question
      criteria := criteria
      maxScore := maxScore criteria
      choices := choices body }

/-- The item in the report view, if it can be read. Of a document that is not well formed it is only said
which item was expected. -/
def renderInput (options : Options) (expected : List Char) (input : Input) : Outcome ReportItem :=
  match input.root with
  | .error fault =>
    { result := .error (if fault.isMalformed then .unreadable expected else .document fault) }
  | .ok root => render options expected root

end Assessment.Report
