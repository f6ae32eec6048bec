import Assessment.Failure
import Assessment.Item.Rubric
import Assessment.Number.Decimal
import Assessment.Scoring.Render
import Assessment.Xml.Document

/-!
# Items in the scoring view

An item as a scorer sees it: the prompt with its blanks, the rubric, the choices, and the explanation
meant for candidates, whose blanks are numbered on from those of the prompt.
-/

namespace Assessment.Scoring

open Assessment.Item Assessment.Text Assessment.Xml

/-- An item in the scoring view. -/
structure ScoringItem where
  /-- The identifier, empty if the item has none. -/
  identifier : List Char
  /-- The title. It is the identifier if the item has none. -/
  title : List Char
  /-- The item body as HTML. -/
  prompt : List Char
  /-- The rubric. -/
  criteria : List Criterion
  /-- The choices. -/
  choices : List Choice
  /-- The explanation for candidates as HTML, if there is one. -/
  explanation : Option (List Char)
  /-- The number of blanks in the prompt. -/
  promptBlanks : Nat
  /-- The number of blanks in the explanation. -/
  explanationBlanks : Nat

/-- The feedback that explains the item: the one that is bound to the feedback outcome, or else the
first that is called an explanation. -/
def findExplanation (root : Element) : Option Element :=
  let feedbacks := (root.locate "qti-modal-feedback".toList).filter fun feedback =>
    feedback.attribute? "identifier" == some "EXPLANATION".toList
  let bound := feedbacks.find? fun feedback =>
    feedback.attribute? "outcome-identifier" == some "FEEDBACK".toList
  bound.or feedbacks.head?

/-- The nodes of the explanation, without the white space around its elements. -/
def explanationNodes (root : Element) : Option (List Node) := do
  let feedback ← findExplanation root
  let body ← (feedback.locate "qti-content-body".toList).head?
  return body.children.filter isPreContent

/-- The explanation for candidates, with the number of blanks after it. -/
def renderExplanation (options : Options) (blanks : Nat) (root : Element) :
    Option (List Char) × Nat :=
  match explanationNodes root with
  | some nodes =>
    let shown := renderNodes options Spacing.root blanks nodes
    (some shown.html, shown.blanks)
  | none => (none, blanks)

/-- The body of an item. -/
def itemBody? (root : Element) : Option Element := (root.locate "qti-item-body".toList).head?

/-- The item in the scoring view. -/
def render (options : Options) (root : Element) : Except Failure ScoringItem :=
  match itemBody? root with
  | none => .error .bodyMissing
  | some body =>
    let identifier := root.attributeD "identifier"
    let prompt := renderNodes options Spacing.root 0 body.children
    let (explanation, blanks) := renderExplanation options prompt.blanks root
    .ok {
      identifier := identifier
      title := (root.attribute? "title").getD identifier
      prompt := prompt.html
      criteria := criteria body
      choices := choices body
      explanation := explanation
      promptBlanks := prompt.blanks
      explanationBlanks := blanks - prompt.blanks }

/-- The item in the scoring view, if it can be read. -/
def renderInput (options : Options) (input : Input) : Except Failure ScoringItem :=
  match input.root with
  | .error fault => .error (.document fault)
  | .ok root => render options root

/-- What is said when an item has been rendered. -/
def ScoringItem.entry (item : ScoringItem) : Log.Entry :=
  let name := if item.identifier.isEmpty then "<no identifier>".toList else item.identifier
  ⟨.debug, .scoring, "Rendered ".toList ++ name ++ " for scoring: ".toList ++
    Number.decimal item.promptBlanks ++ " blank(s) in prompt, ".toList ++
    Number.decimal item.explanationBlanks ++ " in explanation".toList⟩

end Assessment.Scoring
