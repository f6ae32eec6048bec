import Assessment.Item.Spacing
import Assessment.Scoring.Options
import Assessment.Scoring.Rule
import Assessment.Text.Inline
import Assessment.Xml.Tree

/-!
# The scoring view

The nodes of an item as HTML for a scorer. Blanks are numbered while the nodes are rendered: every
function takes the number of blanks so far and returns the new one with the HTML, so that the numbers
run through in the order in which blanks are shown.

Two elements look past their own children. A choice interaction shows every choice below it, wherever
it lies. A preformatted block looks at the neighbours of the code it holds: next to a blank the code
loses the white space of that line, so that the blank stands close to it.
-/

namespace Assessment.Scoring

open Assessment.Item Assessment.Text Assessment.Xml

/-- What was rendered. -/
structure Shown where
  /-- The HTML. -/
  html : List Char
  /-- The number of blanks so far. -/
  blanks : Nat
  deriving DecidableEq, Repr

namespace Shown

/-- A tag around what was rendered. `start` is the start tag without its closing bracket. -/
def within (start tag : List Char) (shown : Shown) : Shown :=
  { shown with html := start ++ '>' :: shown.html ++ "</".toList ++ tag ++ ['>'] }

end Shown

/-- An attribute as it is written, or nothing if it is absent or empty. -/
def optionalAttribute (attributes : Attributes) (name : List Char) : List Char :=
  match attributes.get? name with
  | none => []
  | some value =>
    if value.isEmpty then []
    else ' ' :: name ++ "=\"".toList ++ Markup.escape value ++ ['\x22']

/-- The value of an attribute, escaped. It is empty if the attribute is absent. -/
def escapedValue (attributes : Attributes) (name : List Char) : List Char :=
  Markup.escape ((attributes.get? name).getD [])

/-- An image. -/
def image (attributes : Attributes) : List Char :=
  "<img src=\"".toList ++ escapedValue attributes "src".toList ++ "\" alt=\"".toList ++
    escapedValue attributes "alt".toList ++ ['\x22'] ++
    optionalAttribute attributes "title".toList ++ " />".toList

/-- The start tag of a list of choices, without its closing bracket. -/
def choiceListStart (options : Options) : List Char :=
  "<ol class=\"".toList ++ options.choiceListClass ++ ['\x22']

/-- The start tag of a choice, without its closing bracket. -/
def choiceStart (attributes : Attributes) : List Char :=
  "<li data-choice=\"".toList ++ escapedValue attributes "identifier".toList ++ ['\x22']

/-- The start tag of a preformatted block with the given children, without its closing bracket. -/
def preStart (options : Options) (children : List Node) : List Char :=
  if children.any (·.isElement blankName) then
    "<pre class=\"".toList ++ options.preWithBlanksClass ++ ['\x22']
  else "<pre".toList

/-- The node counts in a preformatted block: it is neither layout nor a comment. -/
def isPreContent (node : Node) : Bool := node.isShown && !node.isBlankText

/-- The first node that counts in a preformatted block is a blank. -/
def startsWithBlank (nodes : List Node) : Bool :=
  match nodes.find? isPreContent with
  | some node => node.isElement blankName
  | none => false

/-- The inside of code, trimmed on the sides where a blank follows or comes before. -/
def trimBesideBlanks (afterBlank beforeBlank : Bool) (html : List Char) : List Char :=
  let started := if afterBlank then trimInlineStart html else html
  if beforeBlank then trimInlineEnd started else started

mutual

/-- A node in the scoring view. `blanks` is the number of blanks before it. -/
def renderNode (options : Options) (spacing : Spacing) (blanks : Nat) : Node → Shown
  | .text s => ⟨spacing.render s, blanks⟩
  | .comment _ => ⟨[], blanks⟩
  | .element tag attributes children =>
    match Rule.ofName (localName tag) with
    | .wrap name =>
      (renderNodes options spacing blanks children).within ('<' :: name) name
    | .link =>
      (renderNodes options spacing blanks children).within
        ("<a".toList ++ optionalAttribute attributes "href".toList ++
          optionalAttribute attributes "title".toList) "a".toList
    | .code =>
      (renderNodes options spacing.keeping blanks children).within "<code".toList "code".toList
    | .pre =>
      (renderPre options false blanks children).within (preStart options children) "pre".toList
    | .orderedList =>
      (renderNodes options spacing blanks children).within
        ("<ol".toList ++ optionalAttribute attributes "start".toList) "ol".toList
    | .image => ⟨image attributes, blanks⟩
    | .line => ⟨"<hr />".toList, blanks⟩
    | .blank => ⟨options.blank (blanks + 1), blanks + 1⟩
    | .extendedText => ⟨options.extendedText, blanks⟩
    | .choices =>
      (renderChoices options blanks children).within (choiceListStart options) "ol".toList
    | .hidden => ⟨[], blanks⟩
    | .transparent => renderNodes options spacing blanks children

/-- Nodes in the scoring view, one after the other. -/
def renderNodes (options : Options) (spacing : Spacing) (blanks : Nat) : List Node → Shown
  | [] => ⟨[], blanks⟩
  | node :: nodes =>
    let first := renderNode options spacing blanks node
    let rest := renderNodes options spacing first.blanks nodes
    ⟨first.html ++ rest.html, rest.blanks⟩

/-- The children of a preformatted block. `afterBlank` says that the last node that counts was a
blank. -/
def renderPre (options : Options) (afterBlank : Bool) (blanks : Nat) : List Node → Shown
  | [] => ⟨[], blanks⟩
  | .comment _ :: nodes => renderPre options afterBlank blanks nodes
  | .text s :: nodes =>
    if isBlankText s then renderPre options afterBlank blanks nodes
    else
      let rest := renderPre options false blanks nodes
      ⟨Spacing.pre.render s ++ rest.html, rest.blanks⟩
  | .element tag attributes children :: nodes =>
    if localName tag == codeName then
      let code := renderNodes options Spacing.pre.keeping blanks children
      let rest := renderPre options false code.blanks nodes
      ⟨"<code>".toList ++ trimBesideBlanks afterBlank (startsWithBlank nodes) code.html ++
        "</code>".toList ++ rest.html, rest.blanks⟩
    else
      let first := renderNode options Spacing.pre blanks (.element tag attributes children)
      let rest := renderPre options (localName tag == blankName) first.blanks nodes
      ⟨first.html ++ rest.html, rest.blanks⟩

/-- The choices at and below a node, each as an item of a list. -/
def renderChoicesOf (options : Options) (blanks : Nat) : Node → Shown
  | .element tag attributes children =>
    if localName tag == choiceName then
      let inside := renderNodes options Spacing.root blanks children
      let rest := renderChoices options inside.blanks children
      ⟨(inside.within (choiceStart attributes) "li".toList).html ++ rest.html, rest.blanks⟩
    else renderChoices options blanks children
  | _ => ⟨[], blanks⟩

/-- The choices at and below some nodes. -/
def renderChoices (options : Options) (blanks : Nat) : List Node → Shown
  | [] => ⟨[], blanks⟩
  | node :: nodes =>
    let first := renderChoicesOf options blanks node
    let rest := renderChoices options first.blanks nodes
    ⟨first.html ++ rest.html, rest.blanks⟩

end

end Assessment.Scoring
