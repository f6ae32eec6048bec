import Assessment.Attributes
import Assessment.Markup.Escape
import Assessment.Text.Blank
import Assessment.Text.Cut

/-!
# Documents as trees

A document is a tree of elements with runs of text between them. The tag of an element is its name
with the namespace in front, in braces: the part after the last closing brace is the local name, by
which the elements of an item are told apart.

Comments and processing instructions are nodes as well. They are not shown, but they separate the
text on their two sides, and their own text counts as content of the elements around them.
-/

namespace Assessment.Xml

open Assessment.Text

/-- A node of a document. -/
inductive Node where
  /-- A run of text. -/
  | text (s : List Char)
  /-- A comment or a processing instruction, with its text. -/
  | comment (s : List Char)
  /-- An element: its tag, its attributes and what it holds. -/
  | element (tag : List Char) (attributes : Attributes) (children : List Node)

/-- An element by itself, such as the root of a document. -/
structure Element where
  /-- The name, after its namespace in braces if it has one. -/
  tag : List Char
  /-- The attributes, named like the tag. -/
  attributes : Attributes
  /-- The nodes that the element holds. -/
  children : List Node

/-- The part of a tag after its last closing brace. -/
def localName (tag : List Char) : List Char := (tag.reverse.takeWhile (· != '}')).reverse

/-- A run of text as nodes: none if it is empty. -/
def textNodes (s : List Char) : List Node := if s.isEmpty then [] else [.text s]

/-- The node is a run of text that holds nothing but white space. -/
def Node.isBlankText : Node → Bool
  | .text s => Text.isBlankText s
  | _ => false

/-- The node is shown: it is no comment. -/
def Node.isShown : Node → Bool
  | .comment _ => false
  | _ => true

/-- The node is an element with the given local name. -/
def Node.isElement (name : List Char) : Node → Bool
  | .element tag _ _ => localName tag == name
  | _ => false

mutual

/-- All the text of a node, comments included. -/
def Node.content : Node → List Char
  | .text s => s
  | .comment s => s
  | .element _ _ children => contents children

/-- All the text of some nodes, comments included. -/
def contents : List Node → List Char
  | [] => []
  | node :: nodes => node.content ++ contents nodes

end

mutual

/-- The node, if it is an element, and the elements below it, in document order. -/
def Node.elements : Node → List Element
  | .element tag attributes children => ⟨tag, attributes, children⟩ :: elementsOf children
  | _ => []

/-- The elements among some nodes and below them, in document order. -/
def elementsOf : List Node → List Element
  | [] => []
  | node :: nodes => node.elements ++ elementsOf nodes

end

/-- The tag is the name in some namespace or in none. -/
def isNamed (name tag : List Char) : Bool := tag == name || ('}' :: name).isSuffixOf tag

namespace Element

/-- What stands for a comment that is handed over by itself: an element without a name that shows
the text. -/
def ofComment (s : List Char) : Element := ⟨[], [], textNodes s⟩

/-- The element as a node. -/
def toNode (e : Element) : Node := .element e.tag e.attributes e.children

/-- The tag without its namespace. -/
def name (e : Element) : List Char := localName e.tag

/-- The value of an attribute. -/
def attribute? (e : Element) (key : String) : Option (List Char) := e.attributes.get? key.toList

/-- The value of an attribute, empty if it is absent. -/
def attributeD (e : Element) (key : String) : List Char := (e.attribute? key).getD []

/-- All the text of the element, comments included. -/
def content (e : Element) : List Char := contents e.children

/-- The elements below the element, in document order. -/
def descendants (e : Element) : List Element := elementsOf e.children

/-- The elements below with the given name. The name is looked for in every namespace first, and
without a namespace only if nothing was found. -/
def locate (e : Element) (name : List Char) : List Element :=
  match e.descendants.filter fun d => isNamed name d.tag with
  | [] => e.descendants.filter fun d => d.tag == name
  | found => found

end Element

/-- The namespace of the names that start with `xml`. -/
def xmlNamespace : List Char := "http://www.w3.org/XML/1998/namespace".toList

/-- The name under which an attribute is written: without its namespace, which leaves a prefix only
if it is that of `xml`. -/
def attributeName : List Char → List Char
  | '{' :: key =>
    let (space, name) := (cutAtChar? '}' key).getD (key, [])
    if space = xmlNamespace then "xml:".toList ++ name else name
  | key => key

/-- The attribute declares a namespace. -/
def isDeclaration (key : List Char) : Bool := key == "xmlns".toList || startsWith "xmlns:".toList key

/-- One attribute as it is written in a start tag. -/
def writeAttribute (key value : List Char) : List Char :=
  ' ' :: attributeName key ++ "=\"".toList ++ Markup.escape value ++ ['\x22']

/-- The attributes as they are written in a start tag. Declarations of namespaces are left out. -/
def writeAttributes (attributes : Attributes) : List Char :=
  attributes.flatMap fun (key, value) => if isDeclaration key then [] else writeAttribute key value

end Assessment.Xml
