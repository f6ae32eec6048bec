import Assessment.Attributes
import Assessment.Text.Blank
import Assessment.Text.Cut

/-!
# HTML as trees

A fragment of HTML is a list of nodes: text, elements with what they hold, and the parts of a document
that are neither. What elements hold is kept as it was written: no element is closed or moved because
another one may not stand in it.
-/

namespace Assessment.Html

open Assessment.Text

/-- The parts of a document that are neither text nor elements. -/
inductive Special where
  /-- A comment. -/
  | comment
  /-- A section of character data. -/
  | data
  /-- Another marked section. -/
  | declaration
  /-- A processing instruction. -/
  | instruction
  /-- A document type. -/
  | doctype
  deriving DecidableEq, Repr

/-- A node of a fragment. -/
inductive Node where
  /-- A run of text. -/
  | text (s : List Char)
  /-- Something that is neither text nor an element, with what it says. -/
  | special (kind : Special) (s : List Char)
  /-- An element: its name, its attributes and what it holds. -/
  | element (name : List Char) (attributes : Attributes) (children : List Node)

/-- The elements that never hold anything. -/
def voidNames : List (List Char) :=
  ["area".toList, "base".toList, "br".toList, "col".toList, "embed".toList, "hr".toList,
    "img".toList, "input".toList, "keygen".toList, "link".toList, "menuitem".toList,
    "meta".toList, "param".toList, "source".toList, "track".toList, "wbr".toList,
    "basefont".toList, "bgsound".toList, "command".toList, "frame".toList, "image".toList,
    "isindex".toList, "nextid".toList, "spacer".toList]

/-- The element never holds anything. -/
def isVoid (name : List Char) : Bool := voidNames.contains name

/-- The elements of which the text is no markup. -/
def rawNames : List (List Char) := ["script".toList, "style".toList]

/-- The text of the element is no markup. -/
def isRaw (name : List Char) : Bool := rawNames.contains name

/-- The elements in which white space counts. -/
def spacedNames : List (List Char) := ["pre".toList, "textarea".toList]

/-- The attributes that hold several words on any element. -/
def wordAttributes : List (List Char) := ["class".toList, "accesskey".toList, "dropzone".toList]

/-- The attributes that hold several words on some elements. -/
def wordAttributesOf : List (List Char × List (List Char)) := [
  ("a".toList, ["rel".toList, "rev".toList]),
  ("link".toList, ["rel".toList, "rev".toList]),
  ("td".toList, ["headers".toList]),
  ("th".toList, ["headers".toList]),
  ("form".toList, ["accept-charset".toList]),
  ("object".toList, ["archive".toList]),
  ("area".toList, ["rel".toList]),
  ("icon".toList, ["sizes".toList]),
  ("iframe".toList, ["sandbox".toList]),
  ("output".toList, ["for".toList])]

/-- The attribute holds several words. -/
def isWordAttribute (element name : List Char) : Bool :=
  wordAttributes.contains name || ((wordAttributesOf.lookup element).getD []).contains name

/-- Words with one space between them. -/
def spaced (s : List Char) : List Char := joinWith [' '] (words s)

/-- The attributes with one space between the words of those that hold several. -/
def spaceWords (element : List Char) (attributes : Attributes) : Attributes :=
  attributes.map fun (name, value) =>
    (name, if isWordAttribute element name then spaced value else value)

namespace Node

mutual

/-- The node with its elements changed in document order, each before what it holds. The function
gets what is known so far, and returns what is known after the element. -/
def update {σ : Type} (f : σ → List Char → Attributes → Attributes × σ) (known : σ) :
    Node → Node × σ
  | .text s => (.text s, known)
  | .special kind s => (.special kind s, known)
  | .element name attributes children =>
    let changed := f known name attributes
    let inside := updateAll f changed.2 children
    (.element name changed.1 inside.1, inside.2)

/-- The nodes with their elements changed in document order. -/
def updateAll {σ : Type} (f : σ → List Char → Attributes → Attributes × σ) (known : σ) :
    List Node → List Node × σ
  | [] => ([], known)
  | node :: nodes =>
    let first := update f known node
    let rest := updateAll f first.2 nodes
    (first.1 :: rest.1, rest.2)

end

mutual

/-- The elements at and below the node, in document order, by name and attributes. -/
def elements : Node → List (List Char × Attributes)
  | .element name attributes children => (name, attributes) :: elementsOf children
  | _ => []

/-- The elements among some nodes and below them, in document order. -/
def elementsOf : List Node → List (List Char × Attributes)
  | [] => []
  | node :: nodes => elements node ++ elementsOf nodes

end

mutual

/-- What the first element of the given name at or below the node holds. -/
def firstNamed? (name : List Char) : Node → Option (List Node)
  | .element tag _ children => if tag = name then some children else firstNamedOf? name children
  | _ => none

/-- What the first element of the given name among some nodes and below them holds. -/
def firstNamedOf? (name : List Char) : List Node → Option (List Node)
  | [] => none
  | node :: nodes => (firstNamed? name node).or (firstNamedOf? name nodes)

end

end Node

end Assessment.Html
