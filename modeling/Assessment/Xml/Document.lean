import Assessment.Xml.Encoding
import Assessment.Xml.Namespace

/-!
# Reading a document

From text or bytes to the root element. What is read holds no comments and no instructions, and text
that only they separate is one run. An element that is handed over by itself is taken as it is.
-/

namespace Assessment.Xml

/-- The root element of the text of a document after its declaration. -/
def readText (standalone : Bool) (s : List Char) : Except Fault Element := do
  if !s.all isLegal then throw .invalidToken
  let (tokens, rest) ← Dtd.Token.list s
  let dtd ← Dtd.ofTokens standalone tokens
  match ← resolve dtd Scope.initial (← Written.root dtd rest) with
  | .element tag attributes children => return ⟨tag, attributes, children⟩
  | _ => throw .noElement

/-- The root element of a document. -/
def readDocument (source : Source) : Except Fault Element := do
  let (declaration, s) ← source.read
  readText ((declaration.map (·.standalone)).getD false) s

/-- What an item is taken from. -/
inductive Input where
  /-- A document. -/
  | document (source : Source)
  /-- The root element, which was read or built before. -/
  | element (root : Element)

/-- The root element of what an item is taken from. -/
def Input.root : Input → Except Fault Element
  | document source => readDocument source
  | element root => .ok root

end Assessment.Xml
