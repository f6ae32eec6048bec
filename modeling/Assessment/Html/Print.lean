import Assessment.Html.Node

/-!
# Printing HTML

Nodes as text. Attributes are written in the order of their names, in double quotes unless the value
holds one: then in single quotes, and if it holds both, the double ones are written as references.
-/

namespace Assessment.Html

open Assessment.Text

/-- A character of text as it is written. -/
def escapeTextChar (c : Char) : List Char :=
  if c = '&' then "&amp;".toList
  else if c = '<' then "&lt;".toList
  else if c = '>' then "&gt;".toList
  else [c]

/-- Text as it is written. Quotes stay. -/
def escapeText (s : List Char) : List Char := s.flatMap escapeTextChar

/-- A value between quotes, of which what is no quote is escaped already. -/
def quotedValue (s : List Char) : List Char :=
  if s.contains '\x22' then
    if s.contains '\x27' then '\x22' :: replaceChar '\x22' "&quot;".toList s ++ ['\x22']
    else '\x27' :: s ++ ['\x27']
  else '\x22' :: s ++ ['\x22']

/-- An attribute as it is written. -/
def writeAttribute (name value : List Char) : List Char :=
  ' ' :: name ++ '=' :: quotedValue (escapeText value)

/-- The attributes in the order of their names, by the numbers of their characters. -/
def sortAttributes (attributes : Attributes) : Attributes :=
  attributes.mergeSort fun a b => !b.1.lex a.1 fun c d => c.toNat < d.toNat

/-- Attributes as they are written. -/
def writeAttributes (attributes : Attributes) : List Char :=
  (sortAttributes attributes).flatMap fun (name, value) => writeAttribute name value

/-- Something that is neither text nor an element as it is written. -/
def writeSpecial (kind : Special) (s : List Char) : List Char :=
  match kind with
  | .comment => "<!--".toList ++ s ++ "-->".toList
  | .data => "<![CDATA[".toList ++ s ++ "]]>".toList
  | .declaration => "<?".toList ++ s ++ "?>".toList
  | .instruction => "<?".toList ++ s ++ ">".toList
  | .doctype => "<!DOCTYPE ".toList ++ s ++ ">\n".toList

mutual

/-- A node as it is written. `raw` says that it stands in an element whose text is no markup. -/
def write (raw : Bool) : Node → List Char
  | .text s => if raw then s else escapeText s
  | .special kind s => writeSpecial kind s
  | .element name attributes children =>
    if isVoid name && children.isEmpty then
      '<' :: name ++ writeAttributes attributes ++ "/>".toList
    else
      '<' :: name ++ writeAttributes attributes ++ ['>'] ++ writeAll (isRaw name) children ++
        "</".toList ++ name ++ ['>']

/-- Nodes as they are written, one after the other. -/
def writeAll (raw : Bool) : List Node → List Char
  | [] => []
  | node :: nodes => write raw node ++ writeAll raw nodes

end

/-- A fragment as it is written. If it has a body, that is what the body holds. -/
def serialize (nodes : List Node) : List Char :=
  match Node.firstNamedOf? "body".toList nodes with
  | some children => writeAll false children
  | none => writeAll false nodes

end Assessment.Html
