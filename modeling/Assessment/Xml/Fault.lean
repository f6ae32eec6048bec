/-!
# What can be wrong with a document

The reasons for which a document is refused. All but two say that the document is not well formed.
The other two concern the name of its encoding.
-/

namespace Assessment.Xml

/-- A reason to refuse a document. -/
inductive Fault where
  /-- There is no root element. -/
  | noElement
  /-- A character stands where it cannot stand. -/
  | invalidToken
  /-- The document ends inside a piece of markup or inside an element. -/
  | unfinished
  /-- An end tag has another name than the element that is open. -/
  | mismatchedTag
  /-- An attribute is written twice. -/
  | duplicateAttribute
  /-- Something follows the root element. -/
  | junkAfterRoot
  /-- A reference to an entity that is not declared. -/
  | undefinedEntity
  /-- An entity refers to itself. -/
  | recursiveEntity
  /-- A reference to an entity that is not in the document. -/
  | unreadableEntity
  /-- A reference to the number of no character. -/
  | badCharacterNumber
  /-- A prefix that is bound to no namespace. -/
  | unboundPrefix
  /-- A declaration of a namespace that is reserved, empty or not to be written so. -/
  | badNamespace
  /-- A declaration that breaks its grammar. -/
  | badDeclaration
  /-- A declared encoding that the bytes cannot have. -/
  | wrongEncoding
  /-- Bytes that mean nothing in the encoding of the document. -/
  | undecodable
  /-- The name of an encoding that nobody knows. -/
  | unknownEncoding
  /-- The name of an encoding that takes several bytes for a character and is not read here. -/
  | multiByteEncoding
  deriving DecidableEq, Repr

namespace Fault

/-- The document is not well formed. -/
def isMalformed : Fault → Bool
  | unknownEncoding | multiByteEncoding => false
  | _ => true

/-- The reason in words. -/
def reason : Fault → String
  | noElement => "no element found"
  | invalidToken => "not well-formed (invalid token)"
  | unfinished => "unclosed token"
  | mismatchedTag => "mismatched tag"
  | duplicateAttribute => "duplicate attribute"
  | junkAfterRoot => "junk after document element"
  | undefinedEntity => "undefined entity"
  | recursiveEntity => "recursive entity reference"
  | unreadableEntity => "reference to an entity outside the document"
  | badCharacterNumber => "reference to invalid character number"
  | unboundPrefix => "unbound prefix"
  | badNamespace => "reserved or empty namespace"
  | badDeclaration => "syntax error in a declaration"
  | wrongEncoding => "encoding specified in XML declaration is incorrect"
  | undecodable => "bytes not allowed in the encoding"
  | unknownEncoding => "unknown encoding"
  | multiByteEncoding => "multi-byte encodings are not supported"

end Fault

end Assessment.Xml
