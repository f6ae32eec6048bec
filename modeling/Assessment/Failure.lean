import Assessment.Options.Field
import Assessment.Xml.Fault

/-!
# Failures

The reasons for which an item is not rendered or a fragment is not changed, and what is said of each.
-/

namespace Assessment

/-- A reason why something was not done. -/
inductive Failure where
  /-- The document of the item cannot be read. -/
  | document (fault : Xml.Fault)
  /-- The document of the item that was expected is not well formed. -/
  | unreadable (expected : List Char)
  /-- The item has no body. -/
  | bodyMissing
  /-- The item with the given identifier has no body. -/
  | bodyMissingIn (identifier : List Char)
  /-- The item that was expected has no identifier. -/
  | identifierMissing (expected : List Char)
  /-- The item has another identifier than expected. -/
  | identifierMismatch (expected found : List Char)
  /-- Options or results of functions are not as they have to be. -/
  | invalid (problems : List Options.Problem)
  /-- No way to read HTML has the given name. -/
  | unknownBuilder (name : List Char)
  /-- A declaration in HTML cannot be read at all. -/
  | rejectedMarkup
  /-- A response is of a kind that no blank takes. -/
  | notResponse
  /-- No highlighting style has the given name. -/
  | unknownStyle (name : List Char)
  /-- No level of messages has the given name. -/
  | unknownLevel (name : List Char)
  /-- A file is not text. -/
  | undecodable (file : List Char)
  /-- No file can have the given path. -/
  | impossiblePath (path : List Char)
  deriving DecidableEq, Repr

namespace Failure

/-- What is said of a failure. -/
def message : Failure → List Char
  | document fault => "QTI item XML parse failed: ".toList ++ fault.reason.toList
  | unreadable expected =>
    "Invalid assessment item: XML parse failed for ".toList ++ expected
  | bodyMissing => "qti-item-body not found".toList
  | bodyMissingIn identifier =>
    "Invalid assessment item: qti-item-body not found for ".toList ++ identifier
  | identifierMissing expected =>
    "Invalid assessment item: identifier missing in ".toList ++ expected
  | identifierMismatch expected found =>
    "Assessment item identifier mismatch: expected ".toList ++ expected ++ " but found ".toList ++ found
  | invalid _ => "invalid values".toList
  | unknownBuilder name => "no such tree builder: ".toList ++ name
  | rejectedMarkup => "the markup was rejected".toList
  | notResponse => "not a response".toList
  | unknownStyle name => "no such style: ".toList ++ name
  | unknownLevel name => "Unknown log level: ".toList ++ name
  | undecodable file => "not text: ".toList ++ file
  | impossiblePath path => "not a path: ".toList ++ path

/-- The failure lies in the item, not in what was asked for. -/
def isOfItem : Failure → Bool
  | document fault => fault.isMalformed
  | unreadable _ | bodyMissing | bodyMissingIn _ | identifierMissing _ | identifierMismatch _ _ => true
  | _ => false

end Failure

end Assessment
