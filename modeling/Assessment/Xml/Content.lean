import Assessment.Xml.Dtd
import Assessment.Xml.Tree

/-!
# Content as written

From tokens to a tree whose names are still as they are written: start tags and end tags are matched,
and the entities of the content are replaced by the trees of their texts. The text of an entity has
to be balanced by itself.
-/

namespace Assessment.Xml

/-- A tree with names and attribute values as written. -/
inductive Written where
  /-- A piece of text. -/
  | text (s : List Char)
  /-- An element. -/
  | element (name : List Char) (attributes : List RawAttribute) (children : List Written)

/-- An element that is still open: its start tag, and its siblings so far, the last one first. -/
structure OpenElement where
  /-- The name in the start tag. -/
  name : List Char
  /-- The attributes in the start tag. -/
  attributes : List RawAttribute
  /-- The siblings before the element, the last one first. -/
  before : List Written

namespace Written

/-- The trees of some tokens. `expand` gives the trees of an entity, `path` the open elements, the
innermost first, and `done` the siblings so far, the last one first. -/
def grow (expand : List Char → Except Fault (List Written)) :
    List Token → List OpenElement → List Written → Except Fault (List Written)
  | [], [], done => .ok done.reverse
  | [], _ :: _, _ => .error .unfinished
  | .text s _ :: tokens, path, done => grow expand tokens path (.text s :: done)
  | .aside :: tokens, path, done => grow expand tokens path done
  | .entity name :: tokens, path, done =>
    match expand name with
    | .ok trees => grow expand tokens path (trees.reverse ++ done)
    | .error fault => .error fault
  | .start name attributes true :: tokens, path, done =>
    grow expand tokens path (.element name attributes [] :: done)
  | .start name attributes false :: tokens, path, done =>
    grow expand tokens (⟨name, attributes, done⟩ :: path) []
  | .stop _ :: _, [], _ => .error .mismatchedTag
  | .stop name :: tokens, opened :: path, done =>
    if name = opened.name then
      grow expand tokens path (.element name opened.attributes done.reverse :: opened.before)
    else .error .mismatchedTag

/-- The trees that an entity stands for, with at most `depth` levels of entities inside. -/
def ofEntity (dtd : Dtd) : Nat → List Char → Except Fault (List Written)
  | 0, _ => .error .recursiveEntity
  | depth + 1, name =>
    match dtd.entity? name with
    | some (.text s) =>
      match Token.list s with
      | .ok tokens => grow (ofEntity dtd depth) tokens [] []
      | .error fault => .error fault
    | some .outside => .error .unreadableEntity
    | none => .error .undefinedEntity

/-- Nothing but comments, instructions and white space follows the root element. `depth` is the
number of open elements. -/
def endsWithRoot : List Token → Nat → Bool
  | [], depth => depth == 0
  | .start _ _ false :: tokens, depth => endsWithRoot tokens (depth + 1)
  | .start _ _ true :: tokens, 0 => tokens.all isEpilog
  | .start _ _ true :: tokens, depth + 1 => endsWithRoot tokens (depth + 1)
  | .stop _ :: tokens, 1 => tokens.all isEpilog
  | .stop _ :: tokens, depth => endsWithRoot tokens (depth - 1)
  | _ :: tokens, depth => endsWithRoot tokens depth
where
  /-- The token can stand after the root element. -/
  isEpilog : Token → Bool
    | .aside => true
    | .text _ plain => plain
    | _ => false

/-- The root element of a document, read from where it starts. A chain of entities longer than their
number has a cycle. -/
def root (dtd : Dtd) (s : List Char) : Except Fault Written := do
  let tokens ← Token.list s
  if endsWithRoot tokens 0 then
    match ← grow (ofEntity dtd (dtd.entities.length + 1)) tokens [] [] with
    | tree :: _ => return tree
    | [] => throw .noElement
  else throw .junkAfterRoot

end Written

end Assessment.Xml
