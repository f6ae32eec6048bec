import Assessment.Html.Tokenize

/-!
# From tokens to trees

Tokens are put together with the elements that are open, the innermost first. An end tag closes the
nearest open element of its name with all that is open inside it, and does nothing if there is none.
What is open at the end is closed there.

White space between tags is shortened: text that is nothing but white space becomes one line break if
it holds one, and else one space. It stays as it is where white space counts.
-/

namespace Assessment.Html

open Assessment.Text

/-- White space of the ASCII range. -/
def isAsciiSpace (c : Char) : Bool :=
  c == ' ' || c == '\n' || c == '\t' || c == '\x0c' || c == '\r'

/-- The text, shortened if it is nothing but white space. -/
def shorten (s : List Char) : List Char :=
  if s.all isAsciiSpace then if s.contains '\n' then ['\n'] else [' '] else s

/-- The encoding in which every document is written. -/
def encodingName : List Char := "utf-8".toList

/-- The text with the encodings that it declares changed to the one of all documents. `start` says that
a declaration may start here. -/
def declareEncoding (start : Bool) (s : List Char) : List Char :=
  match s with
  | [] => []
  | c :: t =>
    match _h : (if start then after? "charset=".toList (c :: t) else none) with
    | some rest =>
      "charset=".toList ++ encodingName ++ declareEncoding false (rest.dropWhile (· != ';'))
    | none => c :: declareEncoding (isBlank c || c == ';') t
termination_by s.length
decreasing_by
  · have h1 : after? "charset=".toList (c :: t) = some rest := by
      by_cases hs : start = true
      · simpa [hs] using _h
      · simp [hs] at _h
    have h2 := length_of_after? h1
    have h3 := StartTag.length_dropWhile_le (· != ';') rest
    have h4 : ("charset=".toList).length = 8 := rfl
    omega
  · simp

/-- The attributes of an element that says something of the document, with the encoding of all
documents. -/
def metaAttributes (attributes : Attributes) : Attributes :=
  match attributes.get? "charset".toList with
  | some _ => attributes.put "charset".toList encodingName
  | none =>
    match attributes.get? "content".toList, attributes.get? "http-equiv".toList with
    | some content, some kind =>
      if lower kind = "content-type".toList then
        attributes.put "content".toList (declareEncoding true content)
      else attributes
    | _, _ => attributes

/-- The attributes that an element has by its start tag. -/
def elementAttributes (name : List Char) (attributes : Attributes) : Attributes :=
  spaceWords name (if name = "meta".toList then metaAttributes attributes else attributes)

/-- An open element. -/
structure Frame where
  /-- The name. -/
  name : List Char
  /-- The attributes. -/
  attributes : Attributes
  /-- What it holds so far, the last first. -/
  children : List Node

/-- A tree that is being built. -/
structure Builder where
  /-- The text since the last tag. -/
  pending : List Char := []
  /-- The open elements, the innermost first. -/
  frames : List Frame := []
  /-- What lies outside of all elements so far, the last first. -/
  top : List Node := []

namespace Builder

/-- Adds a node to the innermost open element. -/
def add (node : Node) (b : Builder) : Builder :=
  match b.frames with
  | [] => { b with top := node :: b.top }
  | frame :: frames => { b with frames := { frame with children := node :: frame.children } :: frames }

/-- White space counts here. -/
def keepsSpace (b : Builder) : Bool := b.frames.any fun frame => spacedNames.contains frame.name

/-- Text as it is kept here. -/
def kept (s : List Char) (b : Builder) : List Char := if b.keepsSpace then s else shorten s

/-- Adds the text since the last tag as a node. -/
def flush (b : Builder) : Builder :=
  if b.pending.isEmpty then b else { b.add (.text (b.kept b.pending)) with pending := [] }

/-- Closes the innermost open element. -/
def close (b : Builder) : Builder :=
  match b.frames with
  | [] => b
  | frame :: frames =>
    { b with frames := frames }.add (.element frame.name frame.attributes frame.children.reverse)

/-- Closes as many elements. -/
def closeMany : Nat → Builder → Builder
  | 0, b => b
  | n + 1, b => closeMany n b.close

/-- Closes the nearest open element of a name, and what is open inside it. -/
def closeNamed (name : List Char) (b : Builder) : Builder :=
  match b.frames.findIdx? fun frame => frame.name == name with
  | some depth => closeMany (depth + 1) b
  | none => b

/-- Opens an element. -/
def openElement (name : List Char) (attributes : Attributes) (b : Builder) : Builder :=
  { b with frames := ⟨name, elementAttributes name attributes, []⟩ :: b.frames }

/-- Takes in a token. -/
def take (b : Builder) : Token → Builder
  | .text s => { b with pending := b.pending ++ s }
  | .special kind s =>
    let flushed := b.flush
    flushed.add (.special kind (flushed.kept s))
  | .startTag name attributes closed =>
    let opened := b.flush.openElement name attributes
    if closed || isVoid name then opened.close else opened
  | .endTag name => b.flush.closeNamed name

/-- The nodes, with all that is open closed. -/
def finish (b : Builder) : List Node :=
  let flushed := b.flush
  (closeMany flushed.frames.length flushed).top.reverse

end Builder

/-- The nodes that tokens make. -/
def ofTokens (tokens : List Token) : List Node :=
  (tokens.foldl Builder.take ({} : Builder)).finish

/-- The nodes of a text of HTML, if it can be read at all. -/
def parse (s : List Char) : Option (List Node) := (tokenize s).map ofTokens

end Assessment.Html
