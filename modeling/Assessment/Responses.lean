import Assessment.Html.Document
import Assessment.Log
import Assessment.Number.Decimal
import Assessment.Text.Cut

/-!
# Responses

Filling the blanks of a prompt with what a candidate answered. Responses go to blanks by their place in
the document, and not by the numbers of the blanks. Blanks without a response and responses without a
blank are left alone.
-/

namespace Assessment.Responses

open Assessment.Html Assessment.Options Assessment.Text

/-- What a candidate answered. `α` are the single responses. -/
inductive Response (α : Type) where
  /-- Nothing. -/
  | none
  /-- A single text. -/
  | one (s : List Char)
  /-- Several responses. -/
  | many (responses : List α)
  /-- Texts that are the names of something. -/
  | names (names : List (List Char))
  /-- Something that is no response. -/
  | other

/-- The single responses in order. `ofText` makes one of a text. -/
def Response.toList {α : Type} (ofText : List Char → α) : Response α → Except Failure (List α)
  | none => .ok []
  | one s => .ok [ofText s]
  | many responses => .ok responses
  | names ns => .ok (ns.map ofText)
  | other => .error .notResponse

/-- A single response. -/
inductive Entry where
  /-- The blank stays as it is. -/
  | skip
  /-- A text. -/
  | text (s : List Char)
  /-- Several words. -/
  | words (ws : List (List Char))
  /-- Something that no blank takes. -/
  | other
  deriving DecidableEq, Repr

/-- The least width of a blank. -/
def minSize : Nat := 6

/-- The width of a blank that holds `n` characters. -/
def blankSize (n : Nat) : Nat := max minSize n

/-- The class of blanks. -/
def blankClass : List Char := "qti-blank-input".toList

/-- The element is a blank. -/
def isBlankInput (name : List Char) (attributes : Attributes) : Bool :=
  name == "input".toList &&
    (words ((attributes.get? "class".toList).getD [])).contains blankClass

/-- The attributes of a blank with a value and a width. -/
def filled (value : List Char) (size : Nat) (attributes : Attributes) : Attributes :=
  (attributes.put "value".toList value).put "size".toList (Number.decimal (blankSize size))

/-- What is known while blanks are filled. -/
structure Filling where
  /-- The responses that are left. -/
  entries : List Entry
  /-- The number of blanks that were filled. -/
  count : Nat := 0
  /-- A blank was to take something that it cannot take. -/
  failed : Bool := false

/-- An element with the next response, if it is a blank. -/
def fillElement (filling : Filling) (name : List Char) (attributes : Attributes) :
    Attributes × Filling :=
  if isBlankInput name attributes then
    match filling.entries with
    | [] => (attributes, filling)
    | .skip :: rest => (attributes, { filling with entries := rest })
    | .text s :: rest =>
      (filled s s.length attributes, { filling with entries := rest, count := filling.count + 1 })
    | .words ws :: rest =>
      (filled (joinWith [' '] ws) ws.length attributes,
        { filling with entries := rest, count := filling.count + 1 })
    | .other :: rest => (attributes, { filling with entries := rest, failed := true })
  else (attributes, filling)

/-- The blanks among some nodes and below them, in document order. -/
def blanks (nodes : List Node) : List Attributes :=
  (Node.elementsOf nodes).filterMap fun (name, attributes) =>
    if isBlankInput name attributes then some attributes else none

/-- The nodes with their blanks filled, and what is known afterwards. -/
def fill (entries : List Entry) (nodes : List Node) : List Node × Filling :=
  Node.updateAll fillElement ⟨entries, 0, false⟩ nodes

/-- Options of reading HTML by their names. -/
def builderOfFields (fields : Fields Empty) : Except (List Problem) (List Char) :=
  let builder := fields.text "features" defaultBuilder
  finish builder.value (builder.problems ++ fields.unknown ["features"])

/-- What is said when blanks have been filled. -/
def logEntry (filled blanks responses : Nat) : Log.Entry :=
  ⟨.debug, .responses, "Filled ".toList ++ Number.decimal filled ++ " of ".toList ++ Number.decimal blanks ++
    " blank(s) from ".toList ++ Number.decimal responses ++ " response(s)".toList⟩

/-- The HTML with its blanks filled. Where nothing is to be done, the HTML is returned as it is and
the options are not looked at. -/
def apply (builder : Except (List Problem) (List Char)) (response : Response Entry)
    (html : List Char) : Except Failure (List Char × List Log.Entry) :=
  if !occursIn blankClass html then .ok (html, [])
  else do
    let entries ← response.toList Entry.text
    if entries.isEmpty then return (html, [])
    let nodes ← Html.read (← builder.mapError .invalid) html
    let blankCount := (blanks nodes).length
    if blankCount = 0 then return (html, [])
    let (filledNodes, filling) := fill entries nodes
    if filling.failed then throw .notResponse
    return (serialize filledNodes, [logEntry filling.count blankCount entries.length])

end Assessment.Responses
