import Assessment.Xml.Token

/-!
# The declaration at the start of a document

A document may start by saying its version, its encoding and whether it stands alone. These are
written like attributes, in this order, but with values of letters, digits, full stops, hyphens and
low lines only.
-/

namespace Assessment.Xml

open Assessment.Text

/-- What a document says about itself. -/
structure Declaration where
  /-- The name of its encoding, if it says one. -/
  encoding : Option (List Char) := none
  /-- It says that declarations outside it change nothing. -/
  standalone : Bool := false
  deriving DecidableEq, Repr

namespace Declaration

/-- A character of a value. -/
def isValueChar (c : Char) : Bool := c.isAlphanum || c == '.' || c == '-' || c == '_'

/-- The value at the start of a text, in quotes, and the rest of the text. -/
def value? : List Char → Option (List Char × List Char)
  | quote :: s =>
    if quote = '\x22' || quote = '\x27' then
      let value := s.takeWhile isValueChar
      match s.dropWhile isValueChar with
      | c :: rest => if c = quote then some (value, rest) else none
      | [] => none
    else none
  | [] => none

/-- The item at the start of a text, its name and its value, if there is one, and the rest of the
text. An item stands after white space. -/
def item? (s : List Char) : Option (Option (List Char × List Char) × List Char) :=
  match skipSpace s with
  | [] => some (none, [])
  | next =>
    if next.length = s.length then none
    else
      let name := next.takeWhile fun c => !isSpace c && c != '=' && c.toNat < 128
      if name.isEmpty then none
      else
        match skipSpace (next.drop name.length) with
        | '=' :: rest =>
          (value? (skipSpace rest)).map fun (value, rest) => (some (name, value), rest)
        | _ => none

/-- The item that says whether the document stands alone, and nothing after it. -/
def standalone? (item : List Char × List Char) (rest : List Char) : Option Bool :=
  if item.1 = "standalone".toList && (skipSpace rest).isEmpty then
    if item.2 = "yes".toList then some true
    else if item.2 = "no".toList then some false
    else none
  else none

/-- The declaration written between `<?xml` and `?>`. -/
def ofText? (s : List Char) : Option Declaration := do
  let (version, s) ← item? s
  guard ((← version).1 = "version".toList)
  let (second, s) ← item? s
  match second with
  | none => return {}
  | some (name, value) =>
    if name = "encoding".toList then
      guard ((value.head?.map Char.isAlpha).getD false)
      let (third, s) ← item? s
      match third with
      | none => return { encoding := some value }
      | some item => return { encoding := some value, standalone := ← standalone? item s }
    else return { standalone := ← standalone? (name, value) s }

/-- The declaration that a document starts with, if it has one, and the rest of the document. -/
def read (s : List Char) : Except Fault (Option Declaration × List Char) :=
  match after? "<?xml".toList s with
  | some (c :: rest) =>
    if isNameChar c then .ok (none, s)
    else if isSpace c then
      match cutAt? "?>".toList (c :: rest) with
      | some (text, rest) =>
        match ofText? text with
        | some declaration => .ok (some declaration, rest)
        | none => .error .badDeclaration
      | none => .error .unfinished
    else .error .badDeclaration
  | _ => .ok (none, s)

end Declaration

end Assessment.Xml
