import Assessment.Xml.Dtd.Token

/-!
# Declarations

What the declarations of a document say: which entities there are, which attributes elements have
without being given them, and which attributes are lists of words.

The first declaration of an entity counts, and so does the first of an attribute of an element.
Declarations outside the document are not read. After a reference to a parameter entity the rest of
the declarations could mean something else, and so they are ignored, unless the document says that it
stands alone.
-/

namespace Assessment.Xml

open Assessment.Text

/-- What an entity stands for. -/
inductive Entity where
  /-- A text, which may hold markup. -/
  | text (s : List Char)
  /-- Something that is not in the document. -/
  | outside
  deriving DecidableEq, Repr

/-- What is declared of an attribute. -/
structure AttributeRule where
  /-- The name of the attribute. -/
  name : List Char
  /-- The value is a list of words: white space separates them and does not count otherwise. -/
  words : Bool
  /-- The value of the attribute where it is not written. -/
  fallback : Option (List Char)
  deriving DecidableEq, Repr

/-- The declarations of a document. -/
structure Dtd where
  /-- The entities, by name. -/
  entities : List (List Char × Entity) := []
  /-- The rules for the attributes of elements, by the name of the element. -/
  rules : List (List Char × AttributeRule) := []
  /-- Some declarations of the document are not in it. -/
  incomplete : Bool := false
  /-- The document says that declarations outside it change nothing. -/
  standalone : Bool := false

namespace Dtd

/-- What an entity is declared to be. -/
def entity? (dtd : Dtd) (name : List Char) : Option Entity :=
  (dtd.entities.find? fun declared => declared.1 == name).map (·.2)

/-- The rules for the attributes of an element. -/
def rulesOf (dtd : Dtd) (element : List Char) : List AttributeRule :=
  (dtd.rules.filter fun declared => declared.1 == element).map (·.2)

/-- The rule for one attribute of an element. -/
def rule? (dtd : Dtd) (element name : List Char) : Option AttributeRule :=
  (dtd.rulesOf element).find? fun rule => rule.name == name

/-- References to entities that are not declared say nothing in an attribute: the declaration may be
one that was not read. -/
def isLenient (dtd : Dtd) : Bool := dtd.incomplete && !dtd.standalone

/-! ## Values -/

/-- A piece of an attribute value: a character, or a reference to an entity. -/
inductive ValuePiece where
  /-- A character. White space of the text has become a space. -/
  | char (c : Char)
  /-- A reference to a declared entity. -/
  | entity (name : List Char)

/-- The pieces of a value, found in at most `fuel` steps. -/
def valuePieces : Nat → List Char → Except Fault (List ValuePiece)
  | _, [] => .ok []
  | 0, _ :: _ => .error .unfinished
  | fuel + 1, c :: s =>
    if c = '<' then .error .invalidToken
    else if c = '&' then
      match readReference s with
      | .ok (.char d, rest) => do return .char d :: (← valuePieces fuel rest)
      | .ok (.entity name, rest) => do return .entity name :: (← valuePieces fuel rest)
      | .error fault => .error fault
    else if c = '\r' && s.head? = some '\n' then do
      return .char ' ' :: (← valuePieces fuel (s.drop 1))
    else do
      return .char (if isSpace c then ' ' else c) :: (← valuePieces fuel s)

/-- The text of a value: entities are replaced, in at most `depth` levels of nesting. -/
def expandValue (dtd : Dtd) : Nat → List Char → Except Fault (List Char)
  | 0, _ => .error .recursiveEntity
  | depth + 1, s => do
    let pieces ← valuePieces s.length s
    let parts ← pieces.mapM fun
      | .char c => .ok [c]
      | .entity name =>
        match dtd.entity? name with
        | some (.text t) => expandValue dtd depth t
        | some .outside => .error .unreadableEntity
        | none => if dtd.isLenient then .ok [] else .error .undefinedEntity
    return parts.flatten

/-- Spaces at the start and at the end removed, and every run of spaces made one. -/
def collapseSpaces (s : List Char) : List Char :=
  joinWith [' '] ((splitOn ' ' s).filter fun word => !word.isEmpty)

/-- The value of an attribute, written between quotes as `s`. A chain of entities longer than their
number has a cycle. -/
def value (dtd : Dtd) (words : Bool) (s : List Char) : Except Fault (List Char) := do
  let text ← dtd.expandValue (dtd.entities.length + 1) s
  return if words then collapseSpaces text else text

/-- The text of an entity, written between quotes. References to characters are replaced and
references to entities stay. Parameter entities cannot stand here. -/
def entityText : Nat → List Char → Except Fault (List Char)
  | _, [] => .ok []
  | 0, _ :: _ => .error .unfinished
  | fuel + 1, c :: s =>
    if c = '%' then .error .badDeclaration
    else if c = '&' then
      match s with
      | '#' :: _ =>
        match readReference s with
        | .ok (.char d, rest) => do return d :: (← entityText fuel rest)
        | .ok (.entity _, _) => .error .invalidToken
        | .error fault => .error fault
      | _ =>
        match plainName? s with
        | some (name, ';' :: rest) => do return ('&' :: name ++ [';']) ++ (← entityText fuel rest)
        | _ => .error .invalidToken
    else if c = '\r' then do
      return '\n' :: (← entityText fuel (if s.head? = some '\n' then s.drop 1 else s))
    else do
      return c :: (← entityText fuel s)

/-! ## The grammar of declarations -/

/-- A declaration. -/
inductive Declaration where
  /-- A text under a name. -/
  | entity (name literal : List Char)
  /-- A parameter entity, with its text if that is in the document. -/
  | parameterEntity (literal : Option (List Char))
  /-- A name for something outside the document. -/
  | outside (name : List Char)
  /-- An attribute of an element: whether it is a list of words, and its literal value if it has one
  without being written. -/
  | attributeRule (element name : List Char) (words : Bool) (literal : Option (List Char))
  /-- A reference to a parameter entity. -/
  | parameter

/-- The plain name at the start of some tokens. -/
def takeName : List Token → Except Fault (List Char × List Token)
  | .name s .plain .once :: tokens => .ok (s, tokens)
  | _ => .error .badDeclaration

/-- The name, with a prefix or without, at the start of some tokens. -/
def takeElementName : List Token → Except Fault (List Char × List Token)
  | .name s .plain .once :: tokens => .ok (s, tokens)
  | .name s .qualified .once :: tokens => .ok (s, tokens)
  | _ => .error .badDeclaration

/-- The end of a declaration. -/
def takeClose : List Token → Except Fault (List Token)
  | .close :: tokens => .ok tokens
  | _ => .error .badDeclaration

/-- A character that a public identifier can hold. -/
def isPublicChar (c : Char) : Bool :=
  c.isAlphanum || "-'()+,./:=?;!*#@$_% \r\n".toList.contains c

/-- The identifiers of something outside the document. A system identifier can be left out only where
`systemOptional` says so. -/
def takeExternal (systemOptional : Bool) : List Token → Except Fault (List Token)
  | .name keyword .plain .once :: .literal id :: tokens =>
    if keyword = "SYSTEM".toList then .ok tokens
    else if keyword = "PUBLIC".toList && id.all isPublicChar then
      match tokens with
      | .literal _ :: tokens => .ok tokens
      | _ => if systemOptional then .ok tokens else .error .badDeclaration
    else .error .badDeclaration
  | _ => .error .badDeclaration

/-- The declaration of an entity after its keyword. -/
def takeEntity : List Token → Except Fault (Declaration × List Token)
  | .percent :: .name _ .plain .once :: .literal s :: tokens => do
    return (.parameterEntity (some s), ← takeClose tokens)
  | .percent :: .name _ .plain .once :: tokens => do
    return (.parameterEntity none, ← takeClose (← takeExternal false tokens))
  | .name name .plain .once :: .literal s :: tokens => do
    return (.entity name s, ← takeClose tokens)
  | .name name .plain .once :: tokens => do
    match ← takeExternal false tokens with
    | .name keyword .plain .once :: .name _ .plain .once :: rest =>
      if keyword = "NDATA".toList then return (.outside name, ← takeClose rest)
      else .error .badDeclaration
    | rest => return (.outside name, ← takeClose rest)
  | _ => .error .badDeclaration

/-- The declaration of a notation after its keyword. -/
def takeNotation (tokens : List Token) : Except Fault (List Token) := do
  let (_, tokens) ← takeName tokens
  takeClose (← takeExternal true tokens)

/-- The rest of a list of alternatives after its opening parenthesis. In a list of notations the
alternatives are plain names. -/
def takeAlternatives (notations : Bool) : List Token → Except Fault (List Token)
  | .name _ kind .once :: .bar :: tokens =>
    if notations && kind != .plain then .error .badDeclaration else takeAlternatives notations tokens
  | .name _ kind .once :: .closeParen .once :: tokens =>
    if notations && kind != .plain then .error .badDeclaration else .ok tokens
  | _ => .error .badDeclaration

/-- The types of attributes that are lists of words. -/
def wordTypes : List String :=
  ["ID", "IDREF", "IDREFS", "ENTITY", "ENTITIES", "NMTOKEN", "NMTOKENS"]

/-- The type of an attribute: whether its value is a list of words. -/
def takeType : List Token → Except Fault (Bool × List Token)
  | .openParen :: tokens => do return (true, ← takeAlternatives false tokens)
  | .name s .plain .once :: tokens =>
    if s = "CDATA".toList then .ok (false, tokens)
    else if wordTypes.any fun type => type.toList == s then .ok (true, tokens)
    else if s = "NOTATION".toList then
      match tokens with
      | .openParen :: tokens => do return (true, ← takeAlternatives true tokens)
      | _ => .error .badDeclaration
    else .error .badDeclaration
  | _ => .error .badDeclaration

/-- What an attribute is where it is not written. -/
def takeFallback : List Token → Except Fault (Option (List Char) × List Token)
  | .literal s :: tokens => .ok (some s, tokens)
  | .keyword s :: tokens =>
    if s = "IMPLIED".toList || s = "REQUIRED".toList then .ok (none, tokens)
    else if s = "FIXED".toList then
      match tokens with
      | .literal s :: tokens => .ok (some s, tokens)
      | _ => .error .badDeclaration
    else .error .badDeclaration
  | _ => .error .badDeclaration

/-- The attributes that a declaration lists for an element, read in at most `fuel` steps. -/
def takeAttributes (element : List Char) :
    Nat → List Token → Except Fault (List Declaration × List Token)
  | _, .close :: tokens => .ok ([], tokens)
  | 0, _ => .error .badDeclaration
  | fuel + 1, tokens => do
    let (name, tokens) ← takeElementName tokens
    let (words, tokens) ← takeType tokens
    let (literal, tokens) ← takeFallback tokens
    let (declarations, tokens) ← takeAttributes element fuel tokens
    return (.attributeRule element name words literal :: declarations, tokens)

/-- The rest of a mixed content model after its first word. -/
def takeMixed : List Token → Except Fault (List Token)
  | .closeParen .many :: tokens => .ok tokens
  | .bar :: .name _ .plain .once :: tokens => takeMixed tokens
  | .bar :: .name _ .qualified .once :: tokens => takeMixed tokens
  | _ => .error .badDeclaration

/-- The sign between the parts of a group. -/
inductive Connector where
  /-- None was seen yet. -/
  | open
  /-- A comma. -/
  | sequence
  /-- A vertical bar. -/
  | choice
  deriving DecidableEq

/-- The rest of a content model. `groups` are the connectors of the open groups, the innermost first,
and `expectItem` says that a name or a group comes next. -/
def takeModel (groups : List Connector) (expectItem : Bool) :
    List Token → Except Fault (List Token)
  | [] => .error .badDeclaration
  | token :: tokens =>
    match groups with
    | [] => .ok (token :: tokens)
    | connector :: outer =>
      match expectItem, token with
      | true, .openParen => takeModel (.open :: groups) true tokens
      | true, .name _ kind _ =>
        if kind = .token then .error .badDeclaration else takeModel groups false tokens
      | false, .closeParen _ => takeModel outer false tokens
      | false, .comma =>
        if connector = .choice then .error .badDeclaration
        else takeModel (.sequence :: outer) true tokens
      | false, .bar =>
        if connector = .sequence then .error .badDeclaration
        else takeModel (.choice :: outer) true tokens
      | _, _ => .error .badDeclaration

/-- The declaration of an element after its keyword. -/
def takeElement (tokens : List Token) : Except Fault (List Token) := do
  let (_, tokens) ← takeElementName tokens
  match tokens with
  | .name s .plain .once :: tokens =>
    if s = "EMPTY".toList || s = "ANY".toList then takeClose tokens else .error .badDeclaration
  | .openParen :: .keyword s :: tokens =>
    if s = "PCDATA".toList then
      match tokens with
      | .closeParen .once :: tokens => takeClose tokens
      | tokens => takeClose (← takeMixed tokens)
    else .error .badDeclaration
  | .openParen :: tokens => takeClose (← takeModel [.open] true tokens)
  | _ => .error .badDeclaration

/-- The declarations up to the closing bracket, read in at most `fuel` steps. -/
def takeSubset : Nat → List Token → Except Fault (List Declaration × List Token)
  | _, .closeBracket :: tokens => .ok ([], tokens)
  | 0, _ => .error .unfinished
  | fuel + 1, .aside :: tokens => takeSubset fuel tokens
  | fuel + 1, .parameter :: tokens => do
    let (declarations, tokens) ← takeSubset fuel tokens
    return (.parameter :: declarations, tokens)
  | fuel + 1, .opening keyword :: tokens =>
    if keyword = "ENTITY".toList then do
      let (declaration, tokens) ← takeEntity tokens
      let (declarations, tokens) ← takeSubset fuel tokens
      return (declaration :: declarations, tokens)
    else if keyword = "ATTLIST".toList then do
      let (element, tokens) ← takeElementName tokens
      let (rules, tokens) ← takeAttributes element tokens.length tokens
      let (declarations, tokens) ← takeSubset fuel tokens
      return (rules ++ declarations, tokens)
    else if keyword = "ELEMENT".toList then do
      takeSubset fuel (← takeElement tokens)
    else if keyword = "NOTATION".toList then do
      takeSubset fuel (← takeNotation tokens)
    else .error .badDeclaration
  | _ + 1, _ => .error .badDeclaration

/-- The part in brackets, if there is one, and the end of the document type declaration. -/
def takeBrackets : List Token → Except Fault (List Declaration × List Token)
  | .openBracket :: tokens => do
    let (declarations, tokens) ← takeSubset tokens.length tokens
    return (declarations, ← takeClose tokens)
  | tokens => do return ([], ← takeClose tokens)

/-- The document type declaration after its keyword: its declarations, and whether there are more
outside the document. -/
def takeDoctype (tokens : List Token) :
    Except Fault ((List Declaration × Bool) × List Token) := do
  let (_, tokens) ← takeElementName tokens
  match tokens with
  | .name s .plain .once :: rest => do
    let tokens ← takeExternal false (.name s .plain .once :: rest)
    let (declarations, tokens) ← takeBrackets tokens
    return ((declarations, true), tokens)
  | tokens => do
    let (declarations, tokens) ← takeBrackets tokens
    return ((declarations, false), tokens)

/-! ## What declarations say -/

/-- Adds what a declaration says. `heeded` tells whether declarations still count. -/
def declare (state : Dtd × Bool) (declaration : Declaration) : Except Fault (Dtd × Bool) := do
  let (dtd, heeded) := state
  match declaration with
  | .parameter => return ({ dtd with incomplete := true }, dtd.standalone)
  | .outside name =>
    if heeded && (dtd.entity? name).isNone && (predefined? name).isNone then
      return ({ dtd with entities := dtd.entities ++ [(name, .outside)] }, heeded)
    else return state
  | .parameterEntity literal =>
    if heeded then
      let _ ← entityText (literal.getD []).length (literal.getD [])
    return state
  | .entity name literal =>
    if heeded then
      let text ← entityText literal.length literal
      if (dtd.entity? name).isNone && (predefined? name).isNone then
        return ({ dtd with entities := dtd.entities ++ [(name, .text text)] }, heeded)
    return state
  | .attributeRule element name words literal =>
    if heeded then
      let fallback ← match literal with
        | some s => do pure (some (← dtd.value words s))
        | none => pure none
      if (dtd.rule? element name).isNone then
        let rule : AttributeRule := ⟨name, words, fallback⟩
        return ({ dtd with rules := dtd.rules ++ [(element, rule)] }, heeded)
    return state

/-- The declarations of the tokens before the root element. -/
def ofTokens (standalone : Bool) (tokens : List Token) : Except Fault Dtd := do
  let start : Dtd := { standalone := standalone }
  match tokens.dropWhile (· == .aside) with
  | [] => return start
  | .opening keyword :: tokens =>
    if keyword = "DOCTYPE".toList then
      let ((declarations, more), tokens) ← takeDoctype tokens
      if tokens.all (· == .aside) then
        let (dtd, _) ← declarations.foldlM declare (start, true)
        return { dtd with incomplete := dtd.incomplete || more }
      else .error .badDeclaration
    else .error .badDeclaration
  | _ => .error .badDeclaration

end Dtd

end Assessment.Xml
