import Assessment.Xml.Token

/-!
# The tokens before the root element

What stands before the root element is cut into tokens: the openings of declarations, names,
literals, the signs of content models, comments, instructions and references to parameter entities.
White space only separates. The tokens end where the root element starts.
-/

namespace Assessment.Xml.Dtd

open Assessment.Text

/-- What can follow a name or a closing parenthesis to say how often it may occur. -/
inductive Occurrence where
  /-- Exactly once. -/
  | once
  /-- At most once. -/
  | optional
  /-- Any number of times. -/
  | many
  /-- At least once. -/
  | some
  deriving DecidableEq, Repr

/-- How much of a name something is. -/
inductive NameKind where
  /-- A name without a colon. -/
  | plain
  /-- A name with a prefix. -/
  | qualified
  /-- Characters of names that make no name. -/
  | token
  deriving DecidableEq, Repr

/-- A token before the root element. -/
inductive Token where
  /-- The opening of a declaration with its keyword. -/
  | opening (keyword : List Char)
  /-- A name. -/
  | name (s : List Char) (kind : NameKind) (occurrence : Occurrence)
  /-- A keyword after a number sign. -/
  | keyword (s : List Char)
  /-- What stands between quotes. -/
  | literal (s : List Char)
  /-- A reference to a parameter entity. -/
  | parameter
  /-- A percent sign by itself. -/
  | percent
  /-- An opening bracket. -/
  | openBracket
  /-- A closing bracket. -/
  | closeBracket
  /-- An opening parenthesis. -/
  | openParen
  /-- A closing parenthesis. -/
  | closeParen (occurrence : Occurrence)
  /-- A comma. -/
  | comma
  /-- A vertical bar. -/
  | bar
  /-- The end of a declaration. -/
  | close
  /-- A comment or a processing instruction. -/
  | aside
  deriving DecidableEq, Repr

namespace Token

/-- A character that can follow a name. -/
def endsName (c : Char) : Bool :=
  isSpace c || c == '>' || c == ')' || c == ',' || c == '|' || c == '[' || c == '%'

/-- A character that can follow a literal. -/
def endsLiteral (c : Char) : Bool := isSpace c || c == '>' || c == '%' || c == '['

/-- A character that can follow a keyword after a number sign. -/
def endsKeyword (c : Char) : Bool :=
  isSpace c || c == ')' || c == '>' || c == '%' || c == '|'

/-- A character that can follow a closing parenthesis. -/
def endsGroup (c : Char) : Bool := isSpace c || c == '>' || c == ',' || c == '|' || c == ')'

/-- The text goes on with a character of the given kind. -/
def goesOn (p : Char → Bool) : List Char → Bool
  | c :: _ => p c
  | [] => false

/-- How a name after its first part goes on: with a colon and a second part it is qualified, or it
is no name at all. -/
def nameKind (first : List Char) (rest : List Char) : NameKind :=
  if (plainName? first).isNone then .token
  else
    match rest with
    | [] => .plain
    | _ :: part => if part.isEmpty || part.contains ':' then .token else .qualified

/-- The name at the start of a text. -/
def readName (s : List Char) : Except Fault (Token × List Char) :=
  let isPart := fun c => isNameChar c || c == ':'
  let written := s.takeWhile isPart
  let rest := s.dropWhile isPart
  let kind := nameKind (written.takeWhile (· != ':')) (written.dropWhile (· != ':'))
  match rest with
  | [] => .error .unfinished
  | c :: after =>
    if endsName c then .ok (.name written kind .once, rest)
    else if kind = .token then .error .invalidToken
    else if c = '?' then .ok (.name written kind .optional, after)
    else if c = '*' then .ok (.name written kind .many, after)
    else if c = '+' then .ok (.name written kind .some, after)
    else .error .invalidToken

/-- A letter or low line, of which the keywords of declarations are made. -/
def isKeywordChar (c : Char) : Bool := c.isAlpha || c == '_'

/-- The token after `<!`. -/
def readDeclaration (s : List Char) : Except Fault (Token × List Char) :=
  match s with
  | '-' :: '-' :: rest => do return (.aside, ← Xml.Token.comment rest)
  | _ =>
    let word := s.takeWhile isKeywordChar
    match word, s.dropWhile isKeywordChar with
    | [], _ => .error .invalidToken
    | _, '%' :: c :: rest =>
      if isSpace c || c == '%' then .error .invalidToken else .ok (.opening word, '%' :: c :: rest)
    | _, c :: rest => if isSpace c then .ok (.opening word, c :: rest) else .error .invalidToken
    | _, [] => .error .unfinished

/-- The token after a percent sign. -/
def readPercent (s : List Char) : Except Fault (Token × List Char) :=
  match plainName? s with
  | some (_, ';' :: rest) => .ok (.parameter, rest)
  | some _ => .error .invalidToken
  | none => if goesOn (fun c => isSpace c || c == '%') s then .ok (.percent, s) else .error .invalidToken

/-- The token after a closing parenthesis. -/
def readCloseParen (s : List Char) : Except Fault (Token × List Char) :=
  match s with
  | '*' :: rest => .ok (.closeParen .many, rest)
  | '?' :: rest => .ok (.closeParen .optional, rest)
  | '+' :: rest => .ok (.closeParen .some, rest)
  | _ => if goesOn endsGroup s then .ok (.closeParen .once, s) else .error .invalidToken

/-- The token that a text starts with, which is no white space, and the rest of the text. -/
def next (s : List Char) : Except Fault (Token × List Char) :=
  match s with
  | [] => .error .noElement
  | '<' :: '!' :: rest => readDeclaration rest
  | '<' :: '?' :: rest => do return (.aside, ← Xml.Token.instruction rest)
  | '%' :: rest => readPercent rest
  | ',' :: rest => .ok (.comma, rest)
  | '[' :: rest => .ok (.openBracket, rest)
  | ']' :: rest =>
    if startsWith "]>".toList rest then .error .invalidToken else .ok (.closeBracket, rest)
  | '(' :: rest => .ok (.openParen, rest)
  | ')' :: rest => readCloseParen rest
  | '|' :: rest => .ok (.bar, rest)
  | '>' :: rest => .ok (.close, rest)
  | '#' :: rest =>
    match plainName? rest with
    | some (word, after) =>
      if goesOn endsKeyword after then .ok (.keyword word, after) else .error .invalidToken
    | none => .error .invalidToken
  | c :: rest =>
    if c = '\x22' || c = '\x27' then
      match cutAtChar? c rest with
      | some (quoted, after) =>
        if goesOn endsLiteral after then .ok (.literal quoted, after) else .error .invalidToken
      | none => .error .unfinished
    else if isNameChar c || c = ':' then readName s
    else .error .invalidToken

/-- The root element starts here. -/
def atRoot : List Char → Bool
  | '<' :: c :: _ => isNameStart c
  | _ => false

/-- The tokens before the root element, found in at most `fuel` steps, and the rest of the document
from the root element on. -/
def listFrom : Nat → List Char → Except Fault (List Token × List Char)
  | 0, _ => .error .unfinished
  | fuel + 1, s =>
    let s := skipSpace s
    if atRoot s then .ok ([], s)
    else do
      let (token, rest) ← next s
      let (tokens, rest) ← listFrom fuel rest
      return (token :: tokens, rest)

/-- The tokens before the root element, and the rest of the document from the root element on. -/
def list (s : List Char) : Except Fault (List Token × List Char) := listFrom (s.length + 1) s

end Token

end Assessment.Xml.Dtd
