import Assessment.Xml.Reference

/-!
# The tokens of content

The content of an element is cut into tokens: runs of text, references to entities, tags, comments
and instructions. References to characters are text at once, and so are the sections in which markup
means nothing. Attribute values stay as they are written, because what they mean depends on
declarations.
-/

namespace Assessment.Xml

open Assessment.Text

/-- An attribute as written: its name and what stands between the quotes. -/
abbrev RawAttribute := List Char × List Char

/-- A piece of content. -/
inductive Token where
  /-- Text as it is meant. The flag says that it was written as plain white space. -/
  | text (s : List Char) (plain : Bool)
  /-- A reference to a declared entity. -/
  | entity (name : List Char)
  /-- A start tag, or the tag of an empty element. -/
  | start (name : List Char) (attributes : List RawAttribute) (empty : Bool)
  /-- An end tag. -/
  | stop (name : List Char)
  /-- A comment or a processing instruction. -/
  | aside
  deriving DecidableEq, Repr

namespace Token

/-- The value in quotes that a text starts with, and the rest of the text. -/
def quotedValue : List Char → Except Fault (List Char × List Char)
  | quote :: s =>
    if quote = '\x22' || quote = '\x27' then
      match cutAtChar? quote s with
      | some (value, rest) =>
        if value.contains '<' then .error .invalidToken else .ok (value, rest)
      | none => .error .unfinished
    else .error .invalidToken
  | [] => .error .unfinished

/-- The rest of a start tag after its name, read in at most `fuel` steps. -/
def attributes (fuel : Nat) (s : List Char) (found : List RawAttribute) :
    Except Fault ((List RawAttribute × Bool) × List Char) :=
  match fuel with
  | 0 => .error .unfinished
  | fuel + 1 =>
    match skipSpace s with
    | [] => .error .unfinished
    | '>' :: rest => .ok ((found.reverse, false), rest)
    | '/' :: '>' :: rest => .ok ((found.reverse, true), rest)
    | next =>
      if next.length = s.length then .error .invalidToken
      else
        match qualifiedName? next with
        | none => .error .invalidToken
        | some (name, afterName) =>
          match skipSpace afterName with
          | '=' :: afterSign => do
            let (value, rest) ← quotedValue (skipSpace afterSign)
            attributes fuel rest ((name, value) :: found)
          | [] => .error .unfinished
          | _ => .error .invalidToken

/-- The end of a comment after `<!--`: two hyphens can only stand at its end. -/
def comment (s : List Char) : Except Fault (List Char) :=
  match cutAt? "--".toList s with
  | some (_, '>' :: rest) => .ok rest
  | some (_, _ :: _) => .error .invalidToken
  | _ => .error .unfinished

/-- The name is that of the declaration at the start of a document, in letters of any case. -/
def isReservedTarget (target : List Char) : Bool := target.map Char.toLower == "xml".toList

/-- The end of a processing instruction after `<?`. -/
def instruction (s : List Char) : Except Fault (List Char) :=
  match plainName? s with
  | none => .error .invalidToken
  | some (target, rest) =>
    if isReservedTarget target then .error .invalidToken
    else
      match rest with
      | [] => .error .unfinished
      | '?' :: '>' :: rest => .ok rest
      | c :: rest =>
        if isSpace c then
          match cutAt? "?>".toList rest with
          | some (_, rest) => .ok rest
          | none => .error .unfinished
        else .error .invalidToken

/-- The name and the end of an end tag after `</`. -/
def endTag (s : List Char) : Except Fault (Token × List Char) :=
  match qualifiedName? s with
  | none => .error .invalidToken
  | some (name, rest) =>
    match skipSpace rest with
    | '>' :: rest => .ok (.stop name, rest)
    | [] => .error .unfinished
    | _ => .error .invalidToken

/-- The token that starts with an angle bracket, after the bracket. -/
def tag (s : List Char) : Except Fault (Token × List Char) :=
  match s with
  | '!' :: '-' :: '-' :: rest => do return (.aside, ← comment rest)
  | '?' :: rest => do return (.aside, ← instruction rest)
  | '/' :: rest => endTag rest
  | _ =>
    match after? "![CDATA[".toList s with
    | some rest =>
      match cutAt? "]]>".toList rest with
      | some (section_, rest) => .ok (.text (normalizeLines section_) false, rest)
      | none => .error .unfinished
    | none =>
      match qualifiedName? s with
      | none => .error .invalidToken
      | some (name, rest) => do
        let ((attributes, empty), rest) ← attributes (rest.length + 1) rest []
        return (.start name attributes empty, rest)

/-- The token that a text starts with, and the rest of the text. -/
def next (s : List Char) : Except Fault (Token × List Char) :=
  match s with
  | '<' :: rest => tag rest
  | '&' :: rest =>
    match readReference rest with
    | .ok (.char c, rest) => .ok (.text [c] false, rest)
    | .ok (.entity name, rest) => .ok (.entity name, rest)
    | .error fault => .error fault
  | _ =>
    let run := s.takeWhile fun c => c != '<' && c != '&'
    if occursIn "]]>".toList run then .error .invalidToken
    else .ok (.text (normalizeLines run) (run.all isSpace), s.drop run.length)

/-- The tokens of a text, found in at most `fuel` steps. -/
def listFrom : Nat → List Char → Except Fault (List Token)
  | _, [] => .ok []
  | 0, _ :: _ => .error .unfinished
  | fuel + 1, s => do
    let (token, rest) ← next s
    return token :: (← listFrom fuel rest)

/-- The tokens of a text. -/
def list (s : List Char) : Except Fault (List Token) := listFrom s.length s

end Token

end Assessment.Xml
