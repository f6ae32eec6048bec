import Assessment.Html.Markup
import Assessment.Html.Reference

/-!
# The tokens of a text

A text is read twice. The first reading stops at whatever the end of the text might change: markup or
a reference that is unfinished. The second reading starts there and knows that no more text follows.
Unfinished markup is text up to its next closing bracket, or else up to its next opening one, and the
reading goes on. At an unfinished reference the second reading stops as well, and all the rest is text.

After the start tag of an element whose text is no markup, all is text up to the end tag of that
element. If there is none, that text is lost.
-/

namespace Assessment.Html

open Assessment.Text

/-- One step of reading. -/
inductive Step where
  /-- A token, and the rest of the text. -/
  | read (token : Token) (rest : List Char)
  /-- The reading stops, after some text that still belongs to it, before the rest. -/
  | halt (text rest : List Char)
  /-- The text cannot be read at all. -/
  | rejected

namespace Step

/-- Unfinished markup after its opening bracket: what is text, and the rest. -/
def unfinishedChunk (s : List Char) : List Char × List Char :=
  match cutAtChar? '>' s with
  | some (before, rest) => (before ++ ['>'], rest)
  | none =>
    if s.contains '<' then (s.takeWhile (· != '<'), s.dropWhile (· != '<')) else ([], s)

/-- A step at an opening bracket. `last` says that this is the second reading. -/
def atMarkup (last : Bool) (s : List Char) : Step :=
  if s.isEmpty then .halt [] ['<']
  else
    match Markup.read s with
    | .found token rest => .read token rest
    | .rejected => .rejected
    | .unfinished =>
      if last then
        let chunk := unfinishedChunk s
        .read (.text ('<' :: chunk.1)) chunk.2
      else .halt [] ('<' :: s)

/-- A step at an ampersand. -/
def atReference (last : Bool) (s : List Char) : Step :=
  match s with
  | [] => .halt [] ['&']
  | '#' :: t =>
    match Reference.number? t with
    | some (n, rest) => .read (.text (Reference.numberText n)) rest
    | none => if t.contains ';' then .halt "&#".toList t else .halt [] ('&' :: s)
  | c :: t =>
    match Reference.name? s with
    | some (name, rest) => .read (.text (Reference.nameText name)) rest
    | none =>
      if c.isAlpha then if last && t.isEmpty then .halt [] s else .halt [] ('&' :: s)
      else .read (.text ['&']) s

/-- A character that is neither an opening bracket nor an ampersand. -/
def isPlain (c : Char) : Bool := c != '<' && c != '&'

/-- A step where text is markup. -/
def inMarkup (last : Bool) : List Char → Step
  | [] => .halt [] []
  | '<' :: s => atMarkup last s
  | '&' :: s => atReference last s
  | c :: s => .read (.text (c :: s.takeWhile isPlain)) (s.dropWhile isPlain)

/-- The lower-case letter that a letter is taken for where the case of letters does not count. -/
def foldLetter (c : Char) : Char :=
  if c = 'İ' || c = 'ı' then 'i' else if c = 'ſ' then 's' else if c = '\u212A' then 'k'
  else c.toLower

/-- The end tag of the element starts here. -/
def startsRawEnd (name : List Char) (s : List Char) : Bool :=
  match after? "</".toList s with
  | some t =>
    let start := t.dropWhile isBlank
    (start.take name.length).map foldLetter == name &&
      ((start.drop name.length).dropWhile isBlank).head? == some '>'
  | none => false

/-- A step inside an element whose text is no markup. -/
def inRaw (name s : List Char) : Step :=
  match splitWhere? (startsRawEnd name) s with
  | none => .halt [] s
  | some ([], from?) =>
    match after? "</".toList from? with
    | some t =>
      match cutAtChar? '>' t with
      | some (inside, rest) => .read (Markup.rawEndTagOf name inside) rest
      | none => .halt [] s
    | none => .halt [] s
  | some (c :: before, rest) => .read (.text (c :: before)) rest

/-- One step of reading. `raw` is the element whose text is no markup, if we are in one. -/
def next (last : Bool) (raw : Option (List Char)) (s : List Char) : Step :=
  match raw with
  | some name => inRaw name s
  | none => inMarkup last s

theorem length_unfinishedChunk_le (s : List Char) : (unfinishedChunk s).2.length ≤ s.length := by
  unfold unfinishedChunk
  split
  · next h =>
    have := length_of_cutAtChar? h
    simp only
    omega
  · split
    · exact StartTag.length_dropWhile_le _ _
    · exact Nat.le_refl _

theorem length_of_atMarkup {last : Bool} {s rest : List Char} {token : Token}
    (h : atMarkup last s = .read token rest) : rest.length ≤ s.length := by
  have hw := Markup.within_read s
  unfold atMarkup at h
  split at h
  · cases h
  · split at h
    · next hr =>
      cases h
      rw [hr] at hw
      exact hw
    · cases h
    · split at h
      · cases h
        exact length_unfinishedChunk_le s
      · cases h

theorem length_of_atReference {last : Bool} {s rest : List Char} {token : Token}
    (h : atReference last s = .read token rest) : rest.length ≤ s.length := by
  unfold atReference at h
  split at h
  · cases h
  · split at h
    · next hn =>
      cases h
      exact Nat.le_succ_of_le (Reference.length_of_number? hn)
    · split at h <;> cases h
  · split at h
    · next hn =>
      cases h
      exact Reference.length_of_name? hn
    · split at h
      · split at h <;> cases h
      · cases h
        exact Nat.le_refl _

theorem length_of_inMarkup {last : Bool} {s rest : List Char} {token : Token}
    (h : inMarkup last s = .read token rest) : rest.length < s.length := by
  unfold inMarkup at h
  split at h
  · cases h
  · exact Nat.lt_succ_of_le (length_of_atMarkup h)
  · exact Nat.lt_succ_of_le (length_of_atReference h)
  · cases h
    exact Nat.lt_succ_of_le (StartTag.length_dropWhile_le _ _)

theorem length_of_inRaw {name s rest : List Char} {token : Token}
    (h : inRaw name s = .read token rest) : rest.length < s.length := by
  unfold inRaw at h
  split at h
  · cases h
  · next from? hs =>
    split at h
    · next t ht =>
      split at h
      · next hc =>
        cases h
        have h1 := congrArg List.length (splitWhere?_append hs)
        have h2 := length_of_after? ht
        have h3 := length_of_cutAtChar? hc
        simp only [List.length_append] at h1
        omega
      · cases h
    · cases h
  · next c before r hs =>
    cases h
    have h1 := congrArg List.length (splitWhere?_append hs)
    simp only [List.length_append, List.length_cons] at h1
    omega

/-- A step that reads something leaves less than there was. -/
theorem length_of_next {last : Bool} {raw : Option (List Char)} {s rest : List Char} {token : Token}
    (h : next last raw s = .read token rest) : rest.length < s.length := by
  unfold next at h
  split at h
  · exact length_of_inRaw h
  · exact length_of_inMarkup h

end Step

/-- The element whose text is no markup, after a token. -/
def Token.rawAfter (raw : Option (List Char)) : Token → Option (List Char)
  | .startTag name _ false => if isRaw name then some name else raw
  | .endTag _ => none
  | _ => raw

/-- What one reading found. -/
structure Run where
  /-- The tokens, in order. -/
  tokens : List Token
  /-- The element whose text is no markup, where the reading stopped. -/
  raw : Option (List Char)
  /-- The rest of the text. -/
  rest : List Char

/-- Reads until it has to stop. There is no result if the text cannot be read at all. -/
def run (last : Bool) (raw : Option (List Char)) (s : List Char) : Option Run :=
  match _h : Step.next last raw s with
  | .read token rest =>
    (run last (token.rawAfter raw) rest).map fun r => { r with tokens := token :: r.tokens }
  | .halt text rest => some ⟨[.text text], raw, rest⟩
  | .rejected => none
termination_by s.length
decreasing_by exact Step.length_of_next _h

/-- The tokens of a text, if it can be read at all. -/
def tokenize (s : List Char) : Option (List Token) := do
  let first ← run false none s
  let second ← run true first.raw first.rest
  let remaining := if second.raw.isSome then [] else [Token.text second.rest]
  return first.tokens ++ second.tokens ++ remaining

end Assessment.Html
