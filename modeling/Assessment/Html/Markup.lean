import Assessment.Html.StartTag

/-!
# Markup

Everything that an opening bracket can begin: start tags, end tags, comments, instructions, document
types and marked sections.

An end tag is read up to the next closing bracket. If its name is followed by anything but white
space, that is skipped. What looks like an end tag or a declaration and is none is a comment. Inside an
element whose text is no markup, only the end tag of that element is one; the rest is text.
-/

namespace Assessment.Html.Markup

open Assessment.Text

/-! ## End tags -/

/-- A character of the name of an end tag in its plain form. -/
def isEndNameChar (c : Char) : Bool :=
  c.isAlphanum || c == '-' || c == '.' || c == ':' || c == '_'

/-- The text is the name of an end tag in its plain form. -/
def isEndName : List Char → Bool
  | [] => false
  | c :: s => c.isAlpha && s.all isEndNameChar

/-- The token of an end tag with the given inside, which holds no closing bracket. -/
def endTagOf (inside : List Char) : Token :=
  let name := trim inside
  if isEndName name then .endTag (lower name)
  else
    match inside with
    | [] => .text []
    | c :: _ =>
      if c.isAlpha then .endTag (lower (inside.takeWhile StartTag.isTagNameChar))
      else .special .comment inside

/-- An end tag after its opening bracket and slash. -/
def readEndTag (s : List Char) : Reading :=
  match cutAtChar? '>' s with
  | some (inside, rest) => .found (endTagOf inside) rest
  | none => .unfinished

/-- The token of an end tag inside the element `raw`, whose text is no markup. -/
def rawEndTagOf (raw inside : List Char) : Token :=
  let name := trim inside
  if isEndName name && lower name == raw then .endTag raw
  else .text ("</".toList ++ inside ++ ['>'])

/-! ## Comments, instructions and declarations -/

/-- What follows the end of a comment. -/
def afterCommentEnd? (s : List Char) : Option (List Char) :=
  match after? "--".toList s with
  | some t =>
    match t.dropWhile isBlank with
    | '>' :: rest => some rest
    | _ => none
  | none => none

/-- What follows the end of a marked section in its short form. -/
def afterShortEnd? : List Char → Option (List Char)
  | ']' :: s =>
    match s.dropWhile isBlank with
    | '>' :: rest => some rest
    | _ => none
  | _ => none

/-- What follows the end of a marked section. -/
def afterSectionEnd? : List Char → Option (List Char)
  | ']' :: s => afterShortEnd? (s.dropWhile isBlank)
  | _ => none

/-- A comment after its opening. -/
def readComment (s : List Char) : Reading :=
  match cutWhere? afterCommentEnd? s with
  | some (inside, rest) => .found (.special .comment inside) rest
  | none => .unfinished

/-- A processing instruction after its opening. -/
def readInstruction (s : List Char) : Reading :=
  match cutAtChar? '>' s with
  | some (inside, rest) => .found (.special .instruction inside) rest
  | none => .unfinished

/-- A comment that is not written as one, after its opening. -/
def readBogusComment (s : List Char) : Reading :=
  match cutAtChar? '>' s with
  | some (inside, rest) => .found (.special .comment inside) rest
  | none => .unfinished

/-- What follows the word that opens a document type. -/
def afterDoctype? (s : List Char) : Option (List Char) :=
  let word := "doctype".toList
  if (s.take word.length).map Char.toLower == word then some (s.drop word.length) else none

/-- A document type after its opening word, of which the first character is left out. -/
def readDoctype (s : List Char) : Reading :=
  match cutAtChar? '>' s with
  | some (inside, rest) => .found (.special .doctype (inside.drop 1)) rest
  | none => .unfinished

/-- A character of the name of a marked section. -/
def isSectionNameChar (c : Char) : Bool := c.isAlphanum || c == '-' || c == '_' || c == '.'

/-- The names of marked sections that end in two closing square brackets. -/
def sectionNames : List (List Char) :=
  ["temp".toList, "cdata".toList, "ignore".toList, "include".toList, "rcdata".toList]

/-- The names of marked sections that end in one closing square bracket. -/
def shortSectionNames : List (List Char) := ["if".toList, "else".toList, "endif".toList]

/-- The token of a marked section with the given inside. -/
def sectionOf (inside : List Char) : Token :=
  let word := "cdata[".toList
  if (inside.take word.length).map Char.toLower == word then
    .special .data (inside.drop word.length)
  else .special .declaration inside

/-- The text up to the end of a marked section. -/
def readSectionTo (ending : List Char → Option (List Char)) (s : List Char) : Reading :=
  match cutWhere? ending s with
  | some (inside, rest) => .found (sectionOf inside) rest
  | none => .unfinished

/-- A marked section after its opening. Its name must be known. -/
def readSection (s : List Char) : Reading :=
  match s with
  | [] => .unfinished
  | c :: _ =>
    if !c.isAlpha then .rejected
    else if ((s.dropWhile isSectionNameChar).dropWhile isBlank).isEmpty then .unfinished
    else
      let name := (s.takeWhile isSectionNameChar).map Char.toLower
      if sectionNames.contains name then readSectionTo afterSectionEnd? s
      else if shortSectionNames.contains name then readSectionTo afterShortEnd? s
      else .rejected

/-- A declaration after its opening bracket and exclamation mark. -/
def readDeclaration (s : List Char) : Reading :=
  match s with
  | '-' :: '-' :: t => readComment t
  | '[' :: t => readSection t
  | _ =>
    match afterDoctype? s with
    | some t => readDoctype t
    | none => readBogusComment s

/-! ## All markup -/

/-- Markup after its opening bracket, where the text goes on. A bracket that opens nothing is text. -/
def read (s : List Char) : Reading :=
  match s with
  | [] => .unfinished
  | '/' :: t => readEndTag t
  | '?' :: t => readInstruction t
  | '!' :: t => readDeclaration t
  | c :: _ => if c.isAlpha then StartTag.read s else .found (.text ['<']) s

theorem length_of_afterCommentEnd? {s rest : List Char} (h : afterCommentEnd? s = some rest) :
    rest.length ≤ s.length := by
  unfold afterCommentEnd? at h
  split at h
  · next t ht =>
    split at h
    · next r hr =>
      cases h
      have h1 := StartTag.length_dropWhile_le isBlank t
      have h2 := length_of_after? ht
      rw [hr, List.length_cons] at h1
      omega
    · cases h
  · cases h

theorem length_of_afterShortEnd? {s rest : List Char} (h : afterShortEnd? s = some rest) :
    rest.length ≤ s.length := by
  unfold afterShortEnd? at h
  split at h
  · next t =>
    split at h
    · next r hr =>
      cases h
      have h1 := StartTag.length_dropWhile_le isBlank t
      rw [hr, List.length_cons] at h1
      simp only [List.length_cons]
      omega
    · cases h
  · cases h

theorem length_of_afterSectionEnd? {s rest : List Char} (h : afterSectionEnd? s = some rest) :
    rest.length ≤ s.length := by
  unfold afterSectionEnd? at h
  split at h
  · next t =>
    have h1 := StartTag.length_dropWhile_le isBlank t
    have h2 := length_of_afterShortEnd? h
    simp only [List.length_cons]
    omega
  · cases h

theorem within_readEndTag (s : List Char) : (readEndTag s).Within s.length := by
  unfold readEndTag
  split
  · next h =>
    have := length_of_cutAtChar? h
    simp only [Reading.Within]
    omega
  · trivial

theorem within_readInstruction (s : List Char) : (readInstruction s).Within s.length := by
  unfold readInstruction
  split
  · next h =>
    have := length_of_cutAtChar? h
    simp only [Reading.Within]
    omega
  · trivial

theorem within_readBogusComment (s : List Char) : (readBogusComment s).Within s.length := by
  unfold readBogusComment
  split
  · next h =>
    have := length_of_cutAtChar? h
    simp only [Reading.Within]
    omega
  · trivial

theorem within_readDoctype (s : List Char) : (readDoctype s).Within s.length := by
  unfold readDoctype
  split
  · next h =>
    have := length_of_cutAtChar? h
    simp only [Reading.Within]
    omega
  · trivial

theorem within_readComment (s : List Char) : (readComment s).Within s.length := by
  unfold readComment
  split
  · next h => exact length_of_cutWhere? length_of_afterCommentEnd? h
  · trivial

theorem within_readSection (s : List Char) : (readSection s).Within s.length := by
  have hto {ending : List Char → Option (List Char)}
      (he : ∀ {s rest : List Char}, ending s = some rest → rest.length ≤ s.length) :
      (readSectionTo ending s).Within s.length := by
    unfold readSectionTo
    split
    · next h => exact length_of_cutWhere? he h
    · trivial
  unfold readSection
  split
  · trivial
  · split
    · trivial
    · split
      · trivial
      · dsimp only
        split
        · exact hto length_of_afterSectionEnd?
        · split
          · exact hto length_of_afterShortEnd?
          · trivial

theorem Reading.Within.mono {n m : Nat} {r : Reading} (h : r.Within n) (hnm : n ≤ m) :
    r.Within m := by
  cases r with
  | found => exact Nat.le_trans h hnm
  | unfinished => trivial
  | rejected => trivial

theorem within_readDeclaration (s : List Char) : (readDeclaration s).Within s.length := by
  unfold readDeclaration
  split
  · exact Reading.Within.mono (within_readComment _) (by simp only [List.length_cons]; omega)
  · exact Reading.Within.mono (within_readSection _) (by simp only [List.length_cons]; omega)
  · split
    · next t ht =>
      refine Reading.Within.mono (within_readDoctype _) ?_
      simp only [afterDoctype?] at ht
      split at ht
      · cases ht
        simp
      · cases ht
    · exact within_readBogusComment _

/-- Markup leaves no more than what follows its opening bracket. -/
theorem within_read (s : List Char) : (read s).Within s.length := by
  unfold read
  split
  · trivial
  · exact Reading.Within.mono (within_readEndTag _) (by simp)
  · exact Reading.Within.mono (within_readInstruction _) (by simp)
  · exact Reading.Within.mono (within_readDeclaration _) (by simp)
  · split
    · exact StartTag.within_read _
    · exact Nat.le_refl _

end Assessment.Html.Markup
