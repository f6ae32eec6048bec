import Assessment.Attributes
import Assessment.Text.Blank
import Assessment.Text.Cut
import Assessment.Text.Scan

/-!
# Raw start tags

Reading and editing a start tag that is still text, such as `<code class="language-css">`. No tree
is built: the tag is searched for attributes in quotes, and edited in place.

An attribute is a name, an equals sign with white space around it, and a value in quotes of either
kind. It is found wherever it starts, also inside something that is no attribute. Attributes without
a value and values without quotes are not seen.
-/

namespace Assessment.Markup.StartTag

open Assessment.Text

/-- A letter of the ASCII range. -/
def isLetter (c : Char) : Bool := ('a' ≤ c && c ≤ 'z') || ('A' ≤ c && c ≤ 'Z')

/-- A character that the name of an attribute can start with. -/
def isNameStart (c : Char) : Bool := isLetter c || c == '_' || c == ':'

/-- A character that can stand in the name of an attribute. -/
def isNamePart (c : Char) : Bool :=
  isNameStart c || c.isDigit || c == '.' || c == '-'

/-- A value between quotes of either kind, and the rest of the text. -/
def quotedValue? : List Char → Option (List Char × List Char)
  | '\x22' :: s => cutAtChar? '\x22' s
  | '\x27' :: s => cutAtChar? '\x27' s
  | _ => none

/-- The equals sign with white space around it, and a value in quotes. -/
def assigned? (s : List Char) : Option (List Char × List Char) :=
  match s.dropWhile isBlank with
  | '=' :: s => quotedValue? (s.dropWhile isBlank)
  | _ => none

/-- The attribute that a text starts with, and the rest of the text. -/
def attribute? : List Char → Option ((List Char × List Char) × List Char)
  | [] => none
  | c :: s =>
    if isNameStart c then
      (assigned? (s.dropWhile isNamePart)).map fun (value, rest) =>
        ((c :: s.takeWhile isNamePart, value), rest)
    else none

theorem length_of_quotedValue? {s value rest : List Char}
    (h : quotedValue? s = some (value, rest)) : rest.length < s.length := by
  unfold quotedValue? at h
  split at h
  · have := length_of_cutAtChar? h
    simp only [List.length_cons]; omega
  · have := length_of_cutAtChar? h
    simp only [List.length_cons]; omega
  · cases h

theorem length_of_assigned? {s value rest : List Char}
    (h : assigned? s = some (value, rest)) : rest.length < s.length := by
  unfold assigned? at h
  split at h
  · next t ht =>
    have h1 := length_of_quotedValue? h
    have h2 := (List.dropWhile_sublist isBlank (l := t)).length_le
    have h3 := (List.dropWhile_sublist isBlank (l := s)).length_le
    rw [ht, List.length_cons] at h3
    omega
  · cases h

theorem length_of_attribute? {s rest : List Char} {a : List Char × List Char}
    (h : attribute? s = some (a, rest)) : rest.length < s.length := by
  unfold attribute? at h
  split at h
  · cases h
  · next c t =>
    split at h
    · obtain ⟨⟨value, r⟩, hv, hp⟩ := Option.map_eq_some_iff.1 h
      cases hp
      have h1 := length_of_assigned? hv
      have h2 := (List.dropWhile_sublist isNamePart (l := t)).length_le
      simp only [List.length_cons]; omega
    · cases h

/-- Recognises attributes. -/
def quotedAttribute : Recognizer (List Char × List Char) := ⟨attribute?, length_of_attribute?⟩

/-- The attributes of a start tag, values as written. Of a repeated name the last value counts. -/
def attributes (tag : List Char) : Attributes := Attributes.ofList (quotedAttribute.findAll tag)

/-- The attribute `name` in double quotes after a white space character, and the rest of the text. -/
def existing? (name : List Char) : List Char → Option (Unit × List Char)
  | [] => none
  | c :: s =>
    if isBlank c then
      match after? (name ++ "=\"".toList) s with
      | some t => (cutAtChar? '\x22' t).map fun (_, rest) => ((), rest)
      | none => none
    else none

theorem length_of_existing? {name s rest : List Char} {u : Unit}
    (h : existing? name s = some (u, rest)) : rest.length < s.length := by
  unfold existing? at h
  split at h
  · cases h
  · split at h
    · split at h
      · next t ht =>
        obtain ⟨⟨value, r⟩, hv, hp⟩ := Option.map_eq_some_iff.1 h
        cases hp
        have h1 := length_of_cutAtChar? hv
        have h2 := length_of_after? ht
        simp only [List.length_cons]; omega
      · cases h
    · cases h

/-- Recognises the attribute `name` where it is written in the plain form. -/
def existing (name : List Char) : Recognizer Unit := ⟨existing? name, length_of_existing?⟩

/-- An attribute in double quotes after a space. Double quotes in the value are escaped and nothing
else is. -/
def written (name value : List Char) : List Char :=
  ' ' :: name ++ "=\"".toList ++ replaceChar '\x22' "&quot;".toList value ++ ['\x22']

/-- A character of the name of a tag. -/
def isTagNameChar (c : Char) : Bool := isLetter c || c.isDigit || c == '-'

/-- The tag with a text inserted after its name. -/
def insertAfterName (inserted tag : List Char) : List Char :=
  match tag with
  | '<' :: s =>
    let name := s.takeWhile isTagNameChar
    if name.isEmpty then tag else '<' :: name ++ inserted ++ s.dropWhile isTagNameChar
  | _ => tag

/-- The tag with an attribute set. Where the tag has it in the plain form, it is replaced in place.
Otherwise it is inserted right after the name of the tag. -/
def setAttribute (name value tag : List Char) : List Char :=
  match (existing name).replaceFirst? (fun _ => written name value) tag with
  | some edited => edited
  | none => insertAfterName (written name value) tag

/-- The classes of a start tag. -/
def classes (tag : List Char) : List (List Char) :=
  words ((attributes tag).get? "class".toList |>.getD [])

/-- The start tag has a class. -/
def hasClass (tag name : List Char) : Bool := (classes tag).contains name

/-- Appends the classes that are not there yet. -/
def mergeClasses (present added : List (List Char)) : List (List Char) :=
  added.foldl
    (fun merged name => if name.isEmpty || merged.contains name then merged else merged ++ [name])
    present

/-- The tag with classes added. The classes it has keep their order and the new ones follow. -/
def addClasses (tag : List Char) (added : List (List Char)) : List Char :=
  setAttribute "class".toList (joinWith [' '] (mergeClasses (classes tag) added)) tag

end Assessment.Markup.StartTag
