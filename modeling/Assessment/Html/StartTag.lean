import Assessment.Html.Token
import Assessment.Markup.Entity
import Assessment.Text.Lower

/-!
# Start tags

A start tag is a name and attributes, up to a closing bracket. Names end at white space, at a slash or
at the bracket. A value stands after an equals sign, in quotes of either kind or bare; an attribute
without a value has the empty one. Slashes between attributes are skipped, but a slash right before
the bracket closes the element.

Where an opening quote is never closed, it does not open a value. After white space the value is then
empty, and the quote starts the next attribute. After several equals signs the last one belongs to
the value. Otherwise there is no value and the tag is unfinished.
-/

namespace Assessment.Html.StartTag

open Assessment.Text Assessment.Markup

/-- A quote of either kind. -/
def isQuote (c : Char) : Bool := c == '\x22' || c == '\x27'

/-- A character of the name of a tag. -/
def isTagNameChar (c : Char) : Bool :=
  !(c == '\t' || c == '\n' || c == '\r' || c == '\x0c' || c == ' ' || c == '/' || c == '>' ||
    c == '\x00')

/-- A character that the name of an attribute can start with. -/
def isAttributeStart (c : Char) : Bool := !(isBlank c || c == '/' || c == '>')

/-- A character that can follow in the name of an attribute. -/
def isAttributePart (c : Char) : Bool := isAttributeStart c && c != '='

/-- A character of a bare value. -/
def isBare (c : Char) : Bool := !(isBlank c || c == '>')

/-- The text without the white space and the slashes it starts with. A slash before a closing bracket
stays. -/
def skipSeparators : List Char → List Char
  | [] => []
  | c :: s =>
    if isBlank c || (c == '/' && s.head? != some '>') then skipSeparators s else c :: s

/-- A bare value, and the rest of the text. -/
def bareValue (s : List Char) : List Char × List Char := (s.takeWhile isBare, s.dropWhile isBare)

/-- The value after the equals signs, and the rest of the text. `again` says that there were several
signs. -/
def valueAfterSigns? (again : Bool) (s : List Char) : Option (List Char × List Char) :=
  let start := s.dropWhile isBlank
  match start with
  | [] => some ([], [])
  | c :: t =>
    if isQuote c then
      match cutAtChar? c t with
      | some found => some found
      | none =>
        if start.length < s.length then some ([], s)
        else if again then some ('=' :: start.takeWhile isBare, start.dropWhile isBare)
        else none
    else some (bareValue start)

/-- The value of an attribute after its name, and the rest of the text. -/
def value? (s : List Char) : Option (List Char × List Char) :=
  match s.dropWhile isBlank with
  | '=' :: t => valueAfterSigns? (t.head? == some '=') (t.dropWhile (· == '='))
  | _ => none

theorem length_skipSeparators_le (s : List Char) : (skipSeparators s).length ≤ s.length := by
  induction s with
  | nil => simp [skipSeparators]
  | cons c s ih =>
    unfold skipSeparators
    split
    · exact Nat.le_succ_of_le ih
    · exact Nat.le_refl _

theorem length_dropWhile_le (p : Char → Bool) (s : List Char) :
    (s.dropWhile p).length ≤ s.length :=
  (List.dropWhile_sublist p).length_le

theorem length_of_valueAfterSigns? {again : Bool} {s value rest : List Char}
    (h : valueAfterSigns? again s = some (value, rest)) : rest.length ≤ s.length := by
  have hstart := length_dropWhile_le isBlank s
  simp only [valueAfterSigns?] at h
  split at h
  · cases h
    simp
  · next c t ht =>
    rw [ht, List.length_cons] at hstart
    split at h
    · split at h
      · next found hf =>
        cases h
        have := length_of_cutAtChar? hf
        omega
      · split at h
        · cases h
          exact Nat.le_refl _
        · split at h
          · cases h
            exact Nat.le_trans (length_dropWhile_le _ _) (length_dropWhile_le isBlank s)
          · cases h
    · cases h
      exact Nat.le_trans (length_dropWhile_le _ _) (length_dropWhile_le isBlank s)

theorem length_of_value? {s value rest : List Char} (h : value? s = some (value, rest)) :
    rest.length ≤ s.length := by
  unfold value? at h
  split at h
  · next t ht =>
    have h1 := length_of_valueAfterSigns? h
    have h2 := length_dropWhile_le (· == '=') t
    have h3 := length_dropWhile_le isBlank s
    rw [ht, List.length_cons] at h3
    omega
  · cases h

/-- An attribute as it was read. -/
structure ReadAttribute where
  /-- The name, in lower case. -/
  name : List Char
  /-- The value, without references. -/
  value : List Char
  /-- The rest of the text, after the separators. -/
  rest : List Char
  /-- Another attribute may start there. -/
  boundary : Bool

/-- The attribute that starts with the character `c`, before the text `s`. -/
def readAttribute (c : Char) (s : List Char) : ReadAttribute :=
  let name := c :: s.takeWhile isAttributePart
  let afterName := s.dropWhile isAttributePart
  match value? afterName with
  | some (value, afterValue) =>
    ⟨lower name, Entity.decode value, skipSeparators afterValue, true⟩
  | none =>
    let rest := skipSeparators afterName
    ⟨lower name, [], rest, rest.length < afterName.length || (name.getLast?.map isQuote).getD false⟩

theorem length_readAttribute_le (c : Char) (s : List Char) :
    (readAttribute c s).rest.length ≤ s.length := by
  have h1 := length_dropWhile_le isAttributePart s
  unfold readAttribute
  dsimp only
  split
  · next value afterValue h =>
    have h2 := length_of_value? h
    have h3 := length_skipSeparators_le afterValue
    simp only
    omega
  · have h3 := length_skipSeparators_le (s.dropWhile isAttributePart)
    simp only
    omega

/-- The attributes from here on, and the rest of the text. `boundary` says that an attribute may start
here. -/
def attributes (boundary : Bool) : List Char → List (List Char × List Char) × List Char
  | [] => ([], [])
  | c :: s =>
    if boundary && isAttributeStart c then
      let first := readAttribute c s
      let more := attributes first.boundary first.rest
      ((first.name, first.value) :: more.1, more.2)
    else ([], c :: s)
termination_by s => s.length
decreasing_by
  have := length_readAttribute_le c s
  simp only [List.length_cons]
  omega

theorem length_attributes_le (boundary : Bool) (s : List Char) :
    (attributes boundary s).2.length ≤ s.length := by
  induction h : s.length using Nat.strongRecOn generalizing boundary s with
  | _ n ih =>
    cases s with
    | nil => simp [attributes]
    | cons c s =>
      unfold attributes
      split
      · have h1 := length_readAttribute_le c s
        simp only [List.length_cons] at h
        have h2 := ih _ (by omega) (readAttribute c s).boundary (readAttribute c s).rest rfl
        simp only
        omega
      · simp only [List.length_cons] at h ⊢
        omega

/-- A start tag after its opening bracket. The text starts with a letter. What is no start tag but ends
before a bracket is text. -/
def read (s : List Char) : Reading :=
  let name := s.takeWhile isTagNameChar
  let afterName := s.dropWhile isTagNameChar
  let start := skipSeparators afterName
  let boundary := start.length < afterName.length || (name.getLast?.map isQuote).getD false
  let found := attributes boundary start
  match found.2 with
  | '>' :: rest => .found (.startTag (lower name) (Attributes.ofList found.1) false) rest
  | '/' :: '>' :: rest => .found (.startTag (lower name) (Attributes.ofList found.1) true) rest
  | [] => .unfinished
  | c :: rest =>
    if c.isAlpha || c == '=' || c == '/' then .unfinished
    else .found (.text ('<' :: s.take (s.length - (rest.length + 1)))) (c :: rest)

/-- A start tag leaves less than there was. -/
theorem within_read (s : List Char) : (read s).Within s.length := by
  have h1 := length_dropWhile_le isTagNameChar s
  have h2 := length_skipSeparators_le (s.dropWhile isTagNameChar)
  unfold read
  dsimp only
  generalize hb : (decide ((skipSeparators (s.dropWhile isTagNameChar)).length <
    (s.dropWhile isTagNameChar).length) ||
      ((s.takeWhile isTagNameChar).getLast?.map isQuote).getD false) = boundary
  have h3 := length_attributes_le boundary (skipSeparators (s.dropWhile isTagNameChar))
  split
  · next rest hr =>
    rw [hr, List.length_cons] at h3
    simp only [Reading.Within]
    omega
  · next rest hr =>
    rw [hr, List.length_cons, List.length_cons] at h3
    simp only [Reading.Within]
    omega
  · trivial
  · next c rest _ _ hr =>
    rw [hr, List.length_cons] at h3
    split
    · trivial
    · simp only [Reading.Within, List.length_cons]
      omega

end Assessment.Html.StartTag
