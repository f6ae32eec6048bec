import Assessment.Text.Cut
import Assessment.Text.Scan
import Assessment.Text.Word

/-!
# Tags in a text

Finding tags of one name in a text that is not parsed. A tag begins with its name and ends at the
next closing bracket. The name ends where a word ends, so that other characters of a tag name, such
as a hyphen, may follow it.
-/

namespace Assessment.Markup.RawTag

open Assessment.Text

/-- The beginning of a tag, up to its next closing bracket, and the rest of the text. `opening` is
what the tag begins with. -/
def tag? (opening : List Char) (s : List Char) : Option (List Char × List Char) :=
  match after? opening s with
  | none => none
  | some t =>
    if atWordEnd t then
      (cutAtChar? '>' t).map fun (inside, rest) => (opening ++ inside ++ ['>'], rest)
    else none

theorem tag?_append {opening s tag rest : List Char} (h : tag? opening s = some (tag, rest)) :
    s = tag ++ rest := by
  unfold tag? at h
  split at h
  · cases h
  · next t ht =>
    split at h
    · obtain ⟨⟨inside, r⟩, hc, hp⟩ := Option.map_eq_some_iff.1 h
      cases hp
      rw [after?_eq_some_iff.1 ht, cutAtChar?_append hc]
      simp
    · cases h

theorem ne_nil_of_tag? {opening s tag rest : List Char} (h : tag? opening s = some (tag, rest)) :
    tag ≠ [] := by
  unfold tag? at h
  split at h
  · cases h
  · split at h
    · obtain ⟨⟨inside, r⟩, hc, hp⟩ := Option.map_eq_some_iff.1 h
      cases hp
      simp
    · cases h

theorem length_of_tag? {opening s tag rest : List Char} (h : tag? opening s = some (tag, rest)) :
    rest.length < s.length := by
  have := List.length_pos_iff.2 (ne_nil_of_tag? h)
  rw [tag?_append h, List.length_append]
  omega

/-- Start tags. -/
def startTag? (name : String) : List Char → Option (List Char × List Char) :=
  tag? ('<' :: name.toList)

/-- Start tags and end tags. -/
def eitherTag? (name : String) (s : List Char) : Option (List Char × List Char) :=
  match startTag? name s with
  | some found => some found
  | none => tag? ('<' :: '/' :: name.toList) s

theorem length_of_eitherTag? {name : String} {s tag rest : List Char}
    (h : eitherTag? name s = some (tag, rest)) : rest.length < s.length := by
  unfold eitherTag? at h
  split at h
  · next ht => cases h; exact length_of_tag? ht
  · exact length_of_tag? h

/-- Recognises start tags of one name. -/
def startTag (name : String) : Recognizer (List Char) := ⟨startTag? name, length_of_tag?⟩

/-- Recognises start tags and end tags of one name. -/
def eitherTag (name : String) : Recognizer (List Char) := ⟨eitherTag? name, length_of_eitherTag?⟩

end Assessment.Markup.RawTag
