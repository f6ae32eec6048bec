import Assessment.Settings.File
import Assessment.Text.Scan

/-!
# References in settings

A value in a file of settings can refer to other names: a dollar sign and a name in braces stand for
the value under that name. After the name, a colon, a hyphen and a text may follow, which stand in for
the value if there is none.

References are resolved in the order of the file. The entries that came before win over the variables
that are set.
-/

namespace Assessment.Settings

open Assessment.Text

/-- A reference to a name. -/
structure Reference where
  /-- The name. -/
  name : List Char
  /-- What stands in for a value. It is empty if nothing is given. -/
  default : List Char
  deriving DecidableEq, Repr

namespace Reference

/-- The text in front of a closing brace, and the text after the brace. -/
def closed? (s : List Char) : Option (List Char × List Char) := cutAtChar? '\x7d' s

/-- The reference that a text starts with, and the rest of the text. -/
def read? : List Char → Option (Reference × List Char)
  | '$' :: '\x7b' :: s =>
    match closed? s with
    | none => none
    | some (inside, rest) =>
      match cutAtChar? ':' inside with
      | none => some (⟨inside, []⟩, rest)
      | some (name, '-' :: default) => some (⟨name, default⟩, rest)
      | some _ => none
  | _ => none

theorem length_of_read? {s rest : List Char} {r : Reference} (h : read? s = some (r, rest)) :
    rest.length < s.length := by
  unfold read? at h
  split at h
  · next t =>
    split at h
    · cases h
    · next inside u hu =>
      have h1 := length_of_cutAtChar? hu
      split at h
      all_goals cases h
      all_goals simp only [List.length_cons]; omega
  · cases h

/-- Recognises references. -/
def reference : Recognizer Reference := ⟨read?, length_of_read?⟩

/-- The names that a text refers to. -/
def names (s : List Char) : List (List Char) := (reference.findAll s).map (·.name)

end Reference

namespace File

/-- The value that comes last under a name. -/
def last? (name : List Char) (entries : List Entry) : Option (Option (List Char)) :=
  (entries.reverse.find? fun entry => entry.1 == name).map (·.2)

/-- The entries with one more. It takes the place of an entry under the same name. -/
def put (entry : Entry) : List Entry → List Entry
  | [] => [entry]
  | other :: entries => if other.1 = entry.1 then entry :: entries else other :: put entry entries

/-- A value with its references resolved. A name without a value stands for nothing. -/
def resolveValue (environment entries : List Entry) (value : List Char) : List Char :=
  Reference.reference.replace
    (fun r =>
      match (last? r.name entries).or (last? r.name environment) with
      | some found => found.getD []
      | none => r.default)
    value

/-- The entries with their references resolved, each name once. -/
def resolve (environment entries : List Entry) : List Entry :=
  entries.foldl
    (fun resolved entry =>
      put (entry.1, entry.2.map (resolveValue environment resolved)) resolved) []

end File

end Assessment.Settings
