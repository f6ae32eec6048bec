import Assessment.Text.Blank
import Assessment.Text.Cut

/-!
# Files of settings

A file of settings holds names with values, each on a line of its own: `NAME=value`. A line may start
with the word `export`. A number sign starts a comment, inside a value only after white space. Values
and names can stand in quotes; a quoted value may go over several lines and has escapes. A name may
stand alone, and then it has no value. A line that is none of this is skipped.
-/

namespace Assessment.Settings.File

open Assessment.Text

/-- A name in a file of settings, with its value if it has one. -/
abbrev Entry := List Char × Option (List Char)

/-- A line break. -/
def isBreak (c : Char) : Bool := c == '\n' || c == '\r'

/-- White space that is no line break. -/
def isInline (c : Char) : Bool := isBlank c && !isBreak c

/-- A character of a name without quotes. -/
def isNameChar (c : Char) : Bool := !(c == '=' || c == '#' || isBlank c)

/-- The text after the word `export`, if white space follows it, or else the text. -/
def skipExport (s : List Char) : List Char :=
  match after? "export".toList s with
  | some t => if (t.head?.map isInline).getD false then t.dropWhile isInline else s
  | none => s

/-- The text in quotes up to the first quote without a backslash before it, and the rest. Where every
quote has one, the last of them ends the text. `escaped` says that a backslash comes before. -/
def quotedText? (quote : Char) (escaped : Bool) : List Char → Option (List Char × List Char)
  | [] => none
  | c :: s =>
    if c = quote && !escaped then some ([], s)
    else
      match quotedText? quote (c == '\\') s with
      | some (inside, rest) => some (c :: inside, rest)
      | none => if c = quote then some ([], s) else none

/-- What an escape in double quotes stands for. -/
def escapeMeaning (c : Char) : Option Char :=
  [('\\', '\\'), ('\x27', '\x27'), ('\x22', '\x22'), ('a', '\x07'), ('b', '\x08'), ('f', '\x0c'),
    ('n', '\n'), ('r', '\r'), ('t', '\t'), ('v', '\x0b')].lookup c

/-- The text without escapes. `meaning` says what an escaped character stands for. -/
def unescape (meaning : Char → Option Char) : List Char → List Char
  | [] => []
  | '\\' :: c :: s =>
    match meaning c with
    | some d => d :: unescape meaning s
    | none => '\\' :: unescape meaning (c :: s)
  | c :: s => c :: unescape meaning s

/-- What an escape in single quotes stands for. -/
def singleEscapeMeaning (c : Char) : Option Char :=
  if c = '\\' || c = '\x27' then some c else none

/-- A value without quotes: without a comment and the white space at its end. -/
def plainValue : List Char → List Char
  | [] => []
  | c :: s =>
    if isBlank c && (s.dropWhile isBlank).head? == some '#' then []
    else c :: plainValue s

/-- A value, and the rest of the text. -/
def value? (s : List Char) : Option (List Char × List Char) :=
  match s with
  | '\x27' :: t =>
    (quotedText? '\x27' false t).map fun (inside, rest) => (unescape singleEscapeMeaning inside, rest)
  | '\x22' :: t =>
    (quotedText? '\x22' false t).map fun (inside, rest) => (unescape escapeMeaning inside, rest)
  | _ =>
    let line := s.takeWhile fun c => !isBreak c
    some (trimEnd (plainValue line), s.dropWhile fun c => !isBreak c)

/-- A name, and the rest of the text. -/
def name? (s : List Char) : Option (List Char × List Char) :=
  match s with
  | '\x27' :: t =>
    match cutAtChar? '\x27' t with
    | some (name, rest) => if name.isEmpty then none else some (name, rest)
    | none => none
  | _ =>
    let name := s.takeWhile isNameChar
    if name.isEmpty then none else some (name, s.dropWhile isNameChar)

/-- Nothing but a comment is left of the line. -/
def isLineEnd (s : List Char) : Bool :=
  match s.dropWhile isInline with
  | [] => true
  | c :: _ => isBreak c || c == '#'

/-- The text after the line that it starts in. -/
def afterLine (s : List Char) : List Char := (s.dropWhile fun c => !isBreak c).drop 1

/-- The entry at the start of a text, and the rest of the text from where reading it ended. -/
def entry (s : List Char) : Option Entry × List Char :=
  let start := skipExport s
  match name? start with
  | none => (none, start)
  | some (name, afterName) =>
    match afterName.dropWhile isInline with
    | '=' :: t =>
      match value? (t.dropWhile isInline) with
      | none => (none, t)
      | some (value, rest) => (if isLineEnd rest then some (name, some value) else none, rest)
    | other => (if isLineEnd other then some (name, none) else none, other)

theorem length_dropWhile_le (p : Char → Bool) (s : List Char) :
    (s.dropWhile p).length ≤ s.length :=
  (List.dropWhile_sublist p).length_le

theorem length_skipExport_le (s : List Char) : (skipExport s).length ≤ s.length := by
  unfold skipExport
  split
  · next t ht =>
    have h1 := length_of_after? ht
    have h2 := length_dropWhile_le isInline t
    split
    · omega
    · exact Nat.le_refl _
  · exact Nat.le_refl _

theorem length_of_quotedText? {quote : Char} {escaped : Bool} {s inside rest : List Char}
    (h : quotedText? quote escaped s = some (inside, rest)) : rest.length ≤ s.length := by
  induction s generalizing escaped inside with
  | nil => cases h
  | cons c s ih =>
    simp only [quotedText?] at h
    split at h
    · cases h
      simp
    · split at h
      · next i r hir =>
        cases h
        exact Nat.le_succ_of_le (ih hir)
      · split at h
        · cases h
          simp
        · cases h

theorem length_of_value? {s value rest : List Char} (h : value? s = some (value, rest)) :
    rest.length ≤ s.length := by
  unfold value? at h
  split at h
  · obtain ⟨⟨i, r⟩, hir, hp⟩ := Option.map_eq_some_iff.1 h
    cases hp
    exact Nat.le_succ_of_le (length_of_quotedText? hir)
  · obtain ⟨⟨i, r⟩, hir, hp⟩ := Option.map_eq_some_iff.1 h
    cases hp
    exact Nat.le_succ_of_le (length_of_quotedText? hir)
  · cases h
    exact length_dropWhile_le _ _

theorem length_of_name? {s name rest : List Char} (h : name? s = some (name, rest)) :
    rest.length ≤ s.length := by
  unfold name? at h
  split at h
  · split at h
    · next t _ n r hc =>
      have := length_of_cutAtChar? hc
      split at h
      · cases h
      · cases h
        simp only [List.length_cons]
        omega
    · cases h
  · dsimp only at h
    split at h
    · cases h
    · cases h
      exact length_dropWhile_le _ _

theorem length_entry_le (s : List Char) : (entry s).2.length ≤ s.length := by
  have h1 := length_skipExport_le s
  unfold entry
  dsimp only
  split
  · exact h1
  · next name afterName hn =>
    have h2 := length_of_name? hn
    have h3 := length_dropWhile_le isInline afterName
    split
    · next t ht =>
      rw [ht, List.length_cons] at h3
      split
      · simp only
        omega
      · next value rest hv =>
        have h4 := length_of_value? hv
        have h5 := length_dropWhile_le isInline t
        simp only
        omega
    · simp only
      omega

theorem length_afterLine_lt {s : List Char} (h : s ≠ []) : (afterLine s).length < s.length := by
  have h1 := length_dropWhile_le (fun c => !isBreak c) s
  have h2 := List.length_pos_iff.2 h
  unfold afterLine
  rw [List.length_drop]
  omega

/-- The entries of a file, in order. -/
def read (s : List Char) : List Entry :=
  match _h : s.dropWhile isBlank with
  | [] => []
  | c :: t =>
    let found := entry (c :: t)
    found.1.toList ++ read (afterLine found.2)
termination_by s.length
decreasing_by
  have h1 := length_dropWhile_le isBlank s
  have h2 := length_entry_le (c :: t)
  rw [_h] at h1
  by_cases he : (entry (c :: t)).2 = []
  · rw [he, afterLine]
    simp only [List.dropWhile_nil, List.drop_nil, List.length_nil]
    simp only [List.length_cons] at h1
    omega
  · have h3 := length_afterLine_lt he
    omega

end Assessment.Settings.File
