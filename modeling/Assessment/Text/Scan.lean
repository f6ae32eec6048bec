/-!
# Recognisers and their matches in a text

A recogniser looks at the start of a text: it either recognises something there, and says what
follows it, or it does not. What it recognises is never empty. `Recognizer.pieces` cuts a whole text
into the leftmost matches that do not overlap and the characters between them. Every search and every
replacement of the library is a map or a filter over these pieces.

Main statements: `Recognizer.pieces_of_run` and `Recognizer.pieces_of_not_run`, the two equations
that describe the cut.
-/

namespace Assessment.Text

/-- A way to recognise a non-empty beginning of a text. -/
structure Recognizer (α : Type) where
  /-- What is recognised at the start of a text, and the rest of the text. -/
  run : List Char → Option (α × List Char)
  /-- What is recognised is not empty. -/
  shorter : ∀ {s : List Char} {a : α} {r : List Char}, run s = some (a, r) → r.length < s.length

/-- A piece of a text: one character, or something recognised. -/
inductive Piece (α : Type) where
  /-- A character at which nothing was recognised. -/
  | char (c : Char)
  /-- Something recognised. -/
  | found (a : α)
  deriving DecidableEq, Repr

namespace Recognizer

variable {α : Type} (p : Recognizer α)

/-- The leftmost matches that do not overlap, and the characters between them. -/
def pieces : List Char → List (Piece α)
  | [] => []
  | c :: s =>
    match _h : p.run (c :: s) with
    | some (a, r) => .found a :: pieces r
    | none => .char c :: pieces s
termination_by s => s.length
decreasing_by
  · exact p.shorter _h
  · simp

/-- Everything recognised in a text, from left to right. -/
def findAll (s : List Char) : List α :=
  (p.pieces s).filterMap fun
    | .char _ => none
    | .found a => some a

/-- The first thing recognised in a text. -/
def find? (s : List Char) : Option α := (p.findAll s).head?

/-- The text with everything recognised in it replaced. -/
def replace (f : α → List Char) (s : List Char) : List Char :=
  (p.pieces s).flatMap fun
    | .char c => [c]
    | .found a => f a

/-- The text with the first thing recognised in it replaced, or nothing if there is none. -/
def replaceFirst? (f : α → List Char) : List Char → Option (List Char)
  | [] => none
  | c :: s =>
    match p.run (c :: s) with
    | some (a, r) => some (f a ++ r)
    | none => (replaceFirst? f s).map (c :: ·)

@[simp] theorem pieces_nil : p.pieces [] = [] := by
  rw [pieces]

/-- What is recognised at the start is the first piece. -/
theorem pieces_of_run {s r : List Char} {a : α} (h : p.run s = some (a, r)) :
    p.pieces s = .found a :: p.pieces r := by
  cases s with
  | nil => exact absurd (p.shorter h) (by simp)
  | cons c s =>
    rw [pieces]
    split
    · next h' => rw [h] at h'; cases h'; rfl
    · next h' => rw [h] at h'; cases h'

/-- A character at which nothing is recognised is a piece of its own. -/
theorem pieces_of_not_run {c : Char} {s : List Char} (h : p.run (c :: s) = none) :
    p.pieces (c :: s) = .char c :: p.pieces s := by
  rw [pieces]
  split
  · next h' => rw [h] at h'; cases h'
  · rfl

end Recognizer

end Assessment.Text
