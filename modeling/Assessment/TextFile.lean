import Assessment.Failure
import Assessment.Text.Lines

/-!
# Text files

The text of a file from its bytes, which must be UTF-8. Every end of a line becomes one line feed.
-/

namespace Assessment.TextFile

/-- The text of the file with the given path. -/
def decode (path : List Char) (bytes : List UInt8) : Except Failure (List Char) :=
  match String.fromUTF8? ⟨bytes.toArray⟩ with
  | some s => .ok (Text.unixLines s.toList)
  | none => .error (.undecodable path)

end Assessment.TextFile
