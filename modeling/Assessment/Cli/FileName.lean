import Assessment.Text.Cut

/-!
# Names of files

The path of a file as it was given, without the parts that say nothing, and the name at its end.
-/

namespace Assessment.Cli.FileName

open Assessment.Text

/-- The parts of a path that say something. -/
def parts (path : List Char) : List (List Char) :=
  (splitOn '/' path).filter fun part => !(part.isEmpty || part == ['.'])

/-- The slashes at the start of a path: none, one, or exactly two. -/
def root (path : List Char) : List Char :=
  match path.takeWhile (· == '/') with
  | [] => []
  | ['/', '/'] => ['/', '/']
  | _ => ['/']

/-- The path without the parts that say nothing. -/
def normalize (path : List Char) : List Char :=
  let written := root path ++ joinWith ['/'] (parts path)
  if written.isEmpty then ['.'] else written

/-- The name of the file. -/
def name (path : List Char) : List Char := (parts path).getLast?.getD []

/-- The name of the file up to its first point. -/
def stem (path : List Char) : List Char := beforeChar '.' (name path)

end Assessment.Cli.FileName
