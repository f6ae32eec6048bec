import Assessment.Text.Blank
import Assessment.Text.Cut

/-!
# Paths in a package

Items refer to other files of their package by paths with slashes. A reference is resolved against the
path of the file that holds it: by the segments of that file's directory and then its own, where `..`
takes the last segment away.

A path that starts with a slash is rooted, and nothing is above its root. Two slashes at the start are
kept as two; more are one.
-/

namespace Assessment.Path

open Assessment.Text

/-- The segment that means the same directory. -/
def here : List Char := ['.']

/-- The segment that means the directory above. -/
def up : List Char := ['.', '.']

/-- Walks segments from a stack of segments, the last first. `rooted` says that nothing is above the
empty stack. Where nothing can be taken away, the step up is kept. -/
def walk (rooted : Bool) (stack : List (List Char)) : List (List Char) → List (List Char)
  | [] => stack
  | segment :: segments =>
    if segment.isEmpty || segment == here then walk rooted stack segments
    else if segment == up then
      match stack with
      | [] => walk rooted (if rooted then [] else [up]) segments
      | top :: below =>
        walk rooted (if top == up then up :: top :: below else below) segments
    else walk rooted (segment :: stack) segments

/-- The slashes that a path keeps at its start. -/
def root : List Char → List Char
  | '/' :: '/' :: '/' :: _ => ['/']
  | '/' :: '/' :: _ => ['/', '/']
  | '/' :: _ => ['/']
  | _ => []

/-- The path without steps that lead nowhere. No path goes on after a NUL. -/
def normalize (path : List Char) : List Char :=
  let segments := walk (!(root path).isEmpty) [] (splitOn '/' path)
  let walked := beforeChar '\x00' (root path ++ joinWith ['/'] segments.reverse)
  if walked.isEmpty || path.head? == some '\x00' then here else walked

/-- The text without the slashes that it ends with. -/
def withoutSlashes (s : List Char) : List Char := (s.reverse.dropWhile (· == '/')).reverse

/-- The directory of a file. -/
def directory (path : List Char) : List Char :=
  let start := (path.reverse.dropWhile (· != '/')).reverse
  if start.all (· == '/') then start else withoutSlashes start

/-- A path from a directory on. A rooted path starts anew. -/
def join (directory path : List Char) : List Char :=
  if path.head? == some '/' then path
  else if directory.isEmpty || directory.getLast? == some '/' then directory ++ path
  else directory ++ '/' :: path

/-- The text with slashes for backslashes. -/
def withSlashes (s : List Char) : List Char := replaceChar '\\' ['/'] s

/-- The path that a reference names, without the white space around it and what does not belong to a
path: the parts from the first number sign and from the first question mark. -/
def reference (src : List Char) : List Char :=
  beforeChar '?' (beforeChar '#' (withSlashes (trim src)))

/-- The path leads out of the package, or to the package itself. -/
def isOutside (path : List Char) : Bool :=
  path == up || startsWith (up ++ ['/']) path || path == here

/-- The path that a reference in a file leads to. There is none if the reference is empty or leads
out of the package. -/
def resolve (file src : List Char) : Option (List Char) :=
  let reference := reference src
  if reference.isEmpty then none
  else
    let path := normalize (join (directory (withSlashes file)) reference)
    if isOutside path then none else some path

/-! ## References out of the package -/

/-- A letter where the case of letters does not count. Some letters outside of the ASCII range are
taken for letters in it. -/
def isSchemeLetter (c : Char) : Bool :=
  c.isAlpha || c == '\u0130' || c == '\u0131' || c == '\u017F' || c == '\u212A'

/-- The text starts with two slashes, or with letters, a colon and two slashes. -/
def hasAuthority (src : List Char) : Bool :=
  let scheme := src.takeWhile isSchemeLetter
  startsWith "//".toList src ||
    (!scheme.isEmpty && startsWith "://".toList (src.dropWhile isSchemeLetter))

/-- The source is no path in the package: it names a host, holds the data itself, or is rooted. -/
def isExternal (src : List Char) : Bool :=
  hasAuthority src || startsWith "data:".toList src || startsWith ['/'] src

end Assessment.Path
