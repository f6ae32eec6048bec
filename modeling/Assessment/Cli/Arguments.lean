import Assessment.Text.Cut
import Assessment.Text.Digit

/-!
# Arguments

The arguments of the program: a mode, the file of an item, and options. An option with a value takes it
from the next argument, or after an equals sign. Long options can be shortened as long as they are
clear, short ones can be written together. After two hyphens nothing is an option.

An argument that starts with a hyphen and is no known option is unknown, unless it is a negative number
or holds a space.
-/

namespace Assessment.Cli

open Assessment.Text

/-- The two views that the program renders. -/
inductive Mode where
  /-- The scoring view. -/
  | scoring
  /-- The report view. -/
  | report
  deriving DecidableEq, Repr

/-- The mode of a name. -/
def Mode.ofName? (name : List Char) : Option Mode :=
  if name = "scoring".toList then some .scoring
  else if name = "report".toList then some .report
  else none

/-- An option. -/
inductive Flag where
  /-- Explain the options. -/
  | help
  /-- The path of the item in its package. -/
  | basePath
  /-- What comes before the paths of images. -/
  | assetBaseUrl
  /-- Say everything. -/
  | verbose
  /-- The response for the next blank. -/
  | response
  /-- The identifier that the item must have. -/
  | expectedId
  /-- Highlight code. -/
  | highlight
  deriving DecidableEq, Repr

/-- The option takes a value. -/
def Flag.takesValue : Flag → Bool
  | help | verbose | highlight => false
  | basePath | assetBaseUrl | response | expectedId => true

/-- Options by the names that they go by. -/
abbrev Flags := List (List Char × Flag)

/-- The options before the mode. -/
def topFlags : Flags := [("-h".toList, .help), ("--help".toList, .help)]

/-- The options of both modes. -/
def commonFlags : Flags := topFlags ++ [
  ("--base-path".toList, .basePath), ("--asset-base-url".toList, .assetBaseUrl),
  ("-v".toList, .verbose), ("--verbose".toList, .verbose)]

/-- The options of a mode. -/
def Mode.flags : Mode → Flags
  | scoring => commonFlags ++ [("--response".toList, .response)]
  | report => commonFlags ++ [("--expected-id".toList, .expectedId), ("--highlight".toList, .highlight)]

/-- An argument by what it looks like. -/
inductive Word where
  /-- No option. -/
  | plain (s : List Char)
  /-- The two hyphens after which nothing is an option. -/
  | dashes
  /-- An option, with what is written together with it, and whether its name is the short one. -/
  | flag (flag : Flag) (attached : Option (List Char)) (short : Bool)
  /-- An unknown option. -/
  | unknown

/-- The argument is a negative number. -/
def isNegativeNumber (s : List Char) : Bool :=
  match s with
  | '-' :: t =>
    let whole := t.takeWhile isDigit
    match t.dropWhile isDigit with
    | [] => !whole.isEmpty
    | '.' :: fraction => !fraction.isEmpty && fraction.all isDigit
    | _ => false
  | _ => false

/-- The options that an argument may be short for, with what is attached. -/
def candidates (flags : Flags) (s : List Char) : List Word :=
  if startsWith "--".toList s then
    let (name, attached) := match cutAtChar? '=' s with
      | some (name, value) => (name, some value)
      | none => (s, none)
    (flags.filter fun entry => startsWith name entry.1).map fun entry =>
      .flag entry.2 attached false
  else
    (flags.filter fun entry => entry.1 == s.take 2).map fun entry =>
      .flag entry.2 (some (s.drop 2)) true

/-- The known option that an argument names, whole or before its equals sign. -/
def known? (flags : Flags) (s : List Char) : Option Word :=
  match flags.lookup s with
  | some flag => some (.flag flag none (!startsWith "--".toList s))
  | none =>
    match cutAtChar? '=' s with
    | some (name, value) =>
      (flags.lookup name).map fun flag => .flag flag (some value) (!startsWith "--".toList name)
    | none => none

/-- What an argument looks like. There is no answer if it may be short for several options. -/
def word? (flags : Flags) (s : List Char) : Option Word :=
  match s with
  | [] | ['-'] => some (.plain s)
  | '-' :: _ =>
    match known? flags s with
    | some word => some word
    | none =>
      match candidates flags s with
      | [word] => some word
      | [] => if isNegativeNumber s || s.contains ' ' then some (.plain s) else some .unknown
      | _ => none
  | _ => some (.plain s)

/-- What several arguments look like. -/
def words? (flags : Flags) : List (List Char) → Option (List Word)
  | [] => some []
  | s :: rest =>
    if s = "--".toList then some (.dashes :: rest.map .plain)
    else do
      let first ← word? flags s
      let more ← words? flags rest
      return first :: more

/-- What the program is asked to do. -/
structure Command where
  /-- The view. -/
  mode : Mode
  /-- The file of the item. -/
  item : List Char
  /-- The path of the item in its package, if it is given. -/
  basePath : Option (List Char) := none
  /-- What comes before the paths of images, if it is given. -/
  assetBaseUrl : Option (List Char) := none
  /-- Everything is to be said. -/
  verbose : Bool := false
  /-- The responses. -/
  responses : List (List Char) := []
  /-- The identifier that the item must have, if it is given. -/
  expectedId : Option (List Char) := none
  /-- Code is to be highlighted. -/
  highlight : Bool := false

/-- What arguments mean. -/
inductive Request where
  /-- The options are to be explained. -/
  | help
  /-- The arguments make no sense. -/
  | wrong
  /-- Something is to be done. -/
  | command (command : Command)

/-- What was understood so far. -/
structure Understood where
  /-- The command, without its item. -/
  command : Command
  /-- The file of the item. -/
  item : Option (List Char) := none
  /-- Something was not understood. -/
  strange : Bool := false

namespace Understood

/-- Takes an option without a value. -/
def take (u : Understood) : Flag → Understood
  | .verbose => { u with command := { u.command with verbose := true } }
  | .highlight => { u with command := { u.command with highlight := true } }
  | _ => u

/-- Takes an option with a value. -/
def takeValue (u : Understood) (value : List Char) : Flag → Understood
  | .basePath => { u with command := { u.command with basePath := some value } }
  | .assetBaseUrl => { u with command := { u.command with assetBaseUrl := some value } }
  | .expectedId => { u with command := { u.command with expectedId := some value } }
  | .response =>
    { u with command := { u.command with responses := u.command.responses ++ [value] } }
  | _ => u

/-- Something was not understood. -/
def withStrange (u : Understood) : Understood := { u with strange := true }

/-- What is meant when all arguments have been read. -/
def finish (u : Understood) : Request :=
  match u.item with
  | some item => if u.strange then .wrong else .command { u.command with item := item }
  | none => .wrong

end Understood

/-- Short options written together, after the first. There is no answer if one is unknown or takes a
value. -/
def cluster? (flags : Flags) : List Char → Option (List Flag)
  | [] => some []
  | c :: s =>
    match flags.lookup ['-', c] with
    | some flag => (cluster? flags s).map (flag :: ·)
    | none => none

/-- Reads the arguments after the mode. Two hyphens are understood only beside the item. -/
def readWords (flags : Flags) (u : Understood) : List Word → Request
  | [] => u.finish
  | .plain s :: .dashes :: rest =>
    match u.item with
    | none => readWords flags { u with item := some s } rest
    | some _ => readWords flags u.withStrange rest
  | .plain s :: rest =>
    match u.item with
    | none => readWords flags { u with item := some s } rest
    | some _ => readWords flags u.withStrange rest
  | .dashes :: rest =>
    readWords flags (if u.item.isSome then u.withStrange else u) rest
  | .unknown :: rest => readWords flags u.withStrange rest
  | .flag flag none _ :: rest =>
    if flag.takesValue then
      match rest with
      | .plain value :: rest => readWords flags (u.takeValue value flag) rest
      | _ => .wrong
    else if flag = .help then .help
    else readWords flags (u.take flag) rest
  | .flag flag (some value) short :: rest =>
    if flag.takesValue then readWords flags (u.takeValue value flag) rest
    else if short && !value.isEmpty then
      match cluster? flags value with
      | some more =>
        if (flag :: more).contains .help then .help
        else readWords flags ((flag :: more).foldl Understood.take u) rest
      | none => .wrong
    else .wrong

/-- Reads the arguments of a mode. `strange` says that something before the mode was not understood. -/
def readMode (strange : Bool) (mode : Mode) (arguments : List (List Char)) : Request :=
  match words? mode.flags arguments with
  | some words => readWords mode.flags ⟨{ mode := mode, item := [] }, none, strange⟩ words
  | none => .wrong

/-- Reads the arguments from the start. `strange` says that something was not understood. -/
def readArguments (strange : Bool) : List (List Char) → Request
  | [] => .wrong
  | s :: rest =>
    if s = "--".toList then .wrong
    else
      match word? topFlags s with
      | none => .wrong
      | some (.plain name) =>
        match Mode.ofName? name with
        | some mode => readMode strange mode rest
        | none => .wrong
      | some (.flag _ none _) => .help
      | some (.flag _ (some value) short) =>
        if short && !value.isEmpty && (cluster? topFlags value).isSome then .help else .wrong
      | some _ => readArguments true rest

/-- What the arguments of the program mean. -/
def Request.ofArguments (arguments : List (List Char)) : Request := readArguments false arguments

end Assessment.Cli
