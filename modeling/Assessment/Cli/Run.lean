import Assessment.Cli.Arguments
import Assessment.Cli.FileName
import Assessment.Cli.Json
import Assessment.Highlight
import Assessment.Images
import Assessment.Log.Threshold
import Assessment.Report.Item
import Assessment.Responses
import Assessment.Scoring.Item
import Assessment.Settings.Basic
import Assessment.TextFile
import Assessment.Xml.Document

/-!
# The program

What the program does, given its arguments, its settings and the file that it is told to read: it
renders the item in one of the two views and writes the result as JSON. Items that cannot be rendered
are reported as messages, and the exit status says so.
-/

namespace Assessment.Cli

open Assessment.Text

/-- Why a file cannot be read. -/
inductive ReadError where
  /-- There is no such file. -/
  | notFound
  /-- It is a directory. -/
  | isDirectory
  /-- A part of its path is no directory. -/
  | notDirectory
  /-- A part of its path, or the path, is too long. -/
  | nameTooLong
  /-- It may not be read. -/
  | denied
  /-- Another reason, in words. -/
  | other (reason : List Char)
  deriving DecidableEq, Repr

/-- What is said of a file that cannot be read. -/
def ReadError.message : ReadError → List Char
  | notFound => "[Errno 2] No such file or directory".toList
  | isDirectory => "[Errno 21] Is a directory".toList
  | notDirectory => "[Errno 20] Not a directory".toList
  | nameTooLong => "[Errno 36] File name too long".toList
  | denied => "[Errno 13] Permission denied".toList
  | other reason => reason

/-- What the program has done. -/
structure Ended where
  /-- The exit status. -/
  status : Nat
  /-- What it has written. -/
  output : List Char := []

/-- What the program has done, or why it broke off, with the messages that were heard. -/
structure Outcome where
  /-- The messages. -/
  entries : List Log.Entry := []
  /-- The end. -/
  result : Except Failure Ended

/-- A message of the program about a file. -/
def complain (before path after : List Char) : Log.Entry :=
  ⟨.error, .cli, before ++ path ++ ": ".toList ++ after⟩

/-- The names of the styles of highlighting. -/
def styleNames : List (List Char) := [
  "abap".toList, "algol".toList, "algol_nu".toList, "arduino".toList, "autumn".toList,
  "borland".toList, "bw".toList, "coffee".toList, "colorful".toList, "default".toList,
  "dracula".toList, "emacs".toList, "friendly".toList, "friendly_grayscale".toList,
  "fruity".toList, "github-dark".toList, "gruvbox-dark".toList, "gruvbox-light".toList,
  "igor".toList, "inkpot".toList, "lightbulb".toList, "lilypond".toList, "lovelace".toList,
  "manni".toList, "material".toList, "monokai".toList, "murphy".toList, "native".toList,
  "nord".toList, "nord-darker".toList, "one-dark".toList, "paraiso-dark".toList,
  "paraiso-light".toList, "pastie".toList, "perldoc".toList, "rainbow_dash".toList, "rrt".toList,
  "sas".toList, "solarized-dark".toList, "solarized-light".toList, "staroffice".toList,
  "stata".toList, "stata-dark".toList, "stata-light".toList, "tango".toList, "trac".toList,
  "vim".toList, "vs".toList, "xcode".toList, "zenburn".toList]

/-! ## Records -/

/-- A rendered item as it is written, with HTML in it that may still be changed. -/
inductive Record where
  /-- In the scoring view. -/
  | scoring (item : Scoring.ScoringItem)
  /-- In the report view. -/
  | report (item : Report.ReportItem)

/-- A criterion as it is written. -/
def criterionJson (criterion : Item.Criterion) : Json :=
  .object [("index".toList, .index criterion.index), ("points".toList, .points criterion.points),
    ("text".toList, .text criterion.text)]

/-- A choice as it is written. -/
def choiceJson (choice : Item.Choice) : Json :=
  .object [("identifier".toList, .text choice.identifier), ("text".toList, .text choice.text)]

/-- A rendered item as it is written. -/
def Record.json : Record → Json
  | scoring item => .object [
    ("identifier".toList, .text item.identifier),
    ("title".toList, .text item.title),
    ("prompt_html".toList, .text item.prompt),
    ("rubric_criteria".toList, .array (item.criteria.map criterionJson)),
    ("choices".toList, .array (item.choices.map choiceJson)),
    ("candidate_explanation_html".toList,
      match item.explanation with
      | some html => .text html
      | none => .null)]
  | report item => .object [
    ("identifier".toList, .text item.identifier),
    ("title".toList, .text item.title),
    ("question_html".toList, .text item.question),
    ("rubric_criteria".toList, .array (item.criteria.map criterionJson)),
    ("item_max_score".toList, .points item.maxScore),
    ("choices".toList, .array (item.choices.map choiceJson))]

/-! ## Steps of the program

Each step returns the messages that it gave rise to, even if it fails. -/

/-- A step of the program. -/
abbrev Step (α : Type) := List Log.Entry × Except Failure α

/-- A step after another. -/
def Step.andThen {α β : Type} (first : Step α) (second : α → Step β) : Step β :=
  match first.2 with
  | .error failure => (first.1, .error failure)
  | .ok a => (first.1 ++ (second a).1, (second a).2)

/-- A step that says nothing. -/
def Step.silent {α : Type} (result : Except Failure α) : Step α := ([], result)

/-- The item in the scoring view, with its blanks filled. -/
def renderScoring (settings : Settings) (command : Command) (input : Xml.Input) : Step Record :=
  Step.andThen (Step.silent (Scoring.renderInput {} input)) fun item =>
  Step.andThen (([item.entry], .ok item) : Step Scoring.ScoringItem) fun item =>
  if command.responses.isEmpty then Step.silent (.ok (.scoring item))
  else
    match Responses.apply (.ok settings.htmlParserFeatures)
        (.many (command.responses.map .text)) item.prompt with
    | .error failure => ([], .error failure)
    | .ok (prompt, entries) => (entries, .ok (.scoring { item with prompt := prompt }))

/-- The highlighter, if code is to be highlighted. -/
def highlighter (settings : Settings) (command : Command) :
    Except Failure (Option Report.Highlighter) :=
  if command.highlight || settings.highlightCode then
    if styleNames.contains settings.highlightStyle then
      .ok (some (Highlight.highlighter settings.highlightInlineStyles))
    else .error (.unknownStyle settings.highlightStyle)
  else .ok none

/-- The identifier that the item must have: the given one, or the name of its file up to the first
point. -/
def expectedId (command : Command) : List Char :=
  match command.expectedId with
  | some identifier =>
    if identifier.isEmpty then FileName.stem command.item else identifier
  | none => FileName.stem command.item

/-- The item in the report view. -/
def renderReport (expected : List Char) (options : Report.Options) (input : Xml.Input) :
    Step Record :=
  let outcome := Report.renderInput options expected input
  match outcome.result with
  | .error failure => (outcome.entries, .error failure)
  | .ok item => (outcome.entries ++ [item.entry], .ok (.report item))

/-- The item in the view that is asked for. -/
def renderItem (settings : Settings) (command : Command) (source : List Char) : Step Record :=
  let input : Xml.Input := .document (.text source)
  match command.mode with
  | .scoring => renderScoring settings command input
  | .report =>
    Step.andThen (Step.silent (highlighter settings command)) fun highlighter =>
    renderReport (expectedId command) { highlighter := highlighter } input

/-- HTML with the sources of its images redirected. Where there is none, nothing is done. -/
def redirectHtml (settings : Settings) (base url html : List Char) : Step (List Char) :=
  if html.isEmpty then Step.silent (.ok html)
  else
    let start := Path.withoutSlashes url
    let options : Images.Options := {
      resolveUrl := fun path _ => start ++ '/' :: path
      builder := settings.htmlParserFeatures }
    match Images.redirect options base html with
    | .ok redirected => (redirected.entries, .ok redirected.html)
    | .error failure => ([], .error failure)

/-- The record with the sources of all images redirected. -/
def redirectImages (settings : Settings) (base url : List Char) : Record → Step Record
  | .scoring item =>
    Step.andThen (redirectHtml settings base url item.prompt) fun prompt =>
    match item.explanation with
    | none => Step.silent (.ok (.scoring { item with prompt := prompt }))
    | some explanation =>
      Step.andThen (redirectHtml settings base url explanation) fun explanation =>
      Step.silent (.ok (.scoring { item with prompt := prompt, explanation := some explanation }))
  | .report item =>
    Step.andThen (redirectHtml settings base url item.question) fun question =>
    Step.silent (.ok (.report { item with question := question }))

/-- The path of the item in its package. -/
def basePath (command : Command) : List Char :=
  match command.basePath with
  | some path => if path.isEmpty then FileName.normalize command.item else path
  | none => FileName.normalize command.item

/-- The record, finished and written. -/
def finishRecord (settings : Settings) (command : Command) (record : Record) : Step Ended :=
  let url := command.assetBaseUrl.getD settings.assetBaseUrl
  let finished :=
    if url.isEmpty then Step.silent (.ok record)
    else redirectImages settings (basePath command) url record
  Step.andThen finished fun record => Step.silent (.ok ⟨0, record.json.write 0 ++ ['\n']⟩)

/-- Renders the item and writes it. An item that cannot be rendered ends the program with a message. -/
def execute (settings : Settings) (command : Command) (source : List Char) : Step Ended :=
  let rendered := renderItem settings command source
  match rendered.2 with
  | .ok record => Step.andThen (rendered.1, .ok record) (finishRecord settings command)
  | .error failure =>
    if failure.isOfItem then
      (rendered.1 ++ [complain "Failed to render ".toList (FileName.normalize command.item)
        failure.message], .ok ⟨1, []⟩)
    else (rendered.1, .error failure)

/-- What a command does with the file that it names. -/
def runCommand (settings : Settings) (command : Command)
    (file : Except ReadError (List UInt8)) : Step Ended :=
  let path := FileName.normalize command.item
  if path.contains '\x00' then Step.silent (.error (.impossiblePath path))
  else
  match file with
  | .error error =>
    ([complain "Cannot read ".toList path
      (error.message ++ ": ".toList ++ quoted path)], .ok ⟨1, []⟩)
  | .ok bytes => Step.andThen (Step.silent (TextFile.decode path bytes)) (execute settings command)

/-- The path of the file that the program reads, if it reads one. -/
def itemPath? (arguments : List (List Char)) : Option (List Char) :=
  match Request.ofArguments arguments with
  | .command command => some (FileName.normalize command.item)
  | _ => none

/-- What the program does. `read` gives the content of a file by its path. -/
def run (settings : Except Failure Settings) (read : List Char → Except ReadError (List UInt8))
    (arguments : List (List Char)) : Outcome :=
  match Request.ofArguments arguments with
  | .help => { result := .ok ⟨0, []⟩ }
  | .wrong => { result := .ok ⟨2, []⟩ }
  | .command command =>
    match settings with
    | .error failure => { result := .error failure }
    | .ok settings =>
      match Log.threshold command.verbose (some (.name settings.logLevel)) with
      | .error failure => { result := .error failure }
      | .ok threshold =>
        let (entries, result) := runCommand settings command (read (FileName.normalize command.item))
        { entries := Log.heard threshold entries, result := result }

end Assessment.Cli
