import Assessment.Failure
import Assessment.Html.Document
import Assessment.Settings.Reference
import Assessment.Text.Lower
import Assessment.TextFile

/-!
# Settings

What the program takes from its environment: from variables whose names start with `QTI_RENDER_`, and
from a file of settings, which counts only where no variable is set. The case of the names does not
count.

Settings are read once and then kept, until they are dropped. Settings that cannot be read are not
kept.
-/

namespace Assessment

open Assessment.Options Assessment.Text

/-- The settings of the program. -/
structure Settings where
  /-- The name of the threshold for messages. -/
  logLevel : List Char := "INFO".toList
  /-- Code in reports is highlighted. -/
  highlightCode : Bool := false
  /-- The style of highlighting. -/
  highlightStyle : List Char := "default".toList
  /-- Highlighted code is styled in place and not by classes. -/
  highlightInlineStyles : Bool := false
  /-- What comes before the paths of images, if their sources are to be redirected. -/
  assetBaseUrl : List Char := []
  /-- The way to read HTML. -/
  htmlParserFeatures : List Char := Html.defaultBuilder

namespace Settings

/-- What the names of all settings start with. -/
def namePrefix : List Char := "qti_render_".toList

/-- The names of the fields. -/
def fieldNames : List String :=
  ["log_level", "highlight_code", "highlight_style", "highlight_inline_styles", "asset_base_url",
    "html_parser_features"]

/-- The usual names of the variables that settings are read from. -/
def variableNames : List (List Char) :=
  fieldNames.map fun field => (namePrefix ++ field.toList).map Char.toUpper

/-- The value that comes last under the name of a setting. -/
def get? (entries : List File.Entry) (field : String) : Option (List Char) :=
  (entries.reverse.find? fun entry => lower entry.1 == namePrefix ++ field.toList).bind (·.2)

/-- Words that mean yes. -/
def yesWords : List (List Char) :=
  ["true".toList, "1".toList, "yes".toList, "on".toList, "t".toList, "y".toList]

/-- Words that mean no. -/
def noWords : List (List Char) :=
  ["false".toList, "0".toList, "no".toList, "off".toList, "f".toList, "n".toList]

/-- The truth value that a word means. The case of the word does not count. -/
def truth? (s : List Char) : Option Bool :=
  let word := s.map Char.toLower
  if yesWords.contains word then some true
  else if noWords.contains word then some false
  else none

/-- The truth value of a setting. -/
def truth (entries : List File.Entry) (field : String) (default : Bool) : Checked Bool :=
  match get? entries field with
  | none => ⟨default, []⟩
  | some s =>
    match truth? s with
    | some b => ⟨b, []⟩
    | none => ⟨default, [⟨field.toList, .notTruth⟩]⟩

/-- The settings that entries make. Of several entries under one name the last counts. -/
def ofEntries (entries : List File.Entry) : Except (List Problem) Settings :=
  let text (field : String) (default : List Char) := (get? entries field).getD default
  let defaults : Settings := {}
  let code := truth entries "highlight_code" defaults.highlightCode
  let inlineStyles := truth entries "highlight_inline_styles" defaults.highlightInlineStyles
  finish {
    logLevel := text "log_level" defaults.logLevel
    highlightCode := code.value
    highlightStyle := text "highlight_style" defaults.highlightStyle
    highlightInlineStyles := inlineStyles.value
    assetBaseUrl := text "asset_base_url" defaults.assetBaseUrl
    htmlParserFeatures := text "html_parser_features" defaults.htmlParserFeatures }
    (code.problems ++ inlineStyles.problems)

/-- What settings are read from. -/
structure Sources where
  /-- The variables that are set, with their values. -/
  environment : List (List Char × List Char) := []
  /-- The bytes of the file of settings, if there is one. -/
  file : Option (List UInt8) := none

/-- The name of the file of settings. -/
def fileName : List Char := ".env".toList

/-- The text of the file of settings. It is empty if there is no file. -/
def File.text (file : Option (List UInt8)) : Except Failure (List Char) :=
  TextFile.decode fileName (file.getD [])

/-- The settings from variables and from a file. -/
def load (sources : Sources) : Except Failure Settings := do
  let text ← File.text sources.file
  let environment : List File.Entry :=
    sources.environment.map fun (name, value) => (name, some value)
  (ofEntries (File.resolve environment (File.read text) ++ environment)).mapError .invalid

/-- The settings that are kept, if they were read before. -/
abbrev Kept := Option Settings

/-- The settings, and what is kept afterwards. -/
def get (kept : Kept) (sources : Sources) : Except Failure Settings × Kept :=
  match kept with
  | some settings => (.ok settings, kept)
  | none =>
    match load sources with
    | .ok settings => (.ok settings, some settings)
    | .error failure => (.error failure, none)

end Settings

end Assessment
