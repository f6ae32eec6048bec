/-!
# Messages

What the renderers and the program have to say besides their results. Messages are values: they are
returned, and whoever calls decides what to do with them.
-/

namespace Assessment.Log

/-- How much a message matters. -/
inductive Level where
  /-- Of use when something is looked into. -/
  | debug
  /-- A failure. -/
  | error
  deriving DecidableEq, Repr

/-- The number of a level. -/
def Level.number : Level → Int
  | .debug => 10
  | .error => 40

/-- The name of a level. -/
def Level.name : Level → String
  | .debug => "DEBUG"
  | .error => "ERROR"

/-- The part of the library that has something to say. -/
inductive Source where
  /-- The scoring view. -/
  | scoring
  /-- The report view. -/
  | report
  /-- The code highlighter. -/
  | highlight
  /-- The filling of blanks. -/
  | responses
  /-- The redirecting of images. -/
  | images
  /-- The program. -/
  | cli
  deriving DecidableEq, Repr

/-- The name above the names of all sources. -/
def rootName : String := "qti_render"

/-- The name of a source. -/
def Source.name : Source → String
  | .scoring => "qti_render.scoring"
  | .report => "qti_render.report"
  | .highlight => "qti_render.highlight"
  | .responses => "qti_render.responses"
  | .images => "qti_render.images"
  | .cli => "qti_render.cli"

/-- A message. -/
structure Entry where
  /-- How much it matters. -/
  level : Level
  /-- Where it comes from. -/
  source : Source
  /-- What it says. -/
  text : List Char

/-- A message on one line, after its level and its source. -/
def Entry.line (entry : Entry) : List Char :=
  entry.level.name.toList ++ ' ' :: entry.source.name.toList ++ ": ".toList ++ entry.text

end Assessment.Log
