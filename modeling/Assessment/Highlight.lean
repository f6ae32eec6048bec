import Assessment.Report.Options
import Assessment.Text.Blank
import Assessment.Text.Cut
import Assessment.Text.Lines
import Assessment.Text.Lower
import Assessment.Text.Quoted
import Assessment.Html.Print

/-!
# Highlighting

A highlighter for two kinds of code. Plain text is only escaped. The output of a program is put into
spans, line by line. Code in any other language is taken for plain text.

Code is tidied first: lines end in the usual way, a byte order mark is left out, and so are the line
breaks at both ends. What comes out ends in a line break exactly if the code does.
-/

namespace Assessment.Highlight

open Assessment.Text

/-- A kind of code. -/
inductive Lexer where
  /-- Plain text. -/
  | text
  /-- What a program has written. -/
  | output
  deriving DecidableEq, Repr

/-- The name under which a kind of code is shown. -/
def Lexer.language : Lexer → List Char
  | text => "plain".toList
  | output => "output".toList

/-- What is said when nothing is known of a language. -/
def unknownEntry (language : List Char) : Log.Entry :=
  ⟨.debug, .highlight,
    "No lexer for language ".toList ++ quoted language ++ ", using plain text".toList⟩

/-- The kind of code for a declared language, and what is said of it. -/
def Lexer.ofLanguage (language : Option (List Char)) : Lexer × List Log.Entry :=
  match language with
  | none => (text, [])
  | some name =>
    let known := lower (trim name)
    if name.isEmpty || known = "text".toList then (text, [])
    else if known = "output".toList then (output, [])
    else (text, [unknownEntry name])

/-- A line feed. -/
def isNewline (c : Char) : Bool := c == '\n'

/-- The code in tidy form, without a line break at its end. -/
def tidy (code : List Char) : List Char :=
  let lines := unixLines ((after? ['\uFEFF'] code).getD code)
  ((lines.dropWhile isNewline).reverse.dropWhile isNewline).reverse

/-- A line of what a program has written. -/
def outputLine (inlineStyles : Bool) (line : List Char) : List Char :=
  if line.isEmpty then []
  else
    (if inlineStyles then "<span style=\"color: #717171\">" else "<span class=\"go\">").toList ++
      Html.escapeText line ++ "</span>".toList

/-- Tidy code as HTML. -/
def Lexer.render (inlineStyles : Bool) (lexer : Lexer) (code : List Char) : List Char :=
  match lexer with
  | text => Html.escapeText code
  | output => joinWith ['\n'] ((splitOn '\n' code).map (outputLine inlineStyles))

/-- Highlighted code. -/
structure Highlighted where
  /-- The language under which it is shown. -/
  language : List Char
  /-- The HTML. -/
  html : List Char
  /-- What was said. -/
  entries : List Log.Entry

/-- Highlights code of a declared language. -/
def highlight (inlineStyles : Bool) (code : List Char) (language : Option (List Char)) :
    Highlighted :=
  let (lexer, entries) := Lexer.ofLanguage language
  let html := lexer.render inlineStyles (tidy code)
  ⟨lexer.language, if code.getLast? == some '\n' then html ++ ['\n'] else html, entries⟩

/-- The highlighter for reports. -/
def highlighter (inlineStyles : Bool) : Report.Highlighter := fun code language =>
  let highlighted := highlight inlineStyles code language
  { fields := [("language".toList, .text highlighted.language),
      ("html".toList, .text highlighted.html)]
    entries := highlighted.entries }

end Assessment.Highlight
