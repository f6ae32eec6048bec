import Assessment.Failure
import Assessment.Markup.Entity
import Assessment.Markup.RawTag
import Assessment.Report.Language
import Assessment.Report.Options

/-!
# Code in reports

Reports are finished by three passes over their HTML. They work on the text, because what a
highlighter answers is text that was never a tree. What they do not recognise they leave as it is.

* `mergeFragments` joins the pieces of code in each preformatted block into one.
* `decorateBlocks` marks each block of code with classes and a language, and highlights it.
* `decorateInline` marks all other code.
-/

namespace Assessment.Report

open Assessment.Options Assessment.Text Assessment.Markup

/-! ## Joining fragments -/

/-- A preformatted block in a text. -/
structure PreBlock where
  /-- The start tag. -/
  opening : List Char
  /-- The text up to the next end tag. -/
  inside : List Char
  deriving DecidableEq, Repr

/-- The end tag of a preformatted block. -/
def preEnd : List Char := "</pre>".toList

/-- The end tag of code. -/
def codeEnd : List Char := "</code>".toList

/-- The preformatted block that a text starts with, and the rest of the text. -/
def preBlock? (s : List Char) : Option (PreBlock × List Char) :=
  match RawTag.startTag? "pre" s with
  | some (opening, t) => (cutAt? preEnd t).map fun (inside, rest) => (⟨opening, inside⟩, rest)
  | none => none

/-- A preformatted block is a start tag, and what comes after it up to the next end tag. -/
theorem exists_of_preBlock? {s rest : List Char} {block : PreBlock}
    (h : preBlock? s = some (block, rest)) :
    ∃ t, RawTag.startTag? "pre" s = some (block.opening, t) ∧
      cutAt? preEnd t = some (block.inside, rest) := by
  unfold preBlock? at h
  split at h
  · next opening t hopening =>
    obtain ⟨⟨inside, r⟩, hcut, hp⟩ := Option.map_eq_some_iff.1 h
    cases hp
    exact ⟨t, hopening, hcut⟩
  · cases h

theorem length_of_preBlock? {s rest : List Char} {block : PreBlock}
    (h : preBlock? s = some (block, rest)) : rest.length < s.length := by
  obtain ⟨t, hopening, hcut⟩ := exists_of_preBlock? h
  have h1 := RawTag.length_of_tag? hopening
  have h2 := length_of_cutAt? hcut
  omega

/-- Recognises preformatted blocks. -/
def preBlock : Recognizer PreBlock := ⟨preBlock?, length_of_preBlock?⟩

/-- Recognises start tags of code. -/
def codeStart : Recognizer (List Char) := RawTag.startTag "code"

/-- Recognises start tags and end tags of code. -/
def codeTag : Recognizer (List Char) := RawTag.eitherTag "code"

/-- The block with its code in one piece, which has the first start tag of code in the block. -/
def PreBlock.merged (block : PreBlock) : List Char :=
  match codeStart.find? block.inside with
  | some start =>
    block.opening ++ start ++ codeTag.replace (fun _ => []) block.inside ++ codeEnd ++ preEnd
  | none => block.opening ++ block.inside ++ preEnd

/-- The HTML with the code of each preformatted block in one piece. -/
def mergeFragments (html : List Char) : List Char := preBlock.replace PreBlock.merged html

/-! ## Blocks of code -/

/-- A preformatted block that starts with code. -/
structure CodeBlock where
  /-- The start tag of the block. -/
  preStart : List Char
  /-- The white space between the two start tags. -/
  space : List Char
  /-- The start tag of the code. -/
  codeStart : List Char
  /-- The text up to the next end tag of code. -/
  content : List Char
  deriving DecidableEq, Repr

/-- The block of code that a text starts with, and the rest of the text. -/
def codeBlock? (s : List Char) : Option (CodeBlock × List Char) :=
  match RawTag.startTag? "pre" s with
  | none => none
  | some (preStart, t) =>
    match RawTag.startTag? "code" (t.dropWhile isBlank) with
    | none => none
    | some (start, u) =>
      (cutAt? codeEnd u).map fun (content, rest) =>
        (⟨preStart, t.takeWhile isBlank, start, content⟩, rest)

/-- A block of code is two start tags with white space between them, and what comes after them up to the
next end tag of code. -/
theorem exists_of_codeBlock? {s rest : List Char} {block : CodeBlock}
    (h : codeBlock? s = some (block, rest)) :
    ∃ t u, RawTag.startTag? "pre" s = some (block.preStart, t) ∧ t.takeWhile isBlank = block.space ∧
      RawTag.startTag? "code" (t.dropWhile isBlank) = some (block.codeStart, u) ∧
      cutAt? codeEnd u = some (block.content, rest) := by
  unfold codeBlock? at h
  split at h
  · cases h
  · next preStart t hpre =>
    split at h
    · cases h
    · next start u hstart =>
      obtain ⟨⟨content, r⟩, hcut, hp⟩ := Option.map_eq_some_iff.1 h
      cases hp
      exact ⟨t, u, hpre, rfl, hstart, hcut⟩

theorem length_of_codeBlock? {s rest : List Char} {block : CodeBlock}
    (h : codeBlock? s = some (block, rest)) : rest.length < s.length := by
  obtain ⟨t, u, hpre, -, hstart, hcut⟩ := exists_of_codeBlock? h
  have h1 := RawTag.length_of_tag? hpre
  have h2 := RawTag.length_of_tag? hstart
  have h3 := (List.dropWhile_sublist isBlank (l := t)).length_le
  have h4 := length_of_cutAt? hcut
  omega

/-- Recognises blocks of code. -/
def codeBlock : Recognizer CodeBlock := ⟨codeBlock?, length_of_codeBlock?⟩

/-- The start tag with classes and a language. -/
def taggedStart (options : Options) (classes language start : List Char) : List Char :=
  StartTag.setAttribute options.languageAttribute language
    (StartTag.addClasses start (words classes))

namespace CodeBlock

/-- The language that the block declares. -/
def declared (block : CodeBlock) : Option (List Char) := Language.ofTag block.codeStart

/-- The language of the block by what it declares. -/
def language (block : CodeBlock) : List Char :=
  match block.declared with
  | some language => Language.normalize language
  | none => Language.plain

/-- The block marked with a language, with the given text inside. -/
def tagged (options : Options) (language content : List Char) (block : CodeBlock) : List Char :=
  taggedStart options options.codeBlockClass language block.preStart ++ block.space ++
    taggedStart options options.codeBlockCodeClass language block.codeStart ++ content ++ codeEnd

/-- The code of the block, without references. -/
def code (block : CodeBlock) : List Char := Entity.decode block.content

end CodeBlock

/-! ## Highlighting -/

/-- What a highlighter was asked: the code, and the language declared for it. -/
structure Call where
  /-- The code. -/
  code : List Char
  /-- The declared language. -/
  language : Option (List Char)
  deriving DecidableEq, Repr

/-- The HTML that was made, or why it was not, with what happened on the way. -/
structure Outcome (α : Type) where
  /-- What highlighters were asked, in order. -/
  calls : List Call := []
  /-- What was said, in order. -/
  entries : List Log.Entry := []
  /-- What was made. -/
  result : Except Failure α

namespace Outcome

variable {α β : Type}

/-- What was made, changed afterwards. -/
def map (f : α → β) (outcome : Outcome α) : Outcome β :=
  { outcome with result := outcome.result.map f }

/-- Something more that happened before. -/
def after (calls : List Call) (entries : List Log.Entry) (outcome : Outcome α) : Outcome α :=
  { outcome with calls := calls ++ outcome.calls, entries := entries ++ outcome.entries }

end Outcome

/-- The language and the HTML of a reply, if it has them in the right form. -/
def Reply.read (reply : Reply) : Except (List Problem) (Option (List Char) × List Char) :=
  let language := reply.fields.optionalText "language"
  let html := reply.fields.text "html" []
  finish (language.value, html.value) (language.problems ++ html.problems)

/-- The block as a reply wants it. Where the reply names no language or has no HTML, the block keeps
its own. -/
def CodeBlock.highlighted (options : Options) (language : Option (List Char)) (html : List Char)
    (block : CodeBlock) : List Char :=
  block.tagged options ((language.map Language.normalize).getD block.language)
    (if html.isEmpty then block.content else html)

/-- The text of which the pieces are given, with its blocks highlighted one after the other. A reply
that is not in the right form ends it. -/
def highlightPieces (options : Options) (highlighter : Highlighter) :
    List (Piece CodeBlock) → Outcome (List Char)
  | [] => { result := .ok [] }
  | .char c :: pieces => (highlightPieces options highlighter pieces).map (c :: ·)
  | .found block :: pieces =>
    let call : Call := ⟨block.code, block.declared⟩
    let reply := highlighter call.code call.language
    match reply.read with
    | .ok (language, html) =>
      ((highlightPieces options highlighter pieces).map
        (block.highlighted options language html ++ ·)).after [call] reply.entries
    | .error problems => ⟨[call], reply.entries, .error (.invalid problems)⟩

/-- The HTML with its blocks of code marked, and highlighted if there is a highlighter. -/
def decorateBlocks (options : Options) (html : List Char) : Outcome (List Char) :=
  match options.highlighter with
  | none =>
    { result := .ok
        (codeBlock.replace (fun block => block.tagged options block.language block.content) html) }
  | some highlighter => highlightPieces options highlighter (codeBlock.pieces html)

/-! ## Other code -/

/-- The start tag is marked as that of code in a block. -/
def isBlockCode (options : Options) (start : List Char) : Bool :=
  let classes := words options.codeBlockCodeClass
  !classes.isEmpty && classes.all (StartTag.hasClass start)

/-- The start tag of code, marked unless it is that of code in a block. -/
def inlineStart (options : Options) (start : List Char) : List Char :=
  if isBlockCode options start then start
  else
    let marked := StartTag.addClasses start (words options.inlineCodeClass)
    match Language.ofTag start with
    | some language =>
      StartTag.setAttribute options.languageAttribute (Language.normalize language) marked
    | none => marked

/-- The HTML with its other code marked. -/
def decorateInline (options : Options) (html : List Char) : List Char :=
  codeStart.replace (inlineStart options) html

/-- All three passes. -/
def finishHtml (options : Options) (html : List Char) : Outcome (List Char) :=
  (decorateBlocks options (mergeFragments html)).map (decorateInline options)

end Assessment.Report
