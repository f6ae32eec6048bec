import Assessment.Log
import Assessment.Options.Field

/-!
# Options of the report view

The classes and the markup that reports use, and the highlighter for their code, if there is one.
-/

namespace Assessment.Report

open Assessment.Options

/-- What a highlighter answers: values by name, of which the language and the HTML count. -/
structure Reply where
  /-- The values. -/
  fields : Fields Empty
  /-- What the highlighter has to say. -/
  entries : List Log.Entry := []

/-- Highlights code. It is given the code and the language that was declared for it. -/
abbrev Highlighter := List Char → Option (List Char) → Reply

/-- The options of the report view. -/
structure Options where
  /-- What stands for a blank. -/
  cloze : List Char := "<input class=cloze-input type=text readonly aria-label=blank>".toList
  /-- The class around choices. -/
  choiceWrapperClass : List Char := "choice-interaction".toList
  /-- The classes of a preformatted block that holds code. -/
  codeBlockClass : List Char := "code-block hljs".toList
  /-- The classes of the code in such a block. -/
  codeBlockCodeClass : List Char := "code-block-code".toList
  /-- The classes of other code. -/
  inlineCodeClass : List Char := "code-inline".toList
  /-- The attribute that names the language of code. -/
  languageAttribute : List Char := "data-code-lang".toList
  /-- The class around the whole. -/
  bodyWrapperClass : List Char := "item-body".toList
  /-- The highlighter. -/
  highlighter : Option Highlighter := none

namespace Options

/-- The names of the fields. -/
def names : List String :=
  ["cloze_input_html", "choice_wrapper_class_name", "code_block_class_name",
    "code_block_code_class_name", "inline_code_class_name", "data_code_lang_attribute",
    "item_body_wrapper_class_name", "code_highlighter"]

/-- The options that are given by name. What is not given has its default. -/
def ofFields (fields : Fields Highlighter) : Except (List Problem) Options :=
  let defaults : Options := {}
  let cloze := fields.text "cloze_input_html" defaults.cloze
  let choice := fields.text "choice_wrapper_class_name" defaults.choiceWrapperClass
  let block := fields.text "code_block_class_name" defaults.codeBlockClass
  let blockCode := fields.text "code_block_code_class_name" defaults.codeBlockCodeClass
  let inlineCode := fields.text "inline_code_class_name" defaults.inlineCodeClass
  let language := fields.text "data_code_lang_attribute" defaults.languageAttribute
  let wrapper := fields.text "item_body_wrapper_class_name" defaults.bodyWrapperClass
  let highlighter := fields.optionalFunction "code_highlighter" some
  finish
    ⟨cloze.value, choice.value, block.value, blockCode.value, inlineCode.value, language.value,
      wrapper.value, highlighter.value⟩
    (cloze.problems ++ choice.problems ++ block.problems ++ blockCode.problems ++
      inlineCode.problems ++ language.problems ++ wrapper.problems ++ highlighter.problems ++
      fields.unknown names)

end Options

end Assessment.Report
