import Assessment.Log
import Assessment.Number.Decimal
import Assessment.Options.Field

/-!
# Options of the scoring view

What stands for a blank and for a long answer in the scoring view, and the classes it uses.
-/

namespace Assessment.Scoring

open Assessment.Options

/-- What stands for the blank with the given number unless told otherwise: a text input that cannot
be edited, six characters wide. -/
def defaultBlank (index : Int) : List Char :=
  "<input class=\"qti-blank-input\" data-blank=\"".toList ++ Number.signed index ++
    "\" type=\"text\" size=\"6\" disabled aria-label=\"blank ".toList ++ Number.signed index ++
    "\" />".toList

/-- What stands for a long answer unless told otherwise. -/
def defaultExtendedText : List Char :=
  "<span class=\"qti-extended-placeholder\">（記述）</span>".toList

/-- The options of the scoring view. -/
structure Options where
  /-- What stands for the blank with the given number. -/
  blank : Nat → List Char := fun index => defaultBlank index
  /-- What stands for a long answer. -/
  extendedText : List Char := defaultExtendedText
  /-- The class of a list of choices, as it is written between quotes. -/
  choiceListClass : List Char := "qti-choice-list".toList
  /-- The class of a preformatted block with blanks, as it is written between quotes. -/
  preWithBlanksClass : List Char := "qti-pre-with-blanks".toList

/-- A function that can be given as an option. -/
inductive Callback where
  /-- It takes the number of a blank. -/
  | numbered (f : Nat → List Char)
  /-- It takes nothing. -/
  | constant (s : List Char)

namespace Callback

/-- The function of a number. -/
def numbered? : Callback → Option (Nat → List Char)
  | numbered f => some f
  | constant _ => none

/-- The function of nothing. -/
def constant? : Callback → Option (List Char)
  | numbered _ => none
  | constant s => some s

end Callback

namespace Options

/-- The names of the fields. -/
def names : List String :=
  ["blank_renderer", "extended_text_renderer", "choice_list_class_name",
    "pre_with_blanks_class_name"]

/-- The options that are given by name. What is not given has its default. -/
def ofFields (fields : Fields Callback) : Except (List Problem) Options :=
  let defaults : Options := {}
  let blank := fields.function "blank_renderer" Callback.numbered? defaults.blank
  let extended :=
    fields.function "extended_text_renderer" Callback.constant? defaults.extendedText
  let list := fields.text "choice_list_class_name" defaults.choiceListClass
  let pre := fields.text "pre_with_blanks_class_name" defaults.preWithBlanksClass
  finish ⟨blank.value, extended.value, list.value, pre.value⟩
    (blank.problems ++ extended.problems ++ list.problems ++ pre.problems ++ fields.unknown names)

end Options

end Assessment.Scoring
