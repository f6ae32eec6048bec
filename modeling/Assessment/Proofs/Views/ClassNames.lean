import Assessment.Proofs.Report.WrapperClasses
import Assessment.Proofs.Scoring.ListClasses
import Assessment.Proofs.Views.Blanks

/-!
# Proofs: class names stay in their attributes

The classes that a view is told to use change the attributes of its elements and nothing else that can be
seen (`class_names_stay_in_their_attributes`). The view for scorers writes them as they are, so this is true
of classes without double quotes only; reports escape them, so there it is true of all.
-/

namespace Assessment.Views

open Assessment.Item Assessment.Xml
open Assessment.Html (Outline outline?)
open Assessment.Report (findBody wrapped WithoutEqualsSigns)
open Assessment.Scoring (classed QuoteFree)

/-- The prompt of an item is rendered from its body. -/
theorem exists_prompt {options : Scoring.Options} {root body : Element}
    (h : Scoring.itemBody? root = some body) :
    ∃ item, Scoring.render options root = .ok item ∧
      item.prompt = (Scoring.renderNodes options Spacing.root 0 body.children).html := by
  unfold Scoring.render
  rw [h]
  exact ⟨_, rfl, rfl⟩

/-- Every prompt of an item looks like the one with the default classes, if its classes hold no double
quote. Every question of a report of the item looks like the one with the default classes, whatever its
classes are, if no value of an element named like code holds an equals sign. -/
theorem class_names_stay_in_their_attributes (root : Element) :
    (∀ {body : Element} {choiceList preWithBlanks : List Char}, Scoring.itemBody? root = some body →
      QuoteFree choiceList preWithBlanks →
      ∃ scored other shape, Scoring.render {} root = .ok scored ∧
        Scoring.render (classed choiceList preWithBlanks) root = .ok other ∧
        outline? scored.prompt = some shape ∧ outline? other.prompt = some shape) ∧
    ∀ {source : Source} {expected : List Char} {body : Element} (choices whole : List Char),
      readDocument source = .ok root → findBody expected root = .ok body → WithoutEqualsSigns body →
      ∃ reported other shape, (Report.render {} expected root).result = .ok reported ∧
        (Report.render (wrapped choices whole) expected root).result = .ok other ∧
        outline? reported.question = some shape ∧ outline? other.question = some shape := by
  refine ⟨fun {body choiceList preWithBlanks} hbody hfree => ?_,
    fun choices whole hread hbody hvalues => ?_⟩
  · obtain ⟨scored, hscored, hprompt⟩ := @exists_prompt {} _ _ hbody
    obtain ⟨other, hother, hclassed⟩ := @exists_prompt (classed choiceList preWithBlanks) _ _ hbody
    obtain ⟨shape, hdefault, hshape⟩ :=
      Scoring.exists_outline_of_classes Scoring.quoteFree_default hfree 0 body.children
    exact ⟨scored, other, shape, hscored, hother, hprompt ▸ hdefault, hclassed ▸ hshape⟩
  · exact Report.exists_outline_of_wrappers hread hbody hvalues
      ({} : Report.Options).choiceWrapperClass ({} : Report.Options).bodyWrapperClass choices whole

/-- A document with choices, and with a blank in a preformatted block. -/
def classesSample : Source := .text <|
  "<i identifier='q'><qti-item-body><qti-pre>a<qti-text-entry-interaction/></qti-pre>".toList ++
    "<qti-choice-interaction><qti-simple-choice identifier='A'>b</qti-simple-choice>".toList ++
    "</qti-choice-interaction></qti-item-body></i>".toList

theorem class_names_stay_in_their_attributes_classesSample :
    ∃ root body, readDocument classesSample = .ok root ∧ findBody ['q'] root = .ok body ∧
      (∃ scored other shape, Scoring.render {} root = .ok scored ∧
        Scoring.render (classed "<b>&".toList "> a".toList) root = .ok other ∧
        outline? scored.prompt = some shape ∧ outline? other.prompt = some shape) ∧
      ∃ reported other shape, (Report.render {} ['q'] root).result = .ok reported ∧
        (Report.render (wrapped [] "\"><b>".toList) ['q'] root).result = .ok other ∧
        outline? reported.question = some shape ∧ outline? other.question = some shape := by
  have hsample : ((Report.bodyOf? ['q'] classesSample).map fun body =>
      decide (WithoutEqualsSigns body)) = some true := by
    unfold classesSample
    -- Literals are evaluated faster as lists of characters.
    repeat rewrite [String.toList_ofList]
    decide +kernel
  obtain ⟨root, body, hread, hbody, hdecided⟩ := Report.exists_of_bodyOf? hsample
  have hfree : QuoteFree "<b>&".toList "> a".toList := ⟨by decide, by decide⟩
  obtain ⟨hscoring, hreport⟩ := class_names_stay_in_their_attributes root
  exact ⟨root, body, hread, hbody, hscoring (itemBody?_of_findBody hbody) hfree,
    hreport [] "\"><b>".toList hread hbody (of_decide_eq_true hdecided)⟩

/-- The names of the elements of a prompt. -/
def promptNames? (options : Scoring.Options) (source : Source) : Option (List (List Char)) :=
  match readDocument source with
  | .ok root => ((Scoring.render options root).toOption.bind fun item => outline? item.prompt).map (·.names)
  | .error _ => none

/-- A class with a double quote ends its attribute, and its tag with it. -/
theorem class_with_quote_makes_tags :
    promptNames? {} classesSample = some ["pre".toList, "input".toList, "ol".toList, "li".toList] ∧
      promptNames? (classed "a\"><b>".toList "c".toList) classesSample =
        some ["pre".toList, "input".toList, "ol".toList, "b".toList, "li".toList] := by
  unfold classesSample
  repeat rewrite [String.toList_ofList]
  decide +kernel

/-- The names of the elements of a question. -/
def questionNames? (options : Report.Options) (source : Source) : Option (List (List Char)) :=
  match readDocument source with
  | .ok root => ((Report.render options ['q'] root).result.toOption.bind fun item =>
      outline? item.question).map (·.names)
  | .error _ => none

/-- A document with code of which the values hold equals signs. -/
def equalsSample : Source := .text <|
  "<i identifier='q'><qti-item-body><qti-pre>".toList ++
    "<qti-code title='x data-code-lang=' id='y='>a</qti-code></qti-pre>".toList ++
    "<qti-choice-interaction><qti-p>z</qti-p></qti-choice-interaction></qti-item-body></i>".toList

/-- Where the passes take a value for an attribute, a quote is missing, and the quotes of a later class are
taken for its counterpart. -/
theorem class_after_equals_sign_moves_tags :
    questionNames? {} equalsSample = some ["div".toList, "pre".toList, "code".toList, "p".toList] ∧
      questionNames? (wrapped "x=".toList "item-body".toList) equalsSample =
        some ["div".toList, "pre".toList, "div".toList, "p".toList] := by
  unfold equalsSample
  repeat rewrite [String.toList_ofList]
  decide +kernel

end Assessment.Views
