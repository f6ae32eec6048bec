import Assessment.Proofs.Markup.Displayed
import Assessment.Proofs.Report.Passes
import Assessment.Proofs.Xml.Document
import Assessment.Report.Item

/-!
# Proofs: reports show the text of an item

The question of a report shows the text of the item body, once and in order. Which text that is depends
only on the names of the elements around it (`shownText`): not that of elements that hide theirs, and
not white space that lays out a preformatted block.
-/

namespace Assessment.Report

open Assessment.Item Assessment.Text Assessment.Xml Assessment.Markup

/-! ## The text that is shown -/

/-- The names of the elements that show none of their text. -/
def silentNames : List (List Char) := [
  "qti-rubric-block".toList, "qti-text-entry-interaction".toList,
  "qti-extended-text-interaction".toList, "qti-img".toList, "img".toList, "qti-hr".toList,
  "hr".toList]

/-- The names of preformatted blocks. -/
def preNames : List (List Char) := ["qti-pre".toList, "pre".toList]

/-- The names of code. -/
def codeNames : List (List Char) := ["qti-code".toList, "code".toList]

/-- A text node, with the names of the elements it is in, the innermost first. -/
structure PlacedText where
  /-- The text. -/
  text : List Char
  /-- The local names of the elements around it. -/
  around : List (List Char)
  deriving DecidableEq, Repr

mutual

/-- The text nodes of a node, in document order. `around` are the names of the elements around it. -/
def placedTexts (around : List (List Char)) : Node → List PlacedText
  | .text s => [⟨s, around⟩]
  | .comment _ => []
  | .element tag _ children => placedTextsOf (localName tag :: around) children

/-- The text nodes of some nodes, in document order. -/
def placedTextsOf (around : List (List Char)) : List Node → List PlacedText
  | [] => []
  | node :: nodes => placedTexts around node ++ placedTextsOf around nodes

end

namespace PlacedText

/-- The text is in an element that shows none of its text. -/
def isSilent (placed : PlacedText) : Bool := placed.around.any silentNames.contains

/-- The text is white space in a preformatted block, and there is no code between it and the nearest
such block. -/
def isLayout (placed : PlacedText) : Bool :=
  isBlankText placed.text && placed.around.any preNames.contains &&
    !(placed.around.takeWhile fun name => !preNames.contains name).any codeNames.contains

end PlacedText

/-- What is shown of some text nodes. -/
def shownOf (texts : List PlacedText) : List Char :=
  (texts.filter fun placed => !placed.isSilent && !placed.isLayout).flatMap (·.text)

/-- The text of an item body that a report shows. -/
def shownText (body : Element) : List Char := shownOf (placedTextsOf [] body.children)

@[simp] theorem shownOf_nil : shownOf [] = [] := rfl

theorem shownOf_append (texts texts' : List PlacedText) :
    shownOf (texts ++ texts') = shownOf texts ++ shownOf texts' := by
  simp [shownOf]

/-! ## Places and rules -/

/-- Elements without a rule of their own keep their names. -/
theorem Rule.ofName_of_not_mem {name : List Char} (h : name ∉ Rule.table.map (·.1)) :
    Rule.ofName name = .renamed := by
  unfold Rule.ofName
  rw [List.lookup_eq_none_iff.2 fun entry hentry => ?_]
  · rfl
  · exact bne_iff_ne.2 fun heq => h (List.mem_map.2 ⟨entry, hentry, heq.symm⟩)

/-- The rule for a name says whether the element shows its text and how it treats white space. -/
theorem contains_of_ofName (name : List Char) :
    silentNames.contains name = [.hidden, .cloze, .image, .line].contains (Rule.ofName name) ∧
      preNames.contains name = (Rule.ofName name == .pre) ∧
      codeNames.contains name = (Rule.ofName name == .code) := by
  by_cases hname : name ∈ Rule.table.map (·.1)
  · revert name
    decide
  · have hcontains {names : List (List Char)} (h : names ⊆ Rule.table.map (·.1)) :
        names.contains name = false := by
      rw [List.contains_eq_mem, decide_eq_false_iff_not]
      exact fun hmem => hname (h hmem)
    rw [Rule.ofName_of_not_mem hname, hcontains (by decide), hcontains (by decide), hcontains (by decide)]
    decide

/-- The treatment of white space inside elements with the given names, the innermost first. -/
def spacingAt (around : List (List Char)) : Spacing where
  inPre := around.any preNames.contains
  preserve := (around.takeWhile fun name => !preNames.contains name).any codeNames.contains

theorem spacingAt_eq (name : List Char) (around : List (List Char)) :
    spacingAt (name :: around) = {
      inPre := preNames.contains name || (spacingAt around).inPre
      preserve := !preNames.contains name &&
        (codeNames.contains name || (spacingAt around).preserve) } := by
  unfold spacingAt
  rw [List.any_cons, List.takeWhile_cons]
  cases preNames.contains name <;> rfl

/-- Only preformatted blocks and code change how white space is treated. -/
theorem spacingAt_cons (name : List Char) (around : List (List Char)) :
    spacingAt (name :: around) = match Rule.ofName name with
      | .pre => Spacing.pre
      | .code => (spacingAt around).keeping
      | _ => spacingAt around := by
  obtain ⟨-, hpre, hcode⟩ := contains_of_ofName name
  rw [spacingAt_eq, hpre, hcode]
  cases Rule.ofName name <;> rfl

/-- Text is shown at a place as its place says. -/
theorem render_spacingAt {around : List (List Char)} (h : around.any silentNames.contains = false)
    (s : List Char) : (spacingAt around).render s = escape (shownOf [⟨s, around⟩]) := by
  have hlayout : PlacedText.isLayout ⟨s, around⟩ =
      ((spacingAt around).inPre && !(spacingAt around).preserve && isBlankText s) := by
    have hdef : PlacedText.isLayout ⟨s, around⟩ =
        (isBlankText s && (spacingAt around).inPre && !(spacingAt around).preserve) := rfl
    rw [hdef, Bool.and_assoc, Bool.and_comm]
  unfold Spacing.render
  rw [← hlayout]
  split
  · next hl => simp [shownOf, hl]
  · next hl => simp [shownOf, hl, PlacedText.isSilent, h]

mutual

theorem around_suffix_placedTexts : ∀ {around : List (List Char)} {node : Node} {placed : PlacedText},
    placed ∈ placedTexts around node → around <:+ placed.around
  | _, .text s, placed, h => by
    obtain rfl := List.mem_singleton.1 h
    exact List.suffix_rfl
  | _, .comment s, placed, h => absurd h List.not_mem_nil
  | around, .element tag attributes children, placed, h =>
    (List.suffix_cons _ around).trans (around_suffix_placedTextsOf h)

/-- The text nodes of some nodes are inside all that is around the nodes. -/
theorem around_suffix_placedTextsOf : ∀ {around : List (List Char)} {nodes : List Node}
    {placed : PlacedText}, placed ∈ placedTextsOf around nodes → around <:+ placed.around
  | _, [], _, h => absurd h List.not_mem_nil
  | _, node :: nodes, placed, h => by
    rcases List.mem_append.1 h with h | h
    · exact around_suffix_placedTexts h
    · exact around_suffix_placedTextsOf h

end

/-- Nothing is shown inside an element that shows none of its text. -/
theorem shownOf_of_silent {around : List (List Char)} (h : around.any silentNames.contains = true)
    (nodes : List Node) : shownOf (placedTextsOf around nodes) = [] := by
  have hnone : (placedTextsOf around nodes).filter
      (fun placed => !placed.isSilent && !placed.isLayout) = [] := by
    refine List.filter_eq_nil_iff.2 fun placed hplaced => ?_
    obtain ⟨name, hname, hsilent⟩ := List.any_eq_true.1 h
    have hplacedSilent : placed.isSilent = true :=
      List.any_eq_true.2 ⟨name, (around_suffix_placedTextsOf hplaced).subset hname, hsilent⟩
    simp [hplacedSilent]
  rw [shownOf, hnone]
  rfl

/-! ## The HTML of nodes -/

theorem unbracketed_writeAttributes {attributes : Attributes}
    (h : ∀ a ∈ attributes, IsName (attributeName a.1)) :
    Unbracketed (writeAttributes attributes) := by
  intro c hc
  obtain ⟨⟨key, value⟩, ha, hc⟩ := List.mem_flatMap.1 hc
  have hsign : Unbracketed "=\"".toList := by decide
  have hend : Unbracketed ['\x22'] := by decide
  have hwritten : Unbracketed (writeAttribute key value) :=
    (((Unbracketed.cons (by decide) (by decide) (h _ ha).like.unbracketed).append hsign).append
      (unbracketed_escape value)).append hend
  dsimp only at hc
  split at hc
  · cases hc
  · exact hwritten c hc

theorem htmlName_subset (name : List Char) : htmlName name ⊆ name := by
  unfold htmlName
  cases hafter : after? "qti-".toList name with
  | none => exact List.Subset.refl name
  | some rest =>
    rw [after?_eq_some_iff.1 hafter]
    exact List.subset_append_right _ rest

theorem unbracketed_htmlName {name : List Char} (h : NameLike name) : Unbracketed (htmlName name) :=
  h.unbracketed.of_subset (htmlName_subset name)

theorem unbracketed_class (name : List Char) :
    Unbracketed (" class=\"".toList ++ escape name ++ ['\x22']) := by
  have hstart : Unbracketed " class=\"".toList := by decide
  have hend : Unbracketed ['\x22'] := by decide
  exact (hstart.append (unbracketed_escape name)).append hend

theorem unbracketed_choiceWrapperAttribute (options : Options) :
    Unbracketed (choiceWrapperAttribute options) := by
  unfold choiceWrapperAttribute
  split
  · exact fun _ hc => absurd hc List.not_mem_nil
  · exact unbracketed_class _

theorem isTag_image {attributes : List Char} (h : Unbracketed attributes) :
    IsTag ("<img".toList ++ attributes ++ " />".toList) := by
  have hname : Unbracketed "img".toList := by decide
  have hend : Unbracketed " /".toList := by decide
  have htag : "<img".toList ++ attributes ++ " />".toList =
      '<' :: ("img".toList ++ attributes ++ " /".toList) ++ ['>'] := by
    show _ = '<' :: ("img".toList ++ attributes ++ " /".toList ++ ['>'])
    rw [List.append_assoc _ " /".toList]
    rfl
  rw [htag]
  exact .intro ((hname.append h).append hend)

theorem isTag_line : IsTag "<hr />".toList := @IsTag.intro "hr /".toList (by decide)

/-- A start tag. `attributes` is what stands between the name and the closing bracket. -/
def openTag (tag attributes : List Char) : List Char := '<' :: (tag ++ attributes) ++ ['>']

/-- An end tag. -/
def closeTag (tag : List Char) : List Char := '<' :: ('/' :: tag) ++ ['>']

theorem within_eq (tag attributes html : List Char) :
    within tag attributes html = openTag tag attributes ++ (html ++ closeTag tag) := by
  have hslash : "</".toList = ['<', '/'] := rfl
  simp [within, openTag, closeTag, hslash]

theorem isTag_openTag {tag attributes : List Char} (htag : Unbracketed tag)
    (hattributes : Unbracketed attributes) : IsTag (openTag tag attributes) :=
  .intro (htag.append hattributes)

theorem isTag_closeTag {tag : List Char} (htag : Unbracketed tag) : IsTag (closeTag tag) :=
  .intro (.cons (by decide) (by decide) htag)

theorem displays_within {W : Char → List Char → Prop} {tag attributes html text : List Char}
    (htag : Unbracketed tag) (hattributes : Unbracketed attributes) (h : Displays W html text) :
    Displays W (within tag attributes html) text := by
  rw [within_eq]
  refine .tag (isTag_openTag htag hattributes) ?_
  simpa using h.append (.of_isTag (isTag_closeTag htag))

mutual

theorem displays_renderNode {options : Options} (htidy : options.Tidy) :
    ∀ {around : List (List Char)} {node : Node}, node.Named →
      around.any silentNames.contains = false →
      Displays Escaped (renderNode options (spacingAt around) node) (shownOf (placedTexts around node))
  | around, .text s, _, hshown => by
    rw [renderNode, render_spacingAt hshown]
    exact .of_flatMap fun _ _ => rfl
  | _, .comment s, _, _ => .nil
  | around, .element tag attributes children, hnode, hshown => by
    obtain ⟨htag, hattributes, hchildren⟩ := hnode
    obtain ⟨hsilent, -, -⟩ := contains_of_ofName (localName tag)
    have hspacing := spacingAt_cons (localName tag) around
    have hwritten := unbracketed_writeAttributes hattributes
    have hinside : (localName tag :: around).any silentNames.contains = false →
        Displays Escaped (renderNodes options (spacingAt (localName tag :: around)) children)
          (shownOf (placedTextsOf (localName tag :: around) children)) := fun h =>
      displays_renderNodes htidy hchildren h
    rw [List.any_cons, hshown, Bool.or_false] at hinside
    have hhidden (h : silentNames.contains (localName tag) = true) :
        shownOf (placedTextsOf (localName tag :: around) children) = [] :=
      shownOf_of_silent (by rw [List.any_cons, h, Bool.true_or]) children
    rw [hsilent] at hinside hhidden
    rw [hspacing] at hinside
    unfold renderNode placedTexts
    cases hrule : Rule.ofName (localName tag) <;> rw [hrule] at hinside hhidden <;>
      dsimp only at hinside ⊢
    case hidden =>
      rw [hhidden rfl]
      exact .nil
    case choices =>
      exact displays_within (by decide) (unbracketed_choiceWrapperAttribute options) (hinside rfl)
    case cloze =>
      rw [hhidden rfl]
      exact .of_shows_nil htidy.cloze
    case pre => exact displays_within (by decide) hwritten (hinside rfl)
    case code => exact displays_within (by decide) hwritten (hinside rfl)
    case image =>
      rw [hhidden rfl]
      exact .of_isTag (isTag_image hwritten)
    case line =>
      rw [hhidden rfl]
      exact .of_isTag isTag_line
    case renamed => exact displays_within (unbracketed_htmlName htag) hwritten (hinside rfl)

theorem displays_renderNodes {options : Options} (htidy : options.Tidy) :
    ∀ {around : List (List Char)} {nodes : List Node}, NamedNodes nodes →
      around.any silentNames.contains = false →
      Displays Escaped (renderNodes options (spacingAt around) nodes)
        (shownOf (placedTextsOf around nodes))
  | _, [], _, _ => .nil
  | _, node :: nodes, hnodes, hshown => by
    rw [renderNodes, placedTextsOf, shownOf_append]
    exact (displays_renderNode htidy hnodes.1 hshown).append (displays_renderNodes htidy hnodes.2 hshown)

end

/-- The item body, before the passes over its code, displays the text of the body. -/
theorem displays_renderBody {options : Options} (htidy : options.Tidy) {body : Element}
    (h : NamedNodes body.children) : Displays Escaped (renderBody options body) (shownText body) :=
  displays_within (by decide) (unbracketed_class _) (@displays_renderNodes _ htidy [] _ h rfl)

theorem shows_renderBody {options : Options} (htidy : options.Tidy) {body : Element}
    (h : NamedNodes body.children) : Shows (renderBody options body) (escape (shownText body)) :=
  (displays_renderBody htidy h).shows_escape

/-! ## Reports -/

theorem mem_locate_of_findBody {expected : List Char} {root body : Element}
    (h : findBody expected root = .ok body) : body ∈ root.locate "qti-item-body".toList := by
  unfold findBody at h
  dsimp only at h
  split at h
  · cases h
  split at h
  · cases h
  split at h
  · next found _ hlocate =>
    cases h
    rw [hlocate]
    exact List.mem_cons_self
  · cases h

theorem namedNodes_of_findBody {source : Source} {root body : Element} {expected : List Char}
    (hread : readDocument source = .ok root) (hbody : findBody expected root = .ok body) :
    NamedNodes body.children :=
  namedNodes_of_mem_elementsOf (named_of_readDocument hread).2.2
    (Element.descendants_of_mem_locate (mem_locate_of_findBody hbody))

/-- The question of a report is the finished item body. -/
theorem exists_item_of_finishHtml {options : Options} {root body : Element}
    {expected question : List Char} (hbody : findBody expected root = .ok body)
    (h : (finishHtml options (renderBody options body)).result = .ok question) :
    ∃ item, (render options expected root).result = .ok item ∧ item.question = question := by
  unfold render
  rw [hbody]
  dsimp only [Outcome.map]
  rw [h]
  exact ⟨_, rfl, rfl⟩

/-- The question of a report, without its tags and with its references decoded, is the text of the item
body that is shown, once and in order. -/
theorem question_shows_text {source : Source} {root body : Element} {expected : List Char}
    (hread : readDocument source = .ok root) (hbody : findBody expected root = .ok body) :
    ∃ item, (render {} expected root).result = .ok item ∧
      Entity.decode (stripTags item.question) = shownText body := by
  obtain ⟨question, hquestion, hshows⟩ := finishHtml_shows tidy_default rfl
    (shows_renderBody tidy_default (namedNodes_of_findBody hread hbody))
  obtain ⟨item, hitem, rfl⟩ := exists_item_of_finishHtml hbody hquestion
  refine ⟨item, hitem, ?_⟩
  rw [stripTags_of_shows hshows, Entity.decode_escape]

/-- A document with text of every kind: in nested blocks, between pieces of code, and not shown. -/
def codeSample : Source := .text <|
  "<i identifier='q'><qti-item-body><qti-pre> <code a='&gt;'>a&lt;b </code> ".toList ++
    "<pre> c<code> </code></pre></qti-pre>d<img>e</img></qti-item-body></i>".toList

theorem codeSample_shows_text : ∃ root body, readDocument codeSample = .ok root ∧
    findBody ['q'] root = .ok body ∧ shownText body = "a<b  c d".toList ∧
    ∃ item, (render {} ['q'] root).result = .ok item ∧
      Entity.decode (stripTags item.question) = shownText body := by
  have hshown : (match readDocument codeSample with
      | .ok root => (findBody ['q'] root).toOption.map shownText
      | .error _ => none) = some "a<b  c d".toList := by decide +kernel
  cases hread : readDocument codeSample with
  | error fault =>
    rw [hread] at hshown
    cases hshown
  | ok root =>
    rw [hread] at hshown
    dsimp only at hshown
    cases hbody : findBody ['q'] root with
    | error failure =>
      rw [hbody] at hshown
      cases hshown
    | ok body =>
      rw [hbody] at hshown
      exact ⟨root, body, rfl, hbody, Option.some.inj hshown, question_shows_text hread hbody⟩

end Assessment.Report
