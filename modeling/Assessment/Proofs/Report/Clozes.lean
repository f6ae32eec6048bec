import Assessment.Proofs.Report.Highlighting
import Assessment.Proofs.Report.KeptTags

/-!
# Proofs: blanks in reports

A report holds one tag for each blank that is reached, and the passes over its code keep these tags. Only
a highlighter takes some away: it is given code as text, so the tag of a blank inside of that code comes
back as text. `clozeTags_of_question` says how many tags are lost to a highlighter for plain text.
-/

namespace Assessment.Report

open Assessment.Item Assessment.Text Assessment.Xml Assessment.Markup

/-- The tag that stands for a blank. -/
def clozeTag : List Char := ({} : Options).cloze

/-- The element is one for which there is a blank. -/
def isTextEntry (e : Element) : Bool := e.name == "qti-text-entry-interaction".toList

/-! ## Tags that are no blanks -/

/-- The tag of a blank is told from other tags by the first letter of its name. -/
theorem Opens.ne_clozeTag {c : Char} {tag : List Char} (h : Opens c tag) (hc : c ≠ 'i') :
    tag ≠ clozeTag := by
  obtain ⟨rest, rfl⟩ := h
  intro heq
  exact hc (List.cons.inj (List.cons.inj heq).2).1

theorem Opens.counts {c : Char} {tag : List Char} (h : Opens c tag) (hc : c ≠ 'i')
    (htag : IsTag tag) : Counts clozeTag tag 0 := .of_ne htag (h.ne_clozeTag hc)

theorem counts_closeTag {tag : List Char} (h : Unbracketed tag) :
    Counts clozeTag (closeTag tag) 0 :=
  @Opens.counts '/' _ ⟨_, rfl⟩ (by decide) (isTag_closeTag h)

theorem quote_mem_writeAttributes {attributes : Attributes} (h : Xml.writeAttributes attributes ≠ []) :
    '\x22' ∈ Xml.writeAttributes attributes := by
  induction attributes with
  | nil => exact absurd rfl h
  | cons a attributes ih =>
    obtain ⟨key, value⟩ := a
    rw [writeAttributes_cons] at h ⊢
    split at h
    · next hkey =>
      rw [if_pos hkey]
      exact List.mem_append_right _ (ih h)
    · next hkey =>
      rw [if_neg hkey]
      refine List.mem_append_left _ ?_
      simp [Xml.writeAttribute]

/-- No element is written with the tag of a blank: attributes have quotes, and names have no spaces. -/
theorem openTag_ne_clozeTag {name part : List Char} (hname : ' ' ∉ name)
    (hpart : part ≠ [] → '\x22' ∈ part) : openTag name part ≠ clozeTag := by
  intro heq
  by_cases hnone : part = []
  · have htag : openTag name [] = '<' :: (name ++ ['>']) := by simp [openTag]
    rw [hnone, htag] at heq
    have hspace : ' ' ∈ '<' :: (name ++ ['>']) := heq ▸ (by decide : ' ' ∈ clozeTag)
    exact hname (by simpa using hspace)
  · have hquote : '\x22' ∈ openTag name part := by simp [openTag, hpart hnone]
    rw [heq] at hquote
    exact absurd hquote (by decide)

/-! ## Rendered nodes -/

theorem isTextEntry_eq (e : Element) : isTextEntry e = (Rule.ofName e.name == .cloze) := by
  unfold isTextEntry
  generalize e.name = name
  by_cases hname : name ∈ Rule.table.map (·.1)
  · revert name
    decide
  · have hne : name ≠ "qti-text-entry-interaction".toList := by
      rintro rfl
      exact hname (by decide)
    rw [Rule.ofName_of_not_mem hname, beq_false_of_ne hne]
    rfl

theorem counts_within {tag attributes html : List Char} {n : Nat} (htag : Unbracketed tag)
    (hattributes : Unbracketed attributes) (hne : openTag tag attributes ≠ clozeTag)
    (h : Counts clozeTag html n) : Counts clozeTag (within tag attributes html) n := by
  rw [within_eq]
  exact .between (.of_ne (isTag_openTag htag hattributes) hne) (counts_closeTag htag) h

theorem countP_isTextEntry_cons (e : Element) (elements : List Element) :
    (e :: elements).countP isTextEntry =
      elements.countP isTextEntry + if Rule.ofName e.name == .cloze then 1 else 0 := by
  rw [List.countP_cons, isTextEntry_eq]

theorem keptByRendering_counts {options : Options} (hcloze : options.cloze = clozeTag) :
    KeptByRendering options (fun _ => True) fun elements html =>
      Counts clozeTag html (elements.countP isTextEntry) where
  text := .of_unbracketed
  append h hmore := by
    rw [List.countP_append]
    exact h.append hmore
  hidden hrule := by
    rw [countP_isTextEntry_cons, hrule]
    exact .nil
  cloze hrule := by
    rw [countP_isTextEntry_cons, hrule, hcloze]
    exact .self isTag_cloze
  image {e} hrule hnamed := by
    rw [countP_isTextEntry_cons, hrule]
    refine .of_ne (isTag_image (unbracketed_writeAttributes hnamed.2.1)) fun heq => ?_
    have hslash : '/' ∈ "<img".toList ++ Xml.writeAttributes e.attributes ++ " />".toList := by simp
    rw [heq] at hslash
    exact absurd hslash (by decide)
  line hrule := by
    rw [countP_isTextEntry_cons, hrule]
    exact @Opens.counts 'h' _ ⟨_, rfl⟩ (by decide) isTag_line
  choices hrule h := by
    rw [countP_isTextEntry_cons, hrule]
    exact counts_within (by decide) (unbracketed_choiceWrapperAttribute options)
      (@Opens.ne_clozeTag 'd' _ ⟨_, rfl⟩ (by decide)) h
  element {e spacing} hrule _ hnamed _ h := by
    have hname : NameLike (htmlName e.name) := hnamed.1.of_subset (htmlName_subset _)
    have hspace : ' ' ∉ htmlName e.name := fun hmem => absurd (hname.isBlank ' ' hmem) (by decide)
    have hnot : ¬ (Rule.ofName e.name == .cloze) = true := by
      intro heq
      rw [eq_of_beq heq] at hrule
      exact absurd hrule (by decide)
    rw [countP_isTextEntry_cons, if_neg hnot]
    exact counts_within hname.unbracketed (unbracketed_writeAttributes hnamed.2.1)
      (openTag_ne_clozeTag hspace quote_mem_writeAttributes) h

/-- Rendered nodes hold one tag for each blank that is reached. -/
theorem counts_renderNodes {options : Options} (hcloze : options.cloze = clozeTag)
    (spacing : Spacing) {nodes : List Node} (hnodes : NamedNodes nodes) :
    Counts clozeTag (renderNodes options spacing nodes) ((reachedIn nodes).countP isTextEntry) :=
  (keptByRendering_counts hcloze).nodes spacing hnodes fun _ _ => trivial

theorem counts_renderBody {options : Options} (hcloze : options.cloze = clozeTag) {body : Element}
    (h : NamedNodes body.children) :
    Counts clozeTag (renderBody options body) ((reachedIn body.children).countP isTextEntry) :=
  counts_within (by decide) (unbracketed_class _) (@Opens.ne_clozeTag 'd' _ ⟨_, rfl⟩ (by decide))
    (counts_renderNodes hcloze Spacing.root h)

/-! ## Passes that keep blanks -/

/-- The tag of a blank is foreign to the passes. -/
theorem foreign_clozeTag : Foreign clozeTag := ⟨'i', ⟨_, rfl⟩, by decide⟩

theorem counts_mergeFragments {html : List Char} {n : Nat} (h : Counts clozeTag html n) :
    Counts clozeTag (mergeFragments html) n := foreign_clozeTag.counts_mergeFragments h

theorem counts_decorateInline {options : Options} (htidy : options.Tidy) {html : List Char} {n : Nat}
    (h : Counts clozeTag html n) : Counts clozeTag (decorateInline options html) n :=
  foreign_clozeTag.counts_decorateInline htidy h

theorem counts_decorateBlocks {options : Options} (htidy : options.Tidy)
    (hnone : options.highlighter = none) {html : List Char} {n : Nat} (h : Counts clozeTag html n) :
    ∃ marked, (decorateBlocks options html).result = .ok marked ∧ Counts clozeTag marked n :=
  foreign_clozeTag.counts_decorateBlocks htidy hnone h

/-- Plain text is given back as text, with all the tags of blanks that it holds. -/
theorem CodeBlock.loses_colored {options : Options} (htidy : options.Tidy) {block : CodeBlock}
    {shown : List Char} (h : block.Holds shown) (hopened : block.Opened)
    (hplain : (Highlight.Lexer.ofLanguage block.declared).1 = .text) (inlineStyles : Bool) :
    Loses clozeTag source (colored options inlineStyles)
      (fun block => countTag clozeTag block.content) block := by
  obtain ⟨left, hcolored, hsource⟩ := foreign_clozeTag.loses_colored htidy h hopened inlineStyles
    (.of_unbracketed (Highlight.unbracketed_highlight hplain inlineStyles block.code))
  refine ⟨left, hcolored, ?_⟩
  dsimp only at hsource
  split at hsource
  · next hempty =>
    -- Nothing comes out, so the block keeps its content, which has no opening bracket then.
    have hnone : ∀ c ∈ block.content, c ≠ '<' := by
      rintro c hc rfl
      exact Highlight.highlight_ne_nil hplain inlineStyles (Entity.mem_decode hc)
        (List.isEmpty_iff.1 hempty)
    dsimp only
    rwa [countTag_of_forall hnone]
  · exact hsource

/-! ## Blanks in reports -/

/-- A report holds the tags of blanks that are left when its code has been marked. -/
theorem exists_item_of_decorateBlocks {options : Options} (htidy : options.Tidy)
    {root body : Element} {expected marked : List Char} {n : Nat}
    (hbody : findBody expected root = .ok body)
    (hresult : (decorateBlocks options (mergeFragments (renderBody options body))).result =
      .ok marked) (h : Counts clozeTag marked n) :
    ∃ item, (render options expected root).result = .ok item ∧
      countTag clozeTag item.question = n := by
  have hfinished : (finishHtml options (renderBody options body)).result =
      .ok (decorateInline options marked) := congrArg (Except.map (decorateInline options)) hresult
  obtain ⟨item, hitem, hquestion⟩ := exists_item_of_finishHtml hbody hfinished
  refine ⟨item, hitem, ?_⟩
  rw [hquestion]
  exact (counts_decorateInline htidy h).count

/-- The options of a report with the highlighter of the library. -/
def highlighting (inlineStyles : Bool) : Options :=
  { highlighter := some (Highlight.highlighter inlineStyles) }

theorem tidy_highlighting (inlineStyles : Bool) : (highlighting inlineStyles).Tidy :=
  tidy_of_defaults _ _ _

/-- The blocks of code of a report, before they are marked. -/
def codeBlocks (options : Options) (body : Element) : List CodeBlock :=
  codeBlock.findAll (mergeFragments (renderBody options body))

/-- The highlighter of the library is asked about every block of code. -/
theorem calls_highlighting (inlineStyles : Bool) {root body : Element} {expected : List Char}
    (hbody : findBody expected root = .ok body) :
    (render (highlighting inlineStyles) expected root).calls =
      (codeBlocks (highlighting inlineStyles) body).map CodeBlock.call := by
  obtain ⟨-, hall⟩ := calls_highlightPieces (highlighting inlineStyles)
    (Highlight.highlighter inlineStyles)
    (codeBlock.pieces (mergeFragments (renderBody (highlighting inlineStyles) body)))
  rw [@calls_render (highlighting inlineStyles) _ _ _ _ rfl hbody]
  exact hall fun block _ =>
    ⟨_, Highlight.read_highlighter inlineStyles block.code block.declared⟩

/-- Code in no declared language is highlighted as plain text. -/
theorem plain_of_undeclared {inlineStyles : Bool} {root body : Element} {expected : List Char}
    (hbody : findBody expected root = .ok body)
    (hnone : ∀ block ∈ codeBlocks (highlighting inlineStyles) body, block.declared = none) :
    ∀ call ∈ (render (highlighting inlineStyles) expected root).calls,
      (Highlight.Lexer.ofLanguage call.language).1 = .text := by
  intro call hcall
  rw [calls_highlighting inlineStyles hbody] at hcall
  obtain ⟨block, hblock, rfl⟩ := List.mem_map.1 hcall
  show (Highlight.Lexer.ofLanguage block.declared).1 = .text
  rw [hnone block hblock]
  rfl

/-- A document with a blank between two pieces of code in a preformatted block, and one after it. -/
def splitCodeSample : Source := .text <|
  "<i identifier='q'><qti-item-body><qti-pre><qti-code>a = </qti-code>".toList ++
    "<qti-text-entry-interaction/><qti-code> + 1</qti-code></qti-pre>".toList ++
    "<qti-text-entry-interaction/></qti-item-body></i>".toList

/-- A document with no blank but one between two pieces of code in a preformatted block. -/
def lostBlankSample : Source := .text <|
  "<i identifier=\"q\"><qti-item-body><qti-pre><qti-code>a = </qti-code>".toList ++
    "<qti-text-entry-interaction/><qti-code> + 1</qti-code></qti-pre></qti-item-body></i>".toList

end Assessment.Report
