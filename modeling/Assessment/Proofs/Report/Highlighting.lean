import Assessment.Proofs.Report.CodeBlocks
import Assessment.Proofs.Report.Rendering

/-!
# Proofs: what highlighters are asked

Where the code of each preformatted block is in one piece (`CodeInOnePiece`), a highlighter is asked
about the code of each of these blocks once, in document order, and about no other code. It is given the
text of the code as it stands in the document.
-/

namespace Assessment.Report

open Assessment.Item Assessment.Text Assessment.Xml Assessment.Markup

/-! ## Code in one piece -/

/-- The node counts in a preformatted block: it is neither layout nor a comment. -/
def counts (node : Node) : Bool := node.isShown && !node.isBlankText

/-- The node is no element. -/
def isTextual : Node → Bool
  | .element _ _ _ => false
  | _ => true

/-- The text that stands directly among some nodes. -/
def ownText (nodes : List Node) : List Char :=
  nodes.flatMap fun
    | .text s => s
    | _ => []

/-- The code that is all that counts among some nodes, if there is no element in it. -/
def soleCode? (nodes : List Node) : Option Element :=
  match nodes.filter counts with
  | [.element tag attributes children] =>
    if codeNames.contains (localName tag) && children.all isTextual then
      some ⟨tag, attributes, children⟩
    else none
  | _ => none

/-- The name begins with that of a tag and goes on where a search takes the tag to end. -/
def goesOnAfter (tag : String) (name : List Char) : Bool :=
  match after? tag.toList name with
  | some (c :: _) => !isWord c
  | _ => false

/-- The preformatted blocks among some elements hold no code, or one piece of code and nothing else, and
no element is taken for a preformatted block or for code that is none. -/
structure CodeInOnePiece (elements : List Element) : Prop where
  /-- A block holds no code, or nothing but code. -/
  pres : ∀ e ∈ elements, preNames.contains e.name →
    (∀ inner ∈ reachedIn e.children, codeNames.contains inner.name = false) ∨
      (soleCode? e.children).isSome
  /-- Names do not begin like those of blocks and of code. -/
  names : ∀ e ∈ elements, goesOnAfter "pre" (htmlName e.name) = false ∧
    goesOnAfter "code" (htmlName e.name) = false

instance (elements : List Element) : Decidable (CodeInOnePiece elements) :=
  decidable_of_iff ((∀ e ∈ elements, preNames.contains e.name →
      (∀ inner ∈ reachedIn e.children, codeNames.contains inner.name = false) ∨
        (soleCode? e.children).isSome) ∧
      ∀ e ∈ elements, goesOnAfter "pre" (htmlName e.name) = false ∧
        goesOnAfter "code" (htmlName e.name) = false)
    ⟨fun h => ⟨h.1, h.2⟩, fun h => ⟨h.pres, h.names⟩⟩

theorem CodeInOnePiece.of_subset {elements more : List Element} (h : CodeInOnePiece more)
    (hsubset : elements ⊆ more) : CodeInOnePiece elements where
  pres e he := h.pres e (hsubset he)
  names e he := h.names e (hsubset he)

/-- What a highlighter is asked about code. -/
def Call.ofCode (code : Element) : Call :=
  ⟨ownText code.children,
    Language.ofTag (openTag "code".toList (Xml.writeAttributes code.attributes))⟩

/-- What a highlighter is asked about an element: nothing if it is no preformatted block of code. -/
def Call.ofElement? (e : Element) : Option Call :=
  if preNames.contains e.name then (soleCode? e.children).map ofCode else none

/-- What a highlighter is asked about an item body. -/
def blockCalls (body : Element) : List Call := (reachedIn body.children).filterMap Call.ofElement?

/-- The block of code that an element is written as, if it is one. -/
def blockOf? (e : Element) : Option CodeBlock :=
  if preNames.contains e.name then
    (soleCode? e.children).map fun code =>
      ⟨openTag "pre".toList (Xml.writeAttributes e.attributes), [],
        openTag "code".toList (Xml.writeAttributes code.attributes), escape (ownText code.children)⟩
  else none

/-- What a highlighter is asked about a block of code. -/
def CodeBlock.call (block : CodeBlock) : Call := ⟨block.code, block.declared⟩

theorem call_blockOf? (e : Element) : (blockOf? e).map CodeBlock.call = Call.ofElement? e := by
  unfold blockOf? Call.ofElement?
  split
  · cases soleCode? e.children with
    | none => rfl
    | some code =>
      have hdecoded := Entity.decode_escape (ownText code.children)
      simp only [Option.map_some, CodeBlock.call, CodeBlock.code, CodeBlock.declared, Call.ofCode,
        hdecoded]
  · rfl

theorem map_call_blocks (elements : List Element) :
    (elements.filterMap blockOf?).map CodeBlock.call = elements.filterMap Call.ofElement? := by
  rw [List.map_filterMap]
  exact congrArg (List.filterMap · elements) (funext call_blockOf?)

/-! ## Names of tags -/

/-- What can stand between the name of a tag and its closing bracket. -/
structure AttributePart (s : List Char) : Prop where
  /-- It does not end the tag. -/
  unbracketed : Unbracketed s
  /-- It is nothing, or something after a space. -/
  spaced : s = [] ∨ ∃ rest, s = ' ' :: rest

theorem writeAttributes_cons (key value : List Char) (attributes : Attributes) :
    Xml.writeAttributes ((key, value) :: attributes) =
      (if isDeclaration key then [] else Xml.writeAttribute key value) ++
        Xml.writeAttributes attributes := List.flatMap_cons

theorem attributePart_writeAttributes {attributes : Attributes}
    (h : ∀ a ∈ attributes, IsName (attributeName a.1)) :
    AttributePart (Xml.writeAttributes attributes) where
  unbracketed := unbracketed_writeAttributes h
  spaced := by
    clear h
    induction attributes with
    | nil => exact .inl rfl
    | cons a attributes ih =>
      obtain ⟨key, value⟩ := a
      rw [writeAttributes_cons]
      split
      · exact ih
      · exact .inr ⟨_, rfl⟩

theorem attributePart_choiceWrapper (options : Options) :
    AttributePart (choiceWrapperAttribute options) where
  unbracketed := unbracketed_choiceWrapperAttribute options
  spaced := by
    unfold choiceWrapperAttribute
    split
    · exact .inl rfl
    · exact .inr ⟨_, rfl⟩

theorem attributePart_bodyWrapper (name : List Char) :
    AttributePart (" class=\"".toList ++ escape name ++ ['\x22']) where
  unbracketed := unbracketed_class name
  spaced := .inr ⟨_, rfl⟩

/-- The slash before the closing bracket can be counted to the attributes. -/
theorem AttributePart.image {attributes : List Char} (h : AttributePart attributes) :
    AttributePart (attributes ++ " /".toList) where
  unbracketed := h.unbracketed.append (by decide)
  spaced := by
    rcases h.spaced with rfl | ⟨rest, rfl⟩
    · exact .inr ⟨_, rfl⟩
    · exact .inr ⟨_, rfl⟩

theorem image_eq (attributes : List Char) :
    "<img".toList ++ attributes ++ " />".toList = openTag "img".toList (attributes ++ " /".toList) := by
  simp [openTag]

/-- A name that does not go on after that of a tag begins with it only if it is the same. -/
theorem beginsWord_of_not_goesOnAfter {name : String} {tag : List Char}
    (h : goesOnAfter name tag = false) : beginsWord name.toList tag = (tag == name.toList) := by
  unfold goesOnAfter at h
  unfold beginsWord
  cases hfound : after? name.toList tag with
  | none =>
    have hne : tag ≠ name.toList := by
      rintro rfl
      rw [after?_eq_some_iff.2 (List.append_nil _).symm] at hfound
      cases hfound
    exact (beq_false_of_ne hne).symm
  | some t =>
    have htag : tag = name.toList ++ t := after?_eq_some_iff.1 hfound
    rw [hfound] at h
    cases t with
    | nil =>
      rw [htag, List.append_nil]
      exact (beq_self_eq_true _).symm
    | cons c t =>
      have hne : tag ≠ name.toList := by
        rw [htag]
        simp
      exact h.trans (beq_false_of_ne hne).symm

/-- The start of a tag is searched for by its name alone. -/
theorem isStart_openTag_eq {name : String} {tag attributes : List Char} (hname : '>' ∉ name.toList)
    (hspace : ' ' ∉ name.toList) (htag : Unbracketed tag) (hattributes : AttributePart attributes) :
    isStart name (openTag tag attributes) = beginsWord name.toList tag := by
  rw [openTag, isStart_eq hname (htag.append hattributes.unbracketed)]
  rcases hattributes.spaced with rfl | ⟨rest, rfl⟩
  · rw [List.append_nil]
  · exact beginsWord_append_cons hspace (by decide +kernel) tag rest

theorem isStart_openTag {name : String} {tag attributes : List Char} (hname : '>' ∉ name.toList)
    (hspace : ' ' ∉ name.toList) (htag : Unbracketed tag) (hattributes : AttributePart attributes)
    (hgoes : goesOnAfter name tag = false) :
    isStart name (openTag tag attributes) = (tag == name.toList) := by
  rw [isStart_openTag_eq hname hspace htag hattributes, beginsWord_of_not_goesOnAfter hgoes]

theorem isStart_pre_openTag {tag attributes : List Char} (htag : Unbracketed tag)
    (hattributes : AttributePart attributes) (hgoes : goesOnAfter "pre" tag = false) :
    isStart "pre" (openTag tag attributes) = (tag == "pre".toList) :=
  isStart_openTag (by decide) (by decide) htag hattributes hgoes

theorem isStart_code_openTag {tag attributes : List Char} (htag : Unbracketed tag)
    (hattributes : AttributePart attributes) (hgoes : goesOnAfter "code" tag = false) :
    isStart "code" (openTag tag attributes) = (tag == "code".toList) :=
  isStart_openTag (by decide) (by decide) htag hattributes hgoes

theorem isStart_closeTag {name : String} {c : Char} {s tag : List Char} (hname : '>' ∉ name.toList)
    (hcons : name.toList = c :: s) (hc : c ≠ '/') (htag : Unbracketed tag) :
    isStart name (closeTag tag) = false := by
  have hinside : Unbracketed ('/' :: tag) := .cons (by decide) (by decide) htag
  rw [closeTag, isStart_eq hname hinside, hcons]
  simp [beginsWord, after?, hc]

theorem closeTag_pre : closeTag "pre".toList = preEnd := by decide

theorem closeTag_code : closeTag "code".toList = codeEnd := by decide

theorem isStart_pre_closeTag {tag : List Char} (htag : Unbracketed tag) :
    isStart "pre" (closeTag tag) = false :=
  isStart_closeTag (by decide) rfl (by decide : 'p' ≠ '/') htag

theorem isStart_code_closeTag {tag : List Char} (htag : Unbracketed tag) :
    isStart "code" (closeTag tag) = false :=
  isStart_closeTag (by decide) rfl (by decide : 'c' ≠ '/') htag

/-! ## The shape of rendered nodes -/

/-- Tags with a property around HTML whose tags have it. -/
theorem madeOf_within {P : List Char → Prop} {tag attributes html : List Char} (htag : Unbracketed tag)
    (hattributes : Unbracketed attributes) (hopen : P (openTag tag attributes))
    (hclose : P (closeTag tag)) (h : MadeOf P html) : MadeOf P (within tag attributes html) := by
  rw [within_eq]
  exact .tag (isTag_openTag htag hattributes) hopen (h.append (.of_isTag (isTag_closeTag htag) hclose))

/-- Tags of any name but `pre` around HTML. -/
theorem Blocks.within {tag attributes html : List Char} {blocks : List CodeBlock}
    (htag : Unbracketed tag) (hattributes : AttributePart attributes)
    (hopen : isStart "pre" (openTag tag attributes) = false) (h : Blocks html blocks) :
    Blocks (within tag attributes html) blocks := by
  have hclose := Blocks.of_isTag (isTag_closeTag htag) (isStart_pre_closeTag htag)
  rw [within_eq]
  refine .tag (isTag_openTag htag hattributes.unbracketed) hopen ?_
  simpa using h.append hclose

/-- The start tag of an element. -/
def startOf (e : Element) : List Char := openTag (htmlName e.name) (Xml.writeAttributes e.attributes)

/-- All tags but the start tags of preformatted blocks and of code have the property. -/
def HoldsElsewhere (P : List Char → Prop) : Prop :=
  ∀ {tag : List Char}, isStart "pre" tag = false → isStart "code" tag = false → P tag

theorem HoldsElsewhere.openTag {P : List Char → Prop} (hP : HoldsElsewhere P)
    {tag attributes : List Char} (htag : Unbracketed tag) (hattributes : AttributePart attributes)
    (hname : (tag == "pre".toList) = false ∧ (tag == "code".toList) = false)
    (hgoes : goesOnAfter "pre" tag = false ∧ goesOnAfter "code" tag = false) :
    P (openTag tag attributes) :=
  hP ((isStart_pre_openTag htag hattributes hgoes.1).trans hname.1)
    ((isStart_code_openTag htag hattributes hgoes.2).trans hname.2)

theorem HoldsElsewhere.closeTag {P : List Char → Prop} (hP : HoldsElsewhere P) {tag : List Char}
    (htag : Unbracketed tag) : P (closeTag tag) :=
  hP (isStart_pre_closeTag htag) (isStart_code_closeTag htag)

theorem keptByRendering_madeOf {P : List Char → Prop} (hP : HoldsElsewhere P) {options : Options}
    (hcloze : MadeOf P options.cloze) :
    KeptByRendering options (fun e => P (startOf e)) fun _ html => MadeOf P html where
  text := .of_unbracketed
  append := .append
  hidden _ := .nil
  cloze _ := hcloze
  image _ hnamed := by
    have hpart := (attributePart_writeAttributes hnamed.2.1).image
    rw [image_eq]
    exact .of_isTag (isTag_openTag (by decide) hpart.unbracketed)
      (hP.openTag (by decide) hpart (by decide) (by decide))
  line _ := .of_isTag isTag_line (hP (by decide) (by decide))
  choices _ h := by
    have hwrapper := attributePart_choiceWrapper options
    exact madeOf_within (by decide) hwrapper.unbracketed
      (hP.openTag (by decide) hwrapper (by decide) (by decide)) (hP.closeTag (by decide)) h
  element _ _ hnamed hstart h := by
    have hname := unbracketed_htmlName hnamed.1
    exact madeOf_within hname (unbracketed_writeAttributes hnamed.2.1) hstart (hP.closeTag hname) h

/-- What the start tags of all elements that are reached have, all tags have, if the tags for which there
is no element have it. -/
theorem madeOf_renderNodes {P : List Char → Prop} (hP : HoldsElsewhere P) {options : Options}
    (hcloze : MadeOf P options.cloze) (spacing : Spacing) {nodes : List Node} (hnodes : NamedNodes nodes)
    (hreached : ∀ e ∈ reachedIn nodes, P (startOf e)) : MadeOf P (renderNodes options spacing nodes) :=
  (keptByRendering_madeOf hP hcloze).nodes spacing hnodes hreached

/-- Where no element with one of the names is reached, no tag is a start tag of the name that they have in
HTML. -/
theorem madeOf_renderNodes_without {name : String} {names : List (List Char)}
    (hbracket : '>' ∉ name.toList) (hspace : ' ' ∉ name.toList)
    (hnames : ∀ tag, (htmlName tag == name.toList) = names.contains tag)
    (helsewhere : HoldsElsewhere (isStart name · = false)) {options : Options}
    (hcloze : MadeOf (isStart name · = false) options.cloze) (spacing : Spacing) {nodes : List Node}
    (hnodes : NamedNodes nodes)
    (hreached : ∀ e ∈ reachedIn nodes, names.contains e.name = false ∧
      goesOnAfter name (htmlName e.name) = false) :
    MadeOf (isStart name · = false) (renderNodes options spacing nodes) := by
  refine madeOf_renderNodes helsewhere hcloze spacing hnodes fun e he => ?_
  obtain ⟨htag, hattributes, -⟩ := named_of_mem_reachedIn hnodes he
  obtain ⟨hself, hgoes⟩ := hreached e he
  have hstart := isStart_openTag hbracket hspace (unbracketed_htmlName htag)
    (attributePart_writeAttributes hattributes) hgoes
  rw [hnames] at hstart
  exact hstart.trans hself

/-- Where no code is reached, no tag is one of code. -/
theorem madeOf_renderNodes_without_code {options : Options}
    (hcloze : MadeOf (isStart "code" · = false) options.cloze) (spacing : Spacing) {nodes : List Node}
    (hnodes : NamedNodes nodes)
    (hreached : ∀ e ∈ reachedIn nodes, codeNames.contains e.name = false ∧
      goesOnAfter "code" (htmlName e.name) = false) :
    MadeOf (isStart "code" · = false) (renderNodes options spacing nodes) :=
  madeOf_renderNodes_without (by decide) (by decide) htmlName_beq_code (fun _ hcode => hcode) hcloze
    spacing hnodes hreached

/-- Where no preformatted block is reached, no tag begins one. -/
theorem madeOf_renderNodes_without_pre {options : Options}
    (hcloze : MadeOf (isStart "pre" · = false) options.cloze) (spacing : Spacing) {nodes : List Node}
    (hnodes : NamedNodes nodes)
    (hreached : ∀ e ∈ reachedIn nodes, preNames.contains e.name = false ∧
      goesOnAfter "pre" (htmlName e.name) = false) :
    MadeOf (isStart "pre" · = false) (renderNodes options spacing nodes) :=
  madeOf_renderNodes_without (by decide) (by decide) htmlName_beq_pre (fun hpre _ => hpre) hcloze
    spacing hnodes hreached

/-! ## Blocks without code, and blocks of code -/

theorem mem_reachedIn_of_mem {tag : List Char} {attributes : Attributes} {children nodes : List Node}
    (h : .element tag attributes children ∈ nodes) : ⟨tag, attributes, children⟩ ∈ reachedIn nodes := by
  induction nodes with
  | nil => cases h
  | cons node nodes ih =>
    rw [reachedIn]
    rcases List.mem_cons.1 h with rfl | h
    · exact List.mem_append_left _ (by simp [reachedOf])
    · exact List.mem_append_right _ (ih h)

theorem exists_of_soleCode? {nodes : List Node} {code : Element} (h : soleCode? nodes = some code) :
    nodes.filter counts = [code.toNode] ∧ codeNames.contains code.name ∧
      code.children.all isTextual := by
  unfold soleCode? at h
  split at h
  · next tag attributes children hfilter =>
    split at h
    · next hcode =>
      cases h
      rw [Bool.and_eq_true] at hcode
      exact ⟨hfilter, hcode.1, hcode.2⟩
    · cases h
  · cases h

theorem mem_of_soleCode? {nodes : List Node} {code : Element} (h : soleCode? nodes = some code) :
    code ∈ reachedIn nodes := by
  obtain ⟨hfilter, -, -⟩ := exists_of_soleCode? h
  refine mem_reachedIn_of_mem ?_
  have hmem : code.toNode ∈ nodes.filter counts := by
    rw [hfilter]
    exact List.mem_singleton_self _
  exact (List.mem_filter.1 hmem).1

/-- Where no code is reached, there is no block of code. -/
theorem blocks_of_forall {nodes : List Node}
    (h : ∀ e ∈ reachedIn nodes, codeNames.contains e.name = false) :
    (reachedIn nodes).filterMap blockOf? = [] := by
  rw [List.filterMap_eq_nil_iff]
  intro e he
  unfold blockOf?
  split
  · next hpre =>
    have hshown : silentNames.contains e.name = false := by
      have hapart : ∀ name ∈ preNames, silentNames.contains name = false := by decide
      exact hapart _ (List.contains_iff_mem.1 hpre)
    cases hsole : soleCode? e.children with
    | none => rfl
    | some code =>
      have hcode := h code (reachedIn_subset hshown he (mem_of_soleCode? hsole))
      rw [(exists_of_soleCode? hsole).2.1] at hcode
      cases hcode
  · rfl

theorem blockOf?_of_not_pre {e : Element} (h : preNames.contains e.name = false) :
    blockOf? e = none := by
  unfold blockOf?
  rw [if_neg (ne_true_of_eq_false h)]

/-- What does not count in a preformatted block shows nothing and holds no elements. -/
theorem renderNodes_pre_filter (options : Options) (nodes : List Node) :
    renderNodes options Spacing.pre nodes = renderNodes options Spacing.pre (nodes.filter counts) ∧
      reachedIn nodes = reachedIn (nodes.filter counts) := by
  induction nodes with
  | nil => exact ⟨rfl, rfl⟩
  | cons node nodes ih =>
    obtain ⟨hrender, hreached⟩ := ih
    by_cases hcounts : counts node
    · rw [List.filter_cons_of_pos hcounts, renderNodes, renderNodes, reachedIn, reachedIn, hrender,
        hreached]
      exact ⟨rfl, rfl⟩
    · have hnothing : renderNode options Spacing.pre node = [] ∧ reachedOf node = [] := by
        cases node with
        | text s =>
          have hblank : isBlankText s := by simpa [counts, Node.isShown, Node.isBlankText] using hcounts
          refine ⟨?_, rfl⟩
          rw [renderNode, Spacing.render, hblank]
          rfl
        | comment s => exact ⟨rfl, rfl⟩
        | element tag attributes children => exact absurd rfl hcounts
      rw [List.filter_cons_of_neg hcounts, renderNodes, reachedIn, hnothing.1, hnothing.2, hrender,
        hreached]
      exact ⟨rfl, rfl⟩

/-- Code without elements shows its text. -/
theorem renderNodes_textual (options : Options) {nodes : List Node} (h : nodes.all isTextual) :
    renderNodes options Spacing.pre.keeping nodes = escape (ownText nodes) ∧ reachedIn nodes = [] := by
  induction nodes with
  | nil => exact ⟨rfl, rfl⟩
  | cons node nodes ih =>
    rw [List.all_cons, Bool.and_eq_true] at h
    obtain ⟨hrender, hreached⟩ := ih h.2
    cases node with
    | text s =>
      have hown : ownText (.text s :: nodes) = s ++ ownText nodes := List.flatMap_cons
      rw [renderNodes, reachedIn, hrender, hreached, hown, escape_append]
      exact ⟨rfl, rfl⟩
    | comment s =>
      have hown : ownText (.comment s :: nodes) = ownText nodes := List.flatMap_cons
      rw [renderNodes, reachedIn, hrender, hreached, hown]
      exact ⟨rfl, rfl⟩
    | element tag attributes children => cases h.1

/-- The one piece of code in a preformatted block is its HTML, and no other block is reached in it. -/
theorem exists_of_soleCode (options : Options) {nodes : List Node} {code : Element}
    (h : soleCode? nodes = some code) :
    renderNodes options Spacing.pre nodes =
        within "code".toList (Xml.writeAttributes code.attributes) (escape (ownText code.children)) ∧
      (reachedIn nodes).filterMap blockOf? = [] := by
  obtain ⟨hfilter, hname, htextual⟩ := exists_of_soleCode? h
  obtain ⟨hrender, hreached⟩ := renderNodes_pre_filter options nodes
  obtain ⟨hinside, hnone⟩ := renderNodes_textual options htextual
  obtain ⟨hsilent, hpre, hrule⟩ := contains_of_ofName code.name
  have hcode : Rule.ofName (localName code.tag) = .code := by
    have hname' := hname
    rw [hrule] at hname'
    exact eq_of_beq hname'
  have hcodeRule : Rule.ofName code.name = .code := hcode
  constructor
  · have hwithin : renderNode options Spacing.pre code.toNode =
        within "code".toList (Xml.writeAttributes code.attributes)
          (escape (ownText code.children)) := by
      rw [Element.toNode, renderNode, hcode]
      dsimp only
      rw [hinside]
    rw [hrender, hfilter, renderNodes, renderNodes, List.append_nil, hwithin]
  · have hshown : silentNames.contains (localName code.tag) = false := by
      rw [hcodeRule] at hsilent
      exact hsilent
    have hnot : preNames.contains code.name = false := by
      rw [hpre, hcodeRule]
      rfl
    rw [hreached, hfilter, reachedIn, reachedIn, List.append_nil, Element.toNode,
      reachedOf_of_shown hshown, hnone]
    simp [blockOf?_of_not_pre hnot]

/-! ## The blocks of rendered nodes -/

theorem madeOf_cloze {options : Options} (hcloze : options.cloze = ({} : Options).cloze) :
    MadeOf (isStart "code" · = false) options.cloze := by
  rw [hcloze]
  exact .of_isTag isTag_cloze (by decide)

/-- A preformatted block of rendered nodes is one of the two kinds. -/
theorem blocks_pre {options : Options} (hcloze : options.cloze = ({} : Options).cloze)
    {tag : List Char} {attributes : Attributes} {children : List Node}
    (hpart : AttributePart (Xml.writeAttributes attributes)) (hchildren : NamedNodes children)
    (hnames : ∀ e ∈ reachedIn children, goesOnAfter "code" (htmlName e.name) = false)
    (hpre : preNames.contains (localName tag))
    (hcode : (∀ inner ∈ reachedIn children, codeNames.contains inner.name = false) ∨
      (soleCode? children).isSome) :
    Blocks (within "pre".toList (Xml.writeAttributes attributes)
        (renderNodes options Spacing.pre children))
      ((⟨tag, attributes, children⟩ :: reachedIn children).filterMap blockOf?) := by
  have hopen : isStart "pre" (openTag "pre".toList (Xml.writeAttributes attributes)) = true :=
    isStart_pre_openTag (by decide) hpart (by decide)
  have hopening := isTag_openTag (by decide : Unbracketed "pre".toList) hpart.unbracketed
  have hself : blockOf? ⟨tag, attributes, children⟩ = (soleCode? children).map fun code =>
      ⟨openTag "pre".toList (Xml.writeAttributes attributes), [],
        openTag "code".toList (Xml.writeAttributes code.attributes), escape (ownText code.children)⟩ :=
    if_pos hpre
  rw [within_eq, closeTag_pre]
  cases hsole : soleCode? children with
  | none =>
    have hnone : ∀ inner ∈ reachedIn children, codeNames.contains inner.name = false := by
      rcases hcode with hnone | hsome
      · exact hnone
      · rw [hsole] at hsome
        cases hsome
    have hinside := madeOf_renderNodes_without_code (madeOf_cloze hcloze) Spacing.pre hchildren
      fun e he => ⟨hnone e he, hnames e he⟩
    rw [hsole] at hself
    rw [List.filterMap_cons_none hself, blocks_of_forall hnone]
    simpa using Blocks.plain hopening hopen hinside .nil
  | some code =>
    obtain ⟨hinside, hnone⟩ := exists_of_soleCode options hsole
    obtain ⟨hfilter, -, -⟩ := exists_of_soleCode? hsole
    have hmem : code.toNode ∈ children.filter counts := by
      rw [hfilter]
      exact List.mem_singleton_self _
    have hcodeNamed : code.toNode.Named := hchildren.of_mem (List.mem_filter.1 hmem).1
    have hcodePart := attributePart_writeAttributes hcodeNamed.2.1
    have hstart := isTag_openTag (by decide : Unbracketed "code".toList) hcodePart.unbracketed
    have hcodeStart : isStart "code" (openTag "code".toList (Xml.writeAttributes code.attributes)) =
        true := isStart_code_openTag (by decide) hcodePart (by decide)
    rw [hsole] at hself
    rw [List.filterMap_cons_some hself, hnone, hinside, within_eq, closeTag_code]
    simpa using Blocks.code hopening hopen hstart hcodeStart (unbracketed_escape _) .nil

theorem filterMap_blockOf?_cons {e : Element} (h : Rule.ofName e.name ≠ .pre) (elements : List Element) :
    (e :: elements).filterMap blockOf? = elements.filterMap blockOf? := by
  have hpre : preNames.contains e.name = false := by
    rw [(contains_of_ofName e.name).2.1, beq_false_of_ne h]
  exact List.filterMap_cons_none (blockOf?_of_not_pre hpre)

/-- An element that keeps its name has the blocks that it holds, and may be a block itself. -/
theorem blocks_element {options : Options} (hcloze : options.cloze = ({} : Options).cloze)
    {e : Element} {spacing : Spacing} (hspacing : Rule.ofName e.name = .pre → spacing = Spacing.pre)
    (hnamed : e.toNode.Named) (hcode : CodeInOnePiece (reachedOf e.toNode))
    (h : Blocks (renderNodes options spacing e.children) ((reachedIn e.children).filterMap blockOf?)) :
    Blocks (within (htmlName e.name) (Xml.writeAttributes e.attributes)
      (renderNodes options spacing e.children)) ((e :: reachedIn e.children).filterMap blockOf?) := by
  obtain ⟨hsilent, hpreRule, -⟩ := contains_of_ofName e.name
  have hpart := attributePart_writeAttributes hnamed.2.1
  have hself : e ∈ reachedOf e.toNode := by simp [Element.toNode, reachedOf]
  by_cases hpre : Rule.ofName e.name = .pre
  · rw [hpre] at hsilent hpreRule
    have hbelow : reachedIn e.children ⊆ reachedOf e.toNode := by
      rw [Element.toNode, reachedOf_of_shown hsilent]
      exact List.subset_cons_self _ _
    rw [beq_iff_eq.1 ((htmlName_beq_pre _).trans hpreRule), hspacing hpre]
    exact blocks_pre hcloze hpart hnamed.2.2 (fun inner hinner => (hcode.names inner (hbelow hinner)).2)
      hpreRule (hcode.pres e hself hpreRule)
  · have hname : Unbracketed (htmlName e.name) := unbracketed_htmlName hnamed.1
    have hother : isStart "pre" (openTag (htmlName e.name) (Xml.writeAttributes e.attributes)) =
        false := by
      rw [isStart_pre_openTag hname hpart (hcode.names e hself).1, htmlName_beq_pre, hpreRule,
        beq_false_of_ne hpre]
    rw [filterMap_blockOf?_cons hpre]
    exact h.within hname hpart hother

theorem keptByRendering_blocks {options : Options} (hcloze : options.cloze = ({} : Options).cloze) :
    KeptByRendering options (fun e => CodeInOnePiece (reachedOf e.toNode)) fun elements html =>
      Blocks html (elements.filterMap blockOf?) where
  text := .of_unbracketed
  append h hmore := by
    rw [List.filterMap_append]
    exact h.append hmore
  hidden hrule := by
    rw [filterMap_blockOf?_cons (by rw [hrule]; decide)]
    exact .nil
  cloze hrule := by
    rw [filterMap_blockOf?_cons (by rw [hrule]; decide), hcloze]
    exact .of_isTag isTag_cloze (by decide)
  image hrule hnamed := by
    have hpart := (attributePart_writeAttributes hnamed.2.1).image
    rw [filterMap_blockOf?_cons (by rw [hrule]; decide), image_eq]
    exact .of_isTag (isTag_openTag (by decide) hpart.unbracketed)
      (isStart_pre_openTag (by decide) hpart (by decide))
  line hrule := by
    rw [filterMap_blockOf?_cons (by rw [hrule]; decide)]
    exact .of_isTag isTag_line (by decide)
  choices hrule h := by
    have hwrapper := attributePart_choiceWrapper options
    rw [filterMap_blockOf?_cons (by rw [hrule]; decide)]
    exact h.within (by decide) hwrapper (isStart_pre_openTag (by decide) hwrapper (by decide))
  element _ hspacing hnamed hcode h := blocks_element hcloze hspacing hnamed hcode h

/-- Rendered nodes have their code in one piece if the nodes have. -/
theorem blocks_renderNodes {options : Options} (hcloze : options.cloze = ({} : Options).cloze)
    (spacing : Spacing) {nodes : List Node} (hnodes : NamedNodes nodes)
    (hcode : CodeInOnePiece (reachedIn nodes)) :
    Blocks (renderNodes options spacing nodes) ((reachedIn nodes).filterMap blockOf?) :=
  (keptByRendering_blocks hcloze).nodes spacing hnodes fun _ he => hcode.of_subset (reachedOf_subset he)

/-! ## What is asked -/

/-- Highlighters are asked about the blocks in the order in which they are found, as long as their
replies can be read. -/
theorem calls_highlightPieces (options : Options) (highlighter : Highlighter)
    (pieces : List (Piece CodeBlock)) :
    (highlightPieces options highlighter pieces).calls <+:
        (pieces.filterMap Piece.found?).map CodeBlock.call ∧
      ((∀ block ∈ pieces.filterMap Piece.found?, ∃ reply,
          (highlighter block.code block.declared).read = .ok reply) →
        (highlightPieces options highlighter pieces).calls =
          (pieces.filterMap Piece.found?).map CodeBlock.call) := by
  induction pieces with
  | nil => exact ⟨List.prefix_refl _, fun _ => rfl⟩
  | cons piece pieces ih =>
    obtain ⟨hbegins, hall⟩ := ih
    cases piece with
    | char c => exact ⟨hbegins, hall⟩
    | found block =>
      rw [highlightPieces]
      dsimp only [List.filterMap_cons, Piece.found?, List.map_cons]
      cases hread : (highlighter block.code block.declared).read with
      | error problems =>
        constructor
        · exact List.cons_prefix_cons.2 ⟨rfl, List.nil_prefix⟩
        · intro hreplies
          obtain ⟨reply, hreply⟩ := hreplies block List.mem_cons_self
          rw [hread] at hreply
          cases hreply
      | ok reply =>
        constructor
        · exact List.cons_prefix_cons.2 ⟨rfl, hbegins⟩
        · intro hreplies
          have hrest := hall fun other hother => hreplies other (List.mem_cons_of_mem _ hother)
          exact congrArg (block.call :: ·) hrest

theorem calls_render {options : Options} {highlighter : Highlighter} {root body : Element}
    {expected : List Char} (hsome : options.highlighter = some highlighter)
    (hbody : findBody expected root = .ok body) :
    (render options expected root).calls =
      (highlightPieces options highlighter
        (codeBlock.pieces (mergeFragments (renderBody options body)))).calls := by
  unfold render finishHtml decorateBlocks
  rw [hbody, hsome]
  rfl

/-- Where the code of each preformatted block of an item is in one piece, a highlighter is asked about
the code of each of these blocks, once and in document order, and about nothing else. It is given the
text of the code and the language that the start tag of the code declares. Only a reply that cannot be
read keeps it from being asked on. -/
theorem highlighter_is_asked {source : Source} {root body : Element} {expected : List Char}
    (highlighter : Highlighter) (hread : readDocument source = .ok root)
    (hbody : findBody expected root = .ok body) (hcode : CodeInOnePiece (reachedIn body.children)) :
    (render { highlighter := some highlighter } expected root).calls <+: blockCalls body ∧
      ((∀ call ∈ blockCalls body, ∃ reply,
          (highlighter call.code call.language).read = .ok reply) →
        (render { highlighter := some highlighter } expected root).calls = blockCalls body) := by
  let options : Options := { highlighter := some highlighter }
  have hblocks : Blocks (renderBody options body) ((reachedIn body.children).filterMap blockOf?) := by
    have hpart := attributePart_bodyWrapper options.bodyWrapperClass
    have hinside := @blocks_renderNodes options rfl Spacing.root _
      (namedNodes_of_findBody hread hbody) hcode
    exact hinside.within (by decide) hpart (isStart_pre_openTag (by decide) hpart (by decide))
  have hfound : (codeBlock.pieces (mergeFragments (renderBody options body))).filterMap Piece.found? =
      (reachedIn body.children).filterMap blockOf? := by
    rw [← codeBlock.findAll_eq, hblocks.mergeFragments_eq, hblocks.findAll_eq]
  obtain ⟨hbegins, hall⟩ := calls_highlightPieces options highlighter
    (codeBlock.pieces (mergeFragments (renderBody options body)))
  rw [hfound, map_call_blocks] at hbegins hall
  rw [@calls_render options _ _ _ _ rfl hbody]
  refine ⟨hbegins, fun hreplies => hall fun block hblock => ?_⟩
  have hcall : block.call ∈ blockCalls body := by
    rw [blockCalls, ← map_call_blocks]
    exact List.mem_map_of_mem hblock
  exact hreplies _ hcall

/-- The item body of a document. -/
def bodyOf? (expected : List Char) (source : Source) : Option Element :=
  match readDocument source with
  | .ok root => (findBody expected root).toOption
  | .error _ => none

theorem exists_of_bodyOf? {α : Type} {f : Element → α} {a : α} {expected : List Char}
    {source : Source} (h : (bodyOf? expected source).map f = some a) :
    ∃ root body, readDocument source = .ok root ∧ findBody expected root = .ok body ∧ f body = a := by
  obtain ⟨body, hbody, rfl⟩ := Option.map_eq_some_iff.1 h
  unfold bodyOf? at hbody
  split at hbody
  · next root hread =>
    cases hfound : findBody expected root with
    | error failure =>
      rw [hfound] at hbody
      cases hbody
    | ok found =>
      rw [hfound] at hbody
      cases hbody
      exact ⟨root, body, hread, hfound, rfl⟩
  · cases hbody

/-- A document with code in a paragraph, two blocks of code and a preformatted block without code. -/
def blocksSample : Source := .text <|
  "<i identifier='q'><qti-item-body><qti-p><code class='lang-c'>f</code></qti-p><qti-pre> ".toList ++
    "<qti-code class='language-css'> a &lt; b </qti-code></qti-pre><pre>no code</pre>".toList ++
    "<pre><code>plain</code></pre></qti-item-body></i>".toList

theorem highlighter_is_asked_blocksSample : ∃ root body, readDocument blocksSample = .ok root ∧
    findBody ['q'] root = .ok body ∧ CodeInOnePiece (reachedIn body.children) ∧
    blockCalls body = [⟨" a < b ".toList, some "css".toList⟩, ⟨"plain".toList, none⟩] ∧
    (render { highlighter := some fun _ _ => { fields := [] } } ['q'] root).calls =
      blockCalls body := by
  have hsample : ((bodyOf? ['q'] blocksSample).map fun body =>
      (decide (CodeInOnePiece (reachedIn body.children)), blockCalls body)) =
        some (true, [⟨" a < b ".toList, some "css".toList⟩, ⟨"plain".toList, none⟩]) := by
    unfold blocksSample
    -- Literals are evaluated faster as lists of characters.
    repeat rewrite [String.toList_ofList]
    decide +kernel
  obtain ⟨root, body, hread, hbody, hpair⟩ := exists_of_bodyOf? hsample
  obtain ⟨hdecided, hcalls⟩ := Prod.mk.inj hpair
  have hcode := of_decide_eq_true hdecided
  have hasked := highlighter_is_asked (fun _ _ => { fields := [] }) hread hbody hcode
  exact ⟨root, body, hread, hbody, hcode, hcalls, hasked.2 fun _ _ => ⟨_, rfl⟩⟩

end Assessment.Report
