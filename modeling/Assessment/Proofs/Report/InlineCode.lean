import Assessment.Proofs.Markup.ClearTags
import Assessment.Proofs.Markup.CountTags
import Assessment.Proofs.Report.Passes

/-!
# Proofs: code in blocks and other code

Blocks of code are marked first, and what is marked then is passed over when the other code is marked. A
block is recognised by its classes alone, which are read again from its tag up to the next closing
bracket.

Main statement: `block_code_stays_block_code`, for tags in the plain form and options and replies that can
be written into a tag. `bracket_in_language_hides_block` is a reply that cannot.
-/

namespace Assessment.Report

open Assessment.Text Assessment.Markup
open Assessment.Markup.StartTag (Spelling ClearWord IsAttributeName classKey)

/-! ## Blocks as they are written -/

/-- The language and the HTML that a block is written with. -/
def CodeBlock.answer (options : Options) (block : CodeBlock) :
    Except (List Assessment.Options.Problem) (List Char × List Char) :=
  match options.highlighter with
  | none => .ok (block.language, block.content)
  | some highlighter =>
    (highlighter block.code block.declared).read.map fun (language, html) =>
      ((language.map Language.normalize).getD block.language,
        if html.isEmpty then block.content else html)

/-- The block as it is written. -/
def CodeBlock.write (options : Options) (block : CodeBlock) : List Char :=
  match block.answer options with
  | .ok (language, content) => block.tagged options language content
  | .error _ => []

/-- The pieces of a text with the blocks among them marked. -/
def writePieces (options : Options) (pieces : List (Piece CodeBlock)) : List Char :=
  pieces.flatMap (Piece.write (CodeBlock.write options))

theorem exists_of_map_ok {ε α β : Type} {f : α → β} {result : Except ε α} {b : β}
    (h : result.map f = .ok b) : ∃ a, result = .ok a ∧ f a = b := by
  cases result with
  | error e => cases h
  | ok a => exact ⟨a, rfl, Except.ok.inj h⟩

/-- A reply that can be read says how a block is written. -/
theorem CodeBlock.exists_answer_of_read {options : Options} {highlighter : Highlighter}
    (hsome : options.highlighter = some highlighter) {block : CodeBlock}
    {language : Option (List Char)} {html : List Char}
    (hread : (highlighter block.code block.declared).read = .ok (language, html)) :
    (∃ answer, block.answer options = .ok answer) ∧
      block.write options = block.highlighted options language html := by
  have hanswer : block.answer options = .ok ((language.map Language.normalize).getD block.language,
      if html.isEmpty then block.content else html) := by
    simp only [answer, hsome, hread]
    rfl
  refine ⟨⟨_, hanswer⟩, ?_⟩
  rw [write, hanswer]
  rfl

theorem write_of_highlightPieces {options : Options} {highlighter : Highlighter}
    (hsome : options.highlighter = some highlighter) {pieces : List (Piece CodeBlock)}
    {text : List Char} (h : (highlightPieces options highlighter pieces).result = .ok text) :
    text = writePieces options pieces ∧
      ∀ block, .found block ∈ pieces → ∃ answer, block.answer options = .ok answer := by
  induction pieces generalizing text with
  | nil =>
    cases h
    exact ⟨rfl, fun _ hmem => absurd hmem List.not_mem_nil⟩
  | cons piece pieces ih =>
    cases piece with
    | char c =>
      obtain ⟨rest, hrest, rfl⟩ := exists_of_map_ok h
      obtain ⟨rfl, hanswers⟩ := ih hrest
      refine ⟨rfl, fun block hmem => hanswers block ?_⟩
      simpa using hmem
    | found block =>
      rw [highlightPieces] at h
      dsimp only at h
      split at h
      · next language html hread =>
        obtain ⟨rest, hrest, rfl⟩ := exists_of_map_ok h
        obtain ⟨rfl, hanswers⟩ := ih hrest
        obtain ⟨hanswer, hwrite⟩ := CodeBlock.exists_answer_of_read hsome hread
        refine ⟨by rw [← hwrite]; rfl, fun other hmem => ?_⟩
        rcases List.mem_cons.1 hmem with heq | hmem
        · cases heq
          exact hanswer
        · exact hanswers other hmem
      · cases h

/-- The marked HTML is made of the pieces of the HTML, each block as it is written. -/
theorem write_of_decorateBlocks {options : Options} {html text : List Char}
    (h : (decorateBlocks options html).result = .ok text) :
    text = writePieces options (codeBlock.pieces html) ∧
      ∀ block, .found block ∈ codeBlock.pieces html → ∃ answer, block.answer options = .ok answer := by
  unfold decorateBlocks at h
  split at h
  · next hnone =>
    have hanswer (block : CodeBlock) :
        block.answer options = .ok (block.language, block.content) := by
      simp only [CodeBlock.answer, hnone]
    have hwrite : CodeBlock.write options =
        fun block => block.tagged options block.language block.content := by
      funext block
      rw [CodeBlock.write, hanswer]
    refine ⟨?_, fun block _ => ⟨_, hanswer block⟩⟩
    rw [writePieces, hwrite]
    exact (Except.ok.inj h).symm
  · next highlighter hsome => exact write_of_highlightPieces hsome h

/-! ## What can be read back -/

/-- The attributes that are set when code is marked. -/
def Options.marks (options : Options) : List (List Char) := [classKey, options.languageAttribute]

/-- The options can be read back from the tags they are written into: there is a class for code in blocks,
no class can be taken for something else in a tag, and the language has an attribute of its own. -/
structure Options.Legible (options : Options) : Prop where
  blockCode_ne : words options.codeBlockCodeClass ≠ []
  blockCode : ∀ w ∈ words options.codeBlockCodeClass, ClearWord options.marks w
  inlineCode : ∀ w ∈ words options.inlineCodeClass, ClearWord options.marks w
  languageAttribute : IsAttributeName options.languageAttribute
  languageAttribute_ne : options.languageAttribute ≠ classKey
  /-- A language that a highlighter names holds no bracket. -/
  replies : ∀ highlighter ∈ options.highlighter, ∀ code declared language html,
    (highlighter code declared).read = .ok (some language, html) → Unbracketed language

/-- The start tag is plain, and its values can be told from the attributes that are set. -/
def IsClear (options : Options) (start : List Char) : Prop :=
  ∃ s : Spelling, start = s.write ∧ s.Clear options.marks

/-- The tag of an element is clear if the names of its attributes are ASCII and distinct and no word of
their values is the beginning of an attribute that is set. -/
theorem isClear_elementTag {options : Options} {name : List Char} (hne : name ≠ [])
    (hname : ∀ c ∈ name, StartTag.isTagNameChar c = true) {attributes : Attributes}
    (hnames : ∀ a ∈ StartTag.writtenPairs attributes, IsAttributeName a.1)
    (hdistinct : ((StartTag.writtenPairs attributes).map Prod.fst).Nodup)
    (hsigns : ∀ a ∈ StartTag.writtenPairs attributes, ∀ mark ∈ options.marks,
      mark ++ ['='] ∉ words a.2) :
    IsClear options ('<' :: name ++ Xml.writeAttributes attributes ++ ['>']) := by
  refine ⟨StartTag.spellingOf name attributes, (StartTag.write_spellingOf name attributes).symm,
    StartTag.plain_spellingOf hne hname hnames, ?_, fun e he => ?_⟩
  · rwa [StartTag.keys_eq, StartTag.pairs_spellingOf]
  · obtain ⟨a, ha, rfl⟩ := List.mem_map.1 he
    have hsign := hsigns a ha
    obtain ⟨b, -, rfl⟩ := List.mem_map.1 ha
    exact ⟨fun c hc => ⟨(ne_of_mem_escape hc).1, (ne_of_mem_escape hc).2.1⟩,
      quote_not_mem_escape b.2, hsign⟩

section Tags

variable {options : Options} {start : List Char}

theorem IsClear.isTag (h : IsClear options start) : IsTag start := by
  obtain ⟨s, rfl, hs⟩ := h
  exact hs.isTag_write

/-- A language that is not too odd can be written into a clear tag together with classes, and all
classes are read from it. -/
theorem IsClear.taggedStart (hoptions : options.Legible) (h : IsClear options start)
    {classes language : List Char} (hclasses : ∀ w ∈ words classes, ClearWord options.marks w)
    (hlanguage : Unbracketed language) :
    IsTag (taggedStart options classes language start) ∧
      (isStart "code" start = true →
        isStart "code" (Report.taggedStart options classes language start) = true) ∧
      StartTag.classes (Report.taggedStart options classes language start) =
        StartTag.mergeClasses (StartTag.classes start) (words classes) := by
  obtain ⟨s, rfl, hs⟩ := h
  have hmark : options.languageAttribute ∈ options.marks :=
    List.mem_cons_of_mem _ List.mem_cons_self
  have hname : ∀ c ∈ "code".toList, StartTag.isTagNameChar c = true := by decide
  obtain ⟨t, hwrite, ht, hread, hstart⟩ := hs.exists_addClasses List.mem_cons_self
    (fun w hw => isWord_of_mem_words hw) hclasses
  unfold Report.taggedStart
  rw [hwrite]
  refine ⟨?_, fun hcode => ?_, ?_⟩
  · exact StartTag.isTag_setAttribute hoptions.languageAttribute.solid.isValue.unbracketed hlanguage
      ht.isTag_write
  · exact ht.isStart_setAttribute hoptions.languageAttribute hmark hlanguage hname (hstart hname hcode)
  · rw [ht.classes_setAttribute hoptions.languageAttribute hmark hoptions.languageAttribute_ne, hread]

/-- Code that was marked as that of a block is seen as such. -/
theorem IsClear.isBlockCode_taggedStart (hoptions : options.Legible) (h : IsClear options start)
    {language : List Char} (hlanguage : Unbracketed language) :
    isBlockCode options (Report.taggedStart options options.codeBlockCodeClass language start) = true := by
  obtain ⟨-, -, hread⟩ := h.taggedStart hoptions hoptions.blockCode hlanguage
  have hsome : (words options.codeBlockCodeClass).isEmpty = false := by
    simpa using hoptions.blockCode_ne
  have hall : (words options.codeBlockCodeClass).all (StartTag.hasClass
      (Report.taggedStart options options.codeBlockCodeClass language start)) = true := by
    rw [List.all_eq_true]
    intro w hw
    rw [StartTag.hasClass, hread, List.contains_iff_mem]
    exact StartTag.subset_mergeClasses (fun v hv => (isWord_of_mem_words hv).ne_nil) _ hw
  simp only [isBlockCode, hsome, hall, Bool.not_false, Bool.and_self]

/-- Code that lacks a class of code in blocks gets the classes of other code. -/
theorem IsClear.subset_classes_inlineStart (hoptions : options.Legible) (h : IsClear options start)
    (hother : ¬ words options.codeBlockCodeClass ⊆ StartTag.classes start) :
    words options.inlineCodeClass ⊆ StartTag.classes (inlineStart options start) := by
  have hblock : isBlockCode options start = false := by
    refine eq_false_of_ne_true fun hblock => hother fun w hw => ?_
    rw [isBlockCode, Bool.and_eq_true, List.all_eq_true] at hblock
    exact List.contains_iff_mem.1 (hblock.2 w hw)
  have hwords : ∀ w ∈ words options.inlineCodeClass, w ≠ [] := fun w hw =>
    (isWord_of_mem_words hw).ne_nil
  have hmerged := StartTag.subset_mergeClasses hwords (StartTag.classes start)
  unfold inlineStart
  rw [hblock, if_neg Bool.false_ne_true]
  dsimp only
  split
  · next language hdeclared =>
    have hlanguage : Unbracketed (Language.normalize language) :=
      Language.unbracketed_normalize (Language.unbracketed_of_ofTag h.isTag hdeclared)
    obtain ⟨-, -, hread⟩ := h.taggedStart hoptions hoptions.inlineCode hlanguage
    exact hread ▸ hmerged
  · obtain ⟨s, rfl, hs⟩ := h
    obtain ⟨t, hwrite, -, hread, -⟩ := hs.exists_addClasses List.mem_cons_self
      (fun w hw => isWord_of_mem_words hw) hoptions.inlineCode
    rw [hwrite, hread]
    exact hmerged

end Tags

/-! ## The tags of a block -/

theorem exists_inside_of_startTag? {name : String} {s tag rest : List Char}
    (h : RawTag.startTag? name s = some (tag, rest)) : ∃ inside, tag = '<' :: inside ++ ['>'] := by
  unfold RawTag.startTag? RawTag.tag? at h
  split at h
  · cases h
  · next t ht =>
    split at h
    · obtain ⟨⟨inside, r⟩, -, heq⟩ := Option.map_eq_some_iff.1 h
      cases heq
      exact ⟨name.toList ++ inside, rfl⟩
    · cases h

/-- A start tag that is marked still ends with a bracket. -/
theorem exists_inside_taggedStart (options : Options) (classes language inside : List Char) :
    ∃ inside', taggedStart options classes language ('<' :: inside ++ ['>']) =
      '<' :: inside' ++ ['>'] := by
  have htrue (s : List Char) : ∀ c ∈ s, True := fun _ _ => trivial
  unfold taggedStart StartTag.addClasses
  obtain ⟨added, hadded, -⟩ := StartTag.exists_of_setAttribute (htrue inside)
    (htrue (StartTag.written "class".toList (joinWith [' '] (StartTag.mergeClasses
      (StartTag.classes ('<' :: inside ++ ['>'])) (words classes)))))
  obtain ⟨marked, hmarked, -⟩ := StartTag.exists_of_setAttribute (htrue added)
    (htrue (StartTag.written options.languageAttribute language))
  exact ⟨marked, by rw [hadded, hmarked]⟩

/-- What is found as a block of code: its first start tag ends with a bracket, white space follows, and
its second start tag is one of code. -/
structure CodeBlock.Found (block : CodeBlock) : Prop where
  preStart : ∃ inside, block.preStart = '<' :: inside ++ ['>']
  space : ∀ c ∈ block.space, c ≠ '<'
  codeStart : ∃ rest, RawTag.startTag? "code" (block.codeStart ++ rest) = some (block.codeStart, rest)

theorem found_of_mem_pieces {html : List Char} {block : CodeBlock}
    (h : .found block ∈ codeBlock.pieces html) : block.Found := by
  obtain ⟨s, rest, hrun⟩ := codeBlock.exists_run_of_found h
  obtain ⟨t, u, hpre, hspace, hcode, -⟩ := exists_of_codeBlock? hrun
  refine ⟨exists_inside_of_startTag? hpre, fun c hc heq => ?_, u, ?_⟩
  · rw [← hspace, heq] at hc
    exact absurd (List.mem_takeWhile_imp hc) (by decide)
  · rw [← RawTag.tag?_append hcode]
    exact hcode

theorem IsClear.isStart_codeStart {options : Options} {block : CodeBlock}
    (h : IsClear options block.codeStart) (hfound : block.Found) :
    isStart "code" block.codeStart = true := by
  obtain ⟨rest, hrun⟩ := hfound.codeStart
  rw [startTag?_append (by decide) h.isTag] at hrun
  by_contra hstart
  rw [if_neg hstart] at hrun
  cases hrun

theorem Options.Legible.unbracketed_language {options : Options} (hoptions : options.Legible)
    {block : CodeBlock} (hclear : IsClear options block.codeStart) {language content : List Char}
    (h : block.answer options = .ok (language, content)) : Unbracketed language := by
  have hown : Unbracketed block.language := unbracketed_languageOf hclear.isTag
  unfold CodeBlock.answer at h
  split at h
  · cases h
    exact hown
  · next highlighter hsome =>
    cases hread : (highlighter block.code block.declared).read with
    | error problems =>
      rw [hread] at h
      cases h
    | ok reply =>
      obtain ⟨named, html⟩ := reply
      rw [hread] at h
      cases h
      cases named with
      | none => exact hown
      | some named =>
        exact Language.unbracketed_normalize (hoptions.replies highlighter hsome _ _ _ _ hread)

/-! ## Marking the other code -/

/-- The search for code begins anew behind a closing bracket and white space. -/
theorem decorateInline_append {before space : List Char} (hspace : ∀ c ∈ space, c ≠ '<')
    (options : Options) (rest : List Char) :
    decorateInline options (before ++ '>' :: (space ++ rest)) =
      decorateInline options (before ++ '>' :: space) ++ decorateInline options rest := by
  have hpieces (rest : List Char) : codeStart.pieces (before ++ '>' :: (space ++ rest)) =
      codeStart.pieces (before ++ ['>']) ++ space.map .char ++ codeStart.pieces rest := by
    rw [List.append_assoc,
      ← Recognizer.pieces_append_of_starts (p := codeStart) (fun h => startTag?_cons h _) hspace]
    exact pieces_startTag_append_cons (by decide) before (space ++ rest)
  have hself := hpieces []
  rw [List.append_nil, Recognizer.pieces_nil, List.append_nil] at hself
  rw [decorateInline, decorateInline, decorateInline, Recognizer.replace, hpieces, ← hself,
    List.flatMap_append]
  rfl

/-- A start tag of code is replaced as a whole. -/
theorem decorateInline_start {start : List Char} (htag : IsTag start)
    (hstart : isStart "code" start = true) (options : Options) (rest : List Char) :
    decorateInline options (start ++ rest) =
      inlineStart options start ++ decorateInline options rest := by
  have hrun : codeStart.run (start ++ rest) = some (start, rest) :=
    (startTag?_append (by decide) htag rest).trans (if_pos hstart)
  exact Recognizer.replace_of_run _ hrun

/-- A text with a clear block of code in it, all blocks being marked. The start tag of the code is a part
of its own, which comes out unchanged when the other code is marked. -/
theorem decorateInline_block {options : Options} (hoptions : options.Legible) {block : CodeBlock}
    (hfound : block.Found) (hclear : IsClear options block.codeStart) {language : List Char}
    (hlanguage : Unbracketed language) (before rest : List Char) :
    let left := before ++ taggedStart options options.codeBlockClass language block.preStart ++ block.space
    let start := taggedStart options options.codeBlockCodeClass language block.codeStart
    decorateInline options (left ++ start ++ rest) =
      decorateInline options left ++ start ++ decorateInline options rest := by
  intro left start
  obtain ⟨htag, hcode, -⟩ := hclear.taggedStart hoptions hoptions.blockCode hlanguage
  have hstart := hcode (hclear.isStart_codeStart hfound)
  have hsame : inlineStart options start = start :=
    if_pos (hclear.isBlockCode_taggedStart hoptions hlanguage)
  obtain ⟨inside, hinside⟩ := hfound.preStart
  obtain ⟨inside', hpre⟩ := exists_inside_taggedStart options options.codeBlockClass language inside
  have hleft : left = (before ++ '<' :: inside') ++ '>' :: block.space := by
    show before ++ taggedStart options options.codeBlockClass language block.preStart ++ block.space = _
    rw [hinside, hpre]
    simp
  rw [hleft, List.append_assoc, List.append_assoc, List.cons_append,
    decorateInline_append hfound.space, decorateInline_start htag hstart, hsame, ← List.append_assoc]

/-- Blocks are not marked as other code. Let the options be legible, and some HTML be marked by the first
pass. Where a block was found, the start tag of its code is a part of what was written for it, and it
comes out of the second pass unchanged if the tag of the code was clear. Every other clear start tag of
code that lacks a class of code in blocks gets the classes of other code. -/
theorem block_code_stays_block_code {options : Options} (hoptions : options.Legible)
    {html text : List Char} (h : (decorateBlocks options html).result = .ok text) :
    (∀ before block after, codeBlock.pieces html = before ++ .found block :: after →
      IsClear options block.codeStart →
      ∃ language content, block.answer options = .ok (language, content) ∧
        let left := writePieces options before ++
          taggedStart options options.codeBlockClass language block.preStart ++ block.space
        let start := taggedStart options options.codeBlockCodeClass language block.codeStart
        let right := content ++ codeEnd ++ writePieces options after
        text = left ++ start ++ right ∧
          decorateInline options text =
            decorateInline options left ++ start ++ decorateInline options right) ∧
    ∀ before start after, codeStart.pieces text = before ++ .found start :: after →
      IsClear options start → ¬ words options.codeBlockCodeClass ⊆ StartTag.classes start →
      decorateInline options text = before.flatMap (Piece.write (inlineStart options)) ++
        inlineStart options start ++ after.flatMap (Piece.write (inlineStart options)) ∧
      words options.inlineCodeClass ⊆ StartTag.classes (inlineStart options start) := by
  obtain ⟨htext, hanswers⟩ := write_of_decorateBlocks h
  refine ⟨fun before block after hpieces hclear => ?_, fun before start after hpieces hclear hother => ?_⟩
  · have hmem : .found block ∈ codeBlock.pieces html := by
      rw [hpieces]
      exact List.mem_append_right _ List.mem_cons_self
    obtain ⟨⟨language, content⟩, hanswer⟩ := hanswers block hmem
    refine ⟨language, content, hanswer, ?_⟩
    intro left start right
    have hsplit : text = left ++ start ++ right := by
      rw [htext, hpieces, writePieces, List.flatMap_append, List.flatMap_cons, Piece.write,
        CodeBlock.write, hanswer]
      simp [left, start, right, writePieces, CodeBlock.tagged]
    refine ⟨hsplit, ?_⟩
    rw [hsplit]
    exact decorateInline_block hoptions (found_of_mem_pieces hmem) hclear
      (hoptions.unbracketed_language hclear hanswer) _ _
  · refine ⟨?_, hclear.subset_classes_inlineStart hoptions hother⟩
    rw [decorateInline, Recognizer.replace_eq, hpieces, List.flatMap_append, List.flatMap_cons,
      List.append_assoc]
    rfl

theorem legible_default : Options.Legible {} where
  blockCode_ne := by decide
  blockCode := by
    have hwords : words ({} : Options).codeBlockCodeClass = ["code-block-code".toList] := by decide
    rw [hwords]
    exact List.forall_mem_singleton.2 ⟨by decide, by decide, by decide⟩
  inlineCode := by
    have hwords : words ({} : Options).inlineCodeClass = ["code-inline".toList] := by decide
    rw [hwords]
    exact List.forall_mem_singleton.2 ⟨by decide, by decide, by decide⟩
  languageAttribute := by decide
  languageAttribute_ne := by decide
  replies _ h := nomatch h

/-- A block of code and other code. -/
def mixedCodeSample : List Char :=
  "<pre><code class=\"language-css\" title=\"a = b\">x</code></pre><code>y</code>".toList

/-- The block of the sample. -/
def mixedCodeBlock : CodeBlock :=
  ⟨"<pre>".toList, [], "<code class=\"language-css\" title=\"a = b\">".toList, "x".toList⟩

/-- The code of the block is not marked again, and the other code is marked. -/
theorem block_code_stays_block_code_mixedCodeSample :
    ∃ text, (decorateBlocks {} mixedCodeSample).result = .ok text ∧
      (∃ left right,
        let start := "<code data-code-lang=\"css\" class=\"language-css code-block-code\" ".toList ++
          "title=\"a = b\">".toList
        text = left ++ start ++ right ∧
          decorateInline {} text = decorateInline {} left ++ start ++ decorateInline {} right) ∧
      ["code-inline".toList] ⊆ StartTag.classes (inlineStart {} "<code>".toList) := by
  have hclear : IsClear {} mixedCodeBlock.codeStart :=
    @isClear_elementTag {} "code".toList (by decide) (by decide)
      [("class".toList, "language-css".toList), ("title".toList, "a = b".toList)]
      (by decide) (by decide) (by decide)
  have hplain : IsClear {} "<code>".toList :=
    @isClear_elementTag {} "code".toList (by decide) (by decide) [] (by decide) (by decide) (by decide)
  have hpieces : codeBlock.pieces mixedCodeSample =
      [] ++ .found mixedCodeBlock :: ("</pre><code>y</code>".toList.map .char) := by
    unfold mixedCodeSample mixedCodeBlock
    -- Literals are evaluated faster as lists of characters.
    repeat rewrite [String.toList_ofList]
    decide +kernel
  have htext : (decorateBlocks {} mixedCodeSample).result =
      .ok (writePieces {} (codeBlock.pieces mixedCodeSample)) := rfl
  have hothers : codeStart.pieces (writePieces {} (codeBlock.pieces mixedCodeSample)) =
      (codeStart.pieces (writePieces {} [.found mixedCodeBlock]) ++ "</pre>".toList.map .char) ++
        .found "<code>".toList :: "y</code>".toList.map .char := by
    decide +kernel
  obtain ⟨hblocks, hrest⟩ := block_code_stays_block_code legible_default htext
  obtain ⟨language, content, hanswer, hsplit, hinline⟩ := hblocks _ _ _ hpieces hclear
  have hlanguage : language = "css".toList := by
    have hown : mixedCodeBlock.answer {} = .ok ("css".toList, "x".toList) := by
      decide +kernel
    rw [hown] at hanswer
    cases hanswer
    rfl
  have hstart : taggedStart {} ({} : Options).codeBlockCodeClass language mixedCodeBlock.codeStart =
      "<code data-code-lang=\"css\" class=\"language-css code-block-code\" ".toList ++
        "title=\"a = b\">".toList := by
    rw [hlanguage]
    decide +kernel
  rw [hstart] at hsplit hinline
  exact ⟨_, htext, ⟨_, _, hsplit, hinline⟩,
    (hrest _ _ _ hothers hplain (by decide +kernel)).2⟩

/-- A highlighter that names a language with a closing bracket. -/
def bracketHighlighter : Highlighter := fun _ _ =>
  { fields := [("language".toList, .text "a>b".toList), ("html".toList, .text "y".toList)] }

/-- The language of a reply cuts the tag of the code in front of its classes, and the code of the block is
marked as other code. -/
theorem bracket_in_language_hides_block :
    let options : Options := { highlighter := some bracketHighlighter }
    let start := "<code data-code-lang=\"a>b\" class=\"code-block-code\">".toList
    let opening := "<pre data-code-lang=\"a>b\" class=\"code-block hljs\">".toList
    ∃ text, (decorateBlocks options "<pre><code>x</code></pre>".toList).result = .ok text ∧
      text = opening ++ start ++ "y</code></pre>".toList ∧
      decorateInline options text =
        opening ++ "<code class=\"code-inline\" data-code-lang=\"a>b\" ".toList ++
          "class=\"code-block-code\">y</code></pre>".toList := by
  intro options start opening
  have hresult : (decorateBlocks options "<pre><code>x</code></pre>".toList).result.toOption =
      some (opening ++ start ++ "y</code></pre>".toList) := by
    unfold opening start
    repeat rewrite [String.toList_ofList]
    decide +kernel
  cases hdecorated : (decorateBlocks options "<pre><code>x</code></pre>".toList).result with
  | error failure =>
    rw [hdecorated] at hresult
    cases hresult
  | ok text =>
    rw [hdecorated] at hresult
    obtain rfl : text = opening ++ start ++ "y</code></pre>".toList := Option.some.inj hresult
    refine ⟨_, rfl, rfl, ?_⟩
    unfold opening start
    repeat rewrite [String.toList_ofList]
    decide +kernel

end Assessment.Report
