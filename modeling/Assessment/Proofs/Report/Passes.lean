import Assessment.Proofs.Markup.StartTag
import Assessment.Report.CodePass

/-!
# Proofs: the passes over code in reports

What the passes recognise starts at a tag and ends at a tag, and what they put in its place shows the
same text. So HTML shows the same text before and after each of them.
-/

namespace Assessment.Report

open Assessment.Text Assessment.Markup

/-! ## What the passes recognise -/

theorem startTag?_cons {name : String} {c : Char} (h : c ≠ '<') (s : List Char) :
    RawTag.startTag? name (c :: s) = none := by
  unfold RawTag.startTag? RawTag.tag?
  simp [after?, Ne.symm h]

theorem startTag?_of_shows {name : String} {html text tag rest : List Char}
    (hname : '>' ∉ name.toList) (h : Shows html text)
    (htag : RawTag.startTag? name html = some (tag, rest)) : IsTag tag ∧ Shows rest text :=
  h.of_tag? hname htag

theorem isTag_preEnd : IsTag preEnd :=
  @IsTag.intro "/pre".toList (by decide)

theorem isTag_codeEnd : IsTag codeEnd :=
  @IsTag.intro "/code".toList (by decide)

/-- The match of a recogniser of tags: one tag, which shows nothing. -/
def ShowsNothing (tag shown : List Char) : Prop := IsTag tag ∧ shown = []

theorem whole_codeStart : Whole codeStart ShowsNothing where
  starts h := startTag?_cons h _
  splits h hrun := by
    obtain ⟨htag, hrest⟩ := startTag?_of_shows (by decide) h hrun
    exact ⟨[], _, rfl, ⟨htag, rfl⟩, hrest⟩

theorem whole_codeTag : Whole codeTag ShowsNothing where
  starts h := by
    show RawTag.eitherTag? "code" _ = none
    unfold RawTag.eitherTag? RawTag.tag?
    rw [startTag?_cons h]
    simp [after?, Ne.symm h]
  splits {html text rest tag} h hrun := by
    have hrun' : RawTag.eitherTag? "code" html = some (tag, rest) := hrun
    unfold RawTag.eitherTag? at hrun'
    have hfound : IsTag tag ∧ Shows rest text := by
      split at hrun'
      · next hstart =>
        cases hrun'
        exact startTag?_of_shows (by decide) h hstart
      · exact h.of_tag? (by decide) hrun'
    exact ⟨[], text, rfl, ⟨hfound.1, rfl⟩, hfound.2⟩

/-- A preformatted block in HTML: a tag, and HTML that shows the text of the block. -/
def PreBlock.Holds (block : PreBlock) (shown : List Char) : Prop :=
  IsTag block.opening ∧ Shows block.inside shown

theorem whole_preBlock : Whole preBlock PreBlock.Holds where
  starts h := by
    show preBlock? _ = none
    unfold preBlock?
    rw [startTag?_cons h]
  splits {html text rest block} h hrun := by
    obtain ⟨t, hopening, hcut⟩ := exists_of_preBlock? hrun
    obtain ⟨htag, ht⟩ := startTag?_of_shows (by decide) h hopening
    obtain ⟨shown, left, rfl, hinside, hrest⟩ := ht.of_cutAt? isTag_preEnd hcut
    exact ⟨shown, left, rfl, ⟨htag, hinside⟩, hrest⟩

/-- A block of code in HTML: two tags with white space between them, and HTML that shows the text of the
code. -/
structure CodeBlock.Holds (block : CodeBlock) (shown : List Char) : Prop where
  /-- The block starts with one tag. -/
  preStart : IsTag block.preStart
  /-- The code starts with one tag. -/
  codeStart : IsTag block.codeStart
  /-- Between the tags there is text only. -/
  space : Unbracketed block.space
  /-- The white space and the code show all of the text. -/
  content : ∃ code, shown = block.space ++ code ∧ Shows block.content code

theorem ne_of_isBlank {c : Char} (h : isBlank c = true) : c ≠ '<' ∧ c ≠ '>' := by
  refine ⟨?_, ?_⟩ <;> rintro rfl <;> exact absurd h (by decide)

theorem whole_codeBlock : Whole codeBlock CodeBlock.Holds where
  starts h := by
    show codeBlock? _ = none
    unfold codeBlock?
    rw [startTag?_cons h]
  splits {html text rest block} h hrun := by
    obtain ⟨t, u, hpre, hspace, hstart, hcut⟩ := exists_of_codeBlock? hrun
    obtain ⟨hpreTag, ht⟩ := startTag?_of_shows (by decide) h hpre
    have hblank : ∀ c ∈ block.space, isBlank c = true := fun c hc =>
      List.all_eq_true.1 List.all_takeWhile c (hspace ▸ hc)
    rw [← @List.takeWhile_append_dropWhile _ isBlank t, hspace] at ht
    obtain ⟨left, rfl, hleft⟩ := ht.of_unbracketed_append fun c hc => (ne_of_isBlank (hblank c hc)).1
    obtain ⟨hstartTag, hu⟩ := startTag?_of_shows (by decide) hleft hstart
    obtain ⟨code, left, rfl, hcode, hrest⟩ := hu.of_cutAt? isTag_codeEnd hcut
    exact ⟨block.space ++ code, left, by simp,
      ⟨hpreTag, hstartTag, fun c hc => ne_of_isBlank (hblank c hc), code, rfl, hcode⟩, hrest⟩

/-! ## What they put in its place -/

theorem PreBlock.Holds.merged {block : PreBlock} {shown : List Char} (h : block.Holds shown) :
    Shows block.merged shown := by
  obtain ⟨hopening, hinside⟩ := h
  unfold PreBlock.merged
  split
  · next start hfind =>
    obtain ⟨-, hstart, -⟩ := hinside.of_mem_findAll whole_codeStart (List.mem_of_head? hfind)
    have hcode : Shows (codeTag.replace (fun _ => []) block.inside) shown :=
      hinside.replace whole_codeTag fun ⟨_, hnil⟩ => hnil ▸ .nil
    rw [List.append_assoc, List.append_assoc, List.append_assoc]
    refine .tag hopening (.tag hstart ?_)
    simpa using hcode.append ((Shows.of_isTag isTag_codeEnd).append (.of_isTag isTag_preEnd))
  · rw [List.append_assoc]
    refine .tag hopening ?_
    simpa using hinside.append (.of_isTag isTag_preEnd)

/-- What the options put into tags holds no bracket, and what stands for a blank shows no text. -/
structure Options.Tidy (options : Options) : Prop where
  /-- What stands for a blank is made of tags. -/
  cloze : Shows options.cloze []
  /-- The classes of a preformatted block that holds code. -/
  codeBlockClass : Unbracketed options.codeBlockClass
  /-- The classes of the code in such a block. -/
  codeBlockCodeClass : Unbracketed options.codeBlockCodeClass
  /-- The classes of other code. -/
  inlineCodeClass : Unbracketed options.inlineCodeClass
  /-- The attribute that names the language of code. -/
  languageAttribute : Unbracketed options.languageAttribute

theorem isTag_cloze :
    IsTag "<input class=cloze-input type=text readonly aria-label=blank>".toList :=
  @IsTag.intro "input class=cloze-input type=text readonly aria-label=blank".toList (by decide)

theorem tidy_default : Options.Tidy {} where
  cloze := .of_isTag isTag_cloze
  codeBlockClass := by decide
  codeBlockCodeClass := by decide
  inlineCodeClass := by decide
  languageAttribute := by decide

/-- The highlighter and the classes of wrappers do not count. -/
theorem tidy_of_defaults (highlighter : Option Highlighter) (choices whole : List Char) :
    Options.Tidy { choiceWrapperClass := choices, bodyWrapperClass := whole, highlighter } where
  cloze := tidy_default.cloze
  codeBlockClass := tidy_default.codeBlockClass
  codeBlockCodeClass := tidy_default.codeBlockCodeClass
  inlineCodeClass := tidy_default.inlineCodeClass
  languageAttribute := tidy_default.languageAttribute

theorem unbracketed_of_mem_words {classes name : List Char} (hclasses : Unbracketed classes)
    (h : name ∈ words classes) : Unbracketed name := hclasses.of_subset (subset_of_mem_words h)

theorem isTag_taggedStart {options : Options} {classes language start : List Char}
    (htidy : options.Tidy) (hclasses : Unbracketed classes) (hlanguage : Unbracketed language)
    (hstart : IsTag start) : IsTag (taggedStart options classes language start) :=
  StartTag.isTag_setAttribute htidy.languageAttribute hlanguage <|
    StartTag.isTag_addClasses hstart fun _ => unbracketed_of_mem_words hclasses

/-- The language of code by its start tag. -/
def languageOf (start : List Char) : List Char :=
  match Language.ofTag start with
  | some language => Language.normalize language
  | none => Language.plain

theorem unbracketed_languageOf {start : List Char} (h : IsTag start) :
    Unbracketed (languageOf start) := by
  unfold languageOf
  split
  · next language hdeclared =>
    exact Language.unbracketed_normalize (Language.unbracketed_of_ofTag h hdeclared)
  · exact (by decide : Unbracketed Language.plain)

theorem CodeBlock.Holds.unbracketed_language {block : CodeBlock} {shown : List Char}
    (h : block.Holds shown) : Unbracketed block.language :=
  unbracketed_languageOf h.codeStart

theorem CodeBlock.Holds.tagged {options : Options} (htidy : options.Tidy) {block : CodeBlock}
    {shown : List Char} (h : block.Holds shown) :
    Shows (block.tagged options block.language block.content) shown := by
  obtain ⟨code, rfl, hcode⟩ := h.content
  have hlanguage := h.unbracketed_language
  unfold CodeBlock.tagged
  rw [List.append_assoc, List.append_assoc, List.append_assoc]
  refine .tag (isTag_taggedStart htidy htidy.codeBlockClass hlanguage h.preStart) ?_
  refine (Shows.of_unbracketed h.space).append ?_
  refine .tag (isTag_taggedStart htidy htidy.codeBlockCodeClass hlanguage h.codeStart) ?_
  simpa using hcode.append (.of_isTag isTag_codeEnd)

theorem isTag_inlineStart {options : Options} (htidy : options.Tidy) {start : List Char}
    (h : IsTag start) : IsTag (inlineStart options start) := by
  have hmarked : IsTag (StartTag.addClasses start (words options.inlineCodeClass)) :=
    StartTag.isTag_addClasses h fun _ => unbracketed_of_mem_words htidy.inlineCodeClass
  unfold inlineStart
  split
  · exact h
  · split
    · next language hlanguage =>
      exact StartTag.isTag_setAttribute htidy.languageAttribute
        (Language.unbracketed_normalize (Language.unbracketed_of_ofTag h hlanguage)) hmarked
    · exact hmarked

/-! ## The passes -/

/-- Joining the fragments of code leaves the text that is shown. -/
theorem shows_mergeFragments {html text : List Char} (h : Shows html text) :
    Shows (mergeFragments html) text :=
  h.replace whole_preBlock PreBlock.Holds.merged

/-- Marking other code leaves the text that is shown. -/
theorem shows_decorateInline {options : Options} (htidy : options.Tidy) {html text : List Char}
    (h : Shows html text) : Shows (decorateInline options html) text := by
  refine h.replace whole_codeStart ?_
  rintro start shown ⟨hstart, rfl⟩
  exact .of_isTag (isTag_inlineStart htidy hstart)

/-- Without a highlighter, the passes give HTML that shows the same text. -/
theorem finishHtml_shows {options : Options} (htidy : options.Tidy)
    (hnone : options.highlighter = none) {html text : List Char} (h : Shows html text) :
    ∃ finished, (finishHtml options html).result = .ok finished ∧ Shows finished text := by
  have hblocks : Shows (codeBlock.replace
      (fun block => block.tagged options block.language block.content) (mergeFragments html)) text :=
    (shows_mergeFragments h).replace whole_codeBlock (CodeBlock.Holds.tagged htidy)
  refine ⟨_, ?_, shows_decorateInline htidy hblocks⟩
  unfold finishHtml decorateBlocks
  rw [hnone]
  rfl

end Assessment.Report
